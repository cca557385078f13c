import TokenRegistry.Proofs.Registry.CommandTable

/-!
# Tokens do not depend on each other

A command looks at the token under its slug and at balances in the name of that
token, and it changes nothing else. So what becomes of a token can be told from the
commands under its slug alone, and commands under different slugs may change places.
-/
namespace TokenRegistry

namespace Holdings

section Parts

variable {h : Holdings} {slug label denom : String} {t : Token} {a : Address} {n : Int}

theorem token_of_owned {sender : Address} (hok : h.owned label slug sender = .ok t) :
    h.token slug = some t := by
  rw [owned] at hok
  cases htoken : h.token slug with
  | none =>
    rw [htoken] at hok
    cases hok
  | some t' =>
    simp only [htoken] at hok
    split at hok
    · cases hok
      rfl
    · cases hok

variable [Slug.Spelling]

def Filed (h : Holdings) : Prop := ∀ slug t, h.token slug = some t → t.slug = slug

/-- What there is under one slug: its token, and the units of the denominations that have it. -/
def only (h : Holdings) (slug : String) : Holdings where
  token s := if s = slug then h.token s else none
  balance a denom := if Slug.ofName denom = slug then h.balance a denom else 0

theorem token_only : (h.only slug).token slug = h.token slug := if_pos rfl

theorem balance_only (hdenom : Slug.ofName denom = slug) :
    (h.only slug).balance a denom = h.balance a denom := if_pos hdenom

theorem only_register : (h.register slug t).only slug = (h.only slug).register slug t := by
  simp only [only, register, mk.injEq, and_true]
  funext s
  by_cases hs : s = slug <;> simp [hs]

theorem only_pay (hdenom : Slug.ofName denom = slug) :
    (h.pay a denom n).only slug = (h.only slug).pay a denom n := by
  simp only [only, pay, mk.injEq, true_and]
  funext x d
  by_cases hd : d = denom
  · simp [hd, hdenom]
  · simp [hd]

theorem only_register_of_ne {s : String} (hne : s ≠ slug) :
    (h.register s t).only slug = h.only slug := by
  simp only [only, register, mk.injEq, and_true]
  funext s'
  by_cases hs : s' = slug
  · simp [hs, hne.symm]
  · simp [hs]

theorem only_pay_of_ne (hdenom : Slug.ofName denom ≠ slug) :
    (h.pay a denom n).only slug = h.only slug := by
  simp only [only, pay, mk.injEq, true_and]
  funext x d
  by_cases hd : d = denom
  · simp [hd, hdenom]
  · simp [hd]

theorem owned_only (sender : Address) :
    (h.only slug).owned label slug sender = h.owned label slug sender := by
  simp only [owned, token_only]

theorem shortage_only (hdenom : Slug.ofName denom = slug) :
    (h.only slug).shortage a denom n = h.shortage a denom n := by
  simp only [shortage, balance_only hdenom]

theorem owned_only_cases (hfiled : h.Filed) (label slug : String) (sender : Address) :
    (∃ e, h.owned label slug sender = .error e ∧ (h.only slug).owned label slug sender = .error e) ∨
    (∃ t, t.slug = slug ∧ h.owned label slug sender = .ok t ∧
      (h.only slug).owned label slug sender = .ok t) := by
  rw [owned_only]
  cases howned : h.owned label slug sender with
  | error e => exact .inl ⟨e, rfl, rfl⟩
  | ok t => exact .inr ⟨t, hfiled slug t (token_of_owned howned), rfl, rfl⟩

theorem create_only (c : Creation) :
    (h.only (Slug.ofName c.name)).create c = (h.create c).map (only · (Slug.ofName c.name)) := by
  simp only [create, token_only]
  cases h.token (Slug.ofName c.name) with
  | some t => rfl
  | none => simp only [Except.map, only_pay, only_register]

theorem transfer_only (hfiled : h.Filed) (label : String) (c : Transfer) :
    (h.only (Slug.ofName c.name)).transfer label c =
      (h.transfer label c).map (only · (Slug.ofName c.name)) := by
  rcases owned_only_cases hfiled label (Slug.ofName c.name) c.previousOwner with
    ⟨e, he, he'⟩ | ⟨t, -, ht, ht'⟩
  · simp [transfer, he, he', bind, Except.bind, Except.map]
  · simp [transfer, ht, ht', bind, Except.bind, pure, Except.pure, Except.map, only_register]

theorem mint_only (hfiled : h.Filed) (label : String) (c : Minting) :
    (h.only (Slug.ofName c.name)).mint label c =
      (h.mint label c).map (only · (Slug.ofName c.name)) := by
  rcases owned_only_cases hfiled label (Slug.ofName c.name) c.owner with
    ⟨e, he, he'⟩ | ⟨t, hslug, ht, ht'⟩
  · simp [mint, he, he', bind, Except.bind, Except.map]
  · simp [mint, ht, ht', bind, Except.bind, pure, Except.pure, Except.map, only_register,
      only_pay hslug]

theorem burn_only (hfiled : h.Filed) (label : String) (c : Burning) :
    (h.only (Slug.ofName c.name)).burn label c =
      (h.burn label c).map (only · (Slug.ofName c.name)) := by
  rcases owned_only_cases hfiled label (Slug.ofName c.name) c.owner with
    ⟨e, he, he'⟩ | ⟨t, hslug, ht, ht'⟩
  · simp [burn, he, he', bind, Except.bind, Except.map]
  · simp only [burn, ht, ht', bind, Except.bind, balance_only hslug, shortage_only hslug]
    split
    · rfl
    · simp [pure, Except.pure, Except.map, only_register, only_pay hslug]

theorem answer_only (hfiled : h.Filed) (label : String) (c : Command) :
    (h.only c.slug).answer label c = (h.answer label c).map (only · c.slug) := by
  cases hc : c.complaints with
  | cons complaint rest => simp only [answer, hc, Except.map]
  | nil =>
    simp only [answer, hc]
    cases c with
    | create c => exact create_only c
    | transfer c => exact transfer_only hfiled label c
    | mint c => exact mint_only hfiled label c
    | burn c => exact burn_only hfiled label c

end Parts

end Holdings

namespace Registry

theorem issuedBy_of_perm {cs cs' : List Command} (h : cs'.Perm cs) :
    issuedBy cs' = issuedBy cs := (h.map _).sum_nat

def under [Slug.Spelling] (slug : String) (cs : List Command) : List Command :=
  cs.filter fun c => c.slug = slug

section Runs

variable [Slug.Spelling] {bound bound' : Nat} {r r' : InMemory} {slug : String} {c : Command}

def answers : InMemory → List Command → List (Command × Except RegistryError Receipt)
  | _, [] => []
  | r, c :: cs => (c, (execute c r).1) :: answers (execute c r).2 cs

def answersUnder (slug : String) (as : List (Command × Except RegistryError Receipt)) :
    List (Command × Except RegistryError Receipt) :=
  as.filter fun a => a.1.slug = slug

structure Alike (slug : String) (r r' : InMemory) : Prop where
  holdings : (holdings r').only slug = (holdings r).only slug
  config : r'.config = r.config

theorem under_cons (cs : List Command) :
    under slug (c :: cs) = if c.slug = slug then c :: under slug cs else under slug cs := by
  simp [under, List.filter_cons]

theorem answersUnder_cons (a : Command × Except RegistryError Receipt)
    (as : List (Command × Except RegistryError Receipt)) :
    answersUnder slug (a :: as) =
      if a.1.slug = slug then a :: answersUnder slug as else answersUnder slug as := by
  simp [answersUnder, List.filter_cons]

theorem issuedBy_under_le (slug : String) (cs : List Command) :
    issuedBy (under slug cs) ≤ issuedBy cs := by
  induction cs with
  | nil => exact Nat.le_refl _
  | cons c cs ih =>
    rw [under_cons]
    split <;> simp only [issuedBy_cons] <;> omega

theorem Sound.filed (h : Sound bound r) (hroom : Room bound) : (holdings r).Filed :=
  fun _ _ ht => (h.of_token? hroom ht).1

theorem Sound.execute_config (h : Sound bound r) (c : Command) :
    (Registry.execute c r).2.config = r.config := by
  rcases execute_cases h.balances c with ⟨e, -, hkept⟩ | ⟨t, -, -, -, happlied⟩
  · exact hkept.config
  · exact happlied.config

theorem Sound.execute_alike (h : Sound bound r) (h' : Sound bound' r') (hfits : c.Fits)
    (hroom : Room (bound + c.issue.toNat)) (hroom' : Room (bound' + c.issue.toNat))
    (halike : Alike c.slug r r') :
    (Registry.execute c r').1 = (Registry.execute c r).1 ∧
      Alike c.slug (Registry.execute c r).2 (Registry.execute c r').2 := by
  have hanswer := h.execute_answer hfits hroom
  have hanswer' := h'.execute_answer hfits hroom'
  have honly := Holdings.answer_only (h.filed (hroom.mono (Nat.le_add_right _ _)))
    r.config.addressLabel c
  have honly' := Holdings.answer_only (h'.filed (hroom'.mono (Nat.le_add_right _ _)))
    r.config.addressLabel c
  rw [halike.holdings, honly] at honly'
  rw [halike.config] at hanswer'
  have hconfig : (Registry.execute c r').2.config = (Registry.execute c r).2.config := by
    rw [h.execute_config, h'.execute_config, halike.config]
  generalize (holdings r).answer r.config.addressLabel c = answer at hanswer honly'
  generalize (holdings r').answer r.config.addressLabel c = answer' at hanswer' honly'
  cases answer with
  | error e =>
    cases answer' with
    | ok next => cases honly'
    | error e' =>
      cases honly'
      refine ⟨hanswer'.1.trans hanswer.1.symm, ?_, hconfig⟩
      rw [hanswer.2, hanswer'.2, halike.holdings]
  | ok next =>
    cases answer' with
    | error e => cases honly'
    | ok next' =>
      refine ⟨hanswer'.1.trans hanswer.1.symm, ?_, hconfig⟩
      rw [hanswer.2, hanswer'.2]
      exact (Except.ok.inj honly').symm

theorem Sound.execute_apart (h : Sound bound r) (hfits : c.Fits)
    (hroom : Room (bound + c.issue.toNat)) (hne : c.slug ≠ slug) :
    Alike slug r (Registry.execute c r).2 := by
  refine ⟨?_, h.execute_config c⟩
  rcases execute_cases h.balances c with ⟨e, -, hkept⟩ | ⟨t, -, hwell, haccepts, happlied⟩
  · rw [holdings_of_kept hkept]
  · have hslug : t.slug = c.slug :=
      (h.succession (hroom.mono (Nat.le_add_right _ _)) hfits hwell haccepts).slug
    rw [holdings_of_applied happlied (h.decode_accepted hfits hroom hwell haccepts happlied),
      Holdings.only_pay_of_ne fun hdenom => hne (hslug.symm.trans hdenom),
      Holdings.only_register_of_ne hne]

theorem Sound.after_alike (h : Sound bound r) (h' : Sound bound' r') {cs : List Command}
    (hfits : ∀ c ∈ cs, c.Fits) (hroom : Room (bound + issuedBy cs))
    (hroom' : Room (bound' + issuedBy (under slug cs))) (halike : Alike slug r r') :
    answers r' (under slug cs) = answersUnder slug (answers r cs) ∧
      Alike slug (Registry.after r cs) (Registry.after r' (under slug cs)) := by
  -- Both runs are sound, each with a bound of its own: the second one issues less.
  induction cs generalizing bound bound' r r' with
  | nil => exact ⟨rfl, halike⟩
  | cons c cs ih =>
    have hhead := hfits c List.mem_cons_self
    have htail : ∀ x ∈ cs, x.Fits := fun x hx => hfits x (List.mem_cons_of_mem _ hx)
    rw [issuedBy_cons, ← Nat.add_assoc] at hroom
    have hroom₁ : Room (bound + c.issue.toNat) := hroom.mono (Nat.le_add_right _ _)
    have hnext := h.execute (hroom₁.mono (Nat.le_add_right _ _)) hhead
    rw [answers, answersUnder_cons]
    by_cases hslug : c.slug = slug
    · subst hslug
      rw [under_cons, if_pos rfl] at hroom' ⊢
      rw [issuedBy_cons, ← Nat.add_assoc] at hroom'
      have hroom₂ : Room (bound' + c.issue.toNat) := hroom'.mono (Nat.le_add_right _ _)
      have hnext' := h'.execute (hroom₂.mono (Nat.le_add_right _ _)) hhead
      obtain ⟨hanswer, hstep⟩ := h.execute_alike h' hhead hroom₁ hroom₂ halike
      obtain ⟨hrest, hafter⟩ := ih hnext hnext' htail hroom hroom' hstep
      rw [if_pos rfl, answers, hanswer, hrest]
      exact ⟨rfl, hafter⟩
    · -- Only the first run makes this step, and it does not show under the slug.
      rw [under_cons, if_neg hslug] at hroom' ⊢
      have hstep := h.execute_apart hhead hroom₁ hslug
      have hnext' : Alike slug (Registry.execute c r).2 r' :=
        ⟨halike.holdings.trans hstep.holdings.symm, halike.config.trans hstep.config.symm⟩
      rw [if_neg hslug]
      exact ih hnext h' htail hroom hroom' hnext'

theorem Sound.get?_eq (h : Sound bound r) (hroom : Room bound) (slug : String) :
    r.store.records.get? (recordKey slug) =
      (r.store.records.token? slug).map Token.encode := by
  cases htoken : r.store.records.token? slug with
  | none => exact (h.token?_eq_none hroom).mp htoken
  | some t =>
    obtain ⟨hslug, hholds, -⟩ := h.of_token? hroom htoken
    rw [← hslug]
    exact hholds

theorem Alike.token? (h : Alike slug r r') :
    r'.store.records.token? slug = r.store.records.token? slug := by
  have hside := congrFun (congrArg Holdings.token h.holdings) slug
  rwa [Holdings.token_only, Holdings.token_only] at hside

theorem Alike.balance (h : Alike slug r r') {denom : String} (hdenom : Slug.ofName denom = slug)
    (a : Address) : r'.ledger.balance a denom = r.ledger.balance a denom := by
  have hside := congrFun (congrFun (congrArg Holdings.balance h.holdings) a) denom
  rwa [Holdings.balance_only hdenom, Holdings.balance_only hdenom] at hside

theorem Sound.get?_of_alike (h : Sound bound r) (h' : Sound bound' r') (hroom : Room bound)
    (hroom' : Room bound') (halike : Alike slug r r') :
    r'.store.records.get? (recordKey slug) = r.store.records.get? (recordKey slug) := by
  rw [h.get?_eq hroom, h'.get?_eq hroom', halike.token?]

theorem Sound.get?_eq_none (h : Sound bound r) {key : Bytes} (hkey : ∀ slug, key ≠ recordKey slug) :
    r.store.records.get? key = none := by
  cases hget : r.store.records.get? key with
  | none => rfl
  | some bytes =>
    obtain ⟨t, heq, -⟩ := h.records key bytes hget
    exact absurd heq (hkey t.slug)

theorem Sound.store_eq (h : Sound bound r) (h' : Sound bound' r') (hroom : Room bound)
    (hroom' : Room bound') (halike : ∀ slug, Alike slug r r') : r'.store = r.store := by
  have hrecords : r'.store.records = r.store.records := by
    apply OrderedMap.ext_get?
    intro key
    by_cases hkey : ∃ slug, key = recordKey slug
    · obtain ⟨slug, rfl⟩ := hkey
      exact h.get?_of_alike h' hroom hroom' (halike slug)
    · have hnone : ∀ slug, key ≠ recordKey slug := fun slug heq => hkey ⟨slug, heq⟩
      rw [h.get?_eq_none hnone, h'.get?_eq_none hnone]
  cases hr : r.store
  cases hr' : r'.store
  rw [hr, hr'] at hrecords
  exact congrArg MemoryStore.mk hrecords

theorem perm_of_under {cs cs' : List Command} (h : ∀ slug, under slug cs' = under slug cs) :
    cs'.Perm cs := by
  apply List.perm_iff_count.mpr
  intro c
  have hcount : ∀ cs, List.count c (under c.slug cs) = List.count c cs := fun cs =>
    List.count_filter (decide_eq_true rfl)
  rw [← hcount cs', ← hcount cs, h]

/-- What a run from an empty start leaves under a slug, and answers to the commands under it, is
told by these commands alone; so the order of commands under different slugs does not matter. -/
theorem independent_of_run {r : InMemory} (hstore : r.store = .empty) (hledger : r.ledger = .empty)
    {cs : List Command} (hfits : ∀ c ∈ cs, c.Fits) (hroom : Room (issuedBy cs)) :
    (∀ slug,
      (after r cs).store.records.get? (recordKey slug) =
          (after r (under slug cs)).store.records.get? (recordKey slug) ∧
        (∀ a denom, Slug.ofName denom = slug →
          (after r cs).ledger.balance a denom =
            (after r (under slug cs)).ledger.balance a denom) ∧
        answersUnder slug (answers r cs) = answers r (under slug cs)) ∧
    (∀ cs', (∀ slug, under slug cs' = under slug cs) →
      (after r cs').store = (after r cs).store ∧
        (∀ a denom, (after r cs').ledger.balance a denom = (after r cs).ledger.balance a denom) ∧
        ∀ slug, answersUnder slug (answers r cs') = answersUnder slug (answers r cs)) := by
  have hempty := Sound.of_empty hstore hledger
  -- The run of the commands under one slug is what any two runs are compared with.
  have hrun : ∀ {cs : List Command}, (∀ c ∈ cs, c.Fits) → Room (issuedBy cs) → ∀ slug,
      answers r (under slug cs) = answersUnder slug (answers r cs) ∧
        Alike slug (after r cs) (after r (under slug cs)) := by
    intro cs hfits hroom slug
    refine hempty.after_alike hempty hfits (hroom.mono (by omega)) (hroom.mono ?_) ⟨rfl, rfl⟩
    have := issuedBy_under_le slug cs
    omega
  have hsound : ∀ {cs : List Command}, (∀ c ∈ cs, c.Fits) → Room (issuedBy cs) →
      Sound (issuedBy cs) (after r cs) := by
    intro cs hfits hroom
    have hafter := hempty.after hfits (hroom.mono (by omega))
    rwa [Nat.zero_add] at hafter
  constructor
  · intro slug
    obtain ⟨hanswers, halike⟩ := hrun hfits hroom slug
    have hroom' : Room (issuedBy (under slug cs)) := hroom.mono (issuedBy_under_le slug cs)
    have hfits' : ∀ c ∈ under slug cs, c.Fits := fun c hc => hfits c (List.mem_filter.mp hc).1
    refine ⟨?_, fun a denom hdenom => (halike.balance hdenom a).symm, hanswers.symm⟩
    exact ((hsound hfits hroom).get?_of_alike (hsound hfits' hroom') hroom hroom' halike).symm
  · intro cs' hunder
    have hperm := perm_of_under hunder
    have hfits' : ∀ c ∈ cs', c.Fits := fun c hc => hfits c (hperm.mem_iff.mp hc)
    have hroom' : Room (issuedBy cs') := by
      rw [issuedBy_of_perm hperm]
      exact hroom
    have halike : ∀ slug, Alike slug (after r cs) (after r cs') := by
      intro slug
      obtain ⟨-, hleft⟩ := hrun hfits hroom slug
      obtain ⟨-, hright⟩ := hrun hfits' hroom' slug
      rw [hunder] at hright
      exact ⟨hright.holdings.symm.trans hleft.holdings, hright.config.symm.trans hleft.config⟩
    refine ⟨?_, fun a denom => (halike (Slug.ofName denom)).balance rfl a, ?_⟩
    · exact (hsound hfits hroom).store_eq (hsound hfits' hroom') hroom hroom' halike
    · intro slug
      rw [← (hrun hfits hroom slug).1, ← (hrun hfits' hroom' slug).1, hunder]

end Runs

def interleaved : List Command :=
  [.create ⟨"Ore", 5, ⟨[1]⟩⟩, .create ⟨"Tin", 2, ⟨[2]⟩⟩, .burn ⟨⟨[1]⟩, "ORE", 7⟩,
    .mint ⟨⟨[2]⟩, "tin", 4⟩, .transfer ⟨"ore", ⟨[1]⟩, ⟨[2]⟩⟩]

def rearranged : List Command :=
  [.create ⟨"Tin", 2, ⟨[2]⟩⟩, .mint ⟨⟨[2]⟩, "tin", 4⟩, .create ⟨"Ore", 5, ⟨[1]⟩⟩,
    .burn ⟨⟨[1]⟩, "ORE", 7⟩, .transfer ⟨"ore", ⟨[1]⟩, ⟨[2]⟩⟩]

theorem under_rearranged (slug : String) : under slug rearranged = under slug interleaved := by
  by_cases hore : "ore" = slug
  · subst hore
    decide +kernel
  · by_cases htin : "tin" = slug
    · subst htin
      decide +kernel
    · have hslug : ∀ c ∈ interleaved ++ rearranged, c.slug = "ore" ∨ c.slug = "tin" := by
        decide +kernel
      have hother : ∀ c ∈ interleaved ++ rearranged, ¬ decide (c.slug = slug) = true := by
        intro c hc
        have := hslug c hc
        grind
      rw [under, under,
        List.filter_eq_nil_iff.mpr fun c hc => hother c (List.mem_append_right _ hc),
        List.filter_eq_nil_iff.mpr fun c hc => hother c (List.mem_append_left _ hc)]

theorem independent_of_interleaving :
    (∀ c ∈ interleaved, c.Fits) ∧ Room (issuedBy interleaved) ∧
      (after ⟨.empty, .empty, .standard, []⟩ rearranged : InMemory).store =
        (after ⟨.empty, .empty, .standard, []⟩ interleaved : InMemory).store ∧
      (under "ore" interleaved).length = 3 ∧
      answersUnder "ore" (answers ⟨.empty, .empty, .standard, []⟩ interleaved) =
        answers ⟨.empty, .empty, .standard, []⟩ (under "ore" interleaved) := by
  have hfits : ∀ c ∈ interleaved, c.Fits := by decide +kernel
  have hroom : Room (issuedBy interleaved) := by decide +kernel
  obtain ⟨hunder, hreorder⟩ :=
    @independent_of_run _ ⟨.empty, .empty, .standard, []⟩ rfl rfl interleaved hfits hroom
  refine ⟨hfits, hroom, (hreorder rearranged under_rearranged).1, ?_, (hunder "ore").2.2⟩
  decide +kernel

end Registry

end TokenRegistry
