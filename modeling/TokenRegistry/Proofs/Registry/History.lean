import TokenRegistry.Proofs.Registry.Soundness

/-!
# The history of a token

What is recorded of a token is what the accepted commands under its slug tell: one
creation and after it what its owners of the time have asked for. A rejected command
and a command under another slug leave no trace.
-/
namespace TokenRegistry.Registry

def heir : (owner : Address) → List Command → Address
  | owner, [] => owner
  | _, .transfer c :: cs => heir c.newOwner cs
  | owner, .create _ :: cs => heir owner cs
  | owner, .mint _ :: cs => heir owner cs
  | owner, .burn _ :: cs => heir owner cs

theorem heir_append (owner : Address) (cs cs' : List Command) :
    heir owner (cs ++ cs') = heir (heir owner cs) cs' := by
  induction cs generalizing owner with
  | nil => rfl
  | cons c cs ih =>
    cases c with
    | create c => exact ih owner
    | transfer c => exact ih c.newOwner
    | mint c => exact ih owner
    | burn c => exact ih owner

/-- What a creation and the commands after it leave of a token. -/
def tokenAfter (c : Creation) (cs : List Command) : Token :=
  ⟨c.name, c.supply + (cs.map Command.issue).sum, heir c.creator cs⟩

theorem settle_tokenAfter {x : Command} (hkind : x.kind ≠ .create) (c : Creation)
    (cs : List Command) : x.settle (some (tokenAfter c cs)) = some (tokenAfter c (cs ++ [x])) := by
  have hsum : ((cs ++ [x]).map Command.issue).sum = (cs.map Command.issue).sum + x.issue := by
    rw [List.map_append, List.sum_append, List.map_singleton, List.sum_singleton]
  rw [tokenAfter, tokenAfter, heir_append, hsum, ← Int.add_assoc]
  cases x with
  | create b => exact absurd rfl hkind
  | transfer b =>
    rw [Command.issue, Int.add_zero]
    rfl
  | mint b => rfl
  | burn b => rfl

/-- The record under a slug is what the accepted commands of the past make it. -/
inductive Chronicle (slug : String) (rs : Records) : List Command → Prop
  | unborn (habsent : rs.get? (recordKey slug) = none) : Chronicle slug rs []
  | born {c : Creation} {cs : List Command} (hlater : ∀ x ∈ cs, x.kind ≠ .create)
      (htoken : rs.token? slug = some (tokenAfter c cs)) : Chronicle slug rs (.create c :: cs)

theorem Chronicle.congr {slug : String} {rs rs' : Records} {past : List Command}
    (h : Chronicle slug rs past) (hget : rs'.get? (recordKey slug) = rs.get? (recordKey slug)) :
    Chronicle slug rs' past := by
  cases h with
  | unborn habsent => exact .unborn (hget.trans habsent)
  | born hlater htoken =>
    refine .born hlater ?_
    rw [Records.token?, hget]
    exact htoken

theorem Chronicle.absent {slug : String} {rs : Records} {past : List Command}
    (h : Chronicle slug rs past) (habsent : rs.get? (recordKey slug) = none) : past = [] := by
  cases h with
  | unborn _ => rfl
  | born hlater htoken =>
    rw [Records.token?, habsent] at htoken
    cases htoken

theorem Chronicle.present {slug : String} {rs : Records} {past : List Command}
    (h : Chronicle slug rs past) {t : Token} (ht : rs.token? slug = some t) :
    ∃ c cs, past = .create c :: cs ∧ (∀ x ∈ cs, x.kind ≠ .create) ∧ t = tokenAfter c cs := by
  cases h with
  | unborn habsent =>
    rw [Records.token?, habsent] at ht
    cases ht
  | born hlater htoken => exact ⟨_, _, rfl, hlater, Option.some.inj (ht.symm.trans htoken)⟩

theorem Chronicle.contains_iff {slug : String} {rs : Records} {past : List Command}
    (h : Chronicle slug rs past) :
    rs.contains (recordKey slug) ↔ ∃ c, Command.create c ∈ past := by
  cases h with
  | unborn habsent =>
    rw [OrderedMap.contains, habsent]
    constructor
    · intro h
      exact absurd h Bool.false_ne_true
    · rintro ⟨c, hc⟩
      exact absurd hc List.not_mem_nil
  | @born c cs hlater htoken =>
    obtain ⟨bytes, hget, -⟩ := Records.token?_eq_some_iff.mp htoken
    rw [OrderedMap.contains, hget]
    exact ⟨fun _ => ⟨c, List.mem_cons_self⟩, fun _ => rfl⟩

theorem Chronicle.token_of_create {slug : String} {rs : Records} {past : List Command}
    (h : Chronicle slug rs past) {c : Creation} (hc : Command.create c ∈ past) :
    ∃ later, past = .create c :: later ∧ (∀ x ∈ later, x.kind ≠ .create) ∧
      rs.token? slug = some (tokenAfter c later) := by
  cases h with
  | unborn habsent => exact absurd hc List.not_mem_nil
  | @born b cs hlater htoken =>
    rcases List.mem_cons.mp hc with heq | hmem
    · cases heq
      exact ⟨cs, rfl, hlater, htoken⟩
    · exact absurd rfl (hlater _ hmem)

section Runs

variable [Slug.Spelling]

def past (slug : String) : InMemory → List Command → List Command
  | _, [] => []
  | r, c :: cs =>
    if (execute c r).1.isOk ∧ c.slug = slug then c :: past slug (execute c r).2 cs
    else past slug (execute c r).2 cs

variable {bound : Nat} {r r' : InMemory}

theorem Chronicle.extend {past : List Command} {c : Command} {old t : Token}
    (h : Chronicle c.slug r.store.records past) (hkind : c.kind ≠ .create)
    (hold : r.store.records.token? c.slug = some old) (happlied : Applied c t r r')
    (htoken : r'.store.records.token? c.slug = some t) :
    Chronicle c.slug r'.store.records (past ++ [c]) := by
  obtain ⟨b, cs, rfl, hlater, rfl⟩ := h.present hold
  have hsettled := happlied.settled
  rw [hold, settle_tokenAfter hkind] at hsettled
  refine .born ?_ (htoken.trans hsettled.symm)
  intro x hx
  rcases List.mem_append.mp hx with hx | hx
  · exact hlater x hx
  · rw [List.mem_singleton.mp hx]
    exact hkind

theorem Chronicle.accept {past : List Command} {c : Command} {t : Token}
    (h : Chronicle c.slug r.store.records past) (haccepts : Accepts r c t)
    (happlied : Applied c t r r') (htoken : r'.store.records.token? c.slug = some t) :
    Chronicle c.slug r'.store.records (past ++ [c]) := by
  cases haccepts with
  | @create c hsupply hfree =>
    rw [h.absent hfree]
    refine .born (fun x hx => absurd hx List.not_mem_nil) (htoken.trans ?_)
    rw [tokenAfter, List.map_nil, List.sum_nil, Int.add_zero, heir]
  | transfer hold howner => exact h.extend Command.Kind.noConfusion hold happlied htoken
  | mint hamount hold howner => exact h.extend Command.Kind.noConfusion hold happlied htoken
  | burn hamount hold howner hcovered =>
    exact h.extend Command.Kind.noConfusion hold happlied htoken

theorem past_append (slug : String) (r : InMemory) (cs cs' : List Command) :
    past slug r (cs ++ cs') = past slug r cs ++ past slug (after r cs) cs' := by
  induction cs generalizing r with
  | nil => rfl
  | cons c cs ih =>
    have hrest := ih (execute c r).2
    rw [List.cons_append, past, past]
    split
    · rw [hrest]
      rfl
    · exact hrest

theorem Chronicle.execute {slug : String} {before : List Command}
    (h : Chronicle slug r.store.records before) (hsound : Sound bound r) {c : Command}
    (hfits : c.Fits) (hroom : Room (bound + c.issue.toNat)) :
    Chronicle slug (execute c r).2.store.records (before ++ past slug r [c]) := by
  rcases execute_cases hsound.balances c with
    ⟨e, herror, hkept⟩ | ⟨t, hok, hwell, haccepts, happlied⟩
  · have hpast : past slug r [c] = [] := by
      rw [past, herror]
      exact if_neg fun h => Bool.false_ne_true h.1
    rw [hpast, List.append_nil]
    exact h.congr (congrArg (OrderedMap.get? · _) hkept.records)
  · by_cases hslug : c.slug = slug
    · subst hslug
      have hpast : past c.slug r [c] = [c] := by
        rw [past, hok]
        exact if_pos ⟨rfl, rfl⟩
      have hdecode := hsound.decode_accepted hfits hroom hwell haccepts happlied
      rw [hpast]
      exact h.accept haccepts happlied (happlied.token? hdecode)
    · have hpast : past slug r [c] = [] := by
        rw [past]
        exact if_neg fun h => hslug h.2
      rw [hpast, List.append_nil]
      exact h.congr (happlied.get?_of_ne fun hkey => hslug (recordKey_injective hkey).symm)

theorem Chronicle.after {slug : String} {before cs : List Command}
    (h : Chronicle slug r.store.records before) (hsound : Sound bound r)
    (hfits : ∀ c ∈ cs, c.Fits) (hroom : Room (bound + issuedBy cs)) :
    Chronicle slug (after r cs).store.records (before ++ past slug r cs) := by
  -- The past grows with the run, so that it is general in the induction.
  suffices hall : ∀ before, Chronicle slug r.store.records before →
      Chronicle slug (Registry.after r cs).store.records (before ++ past slug r cs) from
    hall before h
  refine hsound.along_run ?nil ?cons hfits hroom
  case nil =>
    intro r before h
    rw [past, List.append_nil]
    exact h
  case cons =>
    intro bound r c cs hsound hhead hroom ih before h
    have hrest := ih _ (h.execute hsound hhead hroom)
    rw [List.append_assoc] at hrest
    rwa [show c :: cs = [c] ++ cs from rfl, past_append]

/-- What a command may do: all but creations only what their one signer owns, and nothing to other
records and other balances. -/
structure Lawful (r : InMemory) (c : Command) : Prop where
  signer : (Registry.execute c r).1.isOk → c.kind ≠ .create →
    ∃ t, r.store.records.token? c.slug = some t ∧ Message.signers c = [t.owner]
  records : ∀ key, key ≠ recordKey c.slug →
    (Registry.execute c r).2.store.records.get? key = r.store.records.get? key
  balances : ∀ a denom,
    (Registry.execute c r).2.ledger.balance a denom ≠ r.ledger.balance a denom →
    Message.signers c = [a] ∧
      ∃ t, (Registry.execute c r).2.store.records.token? c.slug = some t ∧ t.name = denom

theorem Accepts.signer {c : Command} {t : Token} (h : Accepts r c t) (hkind : c.kind ≠ .create) :
    ∃ t, r.store.records.token? c.slug = some t ∧ Message.signers c = [t.owner] := by
  cases h with
  | create hsupply hfree => exact absurd rfl hkind
  | transfer hold howner => exact ⟨_, hold, congrArg (fun a => [a]) howner.symm⟩
  | mint hamount hold howner => exact ⟨_, hold, congrArg (fun a => [a]) howner.symm⟩
  | burn hamount hold howner hcovered => exact ⟨_, hold, congrArg (fun a => [a]) howner.symm⟩

theorem Sound.lawful (h : Sound bound r) {c : Command} (hfits : c.Fits)
    (hroom : Room (bound + c.issue.toNat)) : Lawful r c := by
  rcases execute_cases h.balances c with ⟨e, herror, hkept⟩ | ⟨t, hok, hwell, haccepts, happlied⟩
  · refine ⟨?_, fun key _ => congrArg (OrderedMap.get? · key) hkept.records,
      fun a denom hne => absurd (hkept.balance a denom) hne⟩
    intro hisOk
    rw [herror] at hisOk
    cases hisOk
  · have htoken := happlied.token? (h.decode_accepted hfits hroom hwell haccepts happlied)
    refine ⟨fun _ => haccepts.signer, fun key hkey => happlied.get?_of_ne hkey,
      fun a denom hne => ?_⟩
    rw [happlied.books.balance] at hne
    by_cases ha : a = c.sender
    · by_cases hdenom : denom = t.name
      · exact ⟨congrArg (fun a => [a]) ha.symm, t, htoken, hdenom.symm⟩
      · rw [if_pos ha, if_neg hdenom, Int.add_zero] at hne
        exact absurd rfl hne
    · rw [if_neg ha, Int.add_zero] at hne
      exact absurd rfl hne

/-- What there is under a slug after a run from an empty start is there by one accepted creation and
the accepted commands of the owners since; it never goes away, and no step touches anything else. -/
theorem history_of_run {r : InMemory} (hstore : r.store = .empty) (hledger : r.ledger = .empty)
    {cs : List Command} (hfits : ∀ c ∈ cs, c.Fits) (hroom : Room (issuedBy cs)) (slug : String) :
    ((after r cs).store.records.contains (recordKey slug) ↔
      ∃ c, Command.create c ∈ past slug r cs) ∧
    (∀ c, Command.create c ∈ past slug r cs →
      ∃ later, past slug r cs = .create c :: later ∧ (∀ x ∈ later, x.kind ≠ .create) ∧
        (after r cs).store.records.token? slug = some (tokenAfter c later)) ∧
    (∀ before rest, cs = before ++ rest →
      (after r before).store.records.contains (recordKey slug) →
      (after r cs).store.records.contains (recordKey slug)) ∧
    (∀ before c rest, cs = before ++ c :: rest → Lawful (after r before) c) := by
  have hsound := Sound.of_empty hstore hledger
  have hstart : Chronicle slug r.store.records [] := by
    rw [hstore]
    exact .unborn rfl
  have hchronicle : ∀ before rest, cs = before ++ rest →
      Chronicle slug (after r before).store.records (past slug r before) := by
    rintro before rest rfl
    rw [issuedBy_append] at hroom
    refine hstart.after hsound (fun c hc => hfits c (List.mem_append_left _ hc)) (hroom.mono ?_)
    omega
  have hall := hchronicle cs [] (List.append_nil cs).symm
  refine ⟨hall.contains_iff, fun c hc => hall.token_of_create hc, ?_, ?_⟩
  · intro before rest heq hcontains
    obtain ⟨c, hc⟩ := (hchronicle before rest heq).contains_iff.mp hcontains
    refine hall.contains_iff.mpr ⟨c, ?_⟩
    rw [heq, past_append]
    exact List.mem_append_left _ hc
  · intro before c rest heq
    subst heq
    rw [issuedBy_append, issuedBy_cons] at hroom
    have hbefore := hsound.after (fun c' hc' => hfits c' (List.mem_append_left _ hc'))
      (hroom.mono (by omega))
    refine hbefore.lawful (hfits c (List.mem_append_right _ List.mem_cons_self)) (hroom.mono ?_)
    omega

end Runs

def handover : List Command :=
  [.create ⟨"Ore", 5, ⟨[1]⟩⟩, .transfer ⟨"ore", ⟨[1]⟩, ⟨[2]⟩⟩, .mint ⟨⟨[1]⟩, "Ore", 3⟩,
    .create ⟨"ORE", 9, ⟨[3]⟩⟩, .mint ⟨⟨[2]⟩, "o'r'e", 4⟩]

theorem history_of_handover :
    (∀ c ∈ handover, c.Fits) ∧ Room (issuedBy handover) ∧
      ∃ later, past "ore" ⟨.empty, .empty, .standard, []⟩ handover =
          .create ⟨"Ore", 5, ⟨[1]⟩⟩ :: later ∧ (∀ x ∈ later, x.kind ≠ .create) ∧
        (after ⟨.empty, .empty, .standard, []⟩ handover : InMemory).store.records.token? "ore" =
          some (tokenAfter ⟨"Ore", 5, ⟨[1]⟩⟩ later) := by
  have hfits : ∀ c ∈ handover, c.Fits := by decide +kernel
  have hroom : Room (issuedBy handover) := by decide +kernel
  have hhistory := @history_of_run _ ⟨.empty, .empty, .standard, []⟩ rfl rfl handover hfits hroom
    "ore"
  exact ⟨hfits, hroom, hhistory.2.1 ⟨"Ore", 5, ⟨[1]⟩⟩ (by decide +kernel)⟩

end TokenRegistry.Registry
