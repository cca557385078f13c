import TokenRegistry.Proofs.Genesis
import TokenRegistry.Proofs.Registry.Acceptance

/-!
# Sound registries

In a sound registry every record is that of a token under its own slug, and the
amount of the token is what the books have issued under its name; nothing is issued
under any other name. Where the books had less than the records from the start, the
surplus of the records stays what it was. A bound on the amounts comes with it, since
they must fit into records to be read back.
-/
namespace TokenRegistry

/-- Amounts up to the bound fit into records, as all do whose text a word of eight bytes can count
the bytes of: there is no memory for a longer text. -/
def Room (bound : Nat) : Prop := Token.FitsField (Amount.text bound)

theorem Room.mono {m n : Nat} (h : Room n) (hle : m ≤ n) : Room m :=
  Nat.lt_of_le_of_lt (Amount.length_ofString_text_le hle) h

/-- The texts that a command may leave in a record fit into it, as do all texts that there is memory
for. -/
structure Command.Fits (c : Command) : Prop where
  name : Token.FitsField c.name
  parties : ∀ p ∈ c.parties, Token.FitsField p.2.text

instance (c : Command) : Decidable c.Fits :=
  decidable_of_iff (Token.FitsField c.name ∧ ∀ p ∈ c.parties, Token.FitsField p.2.text)
    ⟨fun h => ⟨h.1, h.2⟩, fun h => ⟨h.name, h.parties⟩⟩

instance (bound : Nat) : Decidable (Room bound) := inferInstanceAs (Decidable (Token.FitsField _))

theorem Records.token?_eq_some_iff {rs : Records} {slug : String} {t : Token} :
    rs.token? slug = some t ↔
      ∃ bytes, rs.get? (recordKey slug) = some bytes ∧ Token.decode bytes = .ok t := by
  rw [token?, Option.bind_eq_some_iff]
  refine exists_congr fun bytes => and_congr_right fun _ => ?_
  cases Token.decode bytes with
  | ok t' => simp [Except.toOption]
  | error e => simp [Except.toOption]

namespace Registry

def issuedBy (cs : List Command) : Nat := (cs.map fun c => c.issue.toNat).sum

theorem issuedBy_cons (c : Command) (cs : List Command) :
    issuedBy (c :: cs) = c.issue.toNat + issuedBy cs := List.sum_cons

theorem issuedBy_append (cs cs' : List Command) :
    issuedBy (cs ++ cs') = issuedBy cs + issuedBy cs' := by
  rw [issuedBy, List.map_append, List.sum_append, issuedBy, issuedBy]

variable [Slug.Spelling]

/-- A token that agrees with the books but for the surplus under its name. -/
structure SoundToken (b : Balances) (t : Token) (surplus : String → Int := fun _ => 0) : Prop where
  slug : t.slug ≠ ""
  owner : t.owner.isEmpty = false
  nameFits : Token.FitsField t.name
  ownerFits : Token.FitsField t.owner.text
  amount : t.amount = b.supplyOf t.name + surplus t.name
  surplus_nonneg : 0 ≤ surplus t.name

structure Sound (bound : Nat) (r : InMemory) (surplus : String → Int := fun _ => 0) : Prop where
  records : ∀ key bytes, r.store.records.get? key = some bytes →
    ∃ t, key = recordKey t.slug ∧ bytes = t.encode ∧ SoundToken r.ledger t surplus
  balances : r.ledger.NonNegative
  creatable : ∀ denom, Slug.ofName denom ≠ "" →
    r.store.records.get? (recordKey (Slug.ofName denom)) = none → 0 ≤ surplus denom
  unregistered : ∀ denom,
    (∀ t, r.store.records.Holds t → SoundToken r.ledger t surplus → t.name ≠ denom) →
    r.ledger.supplyOf denom + surplus denom = 0
  issued : ∀ denom, r.ledger.supplyOf denom + surplus denom ≤ bound

theorem SoundToken.amount_eq {b : Balances} {t : Token} (h : SoundToken b t) :
    t.amount = b.supplyOf t.name := h.amount.trans (Int.add_zero _)

variable {bound : Nat} {r r' : InMemory} {surplus : String → Int}

theorem Sound.amount_nonneg (h : Sound bound r surplus) {t : Token}
    (ht : SoundToken r.ledger t surplus) : 0 ≤ t.amount := by
  rw [ht.amount]
  exact Int.add_nonneg (Balances.supplyOf_nonneg h.balances t.name) ht.surplus_nonneg

theorem Sound.storable (h : Sound bound r surplus) (hroom : Room bound) {t : Token}
    (ht : SoundToken r.ledger t surplus) : t.Storable := by
  have hnat : t.amount = (t.amount.toNat : Int) := (Int.toNat_of_nonneg (h.amount_nonneg ht)).symm
  refine ⟨ht.nameFits, ?_, ht.ownerFits⟩
  rw [hnat]
  refine hroom.mono (Int.toNat_le.mpr ?_)
  rw [ht.amount]
  exact h.issued t.name

theorem Sound.decode (h : Sound bound r surplus) (hroom : Room bound) {t : Token}
    (ht : SoundToken r.ledger t surplus) : Token.decode t.encode = .ok t :=
  Token.decode_encode (h.storable hroom ht)

theorem Sound.of_token? (h : Sound bound r surplus) (hroom : Room bound) {slug : String}
    {t : Token} (ht : r.store.records.token? slug = some t) :
    t.slug = slug ∧ r.store.records.Holds t ∧ SoundToken r.ledger t surplus := by
  obtain ⟨bytes, hget, hdecode⟩ := Records.token?_eq_some_iff.mp ht
  obtain ⟨t', hkey, rfl, hsound⟩ := h.records _ _ hget
  rw [h.decode hroom hsound] at hdecode
  cases hdecode
  have hslug := recordKey_injective hkey
  refine ⟨hslug.symm, ?_, hsound⟩
  rw [Records.Holds, ← hslug]
  exact hget

theorem SoundToken.of_supply {b b' : Balances} {t : Token} (h : SoundToken b t surplus)
    (hsupply : b'.supplyOf t.name = b.supplyOf t.name) : SoundToken b' t surplus := by
  refine ⟨h.slug, h.owner, h.nameFits, h.ownerFits, ?_, h.surplus_nonneg⟩
  rw [hsupply]
  exact h.amount

theorem Sound.of_supply (h : Sound bound r surplus) {bound' : Nat} (hbound : bound ≤ bound')
    (hrecords : r'.store.records = r.store.records) (hbalances : r'.ledger.NonNegative)
    (hsupply : ∀ denom, r'.ledger.supplyOf denom = r.ledger.supplyOf denom) :
    Sound bound' r' surplus := by
  refine ⟨?_, hbalances, ?_, ?_, ?_⟩
  · intro key bytes hget
    rw [hrecords] at hget
    obtain ⟨t, hkey, hbytes, ht⟩ := h.records key bytes hget
    exact ⟨t, hkey, hbytes, ht.of_supply (hsupply t.name)⟩
  · rw [hrecords]
    exact h.creatable
  · intro denom hnone
    rw [hsupply]
    rw [hrecords] at hnone
    exact h.unregistered denom fun t hholds ht => hnone t hholds (ht.of_supply (hsupply t.name))
  · intro denom
    have hissued := h.issued denom
    rw [hsupply]
    omega

theorem Sound.unissued (h : Sound bound r surplus) {name : String}
    (hfree : r.store.records.get? (recordKey (Slug.ofName name)) = none) :
    r.ledger.supplyOf name + surplus name = 0 := by
  apply h.unregistered name
  intro t hholds _ heq
  have hslug : t.slug = Slug.ofName name := congrArg Slug.ofName heq
  rw [Records.Holds, hslug, hfree] at hholds
  cases hholds

theorem Sound.eq_of_slug (h : Sound bound r surplus) (hroom : Room bound) {t t' : Token}
    (ht : SoundToken r.ledger t surplus) (ht' : SoundToken r.ledger t' surplus)
    (hholds : r.store.records.Holds t) (hholds' : r.store.records.Holds t')
    (hslug : t.slug = t'.slug) : t = t' := by
  rw [Records.Holds, hslug] at hholds
  have hencode := Option.some.inj (hholds.symm.trans hholds')
  have hdecode := h.decode hroom ht
  rw [hencode, h.decode hroom ht'] at hdecode
  cases hdecode
  rfl

/-- How the token that an accepted command leaves follows from the registry before. -/
structure Succession (r : InMemory) (c : Command) (t : Token) (surplus : String → Int) : Prop where
  slug : t.slug = c.slug
  nameFits : Token.FitsField t.name
  owner : t.owner.isEmpty = false
  ownerFits : Token.FitsField t.owner.text
  amount : t.amount = r.ledger.supplyOf t.name + surplus t.name + c.issue
  surplus_nonneg : 0 ≤ surplus t.name
  covered : 0 ≤ r.ledger.balance c.sender t.name + c.issue
  name : ∀ old, r.store.records.Holds old → SoundToken r.ledger old surplus →
    old.slug = t.slug → old.name = t.name

theorem Sound.succession_of_token? (h : Sound bound r surplus) (hroom : Room bound) {c : Command}
    {old t : Token} (htoken : r.store.records.token? c.slug = some old) (hname : t.name = old.name)
    (howner : t.owner.isEmpty = false) (hownerFits : Token.FitsField t.owner.text)
    (hamount : t.amount = old.amount + c.issue)
    (hcovered : 0 ≤ r.ledger.balance c.sender old.name + c.issue) :
    Succession r c t surplus := by
  obtain ⟨hslug, hholds, hold⟩ := h.of_token? hroom htoken
  have hsame : t.slug = old.slug := congrArg Slug.ofName hname
  refine ⟨hsame.trans hslug, ?_, howner, hownerFits, ?_, ?_, ?_, ?_⟩
  · rw [hname]
    exact hold.nameFits
  · rw [hname, hamount, hold.amount]
  · rw [hname]
    exact hold.surplus_nonneg
  · rw [hname]
    exact hcovered
  · intro other hother hsound heq
    rw [hname, h.eq_of_slug hroom hsound hold hother hholds (heq.trans hsame)]

theorem Sound.succession (h : Sound bound r surplus) (hroom : Room bound) {c : Command}
    (hfits : c.Fits) (hwell : c.WellFormed) {t : Token} (haccepts : Accepts r c t) :
    Succession r c t surplus := by
  cases haccepts with
  | @create c hsupply hfree =>
    refine ⟨rfl, hfits.name, hwell.sender, ?_, ?_, ?_, ?_, ?_⟩
    · exact hfits.parties ("creator", c.creator) List.mem_cons_self
    · rw [h.unissued hfree]
      exact (Int.zero_add _).symm
    · exact h.creatable c.name hwell.slug hfree
    · exact Int.add_nonneg (h.balances c.creator c.name) hsupply
    · intro old hold _ heq
      have hslug : old.slug = Slug.ofName c.name := heq
      rw [Records.Holds, hslug, hfree] at hold
      cases hold
  | @transfer c old htoken howner =>
    have hmem : ("new_owner", c.newOwner) ∈ (Command.transfer c).parties :=
      List.mem_cons_of_mem _ List.mem_cons_self
    exact h.succession_of_token? hroom htoken rfl (hwell.parties ("new_owner", c.newOwner) hmem)
      (hfits.parties ("new_owner", c.newOwner) hmem) (Int.add_zero _).symm
      (Int.add_nonneg (h.balances _ _) (Int.le_refl 0))
  | @mint c old hamount htoken howner =>
    obtain ⟨-, -, hold⟩ := h.of_token? hroom htoken
    exact h.succession_of_token? hroom htoken rfl hold.owner hold.ownerFits rfl
      (Int.add_nonneg (h.balances _ _) (Int.le_of_lt hamount))
  | @burn c old hamount htoken howner hcovered =>
    obtain ⟨-, -, hold⟩ := h.of_token? hroom htoken
    exact h.succession_of_token? hroom htoken rfl hold.owner hold.ownerFits rfl
      (Int.sub_nonneg.mpr hcovered)

theorem Succession.sound {c : Command} {t : Token} (hnext : Succession r c t surplus)
    (hwell : c.WellFormed) (happlied : Applied c t r r') : SoundToken r'.ledger t surplus := by
  refine ⟨?_, hnext.owner, hnext.nameFits, hnext.ownerFits, ?_, hnext.surplus_nonneg⟩
  · rw [hnext.slug]
    exact hwell.slug
  · rw [happlied.books.supply, if_pos rfl, hnext.amount, Int.add_right_comm]

theorem Applied.token? {c : Command} {t : Token} (happlied : Applied c t r r')
    (hdecode : Token.decode t.encode = .ok t) : r'.store.records.token? c.slug = some t := by
  refine Records.token?_eq_some_iff.mpr ⟨t.encode, ?_, hdecode⟩
  rw [happlied.records, OrderedMap.get?_insert, if_pos rfl]

theorem Applied.get?_of_ne {c : Command} {t : Token} (happlied : Applied c t r r') {key : Bytes}
    (hkey : key ≠ recordKey c.slug) : r'.store.records.get? key = r.store.records.get? key := by
  rw [happlied.records, OrderedMap.get?_insert, if_neg hkey]

theorem Applied.holds {c : Command} {t : Token} (happlied : Applied c t r r')
    (hslug : t.slug = c.slug) : r'.store.records.Holds t := by
  rw [Records.Holds, hslug, happlied.records, OrderedMap.get?_insert, if_pos rfl]

theorem SoundToken.of_applied {c : Command} {old t : Token} (h : SoundToken r.ledger old surplus)
    (happlied : Applied c t r r') (hname : old.name ≠ t.name) :
    SoundToken r'.ledger old surplus := by
  apply h.of_supply
  rw [happlied.books.supply, if_neg hname, Int.add_zero]

theorem Sound.accept (h : Sound bound r surplus) {c : Command} {t : Token} (hwell : c.WellFormed)
    (hnext : Succession r c t surplus) (happlied : Applied c t r r') :
    Sound (bound + c.issue.toNat) r' surplus := by
  have ht := hnext.sound hwell happlied
  have hbooks := happlied.books
  have hne_of_slug : ∀ old : Token, old.slug ≠ t.slug → old.name ≠ t.name :=
    fun _ hslug hname => hslug (congrArg Slug.ofName hname)
  refine ⟨?_, hbooks.nonNegative h.balances ?_, ?_, ?_, ?_⟩
  · intro key bytes hget
    by_cases hkey : key = recordKey c.slug
    · subst hkey
      rw [happlied.records, OrderedMap.get?_insert, if_pos rfl] at hget
      cases hget
      exact ⟨t, congrArg recordKey hnext.slug.symm, rfl, ht⟩
    · rw [happlied.get?_of_ne hkey] at hget
      obtain ⟨old, holdKey, hbytes, hold⟩ := h.records key bytes hget
      refine ⟨old, holdKey, hbytes, hold.of_applied happlied (hne_of_slug old ?_)⟩
      intro hslug
      exact hkey (holdKey.trans (congrArg recordKey (hslug.trans hnext.slug)))
  · intro denom
    have hbalance := h.balances c.sender denom
    split
    · rename_i hdenom
      rw [hdenom]
      exact hnext.covered
    · omega
  · intro denom husable hfree
    rw [happlied.records, OrderedMap.get?_insert] at hfree
    split at hfree
    · cases hfree
    · exact h.creatable denom husable hfree
  · intro denom hnone
    have hne := hnone t (happlied.holds hnext.slug) ht
    rw [hbooks.supply, if_neg hne.symm, Int.add_zero]
    apply h.unregistered denom
    intro old hholds hold
    -- A token that has been replaced is gone from the records, but its name stays registered.
    by_cases hslug : old.slug = t.slug
    · rw [hnext.name old hholds hold hslug]
      exact hne
    · refine hnone old ?_ (hold.of_applied happlied (hne_of_slug old hslug))
      have hkey : recordKey old.slug ≠ recordKey c.slug := fun hkey =>
        hslug ((recordKey_injective hkey).trans hnext.slug.symm)
      exact (happlied.get?_of_ne hkey).trans hholds
  · intro denom
    have hbefore := h.issued denom
    have hissue := Int.self_le_toNat c.issue
    rw [hbooks.supply]
    split
    · omega
    · omega

theorem Sound.decode_accepted (h : Sound bound r surplus) {c : Command} (hfits : c.Fits)
    (hroom : Room (bound + c.issue.toNat)) (hwell : c.WellFormed) {t : Token}
    (haccepts : Accepts r c t) (happlied : Applied c t r r') : Token.decode t.encode = .ok t := by
  have hnext := h.succession (hroom.mono (Nat.le_add_right _ _)) hfits hwell haccepts
  exact (h.accept hwell hnext happlied).decode hroom (hnext.sound hwell happlied)

theorem Sound.execute (h : Sound bound r surplus) (hroom : Room bound) {c : Command}
    (hfits : c.Fits) : Sound (bound + c.issue.toNat) (execute c r).2 surplus := by
  rcases execute_cases h.balances c with ⟨e, -, hkept⟩ | ⟨t, -, hwell, haccepts, happlied⟩
  · refine h.of_supply (Nat.le_add_right _ _) hkept.records ?_ hkept.supply
    intro a denom
    rw [hkept.balance]
    exact h.balances a denom
  · exact h.accept hwell (h.succession hroom hfits hwell haccepts) happlied

theorem Sound.of_empty (hstore : r.store = .empty) (hledger : r.ledger = .empty) : Sound 0 r := by
  refine ⟨?_, ?_, fun _ _ _ => Int.le_refl 0, ?_, ?_⟩
  · intro key bytes hget
    rw [hstore] at hget
    cases hget
  · rw [hledger]
    exact Balances.nonNegative_empty
  · intro denom _
    rw [hledger]
    rfl
  · intro denom
    rw [hledger]
    exact Int.le_refl 0

theorem Sound.after (h : Sound bound r surplus) {cs : List Command} (hfits : ∀ c ∈ cs, c.Fits)
    (hroom : Room (bound + issuedBy cs)) :
    Sound (bound + issuedBy cs) (after r cs) surplus := by
  induction cs generalizing bound r with
  | nil => exact h
  | cons c cs ih =>
    rw [issuedBy_cons, ← Nat.add_assoc] at hroom ⊢
    have hnow := h.execute (hroom.mono (by omega)) (hfits c List.mem_cons_self)
    exact ih hnow (fun c' hc' => hfits c' (List.mem_cons_of_mem _ hc')) hroom

@[elab_as_elim]
theorem Sound.along_run {motive : InMemory → List Command → Prop} (nil : ∀ r, motive r [])
    (cons : ∀ {bound r c cs}, Sound bound r surplus → c.Fits → Room (bound + c.issue.toNat) →
      motive (Registry.execute c r).2 cs → motive r (c :: cs))
    (h : Sound bound r surplus) {cs : List Command} (hfits : ∀ c ∈ cs, c.Fits)
    (hroom : Room (bound + issuedBy cs)) : motive r cs := by
  induction cs generalizing bound r with
  | nil => exact nil r
  | cons c cs ih =>
    rw [issuedBy_cons, ← Nat.add_assoc] at hroom
    have hhead := hfits c List.mem_cons_self
    have hnow := h.execute (hroom.mono (by omega)) hhead
    refine cons h hhead (hroom.mono (Nat.le_add_right _ _)) ?_
    exact ih hnow (fun c' hc' => hfits c' (List.mem_cons_of_mem _ hc')) hroom

end Registry

end TokenRegistry
