import TokenRegistry.Proofs.Registry.Soundness

/-!
# The registry and the ledger agree

From an empty start, or from a genesis state that the books match, no commands and
no coin transfers between accounts ever bring the amounts in the registry apart
from what the ledger has issued.
-/
namespace TokenRegistry.Registry

/-- The registry and the ledger tell the same of every token, and of nothing else. -/
structure Agreement [Slug.Spelling] (r : InMemory) : Prop where
  records : ∀ key bytes, r.store.records.get? key = some bytes →
    ∃ t, Token.decode bytes = .ok t ∧ key = recordKey t.slug ∧ t.slug ≠ "" ∧
      t.owner.isEmpty = false ∧ 0 ≤ t.amount ∧ t.amount = r.ledger.supplyOf t.name
  balances : ∀ a denom, 0 ≤ r.ledger.balance a denom
  unregistered : ∀ denom,
    (∀ key bytes t, r.store.records.get? key = some bytes → Token.decode bytes = .ok t →
      t.name ≠ denom) → r.ledger.supplyOf denom = 0

/-- What happens to a registry and its ledger: commands, and transfers of coins by the host to an
account that has an address. -/
inductive Step
  | command (c : Command)
  | move (source target : Address) (htarget : target.isEmpty = false) (coins : List Coin)

def moveCoins (source target : Address) (coins : Coins) : Attempt LedgerError Balances Unit := do
  Ledger.debit source coins
  Ledger.credit target coins

theorem moveCoins_keeps {b : Balances} (hb : b.NonNegative) (source : Address) {target : Address}
    (htarget : target.isEmpty = false) {coins : Coins} (hc : Coins.Checked coins.toList) :
    (moveCoins source target coins b).2.NonNegative ∧
      ∀ denom, (moveCoins source target coins b).2.supplyOf denom = b.supplyOf denom := by
  cases hdebit : b.debit source coins with
  | error e =>
    have hrun : moveCoins source target coins b = (.error e, b) :=
      Attempt.bind_of_error (Balances.attempt_of_error hdebit)
    rw [hrun]
    exact ⟨hb, fun _ => rfl⟩
  | ok b₁ =>
    obtain ⟨hb₁, hsupply₁⟩ := Balances.nonNegative_of_debit hb hc hdebit
    obtain ⟨b₂, hcredit, hb₂, hsupply₂⟩ := Balances.nonNegative_of_credit hb₁ htarget hc
    have hrun : moveCoins source target coins b = (.ok (), b₂) := by
      have htaken : Ledger.debit source coins b = (.ok (), b₁) := Balances.attempt_of_ok hdebit
      exact (Attempt.bind_of_ok htaken).trans (Balances.attempt_of_ok hcredit)
    rw [hrun]
    refine ⟨hb₂, ?_⟩
    intro denom
    rw [hsupply₂, hsupply₁]
    exact Int.sub_add_cancel _ _

theorem le_sum_of_mem {ts : List Token} {t : Token} (h : t ∈ ts) :
    t.amount.toNat ≤ (ts.map fun t => t.amount.toNat).sum := by
  induction ts with
  | nil => exact absurd h List.not_mem_nil
  | cons t' ts ih =>
    rw [List.map_cons, List.sum_cons]
    rcases List.mem_cons.mp h with rfl | hmem
    · omega
    · have := ih hmem
      omega

section Runs

variable [Slug.Spelling]

def take (r : InMemory) : Step → InMemory
  | .command c => (execute c r).2
  | .move source target _ coins =>
    match Coins.ofList coins with
    | .ok coins => { r with ledger := (moveCoins source target coins r.ledger).2 }
    | .error _ => r

def run (r : InMemory) (steps : List Step) : InMemory := steps.foldl take r

def Step.issue : Step → Nat
  | .command c => c.issue.toNat
  | .move _ _ _ _ => 0

def issueOf (steps : List Step) : Nat := (steps.map Step.issue).sum

def Step.Fits : Step → Prop
  | .command c => c.Fits
  | .move _ _ _ _ => True

instance : (s : Step) → Decidable s.Fits
  | .command c => inferInstanceAs (Decidable c.Fits)
  | .move _ _ _ _ => .isTrue trivial

/-- A registry to start from, with what has been issued in it: an empty one, or one into which a
sound genesis state has been loaded whose amounts are those on the books. -/
inductive Start : Nat → InMemory → Prop
  | empty (config : Config) (log : Log) : Start 0 ⟨.empty, .empty, config, log⟩
  | genesis {g : Genesis} {r : InMemory} (hstore : r.store = .empty)
      (hbalances : r.ledger.NonNegative) (hvalid : g.validate = .ok ())
      (hissued : ∀ t ∈ g.tokens, r.ledger.supplyOf t.name = t.amount)
      (hnone : ∀ denom, (∀ t ∈ g.tokens, t.name ≠ denom) → r.ledger.supplyOf denom = 0)
      (hfits : ∀ t ∈ g.tokens, Token.FitsField t.name ∧ Token.FitsField t.owner.text) :
      Start (g.tokens.map fun t => t.amount.toNat).sum (load g r).2

variable {bound : Nat} {r : InMemory}

theorem Sound.agreement (h : Sound bound r) (hroom : Room bound) : Agreement r := by
  refine ⟨?_, h.balances, ?_⟩
  · intro key bytes hget
    obtain ⟨t, hkey, rfl, ht⟩ := h.records key bytes hget
    exact ⟨t, h.decode hroom ht, hkey, ht.slug, ht.owner, h.amount_nonneg ht, ht.amount_eq⟩
  · intro denom hnone
    have hdue := h.unregistered denom fun t hholds ht => hnone _ _ t hholds (h.decode hroom ht)
    rwa [Int.add_zero] at hdue

theorem Sound.take (h : Sound bound r) (hroom : Room bound) {s : Step} (hfits : s.Fits) :
    Sound (bound + s.issue) (take r s) := by
  cases s with
  | command c => exact h.execute hroom hfits
  | move source target htarget coins =>
    rw [Registry.take]
    cases hcoins : Coins.ofList coins with
    | error e => exact h
    | ok coins =>
      obtain ⟨hbalances, hsupply⟩ :=
        moveCoins_keeps h.balances source htarget (Coins.checked_ofList hcoins)
      exact h.of_supply (Nat.le_refl _) rfl hbalances hsupply

theorem Sound.run (h : Sound bound r) {steps : List Step} (hfits : ∀ s ∈ steps, s.Fits)
    (hroom : Room (bound + issueOf steps)) : Sound (bound + issueOf steps) (run r steps) := by
  induction steps generalizing bound r with
  | nil => exact h
  | cons s steps ih =>
    have hsum : bound + issueOf (s :: steps) = bound + s.issue + issueOf steps := by
      rw [issueOf, List.map_cons, List.sum_cons, ← Nat.add_assoc, issueOf]
    rw [hsum] at hroom ⊢
    have hnow := h.take (hroom.mono (by omega)) (hfits s List.mem_cons_self)
    exact ih hnow (fun s' hs' => hfits s' (List.mem_cons_of_mem _ hs')) hroom

theorem Sound.of_genesis {g : Genesis} {r : InMemory} {surplus : String → Int}
    (hstore : r.store = .empty) (hbalances : r.ledger.NonNegative)
    (hcreatable : ∀ denom, Slug.ofName denom ≠ "" →
      (∀ t ∈ g.tokens, t.slug ≠ Slug.ofName denom) → 0 ≤ surplus denom)
    (hsurplus : ∀ t ∈ g.tokens, 0 ≤ surplus t.name) (hvalid : g.validate = .ok ())
    (hissued : ∀ t ∈ g.tokens, r.ledger.supplyOf t.name + surplus t.name = t.amount)
    (hnone : ∀ denom, (∀ t ∈ g.tokens, t.name ≠ denom) →
      r.ledger.supplyOf denom + surplus denom = 0)
    (hfits : ∀ t ∈ g.tokens, Token.FitsField t.name ∧ Token.FitsField t.owner.text) :
    Sound (g.tokens.map fun t => t.amount.toNat).sum (load g r).2 surplus := by
  obtain ⟨hadmissible, hdistinct⟩ := Genesis.distinct_of_checkAll hvalid
  obtain ⟨r', hload, hrecords, hledger⟩ := load_inMemory hvalid r
  have hrecords' : r'.store.records = Records.putAll ∅ g.tokens := by
    rw [hrecords, hstore]
    rfl
  have hsound : ∀ t ∈ g.tokens, SoundToken r'.ledger t surplus := by
    intro t ht
    have hok := hadmissible t ht
    rw [hledger]
    exact ⟨hok.slug, hok.owner, (hfits t ht).1, (hfits t ht).2, (hissued t ht).symm, hsurplus t ht⟩
  rw [hload]
  refine ⟨?_, ?_, ?_, ?_, ?_⟩
  · intro key bytes hget
    change r'.store.records.get? key = some bytes at hget
    rw [hrecords'] at hget
    rcases Records.putAll_origin hget with ⟨t, ht, hkey, hbytes⟩ | hold
    · exact ⟨t, hkey, hbytes, hsound t ht⟩
    · cases hold
  · change r'.ledger.NonNegative
    rw [hledger]
    exact hbalances
  · intro denom husable hfree
    change r'.store.records.get? _ = none at hfree
    refine hcreatable denom husable fun t ht hslug => ?_
    have hholds := Records.holds_putAll hdistinct ∅ ht
    rw [Records.Holds, ← hrecords', hslug, hfree] at hholds
    cases hholds
  · intro denom hnames
    change r'.ledger.supplyOf denom + surplus denom = 0
    rw [hledger]
    refine hnone denom fun t ht => hnames t ?_ (hsound t ht)
    change r'.store.records.Holds t
    rw [hrecords']
    exact Records.holds_putAll hdistinct _ ht
  · intro denom
    change r'.ledger.supplyOf denom + surplus denom ≤ _
    rw [hledger]
    by_cases hmem : ∃ t ∈ g.tokens, t.name = denom
    · obtain ⟨t, ht, rfl⟩ := hmem
      have hnonneg := (hadmissible t ht).amount
      have hle := le_sum_of_mem ht
      rw [hissued t ht]
      omega
    · rw [hnone denom fun t ht heq => hmem ⟨t, ht, heq⟩]
      exact Int.natCast_nonneg _

theorem Start.sound (h : Start bound r) : Sound bound r := by
  cases h with
  | empty config log => exact .of_empty rfl rfl
  | genesis hstore hbalances hvalid hissued hnone hfits =>
    exact .of_genesis hstore hbalances (fun _ _ _ => Int.le_refl 0) (fun _ _ => Int.le_refl 0)
      hvalid (fun t ht => (Int.add_zero _).trans (hissued t ht))
      (fun denom hother => (Int.add_zero _).trans (hnone denom hother)) hfits

/-- Whatever happens after a start, the registry and the ledger agree. -/
theorem agreement_of_run (h : Start bound r) {steps : List Step} (hfits : ∀ s ∈ steps, s.Fits)
    (hroom : Room (bound + issueOf steps)) : Agreement (run r steps) :=
  (h.sound.run hfits hroom).agreement hroom

end Runs

def trade : List Step :=
  [.command (.create ⟨"Ore", 5, ⟨[1]⟩⟩), .move ⟨[1]⟩ ⟨[2]⟩ rfl [⟨"Ore", 3⟩],
    .command (.transfer ⟨"ore", ⟨[1]⟩, ⟨[3]⟩⟩), .command (.burn ⟨⟨[3]⟩, "ORE", 1⟩),
    .command (.mint ⟨⟨[3]⟩, "o'r'e", 4⟩)]

def endowed : Genesis := ⟨[⟨"Ore", 5, ⟨[1]⟩⟩]⟩

theorem exists_start_endowed : ∃ r, Start 5 r := by
  obtain ⟨b, -, hbalances, hsupply⟩ :=
    Balances.nonNegative_of_credit (a := ⟨[1]⟩) Balances.nonNegative_empty rfl
      (@Coins.checked_ofAmount "Ore" 5 (by decide))
  have hissued : ∀ denom, b.supplyOf denom = if denom = "Ore" then 5 else 0 := by
    intro denom
    rw [hsupply, Coins.sumOf_ofAmount]
    exact Int.zero_add _
  have hstart : Start (endowed.tokens.map fun t => t.amount.toNat).sum
      (load endowed (⟨.empty, b, .standard, []⟩ : InMemory)).2 := by
    refine .genesis rfl hbalances ?_ ?_ ?_ ?_
    · decide +kernel
    · intro t ht
      rw [List.mem_singleton.mp ht]
      exact hissued "Ore"
    · intro denom hother
      exact (hissued denom).trans (if_neg (hother _ List.mem_cons_self).symm)
    · decide +kernel
  exact ⟨_, hstart⟩

theorem agreement_of_trade :
    (∀ s ∈ trade, s.Fits) ∧ Room (0 + issueOf trade) ∧ Room (5 + issueOf trade) ∧
      Agreement (run ⟨.empty, .empty, .standard, []⟩ trade) ∧
      ∃ r, Start 5 r ∧ Agreement (run r trade) := by
  have hfits : ∀ s ∈ trade, s.Fits := by decide +kernel
  have hroom : Room (0 + issueOf trade) := by decide +kernel
  have hroom' : Room (5 + issueOf trade) := by decide +kernel
  obtain ⟨r, hstart⟩ := exists_start_endowed
  exact ⟨hfits, hroom, hroom', agreement_of_run (.empty _ _) hfits hroom,
    r, hstart, agreement_of_run hstart hfits hroom'⟩

end TokenRegistry.Registry
