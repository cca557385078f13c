import TokenRegistry.Ledger.Balances
import TokenRegistry.Proofs.Coins
import TokenRegistry.Proofs.OrderedMap

/-!
# What credits and debits do

A credit raises the balances of one account, and a debit of checked coins lowers
them, by what the coins hold; no other account changes. The sum of the balances in
a denomination moves with the one account. A debit of checked coins goes through if
every coin is covered, and then no balance is below zero.
-/
namespace TokenRegistry

namespace Account

theorem contains_of_balance_pos {a : Account} {denom : String} (h : 0 < a.balance denom) :
    a.contains denom := by
  rw [balance] at h
  rw [OrderedMap.contains]
  cases hget : a.get? denom with
  | none =>
    rw [hget] at h
    exact absurd h (Int.lt_irrefl 0)
  | some n => rfl

theorem balance_foldl_deposit (a : Account) (cs : List Coin) (denom : String) :
    (cs.foldl deposit a).balance denom = a.balance denom + Coins.sumOf cs denom := by
  induction cs generalizing a with
  | nil =>
    rw [Coins.sumOf_nil]
    exact (Int.add_zero _).symm
  | cons c cs ih =>
    rw [List.foldl_cons, ih, balance_deposit, Coins.sumOf_cons]
    omega

theorem covered_withdraw {c : Coin} {cs : List Coin} (h : Coins.Checked (c :: cs)) {a : Account}
    (hle : ∀ d ∈ c :: cs, d.amount ≤ a.balance d.denom) :
    a.contains c.denom ∧ ∀ d ∈ cs, d.amount ≤ (a.withdraw c).balance d.denom := by
  obtain ⟨hne, -⟩ := List.pairwise_cons.mp h.distinct
  have hpos := h.positive c List.mem_cons_self
  have hcov := hle c List.mem_cons_self
  have hcontains : a.contains c.denom := contains_of_balance_pos (by omega)
  refine ⟨hcontains, ?_⟩
  intro d hd
  rw [balance_withdraw a c d.denom hcontains, if_neg (hne d hd).symm]
  have := hle d (List.mem_cons_of_mem _ hd)
  omega

theorem balance_foldl_withdraw {cs : List Coin} (h : Coins.Checked cs) (a : Account)
    (hle : ∀ c ∈ cs, c.amount ≤ a.balance c.denom) (denom : String) :
    (cs.foldl withdraw a).balance denom = a.balance denom - Coins.sumOf cs denom := by
  induction cs generalizing a with
  | nil =>
    rw [Coins.sumOf_nil]
    exact (Int.sub_zero _).symm
  | cons c cs ih =>
    -- The coin is on the books still, as no earlier one had its denomination.
    obtain ⟨hcontains, hcovered⟩ := covered_withdraw h hle
    rw [List.foldl_cons, ih h.tail _ hcovered, balance_withdraw a c denom hcontains,
      Coins.sumOf_cons]
    omega

end Account

namespace Balances

theorem attempt_of_ok {f : Balances → Except LedgerError Balances} {b b' : Balances}
    (h : f b = .ok b') : attempt f b = (.ok (), b') := by
  rw [attempt, h]

theorem attempt_of_error {f : Balances → Except LedgerError Balances} {b : Balances}
    {e : LedgerError} (h : f b = .error e) : attempt f b = (.error e, b) := by
  rw [attempt, h]

theorem supplyOf_eq_sumOver (b : Balances) (denom : String) :
    b.supplyOf denom = OrderedMap.sumOver (fun a : Account => a.balance denom) b.accounts.entries :=
  rfl

def NonNegative (b : Balances) : Prop := ∀ a denom, 0 ≤ b.balance a denom

theorem nonNegative_empty : empty.NonNegative := fun _ _ => Int.le_refl 0

theorem nonNegative_of_entries {b : Balances}
    (h : ∀ e ∈ b.accounts.entries, ∀ n ∈ e.2.entries, 0 ≤ n.2) : b.NonNegative := by
  intro a denom
  rw [balance, account, Account.balance]
  cases haccount : b.accounts.get? a.bytes with
  | none => exact Int.le_refl 0
  | some account =>
    have hmem := (b.accounts.get?_eq_some_iff _ _).mp haccount
    change 0 ≤ (account.get? denom).getD 0
    cases hentry : account.get? denom with
    | none => exact Int.le_refl 0
    | some n => exact h _ hmem _ ((account.get?_eq_some_iff _ _).mp hentry)

theorem supplyOf_nonneg {b : Balances} (h : b.NonNegative) (denom : String) :
    0 ≤ b.supplyOf denom := by
  rw [supplyOf_eq_sumOver]
  apply OrderedMap.sumOver_nonneg
  intro e he
  have hget : b.accounts.get? e.1 = some e.2 := (b.accounts.get?_eq_some_iff e.1 e.2).mpr he
  have hbalance := h ⟨e.1⟩ denom
  rw [balance, account, hget] at hbalance
  exact hbalance

/-- From `b` to `b'` the balances of one account change by `δ`. -/
structure Shift (a : Address) (δ : String → Int) (b b' : Balances) : Prop where
  balance : ∀ x denom, b'.balance x denom = b.balance x denom + if x = a then δ denom else 0
  supply : ∀ denom, b'.supplyOf denom = b.supplyOf denom + δ denom

theorem shift_refl (a : Address) {δ : String → Int} (h : ∀ denom, δ denom = 0) (b : Balances) :
    Shift a δ b b := by
  constructor
  · intro x denom
    rw [h denom, ite_self, Int.add_zero]
  · intro denom
    rw [h denom, Int.add_zero]

theorem Shift.congr {a : Address} {δ δ' : String → Int} {b b' : Balances} (h : Shift a δ b b')
    (heq : ∀ denom, δ denom = δ' denom) : Shift a δ' b b' := by
  have hfun : δ = δ' := funext heq
  rwa [hfun] at h

theorem Shift.trans {a : Address} {δ δ' : String → Int} {b b' b'' : Balances}
    (h : Shift a δ b b') (h' : Shift a δ' b' b'') :
    Shift a (fun denom => δ denom + δ' denom) b b'' := by
  constructor
  · intro x denom
    rw [h'.balance, h.balance]
    split <;> omega
  · intro denom
    rw [h'.supply, h.supply]
    omega

theorem Shift.nonNegative {a : Address} {δ : String → Int} {b b' : Balances}
    (h : Shift a δ b b') (hb : b.NonNegative) (hδ : ∀ denom, 0 ≤ b.balance a denom + δ denom) :
    b'.NonNegative := by
  intro x denom
  have hx := hb x denom
  rw [h.balance]
  split
  · rename_i heq
    rw [heq]
    exact hδ denom
  · omega

theorem balance_insert (b : Balances) (a : Address) (account : Account) (x : Address)
    (denom : String) : balance ⟨b.accounts.insert a.bytes account⟩ x denom =
      if x = a then account.balance denom else b.balance x denom := by
  simp only [balance, Balances.account, OrderedMap.get?_insert]
  by_cases hx : x = a
  · simp [hx]
  · have hbytes : x.bytes ≠ a.bytes := fun heq => hx (by cases x; cases a; exact congrArg _ heq)
    simp [hx, hbytes]

theorem shift_insert (b : Balances) (a : Address) (account : Account) {δ : String → Int}
    (h : ∀ denom, account.balance denom = b.balance a denom + δ denom) :
    Shift a δ b ⟨b.accounts.insert a.bytes account⟩ := by
  constructor
  · intro x denom
    rw [balance_insert]
    split
    · rename_i heq
      rw [h, heq]
    · exact (Int.add_zero _).symm
  · intro denom
    have hold : ((b.accounts.get? a.bytes).map fun c : Account => c.balance denom).getD 0 =
        b.balance a denom := by
      simp only [balance, Balances.account]
      cases b.accounts.get? a.bytes with
      | none => rfl
      | some c => rfl
    rw [supplyOf_eq_sumOver, OrderedMap.sumOver_insert, hold, ← supplyOf_eq_sumOver, h]
    omega

theorem credit_shift (b : Balances) {a : Address} (h : a.isEmpty = false) (coins : Coins) :
    ∃ b', b.credit a coins = .ok b' ∧ Shift a (Coins.sumOf coins.toList) b b' := by
  refine ⟨_, by rw [credit, h]; rfl, shift_insert b a _ ?_⟩
  intro denom
  rw [Account.balance_foldl_deposit]
  rfl

theorem find?_uncovered_eq_none (b : Balances) (a : Address) {cs : List Coin}
    (h : ∀ c ∈ cs, c.amount ≤ b.balance a c.denom) :
    cs.find? (fun c => b.balance a c.denom < c.amount) = none := by
  refine List.find?_eq_none.mpr fun c hc => ?_
  have := h c hc
  simp only [decide_eq_true_eq]
  omega

theorem debit_shift (b : Balances) (a : Address) {coins : Coins} (hc : Coins.Checked coins.toList)
    (hle : ∀ c ∈ coins.toList, c.amount ≤ b.balance a c.denom) :
    ∃ b', b.debit a coins = .ok b' ∧
      Shift a (fun denom => -Coins.sumOf coins.toList denom) b b' := by
  rw [debit, find?_uncovered_eq_none b a hle]
  cases hget : b.accounts.get? a.bytes with
  | none =>
    -- An account that is not on the books covers no coin, so there are none.
    refine ⟨b, rfl, shift_refl a ?_ b⟩
    intro denom
    have hzero : ∀ denom, b.balance a denom = 0 := fun denom => by
      rw [balance, account, hget]
      rfl
    have hnone : coins.toList = [] := by
      apply List.eq_nil_iff_forall_not_mem.mpr
      intro c hmem
      have hpos := hc.positive c hmem
      have hcov := hle c hmem
      rw [hzero] at hcov
      omega
    rw [hnone]
    rfl
  | some account =>
    have hbalance : ∀ denom, account.balance denom = b.balance a denom := fun denom => by
      rw [balance, Balances.account, hget]
      rfl
    refine ⟨_, rfl, shift_insert b a _ ?_⟩
    intro denom
    rw [Account.balance_foldl_withdraw hc account (fun c hmem => hbalance c.denom ▸ hle c hmem),
      hbalance]
    omega

theorem covered_of_debit {b b' : Balances} {a : Address} {coins : Coins}
    (h : b.debit a coins = .ok b') : ∀ c ∈ coins.toList, c.amount ≤ b.balance a c.denom := by
  intro c hc
  rw [debit] at h
  split at h
  · cases h
  · rename_i hnone
    have hcov := List.find?_eq_none.mp hnone c hc
    simp only [decide_eq_true_eq] at hcov
    omega

theorem nonNegative_of_debit {b b' : Balances} (hb : b.NonNegative) {a : Address} {coins : Coins}
    (hc : Coins.Checked coins.toList) (h : b.debit a coins = .ok b') :
    b'.NonNegative ∧
      ∀ denom, b'.supplyOf denom = b.supplyOf denom - Coins.sumOf coins.toList denom := by
  have hcovered := covered_of_debit h
  obtain ⟨b'', hdebit, hshift⟩ := debit_shift b a hc hcovered
  cases hdebit.symm.trans h
  refine ⟨hshift.nonNegative hb ?_, fun denom => hshift.supply denom⟩
  intro denom
  have hle := Coins.sumOf_le hc (hb a) hcovered denom
  omega

theorem nonNegative_of_credit {b : Balances} (hb : b.NonNegative) {a : Address}
    (ha : a.isEmpty = false) {coins : Coins} (hc : Coins.Checked coins.toList) :
    ∃ b', b.credit a coins = .ok b' ∧ b'.NonNegative ∧
      ∀ denom, b'.supplyOf denom = b.supplyOf denom + Coins.sumOf coins.toList denom := by
  obtain ⟨b', hcredit, hshift⟩ := credit_shift b ha coins
  refine ⟨b', hcredit, hshift.nonNegative hb ?_, hshift.supply⟩
  intro denom
  exact Int.add_nonneg (hb a denom) (Coins.sumOf_nonneg hc.positive denom)

end Balances

end TokenRegistry
