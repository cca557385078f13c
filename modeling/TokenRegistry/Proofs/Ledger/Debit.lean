import Mathlib.Algebra.BigOperators.Group.List.Basic
import TokenRegistry.Proofs.Json.RoundTrip
import TokenRegistry.Proofs.Ledger.Balances

/-!
# Debits of coins that were not checked

A debit is to take from an account all that the coins list, or to fail without effect
if a balance would go below zero. Every coin is looked at by itself before any is
taken. For checked coins that is enough. Coins that come from outside may list a
denomination more than once: each coin can then be covered by a balance that does not
cover them together, and a balance that comes down to zero on the way is off the books,
so that later coins are not taken from it at all.
-/
namespace TokenRegistry

namespace Coins

def amountsOf (cs : List Coin) (denom : String) : List Int :=
  (cs.filter fun c => denom = c.denom).map Coin.amount

theorem amountsOf_cons (c : Coin) (cs : List Coin) (denom : String) :
    amountsOf (c :: cs) denom =
      if denom = c.denom then c.amount :: amountsOf cs denom else amountsOf cs denom := by
  rw [amountsOf, List.filter_cons]
  by_cases h : denom = c.denom
  · rw [if_pos (decide_eq_true h), if_pos h]
    rfl
  · rw [if_neg (by simpa using h), if_neg h]
    rfl

theorem sum_amountsOf (cs : List Coin) (denom : String) :
    (amountsOf cs denom).sum = sumOf cs denom := by
  induction cs with
  | nil => rfl
  | cons c cs ih =>
    rw [amountsOf_cons, sumOf_cons, ← ih]
    split
    · rw [List.sum_cons]
    · rw [Int.zero_add]

theorem amountsOf_eq_nil {cs : List Coin} {denom : String} (h : ∀ c ∈ cs, denom ≠ c.denom) :
    amountsOf cs denom = [] := by
  rw [amountsOf, List.map_eq_nil_iff, List.filter_eq_nil_iff]
  intro c hc
  simpa using h c hc

end Coins

namespace Account

/-- Takes an amount from an entry of the books, if there is one; nothing left, no entry. -/
def takeOff : Option Int → Int → Option Int
  | none, _ => none
  | some held, n => if held - n = 0 then none else some (held - n)

/-- Amounts that are taken one after another from an entry are taken in full: they are covered
together, and whenever the entry is gone those still to come add up to nothing. -/
structure Settles (held : Option Int) (ns : List Int) : Prop where
  covered : ns.sum ≤ held.getD 0
  absent : held = none → ns.sum = 0
  spent : ∀ k < ns.length, held = some (ns.take (k + 1)).sum → (ns.drop (k + 1)).sum = 0

instance (held : Option Int) (ns : List Int) : Decidable (Settles held ns) :=
  decidable_of_iff (ns.sum ≤ held.getD 0 ∧ (held = none → ns.sum = 0) ∧
      ∀ k < ns.length, held = some (ns.take (k + 1)).sum → (ns.drop (k + 1)).sum = 0)
    ⟨fun h => ⟨h.1, h.2.1, h.2.2⟩, fun h => ⟨h.covered, h.absent, h.spent⟩⟩

theorem foldl_takeOff_none (ns : List Int) : ns.foldl takeOff none = none := by
  induction ns with
  | nil => rfl
  | cons n ns ih => exact ih

theorem settles_none_iff (ns : List Int) : Settles none ns ↔ ns.sum = 0 := by
  constructor
  · intro h
    exact h.absent rfl
  · intro h
    exact ⟨Int.le_of_eq h, fun _ => h, fun _ _ hnone => absurd hnone (Option.some_ne_none _).symm⟩

theorem sum_take_cons (n : Int) (ns : List Int) (k : Nat) :
    ((n :: ns).take (k + 1)).sum = n + (ns.take k).sum := by
  rw [List.take_succ_cons, List.sum_cons]

theorem settles_cons_of_eq {held n : Int} (h : held = n) (ns : List Int) :
    Settles (some held) (n :: ns) ↔ ns.sum = 0 := by
  constructor
  · intro hsettles
    apply hsettles.spent 0 (Nat.zero_lt_succ _)
    rw [sum_take_cons, List.take_zero, List.sum_nil, Int.add_zero, h]
  · intro hrest
    have hsum : (n :: ns).sum = n + ns.sum := List.sum_cons
    refine ⟨?_, fun hnone => absurd hnone (Option.some_ne_none _), ?_⟩
    · change (n :: ns).sum ≤ held
      omega
    · intro k _ hspent
      have hheld := Option.some.inj hspent
      have hparts := List.sum_take_add_sum_drop ns k
      rw [sum_take_cons] at hheld
      rw [List.drop_succ_cons]
      omega

theorem settles_cons_of_ne {held n : Int} (h : held ≠ n) (ns : List Int) :
    Settles (some held) (n :: ns) ↔ Settles (some (held - n)) ns := by
  have hsum : (n :: ns).sum = n + ns.sum := List.sum_cons
  constructor
  · intro hsettles
    have hcovered : (n :: ns).sum ≤ held := hsettles.covered
    refine ⟨?_, fun hnone => absurd hnone (Option.some_ne_none _), ?_⟩
    · change ns.sum ≤ held - n
      omega
    · intro k hk hspent
      have hheld := Option.some.inj hspent
      apply hsettles.spent (k + 1) (Nat.succ_lt_succ hk)
      rw [sum_take_cons]
      exact congrArg some (by omega)
  · intro hsettles
    have hcovered : ns.sum ≤ held - n := hsettles.covered
    refine ⟨?_, fun hnone => absurd hnone (Option.some_ne_none _), ?_⟩
    · change (n :: ns).sum ≤ held
      omega
    · intro k hk hspent
      have hheld := Option.some.inj hspent
      rw [sum_take_cons] at hheld
      cases k with
      | zero =>
        rw [List.take_zero, List.sum_nil] at hheld
        omega
      | succ k =>
        apply hsettles.spent k (Nat.lt_of_succ_lt_succ hk)
        exact congrArg some (by omega)

theorem settles_iff (held : Option Int) (ns : List Int) :
    Settles held ns ↔ (ns.foldl takeOff held).getD 0 = held.getD 0 - ns.sum ∧
      0 ≤ (ns.foldl takeOff held).getD 0 := by
  induction ns generalizing held with
  | nil =>
    rw [List.foldl_nil, List.sum_nil, Int.sub_zero]
    constructor
    · intro h
      exact ⟨rfl, h.covered⟩
    · intro h
      exact ⟨h.2, fun _ => rfl, fun _ hk => absurd hk (Nat.not_lt_zero _)⟩
  | cons n ns ih =>
    cases held with
    | none =>
      rw [settles_none_iff, foldl_takeOff_none]
      simp only [Option.getD_none]
      omega
    | some held =>
      rw [List.foldl_cons, List.sum_cons, takeOff]
      by_cases h : held = n
      · rw [settles_cons_of_eq h, if_pos (by omega), foldl_takeOff_none]
        simp only [Option.getD_none, Option.getD_some]
        omega
      · rw [settles_cons_of_ne h, if_neg (by omega), ih]
        simp only [Option.getD_some]
        omega

theorem get?_withdraw (a : Account) (c : Coin) (denom : String) :
    (a.withdraw c).get? denom =
      if denom = c.denom then takeOff (a.get? denom) c.amount else a.get? denom := by
  rw [withdraw]
  by_cases hdenom : denom = c.denom
  · subst hdenom
    rw [if_pos rfl]
    cases hget : a.get? c.denom with
    | none => exact hget
    | some held =>
      rw [takeOff]
      change OrderedMap.get? (if held - c.amount = 0 then _ else _) c.denom = _
      split
      · rw [OrderedMap.get?_erase, if_pos rfl]
      · rw [OrderedMap.get?_insert, if_pos rfl]
  · rw [if_neg hdenom]
    cases hget : a.get? c.denom with
    | none => rfl
    | some held =>
      change OrderedMap.get? (if held - c.amount = 0 then _ else _) denom = _
      split
      · rw [OrderedMap.get?_erase, if_neg hdenom]
      · rw [OrderedMap.get?_insert, if_neg hdenom]

theorem get?_foldl_withdraw (a : Account) (cs : List Coin) (denom : String) :
    (cs.foldl withdraw a).get? denom = (Coins.amountsOf cs denom).foldl takeOff (a.get? denom) := by
  induction cs generalizing a with
  | nil => rfl
  | cons c cs ih =>
    rw [List.foldl_cons, ih, get?_withdraw, Coins.amountsOf_cons]
    split
    · rfl
    · rfl

end Account

namespace Balances

variable {b : Balances} {a : Address} {coins : Coins}

/-- What comes of a debit as it is asked for: it fails without effect, or it takes from each balance
of the account what the coins list of it, and no balance is below zero. -/
inductive Debited (a : Address) (coins : Coins) (b : Balances) :
    Except LedgerError Unit × Balances → Prop
  | refused {e : LedgerError} {b' : Balances}
      (hbalance : ∀ x denom, b'.balance x denom = b.balance x denom) :
      Debited a coins b (.error e, b')
  | taken {b' : Balances}
      (hbalance : ∀ x denom, b'.balance x denom =
        b.balance x denom - if x = a then Coins.sumOf coins.toList denom else 0)
      (hnonneg : b'.NonNegative) : Debited a coins b (.ok (), b')

theorem debit_of_covered (hle : ∀ c ∈ coins.toList, c.amount ≤ b.balance a c.denom) :
    ∃ b', b.debit a coins = .ok b' ∧ ∀ x denom, b'.balance x denom =
      if x = a then
        ((Coins.amountsOf coins.toList denom).foldl Account.takeOff
          ((b.account a).get? denom)).getD 0
      else b.balance x denom := by
  rw [debit, find?_uncovered_eq_none b a hle]
  cases hget : b.accounts.get? a.bytes with
  | none =>
    refine ⟨b, rfl, ?_⟩
    intro x denom
    have hnone : (b.account a).get? denom = none := by
      rw [account, hget]
      rfl
    split
    · rename_i heq
      rw [hnone, Account.foldl_takeOff_none, heq, balance, Account.balance, hnone]
    · rfl
  | some held =>
    refine ⟨_, rfl, ?_⟩
    intro x denom
    have haccount : b.account a = held := by
      rw [account, hget]
      rfl
    rw [balance_insert, Account.balance, Account.get?_foldl_withdraw, haccount]

theorem debit_of_uncovered (h : ∃ c ∈ coins.toList, b.balance a c.denom < c.amount) :
    ∃ e, b.debit a coins = .error e := by
  obtain ⟨c, hc, hlt⟩ := h
  rw [debit]
  cases hfind : coins.toList.find? fun c => b.balance a c.denom < c.amount with
  | none => exact absurd (decide_eq_true hlt) (List.find?_eq_none.mp hfind c hc)
  | some c' => exact ⟨_, rfl⟩

theorem settles_of_forall_mem (hb : b.NonNegative)
    (h : ∀ c ∈ coins.toList, Account.Settles ((b.account a).get? c.denom)
      (Coins.amountsOf coins.toList c.denom)) (denom : String) :
    Account.Settles ((b.account a).get? denom) (Coins.amountsOf coins.toList denom) := by
  by_cases hlisted : ∃ c ∈ coins.toList, denom = c.denom
  · obtain ⟨c, hc, rfl⟩ := hlisted
    exact h c hc
  · rw [Coins.amountsOf_eq_nil fun c hc heq => hlisted ⟨c, hc, heq⟩, Account.settles_iff]
    exact ⟨(Int.sub_zero _).symm, hb a denom⟩

theorem debited_iff_of_covered (hb : b.NonNegative)
    (hle : ∀ c ∈ coins.toList, c.amount ≤ b.balance a c.denom) :
    Debited a coins b (Ledger.debit a coins b) ↔
      ∀ c ∈ coins.toList, Account.Settles ((b.account a).get? c.denom)
        (Coins.amountsOf coins.toList c.denom) := by
  obtain ⟨b', hdebit, hbalance⟩ := debit_of_covered hle
  have hrun : Ledger.debit a coins b = (.ok (), b') := attempt_of_ok hdebit
  rw [hrun]
  constructor
  · intro hdebited c hc
    cases hdebited with
    | taken htaken hnonneg =>
      have hown := hbalance a c.denom
      rw [if_pos rfl] at hown
      rw [Account.settles_iff, ← hown, htaken, if_pos rfl, Coins.sum_amountsOf]
      refine ⟨rfl, ?_⟩
      have := hnonneg a c.denom
      rwa [htaken, if_pos rfl] at this
  · intro hsettles
    have hall := settles_of_forall_mem hb hsettles
    have hown : ∀ denom, b'.balance a denom = b.balance a denom - Coins.sumOf coins.toList denom ∧
        0 ≤ b'.balance a denom := by
      intro denom
      rw [hbalance, if_pos rfl, ← Coins.sum_amountsOf]
      exact (Account.settles_iff _ _).mp (hall denom)
    apply Debited.taken
    · intro x denom
      split
      · rename_i heq
        rw [heq]
        exact (hown denom).1
      · rename_i hne
        rw [hbalance, if_neg hne, Int.sub_zero]
    · intro x denom
      by_cases heq : x = a
      · rw [heq]
        exact (hown denom).2
      · rw [hbalance, if_neg heq]
        exact hb x denom

theorem debited_of_checked (hb : b.NonNegative) (hc : Coins.Checked coins.toList) :
    Debited a coins b (Ledger.debit a coins b) := by
  cases hdebit : b.debit a coins with
  | error e =>
    have hrun : Ledger.debit a coins b = (.error e, b) := attempt_of_error hdebit
    rw [hrun]
    exact .refused fun _ _ => rfl
  | ok b' =>
    have hrun : Ledger.debit a coins b = (.ok (), b') := attempt_of_ok hdebit
    obtain ⟨b'', hok, hshift⟩ := debit_shift b a hc (covered_of_debit hdebit)
    cases hok.symm.trans hdebit
    rw [hrun]
    refine .taken ?_ (nonNegative_of_debit hb hc hdebit).1
    intro x denom
    rw [hshift.balance]
    split
    · rfl
    · rfl

/-- A debit does as it is asked exactly if some coin is not covered by itself, or the amounts of
each denomination can be taken one after another; so it is with all coins that were checked. -/
theorem debited_iff (hb : b.NonNegative) (a : Address) (coins : Coins) :
    (Debited a coins b (Ledger.debit a coins b) ↔
      (∃ c ∈ coins.toList, b.balance a c.denom < c.amount) ∨
        ∀ c ∈ coins.toList, Account.Settles ((b.account a).get? c.denom)
          (Coins.amountsOf coins.toList c.denom)) ∧
    ((∃ cs, Coins.ofList cs = .ok coins) → Debited a coins b (Ledger.debit a coins b)) := by
  constructor
  · by_cases hcovered : ∃ c ∈ coins.toList, b.balance a c.denom < c.amount
    · obtain ⟨e, herror⟩ := debit_of_uncovered hcovered
      have hrun : Ledger.debit a coins b = (.error e, b) := attempt_of_error herror
      rw [hrun]
      exact iff_of_true (.refused fun _ _ => rfl) (.inl hcovered)
    · rw [or_iff_right hcovered]
      apply debited_iff_of_covered hb
      intro c hc
      exact Int.not_lt.mp fun hlt => hcovered ⟨c, hc, hlt⟩
  · rintro ⟨cs, hcoins⟩
    exact debited_of_checked hb (Coins.checked_ofList hcoins)

def purse : Balances := ⟨OrderedMap.insert ∅ [1] (OrderedMap.insert ∅ "Ore" 5)⟩

theorem debited_from_purse :
    purse.NonNegative ∧
      Debited ⟨[1]⟩ ⟨[⟨"Ore", 2⟩, ⟨"Ore", 1⟩, ⟨"Ore", 2⟩]⟩ purse
        (Ledger.debit ⟨[1]⟩ ⟨[⟨"Ore", 2⟩, ⟨"Ore", 1⟩, ⟨"Ore", 2⟩]⟩ purse) ∧
      (∃ cs, Coins.ofList cs = .ok ⟨[⟨"Ore", 4⟩]⟩) ∧
      Debited ⟨[1]⟩ ⟨[⟨"Ore", 4⟩]⟩ purse (Ledger.debit ⟨[1]⟩ ⟨[⟨"Ore", 4⟩]⟩ purse) := by
  have hpurse : purse.NonNegative := nonNegative_of_entries (by decide +kernel)
  have hcoins : ∃ cs, Coins.ofList cs = .ok ⟨[⟨"Ore", 4⟩]⟩ :=
    ⟨[⟨"Tin", 0⟩, ⟨"Ore", 4⟩], by decide +kernel⟩
  exact ⟨hpurse, (debited_iff hpurse _ _).1.mpr (.inr (by decide +kernel)), hcoins,
    (debited_iff hpurse _ _).2 hcoins⟩

def listedTwice : Coins := ⟨[⟨"Ore", 3⟩, ⟨"Ore", 3⟩]⟩

/-- Coins that are read from a text list a denomination twice; each of them is covered, both are
taken, and the account is left with a debt. -/
theorem purse_overdrawn :
    Json.readPage Coins.read listedTwice.toJson.text = .ok listedTwice ∧ purse.NonNegative ∧
      (Ledger.debit ⟨[1]⟩ listedTwice purse).2.balance ⟨[1]⟩ "Ore" = -1 ∧
      ¬ Debited ⟨[1]⟩ listedTwice purse (Ledger.debit ⟨[1]⟩ listedTwice purse) := by
  have hpurse : purse.NonNegative := nonNegative_of_entries (by decide +kernel)
  refine ⟨Coins.inverts_read.readsBack _, hpurse, by decide +kernel, ?_⟩
  rw [debited_iff_of_covered hpurse (by decide +kernel)]
  decide +kernel

end Balances

end TokenRegistry
