import Mathlib.Algebra.BigOperators.Finprod
import TokenRegistry.Proofs.Ledger.Total

/-!
# Conservation of units

Units come onto the books with a credit and leave them with a debit, and nothing else
moves a supply. Whatever is posted to empty books, taken or turned away, there are no
debts, no entries of zero units and no units without an address, and the supply of a
denomination is what all accounts hold of it: the credited units less the debited ones.
-/
namespace TokenRegistry

namespace Account

variable {a : Account} {c : Coin} {cs : List Coin}

/-- No entry is kept for a balance of zero, and none is a debt. -/
def Positive (a : Account) : Prop := ∀ e ∈ a.entries, 0 < e.2

theorem Positive.balance_nonneg (h : a.Positive) (denom : String) : 0 ≤ a.balance denom := by
  rw [balance]
  cases hget : a.get? denom with
  | none => exact Int.le_refl 0
  | some n => exact Int.le_of_lt (h _ ((a.get?_eq_some_iff _ _).mp hget))

theorem Positive.insert (h : a.Positive) (denom : String) {n : Int} (hn : 0 < n) :
    Positive (OrderedMap.insert a denom n) := by
  intro e he
  rcases OrderedMap.mem_put he with rfl | hmem
  · exact hn
  · exact h e hmem

theorem Positive.deposit (h : a.Positive) (hc : 0 < c.amount) : (a.deposit c).Positive := by
  have hheld := h.balance_nonneg c.denom
  exact h.insert c.denom (by omega)

theorem Positive.withdraw (h : a.Positive) (hc : c.amount ≤ a.balance c.denom) :
    (a.withdraw c).Positive := by
  rw [Account.withdraw]
  cases hget : a.get? c.denom with
  | none => exact h
  | some held =>
    rw [balance, hget] at hc
    change c.amount ≤ held at hc
    change Positive (if held - c.amount = 0 then _ else _)
    split
    · intro e he
      exact h e ((OrderedMap.drop_sublist _ _).mem he)
    · exact h.insert c.denom (by omega)

theorem Positive.foldl_deposit (h : a.Positive) (hcs : ∀ c ∈ cs, 0 < c.amount) :
    (cs.foldl Account.deposit a).Positive := by
  induction cs generalizing a with
  | nil => exact h
  | cons c cs ih =>
    obtain ⟨hc, hrest⟩ := List.forall_mem_cons.mp hcs
    exact ih (h.deposit hc) hrest

theorem Positive.foldl_withdraw (h : a.Positive) (hcs : Coins.Checked cs)
    (hle : ∀ c ∈ cs, c.amount ≤ a.balance c.denom) : (cs.foldl Account.withdraw a).Positive := by
  induction cs generalizing a with
  | nil => exact h
  | cons c cs ih =>
    obtain ⟨-, hcovered⟩ := covered_withdraw hcs hle
    exact ih (h.withdraw (hle c List.mem_cons_self)) hcs.tail hcovered

end Account

namespace Balances

variable {b : Balances}

def holders (b : Balances) : List Address := b.accounts.keys.map Address.mk

theorem holders_nodup (b : Balances) : b.holders.Nodup :=
  (OrderedMap.keys_nodup b.accounts.ascending).map fun _ _ heq => congrArg Address.bytes heq

theorem mem_holders {a : Address} {denom : String} (h : b.balance a denom ≠ 0) : a ∈ b.holders := by
  apply List.mem_map_of_mem (f := Address.mk) (a := a.bytes)
  rw [OrderedMap.mem_keys_iff]
  cases hget : b.accounts.get? a.bytes with
  | none =>
    rw [balance, account, hget] at h
    exact absurd rfl h
  | some account => exact ⟨account, rfl⟩

theorem support_subset_holders (b : Balances) (denom : String) :
    (Function.support fun a => b.balance a denom) ⊆ b.holders.toFinset := by
  intro a ha
  rw [List.coe_toFinset]
  exact mem_holders ha

theorem supplyOf_eq_finsum (b : Balances) (denom : String) :
    b.supplyOf denom = ∑ᶠ a, b.balance a denom := by
  have hlisted : (b.holders.map fun a => b.balance a denom) =
      b.accounts.entries.map fun e => e.2.balance denom := by
    rw [holders, OrderedMap.keys, List.map_map, List.map_map]
    exact List.map_congr_left fun e he => (balance_of_mem he denom).symm
  rw [finsum_eq_sum_of_support_subset _ (b.support_subset_holders denom),
    List.sum_toFinset _ b.holders_nodup, hlisted, supplyOf_eq_sumOver, sumOver_eq_sum]

/-- All entries are positive, and none is in the name of the empty address. -/
structure Clean (b : Balances) : Prop where
  positive : ∀ e ∈ b.accounts.entries, e.2.Positive
  named : b.accounts.get? [] = none

theorem clean_empty : empty.Clean := ⟨fun _ he => absurd he List.not_mem_nil, rfl⟩

theorem Clean.account (h : b.Clean) (a : Address) : (b.account a).Positive := by
  rw [Balances.account]
  cases hget : b.accounts.get? a.bytes with
  | none => exact fun _ he => absurd he List.not_mem_nil
  | some account => exact h.positive _ ((b.accounts.get?_eq_some_iff _ _).mp hget)

theorem Clean.insert (h : b.Clean) {a : Address} (ha : a.bytes ≠ []) {account : Account}
    (haccount : account.Positive) : Clean ⟨b.accounts.insert a.bytes account⟩ := by
  constructor
  · intro e he
    rcases OrderedMap.mem_put he with rfl | hmem
    · exact haccount
    · exact h.positive e hmem
  · rw [OrderedMap.get?_insert, if_neg ha.symm]
    exact h.named

theorem Clean.nonNegative (h : b.Clean) : b.NonNegative :=
  nonNegative_of_entries fun e he n hn => Int.le_of_lt (h.positive e he n hn)

theorem Clean.credit (h : b.Clean) {a : Address} (ha : a.isEmpty = false) {coins : Coins}
    (hc : Coins.Checked coins.toList) :
    ∃ b', b.credit a coins = .ok b' ∧ b'.Clean ∧
      ∀ denom, b'.supplyOf denom = b.supplyOf denom + Coins.sumOf coins.toList denom := by
  obtain ⟨b', hcredit, hshift⟩ := credit_shift b ha coins
  refine ⟨b', hcredit, ?_, hshift.supply⟩
  rw [Balances.credit, ha] at hcredit
  cases hcredit
  exact h.insert (by simpa [Address.isEmpty] using ha) ((h.account a).foldl_deposit hc.positive)

theorem Clean.debit (h : b.Clean) {a : Address} {coins : Coins} (hc : Coins.Checked coins.toList)
    {b' : Balances} (hdebit : b.debit a coins = .ok b') :
    b'.Clean ∧ ∀ denom, b'.supplyOf denom = b.supplyOf denom - Coins.sumOf coins.toList denom := by
  refine ⟨?_, (nonNegative_of_debit h.nonNegative hc hdebit).2⟩
  have hcovered := covered_of_debit hdebit
  rw [Balances.debit, find?_uncovered_eq_none b a hcovered] at hdebit
  cases hget : b.accounts.get? a.bytes with
  | none =>
    rw [hget] at hdebit
    cases hdebit
    exact h
  | some held =>
    have haccount : b.account a = held := by
      rw [Balances.account, hget]
      rfl
    rw [hget] at hdebit
    cases hdebit
    refine h.insert ?_ ?_
    · intro hempty
      rw [hempty, h.named] at hget
      cases hget
    · rw [← haccount]
      exact (h.account a).foldl_withdraw hc hcovered

end Balances

inductive Posting
  | credit (a : Address) (coins : Coins)
  | debit (a : Address) (coins : Coins)

namespace Posting

def coins : Posting → Coins
  | .credit _ coins => coins
  | .debit _ coins => coins

def post : Posting → Attempt LedgerError Balances Unit
  | .credit a coins => Ledger.credit a coins
  | .debit a coins => Ledger.debit a coins

def credited (denom : String) : Posting → Int
  | .credit _ coins => coins.amountOf denom
  | .debit _ _ => 0

def debited (denom : String) : Posting → Int
  | .credit _ _ => 0
  | .debit _ coins => coins.amountOf denom

def allCredited (ps : List Posting) (denom : String) : Int := (ps.map (credited denom)).sum

def allDebited (ps : List Posting) (denom : String) : Int := (ps.map (debited denom)).sum

theorem allCredited_cons (p : Posting) (ps : List Posting) (denom : String) :
    allCredited (p :: ps) denom = p.credited denom + allCredited ps denom := List.sum_cons

theorem allDebited_cons (p : Posting) (ps : List Posting) (denom : String) :
    allDebited (p :: ps) denom = p.debited denom + allDebited ps denom := List.sum_cons

end Posting

namespace Balances

variable {b : Balances}

def after (b : Balances) (ps : List Posting) : Balances := ps.foldl (fun b p => (p.post b).2) b

def accepted : Balances → List Posting → List Posting
  | _, [] => []
  | b, p :: ps =>
    match p.post b with
    | (.ok (), b') => p :: accepted b' ps
    | (.error _, b') => accepted b' ps

theorem after_cons (b : Balances) (p : Posting) (ps : List Posting) :
    after b (p :: ps) = after (p.post b).2 ps := rfl

theorem Clean.post (h : b.Clean) {p : Posting} (hp : Coins.Checked p.coins.toList) :
    (∃ e, p.post b = (.error e, b)) ∨
      ∃ b', p.post b = (.ok (), b') ∧ b'.Clean ∧ ∀ denom,
        b'.supplyOf denom = b.supplyOf denom + p.credited denom - p.debited denom := by
  cases p with
  | credit a coins =>
    change (∃ e, Ledger.credit a coins b = (.error e, b)) ∨ ∃ b', Ledger.credit a coins b = _ ∧ _
    cases ha : a.isEmpty with
    | true =>
      have hrefused : b.credit a coins = .error (.rejected .emptyAddress) := by
        rw [Balances.credit, if_pos ha]
      exact .inl ⟨_, attempt_of_error hrefused⟩
    | false =>
      obtain ⟨b', hcredit, hclean, hsupply⟩ := h.credit ha hp
      refine .inr ⟨b', attempt_of_ok hcredit, hclean, ?_⟩
      intro denom
      rw [hsupply, ← Coins.amountOf_eq_sumOf hp]
      exact (Int.sub_zero _).symm
  | debit a coins =>
    change (∃ e, Ledger.debit a coins b = (.error e, b)) ∨ ∃ b', Ledger.debit a coins b = _ ∧ _
    cases hdebit : b.debit a coins with
    | error e => exact .inl ⟨e, attempt_of_error hdebit⟩
    | ok b' =>
      obtain ⟨hclean, hsupply⟩ := h.debit hp hdebit
      refine .inr ⟨b', attempt_of_ok hdebit, hclean, ?_⟩
      intro denom
      rw [hsupply, ← Coins.amountOf_eq_sumOf hp]
      exact congrArg (· - _) (Int.add_zero _).symm

theorem Clean.after (h : b.Clean) {ps : List Posting}
    (hps : ∀ p ∈ ps, Coins.Checked p.coins.toList) :
    (b.after ps).Clean ∧ ∀ denom, (b.after ps).supplyOf denom = b.supplyOf denom +
      Posting.allCredited (b.accepted ps) denom - Posting.allDebited (b.accepted ps) denom := by
  induction ps generalizing b with
  | nil =>
    refine ⟨h, fun denom => ?_⟩
    change b.supplyOf denom = b.supplyOf denom + 0 - 0
    omega
  | cons p ps ih =>
    obtain ⟨hp, hrest⟩ := List.forall_mem_cons.mp hps
    rw [after_cons, accepted]
    rcases h.post hp with ⟨e, hrefused⟩ | ⟨b', htaken, hclean, hsupply⟩
    · rw [hrefused]
      exact ih h hrest
    · rw [htaken]
      obtain ⟨hend, hmoved⟩ := ih hclean hrest
      refine ⟨hend, fun denom => ?_⟩
      change (b'.after ps).supplyOf denom = b.supplyOf denom +
        Posting.allCredited (p :: b'.accepted ps) denom -
        Posting.allDebited (p :: b'.accepted ps) denom
      rw [hmoved, hsupply, Posting.allCredited_cons, Posting.allDebited_cons]
      omega

/-- Books that are in order, with the units that came onto them and the units that left them. -/
structure Conserved (credited debited : String → Int) (b : Balances) : Prop where
  nonNegative : b.NonNegative
  entries : ∀ e ∈ b.accounts.entries, ∀ n ∈ e.2.entries, n.2 ≠ 0
  unnamed : ∀ denom, b.balance .empty denom = 0
  finite : ∀ denom, (Function.support fun a => b.balance a denom).Finite
  accounts : ∀ denom, b.supplyOf denom = ∑ᶠ a, b.balance a denom
  supply : ∀ denom, b.supplyOf denom = credited denom - debited denom

/-- Whatever is posted to empty books with checked coins, all units are accounted for. -/
theorem conserved_of_postings {ps : List Posting}
    (h : ∀ p ∈ ps, ∃ cs, Coins.ofList cs = .ok p.coins) :
    Conserved (Posting.allCredited (empty.accepted ps)) (Posting.allDebited (empty.accepted ps))
      (empty.after ps) := by
  have hchecked : ∀ p ∈ ps, Coins.Checked p.coins.toList := by
    intro p hp
    obtain ⟨cs, hcoins⟩ := h p hp
    exact Coins.checked_ofList hcoins
  obtain ⟨hclean, hsupply⟩ := clean_empty.after hchecked
  refine ⟨hclean.nonNegative, ?_, ?_, ?_, supplyOf_eq_finsum _, ?_⟩
  · intro e he n hn
    exact Int.ne_of_gt (hclean.positive e he n hn)
  · intro denom
    rw [balance, account, show Address.empty.bytes = [] from rfl, hclean.named]
    rfl
  · intro denom
    exact (Finset.finite_toSet _).subset (support_subset_holders _ denom)
  · intro denom
    rw [hsupply]
    exact congrArg (· - _) (Int.zero_add _)

def traffic : List Posting :=
  [.credit ⟨[1]⟩ ⟨[⟨"Ore", 5⟩, ⟨"Tin", 2⟩]⟩, .credit .empty ⟨[⟨"Ore", 1⟩]⟩,
    .debit ⟨[1]⟩ ⟨[⟨"Ore", 3⟩, ⟨"Tin", 4⟩]⟩, .debit ⟨[1]⟩ ⟨[⟨"Ore", 3⟩, ⟨"Tin", 2⟩]⟩,
    .credit ⟨[2]⟩ ⟨[⟨"Ore", 4⟩]⟩]

theorem conserved_of_traffic :
    (∀ p ∈ traffic, ∃ cs, Coins.ofList cs = .ok p.coins) ∧
      Conserved (Posting.allCredited (empty.accepted traffic))
        (Posting.allDebited (empty.accepted traffic)) (empty.after traffic) ∧
      (empty.after traffic).supplyOf "Ore" = 9 - 3 ∧
      (empty.after traffic).supplyOf "Tin" = 2 - 2 := by
  have hchecked : ∀ p ∈ traffic, Coins.ofList p.coins.toList = .ok p.coins := by decide +kernel
  have hlisted : ∀ p ∈ traffic, ∃ cs, Coins.ofList cs = .ok p.coins := fun p hp =>
    ⟨_, hchecked p hp⟩
  have hconserved := conserved_of_postings hlisted
  exact ⟨hlisted, hconserved, (hconserved.supply "Ore").trans (by decide +kernel),
    (hconserved.supply "Tin").trans (by decide +kernel)⟩

end Balances

end TokenRegistry
