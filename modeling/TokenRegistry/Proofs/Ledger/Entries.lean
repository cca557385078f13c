import TokenRegistry.Proofs.Coins.Canonical
import TokenRegistry.Proofs.Ledger.Balances

/-!
# What an entry of checked coins does, exactly

A credit of checked coins fails for the empty address alone and else raises the balances
of one account by what the coins have of each denomination. A debit goes through exactly if
every balance covers what is asked of it, and then lowers them by as much; otherwise it
changes nothing and names the first denomination, in byte order, that is not covered. So
a debit takes back a credit and a credit takes back a debit, balance by balance.
-/
namespace TokenRegistry

theorem Coins.amountOf_nonneg {coins : Coins} (h : Checked coins.toList) (denom : String) :
    0 ≤ coins.amountOf denom := by
  rw [amountOf_eq_sumOf h]
  exact sumOf_nonneg h.positive denom

theorem Coins.exists_mem_of_amountOf_pos {coins : Coins} {denom : String}
    (h : 0 < coins.amountOf denom) : ∃ c ∈ coins.toList, c.denom = denom := by
  by_contra hnone
  have hzero := amountOf_of_not_mem fun c hc heq => hnone ⟨c, hc, heq⟩
  omega

namespace Balances

variable {a : Address} {cs : List Coin} {coins : Coins} {b b' b'' : Balances}

def Covers (b : Balances) (a : Address) (coins : Coins) : Prop :=
  ∀ denom, coins.amountOf denom ≤ b.balance a denom

/-- The first denomination in byte order that the balances of an account do not cover. -/
structure FirstShort (b : Balances) (a : Address) (coins : Coins) (denom : String) : Prop where
  short : b.balance a denom < coins.amountOf denom
  first : ∀ d, b.balance a d < coins.amountOf d →
    Text.Utf8.ofString denom ≤ Text.Utf8.ofString d

def Restored (b b' : Balances) : Prop := ∀ x denom, b'.balance x denom = b.balance x denom

/-- What credits and debits of the coins do to the books, each by itself and the other after it. -/
structure Exact (a : Address) (coins : Coins) (b : Balances) : Prop where
  credit_fails_iff : (∃ e b', Ledger.credit a coins b = (.error e, b')) ↔ a.isEmpty = true
  credited : a.isEmpty = false → ∃ b', Ledger.credit a coins b = (.ok (), b') ∧
    Shift a coins.amountOf b b' ∧
    ∃ b'', Ledger.debit a coins b' = (.ok (), b'') ∧ Restored b b''
  debit_succeeds_iff : (∃ b', Ledger.debit a coins b = (.ok (), b')) ↔ Covers b a coins
  debited : Covers b a coins → ∃ b', Ledger.debit a coins b = (.ok (), b') ∧
    Shift a (fun denom => -coins.amountOf denom) b b' ∧
    (a.isEmpty = false → ∃ b'', Ledger.credit a coins b' = (.ok (), b'') ∧ Restored b b'')
  debit_failed : ¬ Covers b a coins → ∃ denom, FirstShort b a coins denom ∧
    Ledger.debit a coins b = (.error (.insufficientFunds a.text denom
      (Amount.text (b.balance a denom)) (Amount.text (coins.amountOf denom))), b)

theorem Shift.cancel {δ δ' : String → Int} (h : Shift a δ b b') (h' : Shift a δ' b' b'')
    (hδ : ∀ denom, δ denom + δ' denom = 0) : Restored b b'' := by
  intro x denom
  have hboth := (h.trans h').balance x denom
  simpa [hδ] using hboth

theorem credit_cases (hc : Coins.Checked coins.toList) (a : Address) (b : Balances) :
    a.isEmpty = true ∧ Ledger.credit a coins b = (.error (.rejected .emptyAddress), b) ∨
      a.isEmpty = false ∧ ∃ b', Ledger.credit a coins b = (.ok (), b') ∧
        Shift a coins.amountOf b b' := by
  cases ha : a.isEmpty with
  | true => exact .inl ⟨rfl, attempt_of_error (by simp [credit, ha])⟩
  | false =>
    obtain ⟨b', hcredit, hshift⟩ := b.credit_shift ha coins
    exact .inr ⟨rfl, b', attempt_of_ok hcredit,
      hshift.congr fun denom => (Coins.amountOf_eq_sumOf hc denom).symm⟩

theorem covered_iff (hb : b.NonNegative) (hc : Coins.Checked coins.toList) :
    Covers b a coins ↔ ∀ c ∈ coins.toList, c.amount ≤ b.balance a c.denom := by
  constructor
  · intro h c hmem
    rw [← Coins.amountOf_of_mem hc.distinct hmem]
    exact h c.denom
  · intro h denom
    rw [Coins.amountOf_eq_sumOf hc]
    exact Coins.sumOf_le hc (hb a) h denom

theorem firstShort_of_find? (hb : b.NonNegative) (hcoins : Coins.ofList cs = .ok coins) {c : Coin}
    (h : coins.toList.find? (fun c => b.balance a c.denom < c.amount) = some c) :
    FirstShort b a coins c.denom ∧ coins.amountOf c.denom = c.amount := by
  have hdistinct := (Coins.checked_ofList hcoins).distinct
  have hascending := (Coins.canonical_of_ofList hcoins).2.ascending
  obtain ⟨hshort, before, after, hlist, hbefore⟩ := List.find?_eq_some_iff_append.mp h
  have hamount := Coins.amountOf_of_mem hdistinct (List.mem_of_find?_eq_some h)
  refine ⟨⟨by simpa [hamount] using hshort, ?_⟩, hamount⟩
  intro denom hdenom
  obtain ⟨d, hd, rfl⟩ := Coins.exists_mem_of_amountOf_pos ((hb a denom).trans_lt hdenom)
  rw [Coins.amountOf_of_mem hdistinct hd] at hdenom
  rw [hlist, List.mem_append, List.mem_cons] at hd
  rw [hlist, List.pairwise_append, List.pairwise_cons] at hascending
  -- Coins are looked at in byte order, so what is not covered comes no earlier than the coin.
  rcases hd with hearlier | rfl | hlater
  · have hcovered := hbefore d hearlier
    simp only [Bool.not_eq_eq_eq_not, Bool.not_true, decide_eq_false_iff_not] at hcovered
    exact absurd hdenom hcovered
  · exact Std.le_refl _
  · exact Std.le_of_lt (hascending.2.1.1 d hlater)

theorem debit_cases (hb : b.NonNegative) (hcoins : Coins.ofList cs = .ok coins) (a : Address) :
    Covers b a coins ∧ (∃ b', Ledger.debit a coins b = (.ok (), b') ∧
      Shift a (fun denom => -coins.amountOf denom) b b') ∨
    ∃ denom, FirstShort b a coins denom ∧ Ledger.debit a coins b =
      (.error (.insufficientFunds a.text denom (Amount.text (b.balance a denom))
        (Amount.text (coins.amountOf denom))), b) := by
  have hc := Coins.checked_ofList hcoins
  cases hfind : coins.toList.find? fun c => b.balance a c.denom < c.amount with
  | none =>
    have hcovered : ∀ c ∈ coins.toList, c.amount ≤ b.balance a c.denom := by
      simpa using List.find?_eq_none.mp hfind
    obtain ⟨b', hdebit, hshift⟩ := b.debit_shift a hc hcovered
    refine .inl ⟨(covered_iff hb hc).mpr hcovered, b', attempt_of_ok hdebit, hshift.congr ?_⟩
    intro denom
    rw [Coins.amountOf_eq_sumOf hc]
  | some c =>
    obtain ⟨hshort, hamount⟩ := firstShort_of_find? hb hcoins hfind
    refine .inr ⟨c.denom, hshort, attempt_of_error ?_⟩
    simp [debit, hfind, hamount, uncovered]

theorem credit_taken_back (hb : b.NonNegative) (hcoins : Coins.ofList cs = .ok coins)
    (h : Shift a coins.amountOf b b') :
    ∃ b'', Ledger.debit a coins b' = (.ok (), b'') ∧ Restored b b'' := by
  have hnonneg := Coins.amountOf_nonneg (Coins.checked_ofList hcoins)
  have hb' : b'.NonNegative := h.nonNegative hb fun denom =>
    Int.add_nonneg (hb a denom) (hnonneg denom)
  rcases debit_cases hb' hcoins a with ⟨-, b'', hdebit, hshift⟩ | ⟨denom, hshort, -⟩
  · exact ⟨b'', hdebit, h.cancel hshift fun denom => Int.add_right_neg _⟩
  · have hbalance := h.balance a denom
    have hshort := hshort.short
    have := hb a denom
    simp only [if_true] at hbalance
    omega

theorem debit_taken_back (hcoins : Coins.ofList cs = .ok coins) (ha : a.isEmpty = false)
    (h : Shift a (fun denom => -coins.amountOf denom) b b') :
    ∃ b'', Ledger.credit a coins b' = (.ok (), b'') ∧ Restored b b'' := by
  rcases credit_cases (Coins.checked_ofList hcoins) a b' with
    ⟨hempty, -⟩ | ⟨-, b'', hcredit, hshift⟩
  · simp [ha] at hempty
  · exact ⟨b'', hcredit, h.cancel hshift fun denom => Int.add_left_neg _⟩

theorem FirstShort.not_covers {denom : String} (h : FirstShort b a coins denom) :
    ¬ Covers b a coins := fun hcovered => Int.not_lt.mpr (hcovered denom) h.short

theorem exact_of_checked (hb : b.NonNegative) (hc : ∃ cs, Coins.ofList cs = .ok coins)
    (a : Address) : Exact a coins b := by
  obtain ⟨cs, hcoins⟩ := hc
  have hcredit := credit_cases (Coins.checked_ofList hcoins) a b
  have hdebit := debit_cases hb hcoins a
  constructor
  case credit_fails_iff => rcases hcredit with ⟨ha, h⟩ | ⟨ha, b', h, -⟩ <;> simp [ha, h]
  case credited =>
    intro ha
    rcases hcredit with ⟨hempty, -⟩ | ⟨-, b', h, hshift⟩
    · simp [ha] at hempty
    · exact ⟨b', h, hshift, credit_taken_back hb hcoins hshift⟩
  case debit_succeeds_iff =>
    rcases hdebit with ⟨hcovers, b', h, -⟩ | ⟨denom, hshort, h⟩
    · exact iff_of_true ⟨b', h⟩ hcovers
    · exact iff_of_false (by simp [h]) hshort.not_covers
  case debited =>
    intro hcovers
    rcases hdebit with ⟨-, b', h, hshift⟩ | ⟨denom, hshort, -⟩
    · exact ⟨b', h, hshift, fun ha => debit_taken_back hcoins ha hshift⟩
    · exact absurd hcovers hshort.not_covers
  case debit_failed =>
    intro hnot
    exact hdebit.resolve_left fun hcovered => hnot hcovered.1

def till : Balances := ⟨OrderedMap.insert ∅ [1] ((OrderedMap.insert ∅ "Ore" 5).insert "Tin" 2)⟩

theorem exact_till :
    till.NonNegative ∧ (∃ cs, Coins.ofList cs = .ok ⟨[⟨"Ore", 7⟩, ⟨"Tin", 3⟩]⟩) ∧
      Exact ⟨[1]⟩ ⟨[⟨"Ore", 7⟩, ⟨"Tin", 3⟩]⟩ till ∧
      Ledger.debit ⟨[1]⟩ ⟨[⟨"Ore", 7⟩, ⟨"Tin", 3⟩]⟩ till =
        (.error (.insufficientFunds "01" "Ore" "5" "7"), till) := by
  have htill : till.NonNegative := nonNegative_of_entries (by decide +kernel)
  have hcoins : ∃ cs, Coins.ofList cs = .ok ⟨[⟨"Ore", 7⟩, ⟨"Tin", 3⟩]⟩ :=
    ⟨[⟨"Tin", 3⟩, ⟨"Gold", 0⟩, ⟨"Ore", 7⟩], by decide +kernel⟩
  exact ⟨htill, hcoins, exact_of_checked htill hcoins ⟨[1]⟩, by decide +kernel⟩

end Balances

end TokenRegistry
