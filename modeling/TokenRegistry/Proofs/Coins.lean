import TokenRegistry.Coins.Json
import Mathlib.Algebra.Order.Ring.Int

/-!
# Checked coins

Coins that pass the checks name each denomination once and hold positive amounts
only. A single coin passes them if its denomination has a name and its amount is
not negative.
-/
namespace TokenRegistry.Coins

/-- What a list of coins holds of one denomination, over all its coins. -/
def sumOf (cs : List Coin) (denom : String) : Int :=
  (cs.map fun c => if denom = c.denom then c.amount else 0).sum

structure Checked (cs : List Coin) : Prop where
  distinct : cs.Pairwise fun c c' => c.denom ≠ c'.denom
  positive : ∀ c ∈ cs, 0 < c.amount

theorem Checked.tail {c : Coin} {cs : List Coin} (h : Checked (c :: cs)) : Checked cs :=
  ⟨(List.pairwise_cons.mp h.distinct).2, fun d hd => h.positive d (List.mem_cons_of_mem _ hd)⟩

theorem sumOf_nil (denom : String) : sumOf [] denom = 0 := rfl

theorem sumOf_cons (c : Coin) (cs : List Coin) (denom : String) :
    sumOf (c :: cs) denom = (if denom = c.denom then c.amount else 0) + sumOf cs denom := by
  rw [sumOf, List.map_cons, List.sum_cons, sumOf]

theorem sumOf_eq_zero {cs : List Coin} {denom : String} (h : ∀ c ∈ cs, denom ≠ c.denom) :
    sumOf cs denom = 0 := by
  induction cs with
  | nil => rfl
  | cons c cs ih =>
    rw [sumOf_cons, if_neg (h c List.mem_cons_self), ih fun d hd => h d (List.mem_cons_of_mem _ hd)]
    rfl

theorem sumOf_nonneg {cs : List Coin} (h : ∀ c ∈ cs, 0 < c.amount) (denom : String) :
    0 ≤ sumOf cs denom := by
  induction cs with
  | nil => exact Int.le_refl 0
  | cons c cs ih =>
    have hhead := h c List.mem_cons_self
    have htail := ih fun d hd => h d (List.mem_cons_of_mem _ hd)
    rw [sumOf_cons]
    split
    · omega
    · omega

theorem sumOf_le {cs : List Coin} (h : Checked cs) {available : String → Int}
    (hnonneg : ∀ denom, 0 ≤ available denom) (hle : ∀ c ∈ cs, c.amount ≤ available c.denom)
    (denom : String) : sumOf cs denom ≤ available denom := by
  induction cs with
  | nil => exact hnonneg denom
  | cons c cs ih =>
    obtain ⟨hne, -⟩ := List.pairwise_cons.mp h.distinct
    rw [sumOf_cons]
    by_cases hd : denom = c.denom
    · have hrest : sumOf cs denom = 0 := sumOf_eq_zero fun d hmem => hd ▸ hne d hmem
      have hc := hle c List.mem_cons_self
      rw [if_pos hd, hrest, hd]
      omega
    · have hrest := ih h.tail fun d hmem => hle d (List.mem_cons_of_mem _ hmem)
      rw [if_neg hd]
      omega

theorem amountOf_eq_sumOf {coins : Coins} (h : Checked coins.toList) (denom : String) :
    coins.amountOf denom = sumOf coins.toList denom := by
  rw [amountOf]
  generalize coins.toList = cs at h
  induction cs with
  | nil => rfl
  | cons c cs ih =>
    obtain ⟨hne, -⟩ := List.pairwise_cons.mp h.distinct
    rw [sumOf_cons]
    by_cases hd : denom = c.denom
    -- No later coin has the denomination again.
    · rw [List.find?_cons_of_pos (by simp [hd]), if_pos hd,
        sumOf_eq_zero fun d hmem => hd ▸ hne d hmem, Int.add_zero]
      rfl
    · rw [List.find?_cons_of_neg (by simp [Ne.symm hd]), ih h.tail, if_neg hd, Int.zero_add]

theorem gather_nonneg {cs : List Coin} {seen all : OrderedMap String Int}
    (h : gather seen cs = .ok all) (hseen : ∀ e ∈ seen.entries, 0 ≤ e.2) :
    ∀ e ∈ all.entries, 0 ≤ e.2 := by
  induction cs generalizing seen with
  | nil =>
    cases h
    exact hseen
  | cons c cs ih =>
    rw [gather] at h
    split at h
    · cases h
    · split at h
      · cases h
      · rename_i hamount
        split at h
        · cases h
        · apply ih h
          intro e he
          rcases OrderedMap.mem_put he with rfl | he
          · exact Int.not_lt.mp hamount
          · exact hseen e he

theorem checked_ofEntries {es : List (String × Int)} (h : Ascending es)
    (hnonneg : ∀ e ∈ es, 0 ≤ e.2) : Checked (ofEntries es).toList := by
  constructor
  · refine List.pairwise_map.mpr ((h.filter _).imp fun {a b} hlt => ?_)
    intro heq
    change a.1 = b.1 at heq
    rw [heq] at hlt
    exact Std.lt_irrefl hlt
  · intro c hc
    obtain ⟨e, he, rfl⟩ := List.mem_map.mp hc
    obtain ⟨hmem, hne⟩ := List.mem_filter.mp he
    have hle := hnonneg e hmem
    have hne : e.2 ≠ 0 := by simpa using hne
    change 0 < e.2
    omega

theorem checked_ofList {cs : List Coin} {coins : Coins} (h : ofList cs = .ok coins) :
    Checked coins.toList := by
  rw [ofList] at h
  cases hall : gather ∅ cs with
  | error e =>
    rw [hall] at h
    cases h
  | ok all =>
    rw [hall] at h
    cases h
    exact checked_ofEntries all.ascending
      (gather_nonneg hall fun e he => absurd he List.not_mem_nil)

def ofAmount (denom : String) (amount : Int) : Coins :=
  ⟨if amount = 0 then [] else [⟨denom, amount⟩]⟩

theorem single_of_ne {denom : String} {amount : Int} (hdenom : denom ≠ "") (hamount : 0 ≤ amount) :
    single denom amount = .ok (ofAmount denom amount) := by
  have hnot : ¬ amount < 0 := Int.not_lt.mpr hamount
  have hseen : (∅ : OrderedMap String Int).contains denom = false := rfl
  have hall : gather ∅ [⟨denom, amount⟩] = .ok (OrderedMap.insert ∅ denom amount) := by
    simp only [gather, if_neg hdenom, if_neg hnot, hseen]
    rfl
  have hentries : ((∅ : OrderedMap String Int).insert denom amount).entries = [(denom, amount)] :=
    rfl
  rw [single, ofList, hall]
  change Except.ok (ofEntries _) = _
  rw [hentries, ofEntries, ofAmount]
  by_cases hzero : amount = 0
  · simp [hzero]
  · simp [hzero]

theorem checked_ofAmount {denom : String} {amount : Int} (h : 0 ≤ amount) :
    Checked (ofAmount denom amount).toList := by
  rw [ofAmount]
  split
  · exact ⟨List.Pairwise.nil, fun c hc => absurd hc List.not_mem_nil⟩
  · rename_i hne
    refine ⟨List.pairwise_singleton _ _, ?_⟩
    intro c hc
    rw [List.mem_singleton.mp hc]
    change 0 < amount
    omega

theorem sumOf_ofAmount (denom : String) (amount : Int) (d : String) :
    sumOf (ofAmount denom amount).toList d = if d = denom then amount else 0 := by
  rw [ofAmount]
  split
  · rename_i hzero
    simp [sumOf, hzero]
  · simp [sumOf]

end TokenRegistry.Coins
