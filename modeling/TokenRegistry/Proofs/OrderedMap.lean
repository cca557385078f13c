import TokenRegistry.OrderedMap
import Mathlib.Tactic.Common

/-!
# Maps with an entry put in

An entry put into a map changes the sum of a quantity over its entries by what the
new value has more than the old one. Taken out again, a new entry leaves no trace.
-/
namespace TokenRegistry.OrderedMap

variable {κ ν : Type}

def sumOver (f : ν → Int) (es : List (κ × ν)) : Int := es.foldr (fun e n => f e.2 + n) 0

theorem sumOver_cons (f : ν → Int) (e : κ × ν) (es : List (κ × ν)) :
    sumOver f (e :: es) = f e.2 + sumOver f es := rfl

theorem sumOver_nonneg {f : ν → Int} {es : List (κ × ν)} (h : ∀ e ∈ es, 0 ≤ f e.2) :
    0 ≤ sumOver f es := by
  induction es with
  | nil => exact Int.le_refl 0
  | cons e es ih =>
    have hhead := h e List.mem_cons_self
    have htail := ih fun e' he => h e' (List.mem_cons_of_mem _ he)
    rw [sumOver_cons]
    omega

theorem keys_nodup [LT κ] [LE κ] [Std.LawfulOrderLT κ] {es : List (κ × ν)}
    (h : Ascending es) : (es.map Prod.fst).Nodup := by
  apply List.pairwise_map.mpr
  refine h.imp fun {e e'} hlt heq => ?_
  rw [heq] at hlt
  exact Std.lt_irrefl hlt

variable [LT κ] [DecidableEq κ]

theorem get?_eq_none_of_contains {m : OrderedMap κ ν} {k : κ} (h : m.contains k = false) :
    m.get? k = none := by
  rw [contains] at h
  exact Option.isNone_iff_eq_none.mp (Option.isSome_eq_false_iff.mp h)

variable [LE κ] [Std.LawfulOrderLT κ]

theorem mem_keys_iff {m : OrderedMap κ ν} {k : κ} : k ∈ m.keys ↔ ∃ v, m.get? k = some v := by
  simp only [keys, List.mem_map, Prod.exists, exists_and_right, exists_eq_right,
    get?_eq_some_iff]

variable [Std.IsLinearOrder κ] [DecidableLT κ]

theorem erase_insert (m : OrderedMap κ ν) {k : κ} (h : m.get? k = none) (v : ν) :
    (m.insert k v).erase k = m := by
  apply ext_get?
  intro k'
  rw [get?_erase, get?_insert]
  split
  · rename_i heq
    rw [heq, h]
  · rfl

theorem sumOver_put (f : ν → Int) (k : κ) (v : ν) {es : List (κ × ν)} (h : Ascending es) :
    sumOver f (put k v es) = sumOver f es - ((lookup k es).map f).getD 0 + f v := by
  induction es with
  | nil =>
    simp only [put, lookup, sumOver_cons, Option.map_none, Option.getD_none]
    omega
  | cons e es ih =>
    obtain ⟨k', v'⟩ := e
    obtain ⟨hall, htail⟩ := List.pairwise_cons.mp h
    rw [put]
    split
    · rename_i hlt
      rw [lookup_eq_none_of_lt_head h hlt]
      simp only [sumOver_cons, Option.map_none, Option.getD_none]
      omega
    · split
      · rename_i heq
        simp only [lookup, if_pos heq, sumOver_cons, Option.map_some, Option.getD_some]
        omega
      · rename_i hne
        have hrest := ih htail
        simp only [lookup, if_neg hne, sumOver_cons]
        omega

theorem sumOver_insert (f : ν → Int) (m : OrderedMap κ ν) (k : κ) (v : ν) :
    sumOver f (m.insert k v).entries =
      sumOver f m.entries - ((m.get? k).map f).getD 0 + f v :=
  sumOver_put f k v m.ascending

end TokenRegistry.OrderedMap
