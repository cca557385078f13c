import TokenRegistry.Json.Basic

/-!
# Outlines of values

An outline can be passed over if the text does not stop being JSON in it, and in the
outline of a value it does not. Holding that gives the value back if its containers are
not nested beyond the limit and its numbers have values.
-/
namespace TokenRegistry.Json

mutual
def depth : Json → Nat
  | .array items => depthItems items + 1
  | .object members => depthMembers members + 1
  | _ => 0

def depthItems : List Json → Nat
  | [] => 0
  | v :: vs => max v.depth (depthItems vs)

def depthMembers : List (String × Json) → Nat
  | [] => 0
  | (_, v) :: ms => max v.depth (depthMembers ms)
end

mutual
def numerals : Json → List Numeral
  | .number n => [n]
  | .array items => numeralsItems items
  | .object members => numeralsMembers members
  | _ => []

def numeralsItems : List Json → List Numeral
  | [] => []
  | v :: vs => v.numerals ++ numeralsItems vs

def numeralsMembers : List (String × Json) → List Numeral
  | [] => []
  | (_, v) :: ms => v.numerals ++ numeralsMembers ms
end

namespace Numeral

def HasValue (n : Numeral) : Prop := ∃ x, n.value = .ok x

instance (n : Numeral) : Decidable n.HasValue :=
  match h : n.value with
  | .ok x => isTrue ⟨x, h⟩
  | .error _ => isFalse fun ⟨_, hx⟩ => nomatch h.symm.trans hx

def coefficient (n : Numeral) : Nat := n.fraction.foldl (fun m d => 10 * m + d.val) n.whole

def scale (n : Numeral) : Int := n.exponent.getD 0 - n.fraction.length

def largestDouble : Nat := (2 * Magnitude.hidden - 1) * Nat.pow 2 971

/-- What is written is no further from zero than the largest double. -/
def InDoubleRange (n : Numeral) : Prop :=
  n.coefficient * Nat.pow 10 n.scale.toNat ≤ largestDouble * Nat.pow 10 (-n.scale).toNat

instance : DecidablePred InDoubleRange := fun _ => inferInstanceAs (Decidable (_ ≤ _))

end Numeral

namespace Outline

mutual
/-- The text does not stop being JSON here; literals may still have no text, and numbers no value. -/
def Whole : Outline → Prop
  | .array items => WholeItems items
  | .object members => WholeMembers members
  | .broken _ => False
  | _ => True

def WholeItems : List Outline → Prop
  | [] => True
  | o :: os => o.Whole ∧ WholeItems os

def WholeMembers : List (Except Flaw String × Outline) → Prop
  | [] => True
  | (_, o) :: ms => o.Whole ∧ WholeMembers ms
end

mutual
theorem skip_of_whole : (o : Outline) → o.Whole → o.skip = .ok ()
  | .null, _ => rfl
  | .bool _, _ => rfl
  | .number _, _ => rfl
  | .string _, _ => rfl
  | .array os, h => skipItems_of_whole os h
  | .object ms, h => skipMembers_of_whole ms h
  | .broken _, h => False.elim h

theorem skipItems_of_whole : (os : List Outline) → WholeItems os → skipItems os = .ok ()
  | [], _ => rfl
  | o :: os, h => by
    rw [skipItems, skip_of_whole o h.1]
    exact skipItems_of_whole os h.2

theorem skipMembers_of_whole : (ms : List (Except Flaw String × Outline)) → WholeMembers ms →
    skipMembers ms = .ok ()
  | [], _ => rfl
  | (_, o) :: ms, h => by
    rw [skipMembers, skip_of_whole o h.1]
    exact skipMembers_of_whole ms h.2
end

end Outline

mutual
theorem whole_outline : (v : Json) → v.outline.Whole
  | .null => trivial
  | .bool _ => trivial
  | .number _ => trivial
  | .string _ => trivial
  | .array vs => wholeItems_outline vs
  | .object ms => wholeMembers_outline ms

theorem wholeItems_outline : (vs : List Json) → Outline.WholeItems (outlineItems vs)
  | [] => trivial
  | v :: vs => ⟨whole_outline v, wholeItems_outline vs⟩

theorem wholeMembers_outline : (ms : List (String × Json)) →
    Outline.WholeMembers (outlineMembers ms)
  | [] => trivial
  | (_, v) :: ms => ⟨whole_outline v, wholeMembers_outline ms⟩
end

theorem skip_outline (v : Json) : v.outline.skip = .ok () :=
  Outline.skip_of_whole v.outline (whole_outline v)

mutual
theorem hold_outline : (v : Json) → (level : Nat) → level + v.depth ≤ Outline.depthLimit →
    (∀ n ∈ v.numerals, n.HasValue) → v.outline.hold level = .ok v
  | .null, _, _, _ => rfl
  | .bool _, _, _, _ => rfl
  | .number n, _, _, hn => by
    obtain ⟨x, hx⟩ := hn n (List.mem_singleton_self n)
    rw [outline, Outline.hold, hx]
    rfl
  | .string _, _, _, _ => rfl
  | .array vs, level, hlevel, hn => by
    rw [depth] at hlevel
    rw [outline, Outline.hold, if_pos (by omega),
      holdItems_outline vs (level + 1) (by omega) hn]
    rfl
  | .object ms, level, hlevel, hn => by
    rw [depth] at hlevel
    rw [outline, Outline.hold, if_pos (by omega),
      holdMembers_outline ms (level + 1) (by omega) hn]
    rfl

theorem holdItems_outline : (vs : List Json) → (level : Nat) →
    level + depthItems vs ≤ Outline.depthLimit → (∀ n ∈ numeralsItems vs, n.HasValue) →
    Outline.holdItems level (outlineItems vs) = .ok vs
  | [], _, _, _ => rfl
  | v :: vs, level, hlevel, hn => by
    rw [depthItems] at hlevel
    rw [numeralsItems] at hn
    rw [outlineItems, Outline.holdItems,
      hold_outline v level (by omega) fun n hmem => hn n (List.mem_append_left _ hmem),
      holdItems_outline vs level (by omega) fun n hmem => hn n (List.mem_append_right _ hmem)]
    rfl

theorem holdMembers_outline : (ms : List (String × Json)) → (level : Nat) →
    level + depthMembers ms ≤ Outline.depthLimit → (∀ n ∈ numeralsMembers ms, n.HasValue) →
    Outline.holdMembers level (outlineMembers ms) = .ok ms
  | [], _, _, _ => rfl
  | (k, v) :: ms, level, hlevel, hn => by
    rw [depthMembers] at hlevel
    rw [numeralsMembers] at hn
    have hheld := hold_outline v level (by omega) fun n hmem => hn n (List.mem_append_left _ hmem)
    have hmore := holdMembers_outline ms level (by omega) fun n hmem =>
      hn n (List.mem_append_right _ hmem)
    rw [outlineMembers, Outline.holdMembers, hheld, hmore]
    rfl
end

end TokenRegistry.Json
