import TokenRegistry.Json.Printer
import TokenRegistry.Proofs.Json.RoundTrip

/-!
# Values with sorted keys

Sorting the keys of a value leaves the members of every object what they are and puts
them in ascending order, strictly if no object has a key twice. A record reads back
from its sorted members as it does from those in order of its layout.
-/
namespace TokenRegistry.Json

mutual
def KeysAscending : Json → Prop
  | .array items => KeysAscendingItems items
  | .object members => (members.map Prod.fst).Pairwise (· < ·) ∧ KeysAscendingMembers members
  | _ => True

def KeysAscendingItems : List Json → Prop
  | [] => True
  | v :: vs => v.KeysAscending ∧ KeysAscendingItems vs

def KeysAscendingMembers : List (String × Json) → Prop
  | [] => True
  | (_, v) :: ms => v.KeysAscending ∧ KeysAscendingMembers ms
end

mutual
def KeysDistinct : Json → Prop
  | .array items => KeysDistinctItems items
  | .object members => (members.map Prod.fst).Nodup ∧ KeysDistinctMembers members
  | _ => True

def KeysDistinctItems : List Json → Prop
  | [] => True
  | v :: vs => v.KeysDistinct ∧ KeysDistinctItems vs

def KeysDistinctMembers : List (String × Json) → Prop
  | [] => True
  | (_, v) :: ms => v.KeysDistinct ∧ KeysDistinctMembers ms
end

theorem insertMember_perm (m : String × Json) (ms : List (String × Json)) :
    (insertMember m ms).Perm (m :: ms) := by
  induction ms with
  | nil => exact .refl _
  | cons m' ms ih =>
    rw [insertMember]
    split
    · exact (ih.cons m').trans (.swap m m' ms)
    · exact .refl _

theorem sortKeysMembers_perm (ms : List (String × Json)) :
    (sortKeysMembers ms).Perm (ms.map fun m => (m.1, m.2.sortKeys)) := by
  induction ms with
  | nil => exact .refl _
  | cons m ms ih => exact (insertMember_perm _ _).trans (ih.cons _)

theorem ascending_insertMember {m : String × Json} {ms : List (String × Json)}
    (h : (ms.map Prod.fst).Pairwise (· < ·)) (hnew : m.1 ∉ ms.map Prod.fst) :
    ((insertMember m ms).map Prod.fst).Pairwise (· < ·) := by
  induction ms with
  | nil => exact List.pairwise_singleton _ _
  | cons m' ms ih =>
    rw [List.map_cons, List.mem_cons, not_or] at hnew
    obtain ⟨hfirst, hrest⟩ := List.pairwise_cons.mp h
    rw [insertMember]
    split
    · rename_i hlt
      refine List.pairwise_cons.mpr ⟨?_, ih hrest hnew.2⟩
      intro key hkey
      have hmem := ((insertMember_perm m ms).map Prod.fst).mem_iff.mp hkey
      rcases List.mem_cons.mp hmem with rfl | hmem
      · exact hlt
      · exact hfirst key hmem
    · rename_i hge
      have hlt : m.1 < m'.1 := Std.lt_of_le_of_ne (Std.not_lt.mp hge) hnew.1
      refine List.pairwise_cons.mpr ⟨?_, h⟩
      intro key hkey
      rcases List.mem_cons.mp hkey with rfl | hkey
      · exact hlt
      · exact Std.lt_trans hlt (hfirst key hkey)

theorem ascending_sortKeysMembers {ms : List (String × Json)} (h : (ms.map Prod.fst).Nodup) :
    ((sortKeysMembers ms).map Prod.fst).Pairwise (· < ·) := by
  induction ms with
  | nil => exact .nil
  | cons m ms ih =>
    obtain ⟨hnew, hrest⟩ := List.nodup_cons.mp h
    apply ascending_insertMember (ih hrest)
    rw [((sortKeysMembers_perm ms).map Prod.fst).mem_iff, List.map_map]
    exact hnew

theorem keysAscendingMembers_iff (ms : List (String × Json)) :
    KeysAscendingMembers ms ↔ ∀ m ∈ ms, m.2.KeysAscending := by
  induction ms with
  | nil => exact ⟨fun _ => nofun, fun _ => trivial⟩
  | cons m ms ih => rw [KeysAscendingMembers, ih, List.forall_mem_cons]

mutual
theorem keysAscending_sortKeys : (v : Json) → v.KeysDistinct → v.sortKeys.KeysAscending
  | .null, _ => trivial
  | .bool _, _ => trivial
  | .number _, _ => trivial
  | .string _, _ => trivial
  | .array vs, h => keysAscendingItems_sortKeys vs h
  | .object ms, h => ⟨ascending_sortKeysMembers h.1, keysAscendingMembers_sortKeys ms h.2⟩

theorem keysAscendingItems_sortKeys : (vs : List Json) → KeysDistinctItems vs →
    KeysAscendingItems (sortKeysItems vs)
  | [], _ => trivial
  | v :: vs, h => ⟨keysAscending_sortKeys v h.1, keysAscendingItems_sortKeys vs h.2⟩

theorem keysAscendingMembers_sortKeys : (ms : List (String × Json)) → KeysDistinctMembers ms →
    KeysAscendingMembers (sortKeysMembers ms)
  | [], _ => trivial
  | (k, v) :: ms, h => by
    have hrest := keysAscendingMembers_sortKeys ms h.2
    rw [keysAscendingMembers_iff] at hrest ⊢
    intro m hm
    rcases List.mem_cons.mp ((insertMember_perm _ _).mem_iff.mp hm) with rfl | hm
    · exact keysAscending_sortKeys v h.1
    · exact hrest m hm
end

namespace Layout

theorem read_sortKeys_of_lists {α : Type} {l : Layout α} {a : α} {ms : List (String × Json)}
    (h : Lists l a ms) (hflat : ∀ m ∈ ms, m.2.sortKeys = m.2) (name : String) (s : Setting) :
    l.read name s (Json.object ms).sortKeys.outline = .ok a := by
  have hsame : (ms.map fun m => (m.1, m.2.sortKeys)) = ms := by
    conv_rhs => rw [← List.map_id ms]
    exact List.map_congr_left fun m hm => by rw [hflat m hm, id]
  have hperm := sortKeysMembers_perm ms
  rw [hsame] at hperm
  exact read_of_perm h hperm name s

end Layout

end TokenRegistry.Json
