import TokenRegistry.Proofs.Store.Paging

/-!
# Stores that can be read

Questions to a store in memory, and to a table that is not damaged, are answered from
its records and leave it as it is. It does not matter for that whether the table may
be written to.
-/
namespace TokenRegistry

/-- The store answers every question from the records and stays as it is. -/
structure Reads {σ : Type} [Store σ] (s : σ) (rs : Records) : Prop where
  get : ∀ key, Store.get key s = (.ok (rs.get? key), s)
  has : ∀ key, Store.has key s = (.ok (rs.contains key), s)
  scan : Store.scan s = rs.entries.map fun r => (.ok r, s)

theorem MemoryStore.reads (s : MemoryStore) : Reads s s.records :=
  ⟨fun _ => rfl, fun _ => rfl, s.scan_eq⟩

theorem Cursor.drain_congr {σ γ : Type} [Cursor σ γ] {s s' : σ}
    (h : ∀ c : γ, Cursor.next s c = Cursor.next s' c) (n : Nat) (c : γ) :
    Cursor.drain s n c = Cursor.drain s' n c := by
  induction n generalizing c with
  | zero => rfl
  | succ n ih =>
    rw [Cursor.drain, Cursor.drain, h]
    split
    · rfl
    · rw [ih]

theorem Table.reads {t : Table} (h : t.rows.damage = none) : Reads t t.rows.records := by
  refine ⟨?_, ?_, ?_⟩
  · intro key
    simp only [Store.get, h]
  · intro key
    simp only [Store.has, h]
  · have hsame := @Cursor.drain_congr _ _ _ t { t with readOnly := false } fun _ => rfl
    have hdrain := Table.pagedCursor.drain_start (s := { t with readOnly := false }) ⟨h, rfl⟩
    rw [← hsame] at hdrain
    change (Cursor.drain t (t.rows.records.size + 1) (Cursor.start Table)).map _ = _
    change Cursor.drain t (t.rows.records.size + 1) (Cursor.start Table) = _ at hdrain
    rw [hdrain, List.map_map]
    rfl

theorem Table.damage_write (t : Table) (action : String) (key : Bytes) (rs : Records) :
    (t.write action key rs).2.rows.damage = t.rows.damage := by
  rw [write]
  split
  · rfl
  · rfl

namespace OpenStore

def Readable : OpenStore → Prop
  | .memory _ => True
  | .table t => t.rows.damage = none

theorem Working.readable {s : OpenStore} (h : s.Working) : s.Readable := by
  cases s with
  | memory s => trivial
  | table t => exact h.1

theorem Readable.reads {s : OpenStore} (h : s.Readable) : Reads s s.asMemory.records := by
  cases s with
  | memory s =>
    refine ⟨fun _ => rfl, fun _ => rfl, ?_⟩
    change (Store.scan s).map _ = _
    rw [s.reads.scan, List.map_map]
    rfl
  | table t =>
    have ht := Table.reads h
    refine ⟨?_, ?_, ?_⟩
    · intro key
      change onTable (Store.get key) t = _
      rw [onTable, ht.get]
      rfl
    · intro key
      change onTable (Store.has key) t = _
      rw [onTable, ht.has]
      rfl
    · change (Store.scan t).map _ = _
      rw [ht.scan, List.map_map]
      rfl

def readableImage : StoreImage OpenStore OpenStore where
  image := id
  Ready := Readable
  get key s hs := by
    rw [id, hs.reads.get]
    exact ⟨rfl, hs⟩
  has key s hs := by
    rw [id, hs.reads.has]
    exact ⟨rfl, hs⟩
  set key value s hs := by
    refine ⟨rfl, ?_⟩
    cases s with
    | memory s => trivial
    | table t => exact (Table.damage_write t "store" key _).trans hs
  delete key s hs := by
    refine ⟨rfl, ?_⟩
    cases s with
    | memory s => trivial
    | table t => exact (Table.damage_write t "delete" key _).trans hs

end OpenStore

end TokenRegistry
