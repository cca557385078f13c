import TokenRegistry.Store

/-!
# The store in memory

Nothing fails. A cursor looks up the next key after its last at each step, and
once it has found none it is done for good.
-/
namespace TokenRegistry

structure MemoryStore where
  records : Records
  deriving DecidableEq

namespace MemoryStore

def empty : MemoryStore := ⟨∅⟩

instance : Inhabited MemoryStore := ⟨empty⟩

def size (s : MemoryStore) : Nat := s.records.size

structure Place where
  last : Option Bytes
  done : Bool
  deriving DecidableEq, Repr

def step (s : MemoryStore) (p : Place) : Option (Except StoreError Record) × Place :=
  if p.done then (none, p)
  else
    match s.records.following p.last with
    | [] => (none, { p with done := true })
    | r :: _ => (some (.ok r), { p with last := some r.1 })

instance : Cursor MemoryStore Place := ⟨⟨none, false⟩, step⟩

instance : Store MemoryStore where
  get key s := (.ok (s.records.get? key), s)
  set key value s := (.ok (), ⟨s.records.insert key value⟩)
  delete key s := (.ok (), ⟨s.records.erase key⟩)
  has key s := (.ok (s.records.contains key), s)
  scan s := (Cursor.drain s (s.size + 1) (Cursor.start MemoryStore)).map fun item => (item, s)

theorem drain_eq (s : MemoryStore) (last : Option Bytes) (n : Nat)
    (h : (s.records.following last).length < n) :
    Cursor.drain s n (⟨last, false⟩ : Place) = (s.records.following last).map .ok := by
  induction n generalizing last with
  | zero => exact absurd h (Nat.not_lt_zero _)
  | succ n ih =>
    cases hf : s.records.following last with
    | nil => simp [Cursor.drain, Cursor.next, step, hf]
    | cons r rest =>
      have hrest := s.records.following_of_following hf
      have hn : (s.records.following (some r.1)).length < n := by
        rw [hrest]
        rw [hf] at h
        exact Nat.lt_of_succ_lt_succ h
      have := ih (some r.1) hn
      rw [hrest] at this
      simp [Cursor.drain, Cursor.next, step, hf, this]

theorem scan_eq (s : MemoryStore) :
    Store.scan s = s.records.entries.map fun r => (.ok r, s) := by
  have h := drain_eq s none (s.size + 1) (Nat.lt_succ_self _)
  simp only [Store.scan]
  change (Cursor.drain s (s.size + 1) (⟨none, false⟩ : Place)).map _ = _
  rw [h, List.map_map]
  rfl

end MemoryStore

end TokenRegistry
