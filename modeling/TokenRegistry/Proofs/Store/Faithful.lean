import TokenRegistry.Proofs.Scripted
import TokenRegistry.Proofs.Store.Reading

/-!
# Faithful stores

A store is faithful if every call on it either fails without effect or does what it
does to the same records in memory. Stores in memory are faithful, tables are, damaged
or not, and so are stores that refuse calls by a script.
-/
namespace TokenRegistry

namespace Attempt

variable {ε κ κ' α : Type}

/-- On every state `x` fails and leaves the image, or does what `y` does to the image. -/
def Follows (image : κ → κ') (x : Attempt ε κ α) (y : Attempt ε κ' α) : Prop :=
  ∀ s, (∃ e, (x s).1 = .error e ∧ image (x s).2 = image s) ∨ y (image s) = ((x s).1, image (x s).2)

end Attempt

open Attempt

/-- A store seen as one in memory, which its calls follow. -/
structure Faithful (σ : Type) [Store σ] where
  image : σ → MemoryStore
  get (key : Bytes) : Follows image (Store.get key) (Store.get key)
  set (key value : Bytes) : Follows image (Store.set key value) (Store.set key value)
  delete (key : Bytes) : Follows image (Store.delete key) (Store.delete key)
  has (key : Bytes) : Follows image (Store.has key) (Store.has key)

namespace Table

theorem follows_write (action : String) (key : Bytes) (f : Records → Records) :
    Follows asMemory (fun t : Table => t.write action key (f t.rows.records))
      fun s => (.ok (), ⟨f s.records⟩) := by
  intro t
  simp only [write]
  split
  · exact .inr rfl
  · exact .inl ⟨_, rfl, rfl⟩

def faithful : Faithful Table where
  image := asMemory
  get key t := by
    cases hdamage : t.rows.damage with
    | none =>
      rw [(Table.reads hdamage).get]
      exact .inr rfl
    | some d =>
      have hget : Store.get key t = (.error (failure "fetch" key), t) := by
        simp only [Store.get, hdamage]
      rw [hget]
      exact .inl ⟨_, rfl, rfl⟩
  set key value := follows_write "store" key fun rs => rs.insert key value
  delete key := follows_write "delete" key fun rs => rs.erase key
  has key t := by
    cases hdamage : t.rows.damage with
    | none =>
      rw [(Table.reads hdamage).has]
      exact .inr rfl
    | some d =>
      have hhas : Store.has key t = (.error d.toStoreError, t) := by
        simp only [Store.has, hdamage]
      rw [hhas]
      exact .inl ⟨_, rfl, rfl⟩

end Table

namespace OpenStore

theorem follows_of_table {α : Type} {x : Attempt StoreError OpenStore α}
    {y : Attempt StoreError MemoryStore α} {z : Attempt StoreError Table α}
    (hmemory : ∀ s, x (.memory s) = onMemory y s) (htable : ∀ t, x (.table t) = onTable z t)
    (h : Follows Table.asMemory z y) : Follows asMemory x y := by
  intro s
  cases s with
  | memory s =>
    rw [hmemory]
    exact .inr rfl
  | table t =>
    rw [htable]
    exact h t

def faithful : Faithful OpenStore where
  image := asMemory
  get key := follows_of_table (fun _ => rfl) (fun _ => rfl) (Table.faithful.get key)
  set key value := follows_of_table (fun _ => rfl) (fun _ => rfl) (Table.faithful.set key value)
  delete key := follows_of_table (fun _ => rfl) (fun _ => rfl) (Table.faithful.delete key)
  has key := follows_of_table (fun _ => rfl) (fun _ => rfl) (Table.faithful.has key)

end OpenStore

namespace Scripted

theorem follows_call {ε κ κ' α : Type} {image : κ → κ'} {x : Attempt ε κ α} {y : Attempt ε κ' α}
    (h : Follows image x y) : Follows (fun s => image s.inner) (call x) y := by
  intro s
  cases hscript : s.script 0 with
  | some e =>
    rw [call_refused hscript]
    exact .inl ⟨e, rfl, rfl⟩
  | none =>
    rw [call_passed hscript]
    exact h s.inner

def faithful {σ : Type} [Store σ] (S : Faithful σ) : Faithful (Scripted StoreError σ) where
  image s := S.image s.inner
  get key := follows_call (S.get key)
  set key value := follows_call (S.set key value)
  delete key := follows_call (S.delete key)
  has key := follows_call (S.has key)

end Scripted

end TokenRegistry
