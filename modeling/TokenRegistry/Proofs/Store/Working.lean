import TokenRegistry.Proofs.Registry.Simulation
import TokenRegistry.Store.Backend

/-!
# Working stores

A store works if it is in memory or if its table is sound and open for writing. To
commands a working store is a store in memory with the same records.
-/
namespace TokenRegistry

open Attempt

namespace Table

def Working (t : Table) : Prop := t.rows.damage = none ∧ t.readOnly = false

def asMemory (t : Table) : MemoryStore := ⟨t.rows.records⟩

theorem simulated_get (key : Bytes) :
    Simulated asMemory Working (Store.get key) (Store.get key) := by
  intro t ht
  have hget : Store.get key t = (.ok (t.rows.records.get? key), t) := by
    simp only [Store.get, ht.1]
  rw [hget]
  exact ⟨rfl, ht⟩

theorem simulated_has (key : Bytes) :
    Simulated asMemory Working (Store.has key) (Store.has key) := by
  intro t ht
  have hhas : Store.has key t = (.ok (t.rows.records.contains key), t) := by
    simp only [Store.has, ht.1]
  rw [hhas]
  exact ⟨rfl, ht⟩

theorem write_of_working {t : Table} (h : t.Working) (action : String) (key : Bytes)
    (records : Records) :
    t.write action key records =
      (.ok (), { t with rows := { t.rows with records := records } }) := by
  obtain ⟨hdamage, hreadOnly⟩ := h
  rw [write, hdamage, hreadOnly]
  rfl

theorem simulated_set (key value : Bytes) :
    Simulated asMemory Working (Store.set key value) (Store.set key value) := by
  intro t ht
  have hset : Store.set key value t = (.ok (), _) := write_of_working ht "store" key _
  rw [hset]
  exact ⟨rfl, ht⟩

theorem simulated_delete (key : Bytes) :
    Simulated asMemory Working (Store.delete key) (Store.delete key) := by
  intro t ht
  have hdelete : Store.delete key t = (.ok (), _) := write_of_working ht "delete" key _
  rw [hdelete]
  exact ⟨rfl, ht⟩

end Table

namespace OpenStore

def Working : OpenStore → Prop
  | .memory _ => True
  | .table t => t.Working

def asMemory : OpenStore → MemoryStore
  | .memory s => s
  | .table t => t.asMemory

theorem simulated_of_table {α : Type} {x : Attempt StoreError OpenStore α}
    {y : Attempt StoreError MemoryStore α} {z : Attempt StoreError Table α}
    (hmemory : ∀ s, x (.memory s) = onMemory y s) (htable : ∀ t, x (.table t) = onTable z t)
    (h : Simulated Table.asMemory Table.Working z y) : Simulated asMemory Working x y := by
  intro s hs
  cases s with
  | memory s =>
    rw [hmemory]
    exact ⟨rfl, trivial⟩
  | table t =>
    rw [htable]
    exact h t hs

def memoryImage : StoreImage OpenStore MemoryStore where
  image := asMemory
  Ready := Working
  get key := simulated_of_table (fun _ => rfl) (fun _ => rfl) (Table.simulated_get key)
  set key value := simulated_of_table (fun _ => rfl) (fun _ => rfl) (Table.simulated_set key value)
  delete key := simulated_of_table (fun _ => rfl) (fun _ => rfl) (Table.simulated_delete key)
  has key := simulated_of_table (fun _ => rfl) (fun _ => rfl) (Table.simulated_has key)

end OpenStore

end TokenRegistry
