import TokenRegistry.Config
import TokenRegistry.Store.Disk
import TokenRegistry.Store.Memory

/-!
# The store of a backend

A configuration says where records are kept; opening that gives a store of either
kind. The other database is not built in.
-/
namespace TokenRegistry

inductive OpenStore
  | memory (s : MemoryStore)
  | table (t : Table)

namespace OpenStore

def onMemory {α : Type} (a : Attempt StoreError MemoryStore α) (s : MemoryStore) :
    Except StoreError α × OpenStore :=
  let (r, s) := a s
  (r, .memory s)

def onTable {α : Type} (a : Attempt StoreError Table α) (t : Table) :
    Except StoreError α × OpenStore :=
  let (r, t) := a t
  (r, .table t)

instance : Store OpenStore where
  get key
    | .memory s => onMemory (Store.get key) s
    | .table t => onTable (Store.get key) t
  set key value
    | .memory s => onMemory (Store.set key value) s
    | .table t => onTable (Store.set key value) t
  delete key
    | .memory s => onMemory (Store.delete key) s
    | .table t => onTable (Store.delete key) t
  has key
    | .memory s => onMemory (Store.has key) s
    | .table t => onTable (Store.has key) t
  scan
    | .memory s => (Store.scan s).map fun (item, s) => (item, .memory s)
    | .table t => (Store.scan t).map fun (item, t) => (item, .table t)

end OpenStore

def Backend.openStore (d : Disk) : Backend → Except StoreError OpenStore
  | .memory => .ok (.memory .empty)
  | .sqlite path => (Table.openAt d path).map .table
  | .rocksdb _ => .error (.other "built without the `rocksdb` feature")

end TokenRegistry
