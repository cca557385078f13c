import TokenRegistry.Proofs.Store.Reading

/-!
# Both kinds of store are finite maps

A new store in memory and a new table give the same replies to the same calls, and
these are what a finite map from keys to values has to say.
-/
namespace TokenRegistry

inductive StoreCall
  | get (key : Bytes)
  | has (key : Bytes)
  | set (key value : Bytes)
  | delete (key : Bytes)
  | scan

inductive Reply
  | got (value : Except StoreError (Option Bytes))
  | told (present : Except StoreError Bool)
  | written (outcome : Except StoreError Unit)
  | scanned (items : List (Except StoreError Record))

section Calls

variable {σ : Type} [Store σ]

/-- The reply to a call and the store after it. A pass is made to its end. -/
def reply (s : σ) : StoreCall → Reply × σ
  | .get key => (.got (Store.get key s).1, (Store.get key s).2)
  | .has key => (.told (Store.has key s).1, (Store.has key s).2)
  | .set key value => (.written (Store.set key value s).1, (Store.set key value s).2)
  | .delete key => (.written (Store.delete key s).1, (Store.delete key s).2)
  | .scan =>
    (.scanned ((Store.scan s).map Prod.fst), (((Store.scan s).map Prod.snd).getLast?).getD s)

def replies : σ → List StoreCall → List Reply
  | _, [] => []
  | s, c :: cs => (reply s c).1 :: replies (reply s c).2 cs

theorem reply_scan {s : σ} {es : List Record} (h : Store.scan s = es.map fun r => (.ok r, s)) :
    reply s .scan = (.scanned (es.map .ok), s) := by
  have hstates : (((Store.scan s).map Prod.snd).getLast?).getD s = s := by
    rw [h, List.map_map, List.getLast?_map]
    cases es.getLast? with
    | none => rfl
    | some r => rfl
  have hitems : (Store.scan s).map Prod.fst = es.map .ok := by
    rw [h, List.map_map]
    rfl
  rw [reply, hstates, hitems]

end Calls

/-- What a finite map from keys to values replies to a call, and the map after it. -/
inductive MapReply (m : Bytes → Option Bytes) : StoreCall → Reply → (Bytes → Option Bytes) → Prop
  | get (key : Bytes) : MapReply m (.get key) (.got (.ok (m key))) m
  | has (key : Bytes) : MapReply m (.has key) (.told (.ok (m key).isSome)) m
  | set (key value : Bytes) :
      MapReply m (.set key value) (.written (.ok ())) fun k => if k = key then some value else m k
  | delete (key : Bytes) :
      MapReply m (.delete key) (.written (.ok ())) fun k => if k = key then none else m k
  | scan {es : List Record} (hascending : Ascending es)
      (hall : ∀ key value, (key, value) ∈ es ↔ m key = some value) :
      MapReply m .scan (.scanned (es.map .ok)) m

inductive MapReplies : (Bytes → Option Bytes) → List StoreCall → List Reply → Prop
  | nil (m : Bytes → Option Bytes) : MapReplies m [] []
  | cons {m m' : Bytes → Option Bytes} {c : StoreCall} {cs : List StoreCall} {r : Reply}
      {rs : List Reply} (hnow : MapReply m c r m') (hlater : MapReplies m' cs rs) :
      MapReplies m (c :: cs) (r :: rs)

theorem MemoryStore.mapReply (s : MemoryStore) (c : StoreCall) :
    MapReply s.records.get? c (reply s c).1 (reply s c).2.records.get? := by
  cases c with
  | get key => exact .get key
  | has key => exact .has key
  | set key value =>
    have hnext : (reply s (.set key value)).2.records.get? =
        fun k => if k = key then some value else s.records.get? k :=
      funext fun k => s.records.get?_insert key k value
    rw [hnext]
    exact .set key value
  | delete key =>
    have hnext : (reply s (.delete key)).2.records.get? =
        fun k => if k = key then none else s.records.get? k :=
      funext fun k => s.records.get?_erase key k
    rw [hnext]
    exact .delete key
  | scan =>
    rw [reply_scan s.scan_eq]
    exact .scan s.records.ascending fun key value => (s.records.get?_eq_some_iff key value).symm

theorem MemoryStore.mapReplies (s : MemoryStore) (cs : List StoreCall) :
    MapReplies s.records.get? cs (replies s cs) := by
  induction cs generalizing s with
  | nil => exact .nil _
  | cons c cs ih => exact .cons (s.mapReply c) (ih _)

namespace Table

theorem reply_asMemory {t : Table} (h : t.Working) (c : StoreCall) :
    (reply t.asMemory c).1 = (reply t c).1 ∧ (reply t.asMemory c).2 = (reply t c).2.asMemory ∧
      (reply t c).2.Working := by
  cases c with
  | get key =>
    obtain ⟨heq, hworking⟩ := simulated_get key t h
    simp only [reply, heq]
    exact ⟨trivial, trivial, hworking⟩
  | has key =>
    obtain ⟨heq, hworking⟩ := simulated_has key t h
    simp only [reply, heq]
    exact ⟨trivial, trivial, hworking⟩
  | set key value =>
    obtain ⟨heq, hworking⟩ := simulated_set key value t h
    simp only [reply, heq]
    exact ⟨trivial, trivial, hworking⟩
  | delete key =>
    obtain ⟨heq, hworking⟩ := simulated_delete key t h
    simp only [reply, heq]
    exact ⟨trivial, trivial, hworking⟩
  | scan =>
    rw [reply_scan t.asMemory.scan_eq, reply_scan (Table.reads h.1).scan]
    exact ⟨rfl, rfl, h⟩

theorem replies_asMemory {t : Table} (h : t.Working) (cs : List StoreCall) :
    replies t cs = replies t.asMemory cs := by
  induction cs generalizing t with
  | nil => rfl
  | cons c cs ih =>
    obtain ⟨hreply, hstore, hworking⟩ := reply_asMemory h c
    rw [replies, replies, hreply, hstore, ih hworking]

end Table

/-- New stores of both kinds reply alike to all calls, as a finite map that is empty at first. -/
theorem replies_of_new (path : String) (cs : List StoreCall) :
    replies (Table.mk path .empty false) cs = replies MemoryStore.empty cs ∧
      MapReplies (fun _ => none) cs (replies MemoryStore.empty cs) := by
  constructor
  · exact Table.replies_asMemory ⟨rfl, rfl⟩ cs
  · exact MemoryStore.empty.mapReplies cs

end TokenRegistry
