import TokenRegistry.Store

/-!
# The store in a database table

Records are the rows of a table in a database file. A table may be open for
reading only, and it may be damaged, so that no statement on it succeeds. A cursor
fetches a page of rows when it needs one and serves the rows from memory; a page
that is not full is the last.
-/
namespace TokenRegistry

inductive Damage
  | noTable
  | noColumn
  deriving DecidableEq, Repr

def Damage.message : Damage → String
  | .noTable => "no such table: records"
  | .noColumn => "no such column: key"

def Damage.toStoreError (d : Damage) : StoreError :=
  .database s!"error returned from database: (code: 1) {d.message}"

structure Rows where
  records : Records
  damage : Option Damage
  deriving DecidableEq

def Rows.empty : Rows := ⟨∅, none⟩

structure Table where
  path : String
  rows : Rows
  readOnly : Bool
  deriving DecidableEq

namespace Table

def pageSize : Nat := 128

def failure (action : String) (key : Bytes) : StoreError :=
  .context s!"Failed to {action} record {Text.Quoted.string (Text.Utf8.lossy key)}"

def write (t : Table) (action : String) (key : Bytes) (records : Records) :
    Except StoreError Unit × Table :=
  if t.rows.damage.isNone && !t.readOnly then
    (.ok (), { t with rows := { t.rows with records := records } })
  else (.error (failure action key), t)

/-- A cursor: the last key fetched, the rows fetched and not yet served, and whether there are no
more to fetch. -/
structure Place where
  last : Option Bytes
  buffer : List Record
  exhausted : Bool
  deriving DecidableEq, Repr

def serve (p : Place) : Option (Except StoreError Record) × Place :=
  match p.buffer with
  | [] => (none, p)
  | r :: rest => (some (.ok r), { p with buffer := rest })

def fetch (t : Table) (p : Place) : Place :=
  let page := (t.rows.records.following p.last).take pageSize
  ⟨(page.getLast?.map (·.1)).or p.last, page, page.length < pageSize⟩

def step (t : Table) (p : Place) : Option (Except StoreError Record) × Place :=
  if p.buffer.isEmpty && !p.exhausted then
    match t.rows.damage with
    | none => serve (t.fetch p)
    | some d => (some (.error d.toStoreError), { p with exhausted := true })
  else serve p

instance : Cursor Table Place := ⟨⟨none, [], false⟩, step⟩

instance : Store Table where
  get key t :=
    match t.rows.damage with
    | none => (.ok (t.rows.records.get? key), t)
    | some _ => (.error (failure "fetch" key), t)
  set key value t := t.write "store" key (t.rows.records.insert key value)
  delete key t := t.write "delete" key (t.rows.records.erase key)
  has key t :=
    match t.rows.damage with
    | none => (.ok (t.rows.records.contains key), t)
    | some d => (.error d.toStoreError, t)
  scan t := (Cursor.drain t (t.rows.records.size + 1) (Cursor.start Table)).map fun item => (item, t)

end Table

end TokenRegistry
