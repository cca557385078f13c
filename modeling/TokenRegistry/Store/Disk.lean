import TokenRegistry.Store.Table
import TokenRegistry.Store.Target

/-!
# Opening databases

A database is looked for on a disk. It may be new if its directory is there, and
its table is set up if it may be written to. A database in memory that belongs to
one connection is no use to the others, which do not find its table.
-/
namespace TokenRegistry

/-- What is found where files are kept. No file can be made in a closed directory. Files that are
not databases have no rows. -/
structure Disk where
  current : String
  directories : List String
  closed : List String
  files : List (String × Option Rows)

inductive OpenFault
  | noLocation
  | noConnection
  | noSchema
  deriving DecidableEq, Repr

def OpenFault.toStoreError (path : String) : OpenFault → StoreError
  | .noLocation => .context s!"Invalid database URL: sqlite:{path}"
  | .noConnection => .context s!"Failed to connect to database at {Text.Quoted.string path}"
  | .noSchema => .context "Failed to initialize database schema"

namespace Disk

/-- The names of directories down to a file, the last first. -/
abbrev Place := List Bytes

def enter (p : Place) (step : Bytes) : Place :=
  if step = [] ∨ step = [0x2E] then p else if step = [0x2E, 0x2E] then p.tail else step :: p

def walk (p : Place) (path : Bytes) : Place := (path.splitOn 0x2F).foldl enter p

def place (d : Disk) (path : Bytes) : Place :=
  if path.head? = some 0x2F then walk [] path else walk (walk [] (Text.Utf8.ofString d.current)) path

def isPlace (d : Disk) (p : Place) (path : String) : Bool := d.place (Text.Utf8.ofString path) = p

def isDirectory (d : Disk) (p : Place) : Bool :=
  p = [] || d.directories.any (d.isPlace p) || d.closed.any (d.isPlace p)

def file? (d : Disk) (p : Place) : Option (Option Rows) :=
  (d.files.find? fun f => d.isPlace p f.1).map (·.2)

def hasRoom (d : Disk) (p : Place) : Bool := d.isDirectory p && !d.closed.any (d.isPlace p)

def fits (p : Place) : Bool :=
  p.all (fun step => step.length ≤ 255) && p.foldr (fun step n => step.length + 1 + n) 0 ≤ 504

def longestName : Nat := 247

def openFile (d : Disk) (t : Target) : Except OpenFault (Rows × Bool) :=
  match d.place t.name with
  | [] => .error .noConnection
  | name :: dir =>
    if d.isDirectory (name :: dir) ∨ !fits (name :: dir) then .error .noConnection
    else
      match d.file? (name :: dir) with
      | some (some rows) => .ok (rows, t.access = .read || t.immutable)
      | some none => .error .noSchema
      | none =>
        if t.access ≠ .create ∨ !d.hasRoom dir then .error .noConnection
        else if t.immutable ∨ longestName < name.length then .error .noSchema
        else .ok (.empty, false)

def openMemory (readOnly common : Bool) : Except OpenFault (Rows × Bool) :=
  if readOnly then .error .noSchema
  else .ok (if common then .empty else { Rows.empty with damage := some .noTable }, false)

/-- A name that the driver for databases in memory takes for one that all connections know. -/
def isCommonName : Bytes → Bool
  | mark :: _ :: _ => mark = 0x2F || mark = 0x5C
  | _ => false

def longestMemoryName : Nat := 1016

def openTarget (d : Disk) (t : Target) : Except OpenFault (Rows × Bool) :=
  if t.driver ∉ Target.drivers then .error .noConnection
  else if t.inMemory ∨ t.name = [] ∨ t.name = Text.Utf8.ofString ":memory:" then
    openMemory (t.access = .read) (t.addressed && t.shared && t.name ≠ [])
  else if t.driver = "memdb" then
    if longestMemoryName < t.name.length then .error .noConnection
    else openMemory (t.access = .read || t.immutable) (t.shared || isCommonName t.name)
  else d.openFile t

def openPath (d : Disk) (path : String) : Except OpenFault (Rows × Bool) :=
  match Location.ofPath? path with
  | none => .error .noLocation
  | some l =>
    match Target.ofLocation? l with
    | none => .error .noConnection
    | some t => d.openTarget t

end Disk

def Table.openAt (d : Disk) (path : String) : Except StoreError Table :=
  match d.openPath path with
  | .error e => .error (e.toStoreError path)
  | .ok (rows, readOnly) => .ok ⟨path, rows, readOnly⟩

end TokenRegistry
