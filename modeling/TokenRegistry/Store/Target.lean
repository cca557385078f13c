import TokenRegistry.Store.Location

/-!
# What a connection opens

A database is opened by its name, under which it is found as a file or in memory,
and through a driver. A name may be written as a `file:` address, in which percent
escapes are read and which may have parameters of its own; these can narrow the
access that was asked for, but not widen it.

A switch among them is on for a word of assent in any case, or for a number. A number
is read from the start of the text, in decimal or after `0x` in hexadecimal; one of
more than 31 bits counts as zero. Of a number only the last eight bits matter.
-/
namespace TokenRegistry

namespace Text.Switch

def digits (base : Nat) : Bytes → List Nat
  | [] => []
  | b :: bs =>
    match Hex.digitValue? b with
    | none => []
    | some n => if n < base then n :: digits base bs else []

def value (base : Nat) (bs : Bytes) : Nat :=
  let n := (digits base bs).foldl (fun n digit => base * n + digit) 0
  if n < 2147483648 then n else 0

def number : Bytes → Nat
  | 0x30 :: x :: bs =>
    if (x = 0x78 ∨ x = 0x58) ∧ digits 16 bs ≠ [] then value 16 bs else value 10 (0x30 :: x :: bs)
  | bs => value 10 bs

def isOn (s : String) : Bool :=
  let bs := Utf8.ofString s
  if digits 10 bs ≠ [] then number bs % 256 ≠ 0
  else String.ofList (s.toList.map Char.toLower) ∈ ["on", "yes", "true"]

end Text.Switch

inductive Access
  | nothing
  | read
  | write
  | create
  deriving DecidableEq, Repr

def Access.rank : Access → Nat
  | .nothing => 0
  | .read => 1
  | .write => 2
  | .create => 3

structure Target where
  name : Bytes
  /-- Whether the name was read from an address. -/
  addressed : Bool
  driver : String
  access : Access
  inMemory : Bool
  shared : Bool
  immutable : Bool
  deriving DecidableEq, Repr

namespace Target

/-- The drivers for files, the first being the usual one, and the one for named databases in
memory. -/
def drivers : List String := ["unix", "unix-none", "unix-dotfile", "unix-excl", "memdb"]

def part (cs : List Char) : Bytes :=
  (Text.Percent.decodeFrom 0 (Text.Utf8.encode cs)).takeWhile (· ≠ 0)

def parameters (query : List Char) : List (String × String) :=
  (Text.Percent.pairs (fun cs => Text.Utf8.lossy (part cs)) query).filter fun p => p.1 ≠ ""

/-- The rest of an address after its host, which can only be this machine. -/
def afterHost? : List Char → Option (List Char)
  | '/' :: '/' :: cs =>
    let host := cs.takeWhile (· ≠ '/')
    if host = [] ∨ host = "localhost".toList then some (cs.dropWhile (· ≠ '/')) else none
  | cs => some cs

def narrow (t : Target) (a : Access) : Option Target :=
  if t.inMemory ∨ a.rank ≤ t.access.rank then some { t with access := a, inMemory := false }
  else none

def apply (t : Target) : String × String → Option Target
  | ("mode", "ro") => t.narrow .read
  | ("mode", "rw") => t.narrow .write
  | ("mode", "rwc") => t.narrow .create
  | ("mode", "memory") => some { t with access := .nothing, inMemory := true }
  | ("mode", _) => none
  | ("cache", "private") => some { t with shared := false }
  | ("cache", "shared") => some { t with shared := true }
  | ("cache", _) => none
  | ("vfs", driver) => some { t with driver := driver }
  | _ => some t

/-- Takes the parameters of an address into account; of several switches the first counts. -/
def withParameters (t : Target) (ps : List (String × String)) : Option Target := do
  let t ← ps.foldlM apply t
  return { t with immutable := ((ps.lookup "immutable").map Text.Switch.isOn).getD false }

def readName? (t : Target) (name : List Char) : Option Target :=
  match Address.afterLabel? "file:".toList name with
  | none => some t
  | some cs => do
    let cs ← afterHost? cs
    let (name, query) := Text.Percent.cutAt '?' (cs.takeWhile (· ≠ '#'))
    { t with name := part name, addressed := true }.withParameters (parameters (query.getD []))

/-- What a location leads to. Where there is something to say beside the name, an address is made
that says it, and the name ends at a zero byte; otherwise there can be none in it. -/
def ofLocation? (l : Location) : Option Target :=
  let usual := drivers.headD ""
  let access := if l.readOnly then Access.read else .create
  let name := Text.Utf8.ofString l.name
  let t : Target := ⟨name, false, usual, access, l.inMemory, l.shared, false⟩
  let switches := if l.immutable then ["immutable=true"] else []
  let query := ("&".intercalate (switches ++ (l.driver.map ("vfs=" ++ ·)).toList)).toList
  if '\x00' ∈ query then none
  else if query ≠ [] then
    { t with name := name.takeWhile (· ≠ 0), addressed := true }.withParameters
      (parameters (query.takeWhile (· ≠ '#')))
  else if 0 ∈ name then none
  else t.readName? l.name.toList

end Target

end TokenRegistry
