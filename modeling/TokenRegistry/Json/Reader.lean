import TokenRegistry.Amount
import TokenRegistry.Json.Scanner
import TokenRegistry.Text.Quoted

/-!
# Reading values of known shape

A reader takes an outline to a value of some type and reports the first problem in
the order of the text. What is read is either a text, a value, or a value held back
until its tag was known; the three differ in what they say of an array with too
many items, and a text stops there being JSON. A record is an object with its
fields in any order, other members being passed over, or an array of its fields in
the order of its layout.
-/
namespace TokenRegistry.Json

inductive Source
  | text
  | value
  | held
  deriving DecidableEq, Repr

structure Setting where
  source : Source
  depth : Nat
  deriving DecidableEq, Repr

def Setting.inner (s : Setting) : Setting := { s with depth := s.depth + 1 }

inductive Found
  | null
  | bool (b : Bool)
  | number (n : Number)
  | string (s : String)
  | sequence
  | map
  deriving DecidableEq, Repr

def Found.message : Found → String
  | .null => "null"
  | .bool b => s!"boolean `{b}`"
  | .number (.whole n) => s!"integer `{n}`"
  | .number (.double x) => s!"floating point `{x.text}`"
  | .string s => s!"string {Text.Quoted.string s}"
  | .sequence => "sequence"
  | .map => "map"

inductive Misfit
  | missingField (name : String)
  | duplicateField (name : String)
  | wrongType (found : Found) (expected : String)
  | wrongValue (found : Found) (expected : String)
  | wrongLength (length : Nat) (expected : String)
  | unknownVariant (name : String) (variants : List String)
  | amount (e : Amount.Invalid)
  | hex (e : Text.Hex.Fault)
  deriving DecidableEq, Repr

def ticked (s : String) : String := s!"`{s}`"

def Misfit.message : Misfit → String
  | .missingField name => s!"missing field `{name}`"
  | .duplicateField name => s!"duplicate field `{name}`"
  | .wrongType found expected => s!"invalid type: {found.message}, expected {expected}"
  | .wrongValue found expected => s!"invalid value: {found.message}, expected {expected}"
  | .wrongLength length expected => s!"invalid length {length}, expected {expected}"
  | .unknownVariant name variants =>
    s!"unknown variant `{name}`, expected one of " ++ ", ".intercalate (variants.map ticked)
  | .amount e => e.message
  | .hex e => e.message

inductive ReadError
  | flaw (f : Flaw)
  | misfit (m : Misfit)
  deriving DecidableEq, Repr

def ReadError.message : ReadError → String
  | .flaw f => f.message
  | .misfit m => m.message

abbrev Reader (α : Type) := Setting → Outline → Except ReadError α

def liftFlaw {α : Type} (r : Except Flaw α) : Except ReadError α := r.mapError .flaw

def refuse {α : Type} (m : Misfit) : Except ReadError α := .error (.misfit m)

def unexpected {α : Type} (expected : String) : Outline → Except ReadError α
  | .null => refuse (.wrongType .null expected)
  | .bool b => refuse (.wrongType (.bool b) expected)
  | .number n => do
    let n ← liftFlaw n.value
    refuse (.wrongType (.number n) expected)
  | .string s => do
    let s ← liftFlaw s
    refuse (.wrongType (.string s) expected)
  | .array _ => refuse (.wrongType .sequence expected)
  | .object _ => refuse (.wrongType .map expected)
  | .broken b => .error (.flaw b.read)

def mapRead {α β : Type} (f : α → β) (read : Reader α) : Reader β := fun s o => (read s o).map f

def readString (expected : String) : Reader String := fun _ o =>
  match o with
  | .string s => liftFlaw s
  | o => unexpected expected o

def readText : Reader String := readString "a string"

def readAmount : Reader Int := fun s o => do
  let raw ← readText s o
  (Amount.parse raw).mapError fun e => .misfit (.amount e)

def readHex : Reader Bytes := fun s o => do
  let raw ← readString "a hex encoded string" s o
  (Text.Hex.ofText raw).mapError fun e => .misfit (.hex e)

def readItems {α : Type} (read : Reader α) (s : Setting) : List Outline → Except ReadError (List α)
  | [] => .ok []
  | o :: os => do
    let v ← read s o
    let vs ← readItems read s os
    return v :: vs

def readList {α : Type} (read : Reader α) : Reader (List α) := fun s o =>
  match o with
  | .array items => readItems read s.inner items
  | o => unexpected "a sequence" o

/-- The end of an array of which `count` items were wanted. -/
def expectEnd (s : Setting) (count : Nat) : List Outline → Except ReadError Unit
  | [] => .ok ()
  | .broken b :: _ => .error (.flaw b.closed)
  | rest =>
    match s.source with
    | .text => .error (.flaw .trailingCharacters)
    | .value => refuse (.wrongLength (count + rest.length) "fewer elements in array")
    | .held =>
      let noun := if count = 1 then "element" else "elements"
      refuse (.wrongLength (count + rest.length) s!"{count} {noun} in sequence")

/-- The fields of a record in their order, each with what stands for it when it is absent. -/
inductive Layout : Type → Type 1
  | done : Layout Unit
  | field {β γ : Type} (name : String) (read : Reader β) (absent : Option β) (rest : Layout γ) :
      Layout (β × γ)

namespace Layout

/-- What has been read of the fields so far. -/
def Slots : {α : Type} → Layout α → Type
  | _, .done => Unit
  | _, @Layout.field β _ _ _ _ rest => Option β × rest.Slots

def empty : {α : Type} → (l : Layout α) → l.Slots
  | _, .done => ()
  | _, .field _ _ _ rest => (none, rest.empty)

def count : {α : Type} → Layout α → Nat
  | _, .done => 0
  | _, .field _ _ _ rest => rest.count + 1

/-- Reads the field called `key`; there is no answer when the layout has no such field. -/
def fill (s : Setting) (key : String) (o : Outline) :
    {α : Type} → (l : Layout α) → l.Slots → Option (Except ReadError l.Slots)
  | _, .done, _ => none
  | _, .field name read _ rest, slots =>
    let slot := slots.1
    if key = name then
      some (if slot.isSome then refuse (.duplicateField name) else do
        let v ← read s o
        return (some v, slots.2))
    else (rest.fill s key o slots.2).map fun r => r.map fun filled => (slot, filled)

def finish : {α : Type} → (l : Layout α) → l.Slots → Except ReadError α
  | _, .done, _ => .ok ()
  | _, .field name _ absent rest, slots =>
    match slots.1.or absent with
    | none => refuse (.missingField name)
    | some v => do
      let vs ← rest.finish slots.2
      return (v, vs)

def readMembers {α : Type} (l : Layout α) (s : Setting) :
    l.Slots → List (Except Flaw String × Outline) → Except ReadError α
  | slots, [] => l.finish slots
  | slots, (k, o) :: ms => do
    let key ← liftFlaw k
    match l.fill s key o slots with
    | some r => do
      let slots ← r
      l.readMembers s slots ms
    | none => do
      liftFlaw o.skip
      l.readMembers s slots ms

def readFront (expected : String) (s : Setting) : (i : Nat) → {α : Type} → Layout α →
    List Outline → Except ReadError (α × List Outline)
  | _, _, .done, os => .ok ((), os)
  | i, _, .field _ read absent rest, os => do
    let (v, os) ← match os, absent with
      | o :: os, _ => (read s o).map fun v => (v, os)
      | [], some v => .ok (v, [])
      | [], none => refuse (.wrongLength i expected)
    let (vs, os) ← rest.readFront expected s (i + 1) os
    return ((v, vs), os)

structure Title where
  record : String
  short : String

def Title.ofRecord (record : String) (count : Nat) : Title :=
  let noun := if count = 1 then "element" else "elements"
  ⟨record, s!"{record} with {count} {noun}"⟩

def readWith {α : Type} (l : Layout α) (title : Title) : Reader α := fun s o =>
  match o with
  | .array items => do
    let (v, rest) ← l.readFront title.short s.inner 0 items
    expectEnd s l.count rest
    return v
  | .object members => l.readMembers s.inner l.empty members
  | o => unexpected title.record o

def read {α : Type} (l : Layout α) (name : String) : Reader α :=
  l.readWith (.ofRecord s!"struct {name}" l.count)

end Layout

def Page.read {α : Type} (read : Reader α) (p : Page) : Except ReadError α := do
  let v ← read ⟨.text, 0⟩ p.outline
  if p.trailing then .error (.flaw .trailingCharacters) else return v

def readPage {α : Type} (read : Reader α) (text : String) : Except ReadError α :=
  (Page.ofText text).read read

/-- Reads a value, whose objects have their keys in ascending order and no key twice. -/
def readValue {α : Type} (read : Reader α) (v : Json) : Except ReadError α :=
  read ⟨.value, 0⟩ v.outline

end TokenRegistry.Json
