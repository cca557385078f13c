import TokenRegistry.Json.Reader

/-!
# Reading one of several variants

A variant is told by its tag. The tag may stand beside the content, in an object
with one member for each or in an array of the two (`readBeside`), or it may be one
more member of an object that is itself the content (`readWithin`). Content met
before its tag is held back, so it is read as a held value and not as a text.
-/
namespace TokenRegistry.Json

structure Variant (α : Type) where
  tag : String
  content : Reader α

namespace Variant

variable {α : Type}

def choose (vs : List (Variant α)) (tag : String) : Except ReadError (Variant α) :=
  match vs.find? fun v => v.tag = tag with
  | some v => .ok v
  | none => refuse (.unknownVariant tag (vs.map Variant.tag))

def readName (vs : List (Variant α)) : Reader (Variant α) := fun s o => do
  choose vs (← readString "variant identifier" s o)

def expectNull : Outline → Except ReadError Unit
  | .null => .ok ()
  | o => unexpected "unit" o

/-- A tag that is a string or an object with the tag as its one key and nothing under it. A text
is given up at anything else. -/
def readTag (vs : List (Variant α)) : Reader (Variant α) := fun s o =>
  match s.source, o with
  | _, .string tag => do choose vs (← liftFlaw tag)
  | .text, .object ((tag, o) :: more) => do
    let v ← choose vs (← liftFlaw tag)
    expectNull o
    match more with
    | [] => return v
    | (_, .broken b) :: _ => .error (.flaw b.read)
    | _ => .error (.flaw .expectedValue)
  | .text, .broken b => .error (.flaw b.read)
  | .text, _ => .error (.flaw .expectedValue)
  | _, .object [(tag, o)] => do
    let v ← choose vs (← liftFlaw tag)
    expectNull o
    return v
  | _, .object _ => refuse (.wrongValue .map "map with a single key")
  | _, o => unexpected "string or map" o

abbrev Members := List (Except Flaw String × Outline)

structure Labels where
  tag : String
  content : String

inductive Role
  | tag
  | content
  deriving DecidableEq, Repr

def Labels.role? (l : Labels) (key : String) : Option Role :=
  if key = l.tag then some .tag else if key = l.content then some .content else none

def Labels.name (l : Labels) : Role → String
  | .tag => l.tag
  | .content => l.content

def next (l : Labels) : Members → Except ReadError (Option (Role × Outline × Members))
  | [] => .ok none
  | (key, o) :: ms => do
    match l.role? (← liftFlaw key) with
    | some role => return some (role, o, ms)
    | none => do
      liftFlaw o.skip
      next l ms

def expectNoMore (l : Labels) (ms : Members) : Except ReadError Unit := do
  match ← next l ms with
  | none => return ()
  | some (role, _, _) => refuse (.duplicateField (l.name role))

def readAfterTag (l : Labels) (s : Setting) (v : Variant α) (ms : Members) : Except ReadError α := do
  match ← next l ms with
  | none => refuse (.missingField l.content)
  | some (.tag, _, _) => refuse (.duplicateField l.tag)
  | some (.content, o, ms) => do
    let a ← v.content s o
    expectNoMore l ms
    return a

def readAfterContent (l : Labels) (vs : List (Variant α)) (s : Setting) (held : Json)
    (ms : Members) : Except ReadError α := do
  match ← next l ms with
  | none => refuse (.missingField l.tag)
  | some (.content, _, _) => refuse (.duplicateField l.content)
  | some (.tag, o, ms) => do
    let v ← readTag vs s o
    let a ← v.content ⟨.held, 0⟩ held.outline
    expectNoMore l ms
    return a

def readBeside (name : String) (l : Labels) (vs : List (Variant α)) : Reader α := fun s o =>
  match o with
  | .object ms => do
    match ← next l ms with
    | none => refuse (.missingField l.tag)
    | some (.tag, o, ms) => do
      let v ← readTag vs s.inner o
      readAfterTag l s.inner v ms
    | some (.content, o, ms) => do
      let held ← liftFlaw (o.hold s.inner.depth)
      readAfterContent l vs s.inner held ms
  | .array [] => refuse (.wrongLength 0 name)
  | .array [tag] => do
    let _ ← readName vs s.inner tag
    refuse (.wrongLength 1 name)
  | .array (tag :: o :: rest) => do
    let v ← readName vs s.inner tag
    let a ← v.content s.inner o
    expectEnd s 2 rest
    return a
  | o => unexpected name o

def extract (label : String) (vs : List (Variant α)) (s : Setting) :
    Option (Variant α) → Members → Except ReadError (Option (Variant α) × List (String × Json))
  | v, [] => .ok (v, [])
  | v, (key, o) :: ms => do
    let key ← liftFlaw key
    if key = label then
      if v.isSome then refuse (.duplicateField label)
      else do
        let v ← readName vs s o
        extract label vs s (some v) ms
    else do
      let held ← liftFlaw (o.hold s.depth)
      let (v, rest) ← extract label vs s v ms
      return (v, (key, held) :: rest)

def readWithin (name label : String) (vs : List (Variant α)) : Reader α := fun s o =>
  match o with
  | .object ms => do
    match ← extract label vs s.inner none ms with
    | (none, _) => refuse (.missingField label)
    | (some v, rest) => v.content ⟨.held, 0⟩ (Json.object rest).outline
  | .array [] => refuse (.missingField label)
  | .array (tag :: rest) => do
    let v ← readName vs s.inner tag
    let held ← liftFlaw (Outline.holdItems s.inner.depth rest)
    v.content ⟨.held, 0⟩ (Json.array held).outline
  | o => unexpected name o

end Variant

end TokenRegistry.Json
