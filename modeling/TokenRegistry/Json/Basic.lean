import TokenRegistry.Json.Numeral

/-!
# JSON values and outlines of JSON text

`Json` is a value; the members of an object keep their order and may repeat a key.
`Outline` is what can be made out of a text up to the place where it stops being
JSON: a string literal may have no text, and the last item of an array or object
may be broken. Every value has an outline (`Json.outline`), and `Outline.hold`
takes an outline back to a value, if nothing in it is amiss and it is not nested
too deeply.
-/
namespace TokenRegistry

inductive Json
  | null
  | bool (b : Bool)
  | number (n : Json.Numeral)
  | string (s : String)
  | array (items : List Json)
  | object (members : List (String × Json))
  deriving Inhabited

namespace Json

inductive Outline
  | null
  | bool (b : Bool)
  | number (n : Numeral)
  | string (s : Except Flaw String)
  | array (items : List Outline)
  | object (members : List (Except Flaw String × Outline))
  | broken (b : Break)
  deriving Inhabited

mutual
def outline : Json → Outline
  | .null => .null
  | .bool b => .bool b
  | .number n => .number n
  | .string s => .string (.ok s)
  | .array items => .array (outlineItems items)
  | .object members => .object (outlineMembers members)

def outlineItems : List Json → List Outline
  | [] => []
  | v :: vs => v.outline :: outlineItems vs

def outlineMembers : List (String × Json) → List (Except Flaw String × Outline)
  | [] => []
  | (k, v) :: ms => (.ok k, v.outline) :: outlineMembers ms
end

namespace Outline

/-- Containers may be nested this deeply in a value that is held. -/
def depthLimit : Nat := 127

mutual
/-- Passes over a value; only a text that stops being JSON is noticed. -/
def skip : Outline → Except Flaw Unit
  | .array items => skipItems items
  | .object members => skipMembers members
  | .broken b => .error b.skipped
  | _ => .ok ()

def skipItems : List Outline → Except Flaw Unit
  | [] => .ok ()
  | o :: os => do
    o.skip
    skipItems os

def skipMembers : List (Except Flaw String × Outline) → Except Flaw Unit
  | [] => .ok ()
  | (_, o) :: ms => do
    o.skip
    skipMembers ms
end

mutual
def hold : (depth : Nat) → Outline → Except Flaw Json
  | _, .null => .ok .null
  | _, .bool b => .ok (.bool b)
  | _, .number n => n.value.map fun _ => .number n
  | _, .string s => s.map .string
  | depth, .array items =>
    if depth < depthLimit then (holdItems (depth + 1) items).map .array else .error .tooDeep
  | depth, .object members =>
    if depth < depthLimit then (holdMembers (depth + 1) members).map .object else .error .tooDeep
  | _, .broken b => .error b.read

def holdItems : (depth : Nat) → List Outline → Except Flaw (List Json)
  | _, [] => .ok []
  | depth, o :: os => do
    let v ← o.hold depth
    let vs ← holdItems depth os
    return v :: vs

def holdMembers : (depth : Nat) → List (Except Flaw String × Outline) →
    Except Flaw (List (String × Json))
  | _, [] => .ok []
  | depth, (k, o) :: ms => do
    let k ← k
    let v ← o.hold depth
    let vs ← holdMembers depth ms
    return (k, v) :: vs
end

end Outline

end Json

end TokenRegistry
