import TokenRegistry.Address
import TokenRegistry.Text.Percent

/-!
# Database locations

The path of a database names it, and after a question mark parameters say how to
open it. `:memory:` asks for a new database in memory. A path with a parameter or
a value that does not exist is not a location.
-/
namespace TokenRegistry

structure Location where
  name : String
  inMemory : Bool
  /-- Whether all connections work on one copy. -/
  shared : Bool
  readOnly : Bool
  immutable : Bool
  driver : Option String
  deriving DecidableEq, Repr

namespace Location

def named (name : String) : Location := ⟨name, false, false, false, false, none⟩

def fresh : Location := { named "file:memory" with inMemory := true, shared := true }

def dropScheme (scheme cs : List Char) : (fuel : Nat) → List Char
  | 0 => cs
  | fuel+1 =>
    match Address.afterLabel? scheme cs with
    | some rest => dropScheme scheme rest fuel
    | none => cs

def truth? (s : String) : Option Bool :=
  if s = "true" ∨ s = "1" then some true else if s = "false" ∨ s = "0" then some false else none

def apply (l : Location) : String × String → Option Location
  | ("mode", "ro") => some { l with readOnly := true }
  | ("mode", "rw") => some l
  | ("mode", "rwc") => some l
  | ("mode", "memory") => some { l with inMemory := true, shared := true }
  | ("cache", "private") => some { l with shared := false }
  | ("cache", "shared") => some { l with shared := true }
  | ("immutable", value) => (truth? value).map fun b => { l with immutable := b }
  | ("vfs", driver) => some { l with driver := some driver }
  | _ => none

def ofPath? (path : String) : Option Location := do
  let cs := ("sqlite:" ++ path).toList
  let cs := dropScheme "sqlite://".toList cs cs.length
  let cs := dropScheme "sqlite:".toList cs cs.length
  let (name, query) := Text.Percent.cutAt '?' cs
  let name := String.ofList name
  let l ←
    if name = ":memory:" then some fresh
    else
      match Text.Utf8.toString? (Text.Percent.decode name) with
      | .ok name => some (named name)
      | .error _ => none
  (Text.Percent.parameters (query.getD [])).foldlM apply l

end Location

end TokenRegistry
