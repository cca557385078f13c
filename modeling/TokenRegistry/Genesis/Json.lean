import TokenRegistry.Error

/-!
# Genesis

A genesis state lists the tokens that a registry starts with. Each needs a usable
name, an owner and a supply that is not negative, and no two may share a slug; the
first token in the list that breaks a rule is reported. In JSON a state without a list
of tokens has none.
-/
namespace TokenRegistry

structure Genesis where
  tokens : List Token
  deriving DecidableEq, Repr

open Json

namespace Genesis

instance : Inhabited Genesis := ⟨⟨[]⟩⟩

def check [Slug.Spelling] (seen : List String) (t : Token) : Except RegistryError Unit :=
  if t.slug = "" then .error (.validation (.genesisName t.name))
  else if t.owner.isEmpty then .error (.validation (.genesisOwner t.name))
  else if t.amount < 0 then .error (.validation (.genesisSupply t.name t.amount))
  else if t.slug ∈ seen then .error (.alreadyExists t.slug)
  else .ok ()

def checkAll [Slug.Spelling] : (seen : List String) → List Token → Except RegistryError Unit
  | _, [] => .ok ()
  | seen, t :: ts => do
    check seen t
    checkAll (t.slug :: seen) ts

def validate [Slug.Spelling] (g : Genesis) : Except RegistryError Unit := checkAll [] g.tokens

def toJson (g : Genesis) : Json := .object [("tokens", .array (g.tokens.map Token.toJson))]

def layout : Layout (List Token × Unit) :=
  .field "tokens" (readList Token.read) (some []) .done

def read : Reader Genesis := mapRead (fun (tokens, _) => ⟨tokens⟩) (layout.read "GenesisState")

end Genesis

end TokenRegistry
