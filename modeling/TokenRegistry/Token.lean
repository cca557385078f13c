import TokenRegistry.Address
import TokenRegistry.Amount
import TokenRegistry.Slug

/-!
# Tokens

A token has a name, which is also the denomination of its coins, the amount issued
so far, and the one account that may transfer, mint or burn it.
-/
namespace TokenRegistry

structure Token where
  name : String
  amount : Int
  owner : Address
  deriving DecidableEq, Repr

open Json

namespace Token

def slug [Slug.Spelling] (t : Token) : String := Slug.ofName t.name

def isOwnedBy (t : Token) (a : Address) : Bool := t.owner = a

def text (t : Token) : String :=
  s!"Name: {t.name}|Owner: {t.owner.text}|TotalSupply: {Amount.text t.amount}"

def toJson (t : Token) : Json :=
  .object [("name", .string t.name), ("amount", .string (Amount.text t.amount)),
    ("owner", t.owner.toJson)]

def layout : Layout (String × Int × Address × Unit) :=
  .field "name" readText none <| .field "amount" readAmount none <|
    .field "owner" Address.read none .done

def read : Reader Token :=
  mapRead (fun (name, amount, owner, _) => ⟨name, amount, owner⟩) (layout.read "BrandedToken")

end Token

end TokenRegistry
