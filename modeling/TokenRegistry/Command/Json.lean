import TokenRegistry.Address
import TokenRegistry.Command
import TokenRegistry.Json.Variant

/-!
# Commands in JSON

A command is an object of its tag and its fields. The bytes to sign are its text
with the keys in ascending order, so that a command has one text only; a command
that is not yet told by a tag is signed as if it were.
-/
namespace TokenRegistry

open Json

namespace Creation

def toJson (c : Creation) : Json :=
  .object [("name", .string c.name), ("supply", .string (Amount.text c.supply)),
    ("creator", c.creator.toJson)]

def layout : Layout (String × Int × Address × Unit) :=
  .field "name" readText none <| .field "supply" readAmount none <|
    .field "creator" Address.read none .done

def read : Reader Creation :=
  mapRead (fun (name, supply, creator, _) => ⟨name, supply, creator⟩)
    (layout.read "MsgCreateBrandedToken")

end Creation

namespace Transfer

def toJson (c : Transfer) : Json :=
  .object [("name", .string c.name), ("previous_owner", c.previousOwner.toJson),
    ("new_owner", c.newOwner.toJson)]

def layout : Layout (String × Address × Address × Unit) :=
  .field "name" readText none <| .field "previous_owner" Address.read none <|
    .field "new_owner" Address.read none .done

def read : Reader Transfer :=
  mapRead (fun (name, previousOwner, newOwner, _) => ⟨name, previousOwner, newOwner⟩)
    (layout.read "MsgTransferBrandedTokenOwnership")

end Transfer

def supplyLayout : Layout (Address × String × Int × Unit) :=
  .field "owner" Address.read none <| .field "name" readText none <|
    .field "amount" readAmount none .done

def supplyJson (owner : Address) (name : String) (amount : Int) : Json :=
  .object [("owner", owner.toJson), ("name", .string name),
    ("amount", .string (Amount.text amount))]

namespace Minting

def toJson (c : Minting) : Json := supplyJson c.owner c.name c.amount

def read : Reader Minting :=
  mapRead (fun (owner, name, amount, _) => ⟨owner, name, amount⟩)
    (supplyLayout.read "MsgMintBrandedToken")

end Minting

namespace Burning

def toJson (c : Burning) : Json := supplyJson c.owner c.name c.amount

def read : Reader Burning :=
  mapRead (fun (owner, name, amount, _) => ⟨owner, name, amount⟩)
    (supplyLayout.read "MsgBurnBrandedToken")

end Burning

namespace Command

def content : Command → Json
  | .create c => c.toJson
  | .transfer c => c.toJson
  | .mint c => c.toJson
  | .burn c => c.toJson

def toJson (c : Command) : Json := .object [("type", .string c.kind.tag), ("value", c.content)]

def Kind.read : Kind → Reader Command
  | .create => mapRead .create Creation.read
  | .transfer => mapRead .transfer Transfer.read
  | .mint => mapRead .mint Minting.read
  | .burn => mapRead .burn Burning.read

def variants : List (Variant Command) := Kind.all.map fun k => ⟨k.tag, k.read⟩

def read : Reader Command :=
  Variant.readBeside "adjacently tagged enum TokenMsg" ⟨"type", "value"⟩ variants

end Command

def Message.signText {α : Type} [Message α] (m : α) : String := (command m).toJson.sortKeys.text

def Message.signBytes {α : Type} [Message α] (m : α) : Bytes := Text.Utf8.ofString (signText m)

end TokenRegistry
