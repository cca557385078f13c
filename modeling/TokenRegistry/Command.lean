import TokenRegistry.Config
import TokenRegistry.Error

/-!
# Commands

A command asks the registry to create a token, to hand it to a new owner, or to
issue or destroy units of it. Whether a command is sound on the face of it can be
told without the registry: its addresses are looked at first, then the name, then
the amount.
-/
namespace TokenRegistry

structure Creation where
  name : String
  supply : Int
  creator : Address
  deriving DecidableEq, Repr

structure Transfer where
  name : String
  previousOwner : Address
  newOwner : Address
  deriving DecidableEq, Repr

structure Minting where
  owner : Address
  name : String
  amount : Int
  deriving DecidableEq, Repr

structure Burning where
  owner : Address
  name : String
  amount : Int
  deriving DecidableEq, Repr

inductive Command
  | create (c : Creation)
  | transfer (c : Transfer)
  | mint (c : Minting)
  | burn (c : Burning)
  deriving DecidableEq, Repr

namespace Command

inductive Kind
  | create
  | transfer
  | mint
  | burn
  deriving DecidableEq, Repr

def Kind.all : List Kind := [.create, .transfer, .mint, .burn]

def Kind.action : Kind → String
  | .create => "CreateBrandedToken"
  | .transfer => "TransferBrandedTokenOwnership"
  | .mint => "MintBrandedToken"
  | .burn => "BurnBrandedToken"

/-- The key on which hosts dispatch commands. -/
def route : String := Config.standardName

def Kind.tag (k : Kind) : String := route ++ "/" ++ k.action

def requireAddress (role : String) (a : Address) : Except Complaint Unit :=
  if a.isEmpty then .error (.emptyAddress role) else .ok ()

def requireName [Slug.Spelling] (name : String) : Except Complaint Unit :=
  if name = "" then .error .emptyName
  else if Slug.ofName name = "" then .error (.unusableName name)
  else .ok ()

def requirePositive (amount : Int) : Except Complaint Unit :=
  if amount ≤ 0 then .error .amountNotPositive else .ok ()

end Command

open Command

namespace Creation

def validate [Slug.Spelling] (c : Creation) : Except Complaint Unit := do
  requireAddress "creator" c.creator
  requireName c.name
  if c.supply < 0 then .error .negativeSupply else .ok ()

end Creation

namespace Transfer

def validate [Slug.Spelling] (c : Transfer) : Except Complaint Unit := do
  requireAddress "previous_owner" c.previousOwner
  requireAddress "new_owner" c.newOwner
  requireName c.name

end Transfer

namespace Minting

def validate [Slug.Spelling] (c : Minting) : Except Complaint Unit := do
  requireAddress "owner" c.owner
  requireName c.name
  requirePositive c.amount

end Minting

namespace Burning

def validate [Slug.Spelling] (c : Burning) : Except Complaint Unit := do
  requireAddress "owner" c.owner
  requireName c.name
  requirePositive c.amount

end Burning

namespace Command

def kind : Command → Kind
  | .create _ => .create
  | .transfer _ => .transfer
  | .mint _ => .mint
  | .burn _ => .burn

def name : Command → String
  | .create c => c.name
  | .transfer c => c.name
  | .mint c => c.name
  | .burn c => c.name

/-- The one account that must have signed a command. -/
def sender : Command → Address
  | .create c => c.creator
  | .transfer c => c.previousOwner
  | .mint c => c.owner
  | .burn c => c.owner

def validate [Slug.Spelling] : Command → Except Complaint Unit
  | .create c => c.validate
  | .transfer c => c.validate
  | .mint c => c.validate
  | .burn c => c.validate

def slug [Slug.Spelling] (c : Command) : String := Slug.ofName c.name

end Command

class Message (α : Type) where
  command : α → Command
  kind : α → Kind
  sender : α → Address
  validate : α → Except Complaint Unit

instance [Slug.Spelling] : Message Creation := ⟨.create, fun _ => .create, Creation.creator, Creation.validate⟩

instance [Slug.Spelling] : Message Transfer :=
  ⟨.transfer, fun _ => .transfer, Transfer.previousOwner, Transfer.validate⟩

instance [Slug.Spelling] : Message Minting := ⟨.mint, fun _ => .mint, Minting.owner, Minting.validate⟩

instance [Slug.Spelling] : Message Burning := ⟨.burn, fun _ => .burn, Burning.owner, Burning.validate⟩

instance [Slug.Spelling] : Message Command := ⟨id, Command.kind, Command.sender, Command.validate⟩

def Message.signers {α : Type} [Message α] (m : α) : List Address := [sender m]

end TokenRegistry
