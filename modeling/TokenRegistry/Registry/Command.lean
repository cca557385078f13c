import TokenRegistry.Command
import TokenRegistry.Event.Json
import TokenRegistry.Registry.Compensation

/-!
# Carrying out commands

A command is checked on the face of it, then against the registry, and then
changes the registry and the ledger. The amount in the registry is kept equal to
what the ledger has issued under the name of the token: where both sides change,
a failure of the second undoes the first. An accepted command gives one event.
-/
namespace TokenRegistry

namespace Registry

variable {σ τ : Type} [Store σ] [Ledger τ]

def eventOf (config : Config) (kind : Command.Kind) (sender : Address) (amount : Option Int) :
    Event :=
  let e := ((Event.ofKind "message").attach "module" config.moduleName).attach "action" kind.action
  let e := e.attach "sender" (sender.labelled config.addressLabel)
  match amount with
  | some n => e.attach "amount" (Amount.text n)
  | none => e

def findOwned (slug : String) (sender : Address) : RegistryM σ τ Token := do
  match ← find? slug with
  | none => throw (.notFound slug)
  | some t =>
    if t.isOwnedBy sender then return t
    else
      let config := (← Attempt.state).config
      throw (.notOwner slug (sender.labelled config.addressLabel))

def singleCoin (denom : String) (amount : Int) : RegistryM σ τ Coins :=
  match Coins.single denom amount with
  | .ok coins => return coins
  | .error e => throw (.ledger (.invalidCoins e))

def credit (a : Address) (coins : Coins) : Attempt LedgerError (Registry σ τ) Unit :=
  onLedger (Ledger.credit a coins)

def debit (a : Address) (coins : Coins) : Attempt LedgerError (Registry σ τ) Unit :=
  onLedger (Ledger.debit a coins)

/-- The slug is taken first and given free again if the units cannot be issued. -/
def create [Slug.Spelling] (c : Creation) : RegistryM σ τ (Option Int) := do
  let slug := Slug.ofName c.name
  if ← contains slug then
    throw (.alreadyExists slug)
  let coins ← singleCoin c.name c.supply
  put slug ⟨c.name, c.supply, c.creator⟩
  if !coins.isEmpty then
    withCompensation RegistryError.message RegistryError.message
      ((credit c.creator coins).mapError .ledger) (remove slug)
  return some c.supply

def transfer [Slug.Spelling] (c : Transfer) : RegistryM σ τ (Option Int) := do
  let slug := Slug.ofName c.name
  let t ← findOwned slug c.previousOwner
  put slug { t with owner := c.newOwner }
  return none

/-- The ledger comes first: nothing has been written if it refuses. -/
def mint [Slug.Spelling] (c : Minting) : RegistryM σ τ (Option Int) := do
  let slug := Slug.ofName c.name
  let t ← findOwned slug c.owner
  let coins ← singleCoin t.name c.amount
  (credit c.owner coins).mapError .ledger
  withCompensation RegistryError.message LedgerError.message
    (put slug { t with amount := t.amount + c.amount }) (debit c.owner coins)
  return some c.amount

/-- The ledger comes first: a balance that is too small leaves the registry as it is. -/
def burn [Slug.Spelling] (c : Burning) : RegistryM σ τ (Option Int) := do
  let slug := Slug.ofName c.name
  let t ← findOwned slug c.owner
  let coins ← singleCoin t.name c.amount
  (debit c.owner coins).mapError .ledger
  withCompensation RegistryError.message LedgerError.message
    (put slug { t with amount := t.amount - c.amount }) (credit c.owner coins)
  return some c.amount

def apply [Slug.Spelling] : Command → RegistryM σ τ (Option Int)
  | .create c => create c
  | .transfer c => transfer c
  | .mint c => mint c
  | .burn c => burn c

def reject {α : Type} (e : RegistryError) (line : String) : RegistryM σ τ α := do
  note .warn line
  throw e

def execute [Slug.Spelling] (c : Command) : RegistryM σ τ Receipt := do
  match c.validate with
  | .error complaint =>
    let e := RegistryError.validation complaint
    reject e s!"rejected {c.kind.action}: {e.message}"
  | .ok () =>
    match ← (apply c).outcome with
    | .error e => reject e s!"{c.kind.action} on `{c.name}` failed: {e.message}"
    | .ok amount =>
      let event := eventOf (← Attempt.state).config c.kind c.sender amount
      note .info event.text
      return ⟨[event]⟩

end Registry

end TokenRegistry
