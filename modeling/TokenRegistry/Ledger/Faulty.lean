import TokenRegistry.Ledger.Balances
import TokenRegistry.Store.Faulty

/-!
# Ledgers with outages

A refused call does not reach the ledger within.
-/
namespace TokenRegistry

structure FaultyLedger (τ : Type) where
  inner : τ
  credit : Option (Outage LedgerError)
  debit : Option (Outage LedgerError)

namespace FaultyLedger

variable {τ : Type}

def sound (inner : τ) : FaultyLedger τ := ⟨inner, none, none⟩

def repair (l : FaultyLedger τ) : FaultyLedger τ := sound l.inner

def pass {α : Type} (refusal : Option LedgerError) (a : Attempt LedgerError τ α) :
    Attempt LedgerError (FaultyLedger τ) α := fun l =>
  match refusal with
  | some e => (.error e, l)
  | none =>
    let (r, inner) := a l.inner
    (r, { l with inner := inner })

instance [Ledger τ] : Ledger (FaultyLedger τ) where
  credit a coins l :=
    let (refusal, outage) := Outage.meet l.credit
    pass refusal (Ledger.credit a coins) { l with credit := outage }
  debit a coins l :=
    let (refusal, outage) := Outage.meet l.debit
    pass refusal (Ledger.debit a coins) { l with debit := outage }
  balance l := Ledger.balance l.inner

end FaultyLedger

end TokenRegistry
