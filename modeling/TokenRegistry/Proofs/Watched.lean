import TokenRegistry.Proofs.Registry.Simulation
import TokenRegistry.Proofs.Store.Replies

/-!
# Stores and ledgers under watch

A part under watch behaves as it does otherwise, and every call made on it is noted,
whatever comes of the call. A registry whose parts are under watch answers as the one
without and leaves the same parts behind, so what a command asks of its store and its
ledger can be told, however these behave.
-/
namespace TokenRegistry

/-- A part with the calls that have been made on it, in order. -/
structure Watched (γ κ : Type) where
  inner : κ
  calls : List γ

inductive LedgerCall
  | credit (a : Address) (coins : Coins)
  | debit (a : Address) (coins : Coins)
  deriving DecidableEq, Repr

def StoreCall.isWrite : StoreCall → Bool
  | .set _ _ | .delete _ => true
  | .get _ | .has _ | .scan => false

namespace Watched

variable {γ ε κ α : Type}

def start (inner : κ) : Watched γ κ := ⟨inner, []⟩

def call (c : γ) (x : Attempt ε κ α) : Attempt ε (Watched γ κ) α := fun w =>
  ((x w.inner).1, ⟨(x w.inner).2, w.calls ++ [c]⟩)

instance {σ : Type} [Store σ] : Store (Watched StoreCall σ) where
  get key := call (.get key) (Store.get key)
  set key value := call (.set key value) (Store.set key value)
  delete key := call (.delete key) (Store.delete key)
  has key := call (.has key) (Store.has key)
  scan w := (Store.scan w.inner).map fun step => (step.1, ⟨step.2, w.calls ++ [.scan]⟩)

instance {τ : Type} [Ledger τ] : Ledger (Watched LedgerCall τ) where
  credit a coins := call (.credit a coins) (Ledger.credit a coins)
  debit a coins := call (.debit a coins) (Ledger.debit a coins)
  balance w := Ledger.balance w.inner

theorem simulated_call (c : γ) (x : Attempt ε κ α) :
    Attempt.Simulated inner (fun _ => True) (call c x) x := fun _ _ => ⟨rfl, trivial⟩

def storeImage (σ : Type) [Store σ] : StoreImage (Watched StoreCall σ) σ :=
  ⟨inner, fun _ => True, fun _ => simulated_call _ _, fun _ _ => simulated_call _ _,
    fun _ => simulated_call _ _, fun _ => simulated_call _ _⟩

def ledgerImage (τ : Type) [Ledger τ] : LedgerImage (Watched LedgerCall τ) τ :=
  ⟨inner, fun _ => True, fun _ _ => simulated_call _ _, fun _ _ => simulated_call _ _⟩

end Watched

namespace Registry

variable {σ τ : Type}

abbrev Observed (σ τ : Type) := Registry (Watched StoreCall σ) (Watched LedgerCall τ)

def observed (r : Registry σ τ) : Observed σ τ :=
  ⟨.start r.store, .start r.ledger, r.config, r.log⟩

def unobserved (r : Observed σ τ) : Registry σ τ := ⟨r.store.inner, r.ledger.inner, r.config, r.log⟩

/-- Being watched makes no difference to a command. -/
theorem execute_observed [Store σ] [Ledger τ] [Slug.Spelling] (r : Registry σ τ) (c : Command) :
    execute c r = ((execute c r.observed).1, (execute c r.observed).2.unobserved) :=
  (simulated_execute (Watched.storeImage σ) (Watched.ledgerImage τ) c r.observed
    ⟨trivial, trivial⟩).1

end Registry

end TokenRegistry
