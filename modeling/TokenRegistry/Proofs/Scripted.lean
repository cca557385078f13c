import TokenRegistry.Proofs.Registry.Simulation

/-!
# Stores and ledgers that refuse calls

A script says of every call to come whether it is refused, and with which error. A
refused call has no effect; any other does what it does to the part within. So each
pattern of refusals is a script, and a part that never refuses follows the empty
one.
-/
namespace TokenRegistry

/-- A part with a script: what the call meets that comes after `n` others. -/
structure Scripted (ε κ : Type) where
  inner : κ
  script : Nat → Option ε

namespace Scripted

variable {ε κ α : Type}

def later (s : Scripted ε κ) : Scripted ε κ := { s with script := fun n => s.script (n + 1) }

def call (x : Attempt ε κ α) : Attempt ε (Scripted ε κ) α := fun s =>
  match s.script 0 with
  | some e => (.error e, s.later)
  | none => ((x s.inner).1, { s.later with inner := (x s.inner).2 })

theorem call_refused {s : Scripted ε κ} {e : ε} (h : s.script 0 = some e) (x : Attempt ε κ α) :
    call x s = (.error e, s.later) := by
  simp only [call, h]

theorem call_passed {s : Scripted ε κ} (h : s.script 0 = none) (x : Attempt ε κ α) :
    call x s = ((x s.inner).1, { s.later with inner := (x s.inner).2 }) := by
  simp only [call, h]

instance {σ : Type} [Store σ] : Store (Scripted StoreError σ) where
  get key := call (Store.get key)
  set key value := call (Store.set key value)
  delete key := call (Store.delete key)
  has key := call (Store.has key)
  scan s := (Store.scan s.inner).map fun step => (step.1, { s with inner := step.2 })

instance {τ : Type} [Ledger τ] : Ledger (Scripted LedgerError τ) where
  credit a coins := call (Ledger.credit a coins)
  debit a coins := call (Ledger.debit a coins)
  balance s := Ledger.balance s.inner

def willing (inner : κ) : Scripted ε κ := ⟨inner, fun _ => none⟩

theorem simulated_call (x : Attempt ε κ α) :
    Attempt.Simulated willing (fun _ => True) x (call x) := fun _ _ => ⟨rfl, trivial⟩

def storeImage (σ : Type) [Store σ] : StoreImage σ (Scripted StoreError σ) :=
  ⟨willing, fun _ => True, fun _ => simulated_call _, fun _ _ => simulated_call _,
    fun _ => simulated_call _, fun _ => simulated_call _⟩

def ledgerImage (τ : Type) [Ledger τ] : LedgerImage τ (Scripted LedgerError τ) :=
  ⟨willing, fun _ => True, fun _ _ => simulated_call _, fun _ _ => simulated_call _⟩

end Scripted

end TokenRegistry
