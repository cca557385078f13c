import TokenRegistry.Registry

/-!
# Compensation

An action that changes two places does so in two steps. If the second step fails,
the first is undone. The answer is the error of the step, whatever becomes of
undoing it; that undoing failed is only logged.
-/
namespace TokenRegistry

variable {ε ε' κ α : Type} [Logged κ]

def failureLine (error : String) : Log.Line :=
  ⟨.warn, .compensation, s!"compensating after failure: {error}"⟩

def undoFailureLine (error undoError : String) : Log.Line :=
  ⟨.error, .compensation, s!"compensation failed after `{error}`: {undoError}"⟩

def withCompensation (message : ε → String) (undoMessage : ε' → String)
    (action : Attempt ε κ α) (undo : Attempt ε' κ Unit) : Attempt ε κ α := fun s =>
  match action s with
  | (.ok a, s) => (.ok a, s)
  | (.error e, s) =>
    match undo (Logged.write (failureLine (message e)) s) with
    | (.ok (), s) => (.error e, s)
    | (.error e', s) => (.error e, Logged.write (undoFailureLine (message e) (undoMessage e')) s)

theorem withCompensation_fst (message : ε → String) (undoMessage : ε' → String)
    (action : Attempt ε κ α) (undo : Attempt ε' κ Unit) (s : κ) :
    (withCompensation message undoMessage action undo s).1 = (action s).1 := by
  simp only [withCompensation]
  split
  · rename_i h; rw [h]
  · rename_i h
    rw [h]
    split <;> rfl

end TokenRegistry
