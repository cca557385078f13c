import TokenRegistry.Registry.Compensation

/-!
# Attempts that simulate one another

One attempt is simulated by another along an image of its state if, wherever the
state is ready, both give the same answer and the images of the states after them
agree. Whatever is built from simulated attempts is simulated.
-/
namespace TokenRegistry

namespace Attempt

variable {ε ε' κ κ' α β : Type}

theorem mapError_of_ok {x : Attempt ε κ α} {s s' : κ} {a : α} (h : x s = (.ok a, s'))
    (f : ε → ε') : x.mapError f s = (.ok a, s') := by
  rw [Attempt.mapError, h]
  rfl

theorem mapError_of_error {x : Attempt ε κ α} {s s' : κ} {e : ε} (h : x s = (.error e, s'))
    (f : ε → ε') : x.mapError f s = (.error (f e), s') := by
  rw [Attempt.mapError, h]
  rfl

/-- On the image of a ready state `y` does what `x` does on the state, which stays ready. -/
def Simulated (image : κ → κ') (ready : κ → Prop) (x : Attempt ε κ α) (y : Attempt ε κ' α) : Prop :=
  ∀ s, ready s → y (image s) = ((x s).1, image (x s).2) ∧ ready (x s).2

variable {image : κ → κ'} {ready : κ → Prop}

theorem simulated_pure (a : α) :
    Simulated image ready (pure a : Attempt ε κ α) (pure a) := fun _ hs => ⟨rfl, hs⟩

theorem simulated_throw (e : ε) :
    Simulated image ready (throw e : Attempt ε κ α) (throw e) := fun _ hs => ⟨rfl, hs⟩

theorem Simulated.bind {x : Attempt ε κ α} {y : Attempt ε κ' α} {f : α → Attempt ε κ β}
    {g : α → Attempt ε κ' β} (h : Simulated image ready x y)
    (hf : ∀ a, Simulated image ready (f a) (g a)) : Simulated image ready (x >>= f) (y >>= g) := by
  intro s hs
  obtain ⟨heq, hready⟩ := h s hs
  rw [bind_apply, bind_apply, heq]
  generalize x s = out at hready
  obtain ⟨answer, s'⟩ := out
  cases answer with
  | ok a => exact hf a s' hready
  | error e => exact ⟨rfl, hready⟩

theorem simulated_state_bind {f : κ → Attempt ε κ α} {g : κ' → Attempt ε κ' α}
    (h : ∀ s, ready s → Simulated image ready (f s) (g (image s))) :
    Simulated image ready (state >>= f) (state >>= g) := fun s hs => h s hs s hs

theorem Simulated.mapError {x : Attempt ε κ α} {y : Attempt ε κ' α} (m : ε → ε')
    (h : Simulated image ready x y) : Simulated image ready (x.mapError m) (y.mapError m) := by
  intro s hs
  obtain ⟨heq, hready⟩ := h s hs
  refine ⟨?_, hready⟩
  rw [Attempt.mapError, heq]
  rfl

theorem Simulated.outcome {x : Attempt ε κ α} {y : Attempt ε κ' α}
    (h : Simulated image ready x y) :
    Simulated image ready (x.outcome : Attempt ε' κ _) y.outcome := by
  intro s hs
  obtain ⟨heq, hready⟩ := h s hs
  refine ⟨?_, hready⟩
  rw [Attempt.outcome, heq]
  rfl

theorem Simulated.withCompensation [Logged κ] [Logged κ'] {message : ε → String}
    {undoMessage : ε' → String} {x : Attempt ε κ α} {y : Attempt ε κ' α} {undo : Attempt ε' κ Unit}
    {undo' : Attempt ε' κ' Unit}
    (hwrite : ∀ line s, ready s →
      image (Logged.write line s) = Logged.write line (image s) ∧ ready (Logged.write line s))
    (h : Simulated image ready x y) (hundo : Simulated image ready undo undo') :
    Simulated image ready (withCompensation message undoMessage x undo)
      (withCompensation message undoMessage y undo') := by
  intro s hs
  obtain ⟨heq, hready⟩ := h s hs
  unfold TokenRegistry.withCompensation
  rw [heq]
  generalize x s = out at hready
  obtain ⟨answer, s'⟩ := out
  cases answer with
  | ok a => exact ⟨rfl, hready⟩
  | error e =>
    obtain ⟨himage, hready⟩ := hwrite (failureLine (message e)) s' hready
    obtain ⟨heq, hready⟩ := hundo _ hready
    simp only [← himage, heq]
    generalize undo _ = out at hready
    obtain ⟨answer, s''⟩ := out
    cases answer with
    | ok a => exact ⟨rfl, hready⟩
    | error e' =>
      obtain ⟨himage, hready⟩ := hwrite (undoFailureLine (message e) (undoMessage e')) s'' hready
      exact ⟨congrArg (Prod.mk _) himage.symm, hready⟩

end Attempt

end TokenRegistry
