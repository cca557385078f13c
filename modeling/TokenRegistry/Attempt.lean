/-!
# Attempts

An attempt is an operation on a state that gives a value or fails, and that may
change the state either way. Attempts are run one after another up to the first
that fails; what the earlier ones did to the state stays done.
-/
namespace TokenRegistry

def Attempt (ε σ α : Type) : Type := σ → Except ε α × σ

namespace Attempt

variable {ε ε' σ α β γ : Type}

def give (a : α) : Attempt ε σ α := fun s => (.ok a, s)

def fail (e : ε) : Attempt ε σ α := fun s => (.error e, s)

def next (x : Attempt ε σ α) (f : α → Attempt ε σ β) : Attempt ε σ β := fun s =>
  match x s with
  | (.ok a, s) => f a s
  | (.error e, s) => (.error e, s)

instance : Monad (Attempt ε σ) where
  pure := give
  bind := next

instance : MonadExceptOf ε (Attempt ε σ) where
  throw := fail
  tryCatch x f s :=
    match x s with
    | (.ok a, s) => (.ok a, s)
    | (.error e, s) => f e s

def state : Attempt ε σ σ := fun s => (.ok s, s)

/-- What comes of an attempt, which itself does not fail. -/
def outcome (x : Attempt ε σ α) : Attempt ε' σ (Except ε α) := fun s =>
  let (r, s) := x s
  (.ok r, s)

def mapError (f : ε → ε') (x : Attempt ε σ α) : Attempt ε' σ α := fun s =>
  let (r, s) := x s
  (r.mapError f, s)

theorem pure_apply (a : α) (s : σ) : (pure a : Attempt ε σ α) s = (.ok a, s) := rfl

theorem throw_apply (e : ε) (s : σ) : (throw e : Attempt ε σ α) s = (.error e, s) := rfl

theorem bind_apply (x : Attempt ε σ α) (f : α → Attempt ε σ β) (s : σ) :
    (x >>= f) s = match x s with
      | (.ok a, s) => f a s
      | (.error e, s) => (.error e, s) := rfl

theorem bind_of_ok {x : Attempt ε σ α} {f : α → Attempt ε σ β} {s s' : σ} {a : α}
    (h : x s = (.ok a, s')) : (x >>= f) s = f a s' := by
  rw [bind_apply, h]

theorem bind_of_error {x : Attempt ε σ α} {f : α → Attempt ε σ β} {s s' : σ} {e : ε}
    (h : x s = (.error e, s')) : (x >>= f) s = (.error e, s') := by
  rw [bind_apply, h]

theorem run_cases (x : Attempt ε σ α) (s : σ) :
    (∃ a s', x s = (.ok a, s')) ∨ ∃ e s', x s = (.error e, s') := by
  cases hrun : x s with
  | mk answer s' =>
    cases answer with
    | ok a => exact .inl ⟨a, s', rfl⟩
    | error e => exact .inr ⟨e, s', rfl⟩

theorem map_bind (x : Attempt ε σ α) (f : α → β) (g : β → Attempt ε σ γ) :
    f <$> x >>= g = x >>= fun a => g (f a) := by
  funext s
  rcases x.run_cases s with ⟨a, s', hx⟩ | ⟨e, s', hx⟩
  · have hmap : (f <$> x) s = (.ok (f a), s') := bind_of_ok hx
    rw [bind_of_ok hx, bind_of_ok hmap]
  · have hmap : (f <$> x) s = (.error e, s') := bind_of_error hx
    rw [bind_of_error hx, bind_of_error hmap]

end Attempt

end TokenRegistry
