import TokenRegistry.Attempt
import TokenRegistry.Error

/-!
# Record stores

A store keeps records, byte strings under byte strings, and passes over them in
ascending key order. Stores are used through `Store`, whose operations may fail
and may then have changed the store. Where records can be visited one at a time
while others write, the store has a `Cursor`; `drain` runs one to its end.
-/
namespace TokenRegistry

abbrev Record := Bytes × Bytes

abbrev Records := OrderedMap Bytes Bytes

def Records.following (rs : Records) : (last : Option Bytes) → List Record
  | none => rs.entries
  | some k => rs.after k

theorem Records.following_of_following (rs : Records) {last : Option Bytes} {r : Record}
    {rest : List Record} (h : rs.following last = r :: rest) : rs.following (some r.1) = rest := by
  cases last with
  | none => exact rs.after_of_entries h
  | some k => exact rs.after_of_after h

/-- What each step of a pass over a store yields, with the store as it is after that step. -/
abbrev Pass (σ : Type) := List (Except StoreError Record × σ)

class Store (σ : Type) where
  get : Bytes → Attempt StoreError σ (Option Bytes)
  set : Bytes → Bytes → Attempt StoreError σ Unit
  delete : Bytes → Attempt StoreError σ Unit
  has : Bytes → Attempt StoreError σ Bool
  scan : σ → Pass σ

/-- Presence as told by `get`, for stores that have nothing better. -/
def Store.hasByGet {σ : Type} (get : Bytes → Attempt StoreError σ (Option Bytes)) (key : Bytes) :
    Attempt StoreError σ Bool := do
  return (← get key).isSome

/-- A place in a pass over a store. Each step sees the store as it is then. -/
class Cursor (σ : Type) (γ : outParam Type) where
  start : γ
  next : σ → γ → Option (Except StoreError Record) × γ

def Cursor.drain {σ γ : Type} [Cursor σ γ] (s : σ) : (n : Nat) → γ → List (Except StoreError Record)
  | 0, _ => []
  | n+1, c =>
    match Cursor.next s c with
    | (none, _) => []
    | (some item, c) => item :: drain s n c

/-- The items of at most `n` steps of a cursor and the cursor after them; the last item is absent if
the cursor came to its end. -/
def Cursor.advance {σ γ : Type} [Cursor σ γ] (s : σ) :
    (n : Nat) → γ → List (Option (Except StoreError Record)) × γ
  | 0, c => ([], c)
  | n+1, c =>
    match Cursor.next s c with
    | (none, c) => ([none], c)
    | (some item, c) =>
      let (items, c) := advance s n c
      (some item :: items, c)

end TokenRegistry
