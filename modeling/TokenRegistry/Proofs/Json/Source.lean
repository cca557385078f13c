import TokenRegistry.Json.Reader

/-!
# Reading from a text, from a value, from a held value

Readers are told where they read, but for the values of records that only tells what
they say of an array with too many items. A record read from a text is therefore read
from a held value as well, and the same.
-/
namespace TokenRegistry.Json

variable {α β : Type}

/-- What is read does not hang on where it is read. -/
def Steady (read : Reader α) : Prop := ∀ s s' o, read s o = read s' o

/-- Wherever it is read, it fails or gives the same; what an error says may differ. -/
def Agrees (read : Reader α) : Prop := ∀ s s' o, (read s o).toOption = (read s' o).toOption

theorem toOption_map {ε : Type} (x : Except ε α) (f : α → β) :
    (x.map f).toOption = x.toOption.map f := by
  cases x with
  | ok a => rfl
  | error e => rfl

theorem toOption_bind {ε : Type} (x : Except ε α) (f : α → Except ε β) :
    (x >>= f).toOption = x.toOption.bind fun a => (f a).toOption := by
  cases x with
  | ok a => rfl
  | error e => rfl

theorem steady_readText : Steady readText := fun _ _ _ => rfl

theorem steady_readAmount : Steady readAmount := fun _ _ _ => rfl

theorem steady_readHex : Steady readHex := fun _ _ _ => rfl

theorem Steady.mapRead {read : Reader α} (h : Steady read) (f : α → β) :
    Steady (mapRead f read) := by
  intro s s' o
  rw [Json.mapRead, Json.mapRead, h s s' o]

theorem Agrees.mapRead {read : Reader α} (h : Agrees read) (f : α → β) :
    Agrees (mapRead f read) := by
  intro s s' o
  rw [Json.mapRead, Json.mapRead, toOption_map, toOption_map, h s s' o]

namespace Layout

def AllSteady : {α : Type} → Layout α → Prop
  | _, .done => True
  | _, .field _ read _ rest => Json.Steady read ∧ rest.AllSteady

theorem fill_eq (s s' : Setting) (key : String) (o : Outline) {l : Layout α} (h : l.AllSteady)
    (slots : l.Slots) : l.fill s key o slots = l.fill s' key o slots := by
  induction l with
  | done => rfl
  | field name read absent rest ih =>
    rw [fill, fill, h.1 s s' o, ih h.2]

theorem readMembers_eq (s s' : Setting) {l : Layout α} (h : l.AllSteady) (slots : l.Slots)
    (ms : List (Except Flaw String × Outline)) :
    l.readMembers s slots ms = l.readMembers s' slots ms := by
  induction ms generalizing slots with
  | nil => rfl
  | cons m ms ih =>
    obtain ⟨k, o⟩ := m
    rw [readMembers, readMembers]
    simp only [fill_eq s s' _ o h, ih]

theorem readFront_eq (expected : String) (s s' : Setting) {l : Layout α} (h : l.AllSteady) (i : Nat)
    (os : List Outline) : l.readFront expected s i os = l.readFront expected s' i os := by
  induction l generalizing i os with
  | done => rfl
  | field name read absent rest ih =>
    have hread : read s = read s' := funext (h.1 s s')
    rw [readFront.eq_def, readFront.eq_def]
    simp only [ih h.2, hread]

theorem expectEnd_toOption (s : Setting) (count : Nat) (os : List Outline) :
    (expectEnd s count os).toOption = if os = [] then some () else none := by
  rw [expectEnd.eq_def]
  split
  · rfl
  · rfl
  · rename_i hnil _
    rw [if_neg hnil]
    cases s.source with
    | text => rfl
    | value => rfl
    | held => rfl

theorem agrees_read {l : Layout α} (h : l.AllSteady) (name : String) : Agrees (l.read name) := by
  intro s s' o
  cases o with
  | array items =>
    change (l.readFront _ s.inner 0 items >>= fun r => expectEnd s.inner l.count r.2 >>= fun _ =>
      pure r.1).toOption = (l.readFront _ s'.inner 0 items >>= fun r =>
        expectEnd s'.inner l.count r.2 >>= fun _ => pure r.1).toOption
    simp only [readFront_eq _ s.inner s'.inner h, toOption_bind, expectEnd_toOption]
  | object members => exact congrArg _ (readMembers_eq s.inner s'.inner h l.empty members)
  | _ => rfl

end Layout

end TokenRegistry.Json
