import TokenRegistry.Config
import TokenRegistry.Ledger.Balances

/-!
# The registry

The registry keeps tokens in a store, each record under the slug of its token, and
the units issued of them in a coin ledger. It knows nothing of commands: who may
do what is decided above it. Every answer of the store or the ledger leaves its
mark on the state, also when it is an error.

A line of its log has a level, an origin and a text. Most lines come from a module,
under the name that it is configured with; compensation logs on its own account.
-/
namespace TokenRegistry

namespace Log

inductive Level
  | debug
  | info
  | warn
  | error
  deriving DecidableEq, Repr

def Level.label : Level → String
  | .debug => "DEBUG"
  | .info => "INFO"
  | .warn => "WARN"
  | .error => "ERROR"

inductive Origin
  | module (name : String)
  | compensation
  deriving DecidableEq, Repr

structure Line where
  level : Level
  origin : Origin
  text : String
  deriving DecidableEq, Repr

end Log

abbrev Log := List Log.Line

class Logged (κ : Type) where
  write : Log.Line → κ → κ

instance : Logged Log := ⟨fun line log => log ++ [line]⟩

structure Registry (σ τ : Type) where
  store : σ
  ledger : τ
  config : Config
  log : Log

abbrev RegistryM (σ τ α : Type) := Attempt RegistryError (Registry σ τ) α

def recordKey (slug : String) : Bytes := Text.Utf8.ofString slug

namespace Registry

variable {σ τ α : Type}

def ofParts (store : σ) (ledger : τ) (config : Config) : Registry σ τ := ⟨store, ledger, config, []⟩

def write (line : Log.Line) (r : Registry σ τ) : Registry σ τ :=
  { r with log := Logged.write line r.log }

instance : Logged (Registry σ τ) := ⟨write⟩

def note (level : Log.Level) (text : String) : RegistryM σ τ Unit := fun r =>
  (.ok (), r.write ⟨level, .module r.config.moduleName, text⟩)

def onStore (x : Attempt StoreError σ α) : RegistryM σ τ α := fun r =>
  let (answer, store) := x r.store
  (answer.mapError .store, { r with store := store })

def onLedger (x : Attempt LedgerError τ α) : Attempt LedgerError (Registry σ τ) α := fun r =>
  let (answer, ledger) := x r.ledger
  (answer, { r with ledger := ledger })

section Records

variable [Store σ]

/-- The token under a slug. A record that is missing is no error. -/
def find? (slug : String) : RegistryM σ τ (Option Token) := do
  match ← onStore (Store.get (recordKey slug)) with
  | none => do
    note .debug s!"branded token {slug} not found"
    return none
  | some bytes =>
    match Token.decode bytes with
    | .ok t => return some t
    | .error e => throw (.codec slug (.record e))

theorem find?_of_decode_eq_ok {slug : String} {bytes : Bytes} {t : Token} {r r' : Registry σ τ}
    (hget : onStore (Store.get (recordKey slug)) r = (.ok (some bytes), r'))
    (hdecode : Token.decode bytes = .ok t) : find? slug r = (.ok (some t), r') := by
  rw [find?, Attempt.bind_of_ok hget]
  simp only [hdecode]
  rfl

theorem find?_of_decode_eq_error {slug : String} {bytes : Bytes} {e : Token.RecordFault}
    {r r' : Registry σ τ} (hget : onStore (Store.get (recordKey slug)) r = (.ok (some bytes), r'))
    (hdecode : Token.decode bytes = .error e) :
    find? slug r = (.error (.codec slug (.record e)), r') := by
  rw [find?, Attempt.bind_of_ok hget]
  simp only [hdecode]
  rfl

def contains (slug : String) : RegistryM σ τ Bool := onStore (Store.has (recordKey slug))

def put (slug : String) (t : Token) : RegistryM σ τ Unit := do
  onStore (Store.set (recordKey slug) t.encode)
  note .debug s!"stored branded token {slug} ({t.text})"

def remove (slug : String) : RegistryM σ τ Unit := do
  onStore (Store.delete (recordKey slug))
  note .debug s!"deleted branded token {slug}"

def slugOfKey (key : Bytes) : Except RegistryError String :=
  match Text.Utf8.toString? key with
  | .ok slug => .ok slug
  | .error _ => .error (.codec (Text.Utf8.lossy key) .key)

def entryOfRecord (r : Record) : Except RegistryError (String × Token) := do
  let slug ← slugOfKey r.1
  match Token.decode r.2 with
  | .ok t => return (slug, t)
  | .error e => .error (.codec slug (.record e))

def readItem (read : Record → Except RegistryError α) (item : Except StoreError Record) :
    Except RegistryError α :=
  match item with
  | .ok r => read r
  | .error e => .error (.store e)

def listPass (read : Record → Except RegistryError α) : σ → Pass σ →
    List (Except RegistryError α) × σ
  | s, [] => ([], s)
  | _, (item, s) :: rest =>
    let (items, s) := listPass read s rest
    (readItem read item :: items, s)

/-- The items of a pass up to its first error, and the store after that. -/
def collectPass (read : Record → Except RegistryError α) : σ → Pass σ →
    Except RegistryError (List α) × σ
  | s, [] => (.ok [], s)
  | _, (item, s) :: rest =>
    match readItem read item with
    | .error e => (.error e, s)
    | .ok a =>
      let (items, s) := collectPass read s rest
      (items.map (a :: ·), s)

def list (read : Record → Except RegistryError α) : RegistryM σ τ (List (Except RegistryError α)) :=
  fun r =>
    let (items, store) := listPass read r.store (Store.scan r.store)
    (.ok items, { r with store := store })

def collect (read : Record → Except RegistryError α) : RegistryM σ τ (List α) := fun r =>
  let (items, store) := collectPass read r.store (Store.scan r.store)
  (items, { r with store := store })

def entries : RegistryM σ τ (List (Except RegistryError (String × Token))) := list entryOfRecord

def slugs : RegistryM σ τ (List (Except RegistryError String)) := list fun r => slugOfKey r.1

end Records

end Registry

end TokenRegistry
