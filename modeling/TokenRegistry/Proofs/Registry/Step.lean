import TokenRegistry.Proofs.Command
import TokenRegistry.Proofs.Ledger.Balances
import TokenRegistry.Proofs.Scripted
import TokenRegistry.Store.Memory

/-!
# The steps of a command

Each step of a command asks the store or the ledger once. A refused step leaves the
records and the books as they are; what any other leaves is told here once, so that
commands are followed step by step.
-/
namespace TokenRegistry

def Log.alarms (log : Log) : Log := log.filter fun line => line.level = .error

theorem Log.alarms_append_of_ne {line : Log.Line} (h : line.level ≠ .error) (log : Log) :
    alarms (log ++ [line]) = alarms log := by
  rw [alarms, List.filter_append, List.filter_cons_of_neg (by simpa using h), List.filter_nil,
    List.append_nil, alarms]

theorem Log.alarms_append_of_error {line : Log.Line} (h : line.level = .error) (log : Log) :
    alarms (log ++ [line]) = alarms log ++ [line] := by
  rw [alarms, List.filter_append, List.filter_cons_of_pos (by simpa using h), List.filter_nil,
    alarms]

def Records.token? (rs : Records) (slug : String) : Option Token :=
  (rs.get? (recordKey slug)).bind fun bytes => (Token.decode bytes).toOption

namespace Registry

abbrev InMemory := Registry MemoryStore Balances

/-- A registry in memory whose parts refuse calls by a script. -/
abbrev Refusing := Registry (Scripted StoreError MemoryStore) (Scripted LedgerError Balances)

def bare (r : Refusing) : InMemory := ⟨r.store.inner, r.ledger.inner, r.config, r.log⟩

structure Kept (r r' : InMemory) : Prop where
  records : r'.store.records = r.store.records
  balance : ∀ a denom, r'.ledger.balance a denom = r.ledger.balance a denom
  supply : ∀ denom, r'.ledger.supplyOf denom = r.ledger.supplyOf denom
  alarms : r'.log.alarms = r.log.alarms
  config : r'.config = r.config

theorem Kept.of_shift {a : Address} {δ : String → Int} {r r' : InMemory}
    (hrecords : r'.store.records = r.store.records)
    (hbooks : Balances.Shift a δ r.ledger r'.ledger) (hδ : ∀ denom, δ denom = 0)
    (halarms : r'.log.alarms = r.log.alarms) (hconfig : r'.config = r.config) : Kept r r' := by
  refine ⟨hrecords, ?_, ?_, halarms, hconfig⟩
  · intro x denom
    rw [hbooks.balance, hδ, ite_self, Int.add_zero]
  · intro denom
    rw [hbooks.supply, hδ, Int.add_zero]

theorem Kept.of_eq {r r' : InMemory} (hrecords : r'.store.records = r.store.records)
    (hbooks : r'.ledger = r.ledger) (halarms : r'.log.alarms = r.log.alarms)
    (hconfig : r'.config = r.config) : Kept r r' :=
  .of_shift (a := default) hrecords (hbooks ▸ Balances.shift_refl default (fun _ => rfl) r.ledger)
    (fun _ => rfl) halarms hconfig

def storeRefusal (r : Refusing) (n : Nat) : Option RegistryError := (r.store.script n).map .store

def ledgerRefusal (r : Refusing) (n : Nat) : Option RegistryError := (r.ledger.script n).map .ledger

def taken (rs : Records) (slug : String) : Option RegistryError :=
  if rs.contains (recordKey slug) then some (.alreadyExists slug) else none

def unreadable (rs : Records) (slug : String) : Option RegistryError :=
  match rs.get? (recordKey slug) with
  | none => some (.notFound slug)
  | some bytes =>
    match Token.decode bytes with
    | .ok _ => none
    | .error e => some (.codec slug (.record e))

def foreign (label : String) (sender : Address) (slug : String) (t : Token) :
    Option RegistryError :=
  if t.owner = sender then none else some (.notOwner slug (sender.labelled label))

/-- What keeps a sender from a token, in the order in which it is looked at. -/
def gate (r : Refusing) (slug : String) (sender : Address) : List (Option RegistryError) :=
  [storeRefusal r 0, unreadable r.store.inner.records slug,
    (r.store.inner.records.token? slug).bind (foreign r.config.addressLabel sender slug)]

section Steps

variable {α : Type} {r : Refusing}

def stored (r : Refusing) (rs : Records) : Refusing :=
  { r with store := { r.store.later with inner := ⟨rs⟩ } }

def booked (r : Refusing) (b : Balances) : Refusing :=
  { r with ledger := { r.ledger.later with inner := b } }

theorem onStore_refused {e : StoreError} (h : r.store.script 0 = some e)
    (x : Attempt StoreError MemoryStore α) :
    onStore (Scripted.call x) r = (.error (.store e), stored r r.store.inner.records) := by
  rw [onStore, Scripted.call_refused h]
  rfl

theorem onStore_passed (h : r.store.script 0 = none) (x : Attempt StoreError MemoryStore α) :
    onStore (Scripted.call x) r =
      ((x r.store.inner).1.mapError .store, stored r (x r.store.inner).2.records) := by
  rw [onStore, Scripted.call_passed h]
  rfl

theorem onLedger_refused {e : LedgerError} (h : r.ledger.script 0 = some e)
    (x : Attempt LedgerError Balances α) :
    onLedger (Scripted.call x) r = (.error e, booked r r.ledger.inner) := by
  rw [onLedger, Scripted.call_refused h]
  rfl

theorem onLedger_passed (h : r.ledger.script 0 = none) (x : Attempt LedgerError Balances α) :
    onLedger (Scripted.call x) r = ((x r.ledger.inner).1, booked r (x r.ledger.inner).2) := by
  rw [onLedger, Scripted.call_passed h]
  rfl

theorem contains_refused {e : StoreError} (h : r.store.script 0 = some e) (slug : String) :
    contains slug r = (.error (.store e), stored r r.store.inner.records) :=
  onStore_refused h (Store.has (recordKey slug))

theorem contains_passed (h : r.store.script 0 = none) (slug : String) :
    contains slug r =
      (.ok (r.store.inner.records.contains (recordKey slug)), stored r r.store.inner.records) :=
  onStore_passed h (Store.has (recordKey slug))

theorem put_refused {e : StoreError} (h : r.store.script 0 = some e) (slug : String) (t : Token) :
    put slug t r = (.error (.store e), stored r r.store.inner.records) :=
  Attempt.bind_of_error (onStore_refused h (Store.set (recordKey slug) t.encode))

theorem put_passed (h : r.store.script 0 = none) (slug : String) (t : Token) :
    ∃ r', put slug t r = (.ok (), r') ∧
      r'.store.inner.records = r.store.inner.records.insert (recordKey slug) t.encode ∧
      r'.store.script = r.store.later.script ∧ r'.ledger = r.ledger ∧
      r'.log.alarms = r.log.alarms ∧ r'.config = r.config :=
  ⟨_, Attempt.bind_of_ok (onStore_passed h (Store.set (recordKey slug) t.encode)), rfl, rfl, rfl,
    Log.alarms_append_of_ne Log.Level.noConfusion _, rfl⟩

theorem find?_refused {e : StoreError} (h : r.store.script 0 = some e) (slug : String) :
    find? slug r = (.error (.store e), stored r r.store.inner.records) :=
  Attempt.bind_of_error (onStore_refused h (Store.get (recordKey slug)))

theorem get_passed (h : r.store.script 0 = none) (key : Bytes) :
    onStore (Store.get key) r =
      (.ok (r.store.inner.records.get? key), stored r r.store.inner.records) :=
  onStore_passed h (Store.get key)

theorem find?_missing (h : r.store.script 0 = none) {slug : String}
    (hget : r.store.inner.records.get? (recordKey slug) = none) :
    ∃ r', find? slug r = (.ok none, r') ∧ Kept r.bare r'.bare := by
  have hstore := get_passed h (recordKey slug)
  rw [hget] at hstore
  refine ⟨_, Attempt.bind_of_ok hstore, .of_eq rfl rfl ?_ rfl⟩
  exact Log.alarms_append_of_ne Log.Level.noConfusion _

theorem find?_decoded (h : r.store.script 0 = none) {slug : String} {bytes : Bytes} {t : Token}
    (hget : r.store.inner.records.get? (recordKey slug) = some bytes)
    (hdecode : Token.decode bytes = .ok t) :
    find? slug r = (.ok (some t), stored r r.store.inner.records) := by
  have hstore := get_passed h (recordKey slug)
  rw [hget] at hstore
  exact find?_of_decode_eq_ok hstore hdecode

theorem find?_undecodable (h : r.store.script 0 = none) {slug : String} {bytes : Bytes}
    {e : Token.RecordFault} (hget : r.store.inner.records.get? (recordKey slug) = some bytes)
    (hdecode : Token.decode bytes = .error e) :
    find? slug r = (.error (.codec slug (.record e)), stored r r.store.inner.records) := by
  have hstore := get_passed h (recordKey slug)
  rw [hget] at hstore
  exact find?_of_decode_eq_error hstore hdecode

theorem kept_stored (r : Refusing) : Kept r.bare (stored r r.store.inner.records).bare :=
  .of_eq rfl rfl rfl rfl

theorem findOwned_cases (r : Refusing) (slug : String) (sender : Address) :
    (∃ e r', (gate r slug sender).findSome? id = some e ∧
      findOwned slug sender r = (.error e, r') ∧ Kept r.bare r'.bare) ∨
    (∃ t, (gate r slug sender).findSome? id = none ∧
      r.store.inner.records.token? slug = some t ∧ t.owner = sender ∧
      findOwned slug sender r = (.ok t, stored r r.store.inner.records)) := by
  cases h : r.store.script 0 with
  | some e =>
    refine .inl ⟨.store e, _, ?_, Attempt.bind_of_error (find?_refused h slug), kept_stored r⟩
    simp [gate, storeRefusal, h]
  | none =>
    cases hget : r.store.inner.records.get? (recordKey slug) with
    | none =>
      obtain ⟨r', hfind, hkept⟩ := find?_missing h hget
      refine .inl ⟨.notFound slug, r', ?_, Attempt.bind_of_ok hfind, hkept⟩
      simp [gate, storeRefusal, h, unreadable, hget]
    | some bytes =>
      cases hdecode : Token.decode bytes with
      | error e =>
        have hfind := find?_undecodable h hget hdecode
        refine .inl ⟨_, _, ?_, Attempt.bind_of_error hfind, kept_stored r⟩
        simp [gate, storeRefusal, h, unreadable, hget, hdecode]
      | ok t =>
        have hfind := find?_decoded h hget hdecode
        have htoken : r.store.inner.records.token? slug = some t := by
          rw [Records.token?, hget, Option.bind_some, hdecode]
          rfl
        have hgate : (gate r slug sender).findSome? id =
            foreign r.config.addressLabel sender slug t := by
          simp only [gate, storeRefusal, h, unreadable, hget, hdecode, htoken, Option.map_none,
            Option.bind_some, List.findSome?_cons, List.findSome?_nil, id]
          cases foreign r.config.addressLabel sender slug t with
          | none => rfl
          | some e => rfl
        rw [hgate, findOwned, Attempt.bind_of_ok hfind]
        by_cases howner : t.owner = sender
        · have howned : t.isOwnedBy sender = true := decide_eq_true howner
          refine .inr ⟨t, if_pos howner, htoken, howner, ?_⟩
          simp only [howned, if_true]
          rfl
        · have howned : t.isOwnedBy sender = false := decide_eq_false howner
          refine .inl ⟨_, _, if_neg howner, ?_, kept_stored r⟩
          simp only [howned, Bool.false_eq_true, if_false]
          rfl

theorem remove_refused {e : StoreError} (h : r.store.script 0 = some e) (slug : String) :
    remove slug r = (.error (.store e), stored r r.store.inner.records) :=
  Attempt.bind_of_error (onStore_refused h (Store.delete (recordKey slug)))

theorem remove_passed (h : r.store.script 0 = none) (slug : String) :
    ∃ r', remove slug r = (.ok (), r') ∧
      r'.store.inner.records = r.store.inner.records.erase (recordKey slug) ∧
      r'.ledger = r.ledger ∧ r'.log.alarms = r.log.alarms ∧ r'.config = r.config :=
  ⟨_, Attempt.bind_of_ok (onStore_passed h (Store.delete (recordKey slug))), rfl, rfl,
    Log.alarms_append_of_ne Log.Level.noConfusion _, rfl⟩

theorem singleCoin_unnamed (amount : Int) (r : Refusing) :
    singleCoin "" amount r = (.error (.ledger (.invalidCoins .emptyDenom)), r) := rfl

theorem singleCoin_named {denom : String} {amount : Int} (hdenom : denom ≠ "")
    (hamount : 0 ≤ amount) (r : Refusing) :
    singleCoin denom amount r = (.ok (Coins.ofAmount denom amount), r) := by
  rw [singleCoin, Coins.single_of_ne hdenom hamount]
  rfl

theorem credit_refused {e : LedgerError} (h : r.ledger.script 0 = some e) (a : Address)
    (coins : Coins) : credit a coins r = (.error e, booked r r.ledger.inner) :=
  onLedger_refused h (Ledger.credit a coins)

theorem debit_refused {e : LedgerError} (h : r.ledger.script 0 = some e) (a : Address)
    (coins : Coins) : debit a coins r = (.error e, booked r r.ledger.inner) :=
  onLedger_refused h (Ledger.debit a coins)

theorem credit_passed (h : r.ledger.script 0 = none) {a : Address} (ha : a.isEmpty = false)
    (denom : String) (amount : Int) :
    ∃ b, credit a (Coins.ofAmount denom amount) r = (.ok (), booked r b) ∧
      Balances.Shift a (fun d => if d = denom then amount else 0) r.ledger.inner b := by
  obtain ⟨b, hcredit, hshift⟩ := r.ledger.inner.credit_shift ha (Coins.ofAmount denom amount)
  have hbooks : Ledger.credit a (Coins.ofAmount denom amount) r.ledger.inner = (.ok (), b) :=
    Balances.attempt_of_ok hcredit
  refine ⟨b, ?_, hshift.congr (Coins.sumOf_ofAmount denom amount)⟩
  rw [credit]
  refine (onLedger_passed h (Ledger.credit a (Coins.ofAmount denom amount))).trans ?_
  rw [hbooks]

theorem debit_passed (h : r.ledger.script 0 = none) {a : Address} {denom : String} {amount : Int}
    (hamount : 0 ≤ amount) (hle : amount ≤ r.ledger.inner.balance a denom) :
    ∃ b, debit a (Coins.ofAmount denom amount) r = (.ok (), booked r b) ∧
      Balances.Shift a (fun d => if d = denom then -amount else 0) r.ledger.inner b := by
  have hcovered : ∀ c ∈ (Coins.ofAmount denom amount).toList,
      c.amount ≤ r.ledger.inner.balance a c.denom := by
    intro c hc
    rw [Coins.ofAmount] at hc
    split at hc
    · exact absurd hc List.not_mem_nil
    · rw [List.mem_singleton.mp hc]
      exact hle
  obtain ⟨b, hdebit, hshift⟩ :=
    r.ledger.inner.debit_shift a (Coins.checked_ofAmount hamount) hcovered
  have hbooks : Ledger.debit a (Coins.ofAmount denom amount) r.ledger.inner = (.ok (), b) :=
    Balances.attempt_of_ok hdebit
  refine ⟨b, ?_, hshift.congr ?_⟩
  · rw [debit]
    refine (onLedger_passed h (Ledger.debit a (Coins.ofAmount denom amount))).trans ?_
    rw [hbooks]
  · intro d
    rw [Coins.sumOf_ofAmount]
    split
    · rfl
    · rfl

theorem debit_uncovered (h : r.ledger.script 0 = none) {a : Address} {denom : String}
    {amount : Int} (hamount : 0 < amount) (hlt : r.ledger.inner.balance a denom < amount) :
    debit a (Coins.ofAmount denom amount) r =
      (.error (r.ledger.inner.uncovered a ⟨denom, amount⟩), booked r r.ledger.inner) := by
  have hcoins : (Coins.ofAmount denom amount).toList = [⟨denom, amount⟩] := by
    rw [Coins.ofAmount, if_neg (by omega)]
  have hdebit : r.ledger.inner.debit a (Coins.ofAmount denom amount) =
      .error (r.ledger.inner.uncovered a ⟨denom, amount⟩) := by
    rw [Balances.debit, hcoins, List.find?_cons_of_pos (by simpa using hlt)]
  have hbooks : Ledger.debit a (Coins.ofAmount denom amount) r.ledger.inner =
      (.error (r.ledger.inner.uncovered a ⟨denom, amount⟩), r.ledger.inner) :=
    Balances.attempt_of_error hdebit
  rw [debit]
  refine (onLedger_passed h (Ledger.debit a (Coins.ofAmount denom amount))).trans ?_
  rw [hbooks]

end Steps

end Registry

end TokenRegistry
