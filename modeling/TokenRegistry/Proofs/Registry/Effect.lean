import TokenRegistry.Proofs.Registry.Step

/-!
# What a command does to a registry

A command meets its obstacles in a fixed order and stops at the first, with nothing
changed. Past them it makes its changes; where the second of two changes is refused,
the first is undone, and only if undoing it is refused as well does anything stay
changed, of which an error in the log tells.
-/
namespace TokenRegistry

section Compensation

variable {ε ε' κ α : Type} [Logged κ] {message : ε → String} {undoMessage : ε' → String}
  {action : Attempt ε κ α} {undo : Attempt ε' κ Unit} {s s' s'' : κ}

theorem withCompensation_of_ok {a : α} (h : action s = (.ok a, s')) :
    withCompensation message undoMessage action undo s = (.ok a, s') := by
  simp only [withCompensation, h]

theorem withCompensation_undone {e : ε} (h : action s = (.error e, s'))
    (hundo : undo (Logged.write (failureLine (message e)) s') = (.ok (), s'')) :
    withCompensation message undoMessage action undo s = (.error e, s'') := by
  simp only [withCompensation, h, hundo]

theorem withCompensation_stuck {e : ε} {e' : ε'} (h : action s = (.error e, s'))
    (hundo : undo (Logged.write (failureLine (message e)) s') = (.error e', s'')) :
    withCompensation message undoMessage action undo s =
      (.error e, Logged.write (undoFailureLine (message e) (undoMessage e')) s'') := by
  simp only [withCompensation, h, hundo]

end Compensation

namespace Registry

def unnamed (t : Token) : Option RegistryError :=
  if t.name = "" then some (.ledger (.invalidCoins .emptyDenom)) else none

def uncovered (b : Balances) (a : Address) (amount : Int) (t : Token) : Option RegistryError :=
  if b.balance a t.name < amount then some (.ledger (b.uncovered a ⟨t.name, amount⟩)) else none

def setback (r : Refusing) : Command → Option RegistryError
  | .create c => if c.supply = 0 then none else ledgerRefusal r 0
  | .transfer _ => none
  | .mint _ => storeRefusal r 1
  | .burn _ => storeRefusal r 1

def undoRefusal (r : Refusing) : Command → Option String
  | .create _ => (r.store.script 2).map fun e => (RegistryError.store e).message
  | .transfer _ => none
  | .mint _ => (r.ledger.script 1).map LedgerError.message
  | .burn _ => (r.ledger.script 1).map LedgerError.message

theorem Kept.write {r : InMemory} {r' : Refusing} (h : Kept r r'.bare) {line : Log.Line}
    (hline : line.level ≠ .error) : Kept r (bare (Logged.write line r')) :=
  ⟨h.records, h.balance, h.supply, (Log.alarms_append_of_ne hline _).trans h.alarms, h.config⟩

theorem findSome?_cons_id (o : Option RegistryError) (rest : List (Option RegistryError)) :
    (o :: rest).findSome? id = o.or (rest.findSome? id) := by
  cases o with
  | none => rfl
  | some e => rfl

variable [Slug.Spelling]

def obstacles (r : Refusing) (c : Command) : List (Option RegistryError) :=
  match c with
  | .create _ => [storeRefusal r 0, taken r.store.inner.records c.slug, storeRefusal r 1]
  | .transfer _ => gate r c.slug c.sender ++ [storeRefusal r 1]
  | .mint _ =>
    gate r c.slug c.sender ++
      [(r.store.inner.records.token? c.slug).bind unnamed, ledgerRefusal r 0]
  | .burn b =>
    gate r c.slug c.sender ++
      [(r.store.inner.records.token? c.slug).bind unnamed, ledgerRefusal r 0,
        (r.store.inner.records.token? c.slug).bind (uncovered r.ledger.inner b.owner b.amount)]

/-- The command has left the token `t` and has issued its units of it. -/
structure Applied (c : Command) (t : Token) (r r' : InMemory) : Prop where
  settled : c.settle (r.store.records.token? c.slug) = some t
  records : r'.store.records = r.store.records.insert (recordKey c.slug) t.encode
  books : Balances.Shift c.sender (fun denom => if denom = t.name then c.issue else 0)
    r.ledger r'.ledger
  alarms : r'.log.alarms = r.log.alarms
  config : r'.config = r.config

/-- How a command can end: stopped at an obstacle, carried out, undone, or left half done. -/
inductive Outcome {α : Type} (c : Command) (r : Refusing) (obstacle : Option RegistryError)
    (answer : α) : Except RegistryError α × Refusing → Prop
  | stopped {e : RegistryError} {r' : Refusing} (hobstacle : obstacle = some e)
      (hkept : Kept r.bare r'.bare) : Outcome c r obstacle answer (.error e, r')
  | applied {t : Token} {r' : Refusing} (hobstacle : obstacle = none)
      (hsetback : setback r c = none) (happlied : Applied c t r.bare r'.bare) :
      Outcome c r obstacle answer (.ok answer, r')
  | undone {e : RegistryError} {r' : Refusing} (hobstacle : obstacle = none)
      (hsetback : setback r c = some e) (hundo : undoRefusal r c = none)
      (hkept : Kept r.bare r'.bare) : Outcome c r obstacle answer (.error e, r')
  | stuck {e : RegistryError} {m : String} {r' : Refusing} (hobstacle : obstacle = none)
      (hsetback : setback r c = some e) (hundo : undoRefusal r c = some m)
      (halarms : r'.log.alarms = r.log.alarms ++ [undoFailureLine e.message m])
      (hconfig : r'.config = r.config) : Outcome c r obstacle answer (.error e, r')

theorem Outcome.of_compensated {α ε : Type} {c : Command} {r r₁ : Refusing}
    {obstacle : Option RegistryError} {answer : α} {undoMessage : ε → String}
    {action : RegistryM (Scripted StoreError MemoryStore) (Scripted LedgerError Balances) Unit}
    {undo : Attempt ε Refusing Unit} (hobstacle : obstacle = none)
    (hdone : setback r c = none →
      ∃ t r₂, action r₁ = (.ok (), r₂) ∧ Applied c t r.bare r₂.bare)
    (hrefused : ∀ e, setback r c = some e →
      ∃ r₂, action r₁ = (.error e, r₂) ∧ ∀ line : Log.Line, line.level ≠ .error →
        (undoRefusal r c = none →
          ∃ r₃, undo (Logged.write line r₂) = (.ok (), r₃) ∧ Kept r.bare r₃.bare) ∧
        (∀ m, undoRefusal r c = some m →
          ∃ e' r₃, undo (Logged.write line r₂) = (.error e', r₃) ∧ undoMessage e' = m ∧
            r₃.log.alarms = r.log.alarms ∧ r₃.config = r.config)) :
    Outcome c r obstacle answer
      ((withCompensation RegistryError.message undoMessage action undo >>= fun _ =>
        pure answer) r₁) := by
  cases hsetback : setback r c with
  | none =>
    obtain ⟨t, r₂, hrun, happlied⟩ := hdone hsetback
    rw [Attempt.bind_of_ok (withCompensation_of_ok hrun)]
    exact .applied hobstacle hsetback happlied
  | some e =>
    obtain ⟨r₂, hrun, hundo⟩ := hrefused e hsetback
    obtain ⟨hback, hstuck⟩ := hundo (failureLine e.message) Log.Level.noConfusion
    cases hm : undoRefusal r c with
    | none =>
      obtain ⟨r₃, hundo, hkept⟩ := hback hm
      rw [Attempt.bind_of_error (withCompensation_undone hrun hundo)]
      exact .undone hobstacle hsetback hm hkept
    | some m =>
      obtain ⟨e', r₃, hundo, rfl, halarms, hconfig⟩ := hstuck m hm
      rw [Attempt.bind_of_error (withCompensation_stuck hrun hundo)]
      refine .stuck hobstacle hsetback hm ?_ hconfig
      rw [← halarms]
      exact Log.alarms_append_of_error rfl _

section Steps

variable {α : Type} {c : Command} {r r₁ : Refusing} {rest : Option RegistryError} {answer : α}

theorem Outcome.of_gate {slug : String} {sender : Address}
    {next : Token → RegistryM (Scripted StoreError MemoryStore) (Scripted LedgerError Balances) α}
    (h : ∀ t, r.store.inner.records.token? slug = some t →
      Outcome c r rest answer (next t (stored r r.store.inner.records))) :
    Outcome c r (((gate r slug sender).findSome? id).or rest) answer
      ((findOwned slug sender >>= next) r) := by
  rcases findOwned_cases r slug sender with
    ⟨e, r', hgate, hfind, hkept⟩ | ⟨t, hgate, htoken, -, hfind⟩
  · rw [hgate, Attempt.bind_of_error hfind]
    exact .stopped rfl hkept
  · rw [hgate, Attempt.bind_of_ok hfind]
    exact h t htoken

theorem Outcome.of_coin {t : Token} {n : Int} (hn : 0 ≤ n) (hkept : Kept r.bare r₁.bare)
    {next : Coins → RegistryM (Scripted StoreError MemoryStore) (Scripted LedgerError Balances) α}
    (h : t.name ≠ "" → Outcome c r rest answer (next (Coins.ofAmount t.name n) r₁)) :
    Outcome c r ((unnamed t).or rest) answer ((singleCoin t.name n >>= next) r₁) := by
  by_cases hname : t.name = ""
  · have hcoin := singleCoin_unnamed n r₁
    rw [← hname] at hcoin
    rw [unnamed, if_pos hname, Attempt.bind_of_error hcoin]
    exact .stopped rfl hkept
  · rw [unnamed, if_neg hname, Attempt.bind_of_ok (singleCoin_named hname hn r₁)]
    exact h hname

theorem Outcome.of_booking {entry : Attempt LedgerError Refusing Unit}
    {next : Unit → RegistryM (Scripted StoreError MemoryStore) (Scripted LedgerError Balances) α}
    (hledger : r₁.ledger = r.ledger) (hkept : Kept r.bare (booked r₁ r₁.ledger.inner).bare)
    (hrefused : ∀ e, r₁.ledger.script 0 = some e →
      entry r₁ = (.error e, booked r₁ r₁.ledger.inner))
    (h : r₁.ledger.script 0 = none →
      Outcome c r rest answer ((entry.mapError .ledger >>= next) r₁)) :
    Outcome c r ((ledgerRefusal r 0).or rest) answer ((entry.mapError .ledger >>= next) r₁) := by
  rw [ledgerRefusal, ← hledger]
  cases hscript : r₁.ledger.script 0 with
  | some e =>
    rw [Attempt.bind_of_error (Attempt.mapError_of_error (hrefused e hscript) _)]
    exact .stopped rfl hkept
  | none => exact h hscript

end Steps

theorem Outcome.of_issue {c : Creation} {r r₂ : Refusing} {obstacle : Option RegistryError}
    {answer : Option Int} (h : (Command.create c).WellFormed) (hobstacle : obstacle = none)
    (hsupply : c.supply ≠ 0)
    (hfree : r.store.inner.records.get? (recordKey (Slug.ofName c.name)) = none)
    (hrecords : r₂.store.inner.records = r.store.inner.records.insert
      (recordKey (Slug.ofName c.name)) (Token.mk c.name c.supply c.creator).encode)
    (hscript : r₂.store.script 0 = r.store.script 2) (hledger : r₂.ledger = r.ledger)
    (halarms : r₂.log.alarms = r.log.alarms) (hconfig : r₂.config = r.config) :
    Outcome (.create c) r obstacle answer
      ((withCompensation RegistryError.message RegistryError.message
        ((credit c.creator (Coins.ofAmount c.name c.supply)).mapError .ledger)
        (remove (Slug.ofName c.name)) >>= fun _ => pure answer) r₂) := by
  have hsetback : setback r (.create c) = ledgerRefusal r 0 := if_neg hsupply
  have hinner : r₂.ledger.inner = r.ledger.inner := congrArg Scripted.inner hledger
  refine .of_compensated hobstacle ?_ ?_
  · intro hset
    rw [hsetback, ledgerRefusal, ← hledger, Option.map_eq_none_iff] at hset
    obtain ⟨b, hcredit, hshift⟩ := credit_passed hset h.sender c.name c.supply
    rw [hinner] at hshift
    exact ⟨⟨c.name, c.supply, c.creator⟩, _, Attempt.mapError_of_ok hcredit _, rfl, hrecords,
      hshift, halarms, hconfig⟩
  · intro e hset
    rw [hsetback, ledgerRefusal, ← hledger, Option.map_eq_some_iff] at hset
    obtain ⟨e, he, rfl⟩ := hset
    have hcredit := credit_refused he c.creator (Coins.ofAmount c.name c.supply)
    -- Undoing starts where the refused credit left off, with the third call on the store.
    refine ⟨_, Attempt.mapError_of_error hcredit _, ?_⟩
    intro line hline
    have halarms' : (Logged.write line (booked r₂ r₂.ledger.inner)).log.alarms = r.log.alarms :=
      (Log.alarms_append_of_ne hline _).trans halarms
    constructor
    · intro hundo
      rw [undoRefusal, Option.map_eq_none_iff] at hundo
      obtain ⟨r₃, hremove, hrecords', hledger', halarms'', hconfig'⟩ :=
        remove_passed (r := Logged.write line (booked r₂ r₂.ledger.inner)) (hscript.trans hundo)
          (Slug.ofName c.name)
      refine ⟨r₃, hremove, .of_eq ?_ ?_ (halarms''.trans halarms') (hconfig'.trans hconfig)⟩
      · refine hrecords'.trans ((congrArg (OrderedMap.erase · _) hrecords).trans ?_)
        exact OrderedMap.erase_insert _ hfree _
      · exact (congrArg Scripted.inner hledger').trans hinner
    · intro m hundo
      rw [undoRefusal, Option.map_eq_some_iff] at hundo
      obtain ⟨e', he', rfl⟩ := hundo
      exact ⟨_, _, remove_refused (r := Logged.write line (booked r₂ r₂.ledger.inner))
        (hscript.trans he') (Slug.ofName c.name), rfl, halarms', hconfig⟩

theorem create_outcome_of_free {r : Refusing} {c : Creation} (h : (Command.create c).WellFormed)
    (h0 : r.store.script 0 = none)
    (hfree : r.store.inner.records.contains (recordKey (Slug.ofName c.name)) = false)
    (h1 : r.store.script 1 = none) :
    Outcome (.create c) r ((obstacles r (.create c)).findSome? id) (some c.supply)
      (create c r) := by
  have hobstacle : (obstacles r (.create c)).findSome? id = none := by
    simp [obstacles, storeRefusal, h0, h1, taken, Command.slug, Command.name, hfree]
  have hcontains := contains_passed h0 (Slug.ofName c.name)
  rw [hfree] at hcontains
  have hcoin : ∀ r : Refusing, singleCoin c.name c.supply r = _ :=
    singleCoin_named h.name h.supply_nonneg
  obtain ⟨r₂, hput, hrecords, hscript, hledger, halarms, hconfig⟩ :=
    put_passed (r := stored r r.store.inner.records) h1 (Slug.ofName c.name)
      ⟨c.name, c.supply, c.creator⟩
  by_cases hzero : c.supply = 0
  · have hrun : create c r = (.ok (some c.supply), r₂) := by
      simp only [create, Attempt.bind_apply, hcontains, Bool.false_eq_true, if_false, hcoin, hput,
        Coins.ofAmount, if_pos hzero]
      rfl
    have hbooks : r₂.bare.ledger = r.bare.ledger := congrArg Scripted.inner hledger
    rw [hrun]
    refine .applied (t := ⟨c.name, c.supply, c.creator⟩) hobstacle (if_pos hzero)
      ⟨rfl, hrecords, ?_, halarms, hconfig⟩
    rw [hbooks]
    refine Balances.shift_refl _ ?_ _
    intro denom
    simp only [Command.issue, hzero, ite_self]
  · have hrun : create c r =
        (withCompensation RegistryError.message RegistryError.message
          ((credit c.creator (Coins.ofAmount c.name c.supply)).mapError .ledger)
          (remove (Slug.ofName c.name)) >>= fun _ => pure (some c.supply)) r₂ := by
      simp only [create, Attempt.bind_apply, hcontains, Bool.false_eq_true, if_false, hcoin, hput,
        Coins.ofAmount, if_neg hzero]
      rfl
    rw [hrun]
    exact .of_issue h hobstacle hzero (OrderedMap.get?_eq_none_of_contains hfree) hrecords
      (congrFun hscript 0) hledger halarms hconfig

theorem create_outcome {r : Refusing} {c : Creation} (h : (Command.create c).WellFormed) :
    Outcome (.create c) r ((obstacles r (.create c)).findSome? id) (some c.supply)
      (create c r) := by
  have hcoin : ∀ r : Refusing, singleCoin c.name c.supply r = _ :=
    singleCoin_named h.name h.supply_nonneg
  cases h0 : r.store.script 0 with
  | some e =>
    have hrun : create c r = (.error (.store e), stored r r.store.inner.records) :=
      Attempt.bind_of_error (contains_refused h0 (Slug.ofName c.name))
    rw [hrun]
    refine .stopped ?_ (kept_stored r)
    simp [obstacles, storeRefusal, h0]
  | none =>
    have hcontains := contains_passed h0 (Slug.ofName c.name)
    cases htaken : r.store.inner.records.contains (recordKey (Slug.ofName c.name)) with
    | true =>
      rw [htaken] at hcontains
      have hrun : create c r =
          (.error (.alreadyExists (Slug.ofName c.name)), stored r r.store.inner.records) := by
        simp only [create, Attempt.bind_apply, hcontains, if_true, Attempt.throw_apply]
      rw [hrun]
      refine .stopped ?_ (kept_stored r)
      simp [obstacles, storeRefusal, h0, taken, Command.slug, Command.name, htaken]
    | false =>
      rw [htaken] at hcontains
      cases h1 : r.store.script 1 with
      | some e =>
        have hput := put_refused (r := stored r r.store.inner.records) h1 (Slug.ofName c.name)
          ⟨c.name, c.supply, c.creator⟩
        have hrun : create c r =
            (.error (.store e), stored (stored r r.store.inner.records) r.store.inner.records) := by
          simp only [create, Attempt.bind_apply, hcontains, Bool.false_eq_true, if_false, hcoin,
            hput]
          rfl
        rw [hrun]
        refine .stopped ?_ (.of_eq rfl rfl rfl rfl)
        simp [obstacles, storeRefusal, h0, h1, taken, Command.slug, Command.name, htaken]
      | none => exact create_outcome_of_free h h0 htaken h1

theorem transfer_outcome (r : Refusing) (c : Transfer) :
    Outcome (.transfer c) r ((obstacles r (.transfer c)).findSome? id) none (transfer c r) := by
  rw [obstacles, List.findSome?_append]
  apply Outcome.of_gate
  intro t htoken
  cases h1 : r.store.script 1 with
  | some e =>
    have hput := put_refused (r := stored r r.store.inner.records) h1 (Slug.ofName c.name)
      { t with owner := c.newOwner }
    rw [Attempt.bind_of_error hput]
    refine .stopped ?_ (.of_eq rfl rfl rfl rfl)
    simp [storeRefusal, h1]
  | none =>
    obtain ⟨r₂, hput, hrecords, -, hledger, halarms, hconfig⟩ :=
      put_passed (r := stored r r.store.inner.records) h1 (Slug.ofName c.name)
        { t with owner := c.newOwner }
    have hbooks : r₂.bare.ledger = r.bare.ledger := congrArg Scripted.inner hledger
    rw [Attempt.bind_of_ok hput]
    refine .applied ?_ rfl ⟨congrArg (Option.map _) htoken, hrecords, ?_, halarms, hconfig⟩
    · simp [storeRefusal, h1]
    · rw [hbooks]
      exact Balances.shift_refl _ (fun denom => ite_self _) _

theorem Outcome.of_put {α : Type} {c : Command} {r : Refusing} {obstacle : Option RegistryError}
    {answer : α} {b : Balances} {t : Token}
    {undo : Attempt LedgerError Refusing Unit} (hobstacle : obstacle = none)
    (hsetback : setback r c = storeRefusal r 1)
    (hundoRefusal : undoRefusal r c = (r.ledger.script 1).map LedgerError.message)
    (hsettled : c.settle (r.store.inner.records.token? c.slug) = some t)
    (hbooks : Balances.Shift c.sender (fun denom => if denom = t.name then c.issue else 0)
      r.ledger.inner b)
    (hrefused : ∀ (r' : Refusing) e, r'.ledger.script 0 = some e →
      undo r' = (.error e, booked r' r'.ledger.inner))
    (hpassed : ∀ r' : Refusing, r'.ledger.inner = b → r'.ledger.script 0 = none →
      ∃ b', undo r' = (.ok (), booked r' b') ∧
        Balances.Shift c.sender (fun denom => if denom = t.name then -c.issue else 0) b b') :
    Outcome c r obstacle answer
      ((withCompensation RegistryError.message LedgerError.message (put c.slug t) undo >>= fun _ =>
        pure answer) (booked (stored r r.store.inner.records) b)) := by
  refine .of_compensated hobstacle ?_ ?_
  · intro hset
    rw [hsetback, storeRefusal, Option.map_eq_none_iff] at hset
    obtain ⟨r₂, hput, hrecords, -, hledger, halarms, hconfig⟩ :=
      put_passed (r := booked (stored r r.store.inner.records) b) hset c.slug t
    have hbooks' : r₂.bare.ledger = b := congrArg Scripted.inner hledger
    exact ⟨t, r₂, hput, hsettled, hrecords, by rw [hbooks']; exact hbooks, halarms, hconfig⟩
  · intro e hset
    rw [hsetback, storeRefusal, Option.map_eq_some_iff] at hset
    obtain ⟨e, he, rfl⟩ := hset
    refine ⟨_, put_refused (r := booked (stored r r.store.inner.records) b) he c.slug t, ?_⟩
    intro line hline
    have halarms := Log.alarms_append_of_ne hline r.log
    constructor
    · intro hundo
      rw [hundoRefusal, Option.map_eq_none_iff] at hundo
      obtain ⟨b', hrun, hshift⟩ := hpassed (Logged.write line
        (stored (booked (stored r r.store.inner.records) b) r.store.inner.records)) rfl hundo
      refine ⟨_, hrun, .of_shift rfl (hbooks.trans hshift) ?_ halarms rfl⟩
      intro denom
      split
      · exact Int.add_right_neg _
      · rfl
    · intro m hundo
      rw [hundoRefusal, Option.map_eq_some_iff] at hundo
      obtain ⟨e', he', rfl⟩ := hundo
      exact ⟨e', _, hrefused _ e' he', rfl, halarms, rfl⟩

theorem mint_outcome {r : Refusing} (hr : r.ledger.inner.NonNegative) {c : Minting}
    (h : (Command.mint c).WellFormed) :
    Outcome (.mint c) r ((obstacles r (.mint c)).findSome? id) (some c.amount) (mint c r) := by
  have hamount := Int.le_of_lt h.minted_pos
  rw [obstacles, List.findSome?_append]
  apply Outcome.of_gate
  intro t htoken
  have hsettled := congrArg (Command.mint c).settle htoken
  change r.store.inner.records.token? (Command.mint c).slug = some t at htoken
  rw [htoken, Option.bind_some, findSome?_cons_id, findSome?_cons_id]
  apply Outcome.of_coin hamount (kept_stored r)
  intro _
  refine .of_booking rfl (.of_eq rfl rfl rfl rfl) (fun e he => credit_refused he _ _) ?_
  intro hl
  obtain ⟨b, hcredit, hshift⟩ := credit_passed hl (a := c.owner) h.sender t.name c.amount
  rw [Attempt.bind_of_ok (Attempt.mapError_of_ok hcredit _)]
  refine .of_put rfl rfl rfl hsettled hshift (fun r' e he => debit_refused he _ _) ?_
  intro r' hb hnone
  -- What was credited just before is there to be debited.
  have hcovered : c.amount ≤ r'.ledger.inner.balance c.owner t.name := by
    have hbefore := hr c.owner t.name
    have hafter := hshift.balance c.owner t.name
    rw [hb, hafter, if_pos rfl, if_pos rfl]
    exact Int.le_add_of_nonneg_left hbefore
  rw [← hb]
  exact debit_passed hnone hamount hcovered

theorem burn_outcome {r : Refusing} {c : Burning} (h : (Command.burn c).WellFormed) :
    Outcome (.burn c) r ((obstacles r (.burn c)).findSome? id) (some c.amount) (burn c r) := by
  have hamount := h.burned_pos
  rw [obstacles, List.findSome?_append]
  apply Outcome.of_gate
  intro t htoken
  have hsettled := congrArg (Command.burn c).settle htoken
  change r.store.inner.records.token? (Command.burn c).slug = some t at htoken
  simp only [htoken, Option.bind_some, findSome?_cons_id]
  apply Outcome.of_coin (Int.le_of_lt hamount) (kept_stored r)
  intro _
  refine .of_booking rfl (.of_eq rfl rfl rfl rfl) (fun e he => debit_refused he _ _) ?_
  intro hl
  by_cases hlt : r.ledger.inner.balance c.owner t.name < c.amount
  · have hdebit := debit_uncovered (r := stored r r.store.inner.records) hl hamount hlt
    rw [uncovered, if_pos hlt, Attempt.bind_of_error (Attempt.mapError_of_error hdebit _)]
    exact .stopped rfl (.of_eq rfl rfl rfl rfl)
  · obtain ⟨b, hdebit, hshift⟩ := debit_passed (r := stored r r.store.inner.records) hl
      (Int.le_of_lt hamount) (Int.not_lt.mp hlt)
    rw [uncovered, if_neg hlt, Attempt.bind_of_ok (Attempt.mapError_of_ok hdebit _)]
    refine .of_put rfl rfl rfl hsettled hshift (fun r' e he => credit_refused he _ _) ?_
    intro r' hb hnone
    obtain ⟨b', hcredit, hback⟩ := credit_passed hnone h.sender t.name c.amount
    rw [hb] at hback
    refine ⟨b', hcredit, hback.congr ?_⟩
    intro denom
    rw [Command.issue, Int.neg_neg]

theorem apply_outcome {r : Refusing} (hr : r.ledger.inner.NonNegative) {c : Command}
    (h : c.WellFormed) :
    Outcome c r ((obstacles r c).findSome? id) c.amount? (apply c r) := by
  cases c with
  | create c => exact create_outcome h
  | transfer c => exact transfer_outcome r c
  | mint c => exact mint_outcome hr h
  | burn c => exact burn_outcome h

def invalid (c : Command) : Option RegistryError := c.complaints.head?.map .validation

def firstObstacle (r : Refusing) (c : Command) : Option RegistryError :=
  (invalid c :: obstacles r c).findSome? id

section Answers

variable {σ τ : Type} [Store σ] [Ledger τ] {c : Command} {r r' : Registry σ τ}

theorem execute_of_invalid {e : Complaint} (h : c.validate = .error e) (r : Registry σ τ) :
    execute c r = (.error (.validation e), Logged.write ⟨.warn, .module r.config.moduleName,
      s!"rejected {c.kind.action}: {(RegistryError.validation e).message}"⟩ r) := by
  rw [execute, h]
  rfl

theorem execute_of_apply_error (h : c.validate = .ok ()) {e : RegistryError}
    (hrun : apply c r = (.error e, r')) :
    execute c r = (.error e, Logged.write ⟨.warn, .module r'.config.moduleName,
      s!"{c.kind.action} on `{c.name}` failed: {e.message}"⟩ r') := by
  rw [execute, h]
  simp only [Attempt.bind_apply, Attempt.outcome, hrun]
  rfl

theorem execute_of_apply_ok (h : c.validate = .ok ()) {amount : Option Int}
    (hrun : apply c r = (.ok amount, r')) :
    execute c r = (.ok ⟨[eventOf r'.config c.kind c.sender amount]⟩,
      Logged.write ⟨.info, .module r'.config.moduleName,
        (eventOf r'.config c.kind c.sender amount).text⟩ r') := by
  rw [execute, h]
  simp only [Attempt.bind_apply, Attempt.outcome, hrun]
  rfl

end Answers

theorem execute_outcome {r : Refusing} (hr : r.ledger.inner.NonNegative) (c : Command) :
    Outcome c r (firstObstacle r c) (c.receipt r.config) (execute c r) := by
  cases hv : c.validate with
  | error complaint =>
    have hfirst : firstObstacle r c = some (.validation complaint) := by
      rw [Command.validate_eq_report] at hv
      cases hc : c.complaints with
      | nil =>
        rw [hc] at hv
        cases hv
      | cons e es =>
        rw [hc] at hv
        cases hv
        simp [firstObstacle, invalid, hc]
    rw [execute_of_invalid hv]
    exact .stopped hfirst (Kept.write (.of_eq rfl rfl rfl rfl) Log.Level.noConfusion)
  | ok _ =>
    have hvalid := Command.wellFormed_of_complaints (Command.complaints_of_validate hv)
    have hfirst : firstObstacle r c = (obstacles r c).findSome? id := by
      rw [firstObstacle, invalid, Command.complaints_of_validate hv]
      rfl
    have happly := apply_outcome hr hvalid
    rw [hfirst]
    generalize hout : apply c r = out at happly
    cases happly with
    | stopped hobstacle hkept =>
      rw [execute_of_apply_error hv hout]
      exact .stopped hobstacle (hkept.write Log.Level.noConfusion)
    | @applied t r' hobstacle hsetback happlied =>
      have hconfig : r'.config = r.config := happlied.config
      rw [execute_of_apply_ok hv hout, ← hconfig]
      exact .applied hobstacle hsetback ⟨happlied.settled, happlied.records, happlied.books,
        (Log.alarms_append_of_ne Log.Level.noConfusion _).trans happlied.alarms, hconfig⟩
    | undone hobstacle hsetback hundo hkept =>
      rw [execute_of_apply_error hv hout]
      exact .undone hobstacle hsetback hundo (hkept.write Log.Level.noConfusion)
    | stuck hobstacle hsetback hundo halarms hconfig =>
      rw [execute_of_apply_error hv hout]
      exact .stuck hobstacle hsetback hundo
        ((Log.alarms_append_of_ne Log.Level.noConfusion _).trans halarms) hconfig

end Registry

end TokenRegistry
