import TokenRegistry.Proofs.Registry.Effect
import TokenRegistry.Proofs.Watched

/-!
# Errors of the client come before any change

A command looks before it acts. While it looks, it can fail for reasons that its sender
can mend; once it has begun to change the store or the ledger, every failure is one of
these parts, and stays so behind a compensation. Hence a command that is handed back to
its sender has called nothing that changes either part, whatever the parts make of the
calls that ask them.
-/
namespace TokenRegistry.Registry

variable {σ τ ε α β : Type}

/-- The calls so far that were made to change the store or the ledger. -/
def changes (r : Observed σ τ) : List StoreCall × List LedgerCall :=
  (r.store.calls.filter StoreCall.isWrite, r.ledger.calls)

/-- The attempt makes no call that is to change a part. -/
def Asks (x : Attempt ε (Observed σ τ) α) : Prop := ∀ r, changes (x r).2 = changes r

/-- No failure of the attempt is one that the client can mend. -/
def Unmendable (x : RegistryM σ τ α) : Prop := ∀ r e, (x r).1 = .error e → e.isClient = false

/-- Where the attempt fails for the client to mend, it has only asked. -/
def Cautious (x : Attempt RegistryError (Observed σ τ) α) : Prop :=
  ∀ r e, (x r).1 = .error e → e.isClient = true → changes (x r).2 = changes r

theorem Asks.cautious {x : Attempt RegistryError (Observed σ τ) α} (h : Asks x) : Cautious x :=
  fun r _ _ _ => h r

theorem Unmendable.cautious {x : Attempt RegistryError (Observed σ τ) α} (h : Unmendable x) :
    Cautious x := by
  intro r e herror hclient
  rw [h r e herror] at hclient
  cases hclient

theorem asks_pure (a : α) : Asks (pure a : Attempt ε (Observed σ τ) α) := fun _ => rfl

theorem asks_throw (e : ε) : Asks (throw e : Attempt ε (Observed σ τ) α) := fun _ => rfl

theorem asks_note (level : Log.Level) (text : String) :
    Asks (note level text : Attempt RegistryError (Observed σ τ) Unit) := fun _ => rfl

theorem Asks.bind {x : Attempt ε (Observed σ τ) α} {f : α → Attempt ε (Observed σ τ) β}
    (h : Asks x) (hf : ∀ a, Asks (f a)) : Asks (x >>= f) := by
  intro r
  have hx := h r
  rcases x.run_cases r with ⟨a, r', hrun⟩ | ⟨e, r', hrun⟩
  · rw [hrun] at hx
    rw [Attempt.bind_of_ok hrun, hf a r', hx]
  · rw [hrun] at hx
    rw [Attempt.bind_of_error hrun, hx]

theorem Asks.bind_cautious {x : Attempt RegistryError (Observed σ τ) α}
    {f : α → Attempt RegistryError (Observed σ τ) β} (h : Asks x) (hf : ∀ a, Cautious (f a)) :
    Cautious (x >>= f) := by
  intro r e herror hclient
  have hx := h r
  rcases x.run_cases r with ⟨a, r', hrun⟩ | ⟨e', r', hrun⟩
  · rw [hrun] at hx
    rw [Attempt.bind_of_ok hrun] at herror ⊢
    rw [hf a r' e herror hclient, hx]
  · rw [hrun] at hx
    rw [Attempt.bind_of_error hrun, hx]

theorem unmendable_pure (a : α) : Unmendable (pure a : RegistryM σ τ α) := fun _ _ h => nomatch h

theorem unmendable_note (level : Log.Level) (text : String) :
    Unmendable (note level text : RegistryM σ τ Unit) := fun _ _ h => nomatch h

theorem Unmendable.bind {x : RegistryM σ τ α} {f : α → RegistryM σ τ β} (h : Unmendable x)
    (hf : ∀ a, Unmendable (f a)) : Unmendable (x >>= f) := by
  intro r e herror
  rcases x.run_cases r with ⟨a, r', hrun⟩ | ⟨e', r', hrun⟩
  · rw [Attempt.bind_of_ok hrun] at herror
    exact hf a r' e herror
  · have hx := h r e'
    rw [Attempt.bind_of_error hrun] at herror
    cases herror
    exact hx (congrArg Prod.fst hrun)

theorem isClient_of_mapError {f : ε → RegistryError} (hf : ∀ e, (f e).isClient = false)
    (answer : Except ε α) {e : RegistryError} (h : answer.mapError f = .error e) :
    e.isClient = false := by
  cases answer with
  | ok a => cases h
  | error e' =>
    cases h
    exact hf e'

theorem unmendable_onStore (x : Attempt StoreError σ α) :
    Unmendable (onStore x : RegistryM σ τ α) :=
  fun r _ h => isClient_of_mapError (fun _ => rfl) (x r.store).1 h

theorem unmendable_entry (entry : Attempt LedgerError (Registry σ τ) α) :
    Unmendable (entry.mapError .ledger) :=
  fun r _ h => isClient_of_mapError (fun _ => rfl) (entry r).1 h

theorem Unmendable.withCompensation {message : RegistryError → String} {undoMessage : ε → String}
    {action : RegistryM σ τ α} {undo : Attempt ε (Registry σ τ) Unit} (h : Unmendable action) :
    Unmendable (TokenRegistry.withCompensation message undoMessage action undo) := by
  intro r e herror
  rw [withCompensation_fst] at herror
  exact h r e herror

theorem asks_onStore {c : StoreCall} (hc : c.isWrite = false) (x : Attempt StoreError σ α) :
    Asks (onStore (Watched.call c x) : Attempt RegistryError (Observed σ τ) α) := by
  intro r
  have hcalls : (r.store.calls ++ [c]).filter StoreCall.isWrite =
      r.store.calls.filter StoreCall.isWrite := by
    rw [List.filter_append, List.filter_cons_of_neg (by simp [hc]), List.filter_nil,
      List.append_nil]
  exact congrArg (·, r.ledger.calls) hcalls

theorem asks_singleCoin (denom : String) (amount : Int) :
    Asks (singleCoin denom amount : Attempt RegistryError (Observed σ τ) Coins) := by
  unfold singleCoin
  cases Coins.single denom amount with
  | ok coins => exact asks_pure coins
  | error e => exact asks_throw _

section Records

variable [Store σ]

theorem asks_contains (slug : String) :
    Asks (contains slug : Attempt RegistryError (Observed σ τ) Bool) :=
  asks_onStore (c := .has (recordKey slug)) rfl (Store.has (recordKey slug))

theorem asks_find? (slug : String) :
    Asks (find? slug : Attempt RegistryError (Observed σ τ) (Option Token)) := by
  apply (asks_onStore (c := .get (recordKey slug)) rfl (Store.get (recordKey slug))).bind
  intro found
  cases found with
  | none => exact (asks_note _ _).bind fun _ => asks_pure none
  | some bytes =>
    cases hdecode : Token.decode bytes with
    | ok t =>
      simp only [hdecode]
      exact asks_pure (some t)
    | error e =>
      simp only [hdecode]
      exact asks_throw _

theorem asks_findOwned (slug : String) (sender : Address) :
    Asks (findOwned slug sender : Attempt RegistryError (Observed σ τ) Token) := by
  apply (asks_find? slug).bind
  intro found
  cases found with
  | none => exact asks_throw _
  | some t =>
    cases howned : t.isOwnedBy sender with
    | true =>
      simp only [howned, if_true]
      exact asks_pure t
    | false =>
      simp only [howned, Bool.false_eq_true, if_false]
      intro r
      rfl

theorem unmendable_put (slug : String) (t : Token) :
    Unmendable (put slug t : RegistryM σ τ Unit) :=
  (unmendable_onStore _).bind fun _ => unmendable_note _ _

theorem unmendable_reissue {entry undo : Attempt LedgerError (Registry σ τ) Unit} (slug : String)
    (t : Token) (answer : α) :
    Unmendable (do
      entry.mapError .ledger
      withCompensation RegistryError.message LedgerError.message (put slug t) undo
      return answer : RegistryM σ τ α) := by
  apply (unmendable_entry entry).bind
  intro _
  exact (unmendable_put slug t).withCompensation.bind fun _ => unmendable_pure answer

end Records

section Commands

variable [Store σ] [Slug.Spelling]

theorem cautious_transfer (c : Transfer) :
    Cautious (transfer c : Attempt RegistryError (Observed σ τ) (Option Int)) := by
  apply (asks_findOwned _ _).bind_cautious
  intro t
  exact ((unmendable_put _ _).bind fun _ => unmendable_pure _).cautious

variable [Ledger τ]

theorem cautious_create (c : Creation) :
    Cautious (create c : Attempt RegistryError (Observed σ τ) (Option Int)) := by
  apply (asks_contains _).bind_cautious
  intro taken
  cases taken with
  | true => exact (asks_throw (RegistryError.alreadyExists (Slug.ofName c.name))).cautious
  | false =>
    simp only [Bool.false_eq_true, if_false]
    apply (asks_singleCoin _ _).bind_cautious
    intro coins
    -- From here on there are changes, and what fails is the store or the ledger.
    apply Unmendable.cautious
    apply (unmendable_put _ _).bind
    intro _
    cases coins.isEmpty with
    | true => exact unmendable_pure _
    | false =>
      simp only [Bool.not_false, if_true]
      exact (unmendable_entry _).withCompensation.bind fun _ => unmendable_pure _

theorem cautious_mint (c : Minting) :
    Cautious (mint c : Attempt RegistryError (Observed σ τ) (Option Int)) := by
  apply (asks_findOwned _ _).bind_cautious
  intro t
  apply (asks_singleCoin _ _).bind_cautious
  intro coins
  exact (unmendable_reissue _ _ _).cautious

theorem cautious_burn (c : Burning) :
    Cautious (burn c : Attempt RegistryError (Observed σ τ) (Option Int)) := by
  apply (asks_findOwned _ _).bind_cautious
  intro t
  apply (asks_singleCoin _ _).bind_cautious
  intro coins
  exact (unmendable_reissue _ _ _).cautious

theorem cautious_apply (c : Command) :
    Cautious (apply c : Attempt RegistryError (Observed σ τ) (Option Int)) := by
  cases c with
  | create c => exact cautious_create c
  | transfer c => exact cautious_transfer c
  | mint c => exact cautious_mint c
  | burn c => exact cautious_burn c

theorem cautious_execute (c : Command) :
    Cautious (execute c : Attempt RegistryError (Observed σ τ) Receipt) := by
  intro r e herror hclient
  cases hvalid : c.validate with
  | error complaint =>
    rw [execute_of_invalid hvalid]
    rfl
  | ok _ =>
    have happly := cautious_apply c r
    rcases (apply c).run_cases r with ⟨amount, r', hrun⟩ | ⟨e', r', hrun⟩
    · rw [execute_of_apply_ok hvalid hrun] at herror
      cases herror
    · rw [execute_of_apply_error hvalid hrun] at herror ⊢
      cases herror
      rw [hrun] at happly
      exact happly e rfl hclient

/-- A command that fails for its sender to mend has called for no record to be set or deleted and
for no account to be credited or debited, not even in vain. -/
theorem clientError_before_changes (r : Registry σ τ) (c : Command) {e : RegistryError}
    (h : (execute c r).1 = .error e) (hclient : e.isClient = true) :
    execute c r = ((execute c r.observed).1, (execute c r.observed).2.unobserved) ∧
      (∀ call ∈ (execute c r.observed).2.store.calls, call.isWrite = false) ∧
      (execute c r.observed).2.ledger.calls = [] := by
  have hsame := execute_observed r c
  have herror : (execute c r.observed).1 = .error e := by rw [← h, hsame]
  have hquiet : changes (execute c r.observed).2 = ([], []) :=
    cautious_execute c r.observed e herror hclient
  rw [changes, Prod.mk.injEq, List.filter_eq_nil_iff] at hquiet
  obtain ⟨hstore, hledger⟩ := hquiet
  exact ⟨hsame, fun call hcall => Bool.eq_false_iff.mpr (hstore call hcall), hledger⟩

end Commands

structure Leaky where
  records : Records

instance : Store Leaky where
  get key s := (.ok (s.records.get? key), ⟨s.records.erase key⟩)
  set key value s := (.error (.other "late"), ⟨s.records.insert key value⟩)
  delete key s := (.error (.other "late"), ⟨s.records.erase key⟩)
  has key s := (.ok (s.records.contains key), ⟨s.records.erase key⟩)
  scan _ := []

def leaky : Registry Leaky Balances :=
  .ofParts ⟨(∅ : Records).insert (recordKey "ore") (Token.mk "Ore" 5 ⟨[1]⟩).encode⟩ .empty .standard

def trespass : Command := .burn ⟨⟨[2]⟩, "Ore", 1⟩

theorem clientError_before_changes_leaky :
    (execute trespass leaky).1 = .error (.notOwner "ore" "sand02") ∧
    (RegistryError.notOwner "ore" "sand02").isClient = true ∧
    execute trespass leaky =
      ((execute trespass leaky.observed).1, (execute trespass leaky.observed).2.unobserved) ∧
    (∀ call ∈ (execute trespass leaky.observed).2.store.calls, call.isWrite = false) ∧
    (execute trespass leaky.observed).2.ledger.calls = [] := by
  have herror : (execute trespass leaky).1 = .error (.notOwner "ore" "sand02") := by decide +kernel
  exact ⟨herror, rfl, clientError_before_changes leaky trespass herror rfl⟩

-- The owner gets past the questions, and then the failure is that of the store.
example : (execute (.mint ⟨⟨[1]⟩, "Ore", 1⟩) leaky).1 = .error (.store (.other "late")) ∧
    (execute (.mint ⟨⟨[1]⟩, "Ore", 1⟩) leaky.observed).2.ledger.calls =
      [.credit ⟨[1]⟩ ⟨[⟨"Ore", 1⟩]⟩, .debit ⟨[1]⟩ ⟨[⟨"Ore", 1⟩]⟩] := by
  decide +kernel

end TokenRegistry.Registry
