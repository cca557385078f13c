import TokenRegistry.Proofs.Registry.Effect
import TokenRegistry.Proofs.Store.Faithful

/-!
# What commands write

On a faithful store, whatever the ledger and whichever calls fail, a command writes at
most one record: that of the token which it leaves under its slug. It writes over no
record but one that it has read as that of a token, and where it creates, over none.
-/
namespace TokenRegistry.Registry

variable {σ τ α : Type} [Store σ]

def recordsOf (S : Faithful σ) (r : Registry σ τ) : Records := (S.image r.store).records

section Steps

variable (S : Faithful σ) (r : Registry σ τ)

theorem onStore_cases {x : Attempt StoreError σ α} {y : Attempt StoreError MemoryStore α}
    (h : Attempt.Follows S.image x y) :
    (∃ e r', onStore x r = (.error e, r') ∧ recordsOf S r' = recordsOf S r) ∨
    ∃ r', onStore x r = ((y (S.image r.store)).1.mapError .store, r') ∧
      recordsOf S r' = (y (S.image r.store)).2.records := by
  rcases h r.store with ⟨e, herror, hkept⟩ | hrun
  · have hfailed : onStore x r = (.error (.store e), { r with store := (x r.store).2 }) := by
      change ((x r.store).1.mapError _, _) = _
      rw [herror]
      rfl
    exact .inl ⟨_, _, hfailed, congrArg MemoryStore.records hkept⟩
  · rw [hrun]
    exact .inr ⟨_, rfl, rfl⟩

theorem contains_cases (slug : String) :
    ∃ r', recordsOf S r' = recordsOf S r ∧
      ((∃ e, contains slug r = (.error e, r')) ∨
        contains slug r = (.ok ((recordsOf S r).contains (recordKey slug)), r')) := by
  rcases onStore_cases S r (S.has (recordKey slug)) with ⟨e, r', hrun, hkept⟩ | ⟨r', hrun, hkept⟩
  · exact ⟨r', hkept, .inl ⟨e, hrun⟩⟩
  · exact ⟨r', hkept, .inr hrun⟩

theorem put_cases (slug : String) (t : Token) :
    (∃ e r', put slug t r = (.error e, r') ∧ recordsOf S r' = recordsOf S r) ∨
    ∃ r', put slug t r = (.ok (), r') ∧
      recordsOf S r' = (recordsOf S r).insert (recordKey slug) t.encode := by
  rcases onStore_cases S r (S.set (recordKey slug) t.encode) with
    ⟨e, r', hrun, hkept⟩ | ⟨r', hrun, hset⟩
  · exact .inl ⟨e, r', Attempt.bind_of_error hrun, hkept⟩
  · exact .inr ⟨_, Attempt.bind_of_ok hrun, hset⟩

theorem remove_cases (slug : String) :
    recordsOf S (remove slug r).2 = recordsOf S r ∨
      recordsOf S (remove slug r).2 = (recordsOf S r).erase (recordKey slug) := by
  rcases onStore_cases S r (S.delete (recordKey slug)) with
    ⟨e, r', hrun, hkept⟩ | ⟨r', hrun, hdelete⟩
  · rw [remove, Attempt.bind_of_error hrun]
    exact .inl hkept
  · rw [remove, Attempt.bind_of_ok hrun]
    exact .inr hdelete

theorem find?_cases (slug : String) :
    ∃ answer r', find? slug r = (answer, r') ∧ recordsOf S r' = recordsOf S r ∧
      ∀ t, answer = .ok (some t) → (recordsOf S r).token? slug = some t := by
  rcases onStore_cases S r (S.get (recordKey slug)) with ⟨e, r', hrun, hkept⟩ | ⟨r', hrun, hkept⟩
  · refine ⟨_, r', Attempt.bind_of_error hrun, hkept, ?_⟩
    intro t h
    cases h
  · change onStore _ r = (.ok ((recordsOf S r).get? (recordKey slug)), r') at hrun
    cases hget : (recordsOf S r).get? (recordKey slug) with
    | none =>
      rw [hget] at hrun
      refine ⟨_, _, Attempt.bind_of_ok hrun, hkept, ?_⟩
      intro t h
      cases h
    | some bytes =>
      rw [hget] at hrun
      rw [find?, Attempt.bind_of_ok hrun]
      cases hdecode : Token.decode bytes with
      | error e =>
        simp only [hdecode]
        refine ⟨_, _, rfl, hkept, ?_⟩
        intro t h
        cases h
      | ok t' =>
        simp only [hdecode]
        refine ⟨_, _, rfl, hkept, ?_⟩
        intro t heq
        cases heq
        rw [Records.token?, hget, Option.bind_some, hdecode]
        rfl

theorem findOwned_answers (slug : String) (sender : Address) :
    ∃ answer r', findOwned slug sender r = (answer, r') ∧ recordsOf S r' = recordsOf S r ∧
      ∀ t, answer = .ok t → (recordsOf S r).token? slug = some t := by
  obtain ⟨answer, r', hrun, hkept, htoken⟩ := find?_cases S r slug
  cases answer with
  | error e =>
    refine ⟨_, r', Attempt.bind_of_error hrun, hkept, ?_⟩
    intro t h
    cases h
  | ok found =>
    rw [findOwned, Attempt.bind_of_ok hrun]
    cases found with
    | none =>
      refine ⟨_, r', rfl, hkept, ?_⟩
      intro t h
      cases h
    | some t =>
      cases howned : t.isOwnedBy sender with
      | false =>
        simp only [howned, Bool.false_eq_true, if_false]
        refine ⟨_, r', rfl, hkept, ?_⟩
        intro t h
        cases h
      | true =>
        simp only [howned, if_true]
        refine ⟨_, r', rfl, hkept, ?_⟩
        intro t' heq
        cases heq
        exact htoken t rfl

end Steps

theorem withCompensation_cases {ε ε' κ β : Type} [Logged κ] {message : ε → String}
    {undoMessage : ε' → String} {action : Attempt ε κ α} {undo : Attempt ε' κ Unit} (view : κ → β)
    (hview : ∀ line s, view (Logged.write line s) = view s) (s : κ) :
    (∃ a s', action s = (.ok a, s') ∧
      view (withCompensation message undoMessage action undo s).2 = view s') ∨
    ∃ e s' s'', action s = (.error e, s') ∧ view s'' = view s' ∧
      view (withCompensation message undoMessage action undo s).2 = view (undo s'').2 := by
  rcases action.run_cases s with ⟨a, s', haction⟩ | ⟨e, s', haction⟩
  · rw [withCompensation_of_ok haction]
    exact .inl ⟨a, s', haction, rfl⟩
  · refine .inr ⟨e, s', _, haction, hview (failureLine (message e)) s', ?_⟩
    rcases undo.run_cases (Logged.write (failureLine (message e)) s') with
      ⟨_, s'', hundo⟩ | ⟨e', s'', hundo⟩
    · rw [withCompensation_undone haction hundo, hundo]
    · rw [withCompensation_stuck haction hundo, hundo]
      exact hview _ s''

theorem bind_pure_snd {ε κ β : Type} (x : Attempt ε κ α) (b : β) (s : κ) :
    ((x >>= fun _ => pure b) s).2 = (x s).2 := by
  rcases x.run_cases s with ⟨a, s', hrun⟩ | ⟨e, s', hrun⟩
  · rw [Attempt.bind_of_ok hrun, Attempt.pure_apply, hrun]
  · rw [Attempt.bind_of_error hrun, hrun]

section Continuations

variable {S : Faithful σ} {r : Registry σ τ} {P : Records → Prop}

theorem of_findOwned {slug : String} {sender : Address} {next : Token → RegistryM σ τ α}
    (hkept : P (recordsOf S r))
    (h : ∀ t r', recordsOf S r' = recordsOf S r → (recordsOf S r).token? slug = some t →
      P (recordsOf S (next t r').2)) :
    P (recordsOf S ((findOwned slug sender >>= next) r).2) := by
  obtain ⟨answer, r', hrun, hrecords, htoken⟩ := findOwned_answers S r slug sender
  cases answer with
  | error e =>
    rw [Attempt.bind_of_error hrun, hrecords]
    exact hkept
  | ok t =>
    rw [Attempt.bind_of_ok hrun]
    exact h t r' hrecords (htoken t rfl)

theorem of_singleCoin {denom : String} {amount : Int} {next : Coins → RegistryM σ τ α}
    (hkept : P (recordsOf S r)) (h : ∀ coins, P (recordsOf S (next coins r).2)) :
    P (recordsOf S ((singleCoin denom amount >>= next) r).2) := by
  rw [singleCoin]
  cases Coins.single denom amount with
  | error e => exact hkept
  | ok coins => exact h coins

theorem of_entry {entry : Attempt LedgerError (Registry σ τ) Unit} {next : Unit → RegistryM σ τ α}
    (hentry : ∀ r, (entry r).2.store = r.store) (hkept : P (recordsOf S r))
    (h : ∀ r', recordsOf S r' = recordsOf S r → P (recordsOf S (next () r').2)) :
    P (recordsOf S ((entry.mapError .ledger >>= next) r).2) := by
  have hrecords : recordsOf S (entry r).2 = recordsOf S r :=
    congrArg (fun s => (S.image s).records) (hentry r)
  rcases entry.run_cases r with ⟨_, r', hrun⟩ | ⟨e, r', hrun⟩
  · rw [hrun] at hrecords
    rw [Attempt.bind_of_ok (Attempt.mapError_of_ok hrun _)]
    exact h r' hrecords
  · rw [hrun] at hrecords
    rw [Attempt.bind_of_error (Attempt.mapError_of_error hrun _), hrecords]
    exact hkept

theorem of_compensated_put {slug : String} {t : Token} {answer : α}
    {undo : Attempt LedgerError (Registry σ τ) Unit} (hundo : ∀ r, (undo r).2.store = r.store)
    (hkept : P (recordsOf S r)) (hput : P ((recordsOf S r).insert (recordKey slug) t.encode)) :
    P (recordsOf S ((withCompensation RegistryError.message LedgerError.message (put slug t) undo >>=
      fun _ => pure answer) r).2) := by
  rw [bind_pure_snd]
  rcases withCompensation_cases (recordsOf S) (fun _ _ => rfl) r with
    ⟨a, r', hrun, hview⟩ | ⟨e, r', r'', hrun, hsame, hview⟩
  · rw [hview]
    rcases put_cases S r slug t with ⟨e, r₁, hrun', -⟩ | ⟨r₁, hrun', hrecords⟩
    · cases hrun.symm.trans hrun'
    · cases hrun.symm.trans hrun'
      rw [hrecords]
      exact hput
  · have hback : recordsOf S (undo r'').2 = recordsOf S r'' :=
      congrArg (fun s => (S.image s).records) (hundo r'')
    rw [hview, hback, hsame]
    rcases put_cases S r slug t with ⟨e', r₁, hrun', hrecords⟩ | ⟨r₁, hrun', -⟩
    · cases hrun.symm.trans hrun'
      rw [hrecords]
      exact hkept
    · cases hrun.symm.trans hrun'

theorem of_compensated_entry {slug : String} {answer : α}
    {entry : Attempt LedgerError (Registry σ τ) Unit} (hentry : ∀ r, (entry r).2.store = r.store)
    (hkept : P (recordsOf S r)) (herased : P ((recordsOf S r).erase (recordKey slug))) :
    P (recordsOf S ((withCompensation RegistryError.message RegistryError.message
      (entry.mapError .ledger) (remove slug) >>= fun _ => pure answer) r).2) := by
  have hrecords : recordsOf S (entry.mapError RegistryError.ledger r).2 = recordsOf S r :=
    congrArg (fun s => (S.image s).records) (hentry r)
  rw [bind_pure_snd]
  rcases withCompensation_cases (recordsOf S) (fun _ _ => rfl) r with
    ⟨a, r', hrun, hview⟩ | ⟨e, r', r'', hrun, hsame, hview⟩
  · rw [hview]
    rw [hrun] at hrecords
    rw [hrecords]
    exact hkept
  · rw [hview]
    rw [hrun] at hrecords
    rcases remove_cases S r'' slug with hback | hback
    · rw [hback, hsame, hrecords]
      exact hkept
    · rw [hback, hsame, hrecords]
      exact herased

end Continuations

section Commands

variable [Ledger τ] [Slug.Spelling] (S : Faithful σ) (r : Registry σ τ)

/-- What may become of records: they stay, or the command leaves its token in its place. -/
inductive Rewrites (c : Command) (rs : Records) : Records → Prop
  | kept : Rewrites c rs rs
  | put {t : Token} (hsettled : c.settle (rs.token? c.slug) = some t)
      (hfree : c.kind = .create → rs.get? (recordKey c.slug) = none) :
      Rewrites c rs (rs.insert (recordKey c.slug) t.encode)

theorem create_rewrites (c : Creation) :
    Rewrites (.create c) (recordsOf S r) (recordsOf S (create c r).2) := by
  obtain ⟨r₁, hrecords₁, ⟨e, hrun⟩ | hrun⟩ := contains_cases S r (Slug.ofName c.name)
  · rw [create, Attempt.bind_of_error hrun, hrecords₁]
    exact .kept
  · rw [create, Attempt.bind_of_ok hrun]
    cases htaken : (recordsOf S r).contains (recordKey (Slug.ofName c.name)) with
    | true =>
      change Rewrites _ _ (recordsOf S r₁)
      rw [hrecords₁]
      exact .kept
    | false =>
      have hfree := OrderedMap.get?_eq_none_of_contains htaken
      simp only [Bool.false_eq_true, if_false]
      rw [← hrecords₁] at hfree ⊢
      apply of_singleCoin .kept
      intro coins
      rcases put_cases S r₁ (Slug.ofName c.name) ⟨c.name, c.supply, c.creator⟩ with
        ⟨e, r₂, hrun, hkept⟩ | ⟨r₂, hrun, hput⟩
      · rw [Attempt.bind_of_error hrun, hkept]
        exact .kept
      · have hnew : Rewrites (.create c) (recordsOf S r₁) (recordsOf S r₂) := by
          rw [hput]
          exact .put (c := .create c) rfl fun _ => hfree
        rw [Attempt.bind_of_ok hrun]
        cases coins.isEmpty with
        | true => exact hnew
        | false =>
          simp only [Bool.not_false, if_true]
          apply of_compensated_entry (fun _ => rfl) hnew
          -- The slot was free, so that taking the new record out again leaves no trace.
          rw [hput, OrderedMap.erase_insert _ hfree]
          exact .kept

omit [Ledger τ] in
theorem transfer_rewrites (c : Transfer) :
    Rewrites (.transfer c) (recordsOf S r) (recordsOf S (transfer c r).2) := by
  apply of_findOwned .kept
  intro t r₁ hrecords htoken
  rw [bind_pure_snd, ← hrecords]
  rw [← hrecords] at htoken
  rcases put_cases S r₁ (Slug.ofName c.name) { t with owner := c.newOwner } with
    ⟨e, r₂, hrun, hkept⟩ | ⟨r₂, hrun, hput⟩
  · rw [hrun, hkept]
    exact .kept
  · rw [hrun, hput]
    exact .put (c := .transfer c) (congrArg (Option.map _) htoken) Command.Kind.noConfusion

omit [Ledger τ] in
theorem reissue_rewrites {c : Command} {sender : Address} {amount : Int} {answer : Option Int}
    {next : Token → Token} {entry undo : Coins → Attempt LedgerError (Registry σ τ) Unit}
    (hentry : ∀ coins r, (entry coins r).2.store = r.store)
    (hundo : ∀ coins r, (undo coins r).2.store = r.store) (hkind : c.kind ≠ .create)
    (hsettle : ∀ t, c.settle (some t) = some (next t)) :
    Rewrites c (recordsOf S r) (recordsOf S ((do
      let t ← findOwned c.slug sender
      let coins ← singleCoin t.name amount
      (entry coins).mapError .ledger
      withCompensation RegistryError.message LedgerError.message (put c.slug (next t)) (undo coins)
      return answer : RegistryM σ τ (Option Int)) r).2) := by
  apply of_findOwned .kept
  intro t r₁ hrecords htoken
  rw [← hrecords] at htoken ⊢
  apply of_singleCoin .kept
  intro coins
  apply of_entry (hentry coins) .kept
  intro r₂ hrecords₂
  rw [← hrecords₂] at htoken ⊢
  apply of_compensated_put (hundo coins) .kept
  exact .put ((congrArg c.settle htoken).trans (hsettle t)) fun h => absurd h hkind

theorem mint_rewrites (c : Minting) :
    Rewrites (.mint c) (recordsOf S r) (recordsOf S (mint c r).2) :=
  reissue_rewrites S r (fun _ _ => rfl) (fun _ _ => rfl) Command.Kind.noConfusion fun _ => rfl

theorem burn_rewrites (c : Burning) :
    Rewrites (.burn c) (recordsOf S r) (recordsOf S (burn c r).2) :=
  reissue_rewrites S r (fun _ _ => rfl) (fun _ _ => rfl) Command.Kind.noConfusion fun _ => rfl

theorem apply_rewrites (c : Command) :
    Rewrites c (recordsOf S r) (recordsOf S (apply c r).2) := by
  cases c with
  | create c => exact create_rewrites S r c
  | transfer c => exact transfer_rewrites S r c
  | mint c => exact mint_rewrites S r c
  | burn c => exact burn_rewrites S r c

theorem execute_rewrites (c : Command) :
    recordsOf S (execute c r).2 = recordsOf S r ∨
      c.validate = .ok () ∧ Rewrites c (recordsOf S r) (recordsOf S (execute c r).2) := by
  cases hvalid : c.validate with
  | error e =>
    rw [execute_of_invalid hvalid]
    exact .inl rfl
  | ok _ =>
    have happly := apply_rewrites S r c
    rcases (apply c).run_cases r with ⟨amount, r', hrun⟩ | ⟨e, r', hrun⟩
    · rw [hrun] at happly
      rw [execute_of_apply_ok hvalid hrun]
      exact .inr ⟨rfl, happly⟩
    · rw [hrun] at happly
      rw [execute_of_apply_error hvalid hrun]
      exact .inr ⟨rfl, happly⟩

end Commands

end TokenRegistry.Registry
