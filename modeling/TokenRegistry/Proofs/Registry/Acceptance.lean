import TokenRegistry.Proofs.Registry.Effect

/-!
# When nothing is refused

On a registry in memory, whose parts refuse no call, a command is either rejected
without effect or accepted for what it is: a creation under a free slug, or a
command of the owner of a token, which for a burn holds what is to be destroyed.
-/
namespace TokenRegistry.Registry

def willing (r : InMemory) : Refusing :=
  image (Scripted.storeImage MemoryStore) (Scripted.ledgerImage Balances) r

theorem setback_willing (r : InMemory) (c : Command) : setback (willing r) c = none := by
  cases c with
  | create c => exact ite_self _
  | transfer c => rfl
  | mint c => rfl
  | burn c => rfl

theorem owner_of_foreign_eq_none {label slug : String} {sender : Address} {t : Token}
    (h : foreign label sender slug t = none) : t.owner = sender := by
  rw [foreign] at h
  split at h
  · assumption
  · cases h

variable [Slug.Spelling]

def objections (r : InMemory) (c : Command) : List (Option RegistryError) :=
  let rs := r.store.records
  let owned := [unreadable rs c.slug,
    (rs.token? c.slug).bind (foreign r.config.addressLabel c.sender c.slug)]
  invalid c :: match c with
    | .create _ => [taken rs c.slug]
    | .transfer _ => owned
    | .mint _ => owned ++ [(rs.token? c.slug).bind unnamed]
    | .burn b => owned ++ [(rs.token? c.slug).bind unnamed,
        (rs.token? c.slug).bind (uncovered r.ledger b.owner b.amount)]

theorem firstObstacle_willing (r : InMemory) (c : Command) :
    firstObstacle (willing r) c = (objections r c).findSome? id := by
  have hstore : ∀ n, storeRefusal (willing r) n = none := fun _ => rfl
  have hledger : ∀ n, ledgerRefusal (willing r) n = none := fun _ => rfl
  have hrecords : (willing r).store.inner.records = r.store.records := rfl
  have hbooks : (willing r).ledger.inner = r.ledger := rfl
  have hconfig : (willing r).config = r.config := rfl
  cases c with
  | create c => simp [firstObstacle, objections, List.findSome?_cons, obstacles, hstore, hrecords]
  | transfer c =>
    simp [firstObstacle, objections, List.findSome?_cons, obstacles, gate, hstore, hrecords,
      hconfig]
  | mint c =>
    simp [firstObstacle, objections, List.findSome?_cons, obstacles, gate, hstore, hledger,
      hrecords, hconfig]
  | burn c =>
    simp [firstObstacle, objections, List.findSome?_cons, obstacles, gate, hstore, hledger,
      hrecords, hconfig, hbooks]

theorem execute_inMemory {r : InMemory} (hr : r.ledger.NonNegative) (c : Command) :
    (∃ e, (objections r c).findSome? id = some e ∧ (execute c r).1 = .error e ∧
      Kept r (execute c r).2) ∨
    (∃ t, (objections r c).findSome? id = none ∧ (execute c r).1 = .ok (c.receipt r.config) ∧
      Applied c t r (execute c r).2) := by
  have hsimulated := (simulated_execute (Scripted.storeImage MemoryStore)
    (Scripted.ledgerImage Balances) c r ⟨trivial, trivial⟩).1
  have houtcome := execute_outcome (r := willing r) hr c
  rw [firstObstacle_willing] at houtcome
  change execute c (willing r) = (_, willing _) at hsimulated
  rw [hsimulated] at houtcome
  generalize (execute c r).1 = answer at houtcome
  generalize (execute c r).2 = r' at houtcome
  cases houtcome with
  | stopped hobstacle hkept => exact .inl ⟨_, hobstacle, rfl, hkept⟩
  | applied hobstacle hsetback happlied => exact .inr ⟨_, hobstacle, rfl, happlied⟩
  | undone hobstacle hsetback hundo hkept =>
    rw [setback_willing] at hsetback
    cases hsetback
  | stuck hobstacle hsetback hundo halarms hconfig =>
    rw [setback_willing] at hsetback
    cases hsetback

/-- The commands that are accepted, each with the token that it leaves. -/
inductive Accepts (r : InMemory) : Command → Token → Prop
  | create {c : Creation} (hsupply : 0 ≤ c.supply)
      (hfree : r.store.records.get? (recordKey (Slug.ofName c.name)) = none) :
      Accepts r (.create c) ⟨c.name, c.supply, c.creator⟩
  | transfer {c : Transfer} {t : Token}
      (htoken : r.store.records.token? (Slug.ofName c.name) = some t)
      (howner : t.owner = c.previousOwner) : Accepts r (.transfer c) { t with owner := c.newOwner }
  | mint {c : Minting} {t : Token} (hamount : 0 < c.amount)
      (htoken : r.store.records.token? (Slug.ofName c.name) = some t) (howner : t.owner = c.owner) :
      Accepts r (.mint c) { t with amount := t.amount + c.amount }
  | burn {c : Burning} {t : Token} (hamount : 0 < c.amount)
      (htoken : r.store.records.token? (Slug.ofName c.name) = some t) (howner : t.owner = c.owner)
      (hcovered : c.amount ≤ r.ledger.balance c.owner t.name) :
      Accepts r (.burn c) { t with amount := t.amount - c.amount }

theorem owner_of_objections {r : InMemory} {c : Command} {t : Token} (hkind : c.kind ≠ .create)
    (hnone : (objections r c).findSome? id = none)
    (htoken : r.store.records.token? c.slug = some t) : t.owner = c.sender := by
  have hmem : (r.store.records.token? c.slug).bind
      (foreign r.config.addressLabel c.sender c.slug) ∈ objections r c := by
    cases c with
    | create c => exact absurd rfl hkind
    | transfer c => exact List.mem_of_getElem? (i := 2) rfl
    | mint c => exact List.mem_of_getElem? (i := 2) rfl
    | burn c => exact List.mem_of_getElem? (i := 2) rfl
  have hforeign := List.findSome?_eq_none_iff.mp hnone _ hmem
  rw [htoken] at hforeign
  exact owner_of_foreign_eq_none hforeign

theorem accepts_of_objections {r : InMemory} {c : Command} {t : Token}
    (hnone : (objections r c).findSome? id = none)
    (hsettled : c.settle (r.store.records.token? c.slug) = some t) :
    c.WellFormed ∧ Accepts r c t := by
  have hall := List.findSome?_eq_none_iff.mp hnone
  have hwell : c.WellFormed := by
    have hinvalid := hall (invalid c) List.mem_cons_self
    exact Command.wellFormed_of_complaints
      (List.head?_eq_none_iff.mp (Option.map_eq_none_iff.mp hinvalid))
  refine ⟨hwell, ?_⟩
  cases c with
  | create c =>
    have hfree := hall (taken r.store.records (Slug.ofName c.name))
      (List.mem_cons_of_mem _ List.mem_cons_self)
    cases hsettled
    refine .create hwell.supply_nonneg ?_
    rw [id, taken] at hfree
    split at hfree
    · cases hfree
    · rename_i hcontains
      exact OrderedMap.get?_eq_none_of_contains (Bool.eq_false_iff.mpr hcontains)
  | transfer c =>
    obtain ⟨old, htoken, rfl⟩ := Option.map_eq_some_iff.mp hsettled
    exact .transfer htoken (owner_of_objections Command.Kind.noConfusion hnone htoken)
  | mint c =>
    obtain ⟨old, htoken, rfl⟩ := Option.map_eq_some_iff.mp hsettled
    have howner := owner_of_objections Command.Kind.noConfusion hnone htoken
    exact .mint hwell.minted_pos htoken howner
  | burn c =>
    obtain ⟨old, htoken, rfl⟩ := Option.map_eq_some_iff.mp hsettled
    have howner := owner_of_objections Command.Kind.noConfusion hnone htoken
    have huncovered := hall ((r.store.records.token? (Command.burn c).slug).bind
      (uncovered r.ledger c.owner c.amount)) (List.mem_of_getElem? (i := 4) rfl)
    rw [htoken, id, Option.bind_some, uncovered] at huncovered
    split at huncovered
    · cases huncovered
    · rename_i hcovered
      exact .burn hwell.burned_pos htoken howner (Int.not_lt.mp hcovered)

theorem execute_cases {r : InMemory} (hr : r.ledger.NonNegative) (c : Command) :
    (∃ e, (execute c r).1 = .error e ∧ Kept r (execute c r).2) ∨
    (∃ t, (execute c r).1 = .ok (c.receipt r.config) ∧ c.WellFormed ∧ Accepts r c t ∧
      Applied c t r (execute c r).2) := by
  rcases execute_inMemory hr c with ⟨e, -, herror, hkept⟩ | ⟨t, hnone, hok, happlied⟩
  · exact .inl ⟨e, herror, hkept⟩
  · obtain ⟨hwell, haccepts⟩ := accepts_of_objections hnone happlied.settled
    exact .inr ⟨t, hok, hwell, haccepts, happlied⟩

end TokenRegistry.Registry
