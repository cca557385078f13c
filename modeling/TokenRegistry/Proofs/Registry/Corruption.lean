import TokenRegistry.Proofs.Registry.Projection
import TokenRegistry.Proofs.Registry.Rewriting

/-!
# Records that do not decode

A record that is not that of a token takes its slot all the same. To a creation the
slot is taken, and to other commands the record is unreadable; neither touches it. In
no run does it lose a byte, whatever calls are refused on the way: what is written goes
to free slots and over records that have been read, and what is taken out again is a
record that was put into a free slot just before.
-/
namespace TokenRegistry.Registry

section Answers

variable {σ τ : Type} [Store σ] [Ledger τ] [Slug.Spelling] {r : Registry σ τ} {rs : Records}
  {bytes : Bytes} {fault : Token.RecordFault}

/-- What a command is told of a record in its slot that does not decode. -/
def slotError (c : Command) (fault : Token.RecordFault) : RegistryError :=
  if c.kind = .create then .alreadyExists c.slug else .codec c.slug (.record fault)

theorem apply_of_undecodable (h : Reads r.store rs) {c : Command}
    (hget : rs.get? (recordKey c.slug) = some bytes) (hdecode : Token.decode bytes = .error fault) :
    apply c r = (.error (slotError c fault), r) := by
  have hfind := find?_of_decode_error h hget hdecode
  cases c with
  | create c =>
    have hcontains := contains_of_reads h (Slug.ofName c.name)
    have htaken : rs.contains (recordKey (Slug.ofName c.name)) = true := by
      rw [OrderedMap.contains]
      exact congrArg Option.isSome hget
    rw [htaken] at hcontains
    exact Attempt.bind_of_ok hcontains
  | transfer c => exact Attempt.bind_of_error (Attempt.bind_of_error hfind)
  | mint c => exact Attempt.bind_of_error (Attempt.bind_of_error hfind)
  | burn c => exact Attempt.bind_of_error (Attempt.bind_of_error hfind)

theorem execute_of_undecodable (h : Reads r.store rs) {c : Command} (hvalid : c.validate = .ok ())
    (hget : rs.get? (recordKey c.slug) = some bytes) (hdecode : Token.decode bytes = .error fault) :
    (execute c r).1 = .error (slotError c fault) ∧ (execute c r).2.store = r.store ∧
      (execute c r).2.ledger = r.ledger := by
  rw [execute_of_apply_error hvalid (apply_of_undecodable h hget hdecode)]
  exact ⟨rfl, rfl, rfl⟩

end Answers

section Runs

variable {σ τ : Type} [Store σ] [Ledger τ] [Slug.Spelling] {key bytes : Bytes}
  {fault : Token.RecordFault}

theorem Rewrites.undecodable {c : Command} {rs rs' : Records} (h : Rewrites c rs rs')
    (hget : rs.get? key = some bytes) (hdecode : Token.decode bytes = .error fault) :
    rs'.get? key = some bytes := by
  cases h with
  | kept => exact hget
  | @put t hsettled hfree =>
    by_cases hkey : key = recordKey c.slug
    · subst hkey
      have hnone : rs.token? c.slug = none := by
        rw [Records.token?, hget, Option.bind_some, hdecode]
        rfl
      rw [hnone] at hsettled
      cases c with
      | create c =>
        rw [hfree rfl] at hget
        cases hget
      | transfer c => cases hsettled
      | mint c => cases hsettled
      | burn c => cases hsettled
    · rw [OrderedMap.get?_insert, if_neg hkey]
      exact hget

theorem undecodable_after (S : Faithful σ) {r : Registry σ τ}
    (hget : (recordsOf S r).get? key = some bytes) (hdecode : Token.decode bytes = .error fault)
    (cs : List Command) : (recordsOf S (after r cs)).get? key = some bytes := by
  induction cs generalizing r with
  | nil => exact hget
  | cons c cs ih =>
    apply ih
    rcases execute_rewrites S r c with hkept | ⟨-, hrewrites⟩
    · rw [hkept]
      exact hget
    · exact hrewrites.undecodable hget hdecode

/-- What does not decode is neither free to be taken nor ever overwritten. -/
theorem undecodable_kept :
    (∀ (r : Registry OpenStore τ) (c : Command) (bytes : Bytes) (fault : Token.RecordFault),
      r.store.Readable → c.validate = .ok () →
      r.store.asMemory.records.get? (recordKey c.slug) = some bytes →
      Token.decode bytes = .error fault →
        (c.kind = .create → (execute c r).1 = .error (.alreadyExists c.slug)) ∧
        (c.kind ≠ .create → (execute c r).1 = .error (.codec c.slug (.record fault))) ∧
        (execute c r).2.store = r.store ∧ (execute c r).2.ledger = r.ledger) ∧
    ∀ (r : Registry (Scripted StoreError OpenStore) τ) (cs : List Command) (key bytes : Bytes)
      (fault : Token.RecordFault),
      r.store.inner.asMemory.records.get? key = some bytes → Token.decode bytes = .error fault →
        (after r cs).store.inner.asMemory.records.get? key = some bytes := by
  constructor
  · intro r c bytes fault hreadable hvalid hget hdecode
    obtain ⟨hanswer, hstore, hledger⟩ :=
      execute_of_undecodable hreadable.reads hvalid hget hdecode
    refine ⟨fun hkind => ?_, fun hkind => ?_, hstore, hledger⟩
    · rw [hanswer, slotError, if_pos hkind]
    · rw [hanswer, slotError, if_neg hkind]
  · intro r cs key bytes fault hget hdecode
    exact undecodable_after (Scripted.faithful OpenStore.faithful) hget hdecode cs

end Runs

def salvage : Registry OpenStore Balances := ⟨.memory ⟨damaged⟩, .empty, .standard, []⟩

def refusingSalvage (script : Nat → Option StoreError) :
    Registry (Scripted StoreError OpenStore) Balances :=
  ⟨⟨.memory ⟨damaged⟩, script⟩, .empty, .standard, []⟩

def forays : List Command :=
  [.create ⟨"Tin", 2, ⟨[2]⟩⟩, .mint ⟨⟨[1]⟩, "Ore", 4⟩, .burn ⟨⟨[2]⟩, "tin", 1⟩,
    .create ⟨"Lead", 3, ⟨[2]⟩⟩]

theorem undecodable_kept_salvage :
    (execute (.create ⟨"Tin", 2, ⟨[2]⟩⟩) salvage).1 = .error (.alreadyExists "tin") ∧
    (execute (.burn ⟨⟨[2]⟩, "tin", 1⟩) salvage).1 =
      .error (.codec "tin" (.record .endInLength)) ∧
    ∀ script, (after (refusingSalvage script) forays).store.inner.asMemory.records.get?
      (recordKey "tin") = some [0] := by
  obtain ⟨hslot, hrun⟩ := undecodable_kept (τ := Balances)
  have hget : damaged.get? (recordKey "tin") = some [0] := by decide +kernel
  have hdecode : Token.decode [0] = .error .endInLength := by decide +kernel
  obtain ⟨hcreate, -⟩ := hslot salvage (.create ⟨"Tin", 2, ⟨[2]⟩⟩) [0] _ trivial
    (by decide +kernel) hget hdecode
  obtain ⟨-, hburn, -⟩ := hslot salvage (.burn ⟨⟨[2]⟩, "tin", 1⟩) [0] _ trivial
    (by decide +kernel) hget hdecode
  refine ⟨hcreate rfl, hburn Command.Kind.noConfusion, fun script => ?_⟩
  exact hrun (refusingSalvage script) forays _ _ _ hget hdecode

end TokenRegistry.Registry
