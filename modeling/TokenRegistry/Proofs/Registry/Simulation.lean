import TokenRegistry.Proofs.Attempt
import TokenRegistry.Registry.Command
import TokenRegistry.Registry.Genesis

/-!
# Commands see a store and a ledger only through their answers

A store is simulated by another if every call on one is simulated by the call on the
other, and likewise a ledger. Commands on a registry are then simulated by the
commands on the registry with the simulating parts.
-/
namespace TokenRegistry

open Attempt

/-- One kind of store seen as another, in its ready states. -/
structure StoreImage (σ σ' : Type) [Store σ] [Store σ'] where
  image : σ → σ'
  Ready : σ → Prop
  get (key : Bytes) : Simulated image Ready (Store.get key) (Store.get key)
  set (key value : Bytes) : Simulated image Ready (Store.set key value) (Store.set key value)
  delete (key : Bytes) : Simulated image Ready (Store.delete key) (Store.delete key)
  has (key : Bytes) : Simulated image Ready (Store.has key) (Store.has key)

structure LedgerImage (τ τ' : Type) [Ledger τ] [Ledger τ'] where
  image : τ → τ'
  Ready : τ → Prop
  credit (a : Address) (coins : Coins) :
    Simulated image Ready (Ledger.credit a coins) (Ledger.credit a coins)
  debit (a : Address) (coins : Coins) :
    Simulated image Ready (Ledger.debit a coins) (Ledger.debit a coins)

def LedgerImage.same (τ : Type) [Ledger τ] : LedgerImage τ τ :=
  ⟨id, fun _ => True, fun _ _ _ _ => ⟨rfl, trivial⟩, fun _ _ _ _ => ⟨rfl, trivial⟩⟩

namespace Registry

section Image

variable {σ σ' τ τ' α : Type} [Store σ] [Store σ'] [Ledger τ] [Ledger τ']
  (S : StoreImage σ σ') (L : LedgerImage τ τ')

def image (r : Registry σ τ) : Registry σ' τ' :=
  ⟨S.image r.store, L.image r.ledger, r.config, r.log⟩

def Ready (r : Registry σ τ) : Prop := S.Ready r.store ∧ L.Ready r.ledger

theorem image_write (line : Log.Line) (r : Registry σ τ) (h : Ready S L r) :
    image S L (Logged.write line r) = Logged.write line (image S L r) ∧
      Ready S L (Logged.write line r) := ⟨rfl, h⟩

theorem simulated_note (level : Log.Level) (text : String) :
    Simulated (image S L) (Ready S L) (note level text) (note level text) := fun _ h => ⟨rfl, h⟩

theorem simulated_onStore {x : Attempt StoreError σ α} {y : Attempt StoreError σ' α}
    (h : Simulated S.image S.Ready x y) :
    Simulated (image S L) (Ready S L) (onStore x) (onStore y) := by
  intro r hr
  obtain ⟨heq, hready⟩ := h r.store hr.1
  refine ⟨?_, hready, hr.2⟩
  change (_, Registry.mk (y (S.image r.store)).2 _ _ _) = _
  change ((y (S.image r.store)).1.mapError _, _) = _
  rw [heq]
  rfl

theorem simulated_onLedger {x : Attempt LedgerError τ α} {y : Attempt LedgerError τ' α}
    (h : Simulated L.image L.Ready x y) :
    Simulated (image S L) (Ready S L) (onLedger x) (onLedger y) := by
  intro r hr
  obtain ⟨heq, hready⟩ := h r.ledger hr.2
  refine ⟨?_, hr.1, hready⟩
  change ((y (L.image r.ledger)).1, Registry.mk _ (y (L.image r.ledger)).2 _ _) = _
  rw [heq]
  rfl

theorem simulated_credit (a : Address) (coins : Coins) :
    Simulated (image S L) (Ready S L) (credit a coins) (credit a coins) :=
  simulated_onLedger S L (L.credit a coins)

theorem simulated_debit (a : Address) (coins : Coins) :
    Simulated (image S L) (Ready S L) (debit a coins) (debit a coins) :=
  simulated_onLedger S L (L.debit a coins)

theorem simulated_contains (slug : String) :
    Simulated (image S L) (Ready S L) (contains slug) (contains slug) :=
  simulated_onStore S L (S.has _)

theorem simulated_put (slug : String) (t : Token) :
    Simulated (image S L) (Ready S L) (put slug t) (put slug t) :=
  (simulated_onStore S L (S.set _ _)).bind fun _ => simulated_note S L _ _

theorem simulated_remove (slug : String) :
    Simulated (image S L) (Ready S L) (remove slug) (remove slug) :=
  (simulated_onStore S L (S.delete _)).bind fun _ => simulated_note S L _ _

theorem simulated_find? (slug : String) :
    Simulated (image S L) (Ready S L) (find? slug) (find? slug) := by
  apply (simulated_onStore S L (S.get _)).bind
  intro bytes
  cases bytes with
  | none => exact (simulated_note S L _ _).bind fun _ => simulated_pure none
  | some bytes =>
    cases hd : Token.decode bytes with
    | ok t =>
      simp only [hd]
      exact simulated_pure (some t)
    | error e =>
      simp only [hd]
      exact simulated_throw _

theorem simulated_findOwned (slug : String) (sender : Address) :
    Simulated (image S L) (Ready S L) (findOwned slug sender) (findOwned slug sender) := by
  apply (simulated_find? S L slug).bind
  intro found
  cases found with
  | none => exact simulated_throw _
  | some t =>
    cases howned : t.isOwnedBy sender with
    | true =>
      simp only [howned, if_true]
      exact simulated_pure t
    | false =>
      simp only [howned, Bool.false_eq_true, if_false]
      exact simulated_state_bind fun _ _ => simulated_throw _

theorem simulated_singleCoin (denom : String) (amount : Int) :
    Simulated (image S L) (Ready S L) (singleCoin denom amount) (singleCoin denom amount) := by
  unfold singleCoin
  cases Coins.single denom amount with
  | ok coins => exact simulated_pure coins
  | error e => exact simulated_throw _

theorem simulated_reject (e : RegistryError) (line : String) :
    Simulated (image S L) (Ready S L) (reject (α := α) e line) (reject e line) :=
  (simulated_note S L _ _).bind fun _ => simulated_throw _

variable [Slug.Spelling]

theorem simulated_create (c : Creation) :
    Simulated (image S L) (Ready S L) (create c) (create c) := by
  apply (simulated_contains S L _).bind
  intro taken
  cases taken with
  | true => exact simulated_throw (RegistryError.alreadyExists (Slug.ofName c.name))
  | false =>
    simp only [Bool.false_eq_true, if_false]
    apply (simulated_singleCoin S L _ _).bind
    intro coins
    apply (simulated_put S L _ _).bind
    intro _
    cases coins.isEmpty with
    | true => exact simulated_pure _
    | false =>
      simp only [Bool.not_false, if_true]
      refine Simulated.bind ?_ fun _ => simulated_pure _
      exact ((simulated_credit S L _ _).mapError _).withCompensation (image_write S L)
        (simulated_remove S L _)

theorem simulated_transfer (c : Transfer) :
    Simulated (image S L) (Ready S L) (transfer c) (transfer c) := by
  apply (simulated_findOwned S L _ _).bind
  intro t
  exact (simulated_put S L _ _).bind fun _ => simulated_pure _

theorem simulated_mint (c : Minting) :
    Simulated (image S L) (Ready S L) (mint c) (mint c) := by
  apply (simulated_findOwned S L _ _).bind
  intro t
  apply (simulated_singleCoin S L _ _).bind
  intro coins
  apply ((simulated_credit S L _ _).mapError _).bind
  intro _
  refine Simulated.bind ?_ fun _ => simulated_pure _
  exact (simulated_put S L _ _).withCompensation (image_write S L) (simulated_debit S L _ _)

theorem simulated_burn (c : Burning) :
    Simulated (image S L) (Ready S L) (burn c) (burn c) := by
  apply (simulated_findOwned S L _ _).bind
  intro t
  apply (simulated_singleCoin S L _ _).bind
  intro coins
  apply ((simulated_debit S L _ _).mapError _).bind
  intro _
  refine Simulated.bind ?_ fun _ => simulated_pure _
  exact (simulated_put S L _ _).withCompensation (image_write S L) (simulated_credit S L _ _)

theorem simulated_apply (c : Command) :
    Simulated (image S L) (Ready S L) (apply c) (apply c) := by
  cases c with
  | create c => exact simulated_create S L c
  | transfer c => exact simulated_transfer S L c
  | mint c => exact simulated_mint S L c
  | burn c => exact simulated_burn S L c

theorem simulated_execute (c : Command) :
    Simulated (image S L) (Ready S L) (execute c) (execute c) := by
  unfold execute
  cases c.validate with
  | error complaint => exact simulated_reject S L _ _
  | ok _ =>
    apply (simulated_apply S L c).outcome.bind
    intro answer
    cases answer with
    | error e => exact simulated_reject S L _ _
    | ok amount =>
      apply simulated_state_bind
      intro r _
      exact (simulated_note S L _ _).bind fun _ => simulated_pure _

theorem simulated_putAll (ts : List Token) :
    Simulated (image S L) (Ready S L) (putAll ts) (putAll ts) := by
  induction ts with
  | nil => exact simulated_pure ()
  | cons t ts ih => exact (simulated_put S L t.slug t).bind fun _ => ih

theorem simulated_load (g : Genesis) :
    Simulated (image S L) (Ready S L) (load g) (load g) := by
  unfold load
  cases g.validate with
  | error e => exact simulated_throw e
  | ok _ => exact (simulated_putAll S L g.tokens).bind fun _ => simulated_note S L _ _

def after (r : Registry σ τ) (cs : List Command) : Registry σ τ :=
  cs.foldl (fun r c => (execute c r).2) r

theorem image_after {r : Registry σ τ} (h : Ready S L r) (cs : List Command) :
    after (image S L r) cs = image S L (after r cs) ∧ Ready S L (after r cs) := by
  induction cs generalizing r with
  | nil => exact ⟨rfl, h⟩
  | cons c cs ih =>
    obtain ⟨hrun, hready⟩ := simulated_execute S L c r h
    have hnext : (execute c (image S L r)).2 = image S L (execute c r).2 := congrArg Prod.snd hrun
    obtain ⟨hrest, hready⟩ := ih hready
    rw [← hnext] at hrest
    exact ⟨hrest, hready⟩

end Image

end Registry

end TokenRegistry
