import TokenRegistry.Store

/-!
# Outages

An outage makes calls of one operation fail: a number of them pass, then a number
are refused, or all from there on.

A store may have an outage of each operation. A refused call does not reach the store
within. In a pass over the records every record is a call of its own: the error takes
its place and the pass goes on.
-/
namespace TokenRegistry

structure Outage (ε : Type) where
  error : ε
  skip : Nat
  /-- Absent if there is no end to the outage. -/
  times : Option Nat
  deriving Repr

def Outage.meet {ε : Type} : Option (Outage ε) → Option ε × Option (Outage ε)
  | none => (none, none)
  | some ⟨e, skip+1, times⟩ => (none, some ⟨e, skip, times⟩)
  | some ⟨e, 0, none⟩ => (some e, some ⟨e, 0, none⟩)
  | some ⟨_, 0, some 0⟩ => (none, none)
  | some ⟨e, 0, some (n+1)⟩ => (some e, some ⟨e, 0, some n⟩)

structure FaultyStore (σ : Type) where
  inner : σ
  get : Option (Outage StoreError)
  set : Option (Outage StoreError)
  has : Option (Outage StoreError)
  delete : Option (Outage StoreError)
  scan : Option (Outage StoreError)
  /-- Presence is asked through `get`. -/
  hasByGet : Bool

namespace FaultyStore

variable {σ : Type}

def sound (inner : σ) (hasByGet : Bool) : FaultyStore σ :=
  ⟨inner, none, none, none, none, none, hasByGet⟩

def repair (s : FaultyStore σ) : FaultyStore σ := sound s.inner s.hasByGet

def pass {α : Type} (refusal : Option StoreError) (a : Attempt StoreError σ α) :
    Attempt StoreError (FaultyStore σ) α := fun s =>
  match refusal with
  | some e => (.error e, s)
  | none =>
    let (r, inner) := a s.inner
    (r, { s with inner := inner })

def passGet [Store σ] (key : Bytes) : Attempt StoreError (FaultyStore σ) (Option Bytes) := fun s =>
  let (refusal, outage) := Outage.meet s.get
  pass refusal (Store.get key) { s with get := outage }

def passHas [Store σ] (key : Bytes) : Attempt StoreError (FaultyStore σ) Bool := fun s =>
  let (refusal, outage) := Outage.meet s.has
  pass refusal (Store.has key) { s with has := outage }

def passScan (s : FaultyStore σ) : (outage : Option (Outage StoreError)) → Pass σ →
    Pass (FaultyStore σ)
  | _, [] => []
  | outage, (item, inner) :: rest =>
    let (refusal, outage) := Outage.meet outage
    let item := match refusal with
      | some e => .error e
      | none => item
    (item, { s with inner := inner, scan := outage }) :: passScan s outage rest

instance [Store σ] : Store (FaultyStore σ) where
  get := passGet
  set key value s :=
    let (refusal, outage) := Outage.meet s.set
    pass refusal (Store.set key value) { s with set := outage }
  delete key s :=
    let (refusal, outage) := Outage.meet s.delete
    pass refusal (Store.delete key) { s with delete := outage }
  has key s := if s.hasByGet then Store.hasByGet passGet key s else passHas key s
  scan s := passScan s s.scan (Store.scan s.inner)

end FaultyStore

end TokenRegistry
