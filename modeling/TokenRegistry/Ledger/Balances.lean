import TokenRegistry.Store

/-!
# Coin ledgers

A ledger keeps the balance of every account in every denomination. Ledgers are
used through `Ledger`; a debit that any balance cannot cover is to fail and change
nothing.

The ledger in memory keeps balances by account and, in an account, by denomination. A
credit to the empty address is refused. A debit looks at every coin by itself before it
takes any; a balance that comes down to zero is taken off the books.
-/
namespace TokenRegistry

class Ledger (τ : Type) where
  credit : Address → Coins → Attempt LedgerError τ Unit
  debit : Address → Coins → Attempt LedgerError τ Unit
  balance : τ → Address → String → Int

abbrev Account := OrderedMap String Int

namespace Account

def balance (a : Account) (denom : String) : Int := (a.get? denom).getD 0

def deposit (a : Account) (c : Coin) : Account := a.insert c.denom (a.balance c.denom + c.amount)

def withdraw (a : Account) (c : Coin) : Account :=
  match a.get? c.denom with
  | none => a
  | some held =>
    if held - c.amount = 0 then a.erase c.denom else a.insert c.denom (held - c.amount)

theorem balance_deposit (a : Account) (c : Coin) (denom : String) :
    (a.deposit c).balance denom = a.balance denom + if denom = c.denom then c.amount else 0 := by
  by_cases h : denom = c.denom
  · simp [deposit, balance, OrderedMap.get?_insert, h]
  · simp [deposit, balance, OrderedMap.get?_insert, h]

theorem balance_withdraw (a : Account) (c : Coin) (denom : String) (h : a.contains c.denom) :
    (a.withdraw c).balance denom = a.balance denom - if denom = c.denom then c.amount else 0 := by
  obtain ⟨held, hheld⟩ := Option.isSome_iff_exists.mp h
  by_cases hd : denom = c.denom
  · subst hd
    by_cases hz : held - c.amount = 0
    · simp [withdraw, balance, hheld, hz, OrderedMap.get?_erase]
    · simp [withdraw, balance, hheld, hz, OrderedMap.get?_insert]
  · by_cases hz : held - c.amount = 0
    · simp [withdraw, balance, hheld, hz, OrderedMap.get?_erase, hd]
    · simp [withdraw, balance, hheld, hz, OrderedMap.get?_insert, hd]

end Account

structure Balances where
  accounts : OrderedMap Bytes Account
  deriving DecidableEq

namespace Balances

def empty : Balances := ⟨∅⟩

instance : Inhabited Balances := ⟨empty⟩

def account (b : Balances) (a : Address) : Account := (b.accounts.get? a.bytes).getD ∅

def balance (b : Balances) (a : Address) (denom : String) : Int := (b.account a).balance denom

def supplyOf (b : Balances) (denom : String) : Int :=
  b.accounts.entries.foldr (fun e supply => e.2.balance denom + supply) 0

def credit (b : Balances) (a : Address) (coins : Coins) : Except LedgerError Balances :=
  if a.isEmpty then .error (.rejected .emptyAddress)
  else .ok ⟨b.accounts.insert a.bytes (coins.toList.foldl Account.deposit (b.account a))⟩

def uncovered (b : Balances) (a : Address) (c : Coin) : LedgerError :=
  .insufficientFunds a.text c.denom (Amount.text (b.balance a c.denom)) (Amount.text c.amount)

def debit (b : Balances) (a : Address) (coins : Coins) : Except LedgerError Balances :=
  match coins.toList.find? fun c => b.balance a c.denom < c.amount with
  | some c => .error (b.uncovered a c)
  | none =>
    match b.accounts.get? a.bytes with
    | none => .ok b
    | some account =>
      .ok ⟨b.accounts.insert a.bytes (coins.toList.foldl Account.withdraw account)⟩

def attempt (f : Balances → Except LedgerError Balances) : Attempt LedgerError Balances Unit := fun b =>
  match f b with
  | .ok b => (.ok (), b)
  | .error e => (.error e, b)

instance : Ledger Balances where
  credit a coins := attempt fun b => b.credit a coins
  debit a coins := attempt fun b => b.debit a coins
  balance := balance

end Balances

end TokenRegistry
