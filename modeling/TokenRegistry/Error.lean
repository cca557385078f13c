import TokenRegistry.Coins.Json
import TokenRegistry.Json.Reader
import TokenRegistry.Token.Record

/-!
# Errors

Each layer has its own type of error, which says what happened; `message` says it
in words. A client error is one that the sender of a command or query can mend.
-/
namespace TokenRegistry

/-- What a record store reports. A context line stands for the cause below it. -/
inductive StoreError
  | database (reason : String)
  | notFound (reason : String)
  | other (reason : String)
  | context (line : String)
  deriving DecidableEq, Repr

def StoreError.message : StoreError → String
  | .database reason => s!"Database error: {reason}"
  | .notFound reason => s!"Not found: {reason}"
  | .other reason => s!"Other error: {reason}"
  | .context line => line

inductive Refusal
  | emptyAddress
  | stated (reason : String)
  deriving DecidableEq, Repr

def Refusal.message : Refusal → String
  | .emptyAddress => "cannot credit an empty address"
  | .stated reason => reason

inductive LedgerError
  | insufficientFunds (address denom available requested : String)
  | invalidCoins (e : Coins.Fault)
  | rejected (r : Refusal)
  deriving DecidableEq, Repr

def LedgerError.message : LedgerError → String
  | .insufficientFunds address denom available requested =>
    s!"insufficient funds for {address}: {available}{denom} available, {requested}{denom} requested"
  | .invalidCoins e => s!"invalid coins: {e.message}"
  | .rejected r => s!"ledger rejected the operation: {r.message}"

inductive Complaint
  | emptyAddress (role : String)
  | emptyName
  | unusableName (name : String)
  | negativeSupply
  | amountNotPositive
  | missingQueryName
  | genesisName (name : String)
  | genesisOwner (name : String)
  | genesisSupply (name : String) (amount : Int)
  | stated (reason : String)
  deriving DecidableEq, Repr

def Complaint.message : Complaint → String
  | .emptyAddress role => s!"{role} can't be empty"
  | .emptyName => "name can't be empty"
  | .unusableName name => s!"name `{name}` must contain at least one letter or digit"
  | .negativeSupply => "supply can't be less than 0"
  | .amountNotPositive => "amount must be greater than 0"
  | .missingQueryName => "missing branded token name in query path"
  | .genesisName name => s!"genesis token `{name}` has no usable name"
  | .genesisOwner name => s!"genesis token `{name}` has no owner"
  | .genesisSupply name amount =>
    s!"genesis token `{name}` has negative supply {Amount.text amount}"
  | .stated reason => reason

inductive Undecodable
  | record (e : Token.RecordFault)
  | key
  | stated (reason : String)
  deriving DecidableEq, Repr

def Undecodable.message : Undecodable → String
  | .record e => e.message
  | .key => "record key is not valid UTF-8"
  | .stated reason => reason

inductive RegistryError
  | validation (c : Complaint)
  | notFound (slug : String)
  | notOwner (slug sender : String)
  | alreadyExists (slug : String)
  | ledger (e : LedgerError)
  | codec (slug : String) (e : Undecodable)
  | store (e : StoreError)
  | unknownRequest (reason : String)
  | json (e : Json.ReadError)
  deriving DecidableEq, Repr

namespace RegistryError

def message : RegistryError → String
  | .validation c => s!"validation failed: {c.message}"
  | .notFound slug => s!"branded token `{slug}` does not exist"
  | .notOwner slug sender => s!"{sender} is not the owner of branded token `{slug}`"
  | .alreadyExists slug => s!"branded token `{slug}` already exists"
  | .ledger e => s!"coin ledger failure: {e.message}"
  | .codec slug e => s!"failed to decode branded token `{slug}`: {e.message}"
  | .store e => e.message
  | .unknownRequest reason => s!"unknown request: {reason}"
  | .json e => s!"JSON error: {e.message}"

def isClient : RegistryError → Bool
  | .validation _ | .notFound _ | .notOwner _ _ | .alreadyExists _ | .unknownRequest _ => true
  | .ledger _ | .codec _ _ | .store _ | .json _ => false

end RegistryError

end TokenRegistry
