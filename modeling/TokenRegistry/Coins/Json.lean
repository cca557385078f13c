import TokenRegistry.Json.Printer
import TokenRegistry.Json.Reader
import TokenRegistry.OrderedMap

/-!
# Coins

A coin is an amount of one denomination. Checked coins have no empty denomination,
no negative amount and no denomination twice, and are kept by denomination without
those of amount zero. Coins that come from outside may be any list, checked or not.
-/
namespace TokenRegistry

structure Coin where
  denom : String
  amount : Int
  deriving DecidableEq, Repr

def Coin.text (c : Coin) : String := Amount.text c.amount ++ c.denom

structure Coins where
  toList : List Coin
  deriving DecidableEq, Repr

namespace Coins

inductive Fault
  | emptyDenom
  | negative (c : Coin)
  | duplicate (denom : String)
  | stated (reason : String)
  deriving DecidableEq, Repr

def Fault.message : Fault → String
  | .emptyDenom => "empty denomination"
  | .negative c => s!"negative amount {c.text}"
  | .duplicate denom => s!"duplicate denomination {denom}"
  | .stated reason => reason

def gather : OrderedMap String Int → List Coin → Except Fault (OrderedMap String Int)
  | seen, [] => .ok seen
  | seen, c :: cs =>
    if c.denom = "" then .error .emptyDenom
    else if c.amount < 0 then .error (.negative c)
    else if seen.contains c.denom then .error (.duplicate c.denom)
    else gather (seen.insert c.denom c.amount) cs

def ofEntries (es : List (String × Int)) : Coins :=
  ⟨(es.filter fun e => e.2 ≠ 0).map fun e => ⟨e.1, e.2⟩⟩

def ofList (cs : List Coin) : Except Fault Coins :=
  (gather ∅ cs).map fun seen => ofEntries seen.entries

def single (denom : String) (amount : Int) : Except Fault Coins := ofList [⟨denom, amount⟩]

def isEmpty (cs : Coins) : Bool := cs.toList.isEmpty

def amountOf (cs : Coins) (denom : String) : Int :=
  ((cs.toList.find? fun c => c.denom = denom).map Coin.amount).getD 0

def text (cs : Coins) : String := ",".intercalate (cs.toList.map Coin.text)

end Coins

open Json

namespace Coin

def toJson (c : Coin) : Json :=
  .object [("denom", .string c.denom), ("amount", .string (Amount.text c.amount))]

def layout : Layout (String × Int × Unit) :=
  .field "denom" readText none <| .field "amount" readAmount none .done

def read : Reader Coin := mapRead (fun (denom, amount, _) => ⟨denom, amount⟩) (layout.read "Coin")

end Coin

namespace Coins

def toJson (cs : Coins) : Json := .array (cs.toList.map Coin.toJson)

def read : Reader Coins := mapRead Coins.mk (readList Coin.read)

end Coins

end TokenRegistry
