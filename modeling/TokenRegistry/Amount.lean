/-!
# Amounts as decimal text

An amount is an integer of any size. Its text is an optional single sign, a digit,
and then digits and underscores; an underscore carries no value. `write` gives the
one text without plus sign, underscores, needless zeros or minus zero.
-/
namespace TokenRegistry.Amount

inductive Fault
  | empty
  | invalidDigit
  deriving DecidableEq, Repr

def Fault.message : Fault → String
  | .empty => "cannot parse integer from empty string"
  | .invalidDigit => "invalid digit found in string"

/-- Adds a digit or an underscore to the value `n` of the digits before it. -/
def push (n : Nat) (c : Char) : Except Fault Nat :=
  if c.isDigit then .ok (10 * n + (c.toNat - '0'.toNat))
  else if c = '_' then .ok n
  else .error .invalidDigit

def magnitude : List Char → Except Fault Nat
  | [] => .error .empty
  | c :: cs => if c.isDigit then (c :: cs).foldlM push 0 else .error .invalidDigit

def read : List Char → Except Fault Int
  | '-' :: cs => (magnitude cs).map fun n => -(n : Int)
  | '+' :: cs => (magnitude cs).map Int.ofNat
  | cs => (magnitude cs).map Int.ofNat

def write : Int → List Char
  | .ofNat n => Nat.toDigits 10 n
  | .negSucc n => '-' :: Nat.toDigits 10 (n + 1)

def ofText (s : String) : Except Fault Int := read s.toList

def text (n : Int) : String := String.ofList (write n)

structure Invalid where
  raw : String
  fault : Fault
  deriving DecidableEq, Repr

def Invalid.message (e : Invalid) : String := s!"invalid amount `{e.raw}`: {e.fault.message}"

def parse (raw : String) : Except Invalid Int :=
  match ofText raw with
  | .ok n => .ok n
  | .error fault => .error ⟨raw, fault⟩

end TokenRegistry.Amount
