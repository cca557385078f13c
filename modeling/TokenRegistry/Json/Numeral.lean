import TokenRegistry.Json.Double
import TokenRegistry.Json.Flaw

/-!
# Numerals

A numeral is what is written for a number. Its value is a whole number when it has
neither fraction nor exponent and fits a signed or unsigned word of sixty-four
bits, and otherwise a double. Digits are gathered into one word: those that no
longer fit it are left out, and a numeral beyond the largest double has no value.
-/
namespace TokenRegistry.Json

structure Numeral where
  negative : Bool
  whole : Nat
  fraction : List (Fin 10)
  exponent : Option Int
  deriving DecidableEq, Repr

inductive Number
  | whole (n : Int)
  | double (x : Double)
  deriving DecidableEq, Repr

namespace Numeral

def ofNat (n : Nat) : Numeral := ⟨false, n, [], none⟩

def digitChar (d : Fin 10) : Char := Char.ofNat (48 + d.val)

def text (n : Numeral) : List Char :=
  (if n.negative then ['-'] else []) ++ Nat.toDigits 10 n.whole ++
    (if n.fraction = [] then [] else '.' :: n.fraction.map digitChar) ++
    match n.exponent with
    | none => []
    | some (.ofNat e) => 'e' :: Nat.toDigits 10 e
    | some (.negSucc e) => 'e' :: '-' :: Nat.toDigits 10 (e + 1)

def wordLimit : Nat := Nat.pow 2 64

/-- Takes digits into a word as long as they fit, and gives the word and the digits left over. -/
def gather : Nat → List Nat → Nat × List Nat
  | word, [] => (word, [])
  | word, d :: ds => if word * 10 + d < wordLimit then gather (word * 10 + d) ds else (word, d :: ds)

def wholeDigits (n : Nat) : List Nat := (Nat.toDigits 10 n).map fun c => c.toNat - 48

def signed (negative : Bool) (m : Magnitude) : Number := .double ⟨negative, m⟩

/-- The whole number itself if it fits a word, and else the double nearest to it; minus zero and
what lies below the smallest signed word are doubles as well. -/
def wholeValue (n : Numeral) : Except Flaw Number :=
  match gather 0 (wholeDigits n.whole) with
  | (word, []) =>
    if !n.negative then .ok (.whole word)
    else if 0 < word ∧ 2 * word ≤ wordLimit then .ok (.whole (-(word : Int)))
    else .ok (signed true ((Magnitude.ofNat word).getD .zero))
  | (word, rest) =>
    match Magnitude.ofScientific word rest.length with
    | some m => .ok (signed n.negative m)
    | none => .error .numberOutOfRange

/-- An exponent of more than thirty-one bits gives zero or nothing at all. -/
def scaledValue (n : Numeral) : Except Flaw Number :=
  let (word, rest) := gather 0 (wholeDigits n.whole)
  let (word, left) := gather word (n.fraction.map Fin.val)
  let point : Int := (rest.length : Int) - ((n.fraction.length - left.length : Nat) : Int)
  let exponent := n.exponent.getD 0
  if Nat.pow 2 31 ≤ exponent.natAbs then
    if word ≠ 0 ∧ 0 < exponent then .error .numberOutOfRange else .ok (signed n.negative .zero)
  else
    match Magnitude.ofScientific word (point + exponent) with
    | some m => .ok (signed n.negative m)
    | none => .error .numberOutOfRange

def value (n : Numeral) : Except Flaw Number :=
  if n.fraction = [] ∧ n.exponent = none then n.wholeValue else n.scaledValue

end Numeral

end TokenRegistry.Json
