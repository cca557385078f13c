/-!
# Numbers in double precision

A finite double is a sign and a magnitude `mantissa * 2 ^ exponent` with a mantissa
below `2 ^ 53`. Products and quotients are computed exactly and rounded to the
nearest magnitude, a tie to the even mantissa. A double is shown by the fewest
decimal digits that round back to it.
-/
namespace TokenRegistry.Json

structure Magnitude where
  mantissa : Nat
  exponent : Int
  deriving DecidableEq, Repr

namespace Magnitude

def zero : Magnitude := ⟨0, -1074⟩

def hidden : Nat := Nat.pow 2 52

/-- The quotient rounded to the nearest whole number, a half to the even one. -/
def divNearest (n d : Nat) : Nat :=
  let q := n / d
  let r := n % d
  if 2 * r < d then q else if d < 2 * r then q + 1 else q + q % 2

/-- Numerator and denominator of `n / d * 2 ^ e`. -/
def shift (n d : Nat) (e : Int) : Nat × Nat :=
  match e with
  | .ofNat k => (n * Nat.pow 2 k, d)
  | .negSucc k => (n, d * Nat.pow 2 (k + 1))

def ofRatio (n d : Nat) : Option Magnitude :=
  if n = 0 then some zero
  else
    let e : Int := (n.log2 : Int) - d.log2 - 52
    let (a, b) := shift n d (-e)
    let e : Int := if a / b < hidden then e - 1 else e
    let e : Int := if e < -1074 then -1074 else e
    let (a, b) := shift n d (-e)
    let m := divNearest a b
    let (m, e) := if m = 2 * hidden then (hidden, e + 1) else (m, e)
    if 971 < e then none else some ⟨m, e⟩

def mul (x y : Magnitude) : Option Magnitude :=
  let (a, b) := shift (x.mantissa * y.mantissa) 1 (x.exponent + y.exponent)
  ofRatio a b

def div (x y : Magnitude) : Option Magnitude :=
  let (a, b) := shift x.mantissa y.mantissa (x.exponent - y.exponent)
  ofRatio a b

def ofNat (n : Nat) : Option Magnitude := ofRatio n 1

def powerOfTen (k : Nat) : Option Magnitude := ofNat (Nat.pow 10 k)

/-- Scales by a power of ten; a step for an exponent below -308 divides by `10 ^ 308`, and after
`steps` of them nothing but zero is left. -/
def scale : (steps : Nat) → Magnitude → Int → Option Magnitude
  | 0, _, _ => some zero
  | steps+1, f, e =>
    if e.natAbs ≤ 308 then do
      let p ← powerOfTen e.natAbs
      if 0 ≤ e then f.mul p else f.div p
    else if f.mantissa = 0 then some f
    else if 0 ≤ e then none
    else do
      let p ← powerOfTen 308
      let f ← f.div p
      scale steps f (e + 308)

/-- The magnitude read for `significand * 10 ^ e`. -/
def ofScientific (significand : Nat) (e : Int) : Option Magnitude := do
  let f ← ofNat significand
  scale 4 f e

/-- Decimal digits and their scale: `0.d₁d₂… * 10 ^ point`. -/
structure Decimal where
  digits : List Char
  point : Int

/-- The least `k` above -324 with `n / d < 10 ^ k`. -/
def decimalPoint (n d : Nat) : Int :=
  let below (i : Nat) : Bool :=
    let k : Int := (i : Int) - 323
    n * Nat.pow 10 (-k).toNat < d * Nat.pow 10 k.toNat
  (((List.range 634).find? below).getD 634 : Int) - 323

/-- The multiple of `10 ^ (point - count)` that rounds to the magnitude and is nearest to it. -/
def candidate (m : Magnitude) (point : Int) (count : Nat) : Option Nat :=
  let e := m.exponent - 2
  let (a, b) := shift 1 1 e
  let u := point - count
  let a := a * Nat.pow 10 (-u).toNat
  let b := b * Nat.pow 10 u.toNat
  let value := 4 * m.mantissa * a
  let below := if m.mantissa = hidden ∧ -1074 < m.exponent then 1 else 2
  let low := (4 * m.mantissa - below) * a
  let high := (4 * m.mantissa + 2) * a
  let fits (c : Nat) : Bool :=
    if m.mantissa % 2 = 0 then low ≤ c * b && c * b ≤ high else low < c * b && c * b < high
  let c := value / b
  match fits c, fits (c + 1) with
  | true, false => some c
  | false, true => some (c + 1)
  | true, true => some (divNearest value b)
  | false, false => none

def shortest (m : Magnitude) : Decimal :=
  let (a, b) := shift m.mantissa 1 m.exponent
  let point := decimalPoint a b
  let c := ((List.range 17).findSome? fun i => candidate m point (i + 1)).getD 0
  let n := ((List.range 17).find? fun i => (candidate m point (i + 1)).isSome).getD 0 + 1
  let digits := Nat.toDigits 10 c
  ⟨(digits.reverse.dropWhile (· = '0')).reverse, point + (digits.length - n : Int)⟩

/-- Sixteen digits or fewer before the point and up to four zeros after it are written out; other
magnitudes take an exponent with its sign. -/
def text (m : Magnitude) : List Char :=
  if m.mantissa = 0 then "0.0".toList
  else
    let ⟨digits, point⟩ := m.shortest
    let count := digits.length
    if 0 < point ∧ point ≤ 16 then
      let whole := point.toNat
      if count ≤ whole then digits ++ List.replicate (whole - count) '0' ++ ['.', '0']
      else digits.take whole ++ '.' :: digits.drop whole
    else if -5 < point ∧ point ≤ 0 then
      '0' :: '.' :: List.replicate (-point).toNat '0' ++ digits
    else
      let e := point - 1
      let mark := if e < 0 then ['e', '-'] else ['e', '+']
      digits.take 1 ++ (if count ≤ 1 then [] else '.' :: digits.drop 1) ++ mark ++
        Nat.toDigits 10 e.natAbs

end Magnitude

structure Double where
  negative : Bool
  magnitude : Magnitude
  deriving DecidableEq, Repr

def Double.text (x : Double) : String :=
  String.ofList ((if x.negative then ['-'] else []) ++ x.magnitude.text)

end TokenRegistry.Json
