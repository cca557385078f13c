import TokenRegistry.Json.Basic

/-!
# Reading JSON text

The scanner turns a text into an outline and goes no further than the first place
where the text stops being JSON. A string literal is looked at twice: passing over
it needs no more than its end, while reading it also pairs up the surrogates that
escapes spell, so a literal may be passed over and yet have no text.
-/
namespace TokenRegistry.Json.Scanner

def isBlank (c : Char) : Bool := c = ' ' || c = '\n' || c = '\t' || c = '\r'

def skipBlanks (cs : List Char) : List Char := cs.dropWhile isBlank

def hexValue? (c : Char) : Option Nat :=
  let n := c.toNat
  if 48 ≤ n ∧ n ≤ 57 then some (n - 48)
  else if 97 ≤ n ∧ n ≤ 102 then some (n - 87)
  else if 65 ≤ n ∧ n ≤ 70 then some (n - 55)
  else none

def unit? : List Char → Option Nat
  | a :: b :: c :: d :: _ => do
    let a ← hexValue? a
    let b ← hexValue? b
    let c ← hexValue? c
    let d ← hexValue? d
    return ((a * 16 + b) * 16 + c) * 16 + d
  | _ => none

/-- What is wrong where four hex digits should stand: fewer than four bytes are left, or the digits
are none. -/
def unitFlaw (cs : List Char) : Flaw :=
  if (String.ofList cs).utf8ByteSize < 4 then .endInString else .invalidEscape

def simpleEscape? (c : Char) : Option Char :=
  if c = '"' then some '"'
  else if c = '\\' then some '\\'
  else if c = '/' then some '/'
  else if c = 'b' then some '\x08'
  else if c = 'f' then some '\x0c'
  else if c = 'n' then some '\n'
  else if c = 'r' then some '\r'
  else if c = 't' then some '\t'
  else none

def isHighSurrogate (n : Nat) : Bool := 0xD800 ≤ n && n < 0xDC00

def isLowSurrogate (n : Nat) : Bool := 0xDC00 ≤ n && n < 0xE000

/-- The character that the escape after `\u` spells, and how many characters that takes. -/
def unicodeEscape (cs : List Char) : Except Flaw (Char × Nat) :=
  match unit? cs with
  | none => .error (unitFlaw cs)
  | some n =>
    if isLowSurrogate n then .error .loneSurrogate
    else if isHighSurrogate n then
      match cs.drop 4 with
      | [] => .error .endInString
      | ['\\'] => .error .endInString
      | '\\' :: 'u' :: rest =>
        match unit? rest with
        | none => .error (unitFlaw rest)
        | some n' =>
          if isLowSurrogate n' then
            .ok (Char.ofNat (0x10000 + (n - 0xD800) * 0x400 + (n' - 0xDC00)), 10)
          else .error .loneSurrogate
      | _ => .error .unfinishedPair
    else .ok (Char.ofNat n, 4)

/-- One character of a string literal and how many characters it takes there, or the end of the
literal. -/
def literalChar (c : Char) (cs : List Char) : Except Flaw (Option (Char × Nat)) :=
  if c = '"' then .ok none
  else if c = '\\' then
    match cs with
    | [] => .error .endInString
    | 'u' :: rest => (unicodeEscape rest).map fun (d, n) => some (d, n + 2)
    | e :: _ =>
      match simpleEscape? e with
      | some d => .ok (some (d, 2))
      | none => .error .invalidEscape
  else if c.toNat < 0x20 then .error .controlCharacter
  else .ok (some (c, 1))

/-- The text of a string literal from after its opening quote; the first `skip` characters belong to
one already read. -/
def literalFrom : (skip : Nat) → List Char → Except Flaw (List Char)
  | _, [] => .error .endInString
  | skip+1, _ :: cs => literalFrom skip cs
  | 0, c :: cs => do
    match ← literalChar c cs with
    | none => return []
    | some (d, n) =>
      let ds ← literalFrom (n - 1) cs
      return d :: ds

def literal (cs : List Char) : Except Flaw String := (literalFrom 0 cs).map String.ofList

/-- How many characters of a string literal belong together when it is passed over; none at its
end. -/
def passedChar (c : Char) (cs : List Char) : Except Flaw Nat :=
  if c = '"' then .ok 0
  else if c = '\\' then
    match cs with
    | [] => .error .endInString
    | 'u' :: rest => if (unit? rest).isSome then .ok 6 else .error (unitFlaw rest)
    | e :: _ => if (simpleEscape? e).isSome then .ok 2 else .error .invalidEscape
  else if c.toNat < 0x20 then .error .controlCharacter
  else .ok 1

def afterLiteralFrom : (skip : Nat) → List Char → Except Flaw (List Char)
  | _, [] => .error .endInString
  | skip+1, _ :: cs => afterLiteralFrom skip cs
  | 0, c :: cs => do
    match ← passedChar c cs with
    | 0 => return cs
    | n+1 => afterLiteralFrom n cs

def afterLiteral (cs : List Char) : Except Flaw (List Char) := afterLiteralFrom 0 cs

def isDigit (c : Char) : Bool := '0' ≤ c && c ≤ '9'

def digitValue (c : Char) : Nat := c.toNat - 48

def natOf (cs : List Char) : Nat := cs.foldl (fun n c => 10 * n + digitValue c) 0

def digitOf (c : Char) : Fin 10 := Fin.ofNat 10 (digitValue c)

/-- Where digits are missing: at the end of the text a reader misses the rest of the value. -/
def digitsBreak (cs : List Char) : Break :=
  if cs.isEmpty then ⟨.endInValue, .invalidNumber, .trailingCharacters⟩ else .both .invalidNumber

def scanWhole (cs : List Char) : Except Break (Nat × List Char) :=
  match cs with
  | '0' :: rest =>
    if (rest.head?.map isDigit).getD false then .error (.both .invalidNumber) else .ok (0, rest)
  | _ =>
    let digits := cs.takeWhile isDigit
    if digits.isEmpty then .error (digitsBreak cs) else .ok (natOf digits, cs.dropWhile isDigit)

def scanFraction (cs : List Char) : Except Break (List (Fin 10) × List Char) :=
  match cs with
  | '.' :: rest =>
    let digits := rest.takeWhile isDigit
    if digits.isEmpty then .error (digitsBreak rest)
    else .ok (digits.map digitOf, rest.dropWhile isDigit)
  | _ => .ok ([], cs)

def scanExponent (cs : List Char) : Except Break (Option Int × List Char) :=
  match cs with
  | c :: rest =>
    if c = 'e' ∨ c = 'E' then
      let negative := rest.head? = some '-'
      let rest := if negative ∨ rest.head? = some '+' then rest.tail else rest
      let digits := rest.takeWhile isDigit
      if digits.isEmpty then .error (digitsBreak rest)
      else
        let e : Int := natOf digits
        .ok (some (if negative then -e else e), rest.dropWhile isDigit)
    else .ok (none, cs)
  | [] => .ok (none, [])

def scanNumeral (cs : List Char) : Except Break (Numeral × List Char) := do
  let negative := cs.head? = some '-'
  let (whole, cs) ← scanWhole (if negative then cs.tail else cs)
  let (fraction, cs) ← scanFraction cs
  let (exponent, cs) ← scanExponent cs
  return (⟨negative, whole, fraction, exponent⟩, cs)

def scanWord : (letters : List Char) → List Char → Except Flaw (List Char)
  | [], cs => .ok cs
  | _ :: _, [] => .error .endInValue
  | l :: ls, c :: cs => if c = l then scanWord ls cs else .error .expectedWord

/-- An outline and the text after it, of which there is none after a break. -/
abbrev Scan := Outline × Option (List Char)

def stop (b : Break) : Scan := (.broken b, none)

def wordScan (o : Outline) (letters cs : List Char) : Scan :=
  match scanWord letters cs with
  | .ok rest => (o, some rest)
  | .error f => stop (.both f)

def literalScan (cs : List Char) : Scan :=
  match afterLiteral cs with
  | .ok rest => (.string (literal cs), some rest)
  | .error f =>
    let read := match literal cs with | .ok _ => f | .error f => f
    stop ⟨read, f, .trailingCharacters⟩

def numeralScan (cs : List Char) : Scan :=
  match scanNumeral cs with
  | .ok (n, rest) => (.number n, some rest)
  | .error b => stop b

abbrev ItemsScan := List Outline × Option (List Char)

abbrev MembersScan := List (Except Flaw String × Outline) × Option (List Char)

def stopItems (b : Break) : ItemsScan := ([.broken b], none)

def stopMembers (b : Break) : MembersScan := ([(.error b.read, .broken b)], none)

mutual
/-- A value at the start of a text. The fuel bounds the length of the text. -/
def value : (fuel : Nat) → List Char → Scan
  | 0, _ => stop (.both .endInValue)
  | fuel+1, cs =>
    match skipBlanks cs with
    | [] => stop (.both .endInValue)
    | c :: rest =>
      if c = 'n' then wordScan .null ['u', 'l', 'l'] rest
      else if c = 't' then wordScan (.bool true) ['r', 'u', 'e'] rest
      else if c = 'f' then wordScan (.bool false) ['a', 'l', 's', 'e'] rest
      else if c = '"' then literalScan rest
      else if c = '-' ∨ isDigit c then numeralScan (c :: rest)
      else if c = '[' then
        let (items, rest) := items fuel rest
        (.array items, rest)
      else if c = '\x7b' then
        let (members, rest) := members fuel rest
        (.object members, rest)
      else stop (.both .expectedValue)

def items : (fuel : Nat) → List Char → ItemsScan
  | 0, _ => stopItems (.all .endInArray)
  | fuel+1, cs =>
    match skipBlanks cs with
    | [] => stopItems (.all .endInArray)
    | ']' :: rest => ([], some rest)
    | cs => itemsFrom fuel cs

def itemsFrom : (fuel : Nat) → List Char → ItemsScan
  | 0, _ => stopItems (.all .endInArray)
  | fuel+1, cs =>
    match value fuel cs with
    | (o, none) => ([o], none)
    | (o, some rest) =>
      let (os, rest) := moreItems fuel rest
      (o :: os, rest)

def moreItems : (fuel : Nat) → List Char → ItemsScan
  | 0, _ => stopItems (.all .endInArray)
  | fuel+1, cs =>
    match skipBlanks cs with
    | [] => stopItems (.all .endInArray)
    | ']' :: rest => ([], some rest)
    | ',' :: rest =>
      match skipBlanks rest with
      | [] => stopItems (.both .endInValue)
      | ']' :: _ => stopItems ⟨.trailingComma, .expectedValue, .trailingComma⟩
      | cs => itemsFrom fuel cs
    | _ => stopItems (.both .expectedArrayComma)

def members : (fuel : Nat) → List Char → MembersScan
  | 0, _ => stopMembers (.all .endInObject)
  | fuel+1, cs =>
    match skipBlanks cs with
    | [] => stopMembers (.all .endInObject)
    | '\x7d' :: rest => ([], some rest)
    | cs => membersFrom fuel cs

def membersFrom : (fuel : Nat) → List Char → MembersScan
  | 0, _ => stopMembers (.all .endInObject)
  | fuel+1, cs =>
    match cs with
    | '"' :: rest =>
      match literalScan rest with
      | (.string k, some rest) =>
        match skipBlanks rest with
        | [] => ([(k, .broken (.all .endInObject))], none)
        | ':' :: rest =>
          match value fuel rest with
          | (o, none) => ([(k, o)], none)
          | (o, some rest) =>
            let (ms, rest) := moreMembers fuel rest
            ((k, o) :: ms, rest)
        | _ => ([(k, .broken (.all .expectedColon))], none)
      | (.broken b, _) => stopMembers b
      | _ => stopMembers (.all .endInObject)
    | _ => stopMembers (.all .keyNotString)

def moreMembers : (fuel : Nat) → List Char → MembersScan
  | 0, _ => stopMembers (.all .endInObject)
  | fuel+1, cs =>
    match skipBlanks cs with
    | [] => stopMembers (.all .endInObject)
    | '\x7d' :: rest => ([], some rest)
    | ',' :: rest =>
      match skipBlanks rest with
      | [] => stopMembers ⟨.endInValue, .endInObject, .endInValue⟩
      | '\x7d' :: _ => stopMembers ⟨.trailingComma, .keyNotString, .trailingComma⟩
      | cs => membersFrom fuel cs
    | _ => stopMembers (.all .expectedObjectComma)
end

end Scanner

/-- The outline of a whole text, and whether anything but blanks follows the value. -/
structure Page where
  outline : Outline
  trailing : Bool

def Page.ofChars (cs : List Char) : Page :=
  match Scanner.value (3 * cs.length + 3) cs with
  | (o, none) => ⟨o, false⟩
  | (o, some rest) => ⟨o, !(Scanner.skipBlanks rest).isEmpty⟩

def Page.ofText (s : String) : Page := .ofChars s.toList

end TokenRegistry.Json
