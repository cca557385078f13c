import TokenRegistry.Bytes

/-!
# UTF-8

A character is written as one to four bytes. Reading accepts exactly the shortest
form of every Unicode scalar value and otherwise names the place: the index of the
first byte that starts no character, and either how many bytes of it could not be
used or that the text ended inside a character. `lossy` puts U+FFFD there and goes on.
-/
namespace TokenRegistry.Text.Utf8

def encodeChar (c : Char) : Bytes :=
  let n := c.toNat
  if n < 0x80 then [UInt8.ofNat n]
  else if n < 0x800 then [UInt8.ofNat (0xC0 + n / 64), UInt8.ofNat (0x80 + n % 64)]
  else if n < 0x10000 then
    [UInt8.ofNat (0xE0 + n / 4096), UInt8.ofNat (0x80 + n / 64 % 64), UInt8.ofNat (0x80 + n % 64)]
  else
    [UInt8.ofNat (0xF0 + n / 262144), UInt8.ofNat (0x80 + n / 4096 % 64),
      UInt8.ofNat (0x80 + n / 64 % 64), UInt8.ofNat (0x80 + n % 64)]

def encode (cs : List Char) : Bytes := cs.flatMap encodeChar

def ofString (s : String) : Bytes := encode s.toList

inductive Fault
  | invalid (width index : Nat)
  | incomplete (index : Nat)
  deriving DecidableEq, Repr

def Fault.message : Fault → String
  | .invalid width index => s!"invalid utf-8 sequence of {width} bytes from index {index}"
  | .incomplete index => s!"incomplete utf-8 byte sequence from index {index}"

def isContinuation (b : UInt8) : Bool := 0x80 ≤ b && b ≤ 0xBF

def isSecondOfThree (a b : UInt8) : Bool :=
  if a = 0xE0 then 0xA0 ≤ b && b ≤ 0xBF
  else if a = 0xED then 0x80 ≤ b && b ≤ 0x9F
  else isContinuation b

def isSecondOfFour (a b : UInt8) : Bool :=
  if a = 0xF0 then 0x90 ≤ b && b ≤ 0xBF
  else if a = 0xF4 then 0x80 ≤ b && b ≤ 0x8F
  else isContinuation b

/-- What a nonempty byte string starts with: a character and how many bytes after the first it
takes, or bytes that are none. -/
inductive Head
  | char (c : Char) (more : Nat)
  | invalid (width : Nat)
  | incomplete

def charOf (a b c d : Nat) : Char := Char.ofNat (((a * 64 + b) * 64 + c) * 64 + d)

def low (b : UInt8) : Nat := b.toNat % 64

def head (a : UInt8) (rest : Bytes) : Head :=
  if a < 0x80 then .char (Char.ofNat a.toNat) 0
  else if 0xC2 ≤ a && a ≤ 0xDF then
    match rest with
    | [] => .incomplete
    | b :: _ =>
      if isContinuation b then .char (charOf 0 0 (a.toNat - 0xC0) (low b)) 1 else .invalid 1
  else if 0xE0 ≤ a && a ≤ 0xEF then
    match rest with
    | [] => .incomplete
    | b :: rest =>
      if isSecondOfThree a b then
        match rest with
        | [] => .incomplete
        | c :: _ =>
          if isContinuation c then .char (charOf 0 (a.toNat - 0xE0) (low b) (low c)) 2
          else .invalid 2
      else .invalid 1
  else if 0xF0 ≤ a && a ≤ 0xF4 then
    match rest with
    | [] => .incomplete
    | b :: rest =>
      if isSecondOfFour a b then
        match rest with
        | [] => .incomplete
        | c :: rest =>
          if isContinuation c then
            match rest with
            | [] => .incomplete
            | d :: _ =>
              if isContinuation d then
                .char (charOf (a.toNat - 0xF0) (low b) (low c) (low d)) 3
              else .invalid 3
          else .invalid 2
      else .invalid 1
  else .invalid 1

/-- Reads the bytes from index `i` on, of which the first `skip` belong to a character already
read. -/
def decodeFrom : (i skip : Nat) → Bytes → Except Fault (List Char)
  | _, _, [] => .ok []
  | i, skip+1, _ :: bs => decodeFrom (i + 1) skip bs
  | i, 0, a :: bs =>
    match head a bs with
    | .char c more => (decodeFrom (i + 1) more bs).map (c :: ·)
    | .invalid width => .error (.invalid width i)
    | .incomplete => .error (.incomplete i)

def decode (bs : Bytes) : Except Fault (List Char) := decodeFrom 0 0 bs

def decodeLossyFrom : (skip : Nat) → Bytes → List Char
  | _, [] => []
  | skip+1, _ :: bs => decodeLossyFrom skip bs
  | 0, a :: bs =>
    match head a bs with
    | .char c more => c :: decodeLossyFrom more bs
    | .invalid width => '\uFFFD' :: decodeLossyFrom (width - 1) bs
    | .incomplete => ['\uFFFD']

def toString? (bs : Bytes) : Except Fault String := (decode bs).map String.ofList

def lossy (bs : Bytes) : String := String.ofList (decodeLossyFrom 0 bs)

end TokenRegistry.Text.Utf8
