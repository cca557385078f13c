import TokenRegistry.Text.Hex

/-!
# Percent escapes

A percent sign and two hex digits stand for a byte; a percent sign that is not
followed by two digits stands for itself. In the parameters of a query a plus sign
is a blank.
-/
namespace TokenRegistry.Text.Percent

/-- Reads escapes; the first `skip` bytes belong to one already read. -/
def decodeFrom : (skip : Nat) → Bytes → Bytes
  | _, [] => []
  | skip+1, _ :: bs => decodeFrom skip bs
  | 0, b :: bs =>
    let escaped : Option UInt8 :=
      match bs with
      | h :: l :: _ =>
        if b = 0x25 then do
          let high ← Hex.digitValue? h
          let low ← Hex.digitValue? l
          return UInt8.ofNat (16 * high + low)
        else none
      | _ => none
    match escaped with
    | some d => d :: decodeFrom 2 bs
    | none => b :: decodeFrom 0 bs

def decode (s : String) : Bytes := decodeFrom 0 (Utf8.ofString s)

def parameter (cs : List Char) : String :=
  Utf8.lossy (decodeFrom 0 (Utf8.encode (cs.map fun c => if c = '+' then ' ' else c)))

def cutAt (c : Char) (cs : List Char) : List Char × Option (List Char) :=
  match cs.dropWhile (· ≠ c) with
  | [] => (cs, none)
  | _ :: rest => (cs.takeWhile (· ≠ c), some rest)

def pairs (read : List Char → String) (query : List Char) : List (String × String) :=
  let pieces := (query.splitOn '&').filter fun piece => piece ≠ []
  pieces.map fun piece =>
    let (name, value) := cutAt '=' piece
    (read name, read (value.getD []))

def parameters (query : List Char) : List (String × String) := pairs parameter query

end TokenRegistry.Text.Percent
