import TokenRegistry.Token

/-!
# The stored form of a token

A record is three texts, each after its length in bytes as a word of eight bytes:
the name, the amount in decimal and the owner in hex. Bytes after the third text
are ignored. Reading reports the first thing amiss in the order of the bytes.
-/
namespace TokenRegistry.Token

inductive RecordFault
  | endInLength
  | endInField
  | notText (e : Text.Utf8.Fault)
  | amount (e : Amount.Invalid)
  | owner (e : Text.Hex.Fault)
  deriving DecidableEq, Repr

def RecordFault.message : RecordFault → String
  | .endInLength => "io error: unexpected end of file"
  | .endInField => "io error: "
  | .notText e => s!"string is not valid utf8: {e.message}"
  | .amount e => e.message
  | .owner e => e.message

def field (bytes : Bytes) : Bytes := Bytes.word 8 bytes.length ++ bytes

def encode (t : Token) : Bytes :=
  field (Text.Utf8.ofString t.name) ++ field (Text.Utf8.ofString (Amount.text t.amount)) ++
    field (Text.Utf8.ofString t.owner.text)

def takeField (bytes : Bytes) : Except RecordFault (String × Bytes) :=
  if bytes.length < 8 then .error .endInLength
  else
    let length := Bytes.value (bytes.take 8)
    let rest := bytes.drop 8
    if rest.length < length then .error .endInField
    else
      match Text.Utf8.toString? (rest.take length) with
      | .ok s => .ok (s, rest.drop length)
      | .error e => .error (.notText e)

def decode (bytes : Bytes) : Except RecordFault Token := do
  let (name, rest) ← takeField bytes
  let (rawAmount, rest) ← takeField rest
  let amount ← (Amount.parse rawAmount).mapError .amount
  let (rawOwner, _) ← takeField rest
  let owner ← (Text.Hex.ofText rawOwner).mapError .owner
  return ⟨name, amount, ⟨owner⟩⟩

end TokenRegistry.Token
