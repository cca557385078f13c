import TokenRegistry.Json.Printer
import TokenRegistry.Json.Reader
import TokenRegistry.Sha256

/-!
# Account addresses

An address names the account that owns a token or holds coins; it is a byte string
and only ever compared with others. Its text is lower-case hex, and behind a label
the text that people exchange; in JSON it is its hex. An address may be derived from a
seed: it is then the first twenty bytes of a digest.
-/
namespace TokenRegistry

structure Address where
  bytes : Bytes
  deriving DecidableEq, Repr

namespace Address

def empty : Address := ⟨[]⟩

instance : Inhabited Address := ⟨empty⟩

def isEmpty (a : Address) : Bool := a.bytes.isEmpty

def derivedLength : Nat := 20

/-- Keeps digests for addresses apart from digests for other purposes. -/
def domainSeparator : String := "BRANDED_TOKEN_Account"

def derive (seed : Bytes) : Address :=
  ⟨(Sha256.digest (Text.Utf8.ofString domainSeparator ++ seed)).take derivedLength⟩

theorem length_derive (seed : Bytes) : (derive seed).bytes.length = derivedLength := by
  simp [derive, derivedLength, Sha256.length_digest]

def text (a : Address) : String := Text.Hex.text a.bytes

def labelled (label : String) (a : Address) : String := label ++ a.text

inductive Fault
  | missingLabel (value label : String)
  | hex (value : String) (e : Text.Hex.Fault)
  deriving DecidableEq, Repr

def Fault.message : Fault → String
  | .missingLabel value label => s!"address `{value}` does not start with `{label}`"
  | .hex value e => s!"invalid address `{value}`: {e.message}"

def afterLabel? : (label value : List Char) → Option (List Char)
  | [], cs => some cs
  | _ :: _, [] => none
  | l :: ls, c :: cs => if l = c then afterLabel? ls cs else none

def ofLabelled (label value : String) : Except Fault Address :=
  match afterLabel? label.toList value.toList with
  | none => .error (.missingLabel value label)
  | some body =>
    match Text.Hex.decode (Text.Utf8.encode body) with
    | .ok bytes => .ok ⟨bytes⟩
    | .error e => .error (.hex value e)

def toJson (a : Address) : Json := .string a.text

def read : Json.Reader Address := Json.mapRead Address.mk Json.readHex

def compare (a b : Address) : Ordering :=
  if a.bytes < b.bytes then .lt else if a.bytes = b.bytes then .eq else .gt

theorem afterLabel?_append (label body : List Char) :
    afterLabel? label (label ++ body) = some body := by
  induction label with
  | nil => rfl
  | cons l ls ih => simp [afterLabel?, ih]

theorem eq_append_of_afterLabel? {label value body : List Char}
    (h : afterLabel? label value = some body) : value = label ++ body := by
  induction label generalizing value with
  | nil => simpa [afterLabel?] using h
  | cons l ls ih =>
    cases value with
    | nil => simp [afterLabel?] at h
    | cons c cs =>
      rw [afterLabel?] at h
      split at h
      · rename_i hlc
        rw [hlc, ih h, List.cons_append]
      · simp at h

end Address

end TokenRegistry
