/-!
# Where a text stops being JSON

`Flaw` names what is wrong at that place. The same place may be met by a reader
that wants the value there, by one that passes over it, and by one that wants the
enclosing array to be at its end; `Break` holds what each of the three reports.
-/
namespace TokenRegistry.Json

inductive Flaw
  | endInArray
  | endInObject
  | endInString
  | endInValue
  | expectedColon
  | expectedArrayComma
  | expectedObjectComma
  | expectedWord
  | expectedValue
  | invalidEscape
  | invalidNumber
  | numberOutOfRange
  | controlCharacter
  | keyNotString
  | loneSurrogate
  | unfinishedPair
  | trailingComma
  | trailingCharacters
  | tooDeep
  deriving DecidableEq, Repr

def Flaw.message : Flaw → String
  | .endInArray => "EOF while parsing a list"
  | .endInObject => "EOF while parsing an object"
  | .endInString => "EOF while parsing a string"
  | .endInValue => "EOF while parsing a value"
  | .expectedColon => "expected `:`"
  | .expectedArrayComma => "expected `,` or `]`"
  | .expectedObjectComma => "expected `,` or `\x7d`"
  | .expectedWord => "expected ident"
  | .expectedValue => "expected value"
  | .invalidEscape => "invalid escape"
  | .invalidNumber => "invalid number"
  | .numberOutOfRange => "number out of range"
  | .controlCharacter => "control character (\\u0000-\\u001F) found while parsing a string"
  | .keyNotString => "key must be a string"
  | .loneSurrogate => "lone leading surrogate in hex escape"
  | .unfinishedPair => "unexpected end of hex escape"
  | .trailingComma => "trailing comma"
  | .trailingCharacters => "trailing characters"
  | .tooDeep => "recursion limit exceeded"

structure Break where
  read : Flaw
  skipped : Flaw
  closed : Flaw
  deriving DecidableEq, Repr

/-- A place that every reader reports alike, except where an array should have ended. -/
def Break.both (f : Flaw) : Break := ⟨f, f, .trailingCharacters⟩

def Break.all (f : Flaw) : Break := ⟨f, f, f⟩

end TokenRegistry.Json
