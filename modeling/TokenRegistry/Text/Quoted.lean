import TokenRegistry.Text.Hex
import TokenRegistry.Text.Invisible

/-!
# Quoted text

Text is shown between quotes on one line. The quote in use and the backslash take
a backslash before them, the zero character, tab, line feed and carriage return
have escapes of one letter, and every character that is not shown as itself is
written as its code point in braces.
-/
namespace TokenRegistry.Text.Quoted

def codePoint (c : Char) : List Char :=
  ['\\', 'u', '\x7b'] ++ Hex.ofNat c.toNat ++ ['\x7d']

def escapeChar (quote c : Char) : List Char :=
  if c = '\x00' then ['\\', '0']
  else if c = '\t' then ['\\', 't']
  else if c = '\r' then ['\\', 'r']
  else if c = '\n' then ['\\', 'n']
  else if c = '\\' ∨ c = quote then ['\\', c]
  else if isInvisible c then codePoint c
  else [c]

def between (quote : Char) (cs : List Char) : String :=
  String.ofList (quote :: cs.flatMap (escapeChar quote) ++ [quote])

def string (s : String) : String := between '"' s.toList

def char (c : Char) : String := between '\x27' [c]

end TokenRegistry.Text.Quoted

namespace TokenRegistry.Text.Hex

def Fault.message : Fault → String
  | .odd => "Odd number of digits"
  | .notDigit byte index =>
    s!"Invalid character {Quoted.char (Char.ofNat byte.toNat)} at position {index}"

end TokenRegistry.Text.Hex
