import TokenRegistry.Json.Basic

/-!
# Writing JSON

`compact` writes a value without any blanks, `indented` with two spaces to a level
and a line to an item, and `sortKeys` puts the members of every object in ascending
key order first. Inside a string only the quote, the backslash and the control
characters below U+0020 are escaped.
-/
namespace TokenRegistry.Json

def hexDigit (n : Nat) : Char := "0123456789abcdef".toList.getD n '0'

def escapeChar (c : Char) : List Char :=
  if c = '"' then ['\\', '"']
  else if c = '\\' then ['\\', '\\']
  else if c = '\x08' then ['\\', 'b']
  else if c = '\t' then ['\\', 't']
  else if c = '\n' then ['\\', 'n']
  else if c = '\x0c' then ['\\', 'f']
  else if c = '\r' then ['\\', 'r']
  else if c.toNat < 0x20 then ['\\', 'u', '0', '0', hexDigit (c.toNat / 16), hexDigit (c.toNat % 16)]
  else [c]

def quote (s : String) : List Char := '"' :: (s.toList.flatMap escapeChar ++ ['"'])

def word (b : Bool) : List Char := if b then ['t', 'r', 'u', 'e'] else ['f', 'a', 'l', 's', 'e']

mutual
def compact : Json → List Char
  | .null => ['n', 'u', 'l', 'l']
  | .bool b => word b
  | .number n => n.text
  | .string s => quote s
  | .array items => '[' :: compactItems items
  | .object members => '\x7b' :: compactMembers members

def compactItems : List Json → List Char
  | [] => [']']
  | v :: vs => v.compact ++ compactMoreItems vs

def compactMoreItems : List Json → List Char
  | [] => [']']
  | v :: vs => ',' :: (v.compact ++ compactMoreItems vs)

def compactMembers : List (String × Json) → List Char
  | [] => ['\x7d']
  | (k, v) :: ms => quote k ++ ':' :: (v.compact ++ compactMoreMembers ms)

def compactMoreMembers : List (String × Json) → List Char
  | [] => ['\x7d']
  | (k, v) :: ms => ',' :: (quote k ++ ':' :: (v.compact ++ compactMoreMembers ms))
end

def newline (level : Nat) : List Char := '\n' :: List.replicate (2 * level) ' '

mutual
def indentedAt : (level : Nat) → Json → List Char
  | _, .null => ['n', 'u', 'l', 'l']
  | _, .bool b => word b
  | _, .number n => n.text
  | _, .string s => quote s
  | _, .array [] => ['[', ']']
  | level, .array (v :: vs) =>
    '[' :: (newline (level + 1) ++ v.indentedAt (level + 1) ++ indentedItems level vs)
  | _, .object [] => ['\x7b', '\x7d']
  | level, .object ((k, v) :: ms) =>
    '\x7b' :: (newline (level + 1) ++ quote k ++ ':' :: ' ' :: v.indentedAt (level + 1) ++
      indentedMembers level ms)

def indentedItems : (level : Nat) → List Json → List Char
  | level, [] => newline level ++ [']']
  | level, v :: vs =>
    ',' :: (newline (level + 1) ++ v.indentedAt (level + 1) ++ indentedItems level vs)

def indentedMembers : (level : Nat) → List (String × Json) → List Char
  | level, [] => newline level ++ ['\x7d']
  | level, (k, v) :: ms =>
    ',' :: (newline (level + 1) ++ quote k ++ ':' :: ' ' :: v.indentedAt (level + 1) ++
      indentedMembers level ms)
end

def indented (v : Json) : List Char := v.indentedAt 0

/-- Puts a member before the first one whose key is not smaller. -/
def insertMember (m : String × Json) : List (String × Json) → List (String × Json)
  | [] => [m]
  | m' :: ms => if m'.1 < m.1 then m' :: insertMember m ms else m :: m' :: ms

mutual
def sortKeys : Json → Json
  | .array items => .array (sortKeysItems items)
  | .object members => .object (sortKeysMembers members)
  | v => v

def sortKeysItems : List Json → List Json
  | [] => []
  | v :: vs => v.sortKeys :: sortKeysItems vs

def sortKeysMembers : List (String × Json) → List (String × Json)
  | [] => []
  | (k, v) :: ms => insertMember (k, v.sortKeys) (sortKeysMembers ms)
end

def text (v : Json) : String := String.ofList v.compact

end TokenRegistry.Json
