import TokenRegistry.Slug.Transliteration

/-!
# Slugs

A slug is the key that all look-alike names of a token share. Quotes are dropped,
`&` and `@` are spelled out, and the rest is transliterated to ASCII; then every
run of characters that are neither letters, digits nor underscores becomes one
dash, letters become lower-case, and dashes and underscores are trimmed off both
ends. How texts are spelled in ASCII is left open: the table of spellings is one way.
-/
namespace TokenRegistry.Slug

def substituteChar (c : Char) : List Char :=
  if c = '"' ∨ c = '\x27' ∨ c = '\u2019' then []
  else if c = '&' then ['a', 'n', 'd']
  else if c = '@' then ['a', 't']
  else [c]

def substitute (cs : List Char) : List Char := cs.flatMap substituteChar

def isWordChar (c : Char) : Bool := c.isAlphanum || c = '_'

def isTrimmed (c : Char) : Bool := c = '-' || c = '_'

/-- Joins the words of a text by dashes; `dashed` says that a dash was written last. -/
def join : (dashed : Bool) → List Char → List Char
  | _, [] => []
  | dashed, c :: cs =>
    if isWordChar c then c.toLower :: join false cs
    else if dashed then join true cs
    else '-' :: join true cs

def trim (cs : List Char) : List Char :=
  ((cs.dropWhile isTrimmed).reverse.dropWhile isTrimmed).reverse

def normalizeBy (ascii : List Char → List Char) (name : List Char) : List Char :=
  trim (join false (ascii (substitute name)))

def isPrintable (c : Char) : Bool := 0x20 ≤ c.toNat && c.toNat < 0x7F

/-- How texts are spelled in ASCII. Only texts that are printable ASCII already need stay as they
are. -/
class Spelling where
  ascii : List Char → List Char
  ascii_of_printable {cs : List Char} : (∀ c ∈ cs, isPrintable c) → ascii cs = cs

theorem isPlain_of_isPrintable {c : Char} (h : isPrintable c) : isPlain c := by
  simp only [isPrintable, isPlain, Bool.and_eq_true, decide_eq_true_eq] at h ⊢
  exact h.2

instance (priority := low) : Spelling :=
  ⟨transliterate, fun h => transliterate_of_plain fun c hc => isPlain_of_isPrintable (h c hc)⟩

def normalize [Spelling] (name : List Char) : List Char := normalizeBy Spelling.ascii name

def ofName [Spelling] (name : String) : String := String.ofList (normalize name.toList)

end TokenRegistry.Slug
