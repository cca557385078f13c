import TokenRegistry.Json.Printer
import TokenRegistry.Json.Scanner

/-!
# Reading back string literals

The literal of a text is read as that text, whatever its characters, and passed over
to its closing quote.
-/
namespace TokenRegistry.Json.Scanner

/-- The character is spelled by the first characters of a text, of which there are `n + 1`. -/
structure Spells (c e : Char) (n : Nat) (cs : List Char) : Prop where
  read : literalChar e cs = .ok (some (c, n + 1))
  passed : passedChar e cs = .ok (n + 1)

theorem hexValue?_hexDigit : ∀ n < 16, hexValue? (hexDigit n) = some n := by decide

theorem unit?_control {n : Nat} (h : n < 0x20) (cs : List Char) :
    unit? ('0' :: '0' :: hexDigit (n / 16) :: hexDigit (n % 16) :: cs) = some n := by
  have hzero : hexValue? '0' = some 0 := by decide
  have hhigh := hexValue?_hexDigit (n / 16) (by omega)
  have hlow := hexValue?_hexDigit (n % 16) (by omega)
  have hsum : ((0 * 16 + 0) * 16 + n / 16) * 16 + n % 16 = n := by omega
  simp only [unit?, hzero, hhigh, hlow, Option.bind_eq_bind, Option.bind_some, Option.pure_def,
    hsum]

theorem spells_control {c : Char} (h : c.toNat < 0x20) (cs : List Char) :
    Spells c '\\' 5
      ('u' :: '0' :: '0' :: hexDigit (c.toNat / 16) :: hexDigit (c.toNat % 16) :: cs) := by
  have hunit := unit?_control h cs
  have hlow : isLowSurrogate c.toNat = false := by
    simp only [isLowSurrogate, Bool.and_eq_false_iff, decide_eq_false_iff_not]
    omega
  have hhigh : isHighSurrogate c.toNat = false := by
    simp only [isHighSurrogate, Bool.and_eq_false_iff, decide_eq_false_iff_not]
    omega
  constructor
  · simp [literalChar, unicodeEscape, hunit, hlow, hhigh, Except.map]
  · simp [passedChar, hunit]

theorem spells_simple {c e : Char} (h : simpleEscape? e = some c) (cs : List Char) :
    Spells c '\\' 1 (e :: cs) := by
  have hu : e ≠ 'u' := by
    rintro rfl
    cases h
  constructor
  · simp [literalChar, h]
  · simp [passedChar, h]

theorem spells_plain {c : Char} (hquote : c ≠ '"') (hslash : c ≠ '\\') (h : ¬ c.toNat < 0x20)
    (cs : List Char) : Spells c c 0 cs := by
  constructor
  · simp [literalChar, hquote, hslash, h]
  · simp [passedChar, hquote, hslash, h]

def lettered : List Char := ['"', '\\', '\x08', '\t', '\n', '\x0c', '\r']

theorem escapeChar_of_lettered {c : Char} (h : c ∈ lettered) :
    ∃ e, escapeChar c = ['\\', e] ∧ simpleEscape? e = some c := by
  simp only [lettered, List.mem_cons, List.not_mem_nil, or_false] at h
  rcases h with rfl | rfl | rfl | rfl | rfl | rfl | rfl <;> exact ⟨_, rfl, rfl⟩

theorem spells_escapeChar (c : Char) (cs : List Char) :
    ∃ e es, escapeChar c = e :: es ∧ Spells c e es.length (es ++ cs) := by
  by_cases h : c ∈ lettered
  · obtain ⟨e, hescape, he⟩ := escapeChar_of_lettered h
    exact ⟨_, _, hescape, spells_simple he cs⟩
  · simp only [lettered, List.mem_cons, not_or] at h
    obtain ⟨hquote, hslash, hback, htab, hline, hform, hreturn, -⟩ := h
    rw [escapeChar, if_neg hquote, if_neg hslash, if_neg hback, if_neg htab, if_neg hline,
      if_neg hform, if_neg hreturn]
    split
    · rename_i hcontrol
      exact ⟨_, _, rfl, spells_control hcontrol cs⟩
    · rename_i hcontrol
      exact ⟨_, _, rfl, spells_plain hquote hslash hcontrol cs⟩

theorem literalFrom_skip (es cs : List Char) :
    literalFrom es.length (es ++ cs) = literalFrom 0 cs := by
  induction es with
  | nil => rfl
  | cons e es ih => exact ih

theorem afterLiteralFrom_skip (es cs : List Char) :
    afterLiteralFrom es.length (es ++ cs) = afterLiteralFrom 0 cs := by
  induction es with
  | nil => rfl
  | cons e es ih => exact ih

theorem literalFrom_escaped (s cs : List Char) :
    literalFrom 0 (s.flatMap escapeChar ++ '"' :: cs) = .ok s := by
  induction s with
  | nil => rfl
  | cons c s ih =>
    obtain ⟨e, es, hescape, hspells⟩ :=
      spells_escapeChar c (s.flatMap escapeChar ++ '"' :: cs)
    rw [List.flatMap_cons, hescape, List.append_assoc, List.cons_append, literalFrom, hspells.read]
    change (literalFrom es.length _ >>= fun ds => _) = _
    rw [literalFrom_skip, ih]
    rfl

theorem afterLiteralFrom_escaped (s cs : List Char) :
    afterLiteralFrom 0 (s.flatMap escapeChar ++ '"' :: cs) = .ok cs := by
  induction s with
  | nil => rfl
  | cons c s ih =>
    obtain ⟨e, es, hescape, hspells⟩ :=
      spells_escapeChar c (s.flatMap escapeChar ++ '"' :: cs)
    rw [List.flatMap_cons, hescape, List.append_assoc, List.cons_append, afterLiteralFrom,
      hspells.passed]
    change afterLiteralFrom es.length _ = _
    rw [afterLiteralFrom_skip, ih]

theorem literalScan_escaped (s : String) (cs : List Char) :
    literalScan (s.toList.flatMap escapeChar ++ '"' :: cs) = (.string (.ok s), some cs) := by
  rw [literalScan, afterLiteral, afterLiteralFrom_escaped, literal, literalFrom_escaped]
  simp [Except.map]

end TokenRegistry.Json.Scanner
