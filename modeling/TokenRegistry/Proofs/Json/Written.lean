import TokenRegistry.Proofs.Json.Literal
import TokenRegistry.Proofs.Json.Numeral

/-!
# Reading back what is written

Compact and indented text differ in the blanks before items and after colons. In
whatever style a value is written, its text is scanned as the outline of the value, as long
as nothing follows that could belong to a numeral.
-/
namespace TokenRegistry.Json

structure Style where
  gap : Nat → List Char
  afterColon : List Char
  gap_blank : ∀ level, ∀ c ∈ gap level, Scanner.isBlank c
  afterColon_blank : ∀ c ∈ afterColon, Scanner.isBlank c

namespace Style

def compact : Style where
  gap _ := []
  afterColon := []
  gap_blank _ _ h := absurd h List.not_mem_nil
  afterColon_blank _ h := absurd h List.not_mem_nil

def indented : Style where
  gap := newline
  afterColon := [' ']
  gap_blank level c h := by
    rcases List.mem_cons.mp h with rfl | h
    · rfl
    · rw [List.eq_of_mem_replicate h]
      rfl
  afterColon_blank c h := by
    rw [List.mem_singleton.mp h]
    rfl

end Style

mutual
def styled (st : Style) : (level : Nat) → Json → List Char
  | _, .null => ['n', 'u', 'l', 'l']
  | _, .bool b => word b
  | _, .number n => n.text
  | _, .string s => quote s
  | level, .array items => '[' :: styledItems st level items
  | level, .object members => '\x7b' :: styledMembers st level members

def styledItems (st : Style) : (level : Nat) → List Json → List Char
  | _, [] => [']']
  | level, v :: vs =>
    st.gap (level + 1) ++ (v.styled st (level + 1) ++ styledMoreItems st level vs)

def styledMoreItems (st : Style) : (level : Nat) → List Json → List Char
  | level, [] => st.gap level ++ [']']
  | level, v :: vs =>
    ',' :: (st.gap (level + 1) ++ (v.styled st (level + 1) ++ styledMoreItems st level vs))

def styledMembers (st : Style) : (level : Nat) → List (String × Json) → List Char
  | _, [] => ['\x7d']
  | level, (k, v) :: ms =>
    st.gap (level + 1) ++ (quote k ++ ':' :: (st.afterColon ++
      (v.styled st (level + 1) ++ styledMoreMembers st level ms)))

def styledMoreMembers (st : Style) : (level : Nat) → List (String × Json) → List Char
  | level, [] => st.gap level ++ ['\x7d']
  | level, (k, v) :: ms =>
    ',' :: (st.gap (level + 1) ++ (quote k ++ ':' :: (st.afterColon ++
      (v.styled st (level + 1) ++ styledMoreMembers st level ms))))
end

mutual
theorem styled_compact : (level : Nat) → (v : Json) → v.styled .compact level = v.compact
  | _, .null => rfl
  | _, .bool _ => rfl
  | _, .number _ => rfl
  | _, .string _ => rfl
  | level, .array items => by rw [styled, compact, styledItems_compact level items]
  | level, .object members => by rw [styled, compact, styledMembers_compact level members]

theorem styledItems_compact : (level : Nat) → (vs : List Json) →
    styledItems .compact level vs = compactItems vs
  | _, [] => rfl
  | level, v :: vs => by
    rw [styledItems, compactItems, styled_compact (level + 1) v, styledMoreItems_compact level vs]
    rfl

theorem styledMoreItems_compact : (level : Nat) → (vs : List Json) →
    styledMoreItems .compact level vs = compactMoreItems vs
  | _, [] => rfl
  | level, v :: vs => by
    rw [styledMoreItems, compactMoreItems, styled_compact (level + 1) v,
      styledMoreItems_compact level vs]
    rfl

theorem styledMembers_compact : (level : Nat) → (ms : List (String × Json)) →
    styledMembers .compact level ms = compactMembers ms
  | _, [] => rfl
  | level, (k, v) :: ms => by
    rw [styledMembers, compactMembers, styled_compact (level + 1) v,
      styledMoreMembers_compact level ms]
    rfl

theorem styledMoreMembers_compact : (level : Nat) → (ms : List (String × Json)) →
    styledMoreMembers .compact level ms = compactMoreMembers ms
  | _, [] => rfl
  | level, (k, v) :: ms => by
    rw [styledMoreMembers, compactMoreMembers, styled_compact (level + 1) v,
      styledMoreMembers_compact level ms]
    rfl
end

mutual
theorem styled_indented : (level : Nat) → (v : Json) → v.styled .indented level = v.indentedAt level
  | _, .null => rfl
  | _, .bool _ => rfl
  | _, .number _ => rfl
  | _, .string _ => rfl
  | _, .array [] => rfl
  | level, .array (v :: vs) => by
    rw [styled, styledItems, indentedAt, styled_indented (level + 1) v,
      styledMoreItems_indented level vs, List.append_assoc]
    rfl
  | _, .object [] => rfl
  | level, .object ((k, v) :: ms) => by
    rw [styled, styledMembers, indentedAt, styled_indented (level + 1) v,
      styledMoreMembers_indented level ms]
    simp [Style.indented]

theorem styledMoreItems_indented : (level : Nat) → (vs : List Json) →
    styledMoreItems .indented level vs = indentedItems level vs
  | _, [] => rfl
  | level, v :: vs => by
    rw [styledMoreItems, indentedItems, styled_indented (level + 1) v,
      styledMoreItems_indented level vs, List.append_assoc]
    rfl

theorem styledMoreMembers_indented : (level : Nat) → (ms : List (String × Json)) →
    styledMoreMembers .indented level ms = indentedMembers level ms
  | _, [] => rfl
  | level, (k, v) :: ms => by
    rw [styledMoreMembers, indentedMembers, styled_indented (level + 1) v,
      styledMoreMembers_indented level ms]
    simp [Style.indented]
end

theorem styled_starts (st : Style) (level : Nat) (v : Json) :
    ∃ c cs, v.styled st level = c :: cs ∧ Scanner.isBlank c = false ∧ c ≠ ']' := by
  cases v with
  | null => exact ⟨_, _, rfl, rfl, by decide⟩
  | bool b => cases b <;> exact ⟨_, _, rfl, rfl, by decide⟩
  | number n =>
    obtain ⟨c, cs, hcs, hc⟩ := n.text_starts
    refine ⟨c, cs, hcs, ?_, ?_⟩
    · exact Scanner.isBlank_eq_false_of_numeral hc
    · rintro rfl
      exact absurd hc (by decide)
  | string s => exact ⟨_, _, rfl, rfl, by decide⟩
  | array items => exact ⟨_, _, rfl, rfl, by decide⟩
  | object members => exact ⟨_, _, rfl, rfl, by decide⟩

namespace Scanner

section Steps

variable {fuel : Nat} {cs rest : List Char} {rest' : Option (List Char)}

theorem skipBlanks_append {blanks : List Char} (h : ∀ c ∈ blanks, isBlank c) (cs : List Char) :
    skipBlanks (blanks ++ cs) = skipBlanks cs := List.dropWhile_append_of_pos h

theorem skipBlanks_cons {c : Char} (h : isBlank c = false) (cs : List Char) :
    skipBlanks (c :: cs) = c :: cs := List.dropWhile_cons_of_neg (by simp [h])

theorem skipBlanks_styled (st : Style) {blanks : List Char} (hblanks : ∀ c ∈ blanks, isBlank c)
    (level : Nat) (v : Json) (cs : List Char) :
    skipBlanks (blanks ++ (v.styled st level ++ cs)) = v.styled st level ++ cs := by
  obtain ⟨c, text, htext, hblank, -⟩ := styled_starts st level v
  rw [skipBlanks_append hblanks, htext, List.cons_append, skipBlanks_cons hblank]

theorem value_blanks {blanks : List Char} (h : ∀ c ∈ blanks, isBlank c) (fuel : Nat)
    (cs : List Char) : value fuel (blanks ++ cs) = value fuel cs := by
  cases fuel with
  | zero => rfl
  | succ fuel => rw [value, value, skipBlanks_append h]

theorem value_quote (fuel : Nat) (s : String) (cs : List Char) :
    value (fuel + 1) (quote s ++ cs) = (.string (.ok s), some cs) := by
  rw [quote, List.cons_append, List.append_assoc, value, skipBlanks_cons rfl]
  exact literalScan_escaped s cs

theorem value_numeral (fuel : Nat) (n : Numeral) {cs : List Char} (hcs : EndsNumeral cs) :
    value (fuel + 1) (n.text ++ cs) = (.number n, some cs) := by
  have hscan := scanNumeral_text n hcs
  obtain ⟨c, text, htext, hc⟩ := n.text_starts
  rw [htext, List.cons_append] at hscan ⊢
  rw [value, skipBlanks_cons (isBlank_eq_false_of_numeral hc)]
  -- The words and the literal are tried first; none of them begins as a numeral does.
  have hother : c ≠ 'n' ∧ c ≠ 't' ∧ c ≠ 'f' ∧ c ≠ '"' := by
    refine ⟨?_, ?_, ?_, ?_⟩ <;>
      · rintro rfl
        exact absurd hc (by decide)
  simp only [hother, if_false, if_pos hc, numeralScan, hscan]

theorem value_array {os : List Outline} (h : items fuel cs = (os, rest')) :
    value (fuel + 1) ('[' :: cs) = (.array os, rest') := by
  rw [value, skipBlanks_cons rfl]
  simp [h, isDigit]

theorem value_object {ms : List (Except Flaw String × Outline)}
    (h : members fuel cs = (ms, rest')) :
    value (fuel + 1) ('\x7b' :: cs) = (.object ms, rest') := by
  rw [value, skipBlanks_cons rfl]
  simp [h, isDigit]

theorem itemsFrom_of_value {o : Outline} {os : List Outline}
    (hvalue : value fuel cs = (o, some rest)) (hmore : moreItems fuel rest = (os, rest')) :
    itemsFrom (fuel + 1) cs = (o :: os, rest') := by
  rw [itemsFrom, hvalue]
  simp only [hmore]

theorem items_of_starts {c : Char} (hcs : skipBlanks cs = c :: rest) (hc : c ≠ ']') :
    items (fuel + 1) cs = itemsFrom fuel (c :: rest) := by
  rw [items, hcs]
  split
  · contradiction
  · rename_i heq
    exact absurd (List.cons.inj heq).1 hc
  · rfl

theorem moreItems_of_starts {c : Char} (hcs : skipBlanks cs = c :: rest) (hc : c ≠ ']') :
    moreItems (fuel + 1) (',' :: cs) = itemsFrom fuel (c :: rest) := by
  rw [moreItems, skipBlanks_cons rfl]
  simp only [hcs]
  split
  · contradiction
  · rename_i heq
    exact absurd (List.cons.inj heq).1 hc
  · rfl

theorem moreItems_close {blanks : List Char} (h : ∀ c ∈ blanks, isBlank c) (rest : List Char) :
    moreItems (fuel + 1) (blanks ++ ']' :: rest) = ([], some rest) := by
  rw [moreItems, skipBlanks_append h, skipBlanks_cons rfl]
  rfl

theorem membersFrom_of_value {k : String} {o : Outline} {ms : List (Except Flaw String × Outline)}
    (hvalue : value fuel cs = (o, some rest)) (hmore : moreMembers fuel rest = (ms, rest')) :
    membersFrom (fuel + 1) (quote k ++ ':' :: cs) = ((.ok k, o) :: ms, rest') := by
  have hkey := literalScan_escaped k (':' :: cs)
  have hcolon : skipBlanks (':' :: cs) = ':' :: cs := skipBlanks_cons rfl cs
  rw [quote, List.cons_append, List.append_assoc, List.singleton_append, membersFrom]
  simp only [hkey, hcolon, hvalue, hmore]

theorem members_of_quote {blanks : List Char} (h : ∀ c ∈ blanks, isBlank c) (k : String)
    (cs : List Char) :
    members (fuel + 1) (blanks ++ (quote k ++ cs)) = membersFrom fuel (quote k ++ cs) := by
  rw [members, skipBlanks_append h, quote, List.cons_append, skipBlanks_cons rfl]
  rfl

theorem moreMembers_of_quote {blanks : List Char} (h : ∀ c ∈ blanks, isBlank c) (k : String)
    (cs : List Char) :
    moreMembers (fuel + 1) (',' :: (blanks ++ (quote k ++ cs))) =
      membersFrom fuel (quote k ++ cs) := by
  rw [moreMembers, skipBlanks_cons rfl]
  simp only [skipBlanks_append h]
  rw [quote, List.cons_append, skipBlanks_cons rfl]
  rfl

theorem moreMembers_close {blanks : List Char} (h : ∀ c ∈ blanks, isBlank c) (rest : List Char) :
    moreMembers (fuel + 1) (blanks ++ '\x7d' :: rest) = ([], some rest) := by
  rw [moreMembers, skipBlanks_append h, skipBlanks_cons rfl]
  rfl

end Steps

theorem endsNumeral_styledMoreItems (st : Style) (level : Nat) (vs : List Json)
    (rest : List Char) : EndsNumeral (styledMoreItems st level vs ++ rest) := by
  cases vs with
  | nil =>
    rw [styledMoreItems, List.append_assoc]
    exact endsNumeral_blanks (st.gap_blank level) rfl rest
  | cons v vs => exact endsNumeral_cons rfl _

theorem endsNumeral_styledMoreMembers (st : Style) (level : Nat) (ms : List (String × Json))
    (rest : List Char) : EndsNumeral (styledMoreMembers st level ms ++ rest) := by
  cases ms with
  | nil =>
    rw [styledMoreMembers, List.append_assoc]
    exact endsNumeral_blanks (st.gap_blank level) rfl rest
  | cons m ms => exact endsNumeral_cons rfl _

-- Only a numeral can go on after its end, and inside a list what follows an item never continues it.
-- A list takes two steps to get to its first item and two from the sign before each further one;
-- each value has at least one character, so fuel for three steps to a character is enough.
mutual
theorem value_styled (st : Style) : (v : Json) → (level fuel : Nat) → (rest : List Char) →
    EndsNumeral rest → 3 * (v.styled st level).length ≤ fuel →
    value fuel (v.styled st level ++ rest) = (v.outline, some rest)
  | v, level, 0, _, _, hfuel => by
    obtain ⟨c, text, htext, -⟩ := styled_starts st level v
    rw [htext, List.length_cons] at hfuel
    omega
  | .null, _, fuel + 1, rest, _, _ => rfl
  | .bool true, _, fuel + 1, rest, _, _ => rfl
  | .bool false, _, fuel + 1, rest, _, _ => rfl
  | .number n, _, fuel + 1, _, hrest, _ => value_numeral fuel n hrest
  | .string s, _, fuel + 1, rest, _, _ => value_quote fuel s rest
  | .array vs, level, fuel + 1, rest, _, hfuel => by
    rw [styled, List.length_cons] at hfuel
    exact value_array (items_styled st vs level fuel rest (by omega))
  | .object ms, level, fuel + 1, rest, _, hfuel => by
    rw [styled, List.length_cons] at hfuel
    exact value_object (members_styled st ms level fuel rest (by omega))

theorem items_styled (st : Style) : (vs : List Json) → (level fuel : Nat) → (rest : List Char) →
    3 * (styledItems st level vs).length + 2 ≤ fuel →
    items fuel (styledItems st level vs ++ rest) = (outlineItems vs, some rest)
  | _, _, 0, _, hfuel => absurd hfuel (by omega)
  | _, _, 1, _, hfuel => absurd hfuel (by omega)
  | [], _, fuel + 2, rest, _ => rfl
  | v :: vs, level, fuel + 2, rest, hfuel => by
    simp only [styledItems, List.length_append] at hfuel
    have hvalue := value_styled st v (level + 1) fuel (styledMoreItems st level vs ++ rest)
      (endsNumeral_styledMoreItems st level vs rest) (by omega)
    have hmore := moreItems_styled st vs level fuel rest (by omega)
    have hskip := skipBlanks_styled st (st.gap_blank (level + 1)) (level + 1) v
      (styledMoreItems st level vs ++ rest)
    obtain ⟨c, text, htext, -, hc⟩ := styled_starts st (level + 1) v
    rw [styledItems, List.append_assoc, List.append_assoc]
    rw [htext, List.cons_append] at hvalue hskip ⊢
    rw [items_of_starts hskip hc]
    exact itemsFrom_of_value hvalue hmore

theorem moreItems_styled (st : Style) : (vs : List Json) → (level fuel : Nat) →
    (rest : List Char) → 3 * (styledMoreItems st level vs).length ≤ fuel →
    moreItems fuel (styledMoreItems st level vs ++ rest) = (outlineItems vs, some rest)
  | [], level, fuel, rest, hfuel => by
    cases fuel with
    | zero =>
      simp [styledMoreItems] at hfuel
    | succ fuel =>
      rw [styledMoreItems, List.append_assoc]
      exact moreItems_close (st.gap_blank level) rest
  | v :: vs, level, fuel, rest, hfuel => by
    simp only [styledMoreItems, List.length_append, List.length_cons] at hfuel
    obtain ⟨fuel, rfl⟩ : ∃ n, fuel = n + 2 := ⟨fuel - 2, by omega⟩
    have hvalue := value_styled st v (level + 1) fuel (styledMoreItems st level vs ++ rest)
      (endsNumeral_styledMoreItems st level vs rest) (by omega)
    have hmore := moreItems_styled st vs level fuel rest (by omega)
    have hskip := skipBlanks_styled st (st.gap_blank (level + 1)) (level + 1) v
      (styledMoreItems st level vs ++ rest)
    obtain ⟨c, text, htext, -, hc⟩ := styled_starts st (level + 1) v
    rw [styledMoreItems, List.cons_append, List.append_assoc, List.append_assoc]
    rw [htext, List.cons_append] at hvalue hskip ⊢
    rw [moreItems_of_starts hskip hc]
    exact itemsFrom_of_value hvalue hmore

theorem members_styled (st : Style) : (ms : List (String × Json)) → (level fuel : Nat) →
    (rest : List Char) → 3 * (styledMembers st level ms).length + 2 ≤ fuel →
    members fuel (styledMembers st level ms ++ rest) = (outlineMembers ms, some rest)
  | _, _, 0, _, hfuel => absurd hfuel (by omega)
  | _, _, 1, _, hfuel => absurd hfuel (by omega)
  | [], _, fuel + 2, rest, _ => rfl
  | (k, v) :: ms, level, fuel + 2, rest, hfuel => by
    simp only [styledMembers, List.length_append, List.length_cons] at hfuel
    have hvalue := value_styled st v (level + 1) fuel (styledMoreMembers st level ms ++ rest)
      (endsNumeral_styledMoreMembers st level ms rest) (by omega)
    have hmore := moreMembers_styled st ms level fuel rest (by omega)
    rw [styledMembers]
    simp only [List.append_assoc, List.cons_append]
    rw [members_of_quote (st.gap_blank (level + 1))]
    rw [← value_blanks st.afterColon_blank] at hvalue
    exact membersFrom_of_value hvalue hmore

theorem moreMembers_styled (st : Style) : (ms : List (String × Json)) → (level fuel : Nat) →
    (rest : List Char) → 3 * (styledMoreMembers st level ms).length ≤ fuel →
    moreMembers fuel (styledMoreMembers st level ms ++ rest) = (outlineMembers ms, some rest)
  | [], level, fuel, rest, hfuel => by
    cases fuel with
    | zero =>
      simp [styledMoreMembers] at hfuel
    | succ fuel =>
      rw [styledMoreMembers, List.append_assoc]
      exact moreMembers_close (st.gap_blank level) rest
  | (k, v) :: ms, level, fuel, rest, hfuel => by
    simp only [styledMoreMembers, List.length_append, List.length_cons] at hfuel
    obtain ⟨fuel, rfl⟩ : ∃ n, fuel = n + 2 := ⟨fuel - 2, by omega⟩
    have hvalue := value_styled st v (level + 1) fuel (styledMoreMembers st level ms ++ rest)
      (endsNumeral_styledMoreMembers st level ms rest) (by omega)
    have hmore := moreMembers_styled st ms level fuel rest (by omega)
    rw [styledMoreMembers]
    simp only [List.append_assoc, List.cons_append]
    rw [moreMembers_of_quote (st.gap_blank (level + 1))]
    rw [← value_blanks st.afterColon_blank] at hvalue
    exact membersFrom_of_value hvalue hmore
end

end Scanner

theorem ofChars_styled (st : Style) (v : Json) (level : Nat) :
    Page.ofChars (v.styled st level) = ⟨v.outline, false⟩ := by
  have hvalue := Scanner.value_styled st v level (3 * (v.styled st level).length + 3) []
    Scanner.endsNumeral_nil (by omega)
  rw [List.append_nil] at hvalue
  rw [Page.ofChars, hvalue]
  rfl

theorem ofText_text (v : Json) : Page.ofText v.text = ⟨v.outline, false⟩ := by
  rw [Page.ofText, text, String.toList_ofList, ← styled_compact 0]
  exact ofChars_styled .compact v 0

theorem ofChars_indented (v : Json) : Page.ofChars v.indented = ⟨v.outline, false⟩ := by
  rw [indented, ← styled_indented]
  exact ofChars_styled .indented v 0

end TokenRegistry.Json
