import Mathlib
import TokenRegistry.Slug

/-!
# Laws of slugs

A slug is made of small letters, digits, underscores and dashes, has no two dashes in
a row, and neither starts nor ends with a dash or an underscore. Such texts are their
own slugs, however texts are spelled. The empty name has no slug.
-/
namespace TokenRegistry.Slug

def isSlugChar (c : Char) : Bool := c.isLower || c.isDigit || isTrimmed c

/-- No dash comes after a dash; `dashed` says that one comes before the text. -/
def Separated : (dashed : Bool) → List Char → Prop
  | _, [] => True
  | dashed, c :: cs => (c = '-' → dashed = false) ∧ Separated (c = '-') cs

structure Canonical (cs : List Char) : Prop where
  chars : ∀ c ∈ cs, isSlugChar c
  separated : Separated false cs
  trimmed : trim cs = cs

section Chars

variable {c : Char}

theorem isUpper_iff : c.isUpper ↔ 65 ≤ c.toNat ∧ c.toNat ≤ 90 := by
  rw [Char.isUpper, decide_eq_true_iff]
  rfl

theorem isLower_iff : c.isLower ↔ 97 ≤ c.toNat ∧ c.toNat ≤ 122 := by
  rw [Char.isLower, Bool.and_eq_true, decide_eq_true_iff, decide_eq_true_iff]
  rfl

theorem isDigit_iff : c.isDigit ↔ 48 ≤ c.toNat ∧ c.toNat ≤ 57 := by
  rw [Char.isDigit, Bool.and_eq_true, decide_eq_true_iff, decide_eq_true_iff]
  rfl

theorem isTrimmed_iff : isTrimmed c ↔ c = '-' ∨ c = '_' := by
  simp only [isTrimmed, Bool.or_eq_true, decide_eq_true_eq]

theorem toLower_of_not_isAlpha (h : c.isAlpha = false) : c.toLower = c := by
  obtain ⟨hupper, -⟩ := Bool.or_eq_false_iff.mp h
  exact Char.toLower_eq_of_not_isUpper (Bool.eq_false_iff.mp hupper)

theorem isSlugChar_toLower (h : isWordChar c) : isSlugChar c.toLower ∧ c.toLower ≠ '-' := by
  cases halpha : c.isAlpha with
  | true =>
    have hlower : c.toLower.isLower := (Char.isLower_toLower_eq_isAlpha c).trans halpha
    refine ⟨by simp [isSlugChar, hlower], ?_⟩
    intro heq
    rw [heq] at hlower
    exact absurd hlower (by decide)
  | false =>
    rw [toLower_of_not_isAlpha halpha]
    simp only [isWordChar, Char.isAlphanum, halpha, Bool.false_or, Bool.or_eq_true,
      decide_eq_true_eq] at h
    constructor
    · simp only [isSlugChar, isTrimmed]
      grind
    · rintro rfl
      exact absurd h (by decide)

theorem toNat_of_isSlugChar (h : isSlugChar c) :
    97 ≤ c.toNat ∧ c.toNat ≤ 122 ∨ 48 ≤ c.toNat ∧ c.toNat ≤ 57 ∨ c.toNat = 45 ∨ c.toNat = 95 := by
  simp only [isSlugChar, isTrimmed, Bool.or_eq_true, isLower_iff, isDigit_iff,
    decide_eq_true_eq] at h
  rcases h with (hlower | hdigit) | rfl | rfl
  · exact .inl hlower
  · exact .inr (.inl hdigit)
  · exact .inr (.inr (.inl rfl))
  · exact .inr (.inr (.inr rfl))

theorem not_isUpper_of_isSlugChar (h : isSlugChar c) : ¬ c.isUpper := by
  have hrange := toNat_of_isSlugChar h
  rw [isUpper_iff]
  omega

theorem isPrintable_of_isSlugChar (h : isSlugChar c) : isPrintable c := by
  have hrange := toNat_of_isSlugChar h
  simp only [isPrintable, Bool.and_eq_true, decide_eq_true_eq]
  omega

theorem eq_dash_of_not_isWordChar (h : isSlugChar c) (hword : isWordChar c = false) : c = '-' := by
  simp only [isSlugChar, isTrimmed, isWordChar, Char.isAlphanum, Char.isAlpha] at h hword
  grind

theorem substituteChar_of_apart {p : Char → Bool} (h : p c)
    (hquotes : p '"' = false ∧ p '\x27' = false ∧ p '\u2019' = false)
    (hspelled : p '&' = false ∧ p '@' = false) : substituteChar c = [c] := by
  have hne : ∀ d, p d = false → c ≠ d := by
    rintro d hd rfl
    rw [h] at hd
    cases hd
  rw [substituteChar, if_neg, if_neg (hne _ hspelled.1), if_neg (hne _ hspelled.2)]
  rintro (heq | heq | heq)
  · exact hne _ hquotes.1 heq
  · exact hne _ hquotes.2.1 heq
  · exact hne _ hquotes.2.2 heq

theorem substituteChar_of_isSlugChar (h : isSlugChar c) : substituteChar c = [c] :=
  substituteChar_of_apart h (by decide) (by decide)

end Chars

section Texts

variable {cs : List Char}

theorem isSlugChar_of_mem_join {dashed : Bool} {c : Char} (h : c ∈ join dashed cs) :
    isSlugChar c := by
  induction cs generalizing dashed with
  | nil => exact absurd h List.not_mem_nil
  | cons d cs ih =>
    rw [join] at h
    split at h
    · rename_i hword
      rcases List.mem_cons.mp h with rfl | hmem
      · exact (isSlugChar_toLower hword).1
      · exact ih hmem
    · split at h
      · exact ih h
      · rcases List.mem_cons.mp h with rfl | hmem
        · decide
        · exact ih hmem

theorem separated_join (dashed : Bool) (cs : List Char) : Separated dashed (join dashed cs) := by
  induction cs generalizing dashed with
  | nil => trivial
  | cons d cs ih =>
    rw [join]
    split
    · rename_i hword
      have hne := (isSlugChar_toLower hword).2
      refine ⟨fun heq => absurd heq hne, ?_⟩
      rw [decide_eq_false hne]
      exact ih false
    · cases dashed with
      | true => exact ih true
      | false => exact ⟨fun _ => rfl, ih true⟩

theorem Separated.of_dashed {dashed : Bool} (h : Separated dashed cs) : Separated false cs := by
  cases cs with
  | nil => trivial
  | cons c cs => exact ⟨fun _ => rfl, h.2⟩

theorem Separated.of_initial {dashed : Bool} {cs' : List Char} (h : Separated dashed cs)
    (hinitial : cs' <+: cs) : Separated dashed cs' := by
  obtain ⟨rest, rfl⟩ := hinitial
  induction cs' generalizing dashed with
  | nil => trivial
  | cons c cs' ih => exact ⟨h.1, ih h.2⟩

theorem Separated.of_suffix {cs' : List Char} (h : Separated false cs) (hsuffix : cs' <:+ cs) :
    Separated false cs' := by
  obtain ⟨front, rfl⟩ := hsuffix
  induction front with
  | nil => exact h
  | cons c front ih => exact ih h.2.of_dashed

theorem join_of_separated {dashed : Bool} (hchars : ∀ c ∈ cs, isSlugChar c)
    (h : Separated dashed cs) : join dashed cs = cs := by
  induction cs generalizing dashed with
  | nil => rfl
  | cons c cs ih =>
    have hc := hchars c List.mem_cons_self
    have hrest := ih (fun d hd => hchars d (List.mem_cons_of_mem _ hd)) h.2
    rw [join]
    cases hword : isWordChar c with
    | true =>
      have hne : c ≠ '-' := by
        rintro rfl
        exact absurd hword (by decide)
      rw [decide_eq_false hne] at hrest
      rw [if_pos rfl, Char.toLower_eq_of_not_isUpper (not_isUpper_of_isSlugChar hc), hrest]
    | false =>
      have hdash := eq_dash_of_not_isWordChar hc hword
      rw [decide_eq_true hdash] at hrest
      rw [h.1 hdash, if_neg Bool.false_ne_true, if_neg Bool.false_ne_true, hrest, hdash]

theorem trim_eq (cs : List Char) :
    trim cs = (cs.dropWhile isTrimmed).rdropWhile isTrimmed := rfl

theorem trim_prefix (cs : List Char) : trim cs <+: cs.dropWhile isTrimmed :=
  List.rdropWhile_prefix _ _

theorem trim_trim (cs : List Char) : trim (trim cs) = trim cs := by
  have hfront : (trim cs).dropWhile isTrimmed = trim cs := by
    cases htrim : trim cs with
    | nil => rfl
    | cons c rest =>
      -- The first character that is left is the first that is not dropped in front.
      obtain ⟨more, hmore⟩ := trim_prefix cs
      have hhead := List.head?_dropWhile_not isTrimmed cs
      rw [← hmore, htrim] at hhead
      exact List.dropWhile_cons_of_neg (Bool.eq_false_iff.mp hhead)
  rw [trim_eq, hfront, trim_eq, List.rdropWhile_idempotent]

theorem substitute_of_kept (h : ∀ c ∈ cs, substituteChar c = [c]) : substitute cs = cs := by
  induction cs with
  | nil => rfl
  | cons c cs ih =>
    have hrest := ih fun d hd => h d (List.mem_cons_of_mem _ hd)
    rw [substitute] at hrest ⊢
    rw [List.flatMap_cons, h c List.mem_cons_self, hrest]
    rfl

variable [Spelling]

theorem normalize_of_canonical (h : Canonical cs) : normalize cs = cs := by
  have hprintable : ∀ c ∈ cs, isPrintable c := fun c hc => isPrintable_of_isSlugChar (h.chars c hc)
  have hkept : substitute cs = cs :=
    substitute_of_kept fun c hc => substituteChar_of_isSlugChar (h.chars c hc)
  rw [normalize, normalizeBy, hkept, Spelling.ascii_of_printable hprintable,
    join_of_separated h.chars h.separated, h.trimmed]

theorem canonical_normalize (name : List Char) : Canonical (normalize name) := by
  rw [normalize, normalizeBy]
  generalize Spelling.ascii (substitute name) = cs
  have hinitial := trim_prefix (join false cs)
  have hsuffix : (join false cs).dropWhile isTrimmed <:+ join false cs := List.dropWhile_suffix _
  refine ⟨?_, ?_, trim_trim _⟩
  · intro c hc
    exact isSlugChar_of_mem_join (hsuffix.mem (hinitial.mem hc))
  · exact ((separated_join false cs).of_suffix hsuffix).of_initial hinitial

theorem ofName_ofName (name : String) : ofName (ofName name) = ofName name := by
  have hcanonical := canonical_normalize name.toList
  rw [ofName, ofName, String.toList_ofList, normalize_of_canonical hcanonical]

theorem ofName_empty : ofName "" = "" := by
  have hcanonical : Canonical [] := ⟨fun c hc => absurd hc List.not_mem_nil, trivial, rfl⟩
  rw [ofName]
  change String.ofList (normalize []) = ""
  rw [normalize_of_canonical hcanonical]

end Texts

end TokenRegistry.Slug
