import TokenRegistry.Proofs.Slug

/-!
# The language of slugs

Which texts are slugs can be told from the texts themselves: small letters, digits,
dashes and underscores that begin and end with a letter or a digit and have no two
dashes in a row, and the empty text. Every name has its slug in this language, and
every text of the language is the slug of itself, however names are spelled in ASCII.
-/
namespace TokenRegistry.Slug

/-- The texts that are slugs. What is asked of both ends says nothing of the empty text. -/
structure InLanguage (cs : List Char) : Prop where
  chars : ∀ c ∈ cs, c.isLower ∨ c.isDigit ∨ c = '-' ∨ c = '_'
  first : ∀ c ∈ cs.head?, c.isLower ∨ c.isDigit
  last : ∀ c ∈ cs.getLast?, c.isLower ∨ c.isDigit
  dashes : ¬ ['-', '-'] <:+: cs

variable {c : Char} {cs : List Char}

theorem isSlugChar_iff : isSlugChar c ↔ c.isLower ∨ c.isDigit ∨ c = '-' ∨ c = '_' := by
  simp only [isSlugChar, isTrimmed, Bool.or_eq_true, decide_eq_true_eq, or_assoc]

theorem not_isTrimmed_iff (h : isSlugChar c) : ¬ isTrimmed c ↔ c.isLower ∨ c.isDigit := by
  rw [isTrimmed_iff]
  constructor
  · intro hne
    rcases isSlugChar_iff.mp h with hlower | hdigit | hends
    · exact .inl hlower
    · exact .inr hdigit
    · exact absurd hends hne
  · intro hend
    rintro (rfl | rfl)
    · exact absurd hend (by decide)
    · exact absurd hend (by decide)

theorem separated_true_iff : Separated true cs ↔ cs.head? ≠ some '-' ∧ Separated false cs := by
  cases cs with
  | nil => exact ⟨fun _ => ⟨nofun, trivial⟩, fun _ => trivial⟩
  | cons c cs =>
    change ((c = '-' → true = false) ∧ _) ↔ some c ≠ some '-' ∧ (c = '-' → false = false) ∧ _
    rw [Ne, Option.some_inj]
    constructor
    · intro h
      exact ⟨fun hdash => absurd (h.1 hdash) (by decide), fun _ => rfl, h.2⟩
    · intro h
      exact ⟨fun hdash => absurd hdash h.1, h.2.2⟩

theorem doubleDash_infix_cons_iff :
    ['-', '-'] <:+: c :: cs ↔ c = '-' ∧ cs.head? = some '-' ∨ ['-', '-'] <:+: cs := by
  rw [List.infix_cons_iff, List.cons_prefix_cons, eq_comm (a := '-')]
  refine or_congr_left (and_congr_right' ?_)
  cases cs with
  | nil => simp
  | cons d ds => simp [List.cons_prefix_cons, eq_comm]

theorem separated_iff : Separated false cs ↔ ¬ ['-', '-'] <:+: cs := by
  induction cs with
  | nil => exact iff_of_true trivial (by simp)
  | cons c cs ih =>
    change ((c = '-' → false = false) ∧ Separated (c = '-') cs) ↔ _
    rw [and_iff_right fun _ => rfl, doubleDash_infix_cons_iff, not_or, ← ih]
    by_cases hdash : c = '-'
    · rw [decide_eq_true hdash, separated_true_iff, Ne, and_iff_right hdash]
    · rw [decide_eq_false hdash, and_iff_right fun h => hdash h.1]

theorem dropWhile_eq_self_iff :
    cs.dropWhile isTrimmed = cs ↔ ∀ c ∈ cs.head?, ¬ isTrimmed c := by
  cases cs with
  | nil => exact iff_of_true rfl nofun
  | cons c cs =>
    rw [List.dropWhile_eq_self_iff, List.head?_cons]
    simp

theorem rdropWhile_eq_self_iff :
    cs.rdropWhile isTrimmed = cs ↔ ∀ c ∈ cs.getLast?, ¬ isTrimmed c := by
  rw [List.rdropWhile_eq_self_iff]
  constructor
  · intro h c hc
    obtain ⟨hne, rfl⟩ := List.mem_getLast?_eq_getLast hc
    exact h hne
  · intro h hne
    exact h _ (List.getLast_mem_getLast? hne)

theorem trim_eq_self_iff :
    trim cs = cs ↔ (∀ c ∈ cs.head?, ¬ isTrimmed c) ∧ ∀ c ∈ cs.getLast?, ¬ isTrimmed c := by
  rw [← dropWhile_eq_self_iff, ← rdropWhile_eq_self_iff]
  constructor
  · intro h
    -- What is left in the end is no longer than what is left after the front is done.
    have hinitial := trim_prefix cs
    have hlength := hinitial.length_le
    rw [h] at hlength
    have hfront := (List.dropWhile_suffix isTrimmed).eq_of_length_le hlength
    rw [trim_eq, hfront] at h
    exact ⟨hfront, h⟩
  · rintro ⟨hfront, hback⟩
    rw [trim_eq, hfront, hback]

theorem canonical_iff : Canonical cs ↔ InLanguage cs := by
  have hend : (∀ c ∈ cs, isSlugChar c) → ∀ o : Option Char, (∀ c ∈ o, c ∈ cs) →
      ((∀ c ∈ o, ¬ isTrimmed c) ↔ ∀ c ∈ o, c.isLower ∨ c.isDigit) := by
    intro hchars o ho
    exact forall₂_congr fun c hc => not_isTrimmed_iff (hchars c (ho c hc))
  constructor
  · intro h
    obtain ⟨hfirst, hlast⟩ := trim_eq_self_iff.mp h.trimmed
    refine ⟨fun c hc => isSlugChar_iff.mp (h.chars c hc), ?_, ?_, separated_iff.mp h.separated⟩
    · exact (hend h.chars _ fun c hc => List.mem_of_mem_head? hc).mp hfirst
    · exact (hend h.chars _ fun c hc => List.mem_of_mem_getLast? hc).mp hlast
  · intro h
    have hchars : ∀ c ∈ cs, isSlugChar c := fun c hc => isSlugChar_iff.mpr (h.chars c hc)
    refine ⟨hchars, separated_iff.mpr h.dashes, trim_eq_self_iff.mpr ⟨?_, ?_⟩⟩
    · exact (hend hchars _ fun c hc => List.mem_of_mem_head? hc).mpr h.first
    · exact (hend hchars _ fun c hc => List.mem_of_mem_getLast? hc).mpr h.last

/-- Slugs are the texts of the language: every name has its slug there, and there every text is its
own slug. -/
theorem language_ofName [Spelling] :
    (∀ name, InLanguage (ofName name).toList) ∧ (∀ s, InLanguage s.toList → ofName s = s) ∧
      (∀ name, ofName (ofName name) = ofName name) ∧
      Set.range ofName = {s | InLanguage s.toList} := by
  have hslug : ∀ name, InLanguage (ofName name).toList := by
    intro name
    rw [ofName, String.toList_ofList]
    exact canonical_iff.mp (canonical_normalize name.toList)
  have hown : ∀ s, InLanguage s.toList → ofName s = s := by
    intro s hs
    rw [ofName, normalize_of_canonical (canonical_iff.mpr hs), String.ofList_toList]
  refine ⟨hslug, hown, ofName_ofName, ?_⟩
  apply Set.eq_of_subset_of_subset
  · rintro s ⟨name, rfl⟩
    exact hslug name
  · intro s hs
    exact ⟨s, hown s hs⟩

end TokenRegistry.Slug
