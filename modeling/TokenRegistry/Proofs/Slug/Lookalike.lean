import TokenRegistry.Proofs.Slug.Words

/-!
# Look-alike names

Names look alike if edits that no reader would take for a new name lead from one to the
other: letters change case, quotes come and go, `&` and `@` are spelled out, separators
stand for separators, and separators or underscores surround the name. Look-alike names
have the same slug, and among names in printable ASCII no other names have.
-/
namespace TokenRegistry.Slug

def isSeparator (c : Char) : Bool :=
  isPrintable c && !isWordChar c && !isQuote c && c ≠ '&' && c ≠ '@'

def isPadding (c : Char) : Bool := isSeparator c || c = '_'

/-- Printable ASCII and the quotes: how these are spelled in ASCII is not left open. -/
def isTypable (c : Char) : Bool := isPrintable c || isQuote c

/-- An edit that gives the name no other words. -/
inductive Edit : List Char → List Char → Prop
  | recase {cs cs' : List Char} (h : cs.map Char.toLower = cs'.map Char.toLower) : Edit cs cs'
  | quote (u v : List Char) {q : List Char} (h : ∀ c ∈ q, isQuote c) : Edit (u ++ v) (u ++ q ++ v)
  | spell (u v : List Char) (c : Char) : Edit (u ++ [c] ++ v) (u ++ spelledOut c ++ v)
  | separate (u v : List Char) {s s' : List Char} (hs : ∀ c ∈ s, isSeparator c) (hne : s ≠ [])
      (hs' : ∀ c ∈ s', isSeparator c) (hne' : s' ≠ []) : Edit (u ++ s ++ v) (u ++ s' ++ v)
  | pad (cs : List Char) {front back : List Char} (hfront : ∀ c ∈ front, isPadding c)
      (hback : ∀ c ∈ back, isPadding c) : Edit cs (front ++ cs ++ back)

def Lookalike : List Char → List Char → Prop := Relation.EqvGen Edit

theorem Edit.lookalike {cs cs' : List Char} (h : Edit cs cs') : Lookalike cs cs' := .rel _ _ h

theorem Lookalike.symm {cs cs' : List Char} (h : Lookalike cs cs') : Lookalike cs' cs :=
  Relation.EqvGen.symm _ _ h

theorem Lookalike.trans {cs cs' cs'' : List Char} (h : Lookalike cs cs')
    (h' : Lookalike cs' cs'') : Lookalike cs cs'' := Relation.EqvGen.trans _ _ _ h h'

section Chars

variable {c : Char}

theorem isPrintable_of_isSeparator (h : isSeparator c) : isPrintable c := by
  simp only [isSeparator, Bool.and_eq_true] at h
  exact h.1.1.1.1

theorem isWordChar_of_isSeparator (h : isSeparator c) : isWordChar c = false := by
  simp only [isSeparator, Bool.and_eq_true, Bool.not_eq_true'] at h
  exact h.1.1.1.2

theorem isPadding_iff : isPadding c ↔ isSeparator c ∨ c = '_' := by
  simp only [isPadding, Bool.or_eq_true, decide_eq_true_eq]

theorem isPadding_of_isTrimmed (h : isTrimmed c) : isPadding c := by
  rcases isTrimmed_iff.mp h with rfl | rfl
  · rfl
  · rfl

theorem isPrintable_of_isPadding (h : isPadding c) : isPrintable c := by
  rcases isPadding_iff.mp h with hseparator | rfl
  · exact isPrintable_of_isSeparator hseparator
  · rfl

theorem substituteChar_of_isPadding (h : isPadding c) : substituteChar c = [c] :=
  substituteChar_of_apart h (by decide) (by decide)

theorem isTypable_of_isPrintable (h : isPrintable c) : isTypable c := by
  rw [isTypable, h]
  rfl

theorem isTypable_of_isQuote (h : isQuote c) : isTypable c := by
  rw [isTypable, h, Bool.or_true]

theorem substituteChar_of_isAlpha (h : c.isAlpha) : substituteChar c = [c] :=
  substituteChar_of_apart h (by decide) (by decide)

theorem substituteChar_toLower (c : Char) :
    substituteChar c.toLower = (substituteChar c).map Char.toLower := by
  cases halpha : c.isAlpha with
  | true =>
    rw [substituteChar_of_isAlpha halpha,
      substituteChar_of_isAlpha ((Char.isAlpha_toLower_eq_isAlpha c).trans halpha)]
    rfl
  | false =>
    rw [toLower_of_not_isAlpha halpha]
    unfold substituteChar
    split_ifs
    · rfl
    · rfl
    · rfl
    · rw [List.map_singleton, toLower_of_not_isAlpha halpha]

theorem isWordChar_toLower (c : Char) : isWordChar c.toLower = isWordChar c := by
  cases halpha : c.isAlpha with
  | true =>
    rw [isWordChar, isWordChar, Char.isAlphanum, Char.isAlphanum, Char.isAlpha_toLower_eq_isAlpha,
      halpha]
    rfl
  | false => rw [toLower_of_not_isAlpha halpha]

theorem isPrintable_of_isAlpha (h : c.isAlpha) : isPrintable c := by
  simp only [isPrintable, Bool.and_eq_true, decide_eq_true_eq]
  rcases (Bool.or_eq_true _ _).mp h with hupper | hlower
  · have hrange := isUpper_iff.mp hupper
    omega
  · have hrange := isLower_iff.mp hlower
    omega

theorem isTypable_toLower (c : Char) : isTypable c.toLower = isTypable c := by
  cases halpha : c.isAlpha with
  | true =>
    have hlower : c.toLower.isAlpha := (Char.isAlpha_toLower_eq_isAlpha c).trans halpha
    rw [isTypable_of_isPrintable (isPrintable_of_isAlpha hlower),
      isTypable_of_isPrintable (isPrintable_of_isAlpha halpha)]
  | false => rw [toLower_of_not_isAlpha halpha]

theorem spelled_of_isAlpha (h : c.isAlpha) : isPrintable c ∧ (isWordChar c ∨ isSeparator c) := by
  refine ⟨isPrintable_of_isAlpha h, .inl ?_⟩
  rw [isWordChar, Char.isAlphanum, h]
  rfl

theorem spelled_of_mem_substituteChar {d : Char} (h : isTypable d) (hc : c ∈ substituteChar d) :
    isPrintable c ∧ (isWordChar c ∨ isSeparator c) := by
  rw [substituteChar_eq] at hc
  cases hquote : isQuote d with
  | true =>
    rw [hquote] at hc
    exact absurd hc List.not_mem_nil
  | false =>
    rw [isTypable, hquote, Bool.or_false] at h
    rw [hquote, if_neg Bool.false_ne_true, spelledOut] at hc
    split_ifs at hc with hand hat
    · have hletters : ∀ c ∈ ['a', 'n', 'd'], c.isAlpha := List.all_eq_true.mp rfl
      exact spelled_of_isAlpha (hletters c hc)
    · have hletters : ∀ c ∈ ['a', 't'], c.isAlpha := List.all_eq_true.mp rfl
      exact spelled_of_isAlpha (hletters c hc)
    · rw [List.mem_singleton.mp hc]
      refine ⟨h, ?_⟩
      cases hword : isWordChar d with
      | true => exact .inl rfl
      | false =>
        right
        simp [isSeparator, h, hword, hquote, hand, hat]

end Chars

section Texts

variable {cs cs' : List Char}

theorem substitute_append (cs cs' : List Char) :
    substitute (cs ++ cs') = substitute cs ++ substitute cs' :=
  List.flatMap_append

theorem substitute_of_isQuote {q : List Char} (h : ∀ c ∈ q, isQuote c) : substitute q = [] := by
  rw [substitute, List.flatMap_eq_nil_iff]
  intro c hc
  rw [substituteChar_eq, h c hc]
  rfl

theorem substitute_spelledOut (c : Char) : substitute (spelledOut c) = substitute [c] := by
  unfold spelledOut
  split_ifs with hand hat
  · rw [hand]
    decide
  · rw [hat]
    decide
  · rfl

theorem substitute_of_isPadding (h : ∀ c ∈ cs, isPadding c) : substitute cs = cs :=
  substitute_of_kept fun c hc => substituteChar_of_isPadding (h c hc)

theorem substitute_toLower (cs : List Char) :
    substitute (cs.map Char.toLower) = (substitute cs).map Char.toLower := by
  rw [substitute, substitute, List.flatMap_map, List.map_flatMap]
  exact List.flatMap_congr fun c _ => substituteChar_toLower c

theorem join_toLower (dashed : Bool) (cs : List Char) :
    join dashed (cs.map Char.toLower) = join dashed cs := by
  induction cs generalizing dashed with
  | nil => rfl
  | cons c cs ih =>
    rw [List.map_cons, join, join, isWordChar_toLower, Char.toLower_toLower_eq_toLower, ih, ih]

theorem join_append_congr (h : ∀ dashed, join dashed cs = join dashed cs') (dashed : Bool)
    (u : List Char) : join dashed (u ++ cs) = join dashed (u ++ cs') := by
  -- What `u` leaves to the rest is whether a dash was written last.
  induction u generalizing dashed with
  | nil => exact h dashed
  | cons c u ih => rw [List.cons_append, List.cons_append, join, join, ih, ih]

theorem join_of_separators {s : List Char} (hs : ∀ c ∈ s, isSeparator c) (hne : s ≠ [])
    (dashed : Bool) (cs : List Char) :
    join dashed (s ++ cs) = (if dashed then [] else ['-']) ++ join true cs := by
  induction s generalizing dashed with
  | nil => exact absurd rfl hne
  | cons c s ih =>
    obtain ⟨hc, hrest⟩ := List.forall_mem_cons.mp hs
    rw [List.cons_append, join_of_separator (isWordChar_of_isSeparator hc)]
    cases s with
    | nil => rfl
    | cons d s =>
      rw [ih hrest (List.cons_ne_nil d s)]
      rfl

theorem exists_join_padding {front : List Char} (h : ∀ c ∈ front, isPadding c) (dashed : Bool) :
    ∃ trimmed dashed', (∀ c ∈ trimmed, isTrimmed c) ∧
      ∀ cs, join dashed (front ++ cs) = trimmed ++ join dashed' cs := by
  induction front generalizing dashed with
  | nil => exact ⟨[], dashed, nofun, fun cs => rfl⟩
  | cons c front ih =>
    obtain ⟨hc, hrest⟩ := List.forall_mem_cons.mp h
    rcases isPadding_iff.mp hc with hseparator | rfl
    · obtain ⟨trimmed, dashed', htrimmed, hjoin⟩ := ih hrest true
      refine ⟨(if dashed then [] else ['-']) ++ trimmed, dashed', ?_, fun cs => ?_⟩
      · cases dashed with
        | true => exact htrimmed
        | false => exact List.forall_mem_cons.mpr ⟨rfl, htrimmed⟩
      · rw [List.cons_append, join_of_separator (isWordChar_of_isSeparator hseparator), hjoin,
          List.append_assoc]
    · obtain ⟨trimmed, dashed', htrimmed, hjoin⟩ := ih hrest false
      refine ⟨'_' :: trimmed, dashed', List.forall_mem_cons.mpr ⟨rfl, htrimmed⟩, fun cs => ?_⟩
      rw [List.cons_append, join_of_word rfl, hjoin]
      rfl

theorem exists_join_append {back : List Char} (h : ∀ c ∈ back, isPadding c) (dashed : Bool)
    (cs : List Char) :
    ∃ trimmed, (∀ c ∈ trimmed, isTrimmed c) ∧
      join dashed (cs ++ back) = join dashed cs ++ trimmed := by
  induction cs generalizing dashed with
  | nil =>
    obtain ⟨trimmed, dashed', htrimmed, hjoin⟩ := exists_join_padding h dashed
    refine ⟨trimmed, htrimmed, ?_⟩
    have hback := hjoin []
    rwa [List.append_nil, join, List.append_nil] at hback
  | cons c cs ih =>
    cases hword : isWordChar c with
    | true =>
      obtain ⟨trimmed, htrimmed, hjoin⟩ := ih false
      refine ⟨trimmed, htrimmed, ?_⟩
      rw [List.cons_append, join_of_word hword, join_of_word hword, hjoin]
      rfl
    | false =>
      obtain ⟨trimmed, htrimmed, hjoin⟩ := ih true
      refine ⟨trimmed, htrimmed, ?_⟩
      rw [List.cons_append, join_of_separator hword, join_of_separator hword, hjoin,
        List.append_assoc]

theorem trim_join (dashed : Bool) (cs : List Char) :
    trim (join dashed cs) = trim (join false cs) := by
  cases dashed with
  | false => rfl
  | true =>
    obtain ⟨front, hfront, hjoin⟩ := exists_join_false cs
    rw [hjoin, ← List.append_nil (front ++ join true cs),
      trim_append hfront (List.forall_mem_nil _)]

theorem trim_join_pad {front back : List Char} (hfront : ∀ c ∈ front, isPadding c)
    (hback : ∀ c ∈ back, isPadding c) (cs : List Char) :
    trim (join false (front ++ cs ++ back)) = trim (join false cs) := by
  obtain ⟨first, dashed, hfirst, hjoin⟩ := exists_join_padding hfront false
  obtain ⟨last, hlast, hjoin'⟩ := exists_join_append hback dashed cs
  rw [List.append_assoc, hjoin, hjoin', ← List.append_assoc, trim_append hfirst hlast, trim_join]

end Texts

def typed (name : List Char) : List Char := normalizeBy id name

section Edits

variable {cs cs' : List Char}

theorem Edit.typed_eq (h : Edit cs cs') : typed cs = typed cs' := by
  unfold typed normalizeBy
  cases h with
  | recase h =>
    -- Joining puts letters in lower case anyway, and substituting does not see their case.
    rw [id, id, ← join_toLower false (substitute cs), ← join_toLower false (substitute cs'),
      ← substitute_toLower, ← substitute_toLower, h]
  | quote u v h => simp only [substitute_append, substitute_of_isQuote h, List.append_nil]
  | spell u v c => simp only [substitute_append, substitute_spelledOut]
  | separate u v hs hne hs' hne' =>
    rename_i s s'
    have hsubstitute : ∀ {s : List Char}, (∀ c ∈ s, isSeparator c) → substitute s = s :=
      fun hs => substitute_of_isPadding fun c hc => isPadding_iff.mpr (.inl (hs c hc))
    have hjoin : ∀ dashed, join dashed (s ++ substitute v) = join dashed (s' ++ substitute v) := by
      intro dashed
      rw [join_of_separators hs hne, join_of_separators hs' hne']
    rw [substitute_append, substitute_append, hsubstitute hs, substitute_append, substitute_append,
      hsubstitute hs', id, id, List.append_assoc, List.append_assoc, join_append_congr hjoin]
  | pad cs hfront hback =>
    simp only [substitute_append, substitute_of_isPadding hfront, substitute_of_isPadding hback]
    exact (trim_join_pad hfront hback _).symm

theorem isTypable_map_toLower_iff :
    (∀ c ∈ cs.map Char.toLower, isTypable c) ↔ ∀ c ∈ cs, isTypable c := by
  rw [List.forall_mem_map]
  exact forall₂_congr fun c _ => by rw [isTypable_toLower]

theorem isTypable_spelledOut_iff (c : Char) :
    (∀ d ∈ spelledOut c, isTypable d) ↔ ∀ d ∈ [c], isTypable d := by
  unfold spelledOut
  split_ifs with hand hat
  · rw [hand]
    exact iff_of_true (List.all_eq_true.mp rfl) (List.all_eq_true.mp rfl)
  · rw [hat]
    exact iff_of_true (List.all_eq_true.mp rfl) (List.all_eq_true.mp rfl)
  · exact Iff.rfl

theorem Edit.isTypable_iff (h : Edit cs cs') :
    (∀ c ∈ cs, isTypable c) ↔ ∀ c ∈ cs', isTypable c := by
  cases h with
  | recase h => rw [← isTypable_map_toLower_iff, h, isTypable_map_toLower_iff]
  | quote u v h =>
    have hquotes : ∀ c ∈ _, isTypable c := fun c hc => isTypable_of_isQuote (h c hc)
    simp only [List.forall_mem_append, iff_true_intro hquotes, and_true]
  | spell u v c => simp only [List.forall_mem_append, isTypable_spelledOut_iff]
  | separate u v hs _ hs' _ =>
    have htyped : ∀ {s : List Char}, (∀ c ∈ s, isSeparator c) → ∀ c ∈ s, isTypable c :=
      fun hs c hc => isTypable_of_isPrintable (isPrintable_of_isSeparator (hs c hc))
    simp only [List.forall_mem_append, iff_true_intro (htyped hs), iff_true_intro (htyped hs')]
  | pad cs hfront hback =>
    have htyped : ∀ {s : List Char}, (∀ c ∈ s, isPadding c) → ∀ c ∈ s, isTypable c :=
      fun hs c hc => isTypable_of_isPrintable (isPrintable_of_isPadding (hs c hc))
    simp only [List.forall_mem_append, iff_true_intro (htyped hfront),
      iff_true_intro (htyped hback), true_and, and_true]

theorem Lookalike.value_eq {α : Sort*} (f : List Char → α)
    (hf : ∀ {cs cs'}, Edit cs cs' → f cs = f cs') (h : Lookalike cs cs') : f cs = f cs' := by
  induction h with
  | rel _ _ hedit => exact hf hedit
  | refl _ => rfl
  | symm _ _ _ ih => exact ih.symm
  | trans _ _ _ _ _ ih ih' => exact ih.trans ih'

theorem Lookalike.typed_eq (h : Lookalike cs cs') : typed cs = typed cs' :=
  h.value_eq typed Edit.typed_eq

theorem Lookalike.isTypable_iff (h : Lookalike cs cs') :
    (∀ c ∈ cs, isTypable c) ↔ ∀ c ∈ cs', isTypable c :=
  iff_of_eq (h.value_eq (fun cs => ∀ c ∈ cs, isTypable c) fun hedit => propext hedit.isTypable_iff)

end Edits

section Slugs

variable {cs : List Char}

theorem spelled_of_mem_substitute (h : ∀ c ∈ cs, isTypable c) {c : Char}
    (hc : c ∈ substitute cs) : isPrintable c ∧ (isWordChar c ∨ isSeparator c) := by
  obtain ⟨d, hd, hmem⟩ := List.mem_flatMap.mp hc
  exact spelled_of_mem_substituteChar (h d hd) hmem

theorem lookalike_substitute (u cs : List Char) : Lookalike (u ++ cs) (u ++ substitute cs) := by
  induction cs generalizing u with
  | nil => exact .refl _
  | cons c cs ih =>
    have hsplit : u ++ c :: cs = u ++ [c] ++ cs := by rw [List.append_assoc, List.singleton_append]
    have hcons : substitute (c :: cs) = substituteChar c ++ substitute cs := List.flatMap_cons
    rw [hsplit, hcons, substituteChar_eq]
    cases hquote : isQuote c with
    | true =>
      have hedit : Edit (u ++ cs) (u ++ [c] ++ cs) :=
        .quote u cs (List.forall_mem_singleton.mpr hquote)
      exact hedit.lookalike.symm.trans (ih u)
    | false =>
      have hedit : Edit (u ++ [c] ++ cs) (u ++ spelledOut c ++ cs) := .spell u cs c
      have hrest := ih (u ++ spelledOut c)
      rw [List.append_assoc u _ (substitute cs)] at hrest
      exact hedit.lookalike.trans hrest

def lastDash : (dashed : Bool) → List Char
  | false => []
  | true => ['-']

theorem isSeparator_lastDash (dashed : Bool) : ∀ c ∈ lastDash dashed, isSeparator c := by
  cases dashed with
  | false => exact List.forall_mem_nil _
  | true => exact List.forall_mem_singleton.mpr rfl

theorem lastDash_join_of_separator {s : Char} (hs : isWordChar s = false) (dashed : Bool)
    (cs : List Char) : lastDash dashed ++ join dashed (s :: cs) = lastDash true ++ join true cs := by
  rw [join_of_separator hs]
  cases dashed with
  | false => rfl
  | true => rfl

theorem lookalike_join (hspelled : ∀ c ∈ cs, isWordChar c ∨ isSeparator c) (u : List Char)
    (dashed : Bool) :
    Lookalike (u ++ (lastDash dashed ++ cs)) (u ++ (lastDash dashed ++ join dashed cs)) := by
  induction cs generalizing u dashed with
  | nil => exact .refl _
  | cons c cs ih =>
    obtain ⟨hc, hrest⟩ := List.forall_mem_cons.mp hspelled
    cases hword : isWordChar c with
    | true =>
      have hedit : Edit (u ++ (lastDash dashed ++ c :: cs))
          (u ++ (lastDash dashed ++ c.toLower :: cs)) := .recase (by simp)
      have hstep := ih hrest (u ++ (lastDash dashed ++ [c.toLower])) false
      simp only [lastDash, List.append_assoc, List.cons_append, List.nil_append] at hstep hedit
      rw [join_of_word hword]
      exact hedit.lookalike.trans hstep
    | false =>
      -- The separator goes into the dash before it, or becomes that dash.
      have hseparator : isSeparator c := hc.resolve_left (Bool.eq_false_iff.mp hword)
      have hrun : ∀ d ∈ lastDash dashed ++ [c], isSeparator d :=
        List.forall_mem_append.mpr
          ⟨isSeparator_lastDash dashed, List.forall_mem_singleton.mpr hseparator⟩
      have hedit : Edit (u ++ (lastDash dashed ++ [c]) ++ cs) (u ++ lastDash true ++ cs) :=
        .separate u cs hrun (by simp) (isSeparator_lastDash true) (List.cons_ne_nil _ _)
      simp only [List.append_assoc, List.cons_append, List.nil_append] at hedit
      rw [lastDash_join_of_separator hword]
      exact hedit.lookalike.trans (ih hrest u true)

theorem exists_trim (cs : List Char) : ∃ front back, (∀ c ∈ front, isTrimmed c) ∧
    (∀ c ∈ back, isTrimmed c) ∧ front ++ trim cs ++ back = cs := by
  refine ⟨cs.takeWhile isTrimmed, (cs.dropWhile isTrimmed).rtakeWhile isTrimmed,
    fun c hc => List.mem_takeWhile_imp hc, fun c hc => List.mem_rtakeWhile_imp hc, ?_⟩
  rw [trim, List.rtakeWhile, List.append_assoc, ← List.reverse_append,
    List.takeWhile_append_dropWhile, List.reverse_reverse, List.takeWhile_append_dropWhile]

theorem lookalike_typed (h : ∀ c ∈ cs, isTypable c) : Lookalike cs (typed cs) := by
  have hjoin : Lookalike (substitute cs) (join false (substitute cs)) :=
    lookalike_join (fun c hc => (spelled_of_mem_substitute h hc).2) [] false
  -- What is trimmed is padding of the slug.
  obtain ⟨front, back, hfront, hback, hsplit⟩ := exists_trim (join false (substitute cs))
  have hpad : Edit (typed cs) (front ++ typed cs ++ back) :=
    .pad _ (fun c hc => isPadding_of_isTrimmed (hfront c hc))
      fun c hc => isPadding_of_isTrimmed (hback c hc)
  have htrim : Lookalike (typed cs) (join false (substitute cs)) := by
    rw [← hsplit]
    exact hpad.lookalike
  have hsubstitute : Lookalike cs (substitute cs) := lookalike_substitute [] cs
  exact hsubstitute.trans (hjoin.trans htrim.symm)

variable [Spelling]

theorem normalize_of_typable (h : ∀ c ∈ cs, isTypable c) : normalize cs = typed cs := by
  have hprintable : ∀ c ∈ substitute cs, isPrintable c :=
    fun c hc => (spelled_of_mem_substitute h hc).1
  rw [normalize, typed, normalizeBy, normalizeBy, Spelling.ascii_of_printable hprintable, id]

theorem lookalike_iff {cs cs' : List Char} (h : ∀ c ∈ cs, isTypable c) :
    Lookalike cs cs' ↔ (∀ c ∈ cs', isTypable c) ∧ normalize cs = normalize cs' := by
  constructor
  · intro hlookalike
    have h' := hlookalike.isTypable_iff.mp h
    refine ⟨h', ?_⟩
    rw [normalize_of_typable h, normalize_of_typable h', hlookalike.typed_eq]
  · rintro ⟨h', heq⟩
    have hslug := lookalike_typed h
    rw [← normalize_of_typable h, heq, normalize_of_typable h'] at hslug
    exact hslug.trans (lookalike_typed h').symm

end Slugs

/-- The slug of a name is told by its words, and the names that look like a name that can be typed
are those with the same slug. -/
theorem meaning_ofName [Spelling] :
    (∀ name, (ofName name).toList = ofWords name.toList) ∧
      ∀ name name', (∀ c ∈ name.toList, isTypable c) →
        (Lookalike name.toList name'.toList ↔
          (∀ c ∈ name'.toList, isTypable c) ∧ ofName name = ofName name') := by
  constructor
  · intro name
    rw [ofName, String.toList_ofList, normalize_eq_ofWords]
  · intro name name' h
    rw [lookalike_iff h, ofName, ofName, String.ofList_inj]

theorem meaning_of_sandCoin :
    Lookalike "Sand Coin".toList "_SAND--coi\u2019n".toList ∧
      ofName "Sand Coin" = ofName "_SAND--coi\u2019n" := by
  have htypable : ∀ c ∈ "Sand Coin".toList, isTypable c := List.all_eq_true.mp rfl
  have hcase : Edit "Sand Coin".toList "SAND coin".toList := .recase (by decide)
  have hseparator : Edit "SAND coin".toList "SAND--coin".toList :=
    @Edit.separate "SAND".toList "coin".toList " ".toList "--".toList (List.all_eq_true.mp rfl)
      (List.cons_ne_nil ' ' []) (List.all_eq_true.mp rfl) (List.cons_ne_nil '-' ['-'])
  have hquote : Edit "SAND--coin".toList "SAND--coi\u2019n".toList :=
    @Edit.quote "SAND--coi".toList "n".toList "\u2019".toList (List.all_eq_true.mp rfl)
  have hpad : Edit "SAND--coi\u2019n".toList "_SAND--coi\u2019n".toList :=
    @Edit.pad "SAND--coi\u2019n".toList "_".toList [] (List.all_eq_true.mp rfl)
      (List.forall_mem_nil _)
  have hlookalike : Lookalike "Sand Coin".toList "_SAND--coi\u2019n".toList :=
    hcase.lookalike.trans (hseparator.lookalike.trans (hquote.lookalike.trans hpad.lookalike))
  exact ⟨hlookalike, ((meaning_ofName.2 _ _ htypable).mp hlookalike).2⟩

end TokenRegistry.Slug
