import TokenRegistry.Proofs.Slug

/-!
# The words of a name

What the slug of a name is can be told by its words: the longest runs of letters,
digits and underscores in the name as it is spelled in ASCII, once quotes are dropped
and `&` and `@` are spelled out. The words are put in lower case and joined by single
dashes; what then stands at either end that is a dash or an underscore goes.
-/
namespace TokenRegistry.Slug

def isQuote (c : Char) : Bool := c = '"' || c = '\x27' || c = '\u2019'

def spelledOut (c : Char) : List Char :=
  if c = '&' then ['a', 'n', 'd'] else if c = '@' then ['a', 't'] else [c]

/-- The longest runs of word characters of a text. -/
def words (cs : List Char) : List (List Char) :=
  (cs.splitOnP fun c => !isWordChar c).filter fun w => !w.isEmpty

def ofWords [Spelling] (name : List Char) : List Char :=
  let spelled := Spelling.ascii ((name.filter fun c => !isQuote c).flatMap spelledOut)
  let joined := ['-'].intercalate ((words spelled).map (List.map Char.toLower))
  (joined.dropWhile isTrimmed).rdropWhile isTrimmed

theorem substituteChar_eq (c : Char) :
    substituteChar c = if isQuote c then [] else spelledOut c := by
  simp only [substituteChar, isQuote, spelledOut, Bool.or_eq_true, decide_eq_true_eq, or_assoc]

theorem substitute_eq (cs : List Char) :
    substitute cs = (cs.filter fun c => !isQuote c).flatMap spelledOut := by
  rw [substitute]
  induction cs with
  | nil => rfl
  | cons c cs ih =>
    rw [List.flatMap_cons, ih, substituteChar_eq, List.filter_cons]
    cases hquote : isQuote c with
    | true => rfl
    | false => exact (List.flatMap_cons (f := spelledOut)).symm

theorem trim_append {front back : List Char} (hfront : ∀ c ∈ front, isTrimmed c)
    (hback : ∀ c ∈ back, isTrimmed c) (cs : List Char) : trim (front ++ cs ++ back) = trim cs := by
  have hrback : back.rdropWhile isTrimmed = [] := List.rdropWhile_eq_nil_iff.mpr hback
  rw [trim_eq, trim_eq, List.append_assoc, List.dropWhile_append_of_pos hfront,
    List.dropWhile_append]
  split
  · rename_i hempty
    rw [List.isEmpty_iff.mp hempty, List.dropWhile_eq_nil_iff.mpr hback]
  · rw [List.rdropWhile, List.reverse_append,
      List.dropWhile_append_of_pos fun c hc => hback c (List.mem_reverse.mp hc)]
    rfl

section Words

variable {w cs : List Char} {s : Char}

theorem words_of_run (hw : ∀ c ∈ w, isWordChar c) :
    words w = [w].filter fun w => !w.isEmpty := by
  rw [words, List.splitOnP_eq_singleton fun c hc => by rw [hw c hc]; rfl]

theorem words_of_separated (hw : ∀ c ∈ w, isWordChar c) (hs : isWordChar s = false)
    (cs : List Char) : words (w ++ s :: cs) = ([w].filter fun w => !w.isEmpty) ++ words cs := by
  have hsep : (!isWordChar s) = true := by rw [hs]; rfl
  rw [words, List.splitOnP_append_cons_of_forall_mem (fun c hc => by rw [hw c hc]; rfl) s hsep,
    ← List.singleton_append, List.filter_append]
  rfl

theorem join_of_word {c : Char} (hc : isWordChar c) (dashed : Bool) (cs : List Char) :
    join dashed (c :: cs) = c.toLower :: join false cs := by
  rw [join, if_pos hc]

theorem join_of_run (dashed : Bool) (hw : ∀ c ∈ w, isWordChar c) (hne : w ≠ [])
    (cs : List Char) : join dashed (w ++ cs) = w.map Char.toLower ++ join false cs := by
  induction w generalizing dashed with
  | nil => exact absurd rfl hne
  | cons c w ih =>
    obtain ⟨hc, hrest⟩ := List.forall_mem_cons.mp hw
    rw [List.cons_append, join_of_word hc, List.map_cons, List.cons_append]
    cases w with
    | nil => rfl
    | cons d w => rw [ih false hrest (List.cons_ne_nil d w)]

theorem join_of_separator (hs : isWordChar s = false) (dashed : Bool) (cs : List Char) :
    join dashed (s :: cs) = (if dashed then [] else ['-']) ++ join true cs := by
  rw [join, if_neg (Bool.eq_false_iff.mp hs)]
  cases dashed with
  | true => rfl
  | false => rfl

theorem exists_run (cs : List Char) : ∃ w rest, cs = w ++ rest ∧ (∀ c ∈ w, isWordChar c) ∧
    ∀ s ∈ rest.head?, isWordChar s = false := by
  refine ⟨cs.takeWhile isWordChar, cs.dropWhile isWordChar,
    List.takeWhile_append_dropWhile.symm, fun c hc => List.mem_takeWhile_imp hc, ?_⟩
  intro s hs
  have hhead := List.head?_dropWhile_not isWordChar cs
  rwa [Option.mem_def.mp hs] at hhead

theorem exists_join_false (cs : List Char) :
    ∃ front, (∀ c ∈ front, isTrimmed c) ∧ join false cs = front ++ join true cs := by
  cases cs with
  | nil => exact ⟨[], nofun, rfl⟩
  | cons c cs =>
    cases hc : isWordChar c with
    | true => exact ⟨[], nofun, (join_of_word hc false cs).trans (join_of_word hc true cs).symm⟩
    | false =>
      refine ⟨['-'], List.forall_mem_singleton.mpr rfl, ?_⟩
      rw [join_of_separator hc, join_of_separator hc]
      rfl

theorem exists_join_true (cs : List Char) :
    ∃ back, (∀ c ∈ back, isTrimmed c) ∧
      join true cs = ['-'].intercalate ((words cs).map (List.map Char.toLower)) ++ back := by
  -- The induction goes from one run of word characters to the next, on the length of the text.
  induction hlength : cs.length using Nat.strong_induction_on generalizing cs with
  | h n ih =>
    obtain ⟨w, rest, rfl, hw, hrest⟩ := exists_run cs
    cases rest with
    | nil =>
      rw [List.append_nil, words_of_run hw]
      cases w with
      | nil => exact ⟨[], nofun, rfl⟩
      | cons c w =>
        refine ⟨[], nofun, ?_⟩
        have hrun := join_of_run true hw (List.cons_ne_nil c w) []
        rw [List.append_nil] at hrun
        change _ = ['-'].intercalate [(c :: w).map Char.toLower] ++ []
        rw [hrun, List.intercalate_singleton]
        rfl
    | cons s rest =>
      have hs := hrest s rfl
      obtain ⟨back, hback, hjoin⟩ := ih rest.length
        (by rw [← hlength, List.length_append, List.length_cons]; omega) rest rfl
      rw [words_of_separated hw hs]
      cases w with
      | nil => exact ⟨back, hback, (join_of_separator hs true rest).trans hjoin⟩
      | cons c w =>
        rw [join_of_run true hw (List.cons_ne_nil c w), join_of_separator hs, hjoin]
        cases hwords : words rest with
        | nil =>
          -- No word follows: the dash that was written is trimmed.
          refine ⟨'-' :: back, List.forall_mem_cons.mpr ⟨rfl, hback⟩, ?_⟩
          change _ = ['-'].intercalate [(c :: w).map Char.toLower] ++ _
          rw [List.intercalate_singleton]
          rfl
        | cons v vs =>
          refine ⟨back, hback, ?_⟩
          change _ = ['-'].intercalate ((c :: w).map Char.toLower :: _ :: _) ++ back
          rw [List.intercalate_cons_cons, List.append_assoc, List.append_assoc]
          rfl

end Words

theorem normalize_eq_ofWords [Spelling] (name : List Char) : normalize name = ofWords name := by
  rw [normalize, normalizeBy, substitute_eq, ofWords]
  generalize Spelling.ascii _ = cs
  obtain ⟨front, hfront, hjoin⟩ := exists_join_false cs
  obtain ⟨back, hback, hwords⟩ := exists_join_true cs
  rw [hjoin, hwords, ← List.append_assoc, trim_append hfront hback, trim_eq]

end TokenRegistry.Slug
