import TokenRegistry.Json.Scanner
import TokenRegistry.Proofs.Amount

/-!
# Reading back numerals

The text of a numeral is scanned as that numeral, as long as what follows could not
belong to it: a digit, a point or an exponent. Nothing that stands after a value in
JSON begins with one of these.
-/
namespace TokenRegistry.Json

namespace Scanner

def continuesNumeral (c : Char) : Bool := isDigit c || c = '.' || c = 'e' || c = 'E'

def EndsNumeral (cs : List Char) : Prop := ∀ c ∈ cs.head?, continuesNumeral c = false

theorem endsNumeral_nil : EndsNumeral [] := nofun

theorem endsNumeral_cons {c : Char} (h : continuesNumeral c = false) (cs : List Char) :
    EndsNumeral (c :: cs) := by
  intro d hd
  rw [← Option.some.inj hd]
  exact h

theorem continuesNumeral_of_isBlank {c : Char} (h : isBlank c) : continuesNumeral c = false := by
  simp only [isBlank, Bool.or_eq_true, decide_eq_true_eq] at h
  rcases h with ((rfl | rfl) | rfl) | rfl <;> rfl

theorem isBlank_eq_false_of_numeral {c : Char} (h : c = '-' ∨ isDigit c) : isBlank c = false := by
  rcases h with rfl | h
  · rfl
  · cases hblank : isBlank c with
    | false => rfl
    | true =>
      have hends := continuesNumeral_of_isBlank hblank
      rw [continuesNumeral, h] at hends
      exact absurd hends (by simp)

theorem endsNumeral_blanks {blanks : List Char} (h : ∀ c ∈ blanks, isBlank c) {c : Char}
    (hc : continuesNumeral c = false) (cs : List Char) : EndsNumeral (blanks ++ c :: cs) := by
  cases blanks with
  | nil => exact endsNumeral_cons hc cs
  | cons b blanks =>
    exact endsNumeral_cons (continuesNumeral_of_isBlank (h b List.mem_cons_self)) _

section Digits

variable {cs rest : List Char}

theorem natOf_toDigits (n : Nat) : natOf (Nat.toDigits 10 n) = n := Nat.ofDigitChars_ten_toDigits

theorem toDigits_starts (n : Nat) :
    ∃ c cs, Nat.toDigits 10 n = c :: cs ∧ isDigit c ∧ (c = '0' → n = 0) := by
  cases hd : Nat.toDigits 10 n with
  | nil => exact absurd hd Nat.toDigits_ne_nil
  | cons c cs =>
    refine ⟨c, cs, rfl, Amount.isDigit_of_mem_toDigits (n := n) (hd ▸ List.mem_cons_self), ?_⟩
    rintro rfl
    exact Amount.eq_zero_of_toDigits hd

theorem takeWhile_digits (h : ∀ c ∈ cs, isDigit c) (hrest : ∀ c ∈ rest.head?, isDigit c = false) :
    (cs ++ rest).takeWhile isDigit = cs := by
  rw [List.takeWhile_append_of_pos h]
  cases rest with
  | nil => exact List.append_nil cs
  | cons c rest =>
    rw [List.takeWhile_cons_of_neg (by simp [hrest c rfl]), List.append_nil]

theorem dropWhile_digits (h : ∀ c ∈ cs, isDigit c) (hrest : ∀ c ∈ rest.head?, isDigit c = false) :
    (cs ++ rest).dropWhile isDigit = rest := by
  rw [List.dropWhile_append_of_pos h]
  cases rest with
  | nil => rfl
  | cons c rest => exact List.dropWhile_cons_of_neg (by simp [hrest c rfl])

theorem takeWhile_toDigits (n : Nat) (hrest : ∀ c ∈ rest.head?, isDigit c = false) :
    (Nat.toDigits 10 n ++ rest).takeWhile isDigit = Nat.toDigits 10 n :=
  takeWhile_digits (fun _ => Amount.isDigit_of_mem_toDigits) hrest

theorem dropWhile_toDigits (n : Nat) (hrest : ∀ c ∈ rest.head?, isDigit c = false) :
    (Nat.toDigits 10 n ++ rest).dropWhile isDigit = rest :=
  dropWhile_digits (fun _ => Amount.isDigit_of_mem_toDigits) hrest

theorem EndsNumeral.isDigit_eq (h : EndsNumeral rest) : ∀ c ∈ rest.head?, isDigit c = false := by
  intro c hc
  have hends := h c hc
  simp only [continuesNumeral, Bool.or_eq_false_iff] at hends
  exact hends.1.1.1

end Digits

theorem scanWhole_toDigits (n : Nat) {rest : List Char}
    (hrest : ∀ c ∈ rest.head?, isDigit c = false) :
    scanWhole (Nat.toDigits 10 n ++ rest) = .ok (n, rest) := by
  obtain ⟨c, cs, hcs, hc, hzero⟩ := toDigits_starts n
  by_cases h : c = '0'
  · obtain rfl := hzero h
    have hnone : ((rest.head?.map isDigit).getD false) = false := by
      cases rest with
      | nil => rfl
      | cons d rest => exact hrest d rfl
    rw [Nat.toDigits_zero, List.singleton_append, scanWhole, hnone]
    rfl
  · have hne : (Nat.toDigits 10 n).isEmpty = false := by rw [hcs]; rfl
    rw [scanWhole.eq_def]
    split
    · rename_i heq
      rw [hcs] at heq
      exact absurd (List.cons.inj heq).1 h
    · simp only [takeWhile_toDigits n hrest, dropWhile_toDigits n hrest, hne, natOf_toDigits,
        Bool.false_eq_true, if_false]

theorem digitOf_digitChar : ∀ d : Fin 10, digitOf (Numeral.digitChar d) = d := by decide

theorem isDigit_digitChar : ∀ d : Fin 10, isDigit (Numeral.digitChar d) := by decide

def fractionText (fraction : List (Fin 10)) : List Char :=
  if fraction = [] then [] else '.' :: fraction.map Numeral.digitChar

def exponentText : Option Int → List Char
  | none => []
  | some (.ofNat e) => 'e' :: Nat.toDigits 10 e
  | some (.negSucc e) => 'e' :: '-' :: Nat.toDigits 10 (e + 1)

theorem scanFraction_text (fraction : List (Fin 10)) {rest : List Char}
    (hrest : ∀ c ∈ rest.head?, isDigit c = false ∧ c ≠ '.') :
    scanFraction (fractionText fraction ++ rest) = .ok (fraction, rest) := by
  cases fraction with
  | nil =>
    cases rest with
    | nil => rfl
    | cons c rest =>
      rw [fractionText, if_pos rfl, List.nil_append, scanFraction.eq_def]
      split
      · rename_i heq
        exact absurd (List.cons.inj heq).1 (hrest c rfl).2
      · rfl
  | cons d ds =>
    have hdigits : ∀ c ∈ (d :: ds).map Numeral.digitChar, isDigit c := by
      intro c hc
      obtain ⟨e, -, rfl⟩ := List.mem_map.mp hc
      exact isDigit_digitChar e
    have hback : ((d :: ds).map Numeral.digitChar).map digitOf = d :: ds := by
      rw [List.map_map, show digitOf ∘ Numeral.digitChar = id from funext digitOf_digitChar,
        List.map_id]
    have hne : ((d :: ds).map Numeral.digitChar).isEmpty = false := rfl
    have htake := takeWhile_digits hdigits fun c hc => (hrest c hc).1
    have hdrop := dropWhile_digits hdigits fun c hc => (hrest c hc).1
    rw [fractionText, if_neg (List.cons_ne_nil d ds), List.cons_append, scanFraction]
    simp only [htake, hdrop, hback, hne, Bool.false_eq_true, if_false]

theorem scanExponent_digits (negative : Bool) (e : Nat) {rest : List Char}
    (hrest : ∀ c ∈ rest.head?, isDigit c = false) :
    scanExponent ('e' :: ((if negative then ['-'] else []) ++ (Nat.toDigits 10 e ++ rest))) =
      .ok (some (if negative then -(e : Int) else e), rest) := by
  have htake := takeWhile_toDigits e hrest
  have hdrop := dropWhile_toDigits e hrest
  have hnat := natOf_toDigits e
  obtain ⟨c, cs, hcs, hc, -⟩ := toDigits_starts e
  -- Without a minus sign, the first digit stands where a sign is looked for.
  obtain ⟨hminus, hplus⟩ := Amount.ne_sign_of_isDigit hc
  rw [hcs] at hnat
  rw [hcs, List.cons_append] at htake hdrop
  rw [hcs, scanExponent, if_pos (.inl rfl)]
  cases negative with
  | true => simp [htake, hdrop, hnat]
  | false => simp [hminus, hplus, htake, hdrop, hnat]

theorem scanExponent_text (exponent : Option Int) {rest : List Char} (hrest : EndsNumeral rest) :
    scanExponent (exponentText exponent ++ rest) = .ok (exponent, rest) := by
  cases exponent with
  | none =>
    cases rest with
    | nil => rfl
    | cons c rest =>
      have hends := hrest c rfl
      simp only [continuesNumeral, Bool.or_eq_false_iff, decide_eq_false_iff_not] at hends
      rw [exponentText, List.nil_append, scanExponent, if_neg]
      rintro (h | h)
      · exact hends.1.2 h
      · exact hends.2 h
  | some e =>
    cases e with
    | ofNat e => exact scanExponent_digits false e hrest.isDigit_eq
    | negSucc e => exact scanExponent_digits true (e + 1) hrest.isDigit_eq

theorem head_exponentText (exponent : Option Int) {rest : List Char} (hrest : EndsNumeral rest) :
    ∀ c ∈ (exponentText exponent ++ rest).head?, isDigit c = false ∧ c ≠ '.' := by
  intro c hc
  match exponent with
  | none =>
    have hends := hrest c hc
    simp only [continuesNumeral, Bool.or_eq_false_iff, decide_eq_false_iff_not] at hends
    exact hends.1.1
  | some (.ofNat e) =>
    rw [← Option.some.inj hc]
    decide
  | some (.negSucc e) =>
    rw [← Option.some.inj hc]
    decide

theorem head_fractionText (fraction : List (Fin 10)) {rest : List Char}
    (hrest : ∀ c ∈ rest.head?, isDigit c = false) :
    ∀ c ∈ (fractionText fraction ++ rest).head?, isDigit c = false := by
  cases fraction with
  | nil => exact hrest
  | cons d ds =>
    intro c hc
    rw [← Option.some.inj hc]
    rfl

theorem text_eq (n : Numeral) :
    n.text = (if n.negative then ['-'] else []) ++
      (Nat.toDigits 10 n.whole ++ (fractionText n.fraction ++ exponentText n.exponent)) := by
  obtain ⟨negative, whole, fraction, exponent⟩ := n
  match exponent with
  | none => simp [Numeral.text, fractionText, exponentText]
  | some (.ofNat e) => simp [Numeral.text, fractionText, exponentText]
  | some (.negSucc e) => simp [Numeral.text, fractionText, exponentText]

theorem scanNumeral_text (n : Numeral) {rest : List Char} (hrest : EndsNumeral rest) :
    scanNumeral (n.text ++ rest) = .ok (n, rest) := by
  have hexponent := head_exponentText n.exponent hrest
  have hfraction := head_fractionText n.fraction fun c hc => (hexponent c hc).1
  have hwhole := scanWhole_toDigits n.whole hfraction
  obtain ⟨c, cs, hcs, hc, -⟩ := toDigits_starts n.whole
  have hminus : c ≠ '-' := by
    rintro rfl
    exact absurd hc (by decide)
  rw [text_eq, scanNumeral]
  obtain ⟨negative, whole, fraction, exponent⟩ := n
  cases negative with
  | true =>
    simp [hwhole, scanFraction_text fraction hexponent, scanExponent_text exponent hrest,
      bind, Except.bind, pure, Except.pure]
  | false =>
    rw [hcs, List.cons_append] at hwhole
    simp [hcs, hminus, hwhole, scanFraction_text fraction hexponent,
      scanExponent_text exponent hrest, bind, Except.bind, pure, Except.pure]

end Scanner

theorem Numeral.text_starts (n : Numeral) :
    ∃ c cs, n.text = c :: cs ∧ (c = '-' ∨ Scanner.isDigit c) := by
  obtain ⟨c, cs, hcs, hc, -⟩ := Scanner.toDigits_starts n.whole
  rw [Scanner.text_eq, hcs]
  cases n.negative with
  | true => exact ⟨_, _, rfl, .inl rfl⟩
  | false => exact ⟨_, _, rfl, .inr hc⟩

end TokenRegistry.Json
