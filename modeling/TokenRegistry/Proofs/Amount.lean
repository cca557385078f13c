import TokenRegistry.Amount
import TokenRegistry.Proofs.Text.Utf8

/-!
# Reading back an amount

The decimal text of an amount is read back as that amount. The text is ASCII, so
its length in bytes counts digits and grows with the amount.
-/
namespace TokenRegistry.Amount

theorem foldlM_push {cs : List Char} (h : ∀ c ∈ cs, c.isDigit ∨ c = '_') (n : Nat) :
    cs.foldlM push n = .ok (Nat.ofDigitChars 10 (cs.filter Char.isDigit) n) := by
  induction cs generalizing n with
  | nil => rfl
  | cons c cs ih =>
    have hrest := ih fun d hd => h d (List.mem_cons_of_mem _ hd)
    rw [List.foldlM_cons, push]
    by_cases hc : c.isDigit
    · rw [if_pos hc, List.filter_cons_of_pos hc, Nat.ofDigitChars_cons]
      exact hrest _
    · have hunderscore := (h c List.mem_cons_self).resolve_left hc
      rw [if_neg hc, if_pos hunderscore, List.filter_cons_of_neg hc]
      exact hrest _

theorem isDigit_of_mem_toDigits {n : Nat} {c : Char} (h : c ∈ Nat.toDigits 10 n) : c.isDigit :=
  Nat.isDigit_of_mem_toDigits (by decide) (by decide) h

theorem eq_zero_of_toDigits {n : Nat} {ds : List Char} (h : Nat.toDigits 10 n = '0' :: ds) :
    n = 0 := by
  induction n using Nat.strongRecOn generalizing ds with
  | ind n ih =>
    by_cases hn : n < 10
    · have hdigit : ∀ m < 10, m.digitChar = '0' → m = 0 := by decide
      rw [Nat.toDigits_of_lt_base hn] at h
      exact hdigit n hn (List.cons.inj h).1
    · rw [Nat.toDigits_of_base_le (by decide) (by omega)] at h
      cases hfront : Nat.toDigits 10 (n / 10) with
      | nil => exact absurd hfront Nat.toDigits_ne_nil
      | cons c cs =>
        rw [hfront, List.cons_append] at h
        obtain ⟨rfl, -⟩ := List.cons.inj h
        have hzero := ih (n / 10) (by omega) hfront
        omega

theorem magnitude_toDigits (n : Nat) : magnitude (Nat.toDigits 10 n) = .ok n := by
  cases hd : Nat.toDigits 10 n with
  | nil => exact absurd hd Nat.toDigits_ne_nil
  | cons c cs =>
    have hdigits : ∀ d ∈ c :: cs, d.isDigit := fun d hmem => isDigit_of_mem_toDigits (hd ▸ hmem)
    rw [magnitude, if_pos (hdigits c List.mem_cons_self),
      foldlM_push fun d hmem => .inl (hdigits d hmem), List.filter_eq_self.mpr hdigits, ← hd,
      Nat.ofDigitChars_ten_toDigits]

theorem ne_sign_of_isDigit {c : Char} (h : c.isDigit) : c ≠ '-' ∧ c ≠ '+' := by
  constructor
  · rintro rfl
    exact absurd h (by decide)
  · rintro rfl
    exact absurd h (by decide)

theorem read_of_isDigit {c : Char} (h : c.isDigit) (cs : List Char) :
    read (c :: cs) = (magnitude (c :: cs)).map Int.ofNat := by
  obtain ⟨hminus, hplus⟩ := ne_sign_of_isDigit h
  simp [read, hminus, hplus]

theorem read_toDigits (n : Nat) : read (Nat.toDigits 10 n) = .ok (n : Int) := by
  have hm := magnitude_toDigits n
  cases hd : Nat.toDigits 10 n with
  | nil => exact absurd hd Nat.toDigits_ne_nil
  | cons c cs =>
    have hc : c.isDigit := isDigit_of_mem_toDigits (n := n) (hd ▸ List.mem_cons_self)
    rw [read_of_isDigit hc, ← hd, hm]
    rfl

theorem read_write (n : Int) : read (write n) = .ok n := by
  cases n with
  | ofNat n => exact read_toDigits n
  | negSucc n =>
    rw [write, read, magnitude_toDigits]
    rfl

theorem ofText_text (n : Int) : ofText (text n) = .ok n := by
  rw [ofText, text, String.toList_ofList, read_write]

theorem parse_text (n : Int) : parse (text n) = .ok n := by
  rw [parse, ofText_text]

theorem toNat_lt_of_isDigit {c : Char} (h : c.isDigit) : c.toNat < 0x80 := by
  simp only [Char.isDigit, Bool.and_eq_true, decide_eq_true_eq] at h
  have hle : c.toNat ≤ '9'.toNat := h.2
  exact Nat.lt_of_le_of_lt hle (by decide)

theorem toNat_lt_of_mem_write {n : Int} {c : Char} (h : c ∈ write n) : c.toNat < 0x80 := by
  cases n with
  | ofNat n => exact toNat_lt_of_isDigit (isDigit_of_mem_toDigits h)
  | negSucc n =>
    rcases List.mem_cons.mp h with rfl | h
    · decide
    · exact toNat_lt_of_isDigit (isDigit_of_mem_toDigits h)

theorem length_ofString_text (n : Int) :
    (Text.Utf8.ofString (text n)).length = (write n).length := by
  rw [Text.Utf8.ofString, text, String.toList_ofList,
    Text.Utf8.encode_of_ascii fun c hc => toNat_lt_of_mem_write hc, List.length_map]

theorem length_ofString_text_le {m n : Nat} (h : m ≤ n) :
    (Text.Utf8.ofString (text m)).length ≤ (Text.Utf8.ofString (text n)).length := by
  rw [length_ofString_text, length_ofString_text]
  have hpos : 0 < (Nat.toDigits 10 n).length := Nat.length_toDigits_pos
  have hn := (Nat.length_toDigits_le_iff (by decide) hpos).mp
    (Nat.le_refl (Nat.toDigits 10 n).length)
  exact (Nat.length_toDigits_le_iff (by decide) hpos).mpr (Nat.lt_of_le_of_lt h hn)

theorem length_ofString_text_le_natAbs (n : Int) :
    (Text.Utf8.ofString (text n)).length ≤ (Text.Utf8.ofString (text n.natAbs)).length + 1 := by
  rw [length_ofString_text, length_ofString_text]
  cases n with
  | ofNat n => exact Nat.le_succ _
  | negSucc n => exact Nat.le_refl _

end TokenRegistry.Amount
