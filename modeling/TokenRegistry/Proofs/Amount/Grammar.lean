import TokenRegistry.Proofs.Amount

/-!
# The texts of amounts

The text of an amount is an optional sign, then a digit, then digits and underscores. Its
value is that of the digits, negated behind a minus sign. No other text is read; where
nothing follows the sign the text is called empty, and else some character is out of place.
What is written of an amount is no longer than any text that it is read from.
-/
namespace TokenRegistry.Amount

structure IsMagnitude (cs : List Char) : Prop where
  first : ∃ c, cs.head? = some c ∧ c.isDigit
  rest : ∀ c ∈ cs, c.isDigit ∨ c = '_'

def valueOf (cs : List Char) : Nat := Nat.ofDigitChars 10 (cs.filter Char.isDigit) 0

def unsigned : List Char → List Char
  | '-' :: cs => cs
  | '+' :: cs => cs
  | cs => cs

def signed (cs : List Char) (n : Nat) : Int := if cs.head? = some '-' then -(n : Int) else n

/-- The text is an optional sign and a magnitude, and the amount is their value. -/
structure Spells (cs : List Char) (n : Int) : Prop where
  magnitude : IsMagnitude (unsigned cs)
  value : n = signed cs (valueOf (unsigned cs))

def flaw (cs : List Char) : Fault := if unsigned cs = [] then .empty else .invalidDigit

variable {cs : List Char} {n : Int}

theorem foldlM_push_of_not_forall (h : ¬ ∀ c ∈ cs, c.isDigit ∨ c = '_') (n : Nat) :
    cs.foldlM push n = .error .invalidDigit := by
  induction cs generalizing n with
  | nil => exact absurd (by simp) h
  | cons c cs ih =>
    rw [List.foldlM_cons, push]
    split_ifs with hdigit hunderscore
    · exact ih (by simpa [hdigit] using h) _
    · exact ih (by simpa [hunderscore] using h) _
    · rfl

theorem magnitude_of_isMagnitude (h : IsMagnitude cs) : magnitude cs = .ok (valueOf cs) := by
  obtain ⟨c, hhead, hdigit⟩ := h.first
  cases cs with
  | nil => cases hhead
  | cons d cs =>
    cases hhead
    rw [magnitude, if_pos hdigit, foldlM_push h.rest]
    rfl

theorem magnitude_of_not_isMagnitude (h : ¬ IsMagnitude cs) :
    magnitude cs = .error (if cs = [] then .empty else .invalidDigit) := by
  cases cs with
  | nil => rfl
  | cons c cs =>
    rw [magnitude, if_neg (List.cons_ne_nil _ _)]
    split_ifs with hdigit
    · exact foldlM_push_of_not_forall (fun hrest => h ⟨⟨c, rfl, hdigit⟩, hrest⟩) _
    · rfl

theorem read_eq (cs : List Char) : read cs = (magnitude (unsigned cs)).map (signed cs) := by
  cases cs with
  | nil => rfl
  | cons c cs =>
    by_cases hminus : c = '-'
    · subst hminus
      rw [read, unsigned]
      cases magnitude cs <;> rfl
    · by_cases hplus : c = '+'
      · subst hplus
        rfl
      · have hsigned : signed (c :: cs) = Int.ofNat := by
          funext n
          simp [signed, hminus]
        simp [read, unsigned, hminus, hplus, hsigned]

theorem read_eq_ok_iff : read cs = .ok n ↔ Spells cs n := by
  rw [read_eq]
  by_cases h : IsMagnitude (unsigned cs)
  · rw [magnitude_of_isMagnitude h]
    constructor
    · intro hread
      exact ⟨h, (Except.ok.inj hread).symm⟩
    · intro hspells
      exact congrArg _ hspells.value.symm
  · rw [magnitude_of_not_isMagnitude h]
    exact iff_of_false nofun fun hspells => h hspells.magnitude

theorem read_eq_error_iff {f : Fault} :
    read cs = .error f ↔ (¬ ∃ n, Spells cs n) ∧ f = flaw cs := by
  rw [read_eq]
  by_cases h : IsMagnitude (unsigned cs)
  · rw [magnitude_of_isMagnitude h]
    exact iff_of_false nofun fun hnone => hnone.1 ⟨_, h, rfl⟩
  · rw [magnitude_of_not_isMagnitude h]
    constructor
    · intro hread
      exact ⟨fun ⟨n, hspells⟩ => h hspells.magnitude, (Except.error.inj hread).symm⟩
    · intro hflaw
      exact congrArg _ hflaw.2.symm

theorem parse_eq_ok_iff {raw : String} : parse raw = .ok n ↔ Spells raw.toList n := by
  rw [← read_eq_ok_iff, parse, ofText]
  cases read raw.toList <;> simp

theorem parse_eq_error_iff {raw : String} {e : Invalid} :
    parse raw = .error e ↔ (¬ ∃ n, Spells raw.toList n) ∧ e = ⟨raw, flaw raw.toList⟩ := by
  have hread := fun f => @read_eq_error_iff raw.toList f
  rw [parse, ofText]
  cases hrun : read raw.toList with
  | ok n => simpa [hrun] using fun hnone => absurd (read_eq_ok_iff.mp hrun) (hnone n)
  | error f =>
    obtain ⟨hnone, rfl⟩ := (hread f).mp hrun
    simp [hnone, eq_comm]

theorem ofDigitChars_lt (h : ∀ c ∈ cs, c.isDigit) (n : Nat) :
    Nat.ofDigitChars 10 cs n < (n + 1) * Nat.pow 10 cs.length := by
  induction cs generalizing n with
  | nil => simp
  | cons c cs ih =>
    have hrest := ih (fun d hd => h d (List.mem_cons_of_mem _ hd)) (10 * n + (c.toNat - '0'.toNat))
    have hdigit : c.toNat - '0'.toNat ≤ 9 := by
      have hc := h c List.mem_cons_self
      simp only [Char.isDigit, Bool.and_eq_true, decide_eq_true_eq] at hc
      have hle : c.toNat ≤ 57 := hc.2
      change c.toNat - 48 ≤ 9
      omega
    have hpow : Nat.pow 10 (c :: cs).length = 10 * Nat.pow 10 cs.length := Nat.pow_succ'
    rw [Nat.ofDigitChars_cons, hpow, ← Nat.mul_assoc]
    exact Nat.lt_of_lt_of_le hrest (Nat.mul_le_mul_right _ (by omega))

theorem valueOf_lt (cs : List Char) : valueOf cs < Nat.pow 10 cs.length := by
  have hdigits : valueOf cs < (0 + 1) * Nat.pow 10 (cs.filter Char.isDigit).length :=
    ofDigitChars_lt (fun c hc => (List.mem_filter.mp hc).2) 0
  rw [Nat.zero_add, Nat.one_mul] at hdigits
  have hlength := List.length_filter_le Char.isDigit cs
  exact Nat.lt_of_lt_of_le hdigits (Nat.pow_le_pow_right (by decide) hlength)

theorem IsMagnitude.length_toDigits_le (h : IsMagnitude cs) :
    (Nat.toDigits 10 (valueOf cs)).length ≤ cs.length := by
  have hpos : 0 < cs.length := by
    obtain ⟨c, hhead, -⟩ := h.first
    exact List.length_pos_of_mem (List.mem_of_head? hhead)
  exact (Nat.length_toDigits_le_iff (by decide) hpos).mpr (valueOf_lt cs)

theorem Spells.length_write_le (h : Spells cs n) : (write n).length ≤ cs.length := by
  have hdigits := h.magnitude.length_toDigits_le
  rw [h.value, signed]
  split_ifs with hminus
  · obtain ⟨rest, rfl⟩ : ∃ rest, cs = '-' :: rest := by
      cases cs with
      | nil => cases hminus
      | cons c rest =>
        cases hminus
        exact ⟨rest, rfl⟩
    change (Nat.toDigits 10 (valueOf rest)).length ≤ rest.length at hdigits
    change (write (-(valueOf rest : Int))).length ≤ rest.length + 1
    cases hvalue : valueOf rest with
    | zero => exact Nat.le_add_left _ _
    | succ m =>
      rw [hvalue] at hdigits
      exact Nat.succ_le_succ hdigits
  · have hunsigned : (unsigned cs).length ≤ cs.length := by
      rw [unsigned.eq_def]
      split <;> simp
    exact Nat.le_trans hdigits hunsigned

theorem Spells.length_ofString_text_le {raw : String} (h : Spells raw.toList n) :
    (Text.Utf8.ofString (text n)).length ≤ (Text.Utf8.ofString raw).length := by
  rw [length_ofString_text]
  exact Nat.le_trans h.length_write_le (Text.Utf8.length_le_length_encode _)

end TokenRegistry.Amount
