import TokenRegistry.Proofs.Amount.Grammar

/-!
# The one text that is written of an amount

Of the many texts of an amount one is written: without plus sign and underscores, without
a zero in front unless it is all there is, and zero without a sign. Each such text is the
one that is written of the amount it is read as, for the digits of a number that do not
begin with a zero are those it is written with.
-/
namespace TokenRegistry.Amount

/-- The text of an amount with nothing in it that could be left out. -/
structure IsCanonical (cs : List Char) : Prop where
  magnitude : IsMagnitude (unsigned cs)
  plus : '+' ∉ cs
  underscore : '_' ∉ cs
  /-- A zero in front is the whole text, which then has no sign either. -/
  zero : ∀ ds, unsigned cs = '0' :: ds → cs = ['0']

variable {c : Char} {cs : List Char} {n : Int}

theorem unsigned_write (n : Int) : unsigned (write n) = Nat.toDigits 10 n.natAbs := by
  cases n with
  | ofNat n =>
    change unsigned (Nat.toDigits 10 n) = Nat.toDigits 10 n
    cases hd : Nat.toDigits 10 n with
    | nil => rfl
    | cons c cs =>
      have hc : c.isDigit := isDigit_of_mem_toDigits (n := n) (hd ▸ List.mem_cons_self)
      obtain ⟨hminus, hplus⟩ := ne_sign_of_isDigit hc
      simp [unsigned, hminus, hplus]
  | negSucc n => rfl

theorem isMagnitude_toDigits (n : Nat) : IsMagnitude (Nat.toDigits 10 n) := by
  refine ⟨?_, fun c hc => .inl (isDigit_of_mem_toDigits hc)⟩
  cases hd : Nat.toDigits 10 n with
  | nil => exact absurd hd Nat.toDigits_ne_nil
  | cons c cs => exact ⟨c, rfl, isDigit_of_mem_toDigits (n := n) (hd ▸ List.mem_cons_self)⟩

theorem isDigit_of_mem_write (h : c ∈ write n) : c.isDigit ∨ c = '-' := by
  cases n with
  | ofNat n => exact .inl (isDigit_of_mem_toDigits h)
  | negSucc n =>
    rcases List.mem_cons.mp h with rfl | h
    · exact .inr rfl
    · exact .inl (isDigit_of_mem_toDigits h)

theorem isCanonical_write (n : Int) : IsCanonical (write n) := by
  refine ⟨?_, fun h => ?_, fun h => ?_, fun ds h => ?_⟩
  · rw [unsigned_write]
    exact isMagnitude_toDigits n.natAbs
  · exact absurd (isDigit_of_mem_write h) (by decide)
  · exact absurd (isDigit_of_mem_write h) (by decide)
  · rw [unsigned_write] at h
    rw [Int.natAbs_eq_zero.mp (eq_zero_of_toDigits h)]
    rfl

theorem digitChar_of_isDigit (h : c.isDigit) :
    c.toNat - '0'.toNat < 10 ∧ (c.toNat - '0'.toNat).digitChar = c := by
  simp only [Char.isDigit, Bool.and_eq_true, decide_eq_true_eq] at h
  have hlow : 48 ≤ c.toNat := h.1
  have hhigh : c.toNat ≤ 57 := h.2
  have hlt : c.toNat - 48 < 10 := by omega
  refine ⟨hlt, Char.toNat_inj.mp ?_⟩
  change (c.toNat - 48).digitChar.toNat = c.toNat
  rw [Nat.toNat_digitChar_of_lt_ten hlt]
  omega

theorem toDigits_ofDigitChars (h : ∀ c ∈ cs, c.isDigit) {n : Nat} (hn : 0 < n) :
    Nat.toDigits 10 (Nat.ofDigitChars 10 cs n) = Nat.toDigits 10 n ++ cs := by
  induction cs generalizing n with
  | nil => rw [Nat.ofDigitChars_nil, List.append_nil]
  | cons c cs ih =>
    obtain ⟨hlt, hchar⟩ := digitChar_of_isDigit (h c List.mem_cons_self)
    have hstep : Nat.toDigits 10 (10 * n + (c.toNat - '0'.toNat)) = Nat.toDigits 10 n ++ [c] := by
      rw [← Nat.toDigits_append_toDigits (by decide) hn hlt, Nat.toDigits_of_lt_base hlt, hchar]
    rw [Nat.ofDigitChars_cons, ih (fun d hd => h d (List.mem_cons_of_mem _ hd)) (by omega), hstep,
      List.append_assoc, List.singleton_append]

theorem toDigits_valueOf (h : ∀ d ∈ c :: cs, d.isDigit) (hzero : c ≠ '0') :
    0 < valueOf (c :: cs) ∧ Nat.toDigits 10 (valueOf (c :: cs)) = c :: cs := by
  obtain ⟨hlt, hchar⟩ := digitChar_of_isDigit (h c List.mem_cons_self)
  have hpos : 0 < c.toNat - '0'.toNat := by
    apply Nat.pos_of_ne_zero
    intro hnat
    rw [hnat] at hchar
    exact hzero hchar.symm
  have hdigits : Nat.toDigits 10 (valueOf (c :: cs)) = c :: cs := by
    rw [valueOf, List.filter_eq_self.mpr h, Nat.ofDigitChars_cons, Nat.mul_zero, Nat.zero_add,
      toDigits_ofDigitChars (fun d hd => h d (List.mem_cons_of_mem _ hd)) hpos,
      Nat.toDigits_of_lt_base hlt, hchar, List.singleton_append]
  refine ⟨Nat.pos_of_ne_zero fun hvalue => ?_, hdigits⟩
  rw [hvalue, Nat.toDigits_zero] at hdigits
  exact hzero (List.cons.inj hdigits).1.symm

theorem IsCanonical.isDigit_of_mem (h : IsCanonical cs) (hc : c ∈ unsigned cs) : c.isDigit := by
  refine (h.magnitude.rest c hc).resolve_right ?_
  rintro rfl
  apply h.underscore
  rw [unsigned.eq_def] at hc
  split at hc
  · exact List.mem_cons_of_mem _ hc
  · exact List.mem_cons_of_mem _ hc
  · exact hc

theorem IsCanonical.toDigits (h : IsCanonical cs) (hzero : cs ≠ ['0']) :
    0 < valueOf (unsigned cs) ∧ Nat.toDigits 10 (valueOf (unsigned cs)) = unsigned cs := by
  have hdigits : ∀ c ∈ unsigned cs, c.isDigit := fun _ hc => h.isDigit_of_mem hc
  cases hunsigned : unsigned cs with
  | nil =>
    obtain ⟨c, hhead, -⟩ := h.magnitude.first
    rw [hunsigned] at hhead
    cases hhead
  | cons c ds =>
    rw [hunsigned] at hdigits
    apply toDigits_valueOf hdigits
    rintro rfl
    exact hzero (h.zero ds hunsigned)

theorem IsCanonical.write_eq (h : IsCanonical cs) (hspells : Spells cs n) : write n = cs := by
  rw [hspells.value]
  by_cases hzero : cs = ['0']
  · subst hzero
    rfl
  obtain ⟨hpos, hdigits⟩ := h.toDigits hzero
  cases cs with
  | nil => exact absurd h.magnitude.first nofun
  | cons c cs =>
    by_cases hminus : c = '-'
    · subst hminus
      change 0 < valueOf cs at hpos
      change Nat.toDigits 10 (valueOf cs) = cs at hdigits
      change write (-(valueOf cs : Int)) = '-' :: cs
      obtain ⟨m, hm⟩ := Nat.exists_eq_succ_of_ne_zero (Nat.ne_of_gt hpos)
      rw [hm] at hdigits ⊢
      exact congrArg _ hdigits
    · have hplus : c ≠ '+' := by
        rintro rfl
        exact h.plus List.mem_cons_self
      have hunsigned : unsigned (c :: cs) = c :: cs := by simp [unsigned, hminus, hplus]
      rw [hunsigned] at hdigits ⊢
      rw [signed, if_neg (by simpa using hminus)]
      exact hdigits

theorem isCanonical_iff {raw : String} :
    IsCanonical raw.toList ↔ ∃ n, parse raw = .ok n ∧ text n = raw := by
  constructor
  · intro h
    have hspells : Spells raw.toList _ := ⟨h.magnitude, rfl⟩
    refine ⟨_, parse_eq_ok_iff.mpr hspells, ?_⟩
    rw [text, h.write_eq hspells, String.ofList_toList]
  · rintro ⟨n, -, rfl⟩
    rw [text, String.toList_ofList]
    exact isCanonical_write n

theorem parse_eq_empty_iff {raw : String} :
    parse raw = .error ⟨raw, .empty⟩ ↔ unsigned raw.toList = [] := by
  rw [parse_eq_error_iff, flaw]
  constructor
  · rintro ⟨-, heq⟩
    by_contra hne
    rw [if_neg hne] at heq
    cases heq
  · intro hnil
    rw [if_pos hnil]
    refine ⟨?_, rfl⟩
    rintro ⟨n, hspells⟩
    have hfirst := hspells.magnitude.first
    rw [hnil] at hfirst
    exact absurd hfirst nofun

theorem parse_eq_invalidDigit_iff {raw : String} :
    parse raw = .error ⟨raw, .invalidDigit⟩ ↔
      unsigned raw.toList ≠ [] ∧ ¬ ∃ n, Spells raw.toList n := by
  rw [parse_eq_error_iff, flaw, and_comm]
  by_cases hnil : unsigned raw.toList = []
  · simp [hnil]
  · simp [hnil]

/-- An amount is read from exactly the texts that spell it, and what is wrong with any other is told
by whether anything follows its sign. Of the texts of an amount the canonical one is written. -/
theorem parse_exact :
    (∀ raw n, parse raw = .ok n ↔ Spells raw.toList n) ∧
      (∀ raw, parse raw = .error ⟨raw, .empty⟩ ↔ unsigned raw.toList = []) ∧
      (∀ raw, parse raw = .error ⟨raw, .invalidDigit⟩ ↔
        unsigned raw.toList ≠ [] ∧ ¬ ∃ n, Spells raw.toList n) ∧
      (∀ n, IsCanonical (text n).toList ∧ parse (text n) = .ok n) ∧
      ∀ raw, IsCanonical raw.toList ↔ ∃ n, parse raw = .ok n ∧ text n = raw := by
  refine ⟨fun _ _ => parse_eq_ok_iff, fun _ => parse_eq_empty_iff,
    fun _ => parse_eq_invalidDigit_iff, fun n => ⟨?_, parse_text n⟩, fun _ => isCanonical_iff⟩
  exact isCanonical_iff.mpr ⟨n, parse_text n, rfl⟩

-- A second sign is out of place, and so is an underscore before the first digit.
example : ["-+5", "+_1", "-", "5__", "-0"].map ofText =
    [.error .invalidDigit, .error .invalidDigit, .error .empty, .ok 5, .ok 0] := by
  decide +kernel

end TokenRegistry.Amount
