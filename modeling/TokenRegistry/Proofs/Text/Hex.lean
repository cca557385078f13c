import TokenRegistry.Proofs.Text.Utf8
import TokenRegistry.Text.Hex

/-!
# Reading hexadecimal text

The digits of a byte are read back as that byte, hence the text of a byte string as
the byte string. A text is read as a byte string exactly if it is the text of the byte
string up to the case of its letters. Other texts are refused for an odd number of bytes,
and only then for the first byte that is no digit.
-/
namespace TokenRegistry.Text.Hex

theorem digitValue?_digit : ∀ n < 16, digitValue? (UInt8.ofNat (digit n).toNat) = some n := by
  decide

theorem toNat_digit_lt : ∀ n < 16, (digit n).toNat < 0x80 := by decide

theorem digitAt_digit {n : Nat} (h : n < 16) (i : Nat) :
    digitAt i (UInt8.ofNat (digit n).toNat) = .ok n := by
  rw [digitAt, digitValue?_digit n h]

theorem toNat_lt_of_mem_encode {bs : Bytes} {c : Char} (h : c ∈ encode bs) : c.toNat < 0x80 := by
  obtain ⟨b, -, hc⟩ := List.mem_flatMap.mp h
  have hb := b.toNat_lt
  simp only [encodeByte, List.mem_cons, List.not_mem_nil, or_false] at hc
  rcases hc with rfl | rfl
  · exact toNat_digit_lt _ (by omega)
  · exact toNat_digit_lt _ (by omega)

theorem decodePairs_encode (i : Nat) (bs : Bytes) :
    decodePairs i ((encode bs).map fun c => UInt8.ofNat c.toNat) = .ok bs := by
  induction bs generalizing i with
  | nil => rfl
  | cons b bs ih =>
    have hb := b.toNat_lt
    have hhigh := digitAt_digit (n := b.toNat / 16) (by omega) i
    have hlow := digitAt_digit (n := b.toNat % 16) (by omega) (i + 1)
    have hbyte : UInt8.ofNat (16 * (b.toNat / 16) + b.toNat % 16) = b := by
      rw [Nat.div_add_mod, UInt8.ofNat_toNat]
    change decodePairs i (_ :: _ :: (encode bs).map _) = _
    rw [decodePairs, hhigh, hlow, ih (i + 2)]
    exact congrArg (fun x => Except.ok (x :: bs)) hbyte

theorem ofText_text (bs : Bytes) : ofText (text bs) = .ok bs := by
  have htext : (text bs).toList = encode bs := String.toList_ofList
  have heven : ¬ (encode bs).length % 2 = 1 := by
    rw [length_encode]
    omega
  rw [ofText, Utf8.ofString, htext, Utf8.encode_of_ascii fun c hc => toNat_lt_of_mem_encode hc,
    decode, List.length_map, if_neg heven, decodePairs_encode]

def IsDigit (b : UInt8) : Prop := (digitValue? b).isSome

instance (b : UInt8) : Decidable (IsDigit b) := inferInstanceAs (Decidable (_ = true))

/-- The text is that of the byte string, in digits of either case. -/
structure Spells (cs : List Char) (bs : Bytes) : Prop where
  even : cs.length % 2 = 0
  chars : ∀ c ∈ cs, c.toLower ∈ digits
  value : cs.map Char.toLower = encode bs

/-- What is wrong with bytes that spell no byte string. -/
inductive Flawed : Bytes → Fault → Prop
  | odd {bs : Bytes} (h : bs.length % 2 = 1) : Flawed bs .odd
  | notDigit {before after : Bytes} {b : UInt8}
      (heven : (before ++ b :: after).length % 2 = 0) (hbefore : ∀ x ∈ before, IsDigit x)
      (h : ¬ IsDigit b) : Flawed (before ++ b :: after) (.notDigit b before.length)

theorem digitAt_of_isDigit {b : UInt8} (h : IsDigit b) (i : Nat) :
    ∃ n, digitValue? b = some n ∧ digitAt i b = .ok n := by
  obtain ⟨n, hn⟩ := Option.isSome_iff_exists.mp h
  exact ⟨n, hn, by rw [digitAt, hn]⟩

theorem digitAt_of_not_isDigit {b : UInt8} (h : ¬ IsDigit b) (i : Nat) :
    digitAt i b = .error (.notDigit b i) := by
  have hnone : digitValue? b = none := by simpa [IsDigit] using h
  rw [digitAt, hnone]

def lowered (b : UInt8) : Char := (Char.ofNat b.toNat).toLower

theorem lowered_ofNat : ∀ k < 256, ∀ n ∈ digitValue? (UInt8.ofNat k),
    k < 0x80 ∧ n < 16 ∧ lowered (UInt8.ofNat k) = digit n := by
  decide +kernel

theorem lowered_of_digitValue? {b : UInt8} {n : Nat} (h : digitValue? b = some n) :
    b.toNat < 0x80 ∧ n < 16 ∧ lowered b = digit n := by
  have hbyte := lowered_ofNat b.toNat b.toNat_lt n
  rw [UInt8.ofNat_toNat] at hbyte
  exact hbyte h

theorem encodeByte_ofNat {high low : Nat} (hhigh : high < 16) (hlow : low < 16) :
    encodeByte (UInt8.ofNat (16 * high + low)) = [digit high, digit low] := by
  have hbyte : (UInt8.ofNat (16 * high + low)).toNat = 16 * high + low :=
    Utf8.toNat_ofNat_of_lt (by omega)
  rw [encodeByte, hbyte, show (16 * high + low) / 16 = high by omega,
    show (16 * high + low) % 16 = low by omega]

variable {bs : Bytes}

theorem decodePairs_of_isDigit (h : ∀ b ∈ bs, IsDigit b) (heven : bs.length % 2 = 0) (i : Nat) :
    ∃ out, decodePairs i bs = .ok out ∧ encode out = bs.map lowered := by
  induction i, bs using decodePairs.induct with
  | case1 i => exact ⟨[], rfl, rfl⟩
  | case2 i b => simp at heven
  | case3 i a b rest ih =>
    obtain ⟨high, hhighValue, hhigh⟩ := digitAt_of_isDigit (h a (by simp)) i
    obtain ⟨low, hlowValue, hlow⟩ := digitAt_of_isDigit (h b (by simp)) (i + 1)
    obtain ⟨-, hhighLt, hhighChar⟩ := lowered_of_digitValue? hhighValue
    obtain ⟨-, hlowLt, hlowChar⟩ := lowered_of_digitValue? hlowValue
    have hrest : rest.length % 2 = 0 := by
      simp only [List.length_cons] at heven
      omega
    obtain ⟨out, hout, hencode⟩ := ih (fun x hx => h x (by simp [hx])) hrest
    refine ⟨UInt8.ofNat (16 * high + low) :: out, ?_, ?_⟩
    · simp [decodePairs, hhigh, hlow, hout, bind, Except.bind, pure, Except.pure]
    · change encodeByte _ ++ encode out = _
      rw [encodeByte_ofNat hhighLt hlowLt, hencode, ← hhighChar, ← hlowChar]
      rfl

theorem decodePairs_of_not_isDigit {b : UInt8} {after : Bytes} (hb : ¬ IsDigit b) :
    ∀ {before : Bytes} (i : Nat), (before ++ b :: after).length % 2 = 0 →
      (∀ x ∈ before, IsDigit x) →
      decodePairs i (before ++ b :: after) = .error (.notDigit b (i + before.length))
  | [], i, heven, _ => by
    cases after with
    | nil => simp at heven
    | cons c after => simp [decodePairs, digitAt_of_not_isDigit hb, bind, Except.bind]
  | [x], i, _, hbefore => by
    obtain ⟨_, -, hx⟩ := digitAt_of_isDigit (hbefore x (by simp)) i
    simp [decodePairs, hx, digitAt_of_not_isDigit hb, bind, Except.bind]
  | x :: y :: before, i, heven, hbefore => by
    obtain ⟨_, -, hx⟩ := digitAt_of_isDigit (hbefore x (by simp)) i
    obtain ⟨_, -, hy⟩ := digitAt_of_isDigit (hbefore y (by simp)) (i + 1)
    have hevenRest : (before ++ b :: after).length % 2 = 0 := by
      simp only [List.cons_append, List.length_cons] at heven
      omega
    have hrest := decodePairs_of_not_isDigit hb (i + 2) hevenRest
      fun z hz => hbefore z (by simp [hz])
    simp [decodePairs, hx, hy, hrest, bind, Except.bind, Nat.add_comm, Nat.add_left_comm]

theorem decode_of_isDigit (h : ∀ b ∈ bs, IsDigit b) (heven : bs.length % 2 = 0) :
    ∃ out, decode bs = .ok out ∧ encode out = bs.map lowered := by
  have hnotOdd : ¬ bs.length % 2 = 1 := by omega
  rw [decode, if_neg hnotOdd]
  exact decodePairs_of_isDigit h heven 0

theorem decode_of_flawed {f : Fault} (h : Flawed bs f) : decode bs = .error f := by
  cases h with
  | odd hodd => rw [decode, if_pos hodd]
  | notDigit heven hbefore hb =>
    rw [decode, if_neg (by omega), decodePairs_of_not_isDigit hb 0 heven hbefore, Nat.zero_add]

theorem digits_or_flawed (bs : Bytes) :
    (∀ b ∈ bs, IsDigit b) ∧ bs.length % 2 = 0 ∨ ∃ f, Flawed bs f := by
  rcases Nat.mod_two_eq_zero_or_one bs.length with heven | hodd
  · cases hfind : bs.find? fun b => (digitValue? b).isNone with
    | none => exact .inl ⟨by simpa [IsDigit, Option.isSome_iff_ne_none] using hfind, heven⟩
    | some b =>
      obtain ⟨hb, before, after, rfl, hbefore⟩ := List.find?_eq_some_iff_append.mp hfind
      have hnotDigit : ¬ IsDigit b := by simpa [IsDigit] using hb
      exact .inr ⟨_, .notDigit heven (by simpa [IsDigit] using hbefore) hnotDigit⟩
  · exact .inr ⟨.odd, .odd hodd⟩

theorem decode_eq_error_iff {f : Fault} : decode bs = .error f ↔ Flawed bs f := by
  refine ⟨fun h => ?_, decode_of_flawed⟩
  rcases digits_or_flawed bs with ⟨hdigits, heven⟩ | ⟨f', hflawed⟩
  · obtain ⟨out, hout, -⟩ := decode_of_isDigit hdigits heven
    rw [hout] at h
    cases h
  · rw [decode_of_flawed hflawed] at h
    cases h
    exact hflawed

theorem encode_of_decode {out : Bytes} (h : decode bs = .ok out) :
    (∀ b ∈ bs, IsDigit b) ∧ bs.length % 2 = 0 ∧ encode out = bs.map lowered := by
  rcases digits_or_flawed bs with ⟨hdigits, heven⟩ | ⟨f, hflawed⟩
  · obtain ⟨out', hout, hencode⟩ := decode_of_isDigit hdigits heven
    rw [hout] at h
    cases h
    exact ⟨hdigits, heven, hencode⟩
  · rw [decode_of_flawed hflawed] at h
    cases h

theorem encode_injective {bs bs' : Bytes} (h : encode bs = encode bs') : bs = bs' := by
  have hread := decodePairs_encode 0 bs
  rw [h, decodePairs_encode] at hread
  exact (Except.ok.inj hread).symm

theorem isDigit_ofNat_iff : ∀ k < 0x80,
    (IsDigit (UInt8.ofNat k) ↔ (Char.ofNat k).toLower ∈ digits) := by
  decide +kernel

theorem isDigit_iff_of_ascii {c : Char} (h : c.toNat < 0x80) :
    IsDigit (UInt8.ofNat c.toNat) ↔ c.toLower ∈ digits := by
  have hdigit := isDigit_ofNat_iff c.toNat h
  rwa [Char.ofNat_toNat] at hdigit

theorem toNat_lt_of_mem_digits {c : Char} (h : c ∈ digits) : c.toNat < 0x80 := by
  have hall : digits.all fun d => decide (d.toNat < 0x80) := by decide
  simpa using List.all_eq_true.mp hall c h

theorem ascii_of_toLower_mem {c : Char} (h : c.toLower ∈ digits) : c.toNat < 0x80 := by
  by_contra hlarge
  have hlower : c.toLower = c := dif_neg fun hupper => by
    have hle : c.toNat ≤ 'Z'.toNat := hupper.2
    exact hlarge (Nat.lt_of_le_of_lt hle (by decide))
  rw [hlower] at h
  exact hlarge (toNat_lt_of_mem_digits h)

theorem map_lowered_of_ascii {cs : List Char} (h : ∀ c ∈ cs, c.toNat < 0x80) :
    (Utf8.encode cs).map lowered = cs.map Char.toLower := by
  rw [Utf8.encode_of_ascii h, List.map_map]
  refine List.map_congr_left fun c hc => ?_
  have hbyte : (UInt8.ofNat c.toNat).toNat = c.toNat :=
    Utf8.toNat_ofNat_of_lt (Nat.lt_trans (h c hc) (by decide))
  rw [Function.comp_apply, lowered, hbyte, Char.ofNat_toNat]

theorem spells_of_decode {cs : List Char} (h : decode (Utf8.encode cs) = .ok bs) :
    Spells cs bs := by
  obtain ⟨hdigits, heven, hencode⟩ := encode_of_decode h
  have hascii : ∀ c ∈ cs, c.toNat < 0x80 := fun c hc => by
    refine Utf8.ascii_of_encode (fun b hb => ?_) hc
    obtain ⟨n, hn⟩ := Option.isSome_iff_exists.mp (hdigits b hb)
    exact (lowered_of_digitValue? hn).1
  rw [map_lowered_of_ascii hascii] at hencode
  rw [Utf8.encode_of_ascii hascii] at hdigits heven
  refine ⟨by simpa using heven, fun c hc => ?_, hencode.symm⟩
  exact (isDigit_iff_of_ascii (hascii c hc)).mp (hdigits _ (List.mem_map_of_mem hc))

theorem decode_of_chars {cs : List Char} (heven : cs.length % 2 = 0)
    (hchars : ∀ c ∈ cs, c.toLower ∈ digits) :
    ∃ out, decode (Utf8.encode cs) = .ok out ∧ encode out = cs.map Char.toLower := by
  have hascii : ∀ c ∈ cs, c.toNat < 0x80 := fun c hc => ascii_of_toLower_mem (hchars c hc)
  rw [← map_lowered_of_ascii hascii]
  have hbytes := Utf8.encode_of_ascii hascii
  apply decode_of_isDigit
  · rw [hbytes]
    intro b hb
    obtain ⟨c, hc, rfl⟩ := List.mem_map.mp hb
    exact (isDigit_iff_of_ascii (hascii c hc)).mpr (hchars c hc)
  · rw [hbytes, List.length_map]
    exact heven

theorem Spells.decode {cs : List Char} (h : Spells cs bs) : decode (Utf8.encode cs) = .ok bs := by
  obtain ⟨out, hout, hencode⟩ := decode_of_chars h.even h.chars
  rw [h.value] at hencode
  rw [hout, encode_injective hencode]

theorem ofText_eq_ok_iff {s : String} : ofText s = .ok bs ↔ Spells s.toList bs :=
  ⟨spells_of_decode, Spells.decode⟩

theorem ofText_eq_error_iff {s : String} {f : Fault} :
    ofText s = .error f ↔ Flawed (Utf8.ofString s) f :=
  decode_eq_error_iff

theorem Spells.length_ofString_text {s : String} (h : Spells s.toList bs) :
    (Utf8.ofString (text bs)).length = (Utf8.ofString s).length := by
  have hlower : (encode bs).length = s.toList.length := by rw [← h.value, List.length_map]
  rw [Utf8.ofString, Utf8.ofString, text, String.toList_ofList,
    Utf8.encode_of_ascii fun c hc => toNat_lt_of_mem_encode hc,
    Utf8.encode_of_ascii fun c hc => ascii_of_toLower_mem (h.chars c hc), List.length_map,
    List.length_map, hlower]

end TokenRegistry.Text.Hex
