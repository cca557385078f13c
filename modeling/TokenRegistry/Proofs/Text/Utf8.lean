import TokenRegistry.Text.Utf8
import Mathlib.Tactic.Common

/-!
# Reading back what was written in UTF-8

Every text is read back from its bytes, so different texts have different bytes.
The work is in one character: its first byte tells its length, and the bytes after
it restore its code point. The other way round, bytes that are read as a text are
the bytes of that text, and other bytes are refused at the first place where no
character starts. Texts are in the order of their bytes.
-/
namespace TokenRegistry.Text.Utf8

theorem toNat_ofNat_of_lt {n : Nat} (h : n < 256) : (UInt8.ofNat n).toNat = n := by
  rw [UInt8.toNat_ofNat']
  exact Nat.mod_eq_of_lt h

theorem low_ofNat {n : Nat} (h : n < 64) : low (UInt8.ofNat (0x80 + n)) = n := by
  rw [low, toNat_ofNat_of_lt (by omega)]
  omega

theorem lt_ofNat_iff {n : Nat} (h : n < 256) (bound : UInt8) :
    UInt8.ofNat n < bound ↔ n < bound.toNat := by
  rw [UInt8.lt_iff_toNat_lt, toNat_ofNat_of_lt h]

theorem range_ofNat {n : Nat} (h : n < 256) (first last : UInt8) :
    (decide (first ≤ UInt8.ofNat n) && decide (UInt8.ofNat n ≤ last)) =
      decide (first.toNat ≤ n ∧ n ≤ last.toNat) := by
  simp only [UInt8.le_iff_toNat_le, toNat_ofNat_of_lt h, Bool.decide_and]

theorem isContinuation_ofNat {n : Nat} (h : n < 64) :
    isContinuation (UInt8.ofNat (0x80 + n)) = true := by
  rw [isContinuation, range_ofNat (by omega), decide_eq_true_eq]
  change 128 ≤ 128 + n ∧ 128 + n ≤ 191
  omega

theorem toNat_ne_surrogate (c : Char) : c.toNat < 0xD800 ∨ 0xDFFF < c.toNat ∧ c.toNat < 0x110000 :=
  c.valid

theorem ofNat_toNat_of_eq {c : Char} {n : Nat} (h : n = c.toNat) : Char.ofNat n = c := by
  rw [h, Char.ofNat_toNat]

theorem head_one {c : Char} (h : c.toNat < 0x80) (rest : Bytes) :
    head (UInt8.ofNat c.toNat) rest = .char c 0 := by
  have hlt : UInt8.ofNat c.toNat < 0x80 := (lt_ofNat_iff (by omega) _).mpr h
  rw [head.eq_def, if_pos hlt, toNat_ofNat_of_lt (by omega), Char.ofNat_toNat]

theorem head_two {c : Char} (h : 0x80 ≤ c.toNat) (h' : c.toNat < 0x800) (rest : Bytes) :
    head (UInt8.ofNat (0xC0 + c.toNat / 64)) (UInt8.ofNat (0x80 + c.toNat % 64) :: rest) =
      .char c 1 := by
  have hsix : c.toNat % 64 < 64 := Nat.mod_lt _ (by decide)
  have ha : 0xC0 + c.toNat / 64 < 256 := by omega
  -- `head` tries the bounds on the first byte in ascending order.
  have h1 : ¬ 0xC0 + c.toNat / 64 < 128 := by omega
  have h2 : 194 ≤ 0xC0 + c.toNat / 64 ∧ 0xC0 + c.toNat / 64 ≤ 223 := by omega
  simp only [head, lt_ofNat_iff ha, range_ofNat ha, UInt8.reduceToNat, h1, h2, and_self,
    decide_true, if_true, if_false, isContinuation_ofNat hsix, toNat_ofNat_of_lt ha,
    low_ofNat hsix, charOf]
  exact congrArg (Head.char · _) (ofNat_toNat_of_eq (by omega))

theorem isSecondOfThree_ofNat {c : Char} (h : 0x800 ≤ c.toNat) (h' : c.toNat < 0x10000) :
    isSecondOfThree (UInt8.ofNat (0xE0 + c.toNat / 4096))
      (UInt8.ofNat (0x80 + c.toNat / 64 % 64)) = true := by
  have hc := toNat_ne_surrogate c
  have ha : 0xE0 + c.toNat / 4096 < 256 := by omega
  have hb : 0x80 + c.toNat / 64 % 64 < 256 := by omega
  simp only [isSecondOfThree, isContinuation, ← UInt8.toNat_inj, range_ofNat hb,
    toNat_ofNat_of_lt ha, UInt8.reduceToNat]
  split_ifs <;> rw [decide_eq_true_eq] <;> omega

theorem head_three {c : Char} (h : 0x800 ≤ c.toNat) (h' : c.toNat < 0x10000) (rest : Bytes) :
    head (UInt8.ofNat (0xE0 + c.toNat / 4096)) (UInt8.ofNat (0x80 + c.toNat / 64 % 64) ::
      UInt8.ofNat (0x80 + c.toNat % 64) :: rest) = .char c 2 := by
  have hsix : c.toNat % 64 < 64 := Nat.mod_lt _ (by decide)
  have hsix' : c.toNat / 64 % 64 < 64 := Nat.mod_lt _ (by decide)
  have ha : 0xE0 + c.toNat / 4096 < 256 := by omega
  have h1 : ¬ 0xE0 + c.toNat / 4096 < 128 := by omega
  have h2 : ¬ (194 ≤ 0xE0 + c.toNat / 4096 ∧ 0xE0 + c.toNat / 4096 ≤ 223) := by omega
  have h3 : 224 ≤ 0xE0 + c.toNat / 4096 ∧ 0xE0 + c.toNat / 4096 ≤ 239 := by omega
  simp only [head, lt_ofNat_iff ha, range_ofNat ha, UInt8.reduceToNat, h1, h2, h3, and_self,
    decide_true, decide_false, Bool.false_eq_true, if_true, if_false,
    isSecondOfThree_ofNat h h', isContinuation_ofNat hsix, toNat_ofNat_of_lt ha,
    low_ofNat hsix, low_ofNat hsix', charOf]
  exact congrArg (Head.char · _) (ofNat_toNat_of_eq (by omega))

theorem isSecondOfFour_ofNat {c : Char} (h : 0x10000 ≤ c.toNat) :
    isSecondOfFour (UInt8.ofNat (0xF0 + c.toNat / 262144))
      (UInt8.ofNat (0x80 + c.toNat / 4096 % 64)) = true := by
  have hc := toNat_ne_surrogate c
  have ha : 0xF0 + c.toNat / 262144 < 256 := by omega
  have hb : 0x80 + c.toNat / 4096 % 64 < 256 := by omega
  simp only [isSecondOfFour, isContinuation, ← UInt8.toNat_inj, range_ofNat hb,
    toNat_ofNat_of_lt ha, UInt8.reduceToNat]
  split_ifs <;> rw [decide_eq_true_eq] <;> omega

theorem head_four {c : Char} (h : 0x10000 ≤ c.toNat) (rest : Bytes) :
    head (UInt8.ofNat (0xF0 + c.toNat / 262144)) (UInt8.ofNat (0x80 + c.toNat / 4096 % 64) ::
      UInt8.ofNat (0x80 + c.toNat / 64 % 64) :: UInt8.ofNat (0x80 + c.toNat % 64) :: rest) =
      .char c 3 := by
  have hc := toNat_ne_surrogate c
  have hsix : c.toNat % 64 < 64 := Nat.mod_lt _ (by decide)
  have hsix' : c.toNat / 64 % 64 < 64 := Nat.mod_lt _ (by decide)
  have hsix'' : c.toNat / 4096 % 64 < 64 := Nat.mod_lt _ (by decide)
  have ha : 0xF0 + c.toNat / 262144 < 256 := by omega
  have h1 : ¬ 0xF0 + c.toNat / 262144 < 128 := by omega
  have h2 : ¬ (194 ≤ 0xF0 + c.toNat / 262144 ∧ 0xF0 + c.toNat / 262144 ≤ 223) := by omega
  have h3 : ¬ (224 ≤ 0xF0 + c.toNat / 262144 ∧ 0xF0 + c.toNat / 262144 ≤ 239) := by omega
  have h4 : 240 ≤ 0xF0 + c.toNat / 262144 ∧ 0xF0 + c.toNat / 262144 ≤ 244 := by omega
  simp only [head, lt_ofNat_iff ha, range_ofNat ha, UInt8.reduceToNat, h1, h2, h3, h4, and_self,
    decide_true, decide_false, Bool.false_eq_true, if_true, if_false,
    isSecondOfFour_ofNat h, isContinuation_ofNat hsix, isContinuation_ofNat hsix',
    toNat_ofNat_of_lt ha, low_ofNat hsix, low_ofNat hsix', low_ofNat hsix'', charOf]
  exact congrArg (Head.char · _) (ofNat_toNat_of_eq (by omega))

theorem head_encodeChar (c : Char) (rest : Bytes) :
    ∃ a more, encodeChar c = a :: more ∧ head a (more ++ rest) = .char c more.length := by
  by_cases h1 : c.toNat < 0x80
  · exact ⟨_, [], by simp [encodeChar, h1], head_one h1 _⟩
  · by_cases h2 : c.toNat < 0x800
    · exact ⟨_, [_], by simp only [encodeChar, if_neg h1, if_pos h2],
        head_two (by omega) h2 _⟩
    · by_cases h3 : c.toNat < 0x10000
      · exact ⟨_, [_, _], by simp only [encodeChar, if_neg h1, if_neg h2, if_pos h3],
          head_three (by omega) h3 _⟩
      · exact ⟨_, [_, _, _], by simp only [encodeChar, if_neg h1, if_neg h2, if_neg h3],
          head_four (by omega) _⟩

theorem decodeFrom_skip (i : Nat) (skipped rest : Bytes) :
    decodeFrom i skipped.length (skipped ++ rest) = decodeFrom (i + skipped.length) 0 rest := by
  induction skipped generalizing i with
  | nil => rfl
  | cons b bs ih =>
    simp only [List.length_cons, List.cons_append, decodeFrom]
    rw [ih, Nat.add_assoc, Nat.add_comm 1]

theorem decodeFrom_encode_append (i : Nat) (cs : List Char) (rest : Bytes) :
    decodeFrom i 0 (encode cs ++ rest) =
      (decodeFrom (i + (encode cs).length) 0 rest).map (cs ++ ·) := by
  induction cs generalizing i with
  | nil =>
    change decodeFrom i 0 rest = (decodeFrom i 0 rest).map id
    rw [Except.map_id]
    rfl
  | cons c cs ih =>
    obtain ⟨a, more, hbytes, hhead⟩ := head_encodeChar c (encode cs ++ rest)
    have henc : encode (c :: cs) = a :: (more ++ encode cs) := by
      rw [encode, List.flatMap_cons, hbytes]
      rfl
    have hindex : i + (encode (c :: cs)).length = i + 1 + more.length + (encode cs).length := by
      rw [henc, List.length_cons, List.length_append]
      omega
    rw [hindex, henc, List.cons_append, List.append_assoc, decodeFrom, hhead]
    simp only [decodeFrom_skip, ih]
    cases decodeFrom (i + 1 + more.length + (encode cs).length) 0 rest <;> rfl

theorem decode_encode (cs : List Char) : decode (encode cs) = .ok cs := by
  have happend := decodeFrom_encode_append 0 cs []
  simpa [decode, decodeFrom, Except.map] using happend

theorem toString?_ofString (s : String) : toString? (ofString s) = .ok s := by
  rw [toString?, ofString, decode_encode]
  simp [Except.map]

theorem ofString_injective {s t : String} (h : ofString s = ofString t) : s = t := by
  have hs := toString?_ofString s
  rw [h, toString?_ofString t] at hs
  exact (Except.ok.inj hs).symm

theorem encodeChar_of_ascii {c : Char} (h : c.toNat < 0x80) :
    encodeChar c = [UInt8.ofNat c.toNat] := by
  simp [encodeChar, h]

theorem encode_of_ascii {cs : List Char} (h : ∀ c ∈ cs, c.toNat < 0x80) :
    encode cs = cs.map fun c => UInt8.ofNat c.toNat := by
  induction cs with
  | nil => rfl
  | cons c cs ih =>
    rw [encode, List.flatMap_cons, encodeChar_of_ascii (h c List.mem_cons_self), List.map_cons]
    exact congrArg _ (ih fun d hd => h d (List.mem_cons_of_mem _ hd))

theorem ascii_of_encodeChar {c : Char} (h : ∀ b ∈ encodeChar c, b.toNat < 0x80) :
    c.toNat < 0x80 := by
  by_contra hlarge
  have hvalid := toNat_ne_surrogate c
  obtain ⟨n, more, hbytes, hfirst⟩ :
      ∃ n more, encodeChar c = UInt8.ofNat n :: more ∧ 0x80 ≤ n ∧ n < 256 := by
    simp only [encodeChar, if_neg hlarge]
    split_ifs <;> exact ⟨_, _, rfl, by omega⟩
  have hbyte := h (UInt8.ofNat n) (by rw [hbytes]; exact List.mem_cons_self)
  rw [toNat_ofNat_of_lt hfirst.2] at hbyte
  omega

theorem ascii_of_encode {cs : List Char} (h : ∀ b ∈ encode cs, b.toNat < 0x80) {c : Char}
    (hc : c ∈ cs) : c.toNat < 0x80 :=
  ascii_of_encodeChar fun b hb => h b (List.mem_flatMap.mpr ⟨c, hc, hb⟩)

theorem toNat_ofNat_of_valid {n : Nat} (h : n.isValidChar) : (Char.ofNat n).toNat = n := by
  rw [Char.ofNat, dif_pos h]
  rfl

/-- The bytes begin with a character, whose bytes after the first are so many. -/
def Starts (bytes : Bytes) (c : Char) (more : Nat) : Prop :=
  ∃ rest, bytes = encodeChar c ++ rest ∧ (encodeChar c).length = more + 1

theorem le_toNat_of_isContinuation {b : UInt8} (h : isContinuation b = true) :
    128 ≤ b.toNat ∧ b.toNat ≤ 191 := by
  simpa [isContinuation, UInt8.le_iff_toNat_le] using h

theorem starts_one {a : UInt8} (h : a < 0x80) (rest : Bytes) :
    Starts (a :: rest) (Char.ofNat a.toNat) 0 := by
  have ha : a.toNat < 128 := UInt8.lt_iff_toNat_lt.mp h
  have hc : (Char.ofNat a.toNat).toNat = a.toNat := toNat_ofNat_of_valid (.inl (by omega))
  have hbytes : encodeChar (Char.ofNat a.toNat) = [a] := by
    rw [encodeChar_of_ascii (by omega), hc, UInt8.ofNat_toNat]
  exact ⟨rest, by rw [hbytes]; rfl, by rw [hbytes]; rfl⟩

theorem starts_two {a b : UInt8} (ha : 0xC2 ≤ a.toNat ∧ a.toNat ≤ 0xDF)
    (hb : isContinuation b = true) (rest : Bytes) :
    Starts (a :: b :: rest) (charOf 0 0 (a.toNat - 0xC0) (low b)) 1 := by
  have hb := le_toNat_of_isContinuation hb
  have hlow : low b = b.toNat - 128 := by
    rw [low]
    omega
  generalize hc : charOf 0 0 (a.toNat - 0xC0) (low b) = c
  have hn : c.toNat = (a.toNat - 192) * 64 + (b.toNat - 128) := by
    rw [← hc, charOf, hlow, toNat_ofNat_of_valid (.inl (by omega))]
    omega
  have hbytes : encodeChar c = [a, b] := by
    have ha' : 0xC0 + c.toNat / 64 = a.toNat := by omega
    have hb' : 0x80 + c.toNat % 64 = b.toNat := by omega
    simp only [encodeChar, if_neg (show ¬ c.toNat < 0x80 by omega),
      if_pos (show c.toNat < 0x800 by omega), ha', hb', UInt8.ofNat_toNat]
  exact ⟨rest, by rw [hbytes]; rfl, by rw [hbytes]; rfl⟩

theorem starts_three {a b c : UInt8} (ha : 0xE0 ≤ a.toNat ∧ a.toNat ≤ 0xEF)
    (hb : isSecondOfThree a b = true) (hc : isContinuation c = true) (rest : Bytes) :
    Starts (a :: b :: c :: rest) (charOf 0 (a.toNat - 0xE0) (low b) (low c)) 2 := by
  have hc := le_toNat_of_isContinuation hc
  -- The second byte keeps the code point above that of two bytes and off the surrogates.
  have hb : 128 ≤ b.toNat ∧ b.toNat ≤ 191 ∧ (a.toNat = 224 → 160 ≤ b.toNat) ∧
      (a.toNat = 237 → b.toNat ≤ 159) := by
    simp only [isSecondOfThree, isContinuation, ← UInt8.toNat_inj, UInt8.le_iff_toNat_le,
      UInt8.reduceToNat] at hb
    split_ifs at hb <;> simp only [Bool.and_eq_true, decide_eq_true_eq] at hb <;> omega
  have hlow : low b = b.toNat - 128 ∧ low c = c.toNat - 128 := by
    simp only [low]
    omega
  generalize hchar : charOf 0 (a.toNat - 0xE0) (low b) (low c) = x
  have hn : x.toNat = (a.toNat - 224) * 4096 + (b.toNat - 128) * 64 + (c.toNat - 128) := by
    rw [← hchar, charOf, hlow.1, hlow.2, toNat_ofNat_of_valid (by omega)]
    omega
  have hbytes : encodeChar x = [a, b, c] := by
    have ha' : 0xE0 + x.toNat / 4096 = a.toNat := by omega
    have hb' : 0x80 + x.toNat / 64 % 64 = b.toNat := by omega
    have hc' : 0x80 + x.toNat % 64 = c.toNat := by omega
    simp only [encodeChar, if_neg (show ¬ x.toNat < 0x80 by omega),
      if_neg (show ¬ x.toNat < 0x800 by omega), if_pos (show x.toNat < 0x10000 by omega), ha', hb',
      hc', UInt8.ofNat_toNat]
  exact ⟨rest, by rw [hbytes]; rfl, by rw [hbytes]; rfl⟩

theorem starts_four {a b c d : UInt8} (ha : 0xF0 ≤ a.toNat ∧ a.toNat ≤ 0xF4)
    (hb : isSecondOfFour a b = true) (hc : isContinuation c = true)
    (hd : isContinuation d = true) (rest : Bytes) :
    Starts (a :: b :: c :: d :: rest) (charOf (a.toNat - 0xF0) (low b) (low c) (low d)) 3 := by
  have hc := le_toNat_of_isContinuation hc
  have hd := le_toNat_of_isContinuation hd
  have hb : 128 ≤ b.toNat ∧ b.toNat ≤ 191 ∧ (a.toNat = 240 → 144 ≤ b.toNat) ∧
      (a.toNat = 244 → b.toNat ≤ 143) := by
    simp only [isSecondOfFour, isContinuation, ← UInt8.toNat_inj, UInt8.le_iff_toNat_le,
      UInt8.reduceToNat] at hb
    split_ifs at hb <;> simp only [Bool.and_eq_true, decide_eq_true_eq] at hb <;> omega
  have hlow : low b = b.toNat - 128 ∧ low c = c.toNat - 128 ∧ low d = d.toNat - 128 := by
    simp only [low]
    omega
  generalize hchar : charOf (a.toNat - 0xF0) (low b) (low c) (low d) = x
  have hn : x.toNat = (a.toNat - 240) * 262144 + (b.toNat - 128) * 4096 +
      (c.toNat - 128) * 64 + (d.toNat - 128) := by
    rw [← hchar, charOf, hlow.1, hlow.2.1, hlow.2.2, toNat_ofNat_of_valid (by omega)]
    omega
  have hbytes : encodeChar x = [a, b, c, d] := by
    have ha' : 0xF0 + x.toNat / 262144 = a.toNat := by omega
    have hb' : 0x80 + x.toNat / 4096 % 64 = b.toNat := by omega
    have hc' : 0x80 + x.toNat / 64 % 64 = c.toNat := by omega
    have hd' : 0x80 + x.toNat % 64 = d.toNat := by omega
    simp only [encodeChar, if_neg (show ¬ x.toNat < 0x80 by omega),
      if_neg (show ¬ x.toNat < 0x800 by omega), if_neg (show ¬ x.toNat < 0x10000 by omega), ha',
      hb', hc', hd', UInt8.ofNat_toNat]
  exact ⟨rest, by rw [hbytes]; rfl, by rw [hbytes]; rfl⟩

theorem starts_of_head {a : UInt8} {rest : Bytes} {c : Char} {more : Nat}
    (h : head a rest = .char c more) : Starts (a :: rest) c more := by
  revert h
  -- Of the ways through the bytes, four end at a character, one for each length.
  fun_cases head a rest <;> intro h <;> cases h
  case case1 hone => exact starts_one hone rest
  case case3 _ hrange b rest hb =>
    have hrange : 194 ≤ a.toNat ∧ a.toNat ≤ 223 := by
      simpa [UInt8.le_iff_toNat_le] using hrange
    exact starts_two hrange hb rest
  case case7 _ _ hrange b hb c rest hc =>
    have hrange : 224 ≤ a.toNat ∧ a.toNat ≤ 239 := by
      simpa [UInt8.le_iff_toNat_le] using hrange
    exact starts_three hrange hb hc rest
  case case13 _ _ _ hrange b hb c hc d rest hd =>
    have hrange : 240 ≤ a.toNat ∧ a.toNat ≤ 244 := by
      simpa [UInt8.le_iff_toNat_le] using hrange
    exact starts_four hrange hb hc hd rest

theorem cons_eq_of_head {a : UInt8} {bs : Bytes} {c : Char} {more : Nat}
    (h : head a bs = .char c more) :
    a :: bs = encodeChar c ++ bs.drop more ∧ (encodeChar c).length = more + 1 := by
  obtain ⟨rest, hbytes, hlength⟩ := starts_of_head h
  have hdrop := congrArg (List.drop (more + 1)) hbytes
  rw [List.drop_succ_cons, List.drop_left' hlength] at hdrop
  exact ⟨by rw [hdrop, hbytes], hlength⟩

theorem encode_of_decodeFrom {i skip : Nat} {bs : Bytes} {cs : List Char}
    (h : decodeFrom i skip bs = .ok cs) : encode cs = bs.drop skip := by
  induction bs generalizing i skip cs with
  | nil =>
    rw [decodeFrom] at h
    cases h
    exact List.drop_nil.symm
  | cons a bs ih =>
    cases skip with
    | succ skip => exact ih h
    | zero =>
      rw [decodeFrom] at h
      split at h
      · rename_i c more hhead
        obtain ⟨cs', hrest, rfl⟩ : ∃ cs', decodeFrom (i + 1) more bs = .ok cs' ∧ c :: cs' = cs := by
          cases hrest : decodeFrom (i + 1) more bs with
          | error e =>
            rw [hrest] at h
            cases h
          | ok cs' =>
            rw [hrest] at h
            exact ⟨cs', rfl, Except.ok.inj h⟩
        rw [List.drop_zero, (cons_eq_of_head hhead).1, encode, List.flatMap_cons]
        exact congrArg _ (ih hrest)
      · cases h
      · cases h

theorem ofString_of_toString? {bs : Bytes} {s : String} (h : toString? bs = .ok s) :
    ofString s = bs := by
  rw [toString?] at h
  cases hcs : decode bs with
  | error e =>
    rw [hcs] at h
    cases h
  | ok cs =>
    rw [hcs] at h
    cases h
    rw [ofString, String.toList_ofList]
    exact encode_of_decodeFrom hcs

theorem toString?_eq_ok_iff {bs : Bytes} {s : String} : toString? bs = .ok s ↔ bs = ofString s := by
  constructor
  · exact fun h => (ofString_of_toString? h).symm
  · rintro rfl
    exact toString?_ofString s

/-- What is wrong with bytes that spell no text, the first of them at index `i`: behind the bytes of
a text no character starts. -/
inductive Flawed (i : Nat) : Bytes → Fault → Prop
  | invalid {cs : List Char} {a : UInt8} {rest : Bytes} {width : Nat}
      (h : head a rest = .invalid width) :
      Flawed i (encode cs ++ a :: rest) (.invalid width (i + (encode cs).length))
  | incomplete {cs : List Char} {a : UInt8} {rest : Bytes} (h : head a rest = .incomplete) :
      Flawed i (encode cs ++ a :: rest) (.incomplete (i + (encode cs).length))

theorem Flawed.cons {i : Nat} {c : Char} {bs : Bytes} {f : Fault}
    (h : Flawed (i + (encodeChar c).length) bs f) : Flawed i (encodeChar c ++ bs) f := by
  have hcons : ∀ cs, encodeChar c ++ encode cs = encode (c :: cs) := fun cs => rfl
  cases h with
  | invalid hhead =>
    rw [← List.append_assoc, hcons, Nat.add_assoc, ← List.length_append, hcons]
    exact .invalid hhead
  | incomplete hhead =>
    rw [← List.append_assoc, hcons, Nat.add_assoc, ← List.length_append, hcons]
    exact .incomplete hhead

theorem decodeFrom_of_flawed {i : Nat} {bs : Bytes} {f : Fault} (h : Flawed i bs f) :
    decodeFrom i 0 bs = .error f := by
  cases h with
  | invalid hhead => simp [decodeFrom_encode_append, decodeFrom, hhead, Except.map]
  | incomplete hhead => simp [decodeFrom_encode_append, decodeFrom, hhead, Except.map]

theorem flawed_of_decodeFrom {i skip : Nat} {bs : Bytes} {f : Fault}
    (h : decodeFrom i skip bs = .error f) : Flawed (i + skip) (bs.drop skip) f := by
  induction bs generalizing i skip with
  | nil =>
    rw [decodeFrom] at h
    cases h
  | cons a bs ih =>
    cases skip with
    | succ skip =>
      have hrest := ih h
      rwa [Nat.add_assoc, Nat.add_comm 1] at hrest
    | zero =>
      rw [decodeFrom] at h
      split at h
      · rename_i c more hhead
        have hrest : decodeFrom (i + 1) more bs = .error f := by
          cases hrest : decodeFrom (i + 1) more bs with
          | error e =>
            rw [hrest] at h
            exact h
          | ok cs =>
            rw [hrest] at h
            cases h
        obtain ⟨hbytes, hlength⟩ := cons_eq_of_head hhead
        have hflawed := ih hrest
        rw [Nat.add_assoc, Nat.add_comm 1, ← hlength] at hflawed
        rw [List.drop_zero, hbytes]
        exact hflawed.cons
      · rename_i hhead
        cases h
        exact @Flawed.invalid _ [] _ _ _ hhead
      · rename_i hhead
        cases h
        exact @Flawed.incomplete _ [] _ _ hhead

theorem toString?_eq_error_iff {bs : Bytes} {f : Fault} :
    toString? bs = .error f ↔ Flawed 0 bs f := by
  constructor
  · intro h
    refine flawed_of_decodeFrom (?_ : decodeFrom 0 0 bs = .error f)
    rw [toString?, decode] at h
    cases hcs : decodeFrom 0 0 bs <;> rw [hcs] at h <;> cases h
    rfl
  · intro h
    rw [toString?, decode, decodeFrom_of_flawed h]
    rfl

theorem text_or_flawed (bs : Bytes) : (∃ s, bs = ofString s) ∨ ∃ f, Flawed 0 bs f := by
  cases h : toString? bs with
  | ok s => exact .inl ⟨s, toString?_eq_ok_iff.mp h⟩
  | error f => exact .inr ⟨f, toString?_eq_error_iff.mp h⟩

theorem length_le_length_encode (cs : List Char) : cs.length ≤ (encode cs).length := by
  induction cs with
  | nil => exact Nat.le_refl _
  | cons c cs ih =>
    obtain ⟨a, more, hbytes, -⟩ := head_encodeChar c []
    simp only [encode, List.flatMap_cons, hbytes, List.length_append, List.length_cons] at ih ⊢
    omega

theorem ofNat_cons_lt {m n : Nat} (hn : n < 256) (hle : m ≤ n) {x y : Bytes}
    (h : m = n → x < y) : UInt8.ofNat m :: x < UInt8.ofNat n :: y := by
  rw [List.cons_lt_cons_iff, UInt8.lt_iff_toNat_lt, toNat_ofNat_of_lt hn,
    toNat_ofNat_of_lt (by omega)]
  rcases Nat.lt_or_eq_of_le hle with hlt | heq
  · exact .inl hlt
  · exact .inr ⟨congrArg _ heq, h heq⟩

/-- The first byte in which two characters differ is larger in the larger one: longer characters
begin with larger bytes, and among those of one length the high bits come first. -/
theorem encodeChar_lt {c d : Char} (h : c < d) (x y : Bytes) :
    encodeChar c ++ x < encodeChar d ++ y := by
  have hlt : c.toNat < d.toNat := h
  have hvalid := toNat_ne_surrogate d
  simp only [encodeChar]
  split_ifs <;> simp only [List.cons_append] <;>
    repeat first
      | omega
      | refine ofNat_cons_lt (by omega) (by omega) fun heq => ?_

theorem encode_lt {cs ds : List Char} (h : cs < ds) : encode cs < encode ds := by
  induction cs generalizing ds with
  | nil =>
    cases ds with
    | nil => exact absurd h (List.lt_irrefl [])
    | cons d ds =>
      obtain ⟨a, more, hbytes, -⟩ := head_encodeChar d []
      simp [encode, hbytes]
  | cons c cs ih =>
    cases ds with
    | nil => exact absurd h (List.not_lt_nil _)
    | cons d ds =>
      simp only [encode, List.flatMap_cons]
      rcases List.cons_lt_cons_iff.mp h with hlt | ⟨rfl, hrest⟩
      · exact encodeChar_lt hlt _ _
      · exact List.append_left_lt (ih hrest)

theorem ofString_lt_iff {s t : String} : ofString s < ofString t ↔ s < t := by
  constructor
  · intro h
    rcases Std.lt_trichotomy s t with hlt | rfl | hgt
    · exact hlt
    · exact absurd h Std.lt_irrefl
    · exact absurd (Std.lt_trans h (encode_lt hgt)) Std.lt_irrefl
  · exact encode_lt

end TokenRegistry.Text.Utf8
