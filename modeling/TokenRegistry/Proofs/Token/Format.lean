import TokenRegistry.Proofs.Amount.Grammar
import TokenRegistry.Proofs.Token.Record

/-!
# The bytes that are a record

A record is three fields and whatever follows them. Each field is a text behind its
length: the name, a text that spells the amount, and one that spells the owner in digits
of either case. Other bytes are refused for the first field that does not fit, and within
a field for its length, its bytes, its characters and its meaning in this order. The fault
is in the bytes given: unless they end too early, more bytes behind them change nothing.
What was read is read again from its own record.
-/
namespace TokenRegistry.Token

open Text

inductive IsRecord : Bytes → Token → Prop
  | mk {t : Token} {name amount owner : Bytes} {rawAmount rawOwner : String} (trailing : Bytes)
      (hname : IsField name (Utf8.ofString t.name))
      (hamount : IsField amount (Utf8.ofString rawAmount))
      (hvalue : Amount.Spells rawAmount.toList t.amount)
      (howner : IsField owner (Utf8.ofString rawOwner))
      (hbytes : Hex.Spells rawOwner.toList t.owner.bytes) :
      IsRecord (name ++ (amount ++ (owner ++ trailing))) t

inductive Broken : Bytes → RecordFault → Prop
  | endInLength {bytes : Bytes} (h : bytes.length < 8) : Broken bytes .endInLength
  | endInField {word rest : Bytes} (hword : word.length = 8) (h : rest.length < Bytes.value word) :
      Broken (word ++ rest) .endInField
  | notText {bytes body rest : Bytes} {e : Utf8.Fault} (hfield : IsField bytes body)
      (h : Utf8.Flawed 0 body e) : Broken (bytes ++ rest) (.notText e)

/-- What is wrong with bytes that are no record, by the first field that does not fit. -/
inductive Misread : Bytes → RecordFault → Prop
  | name {bytes : Bytes} {e : RecordFault} (h : Broken bytes e) : Misread bytes e
  | amount {name rest : Bytes} {s : String} {e : RecordFault}
      (hname : IsField name (Utf8.ofString s)) (h : Broken rest e) : Misread (name ++ rest) e
  | amountText {name amount rest : Bytes} {s raw : String}
      (hname : IsField name (Utf8.ofString s)) (hamount : IsField amount (Utf8.ofString raw))
      (h : ¬ ∃ n, Amount.Spells raw.toList n) :
      Misread (name ++ (amount ++ rest)) (.amount ⟨raw, Amount.flaw raw.toList⟩)
  | owner {name amount rest : Bytes} {s raw : String} {n : Int} {e : RecordFault}
      (hname : IsField name (Utf8.ofString s)) (hamount : IsField amount (Utf8.ofString raw))
      (hvalue : Amount.Spells raw.toList n) (h : Broken rest e) :
      Misread (name ++ (amount ++ rest)) e
  | ownerText {name amount owner rest : Bytes} {s raw rawOwner : String} {n : Int} {e : Hex.Fault}
      (hname : IsField name (Utf8.ofString s)) (hamount : IsField amount (Utf8.ofString raw))
      (hvalue : Amount.Spells raw.toList n) (howner : IsField owner (Utf8.ofString rawOwner))
      (h : Hex.Flawed (Utf8.ofString rawOwner) e) :
      Misread (name ++ (amount ++ (owner ++ rest))) (.owner e)

variable {bytes : Bytes} {t : Token} {e : RecordFault}

theorem IsField.fitsField {s : String} (h : IsField bytes (Utf8.ofString s)) : FitsField s := by
  obtain ⟨word, hword, hvalue, -⟩ := h
  have hlt := Bytes.value_lt word
  rwa [hvalue, hword] at hlt

theorem takeField_of_broken (h : Broken bytes e) : takeField bytes = .error e := by
  cases h with
  | endInLength hshort => rw [takeField, if_pos hshort]
  | @endInField word rest hword hshort =>
    have hlong : ¬ (word ++ rest).length < 8 := by
      rw [List.length_append]
      omega
    rw [takeField, if_neg hlong]
    simp only [List.take_left' hword, List.drop_left' hword, if_pos hshort]
  | notText hfield hflawed =>
    rw [takeField_append hfield, Utf8.toString?_eq_error_iff.mpr hflawed]

theorem field_or_broken (bytes : Bytes) :
    (∃ field s rest, bytes = field ++ rest ∧ IsField field (Utf8.ofString s)) ∨
      ∃ e, Broken bytes e := by
  by_cases hshort : bytes.length < 8
  · exact .inr ⟨_, .endInLength hshort⟩
  obtain ⟨word, rest, hword, rfl⟩ : ∃ word rest, word.length = 8 ∧ bytes = word ++ rest :=
    ⟨bytes.take 8, bytes.drop 8, by rw [List.length_take]; omega, by simp⟩
  by_cases hend : rest.length < Bytes.value word
  · exact .inr ⟨_, .endInField hword hend⟩
  obtain ⟨body, rest, hbody, rfl⟩ :
      ∃ body rest', body.length = Bytes.value word ∧ rest = body ++ rest' :=
    ⟨rest.take (Bytes.value word), rest.drop (Bytes.value word), by rw [List.length_take]; omega,
      by simp⟩
  rw [← List.append_assoc]
  rcases Utf8.text_or_flawed body with ⟨s, rfl⟩ | ⟨f, hflawed⟩
  · exact .inl ⟨_, s, rest, rfl, word, hword, hbody.symm, rfl⟩
  · exact .inr ⟨_, .notText ⟨word, hword, hbody.symm, rfl⟩ hflawed⟩

theorem decode_of_isRecord (h : IsRecord bytes t) : decode bytes = .ok t := by
  cases h with
  | mk trailing hname hamount hvalue howner hbytes =>
    simp only [decode, bind, Except.bind, pure, Except.pure, takeField_text hname,
      takeField_text hamount, takeField_text howner, Amount.parse_eq_ok_iff.mpr hvalue,
      Hex.ofText_eq_ok_iff.mpr hbytes, Except.mapError]

theorem decode_of_misread (h : Misread bytes e) : decode bytes = .error e := by
  cases h with
  | name h => simp only [decode, bind, Except.bind, takeField_of_broken h]
  | amount hname h =>
    simp only [decode, bind, Except.bind, takeField_text hname, takeField_of_broken h]
  | amountText hname hamount h =>
    have hparse := Amount.parse_eq_error_iff.mpr ⟨h, rfl⟩
    simp only [decode, bind, Except.bind, takeField_text hname, takeField_text hamount, hparse,
      Except.mapError]
  | owner hname hamount hvalue h =>
    simp only [decode, bind, Except.bind, takeField_text hname, takeField_text hamount,
      Amount.parse_eq_ok_iff.mpr hvalue, Except.mapError, takeField_of_broken h]
  | ownerText hname hamount hvalue howner h =>
    simp only [decode, bind, Except.bind, takeField_text hname, takeField_text hamount,
      takeField_text howner, Amount.parse_eq_ok_iff.mpr hvalue, Hex.ofText_eq_error_iff.mpr h,
      Except.mapError]

theorem isRecord_or_misread (bytes : Bytes) : (∃ t, IsRecord bytes t) ∨ ∃ e, Misread bytes e := by
  rcases field_or_broken bytes with ⟨name, s, rest, rfl, hname⟩ | ⟨e, h⟩
  rotate_left
  · exact .inr ⟨e, .name h⟩
  rcases field_or_broken rest with ⟨amount, raw, rest, rfl, hamount⟩ | ⟨e, h⟩
  rotate_left
  · exact .inr ⟨e, .amount hname h⟩
  by_cases hspells : ∃ n, Amount.Spells raw.toList n
  rotate_left
  · exact .inr ⟨_, .amountText hname hamount hspells⟩
  obtain ⟨n, hvalue⟩ := hspells
  rcases field_or_broken rest with ⟨owner, rawOwner, rest, rfl, howner⟩ | ⟨e, h⟩
  rotate_left
  · exact .inr ⟨e, .owner hname hamount hvalue h⟩
  cases hhex : Hex.ofText rawOwner with
  | ok bs =>
    have hbytes := Hex.ofText_eq_ok_iff.mp hhex
    exact .inl ⟨⟨s, n, ⟨bs⟩⟩, .mk rest hname hamount hvalue howner hbytes⟩
  | error f =>
    have hflawed := Hex.ofText_eq_error_iff.mp hhex
    exact .inr ⟨_, .ownerText hname hamount hvalue howner hflawed⟩

theorem decode_eq_ok_iff : decode bytes = .ok t ↔ IsRecord bytes t := by
  refine ⟨fun h => ?_, decode_of_isRecord⟩
  rcases isRecord_or_misread bytes with ⟨u, hu⟩ | ⟨e, he⟩
  · rw [decode_of_isRecord hu] at h
    cases h
    exact hu
  · rw [decode_of_misread he] at h
    cases h

theorem decode_eq_error_iff : decode bytes = .error e ↔ Misread bytes e := by
  refine ⟨fun h => ?_, decode_of_misread⟩
  rcases isRecord_or_misread bytes with ⟨u, hu⟩ | ⟨e, he⟩
  · rw [decode_of_isRecord hu] at h
    cases h
  · rw [decode_of_misread he] at h
    cases h
    exact he

theorem IsRecord.append (h : IsRecord bytes t) (more : Bytes) : IsRecord (bytes ++ more) t := by
  cases h with
  | mk trailing hname hamount hvalue howner hbytes =>
    simp only [List.append_assoc]
    exact .mk (trailing ++ more) hname hamount hvalue howner hbytes

theorem Broken.append (h : Broken bytes e) (hend : ¬ e.isEnd) (more : Bytes) :
    Broken (bytes ++ more) e := by
  cases h with
  | endInLength => exact absurd rfl hend
  | endInField => exact absurd rfl hend
  | notText hfield hflawed =>
    rw [List.append_assoc]
    exact .notText hfield hflawed

theorem Misread.append (h : Misread bytes e) (hend : ¬ e.isEnd) (more : Bytes) :
    Misread (bytes ++ more) e := by
  cases h with
  | name h => exact .name (h.append hend more)
  | amount hname h =>
    rw [List.append_assoc]
    exact .amount hname (h.append hend more)
  | amountText hname hamount h =>
    simp only [List.append_assoc]
    exact .amountText hname hamount h
  | owner hname hamount hvalue h =>
    simp only [List.append_assoc]
    exact .owner hname hamount hvalue (h.append hend more)
  | ownerText hname hamount hvalue howner h =>
    simp only [List.append_assoc]
    exact .ownerText hname hamount hvalue howner h

theorem IsRecord.storable (h : IsRecord bytes t) : t.Storable := by
  cases h with
  | mk trailing hname hamount hvalue howner hbytes =>
    refine ⟨hname.fitsField, ?_, ?_⟩
    · exact Nat.lt_of_le_of_lt hvalue.length_ofString_text_le hamount.fitsField
    · exact Nat.lt_of_le_of_lt (Nat.le_of_eq hbytes.length_ofString_text) howner.fitsField

/-- Bytes are read as a token exactly if they are a record of it, and else refused for what is
first wrong with them; what follows is looked at only where they end too early. -/
theorem decode_exact (bytes : Bytes) :
    (∀ t, decode bytes = .ok t ↔ IsRecord bytes t) ∧
      (∀ e, decode bytes = .error e ↔ Misread bytes e) ∧
      (∀ t more, decode bytes = .ok t → decode (bytes ++ more) = .ok t) ∧
      (∀ e more, decode bytes = .error e → ¬ e.isEnd → decode (bytes ++ more) = .error e) ∧
      ∀ t, decode bytes = .ok t → decode t.encode = .ok t := by
  refine ⟨fun t => decode_eq_ok_iff, fun e => decode_eq_error_iff, fun t more h => ?_,
    fun e more h hend => ?_, fun t h => ?_⟩
  · exact decode_of_isRecord ((decode_eq_ok_iff.mp h).append more)
  · exact decode_of_misread ((decode_eq_error_iff.mp h).append hend more)
  · exact decode_encode (decode_eq_ok_iff.mp h).storable

-- An amount and an owner that are not written so are read all the same.
example : decode (field (Utf8.ofString "Sand") ++ (field (Utf8.ofString "+1_0") ++
    (field (Utf8.ofString "0aF0") ++ [0xff]))) = .ok ⟨"Sand", 10, ⟨[0x0a, 0xf0]⟩⟩ := by
  decide +kernel

end TokenRegistry.Token
