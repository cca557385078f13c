import TokenRegistry.Address
import TokenRegistry.Proofs.Text.Hex

/-!
# Reading an address behind a label

Whatever the label, an address is read back from its text behind it, for reading takes the
label off the front and looks for digits only after it. What is read is the label and then
digits of either case for whole bytes; written again, it has these digits in lower case.
Other texts are refused for the label first, then for an odd number of bytes after it, and
then for the first of these that is no digit.
-/
namespace TokenRegistry.Address

open Text

/-- Digits of either case, two for each byte. -/
structure IsHex (body : String) : Prop where
  even : (Utf8.ofString body).length % 2 = 0
  chars : ∀ c ∈ body.toList, c.toLower ∈ Hex.digits

inductive Refused (label : String) : (value said : String) → Prop
  | missingLabel {value : String} (h : ¬ ∃ body, value = label ++ body) :
      Refused label value s!"address `{value}` does not start with `{label}`"
  | odd {body : String} (h : Hex.Flawed (Utf8.ofString body) .odd) :
      Refused label (label ++ body)
        (s!"invalid address `{label ++ body}`: " ++ "Odd number of digits")
  | notDigit {body : String} {b : UInt8} {i : Nat}
      (h : Hex.Flawed (Utf8.ofString body) (.notDigit b i)) :
      Refused label (label ++ body) (s!"invalid address `{label ++ body}`: " ++
        s!"Invalid character {Quoted.char (Char.ofNat b.toNat)} at position {i}")

variable {label value body : String} {a : Address}

theorem ofLabelled_append (label body : String) :
    ofLabelled label (label ++ body) =
      ((Hex.ofText body).map Address.mk).mapError (.hex (label ++ body)) := by
  rw [ofLabelled, String.toList_append, afterLabel?_append, Hex.ofText, Utf8.ofString]
  cases hbytes : Hex.decode (Utf8.encode body.toList) with
  | ok bytes =>
    simp only [hbytes]
    rfl
  | error f =>
    simp only [hbytes]
    rfl

theorem ofLabelled_of_missing (h : ¬ ∃ body, value = label ++ body) :
    ofLabelled label value = .error (.missingLabel value label) := by
  rw [ofLabelled]
  cases hbody : afterLabel? label.toList value.toList with
  | none => rfl
  | some body =>
    have hvalue := eq_append_of_afterLabel? hbody
    refine absurd ⟨String.ofList body, String.toList_injective ?_⟩ h
    rw [hvalue, String.toList_append, String.toList_ofList]

theorem ofLabelled_labelled (label : String) (a : Address) :
    ofLabelled label (a.labelled label) = .ok a := by
  rw [labelled, ofLabelled_append, text, Hex.ofText_text]
  rfl

theorem labelled_eq_iff :
    a.labelled label = label ++ body.toLower ↔
      body.toList.map Char.toLower = Hex.encode a.bytes := by
  have hlower : body.toLower.toList = body.toList.map Char.toLower := String.toList_map
  rw [labelled, ← String.toList_inj, String.toList_append, String.toList_append,
    List.append_right_inj, text, Hex.text, String.toList_ofList, hlower]
  exact eq_comm

theorem length_of_chars (h : ∀ c ∈ body.toList, c.toLower ∈ Hex.digits) :
    (Utf8.ofString body).length = body.toList.length := by
  rw [Utf8.ofString, Utf8.encode_of_ascii fun c hc => Hex.ascii_of_toLower_mem (h c hc),
    List.length_map]

theorem spells_iff :
    Hex.Spells body.toList a.bytes ↔ IsHex body ∧ a.labelled label = label ++ body.toLower := by
  rw [labelled_eq_iff]
  constructor
  · intro h
    exact ⟨⟨length_of_chars h.chars ▸ h.even, h.chars⟩, h.value⟩
  · intro ⟨h, hvalue⟩
    exact ⟨length_of_chars h.chars ▸ h.even, h.chars, hvalue⟩

theorem ofLabelled_append_eq_ok_iff :
    ofLabelled label (label ++ body) = .ok a ↔
      IsHex body ∧ a.labelled label = label ++ body.toLower := by
  rw [← spells_iff, ← Hex.ofText_eq_ok_iff, ofLabelled_append]
  obtain ⟨bytes⟩ := a
  cases Hex.ofText body with
  | ok _ => simp [Except.map, Except.mapError]
  | error f => simp [Except.map, Except.mapError]

theorem exists_ofLabelled_iff :
    (∃ a, ofLabelled label value = .ok a) ↔ ∃ body, value = label ++ body ∧ IsHex body := by
  constructor
  · intro ⟨a, ha⟩
    by_cases hlabel : ∃ body, value = label ++ body
    · obtain ⟨body, rfl⟩ := hlabel
      exact ⟨body, rfl, (ofLabelled_append_eq_ok_iff.mp ha).1⟩
    · rw [ofLabelled_of_missing hlabel] at ha
      cases ha
  · rintro ⟨body, rfl, hhex⟩
    obtain ⟨bytes, -, hencode⟩ :=
      Hex.decode_of_chars (length_of_chars hhex.chars ▸ hhex.even) hhex.chars
    exact ⟨⟨bytes⟩, ofLabelled_append_eq_ok_iff.mpr ⟨hhex, labelled_eq_iff.mpr hencode.symm⟩⟩

theorem refused_of_flawed {f : Hex.Fault} (h : Hex.Flawed (Utf8.ofString body) f) :
    Refused label (label ++ body) (Fault.hex (label ++ body) f).message := by
  cases f with
  | odd => exact .odd h
  | notDigit b i => exact .notDigit h

theorem ofLabelled_of_flawed {f : Hex.Fault} (h : Hex.Flawed (Utf8.ofString body) f) :
    ofLabelled label (label ++ body) = .error (.hex (label ++ body) f) := by
  rw [ofLabelled_append, Hex.ofText_eq_error_iff.mpr h]
  rfl

theorem message_eq_iff {m : String} :
    (ofLabelled label value).mapError Fault.message = .error m ↔ Refused label value m := by
  constructor
  · intro h
    by_cases hlabel : ∃ body, value = label ++ body
    · obtain ⟨body, rfl⟩ := hlabel
      cases hbody : Hex.ofText body with
      | ok bytes =>
        rw [ofLabelled_append, hbody] at h
        cases h
      | error f =>
        have hflawed := Hex.ofText_eq_error_iff.mp hbody
        rw [ofLabelled_of_flawed hflawed] at h
        cases h
        exact refused_of_flawed hflawed
    · rw [ofLabelled_of_missing hlabel] at h
      cases h
      exact .missingLabel hlabel
  · intro h
    cases h with
    | missingLabel hlabel =>
      rw [ofLabelled_of_missing hlabel]
      rfl
    | odd hflawed =>
      rw [ofLabelled_of_flawed hflawed]
      rfl
    | notDigit hflawed =>
      rw [ofLabelled_of_flawed hflawed]
      rfl

/-- Behind any label, addresses are read back from their text. Digits of either case for whole bytes
are read, and mean the same in lower case; all else is refused for what is first wrong with it. -/
theorem ofLabelled_exact (label : String) :
    (∀ a, ofLabelled label (a.labelled label) = .ok a) ∧
      (∀ value, (∃ a, ofLabelled label value = .ok a) ↔
        ∃ body, value = label ++ body ∧ IsHex body) ∧
      (∀ body a, ofLabelled label (label ++ body) = .ok a ↔
        IsHex body ∧ a.labelled label = label ++ body.toLower) ∧
      ∀ value m, (ofLabelled label value).mapError Fault.message = .error m ↔
        Refused label value m :=
  ⟨ofLabelled_labelled label, fun _ => exists_ofLabelled_iff,
    fun _ _ => ofLabelled_append_eq_ok_iff, fun _ _ => message_eq_iff⟩

-- A label of hex digits is taken off once and no more.
example : ofLabelled "ab" "abAb01" = .ok ⟨[0xab, 0x01]⟩ := by decide +kernel

end TokenRegistry.Address
