import TokenRegistry.Proofs.Amount
import TokenRegistry.Proofs.Text.Hex
import TokenRegistry.Token.Record

/-!
# Reading back a record

A token whose three texts are each shorter than what a word of eight bytes can
count is read back from its record, whatever follows the record. No text in memory
is longer than that. A record cut short is never read as a token: the bytes end in
the length or in the body of the field where the cut is. So a record says where it
ends, and none is the beginning of another.
-/
namespace TokenRegistry.Token

def fieldCapacity : Nat := Nat.pow 256 8

def FitsField (s : String) : Prop := (Text.Utf8.ofString s).length < fieldCapacity

instance (s : String) : Decidable (FitsField s) := inferInstanceAs (Decidable (_ < _))

structure Storable (t : Token) : Prop where
  name : FitsField t.name
  amount : FitsField (Amount.text t.amount)
  owner : FitsField t.owner.text

/-- The bytes are those of the body behind their number, as a word of eight bytes. -/
def IsField (bytes body : Bytes) : Prop :=
  ∃ word, word.length = 8 ∧ Bytes.value word = body.length ∧ bytes = word ++ body

theorem isField_field {s : String} (h : FitsField s) :
    IsField (field (Text.Utf8.ofString s)) (Text.Utf8.ofString s) :=
  ⟨_, Bytes.length_word 8 _, Bytes.value_word 8 _ h, rfl⟩

theorem takeField_append {bytes body : Bytes} (h : IsField bytes body) (rest : Bytes) :
    takeField (bytes ++ rest) =
      match Text.Utf8.toString? body with
      | .ok s => .ok (s, rest)
      | .error e => .error (.notText e) := by
  obtain ⟨word, hword, hvalue, rfl⟩ := h
  rw [List.append_assoc]
  have hlong : ¬ (word ++ (body ++ rest)).length < 8 := by
    rw [List.length_append]
    omega
  have htake : (word ++ (body ++ rest)).take 8 = word := List.take_left' hword
  have hdrop : (word ++ (body ++ rest)).drop 8 = body ++ rest := List.drop_left' hword
  have hbody : ¬ (body ++ rest).length < body.length := by
    rw [List.length_append]
    omega
  rw [takeField, if_neg hlong]
  cases hread : Text.Utf8.toString? body <;>
    simp only [htake, hdrop, hvalue, if_neg hbody, List.take_left, List.drop_left, hread]

theorem takeField_text {bytes : Bytes} {s : String} (h : IsField bytes (Text.Utf8.ofString s))
    (rest : Bytes) : takeField (bytes ++ rest) = .ok (s, rest) := by
  rw [takeField_append h, Text.Utf8.toString?_ofString]

theorem takeField_field {s : String} (h : FitsField s) (rest : Bytes) :
    takeField (field (Text.Utf8.ofString s) ++ rest) = .ok (s, rest) :=
  takeField_text (isField_field h) rest

theorem decode_encode_append {t : Token} (h : t.Storable) (rest : Bytes) :
    decode (t.encode ++ rest) = .ok t := by
  have hname := takeField_field h.name (field (Text.Utf8.ofString (Amount.text t.amount)) ++
    (field (Text.Utf8.ofString t.owner.text) ++ rest))
  have hamount := takeField_field h.amount (field (Text.Utf8.ofString t.owner.text) ++ rest)
  have howner := takeField_field h.owner rest
  have hhex : Text.Hex.ofText t.owner.text = .ok t.owner.bytes := Text.Hex.ofText_text _
  rw [encode, List.append_assoc, List.append_assoc]
  simp only [decode, bind, Except.bind, pure, Except.pure, hname, hamount, howner, hhex,
    Amount.parse_text, Except.mapError]

theorem decode_encode {t : Token} (h : t.Storable) : decode t.encode = .ok t := by
  have hnil := decode_encode_append h []
  rwa [List.append_nil] at hnil

def RecordFault.isEnd : RecordFault → Bool
  | .endInLength | .endInField => true
  | .notText _ | .amount _ | .owner _ => false

theorem prefix_append_cases {p a b : Bytes} (h : p <+: a ++ b) :
    p <+: a ∧ p ≠ a ∨ ∃ q, p = a ++ q ∧ q <+: b := by
  rcases List.prefix_or_prefix_of_prefix h (List.prefix_append a b) with hpa | ⟨q, rfl⟩
  · by_cases hne : p = a
    · exact .inr ⟨[], by rw [hne, List.append_nil], List.nil_prefix⟩
    · exact .inl ⟨hpa, hne⟩
  · exact .inr ⟨q, rfl, (List.prefix_append_right_inj a).mp h⟩

theorem takeField_cut {s : String} (h : FitsField s) {p : Bytes}
    (hp : p <+: field (Text.Utf8.ofString s)) (hne : p ≠ field (Text.Utf8.ofString s)) :
    ∃ e, takeField p = .error e ∧ e.isEnd := by
  have hword := Bytes.length_word 8 (Text.Utf8.ofString s).length
  have hvalue := Bytes.value_word 8 (Text.Utf8.ofString s).length h
  obtain ⟨more, hmore⟩ := hp
  rw [field] at hmore hne
  generalize Bytes.word 8 (Text.Utf8.ofString s).length = word at hword hvalue hmore hne
  by_cases hshort : p.length < 8
  · exact ⟨.endInLength, by rw [takeField, if_pos hshort], rfl⟩
  have htake : p.take 8 = word := by
    have htaken := congrArg (List.take 8) hmore
    rwa [List.take_append_of_le_length (by omega), List.take_left' hword] at htaken
  -- The beginning is not the whole field, so at least one byte of it is missing.
  have hcut : 0 < more.length := by
    rw [List.length_pos_iff]
    rintro rfl
    exact hne (by rw [← hmore, List.append_nil])
  have hbody : (p.drop 8).length < (Text.Utf8.ofString s).length := by
    have hlength := congrArg List.length hmore
    simp only [List.length_append] at hlength
    rw [List.length_drop]
    omega
  refine ⟨.endInField, ?_, rfl⟩
  rw [takeField, if_neg hshort]
  simp only [htake, hvalue, if_pos hbody]

theorem takeField_prefix {s : String} (h : FitsField s) {p rest : Bytes}
    (hp : p <+: field (Text.Utf8.ofString s) ++ rest) :
    (∃ e, takeField p = .error e ∧ e.isEnd) ∨
      ∃ q, p = field (Text.Utf8.ofString s) ++ q ∧ takeField p = .ok (s, q) ∧ q <+: rest := by
  rcases prefix_append_cases hp with ⟨hfield, hne⟩ | ⟨q, rfl, hq⟩
  · exact .inl (takeField_cut h hfield hne)
  · exact .inr ⟨q, rfl, takeField_field h q, hq⟩

theorem decode_cut {t : Token} (h : t.Storable) {p : Bytes} (hp : p <+: t.encode)
    (hne : p ≠ t.encode) : ∃ e, decode p = .error e ∧ e.isEnd := by
  have hhex : Text.Hex.ofText t.owner.text = .ok t.owner.bytes := Text.Hex.ofText_text _
  rw [encode, List.append_assoc] at hp hne
  rcases takeField_prefix h.name hp with ⟨e, he, hend⟩ | ⟨q, rfl, hname, hq⟩
  · exact ⟨e, by simp only [decode, he, bind, Except.bind], hend⟩
  rcases takeField_prefix h.amount hq with ⟨e, he, hend⟩ | ⟨q, rfl, hamount, hq⟩
  · exact ⟨e, by simp only [decode, hname, he, bind, Except.bind], hend⟩
  rw [← List.append_nil (field (Text.Utf8.ofString t.owner.text))] at hq
  rcases takeField_prefix h.owner hq with ⟨e, he, hend⟩ | ⟨q, rfl, -, hq⟩
  · refine ⟨e, ?_, hend⟩
    simp only [decode, hname, hamount, he, Amount.parse_text, Except.mapError, bind, Except.bind]
  · rw [List.prefix_nil.mp hq, List.append_nil] at hne
    exact absurd rfl hne

theorem eq_of_encode_prefix {t u : Token} (ht : t.Storable) (hu : u.Storable)
    (h : u.encode <+: t.encode) : u = t := by
  obtain ⟨more, hmore⟩ := h
  have hread := decode_encode_append hu more
  rw [hmore, decode_encode ht] at hread
  exact (Except.ok.inj hread).symm

/-- A record says where it ends: what follows it is not looked at, what is cut off it is missed,
and it begins with no record but itself. -/
theorem encode_selfDelimiting {t : Token} (h : t.Storable) :
    (∀ rest, decode (t.encode ++ rest) = .ok t) ∧
      (∀ p, p <+: t.encode → p ≠ t.encode → ∃ e, decode p = .error e ∧ e.isEnd) ∧
      ∀ u : Token, u.Storable →
        (u.encode = t.encode ↔ u = t) ∧ (u.encode <+: t.encode ↔ u = t) := by
  refine ⟨decode_encode_append h, fun p hp hne => decode_cut h hp hne, fun u hu => ⟨?_, ?_⟩⟩
  · constructor
    · intro heq
      exact eq_of_encode_prefix h hu (heq ▸ List.prefix_rfl)
    · exact congrArg encode
  · constructor
    · exact eq_of_encode_prefix h hu
    · rintro rfl
      exact List.prefix_rfl

def overdrawn : Token := ⟨"Çà \"et\" là ☃", -1234567890123456789012345678901234567890, ⟨[0x09, 0xfa]⟩⟩

theorem encode_selfDelimiting_overdrawn :
    overdrawn.Storable ∧ decode (overdrawn.encode ++ [0xff, 0x00]) = .ok overdrawn ∧
      (∃ e, decode (overdrawn.encode.take 27) = .error e ∧ e.isEnd) ∧
      ∀ u : Token, u.Storable → (u.encode <+: overdrawn.encode ↔ u = overdrawn) := by
  have hstorable : overdrawn.Storable := ⟨by decide, by decide, by decide⟩
  obtain ⟨hwhole, hcut, hother⟩ := encode_selfDelimiting hstorable
  refine ⟨hstorable, hwhole _, hcut _ (List.take_prefix 27 _) ?_, fun u hu => (hother u hu).2⟩
  intro heq
  have hlength := congrArg List.length heq
  revert hlength
  decide

end TokenRegistry.Token
