import TokenRegistry.Proofs.Command.Json

/-!
# What is signed

The bytes to sign of a command are a JSON text whose keys are in ascending order on
each level. The command is read back from that text, so no two commands are signed
alike, and a command without its tag is signed as with it.
-/
namespace TokenRegistry.Command

open Json

theorem keysDistinct_toJson (c : Command) : c.toJson.KeysDistinct := by
  cases c <;>
    simp [toJson, content, Creation.toJson, Transfer.toJson, Minting.toJson, Burning.toJson,
      supplyJson, Address.toJson, KeysDistinct, KeysDistinctMembers]

section Signing

variable [Slug.Spelling]

/-- What is signed for a command that is not yet told by a tag. -/
def untaggedBytes : Command → Bytes
  | .create c => Message.signBytes c
  | .transfer c => Message.signBytes c
  | .mint c => Message.signBytes c
  | .burn c => Message.signBytes c

theorem untaggedBytes_eq (c : Command) : c.untaggedBytes = Message.signBytes c := by
  cases c with
  | create c => rfl
  | transfer c => rfl
  | mint c => rfl
  | burn c => rfl

theorem readPage_signText (c : Command) : readPage read (Message.signText c) = .ok c := by
  have htext : IsTextOf (Message.signText c) c.toJson.sortKeys := isTextOf_text _
  rw [readPage_of_isTextOf htext, read_sortKeys]

theorem signBytes_inj {c c' : Command} (h : Message.signBytes c = Message.signBytes c') : c = c' := by
  have hread := readPage_signText c
  rw [Text.Utf8.ofString_injective h, readPage_signText c'] at hread
  exact (Except.ok.inj hread).symm

/-- What is signed is one text for each command, in which every object has its keys in order. -/
theorem signBytes_identify (c c' : Command) :
    (∃ v : Json, v.KeysAscending ∧ Text.Utf8.toString? (Message.signBytes c) = .ok v.text ∧
      IsTextOf v.text v ∧ readPage read v.text = .ok c) ∧
      (Message.signBytes c = Message.signBytes c' ↔ c = c') ∧
      c.untaggedBytes = Message.signBytes c := by
  refine ⟨⟨c.toJson.sortKeys, ?_, ?_, isTextOf_text _, readPage_signText c⟩, ?_, untaggedBytes_eq c⟩
  · exact keysAscending_sortKeys _ c.keysDistinct_toJson
  · exact Text.Utf8.toString?_ofString _
  · constructor
    · exact signBytes_inj
    · rintro rfl
      rfl

end Signing

end TokenRegistry.Command
