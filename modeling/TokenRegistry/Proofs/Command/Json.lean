import TokenRegistry.Command.Json
import TokenRegistry.Proofs.Json.Sorted
import TokenRegistry.Proofs.Json.Variant

/-!
# Commands read back

A command is read back from its JSON, with the keys in the order of its fields or in
ascending order. Its tag may as well stand after its fields or before them in an array.
-/
namespace TokenRegistry

open Json

namespace Creation

theorem lists (c : Creation) : Layout.Lists layout (c.name, c.supply, c.creator, ())
    [("name", .string c.name), ("supply", .string (Amount.text c.supply)),
      ("creator", c.creator.toJson)] := by
  refine .field (fun s => inverts_readText s c.name) (by simp) ?_
  refine .field (fun s => inverts_readAmount s c.supply) (by simp) ?_
  exact .field (fun s => Address.inverts_read s c.creator) (by simp) .done

theorem inverts_read : Inverts read toJson := by
  intro s c
  rw [read, mapRead, toJson, Layout.read_of_lists c.lists]
  rfl

theorem read_sortKeys (s : Setting) (c : Creation) : read s c.toJson.sortKeys.outline = .ok c := by
  rw [read, mapRead, toJson,
    Layout.read_sortKeys_of_lists c.lists (by simp [sortKeys, Address.toJson])]
  rfl

end Creation

namespace Transfer

theorem lists (c : Transfer) : Layout.Lists layout (c.name, c.previousOwner, c.newOwner, ())
    [("name", .string c.name), ("previous_owner", c.previousOwner.toJson),
      ("new_owner", c.newOwner.toJson)] := by
  refine .field (fun s => inverts_readText s c.name) (by simp) ?_
  refine .field (fun s => Address.inverts_read s c.previousOwner) (by simp) ?_
  exact .field (fun s => Address.inverts_read s c.newOwner) (by simp) .done

theorem inverts_read : Inverts read toJson := by
  intro s c
  rw [read, mapRead, toJson, Layout.read_of_lists c.lists]
  rfl

theorem read_sortKeys (s : Setting) (c : Transfer) : read s c.toJson.sortKeys.outline = .ok c := by
  rw [read, mapRead, toJson,
    Layout.read_sortKeys_of_lists c.lists (by simp [sortKeys, Address.toJson])]
  rfl

end Transfer

section Supply

variable (owner : Address) (name : String) (amount : Int) (title : String) (s : Setting)

theorem lists_supply : Layout.Lists supplyLayout (owner, name, amount, ())
    [("owner", owner.toJson), ("name", .string name), ("amount", .string (Amount.text amount))] := by
  refine .field (fun s => Address.inverts_read s owner) (by simp) ?_
  refine .field (fun s => inverts_readText s name) (by simp) ?_
  exact .field (fun s => inverts_readAmount s amount) (by simp) .done

theorem read_supplyJson :
    supplyLayout.read title s (supplyJson owner name amount).outline =
      .ok (owner, name, amount, ()) :=
  Layout.read_of_lists (lists_supply owner name amount) title s

theorem read_supplyJson_sortKeys :
    supplyLayout.read title s (supplyJson owner name amount).sortKeys.outline =
      .ok (owner, name, amount, ()) :=
  Layout.read_sortKeys_of_lists (lists_supply owner name amount)
    (by simp [sortKeys, Address.toJson]) title s

end Supply

theorem Minting.inverts_read : Inverts Minting.read Minting.toJson := by
  intro s c
  rw [Minting.read, mapRead, Minting.toJson, read_supplyJson]
  rfl

theorem Minting.read_sortKeys (s : Setting) (c : Minting) :
    Minting.read s c.toJson.sortKeys.outline = .ok c := by
  rw [Minting.read, mapRead, Minting.toJson, read_supplyJson_sortKeys]
  rfl

theorem Burning.inverts_read : Inverts Burning.read Burning.toJson := by
  intro s c
  rw [Burning.read, mapRead, Burning.toJson, read_supplyJson]
  rfl

theorem Burning.read_sortKeys (s : Setting) (c : Burning) :
    Burning.read s c.toJson.sortKeys.outline = .ok c := by
  rw [Burning.read, mapRead, Burning.toJson, read_supplyJson_sortKeys]
  rfl

namespace Command

theorem read_content (s : Setting) (c : Command) : c.kind.read s c.content.outline = .ok c := by
  cases c with
  | create c => exact congrArg (Except.map Command.create) (Creation.inverts_read s c)
  | transfer c => exact congrArg (Except.map Command.transfer) (Transfer.inverts_read s c)
  | mint c => exact congrArg (Except.map Command.mint) (Minting.inverts_read s c)
  | burn c => exact congrArg (Except.map Command.burn) (Burning.inverts_read s c)

theorem read_content_sortKeys (s : Setting) (c : Command) :
    c.kind.read s c.content.sortKeys.outline = .ok c := by
  cases c with
  | create c => exact congrArg (Except.map Command.create) (Creation.read_sortKeys s c)
  | transfer c => exact congrArg (Except.map Command.transfer) (Transfer.read_sortKeys s c)
  | mint c => exact congrArg (Except.map Command.mint) (Minting.read_sortKeys s c)
  | burn c => exact congrArg (Except.map Command.burn) (Burning.read_sortKeys s c)

theorem choose_tag (k : Kind) : Variant.choose variants k.tag = .ok ⟨k.tag, k.read⟩ := by
  cases k with
  | create => rfl
  | transfer => rfl
  | mint => rfl
  | burn => rfl

def labels : Variant.Labels := ⟨"type", "value"⟩

theorem labels_ne : labels.content ≠ labels.tag := by decide

theorem read_eq : read = Variant.readBeside "adjacently tagged enum TokenMsg" labels variants := rfl

theorem read_of_content {c : Command} {j : Json} (h : ∀ s, c.kind.read s j.outline = .ok c)
    (s : Setting) :
    read s (Json.object [("type", .string c.kind.tag), ("value", j)]).outline = .ok c := by
  have hnone : labels.Other [] := nofun
  rw [read_eq]
  refine (Variant.readBeside_tagFirst _ variants s c.kind.tag j.outline labels_ne hnone hnone
    hnone).trans ?_
  rw [choose_tag]
  exact h s.inner

theorem inverts_read : Inverts read toJson := fun s c => read_of_content (fun s => read_content s c) s

theorem toJson_sortKeys (c : Command) :
    c.toJson.sortKeys =
      .object [("type", .string c.kind.tag), ("value", c.content.sortKeys)] := by
  have hnot : ¬ "value" < "type" := by decide
  simp only [toJson, sortKeys, sortKeysMembers, insertMember, if_neg hnot]

theorem read_sortKeys (s : Setting) (c : Command) : read s c.toJson.sortKeys.outline = .ok c := by
  rw [toJson_sortKeys]
  exact read_of_content (fun s => read_content_sortKeys s c) s

theorem agrees_read (k : Kind) : Agrees k.read := by
  have haddress : Steady Address.read := steady_readHex.mapRead Address.mk
  have hsupply : supplyLayout.AllSteady := ⟨haddress, steady_readText, steady_readAmount, trivial⟩
  cases k with
  | create =>
    have hlayout : Creation.layout.AllSteady :=
      ⟨steady_readText, steady_readAmount, haddress, trivial⟩
    exact ((Layout.agrees_read hlayout _).mapRead _).mapRead _
  | transfer =>
    have hlayout : Transfer.layout.AllSteady := ⟨steady_readText, haddress, haddress, trivial⟩
    exact ((Layout.agrees_read hlayout _).mapRead _).mapRead _
  | mint => exact ((Layout.agrees_read hsupply _).mapRead _).mapRead _
  | burn => exact ((Layout.agrees_read hsupply _).mapRead _).mapRead _

/-- Of all texts that carry a tag and a content, wherever the tag stands and whatever other members
there are, none is read as a command or all are read as the same. -/
theorem read_of_carries {tag : String} {v : Json} (hdepth : v.depth < Outline.depthLimit)
    (hvalue : ∀ n ∈ v.numerals, n.HasValue) {o o' : Outline}
    (ho : labels.Carries tag v.outline o) (ho' : labels.Carries tag v.outline o')
    {text text' : String} (htext : Page.ofText text = ⟨o, false⟩)
    (htext' : Page.ofText text' = ⟨o', false⟩) :
    (readPage read text).toOption = (readPage read text').toOption := by
  have hvs : ∀ w ∈ variants, Agrees w.content := by
    intro w hw
    obtain ⟨k, -, rfl⟩ := List.mem_map.mp hw
    exact agrees_read k
  have hhold : v.outline.hold (Setting.mk .text 0).inner.depth = .ok v := by
    apply hold_outline v _ _ hvalue
    rw [Nat.add_comm]
    exact hdepth
  rw [readPage_of_ofText htext, readPage_of_ofText htext', read_eq,
    Variant.readBeside_of_carries _ variants _ tag labels_ne hvs hhold ho,
    Variant.readBeside_of_carries _ variants _ tag labels_ne hvs hhold ho']

def noted : Json :=
  .object [("note", .array [.number ⟨false, 1, [⟨5, by decide⟩], some 300⟩, .null]),
    ("owner", .string "0B"), ("amount", .string "+1_0"), ("name", .string "Ça \"va\""),
    ("note", .number ⟨true, 18446744073709551616, [], none⟩)]

theorem read_of_carries_noted :
    noted.depth < Outline.depthLimit ∧ (∀ n ∈ noted.numerals, n.HasValue) ∧
      (readPage read (Json.array [.string Kind.mint.tag, noted]).text).toOption =
        some (.mint ⟨⟨[0x0b]⟩, "Ça \"va\"", 10⟩) ∧
      (readPage read (Json.array [.string Kind.mint.tag, noted]).text).toOption =
        (readPage read (String.ofList (Json.object [("id", .array []), ("value", noted),
          ("kind", .object [("type", .null)]),
          ("type", .string Kind.mint.tag)]).indented)).toOption := by
  have hdepth : noted.depth < Outline.depthLimit := by decide
  have hvalue : ∀ n ∈ noted.numerals, n.HasValue := by decide +kernel
  have hid : labels.Other [(.ok "id", .array [])] := by
    simp [Variant.Labels.Other, labels, Outline.Whole, Outline.WholeItems]
  have hkind : labels.Other [(.ok "kind", .object [(.ok "type", .null)])] := by
    simp [Variant.Labels.Other, labels, Outline.Whole, Outline.WholeMembers]
  have hnone : labels.Other [] := nofun
  refine ⟨hdepth, hvalue, ?_, read_of_carries hdepth hvalue .listed
    (.contentFirst hid hkind hnone) (isTextOf_text _) (isTextOf_indented _)⟩
  rw [readPage_of_isTextOf (isTextOf_text _)]
  decide +kernel

def tagMember : String := "\"type\": \"surprise/CreateBrandedToken\""

def objectOf (members : List String) : String := "\x7b" ++ ", ".intercalate members ++ "\x7d"

def valueMember (others : List String) : String :=
  "\"value\": " ++
    objectOf (["\"name\": \"a\"", "\"supply\": \"1\"", "\"creator\": \"00\""] ++ others)

-- What stands under other keys need not even have a text or a value.
example :
    (readPage read (objectOf ["\"id\": [\"\\udabc\", 1e999]", valueMember [],
      tagMember])).toOption = some (.create ⟨"a", 1, ⟨[0]⟩⟩) := by decide +kernel

def nearLimit : Json :=
  .object [("name", .string "a"), ("supply", .string "1"), ("creator", .string "00"),
    ("note", .number ⟨false, 1797693134862315708, [], some 290⟩)]

def unpaired : String := "\"note\": \"\\ud800\""

def unpairedKey : String := "\"\\ud800\": null"

/-- That its numbers are in the range of doubles is not enough of the content: the one near the limit
is rounded up on the way and then refused when it has to be held, and only then. Nor are texts alike
with a literal that escapes one surrogate alone: in the content it is refused when it has to be held,
and only then, and as a key beside tag and content it is refused. -/
theorem refused_when_held :
    (¬ ∀ (tag : String) (v : Json), v.depth ≤ 100 → (∀ n ∈ v.numerals, n.InDoubleRange) →
      ∀ j j' : Json, labels.Carries tag v.outline j.outline →
        labels.Carries tag v.outline j'.outline →
          (readPage read j.text).toOption = (readPage read j'.text).toOption) ∧
      (readPage read (objectOf [tagMember, valueMember [unpaired]])).toOption =
        some (.create ⟨"a", 1, ⟨[0]⟩⟩) ∧
      (readPage read (objectOf [valueMember [unpaired], tagMember])).toOption = none ∧
      (readPage read (objectOf [tagMember, valueMember [], unpairedKey])).toOption = none := by
  refine ⟨?_, by decide +kernel, by decide +kernel, by decide +kernel⟩
  intro h
  have hnone : labels.Other [] := nofun
  have hrange : ∀ n ∈ nearLimit.numerals, n.InDoubleRange := by decide +kernel
  have hsame := h Kind.create.tag nearLimit (by decide) hrange
    (.object [("type", .string Kind.create.tag), ("value", nearLimit)])
    (.object [("value", nearLimit), ("type", .string Kind.create.tag)])
    (.tagFirst hnone hnone hnone) (.contentFirst hnone hnone hnone)
  rw [readPage_of_isTextOf (isTextOf_text _), readPage_of_isTextOf (isTextOf_text _)] at hsame
  revert hsame
  decide +kernel

end Command

end TokenRegistry
