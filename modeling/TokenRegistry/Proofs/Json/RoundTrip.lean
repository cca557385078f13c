import TokenRegistry.Coins.Json
import TokenRegistry.Event.Json
import TokenRegistry.Genesis.Json
import TokenRegistry.Proofs.Amount
import TokenRegistry.Proofs.Json.Outline
import TokenRegistry.Proofs.Json.Written
import TokenRegistry.Proofs.Text.Hex

/-!
# Values that read back

A reader inverts a writer if it takes the outline of whatever the writer gives back to
what was written. Readers of lists and records do so if the readers of their parts do;
the members of a record may stand in any order.
-/
namespace TokenRegistry

namespace Json

variable {α β : Type}

def Inverts (read : Reader α) (write : α → Json) : Prop :=
  ∀ s a, read s (write a).outline = .ok a

theorem inverts_readText : Inverts readText .string := fun _ _ => rfl

theorem inverts_readAmount : Inverts readAmount fun n => .string (Amount.text n) := by
  intro s n
  change (Amount.parse (Amount.text n)).mapError _ = _
  rw [Amount.parse_text]
  rfl

theorem inverts_readHex : Inverts readHex fun bs => .string (Text.Hex.text bs) := by
  intro s bs
  change (Text.Hex.ofText (Text.Hex.text bs)).mapError _ = _
  rw [Text.Hex.ofText_text]
  rfl

theorem Inverts.mapRead {read : Reader α} {write : α → Json} (h : Inverts read write) {f : α → β}
    {g : β → α} (hfg : ∀ b, f (g b) = b) : Inverts (mapRead f read) fun b => write (g b) := by
  intro s b
  rw [Json.mapRead, h s (g b)]
  exact congrArg Except.ok (hfg b)

theorem Inverts.readItems {read : Reader α} {write : α → Json} (h : Inverts read write)
    (s : Setting) (as : List α) :
    readItems read s (outlineItems (as.map write)) = .ok as := by
  induction as with
  | nil => rfl
  | cons a as ih =>
    rw [List.map_cons, outlineItems, Json.readItems, h s a, ih]
    rfl

theorem Inverts.readList {read : Reader α} {write : α → Json} (h : Inverts read write) :
    Inverts (readList read) fun as => .array (as.map write) := by
  intro s as
  exact h.readItems s.inner as

namespace Layout

/-- The members are the fields of the layout in order, each with what is read as its value. -/
inductive Lists : {α : Type} → Layout α → α → List (String × Json) → Prop
  | done : Lists .done () []
  | field {β γ : Type} {name : String} {read : Reader β} {absent : Option β} {rest : Layout γ}
      {v : β} {vs : γ} {j : Json} {ms : List (String × Json)}
      (hread : ∀ s, read s j.outline = .ok v) (hname : name ∉ ms.map Prod.fst)
      (hrest : Lists rest vs ms) :
      Lists (.field name read absent rest) (v, vs) ((name, j) :: ms)

section Members

variable {γ : Type} {name : String} {read : Reader β} {absent : Option β} {rest : Layout γ}

theorem readMembers_cons (l : Layout α) (s : Setting) (slots : l.Slots) (key : String) (j : Json)
    (ms : List (String × Json)) :
    l.readMembers s slots (outlineMembers ((key, j) :: ms)) =
      match l.fill s key j.outline slots with
      | some r => r >>= fun slots => l.readMembers s slots (outlineMembers ms)
      | none => l.readMembers s slots (outlineMembers ms) := by
  rw [outlineMembers, readMembers]
  cases hfill : l.fill s key j.outline slots with
  | some r => simp only [liftFlaw, Except.mapError, bind, Except.bind, hfill]
  | none => simp only [liftFlaw, Except.mapError, bind, Except.bind, hfill, skip_outline]

theorem readMembers_cons_of_ne (s : Setting) (slots : (Layout.field name read absent rest).Slots)
    {key : String} (hkey : key ≠ name) (j : Json) (ms : List (String × Json)) :
    (Layout.field name read absent rest).readMembers s slots (outlineMembers ((key, j) :: ms)) =
      match rest.fill s key j.outline slots.2 with
      | some r => r >>= fun filled =>
        (Layout.field name read absent rest).readMembers s (slots.1, filled) (outlineMembers ms)
      | none => (Layout.field name read absent rest).readMembers s slots (outlineMembers ms) := by
  rw [readMembers_cons, fill, if_neg hkey]
  cases rest.fill s key j.outline slots.2 with
  | none => rfl
  | some filled =>
    cases filled with
    | ok slots' => rfl
    | error e => rfl

theorem readMembers_of_slot (s : Setting) {slots : (Layout.field name read absent rest).Slots}
    {v : β} (hslot : slots.1 = some v) {ms : List (String × Json)}
    (hname : name ∉ ms.map Prod.fst) :
    (Layout.field name read absent rest).readMembers s slots (outlineMembers ms) =
      (rest.readMembers s slots.2 (outlineMembers ms)).map (v, ·) := by
  induction ms generalizing slots with
  | nil =>
    rw [outlineMembers, readMembers, readMembers, finish, hslot]
    cases rest.finish slots.2 with
    | ok vs => rfl
    | error e => rfl
  | cons m ms ih =>
    obtain ⟨key, j⟩ := m
    rw [List.map_cons, List.mem_cons, not_or] at hname
    rw [readMembers_cons_of_ne s slots (Ne.symm hname.1), readMembers_cons]
    cases rest.fill s key j.outline slots.2 with
    | none => exact ih hslot hname.2
    | some filled =>
      cases filled with
      | ok slots' =>
        exact @ih (slots.1, slots') hslot hname.2
      | error e => rfl

theorem readMembers_of_member (s : Setting) {slots : (Layout.field name read absent rest).Slots}
    (hslot : slots.1 = none) {v : β} {j : Json} (hread : read s j.outline = .ok v)
    {ms ms' : List (String × Json)} (hms : name ∉ ms.map Prod.fst)
    (hms' : name ∉ ms'.map Prod.fst) :
    (Layout.field name read absent rest).readMembers s slots
        (outlineMembers (ms ++ (name, j) :: ms')) =
      (rest.readMembers s slots.2 (outlineMembers (ms ++ ms'))).map (v, ·) := by
  induction ms generalizing slots with
  | nil =>
    rw [List.nil_append, List.nil_append, readMembers_cons, fill, if_pos rfl, hread, hslot]
    exact @readMembers_of_slot _ _ name read absent rest s (some v, slots.2) v rfl ms' hms'
  | cons m ms ih =>
    obtain ⟨key, j'⟩ := m
    rw [List.map_cons, List.mem_cons, not_or] at hms
    rw [List.cons_append, List.cons_append, readMembers_cons_of_ne s slots (Ne.symm hms.1),
      readMembers_cons]
    cases rest.fill s key j'.outline slots.2 with
    | none => exact ih hslot hms.2
    | some filled =>
      cases filled with
      | ok slots' => exact @ih (slots.1, slots') hslot hms.2
      | error e => rfl

end Members

theorem readMembers_of_perm {l : Layout α} {a : α} {ms ms' : List (String × Json)}
    (h : Lists l a ms) (hperm : ms'.Perm ms) (s : Setting) :
    l.readMembers s l.empty (outlineMembers ms') = .ok a := by
  induction h generalizing ms' with
  | done =>
    rw [hperm.eq_nil]
    rfl
  | @field β γ name read absent rest v vs j ms hread hname hrest ih =>
    -- The first field has its member somewhere; what is around it lists the other fields.
    obtain ⟨before, after, rfl⟩ := List.append_of_mem (hperm.mem_iff.mpr List.mem_cons_self)
    have hothers : (before ++ after).Perm ms :=
      (List.perm_middle.symm.trans hperm).cons_inv
    have hkeys := (hothers.map Prod.fst).mem_iff.not.mpr hname
    rw [List.map_append, List.mem_append, not_or] at hkeys
    have hmember := @readMembers_of_member β γ name read absent rest s (none, rest.empty) rfl v j
      (hread s) before after hkeys.1 hkeys.2
    exact hmember.trans (congrArg (Except.map (v, ·)) (ih hothers))

theorem read_of_perm {l : Layout α} {a : α} {ms ms' : List (String × Json)} (h : Lists l a ms)
    (hperm : ms'.Perm ms) (name : String) (s : Setting) :
    l.read name s (Json.object ms').outline = .ok a :=
  readMembers_of_perm h hperm s.inner

theorem read_of_lists {l : Layout α} {a : α} {ms : List (String × Json)} (h : Lists l a ms)
    (name : String) (s : Setting) : l.read name s (Json.object ms).outline = .ok a :=
  read_of_perm h (.refl ms) name s

end Layout

/-- The text has the value on it and nothing else, in whatever style it is written. -/
def IsTextOf (text : String) (v : Json) : Prop := Page.ofText text = ⟨v.outline, false⟩

theorem isTextOf_text (v : Json) : IsTextOf v.text v := ofText_text v

theorem isTextOf_indented (v : Json) : IsTextOf (String.ofList v.indented) v := by
  rw [IsTextOf, Page.ofText, String.toList_ofList, ofChars_indented]

theorem readPage_of_ofText {text : String} {o : Outline} (h : Page.ofText text = ⟨o, false⟩)
    (read : Reader α) : readPage read text = read ⟨.text, 0⟩ o := by
  rw [readPage, h, Page.read]
  cases read ⟨.text, 0⟩ o with
  | ok a => rfl
  | error e => rfl

theorem readPage_of_isTextOf {text : String} {v : Json} (h : IsTextOf text v) (read : Reader α) :
    readPage read text = read ⟨.text, 0⟩ v.outline :=
  readPage_of_ofText h read

def ReadsBack (read : Reader α) (write : α → Json) : Prop :=
  ∀ a, readPage read (write a).text = .ok a

theorem Inverts.readsBack {read : Reader α} {write : α → Json} (h : Inverts read write) :
    ReadsBack read write := by
  intro a
  rw [readPage_of_isTextOf (isTextOf_text _), h]

theorem Inverts.readPage_indented {read : Reader α} {write : α → Json} (h : Inverts read write)
    (a : α) : readPage read (String.ofList (write a).indented) = .ok a := by
  rw [readPage_of_isTextOf (isTextOf_indented _), h]

end Json

open Json

theorem Address.inverts_read : Inverts Address.read Address.toJson :=
  inverts_readHex.mapRead fun _ => rfl

theorem Token.inverts_read : Inverts Token.read Token.toJson := by
  intro s t
  have hlists : Layout.Lists Token.layout (t.name, t.amount, t.owner, ())
      [("name", .string t.name), ("amount", .string (Amount.text t.amount)),
        ("owner", t.owner.toJson)] := by
    refine .field (fun s => inverts_readText s t.name) (by simp) ?_
    refine .field (fun s => inverts_readAmount s t.amount) (by simp) ?_
    exact .field (fun s => Address.inverts_read s t.owner) (by simp) .done
  rw [Token.read, mapRead, Token.toJson, Layout.read_of_lists hlists]
  rfl

theorem Genesis.inverts_read : Inverts Genesis.read Genesis.toJson := by
  intro s g
  have hlists : Layout.Lists Genesis.layout (g.tokens, ())
      [("tokens", .array (g.tokens.map Token.toJson))] :=
    .field (fun s => Token.inverts_read.readList s g.tokens) List.not_mem_nil .done
  rw [Genesis.read, mapRead, Genesis.toJson, Layout.read_of_lists hlists]
  rfl

theorem Genesis.readPage_toJson (g : Genesis) :
    readPage Genesis.read g.toJson.text = .ok g ∧
      readPage Genesis.read (String.ofList g.toJson.indented) = .ok g :=
  ⟨Genesis.inverts_read.readsBack g, Genesis.inverts_read.readPage_indented g⟩

theorem Coin.inverts_read : Inverts Coin.read Coin.toJson := by
  intro s c
  have hlists : Layout.Lists Coin.layout (c.denom, c.amount, ())
      [("denom", .string c.denom), ("amount", .string (Amount.text c.amount))] := by
    refine .field (fun s => inverts_readText s c.denom) (by simp) ?_
    exact .field (fun s => inverts_readAmount s c.amount) (by simp) .done
  rw [Coin.read, mapRead, Coin.toJson, Layout.read_of_lists hlists]
  rfl

theorem Coins.inverts_read : Inverts Coins.read Coins.toJson :=
  Coin.inverts_read.readList.mapRead fun _ => rfl

theorem Attribute.inverts_read : Inverts Attribute.read Attribute.toJson := by
  intro s a
  have hlists : Layout.Lists Attribute.layout (a.key, a.value, ())
      [("key", .string a.key), ("value", .string a.value)] := by
    refine .field (fun s => inverts_readText s a.key) (by simp) ?_
    exact .field (fun s => inverts_readText s a.value) (by simp) .done
  rw [Attribute.read, mapRead, Attribute.toJson, Layout.read_of_lists hlists]
  rfl

theorem Event.inverts_read : Inverts Event.read Event.toJson := by
  intro s e
  have hlists : Layout.Lists Event.layout (e.kind, e.attributes, ())
      [("type", .string e.kind), ("attributes", .array (e.attributes.map Attribute.toJson))] := by
    refine .field (fun s => inverts_readText s e.kind) (by simp) ?_
    exact .field (fun s => Attribute.inverts_read.readList s e.attributes) (by simp) .done
  rw [Event.read, mapRead, Event.toJson, Layout.read_of_lists hlists]
  rfl

theorem Receipt.inverts_read : Inverts Receipt.read Receipt.toJson := by
  intro s r
  have hlists : Layout.Lists Receipt.layout (r.events, ())
      [("events", .array (r.events.map Event.toJson))] :=
    .field (fun s => Event.inverts_read.readList s r.events) List.not_mem_nil .done
  rw [Receipt.read, mapRead, Receipt.toJson, Layout.read_of_lists hlists]
  rfl

end TokenRegistry
