import TokenRegistry.Json.Variant
import TokenRegistry.Proofs.Json.RoundTrip
import TokenRegistry.Proofs.Json.Source

/-!
# Where the tag of a variant stands

A tag beside its content may come before it or after it, or first in an array of the
two, and other members may stand anywhere around them. Each time the content is read
by the variant that the tag chooses; the only difference is that content before its
tag is held first, and so has to be one that can be held.
-/
namespace TokenRegistry.Json

namespace Variant

variable {α : Type}

/-- Members of other names than tag and content. The names need to have a text, while anything may stand
under them as long as the text does not stop being JSON there. -/
def Labels.Other (l : Labels) (ms : Members) : Prop :=
  ∀ m ∈ ms, (∃ key, m.1 = .ok key ∧ key ≠ l.tag ∧ key ≠ l.content) ∧ m.2.Whole

/-- An object or array that tells tag and content, with other members around them in an object. -/
inductive Labels.Carries (l : Labels) (tag : String) (content : Outline) : Outline → Prop
  | tagFirst {before between after : Members} (hbefore : l.Other before)
      (hbetween : l.Other between) (hafter : l.Other after) :
      Carries l tag content (.object
        (before ++ (.ok l.tag, .string (.ok tag)) ::
          (between ++ (.ok l.content, content) :: after)))
  | contentFirst {before between after : Members} (hbefore : l.Other before)
      (hbetween : l.Other between) (hafter : l.Other after) :
      Carries l tag content (.object
        (before ++ (.ok l.content, content) ::
          (between ++ (.ok l.tag, .string (.ok tag)) :: after)))
  | listed : Carries l tag content (.array [.string (.ok tag), content])

variable {l : Labels}

theorem role?_tag : l.role? l.tag = some .tag := if_pos rfl

theorem role?_content (h : l.content ≠ l.tag) : l.role? l.content = some .content := by
  rw [Labels.role?, if_neg h, if_pos rfl]

theorem next_other {ms : Members} (h : l.Other ms) (ms' : Members) :
    next l (ms ++ ms') = next l ms' := by
  induction ms with
  | nil => rfl
  | cons m ms ih =>
    obtain ⟨key, o⟩ := m
    obtain ⟨⟨k, rfl, htag, hcontent⟩, hwhole⟩ := h (key, o) List.mem_cons_self
    have hrole : l.role? k = none := by
      rw [Labels.role?, if_neg htag, if_neg hcontent]
    rw [List.cons_append, next]
    simp only [liftFlaw, Except.mapError, bind, Except.bind, hrole, Outline.skip_of_whole o hwhole]
    exact ih fun m hm => h m (List.mem_cons_of_mem _ hm)

theorem next_role {key : String} {role : Role} (h : l.role? key = some role) (o : Outline)
    (ms : Members) : next l ((.ok key, o) :: ms) = .ok (some (role, o, ms)) := by
  rw [next]
  simp only [liftFlaw, Except.mapError, bind, Except.bind, h, pure, Except.pure]

theorem next_of_other {before : Members} (hbefore : l.Other before) {key : String} {role : Role}
    (h : l.role? key = some role) (o : Outline) (ms : Members) :
    next l (before ++ (.ok key, o) :: ms) = .ok (some (role, o, ms)) := by
  rw [next_other hbefore, next_role h]

theorem expectNoMore_other {ms : Members} (h : l.Other ms) : expectNoMore l ms = .ok () := by
  have hnext := next_other h []
  rw [List.append_nil] at hnext
  rw [expectNoMore, hnext]
  rfl

theorem mem_of_choose {vs : List (Variant α)} {tag : String} {w : Variant α}
    (h : choose vs tag = .ok w) : w ∈ vs := by
  rw [choose] at h
  split at h
  · rename_i hfind
    rw [← Except.ok.inj h]
    exact List.mem_of_find?_eq_some hfind
  · cases h

theorem readTag_string (vs : List (Variant α)) (s : Setting) (tag : String) :
    readTag vs s (.string (.ok tag)) = choose vs tag := by
  simp [readTag, liftFlaw, Except.mapError, bind, Except.bind]

theorem readName_string (vs : List (Variant α)) (s : Setting) (tag : String) :
    readName vs s (.string (.ok tag)) = choose vs tag := rfl

section Beside

variable (name : String) (vs : List (Variant α)) (s : Setting) (tag : String) (content : Outline)
  {before between after : Members}

theorem readBeside_tagFirst (hl : l.content ≠ l.tag) (hbefore : l.Other before)
    (hbetween : l.Other between) (hafter : l.Other after) :
    readBeside name l vs s (.object
        (before ++ (.ok l.tag, .string (.ok tag)) ::
          (between ++ (.ok l.content, content) :: after))) =
      choose vs tag >>= fun w => w.content s.inner content := by
  have htag := next_of_other hbefore role?_tag (.string (.ok tag))
    (between ++ (.ok l.content, content) :: after)
  have hcontent := next_of_other hbetween (role?_content hl) content after
  rw [readBeside, htag]
  simp only [bind, Except.bind, readTag_string]
  cases choose vs tag with
  | error e => rfl
  | ok w =>
    simp only [readAfterTag, hcontent, bind, Except.bind, expectNoMore_other hafter]
    cases w.content s.inner content with
    | error e => rfl
    | ok a => rfl

theorem readBeside_contentFirst (hl : l.content ≠ l.tag) (hbefore : l.Other before)
    (hbetween : l.Other between) (hafter : l.Other after) {v : Json}
    (hhold : content.hold s.inner.depth = .ok v) :
    readBeside name l vs s (.object
        (before ++ (.ok l.content, content) ::
          (between ++ (.ok l.tag, .string (.ok tag)) :: after))) =
      choose vs tag >>= fun w => w.content ⟨.held, 0⟩ v.outline := by
  have hcontent := next_of_other hbefore (role?_content hl) content
    (between ++ (.ok l.tag, .string (.ok tag)) :: after)
  have htag := next_of_other hbetween role?_tag (.string (.ok tag)) after
  rw [readBeside, hcontent]
  simp only [bind, Except.bind, hhold, liftFlaw, Except.mapError, readAfterContent, htag,
    readTag_string]
  cases choose vs tag with
  | error e => rfl
  | ok w =>
    simp only [expectNoMore_other hafter]
    cases w.content ⟨.held, 0⟩ v.outline with
    | error e => rfl
    | ok a => rfl

theorem readBeside_listed :
    readBeside name l vs s (.array [.string (.ok tag), content]) =
      choose vs tag >>= fun w => w.content s.inner content := by
  change (readName vs s.inner (.string (.ok tag)) >>= fun w =>
    w.content s.inner content >>= fun a => expectEnd s.inner 2 [] >>= fun _ => pure a) = _
  rw [readName_string]
  cases choose vs tag with
  | error e => rfl
  | ok w =>
    exact bind_pure (w.content s.inner content)

theorem readBeside_of_carries (hl : l.content ≠ l.tag) (hvs : ∀ w ∈ vs, Agrees w.content)
    {v : Json} (hhold : v.outline.hold s.inner.depth = .ok v) {o : Outline}
    (ho : l.Carries tag v.outline o) :
    (readBeside name l vs s o).toOption =
      (choose vs tag >>= fun w => w.content s.inner v.outline).toOption := by
  cases ho with
  | tagFirst hbefore hbetween hafter =>
    rw [readBeside_tagFirst name vs s tag v.outline hl hbefore hbetween hafter]
  | contentFirst hbefore hbetween hafter =>
    rw [readBeside_contentFirst name vs s tag v.outline hl hbefore hbetween hafter hhold]
    cases hchoose : choose vs tag with
    | error e => rfl
    | ok w =>
      -- The same variant reads the held content, though as a value of its own.
      exact hvs w (mem_of_choose hchoose) ⟨.held, 0⟩ s.inner v.outline
  | listed => rw [readBeside_listed]

end Beside

end Variant

end TokenRegistry.Json
