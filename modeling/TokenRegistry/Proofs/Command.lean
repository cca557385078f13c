import TokenRegistry.Registry.Command
import Mathlib.Tactic.Common

/-!
# What commands say and ask for

The complaints about a command, in the order in which they count: its addresses
come before its name, and the name before the amount. A command without complaints
names its parties, has a slug and is about an amount that makes sense. What such a
command asks for is a token in the place of another and units to be issued.
-/
namespace TokenRegistry.Command

def parties : Command → List (String × Address)
  | .create c => [("creator", c.creator)]
  | .transfer c => [("previous_owner", c.previousOwner), ("new_owner", c.newOwner)]
  | .mint c => [("owner", c.owner)]
  | .burn c => [("owner", c.owner)]

def addressComplaints (parties : List (String × Address)) : List Complaint :=
  (parties.filter fun p => p.2.isEmpty).map fun p => .emptyAddress p.1

def nameComplaints [Slug.Spelling] (name : String) : List Complaint :=
  if name = "" then [.emptyName]
  else if Slug.ofName name = "" then [.unusableName name]
  else []

def amountComplaints : Command → List Complaint
  | .create c => if c.supply < 0 then [.negativeSupply] else []
  | .transfer _ => []
  | .mint c => if c.amount ≤ 0 then [.amountNotPositive] else []
  | .burn c => if c.amount ≤ 0 then [.amountNotPositive] else []

def complaints [Slug.Spelling] (c : Command) : List Complaint :=
  addressComplaints c.parties ++ nameComplaints c.name ++ c.amountComplaints

def report : List Complaint → Except Complaint Unit
  | [] => .ok ()
  | e :: _ => .error e

theorem report_append (es es' : List Complaint) :
    report (es ++ es') = (report es >>= fun _ => report es') := by
  cases es with
  | nil => rfl
  | cons e es => rfl

theorem report_addressComplaints (role : String) (a : Address)
    (rest : List (String × Address)) :
    report (addressComplaints ((role, a) :: rest)) =
      (requireAddress role a >>= fun _ => report (addressComplaints rest)) := by
  rw [addressComplaints, requireAddress]
  cases h : a.isEmpty with
  | true =>
    simp only [List.filter_cons, h]
    rfl
  | false =>
    simp only [List.filter_cons, h]
    rfl

theorem report_nameComplaints [Slug.Spelling] (name : String) :
    report (nameComplaints name) = requireName name := by
  rw [nameComplaints, requireName]
  split
  · rfl
  · split
    · rfl
    · rfl

theorem report_ite (p : Prop) [Decidable p] (e : Complaint) :
    report (if p then [e] else []) = if p then .error e else .ok () := by
  split
  · rfl
  · rfl

theorem report_nil_after (check : Except Complaint Unit) :
    (check >>= fun _ => report []) = check := by
  cases check with
  | ok _ => rfl
  | error e => rfl

theorem validate_eq_report [Slug.Spelling] (c : Command) : c.validate = report c.complaints := by
  rw [complaints, report_append, report_append, report_nameComplaints]
  cases c with
  | create c =>
    simp only [parties, report_addressComplaints, bind_assoc, amountComplaints, report_ite]
    rfl
  | transfer c =>
    simp only [parties, report_addressComplaints, bind_assoc, amountComplaints, report_nil_after]
    rfl
  | mint c =>
    simp only [parties, report_addressComplaints, bind_assoc, amountComplaints, report_ite]
    rfl
  | burn c =>
    simp only [parties, report_addressComplaints, bind_assoc, amountComplaints, report_ite]
    rfl

structure WellFormed [Slug.Spelling] (c : Command) : Prop where
  parties : ∀ p ∈ c.parties, p.2.isEmpty = false
  name : c.name ≠ ""
  slug : c.slug ≠ ""
  amount : c.amountComplaints = []

theorem complaints_of_validate [Slug.Spelling] {c : Command} (h : c.validate = .ok ()) :
    c.complaints = [] := by
  rw [validate_eq_report] at h
  cases hc : c.complaints with
  | nil => rfl
  | cons e es =>
    rw [hc] at h
    cases h

theorem wellFormed_of_complaints [Slug.Spelling] {c : Command} (h : c.complaints = []) :
    c.WellFormed := by
  obtain ⟨hfront, hamount⟩ := List.append_eq_nil_iff.mp h
  obtain ⟨hparties, hname⟩ := List.append_eq_nil_iff.mp hfront
  rw [nameComplaints] at hname
  split at hname
  · cases hname
  · rename_i hne
    split at hname
    · cases hname
    · rename_i hslug
      refine ⟨?_, hne, hslug, hamount⟩
      intro p hp
      have hnone := List.filter_eq_nil_iff.mp (List.map_eq_nil_iff.mp hparties) p hp
      exact Bool.eq_false_iff.mpr hnone

theorem WellFormed.sender [Slug.Spelling] {c : Command} (h : c.WellFormed) :
    c.sender.isEmpty = false := by
  cases c with
  | create c => exact h.parties ("creator", c.creator) List.mem_cons_self
  | transfer c => exact h.parties ("previous_owner", c.previousOwner) List.mem_cons_self
  | mint c => exact h.parties ("owner", c.owner) List.mem_cons_self
  | burn c => exact h.parties ("owner", c.owner) List.mem_cons_self

theorem WellFormed.supply_nonneg [Slug.Spelling] {c : Creation} (h : (create c).WellFormed) :
    0 ≤ c.supply := by
  have hamount := h.amount
  simp only [amountComplaints, ite_eq_right_iff, List.cons_ne_nil, imp_false] at hamount
  exact Int.not_lt.mp hamount

theorem WellFormed.minted_pos [Slug.Spelling] {c : Minting} (h : (mint c).WellFormed) :
    0 < c.amount := by
  have hamount := h.amount
  simp only [amountComplaints, ite_eq_right_iff, List.cons_ne_nil, imp_false] at hamount
  exact Int.not_le.mp hamount

theorem WellFormed.burned_pos [Slug.Spelling] {c : Burning} (h : (burn c).WellFormed) :
    0 < c.amount := by
  have hamount := h.amount
  simp only [amountComplaints, ite_eq_right_iff, List.cons_ne_nil, imp_false] at hamount
  exact Int.not_le.mp hamount

/-- The units that a command issues, less those that it destroys. -/
def issue : Command → Int
  | .create c => c.supply
  | .transfer _ => 0
  | .mint c => c.amount
  | .burn c => -c.amount

/-- The token that a command leaves in the place of another, which all but creations need. -/
def settle : Command → Option Token → Option Token
  | .create c, _ => some ⟨c.name, c.supply, c.creator⟩
  | .transfer c, old => old.map fun t => { t with owner := c.newOwner }
  | .mint c, old => old.map fun t => { t with amount := t.amount + c.amount }
  | .burn c, old => old.map fun t => { t with amount := t.amount - c.amount }

def amount? : Command → Option Int
  | .create c => some c.supply
  | .transfer _ => none
  | .mint c => some c.amount
  | .burn c => some c.amount

def receipt (config : Config) (c : Command) : Receipt :=
  ⟨[Registry.eventOf config c.kind c.sender c.amount?]⟩

end TokenRegistry.Command
