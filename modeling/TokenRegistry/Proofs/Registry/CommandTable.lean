import TokenRegistry.Proofs.Registry.Soundness
import TokenRegistry.Proofs.Slug
import TokenRegistry.Proofs.Store.Working

/-!
# The table of commands

What commands do can be told without records and books: there are tokens by slug and
balances by account and denomination, and each command is answered from these and
changes these. Every registry on a working store that commands have built up from
nothing follows the table.
-/
namespace TokenRegistry

/-- The tokens that there are and the units that accounts have. -/
structure Holdings where
  token : String → Option Token
  balance : Address → String → Int

namespace Holdings

def register (h : Holdings) (slug : String) (t : Token) : Holdings :=
  { h with token := fun s => if s = slug then some t else h.token s }

def pay (h : Holdings) (a : Address) (denom : String) (amount : Int) : Holdings :=
  { h with balance := fun x d =>
      if x = a ∧ d = denom then h.balance x d + amount else h.balance x d }

def owned (h : Holdings) (label slug : String) (sender : Address) : Except RegistryError Token :=
  match h.token slug with
  | none => .error (.notFound slug)
  | some t =>
    if t.owner = sender then .ok t else .error (.notOwner slug (sender.labelled label))

def shortage (h : Holdings) (a : Address) (denom : String) (amount : Int) : RegistryError :=
  .ledger (.insufficientFunds a.text denom (Amount.text (h.balance a denom)) (Amount.text amount))

theorem pay_zero (h : Holdings) (a : Address) (denom : String) : h.pay a denom 0 = h := by
  refine congrArg (Holdings.mk h.token) (funext fun x => funext fun d => ?_)
  rw [Int.add_zero, ite_self]

variable [Slug.Spelling]

def create (h : Holdings) (c : Creation) : Except RegistryError Holdings :=
  match h.token (Slug.ofName c.name) with
  | some _ => .error (.alreadyExists (Slug.ofName c.name))
  | none =>
    .ok ((h.register (Slug.ofName c.name) ⟨c.name, c.supply, c.creator⟩).pay c.creator c.name
      c.supply)

def transfer (h : Holdings) (label : String) (c : Transfer) : Except RegistryError Holdings := do
  let t ← h.owned label (Slug.ofName c.name) c.previousOwner
  return h.register (Slug.ofName c.name) { t with owner := c.newOwner }

def mint (h : Holdings) (label : String) (c : Minting) : Except RegistryError Holdings := do
  let t ← h.owned label (Slug.ofName c.name) c.owner
  return (h.register (Slug.ofName c.name) { t with amount := t.amount + c.amount }).pay c.owner
    t.name c.amount

def burn (h : Holdings) (label : String) (c : Burning) : Except RegistryError Holdings := do
  let t ← h.owned label (Slug.ofName c.name) c.owner
  if h.balance c.owner t.name < c.amount then .error (h.shortage c.owner t.name c.amount)
  else
    return (h.register (Slug.ofName c.name) { t with amount := t.amount - c.amount }).pay c.owner
      t.name (-c.amount)

/-- What a command comes to: the first complaint about it, or else what its row says. -/
def answer (h : Holdings) (label : String) (c : Command) : Except RegistryError Holdings :=
  match c.complaints with
  | complaint :: _ => .error (.validation complaint)
  | [] =>
    match c with
    | .create c => h.create c
    | .transfer c => h.transfer label c
    | .mint c => h.mint label c
    | .burn c => h.burn label c

end Holdings

namespace Registry

section Runs

variable {bound : Nat} {r r' : InMemory}

def holdings (r : InMemory) : Holdings := ⟨r.store.records.token?, r.ledger.balance⟩

theorem holdings_of_kept (h : Kept r r') : holdings r' = holdings r := by
  rw [holdings, holdings, h.records]
  exact congrArg (Holdings.mk _) (funext fun a => funext fun denom => h.balance a denom)

variable [Slug.Spelling]

theorem Sound.token?_eq_none (h : Sound bound r) (hroom : Room bound) {slug : String} :
    r.store.records.token? slug = none ↔ r.store.records.get? (recordKey slug) = none := by
  refine ⟨?_, fun hnone => by rw [Records.token?, hnone]; rfl⟩
  intro hnone
  cases hget : r.store.records.get? (recordKey slug) with
  | none => rfl
  | some bytes =>
    obtain ⟨t, -, rfl, ht⟩ := h.records _ _ hget
    rw [Records.token?_eq_some_iff.mpr ⟨_, hget, h.decode hroom ht⟩] at hnone
    cases hnone

theorem holdings_of_applied {c : Command} {t : Token} (h : Applied c t r r')
    (hdecode : Token.decode t.encode = .ok t) :
    holdings r' = ((holdings r).register c.slug t).pay c.sender t.name c.issue := by
  have htoken : r'.store.records.token? =
      fun s => if s = c.slug then some t else r.store.records.token? s := by
    funext s
    split
    · rename_i hslug
      rw [hslug]
      exact h.token? hdecode
    · rename_i hslug
      rw [Records.token?, Records.token?, h.get?_of_ne fun hkey => hslug (recordKey_injective hkey)]
  have hbalance : r'.ledger.balance = fun x d =>
      if x = c.sender ∧ d = t.name then r.ledger.balance x d + c.issue
      else r.ledger.balance x d := by
    funext x d
    rw [h.books.balance]
    by_cases hx : x = c.sender
    · by_cases hd : d = t.name
      · rw [if_pos hx, if_pos hd, if_pos ⟨hx, hd⟩]
      · rw [if_pos hx, if_neg hd, if_neg fun h => hd h.2, Int.add_zero]
    · rw [if_neg hx, if_neg fun h => hx h.1, Int.add_zero]
  rw [holdings, htoken, hbalance]
  rfl

/-- A command is answered from the table as it is met by the registry: with the first objection to
it, or else with the token that it leaves. -/
inductive Answered (r : InMemory) (c : Command) (objection : Option RegistryError) :
    Except RegistryError Holdings → Prop
  | refused {e : RegistryError} (hobjection : objection = some e) :
      Answered r c objection (.error e)
  | granted {t : Token} (hnone : objection = none)
      (hsettled : c.settle (r.store.records.token? c.slug) = some t) :
      Answered r c objection
        (.ok (((holdings r).register c.slug t).pay c.sender t.name c.issue))

theorem Sound.answered_of_owned (h : Sound bound r) (hroom : Room bound) {c : Command}
    {slug : String} {sender : Address} {rest : Option RegistryError}
    {next : Token → Except RegistryError Holdings}
    (hnext : ∀ t, r.store.records.token? slug = some t → t.name ≠ "" →
      Answered r c rest (next t)) :
    Answered r c
      (([unreadable r.store.records slug, (r.store.records.token? slug).bind
        (foreign r.config.addressLabel sender slug)].findSome? id).or rest)
      ((holdings r).owned r.config.addressLabel slug sender >>= next) := by
  have hread : (holdings r).token slug = r.store.records.token? slug := rfl
  cases htoken : r.store.records.token? slug with
  | none =>
    have hget := (h.token?_eq_none hroom).mp htoken
    simp only [Holdings.owned, hread, htoken]
    refine .refused ?_
    simp [unreadable, hget]
  | some t =>
    obtain ⟨bytes, hget, hdecode⟩ := Records.token?_eq_some_iff.mp htoken
    obtain ⟨-, -, ht⟩ := h.of_token? hroom htoken
    have hname : t.name ≠ "" := by
      intro heq
      apply ht.slug
      rw [Token.slug, heq, Slug.ofName_empty]
    simp only [Holdings.owned, hread, htoken]
    by_cases howner : t.owner = sender
    · have hclear : [unreadable r.store.records slug, (some t).bind
          (foreign r.config.addressLabel sender slug)].findSome? id = none := by
        simp [unreadable, hget, hdecode, foreign, howner]
      rw [hclear, if_pos howner]
      exact hnext t htoken hname
    · rw [if_neg howner]
      refine .refused ?_
      simp [unreadable, hget, hdecode, foreign, howner]

theorem objections_of_complaints {c : Command} (h : c.complaints = []) (r : InMemory) :
    (objections r c).findSome? id = (objections r c).tail.findSome? id := by
  have hinvalid : invalid c = none := by
    rw [invalid, h]
    rfl
  unfold objections
  rw [findSome?_cons_id, hinvalid]
  rfl

theorem Sound.answered_create (h : Sound bound r) (hroom : Room bound) (c : Creation) :
    Answered r (.create c) ((objections r (.create c)).tail.findSome? id)
      ((holdings r).create c) := by
  have hread : (holdings r).token (Slug.ofName c.name) =
      r.store.records.token? (Slug.ofName c.name) := rfl
  cases htoken : r.store.records.token? (Slug.ofName c.name) with
  | none =>
    have hget := (h.token?_eq_none hroom).mp htoken
    simp only [Holdings.create, hread, htoken]
    refine .granted (t := ⟨c.name, c.supply, c.creator⟩) ?_ rfl
    simp [objections, taken, OrderedMap.contains, Command.slug, Command.name, hget]
  | some t =>
    obtain ⟨bytes, hget, -⟩ := Records.token?_eq_some_iff.mp htoken
    simp only [Holdings.create, hread, htoken]
    refine .refused ?_
    simp [objections, taken, OrderedMap.contains, Command.slug, Command.name, hget]

theorem Sound.answered_transfer (h : Sound bound r) (hroom : Room bound) (c : Transfer) :
    Answered r (.transfer c) ((objections r (.transfer c)).tail.findSome? id)
      ((holdings r).transfer r.config.addressLabel c) := by
  rw [objections, List.tail_cons, ← Option.or_none (o := List.findSome? id _)]
  apply h.answered_of_owned hroom
  intro t htoken _
  have hmoved : Answered r (.transfer c) none _ :=
    .granted (t := { t with owner := c.newOwner }) rfl (congrArg (Option.map _) htoken)
  simp only [Command.issue, Holdings.pay_zero] at hmoved
  exact hmoved

theorem Sound.answered_mint (h : Sound bound r) (hroom : Room bound) (c : Minting) :
    Answered r (.mint c) ((objections r (.mint c)).tail.findSome? id)
      ((holdings r).mint r.config.addressLabel c) := by
  rw [objections, List.tail_cons, List.findSome?_append]
  apply h.answered_of_owned hroom
  intro t htoken hname
  refine .granted (t := { t with amount := t.amount + c.amount }) ?_
    (congrArg (Option.map _) htoken)
  rw [htoken]
  simp [unnamed, hname]

theorem Sound.answered_burn (h : Sound bound r) (hroom : Room bound) (c : Burning) :
    Answered r (.burn c) ((objections r (.burn c)).tail.findSome? id)
      ((holdings r).burn r.config.addressLabel c) := by
  rw [objections, List.tail_cons, List.findSome?_append]
  apply h.answered_of_owned hroom
  intro t htoken hname
  have hread : (holdings r).balance c.owner t.name = r.ledger.balance c.owner t.name := rfl
  by_cases hlt : r.ledger.balance c.owner t.name < c.amount
  · rw [hread, if_pos hlt]
    refine .refused ?_
    rw [htoken]
    simp [unnamed, hname, uncovered, hlt]
    rfl
  · rw [hread, if_neg hlt]
    refine .granted (t := { t with amount := t.amount - c.amount }) ?_
      (congrArg (Option.map _) htoken)
    rw [htoken]
    simp [unnamed, hname, uncovered, hlt]

theorem Sound.answered (h : Sound bound r) (hroom : Room bound) (c : Command) :
    Answered r c ((objections r c).findSome? id)
      ((holdings r).answer r.config.addressLabel c) := by
  cases hc : c.complaints with
  | cons complaint rest =>
    simp only [Holdings.answer, hc]
    refine .refused ?_
    unfold objections
    rw [findSome?_cons_id, invalid, hc]
    rfl
  | nil =>
    rw [objections_of_complaints hc]
    simp only [Holdings.answer, hc]
    cases c with
    | create c => exact h.answered_create hroom c
    | transfer c => exact h.answered_transfer hroom c
    | mint c => exact h.answered_mint hroom c
    | burn c => exact h.answered_burn hroom c

theorem Sound.execute_answer (h : Sound bound r) {c : Command} (hfits : c.Fits)
    (hroom : Room (bound + c.issue.toNat)) :
    match (holdings r).answer r.config.addressLabel c with
    | .error e => (Registry.execute c r).1 = .error e ∧
        holdings (Registry.execute c r).2 = holdings r
    | .ok next => (Registry.execute c r).1 = .ok (c.receipt r.config) ∧
        holdings (Registry.execute c r).2 = next := by
  have hanswered := h.answered (hroom.mono (Nat.le_add_right _ _)) c
  generalize (holdings r).answer r.config.addressLabel c = answer at hanswered
  rcases execute_inMemory h.balances c with
    ⟨e, hobjection, herror, hkept⟩ | ⟨t, hnone, hok, happlied⟩
  · rw [hobjection] at hanswered
    cases hanswered with
    | refused heq =>
      cases heq
      exact ⟨herror, holdings_of_kept hkept⟩
    | granted hnone hsettled => cases hnone
  · rw [hnone] at hanswered
    cases hanswered with
    | refused hobjection => cases hobjection
    | granted _ hsettled =>
      cases hsettled.symm.trans happlied.settled
      obtain ⟨hwell, haccepts⟩ := accepts_of_objections hnone hsettled
      exact ⟨hok, holdings_of_applied happlied
        (h.decode_accepted hfits hroom hwell haccepts happlied)⟩

def inMemory (r : Registry OpenStore Balances) : InMemory :=
  image OpenStore.memoryImage (LedgerImage.same Balances) r

/-- On what commands have made of an empty registry over a working store, each command gives the
answer of the table and leaves what the table says. -/
theorem execute_follows_table {r : Registry OpenStore Balances} (hworking : r.store.Working)
    (hstore : r.store.asMemory = .empty) (hledger : r.ledger = .empty) {cs : List Command}
    {c : Command} (hfits : ∀ x ∈ cs ++ [c], x.Fits) (hroom : Room (issuedBy (cs ++ [c]))) :
    match (holdings (inMemory (after r cs))).answer (after r cs).config.addressLabel c with
    | .error e => (Registry.execute c (after r cs)).1 = .error e ∧
        holdings (inMemory (Registry.execute c (after r cs)).2) = holdings (inMemory (after r cs))
    | .ok next =>
        (Registry.execute c (after r cs)).1 = .ok (c.receipt (after r cs).config) ∧
        holdings (inMemory (Registry.execute c (after r cs)).2) = next := by
  have hready : Ready OpenStore.memoryImage (LedgerImage.same Balances) r := ⟨hworking, trivial⟩
  obtain ⟨hafter, hready⟩ := image_after _ _ hready cs
  have hempty : Sound 0 (inMemory r) := .of_empty hstore hledger
  rw [issuedBy_append, issuedBy_cons] at hroom
  have hsound := hempty.after (fun x hx => hfits x (List.mem_append_left _ hx))
    (hroom.mono (by omega))
  change after (inMemory r) cs = inMemory (after r cs) at hafter
  rw [hafter] at hsound
  have hanswer := hsound.execute_answer (hfits c (List.mem_append_right _ List.mem_cons_self))
    (hroom.mono (by omega))
  obtain ⟨hrun, -⟩ := simulated_execute OpenStore.memoryImage (LedgerImage.same Balances) c _ hready
  change execute c (inMemory (after r cs)) = (_, inMemory _) at hrun
  rw [hrun] at hanswer
  exact hanswer

end Runs

def vault : Registry OpenStore Balances :=
  ⟨.table ⟨"records.db", .empty, false⟩, .empty, .standard, []⟩

def firstIssue : List Command := [.create ⟨"Ore", 5, ⟨[1]⟩⟩]

def overdraft : Command := .burn ⟨⟨[1]⟩, "ORE", 7⟩

theorem overdraft_follows_table :
    vault.store.Working ∧ vault.store.asMemory = .empty ∧ vault.ledger = .empty ∧
      (∀ x ∈ firstIssue ++ [overdraft], x.Fits) ∧ Room (issuedBy (firstIssue ++ [overdraft])) ∧
      (execute overdraft (after vault firstIssue)).1 =
        .error (.ledger (.insufficientFunds "01" "Ore" "5" "7")) := by
  have hfits : ∀ x ∈ firstIssue ++ [overdraft], x.Fits := by decide +kernel
  have hroom : Room (issuedBy (firstIssue ++ [overdraft])) := by decide +kernel
  have htable := @execute_follows_table _ vault ⟨rfl, rfl⟩ rfl rfl firstIssue overdraft hfits hroom
  have hanswer : (match (holdings (inMemory (after vault firstIssue))).answer
      (after vault firstIssue).config.addressLabel overdraft with
        | .error e => some e
        | .ok _ => none) = some (.ledger (.insufficientFunds "01" "Ore" "5" "7")) := by
    decide +kernel
  refine ⟨⟨rfl, rfl⟩, rfl, rfl, hfits, hroom, ?_⟩
  cases hcase : (holdings (inMemory (after vault firstIssue))).answer
      (after vault firstIssue).config.addressLabel overdraft with
  | ok next =>
    rw [hcase] at hanswer
    cases hanswer
  | error e =>
    rw [hcase] at hanswer htable
    cases hanswer
    exact htable.1

end Registry

end TokenRegistry
