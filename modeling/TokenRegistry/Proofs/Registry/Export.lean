import TokenRegistry.Proofs.Json.RoundTrip
import TokenRegistry.Proofs.Registry.Agreement
import TokenRegistry.Proofs.Registry.CommandTable
import TokenRegistry.Proofs.Registry.Projection

/-!
# Export and reload

What commands have made of a registry is exported in full: the genesis state that
comes out passes its checks, is read back from its JSON, and gives the same records
again wherever it is loaded. The books must not have had more than the records from
the start, since units that are on no record can be destroyed all the same.
-/
namespace TokenRegistry

open Json

namespace Registry

section Runs

variable [Slug.Spelling]

theorem load_working {g : Genesis} (hvalid : g.validate = .ok ())
    {r : Registry OpenStore Balances} (hworking : r.store.Working) :
    (load g r).1 = .ok () ∧ (load g r).2.store.Working ∧
      (load g r).2.store.asMemory.records = r.store.asMemory.records.putAll g.tokens ∧
      inMemory (load g r).2 = (load g (inMemory r)).2 := by
  obtain ⟨hrun, hready⟩ :=
    simulated_load OpenStore.memoryImage (LedgerImage.same Balances) g r ⟨hworking, trivial⟩
  change load g (inMemory r) = (_, inMemory _) at hrun
  obtain ⟨r', hload, hrecords, -⟩ := load_inMemory hvalid (inMemory r)
  have hstate := congrArg Prod.snd (hrun.symm.trans hload)
  refine ⟨congrArg Prod.fst (hrun.symm.trans hload), hready.1, ?_, ?_⟩
  · change (inMemory (load g r).2).store.records = _
    rw [show inMemory (load g r).2 = r' from hstate, hrecords]
    rfl
  · rw [hrun]

/-- A registry whose store is empty and whose books have no debts, no more units of a token than the
genesis state gives it, and no units in the name of a token that may still be created. -/
structure Prepared (g : Genesis) (r : Registry OpenStore Balances) : Prop where
  working : r.store.Working
  store : r.store.asMemory = .empty
  balances : r.ledger.NonNegative
  issued : ∀ t ∈ g.tokens, r.ledger.supplyOf t.name ≤ t.amount
  creatable : ∀ denom, Slug.ofName denom ≠ "" → (∀ t ∈ g.tokens, t.slug ≠ Slug.ofName denom) →
    r.ledger.supplyOf denom = 0

/-- A registry to start from: an empty one, or one into which a valid genesis state is loaded. -/
inductive Opening : Genesis → Registry OpenStore Balances → Prop
  | empty {r : Registry OpenStore Balances} (hprepared : Prepared ⟨[]⟩ r) : Opening ⟨[]⟩ r
  | genesis {g : Genesis} {r : Registry OpenStore Balances} (hprepared : Prepared g r)
      (hvalid : g.validate = .ok ())
      (hfits : ∀ t ∈ g.tokens, Token.FitsField t.name ∧ Token.FitsField t.owner.text) :
      Opening g (load g r).2

theorem Prepared.sound {g : Genesis} {r : Registry OpenStore Balances} (h : Prepared g r)
    (hvalid : g.validate = .ok ())
    (hfits : ∀ t ∈ g.tokens, Token.FitsField t.name ∧ Token.FitsField t.owner.text) :
    Sound (g.tokens.map fun t => t.amount.toNat).sum (load g (inMemory r)).2
      fun denom => g.supplyOf denom - r.ledger.supplyOf denom := by
  obtain ⟨-, hdistinct⟩ := Genesis.distinct_of_checkAll hvalid
  refine .of_genesis h.store h.balances ?_ ?_ hvalid ?_ ?_ hfits
  · intro denom husable hfree
    have hother : ∀ t ∈ g.tokens, t.name ≠ denom := fun t ht hname =>
      hfree t ht (congrArg Slug.ofName hname)
    rw [Genesis.supplyOf_of_not_mem hother, h.creatable denom husable hfree]
    exact Int.le_refl 0
  · intro t ht
    rw [Genesis.supplyOf_of_mem hdistinct ht]
    exact Int.sub_nonneg.mpr (h.issued t ht)
  · intro t ht
    rw [Genesis.supplyOf_of_mem hdistinct ht]
    change r.ledger.supplyOf t.name + _ = _
    omega
  · intro denom hother
    rw [Genesis.supplyOf_of_not_mem hother]
    change r.ledger.supplyOf denom + _ = _
    omega

theorem Opening.sound {g : Genesis} {r : Registry OpenStore Balances} (h : Opening g r) :
    r.store.Working ∧
      ∃ surplus, Sound (g.tokens.map fun t => t.amount.toNat).sum (inMemory r) surplus := by
  cases h with
  | empty hprepared =>
    refine ⟨hprepared.working, _, (hprepared.sound rfl ?_).of_supply (Nat.le_refl _) rfl
      hprepared.balances fun _ => rfl⟩
    exact fun t ht => absurd ht List.not_mem_nil
  | genesis hprepared hvalid hfits =>
    obtain ⟨-, hworking, -, hstate⟩ := load_working hvalid hprepared.working
    have hsound := hprepared.sound hvalid hfits
    rw [← hstate] at hsound
    exact ⟨hworking, _, hsound⟩

/-- The genesis state is what the registry is exported as, and nothing is lost with it. -/
structure Exported (r : Registry OpenStore Balances) (g : Genesis) : Prop where
  exported : (exportGenesis r).1 = .ok g
  ascending : g.tokens.Pairwise fun t u => recordKey t.slug < recordKey u.slug
  valid : g.validate = .ok ()
  json : readPage Genesis.read g.toJson.text = .ok g ∧
    readPage Genesis.read (String.ofList g.toJson.indented) = .ok g
  reloaded : ∀ r' : Registry OpenStore Balances, r'.store.Working →
    r'.store.asMemory = .empty → (load g r').1 = .ok () ∧
      (load g r').2.store.asMemory.records = r.store.asMemory.records ∧
      (exportGenesis (load g r').2).1 = .ok g

theorem Sound.entries {bound : Nat} {r : InMemory} {surplus : String → Int}
    (h : Sound bound r surplus) :
    ∃ ts : List Token, r.store.records.entries = ts.map Token.entry ∧
      ∀ t ∈ ts, SoundToken r.ledger t surplus := by
  have hall : ∀ e ∈ r.store.records.entries, ∃ t : Token, e = t.entry ∧
      SoundToken r.ledger t surplus := by
    rintro ⟨key, bytes⟩ he
    obtain ⟨t, rfl, rfl, ht⟩ := h.records key bytes ((r.store.records.get?_eq_some_iff _ _).mpr he)
    exact ⟨t, rfl, ht⟩
  generalize r.store.records.entries = es at hall
  induction es with
  | nil => exact ⟨[], rfl, fun t ht => absurd ht List.not_mem_nil⟩
  | cons e es ih =>
    obtain ⟨t, rfl, ht⟩ := hall e List.mem_cons_self
    obtain ⟨ts, rfl, hts⟩ := ih fun e' he' => hall e' (List.mem_cons_of_mem _ he')
    exact ⟨t :: ts, rfl, List.forall_mem_cons.mpr ⟨ht, hts⟩⟩

theorem Sound.exported {bound : Nat} {r : Registry OpenStore Balances} {surplus : String → Int}
    (h : Sound bound (inMemory r) surplus) (hroom : Room bound) (hworking : r.store.Working) :
    ∃ g, Exported r g := by
  obtain ⟨ts, hentries, hts⟩ := h.entries
  have hrecords : (inMemory r).store.records = r.store.asMemory.records := rfl
  rw [hrecords] at hentries
  have hdecode : ∀ t ∈ ts, Token.decode t.encode = .ok t := fun t ht => h.decode hroom (hts t ht)
  have hvalid : Genesis.validate ⟨ts⟩ = .ok () := by
    apply Genesis.checkAll_of_distinct _ (Records.distinct_of_entries hentries)
    intro t ht
    exact ⟨(hts t ht).slug, (hts t ht).owner, h.amount_nonneg (hts t ht), List.not_mem_nil⟩
  refine ⟨⟨ts⟩, ?_, Records.ascending_of_entries hentries, hvalid, Genesis.readPage_toJson _, ?_⟩
  · rw [exportGenesis_of_entries hworking.readable.reads hentries hdecode]
  · intro r' hworking' hempty
    obtain ⟨hok, hloaded, hput, -⟩ := load_working hvalid hworking'
    have hsame : (load ⟨ts⟩ r').2.store.asMemory.records = r.store.asMemory.records := by
      rw [hput, hempty]
      exact Records.putAll_of_entries hentries
    refine ⟨hok, hsame, ?_⟩
    rw [← hsame] at hentries
    rw [exportGenesis_of_entries hloaded.readable.reads hentries hdecode]

/-- Whatever commands have done since the start, the registry can be exported and had again from the
export. -/
theorem exported_of_run {g : Genesis} {r : Registry OpenStore Balances} (h : Opening g r)
    {cs : List Command} (hfits : ∀ c ∈ cs, c.Fits)
    (hroom : Room ((g.tokens.map fun t => t.amount.toNat).sum + issuedBy cs)) :
    ∃ exported, Exported (after r cs) exported := by
  obtain ⟨hworking, surplus, hsound⟩ := h.sound
  obtain ⟨hafter, hready⟩ := image_after OpenStore.memoryImage (LedgerImage.same Balances)
    ⟨hworking, trivial⟩ cs
  change after (inMemory r) cs = inMemory (after r cs) at hafter
  have hend := hsound.after hfits hroom
  rw [hafter] at hend
  exact hend.exported hroom hready.1

end Runs

def stocked : Balances :=
  match Balances.empty.credit ⟨[1]⟩ (Coins.ofAmount "Ore" 3) with
  | .ok b => b
  | .error _ => .empty

theorem stocked_supply :
    stocked.NonNegative ∧ ∀ denom, stocked.supplyOf denom = if denom = "Ore" then 3 else 0 := by
  obtain ⟨b, hcredit, hbalances, hsupply⟩ :=
    @Balances.nonNegative_of_credit _ Balances.nonNegative_empty ⟨[1]⟩ rfl _
      (@Coins.checked_ofAmount "Ore" 3 (by decide))
  have hstocked : stocked = b := by rw [stocked, hcredit]
  rw [hstocked]
  refine ⟨hbalances, fun denom => ?_⟩
  rw [hsupply, Coins.sumOf_ofAmount]
  exact Int.zero_add _

def stockroom : Registry OpenStore Balances := { vault with ledger := stocked }

theorem opening_endowed : Opening endowed (load endowed stockroom).2 := by
  obtain ⟨hbalances, hsupply⟩ := stocked_supply
  refine .genesis ⟨⟨rfl, rfl⟩, rfl, hbalances, ?_, ?_⟩ (by decide +kernel) (by decide +kernel)
  · intro t ht
    rw [List.mem_singleton.mp ht]
    exact (Int.le_of_eq (hsupply "Ore")).trans (by decide)
  · intro denom _ hfree
    have hdenom : denom ≠ "Ore" := by
      rintro rfl
      exact hfree ⟨"Ore", 5, ⟨[1]⟩⟩ List.mem_cons_self rfl
    exact (hsupply denom).trans (if_neg hdenom)

def clearance : List Command := [.burn ⟨⟨[1]⟩, "ORE", 3⟩, .create ⟨"Tin", 2, ⟨[2]⟩⟩]

theorem exported_of_clearance :
    (∀ c ∈ clearance, c.Fits) ∧ Room (5 + issuedBy clearance) ∧
      Exported (after (load endowed stockroom).2 clearance)
        ⟨[⟨"Ore", 2, ⟨[1]⟩⟩, ⟨"Tin", 2, ⟨[2]⟩⟩]⟩ := by
  have hfits : ∀ c ∈ clearance, c.Fits := by decide +kernel
  have hroom : Room (5 + issuedBy clearance) := by decide +kernel
  obtain ⟨g, hexported⟩ := exported_of_run opening_endowed hfits hroom
  have hg : g = ⟨[⟨"Ore", 2, ⟨[1]⟩⟩, ⟨"Tin", 2, ⟨[2]⟩⟩]⟩ := by
    have hrun : (exportGenesis (after (load endowed stockroom).2 clearance)).1 =
        .ok ⟨[⟨"Ore", 2, ⟨[1]⟩⟩, ⟨"Tin", 2, ⟨[2]⟩⟩]⟩ := by decide +kernel
    exact Except.ok.inj (hexported.exported.symm.trans hrun)
  rw [hg] at hexported
  exact ⟨hfits, hroom, hexported⟩

def overstocked : Registry OpenStore Balances := ⟨.memory .empty, stocked, .standard, []⟩

def overspending : List Command := [.create ⟨"Ore", 0, ⟨[1]⟩⟩, .burn ⟨⟨[1]⟩, "Ore", 3⟩]

def deficit : Genesis := ⟨[⟨"Ore", -3, ⟨[1]⟩⟩]⟩

/-- More is destroyed than was ever recorded, and the export does not pass the checks. -/
theorem deficit_not_reloaded :
    overstocked.store.asMemory = .empty ∧
      (exportGenesis (after overstocked overspending)).1 = .ok deficit ∧
      deficit.validate = .error (.validation (.genesisSupply "Ore" (-3))) ∧
      (load deficit overstocked).1 = .error (.validation (.genesisSupply "Ore" (-3))) := by
  refine ⟨rfl, ?_, ?_, ?_⟩
  · decide +kernel
  · decide +kernel
  · decide +kernel

end Registry

end TokenRegistry
