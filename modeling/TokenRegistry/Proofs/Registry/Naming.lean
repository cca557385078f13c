import TokenRegistry.Proofs.Registry.Filing
import TokenRegistry.Proofs.Registry.Projection
import TokenRegistry.Proofs.Slug

/-!
# Slugs as names

The slugs that a registry lists can be used as names: each is its own slug, what is
found by it is the token that is stored under it, and a command may name the token by
it as well. A name is known exactly if its slug is listed.
-/
namespace TokenRegistry

namespace Command

def renamed (name : String) : Command → Command
  | .create c => .create { c with name := name }
  | .transfer c => .transfer { c with name := name }
  | .mint c => .mint { c with name := name }
  | .burn c => .burn { c with name := name }

variable {name : String} {c : Command}

theorem kind_renamed (name : String) (c : Command) : (c.renamed name).kind = c.kind := by
  cases c with
  | create c => rfl
  | transfer c => rfl
  | mint c => rfl
  | burn c => rfl

theorem sender_renamed (name : String) (c : Command) : (c.renamed name).sender = c.sender := by
  cases c with
  | create c => rfl
  | transfer c => rfl
  | mint c => rfl
  | burn c => rfl

variable [Slug.Spelling]

theorem nameComplaints_of_slug (h : Slug.ofName name ≠ "") : nameComplaints name = [] := by
  have hname : name ≠ "" := by
    rintro rfl
    exact h Slug.ofName_empty
  rw [nameComplaints, if_neg hname, if_neg h]

theorem validate_renamed (hslug : c.slug ≠ "") (hname : Slug.ofName name = c.slug) :
    (c.renamed name).validate = c.validate := by
  have hcomplaints : (c.renamed name).complaints = c.complaints := by
    have hthis : nameComplaints c.name = [] := nameComplaints_of_slug hslug
    have hother : nameComplaints name = [] := by
      apply nameComplaints_of_slug
      rw [hname]
      exact hslug
    cases c with
    | create c => exact congrArg (_ ++ · ++ _) (hother.trans hthis.symm)
    | transfer c => exact congrArg (_ ++ · ++ _) (hother.trans hthis.symm)
    | mint c => exact congrArg (_ ++ · ++ _) (hother.trans hthis.symm)
    | burn c => exact congrArg (_ ++ · ++ _) (hother.trans hthis.symm)
  rw [validate_eq_report, validate_eq_report, hcomplaints]

end Command

namespace Registry

section Renaming

variable {σ τ : Type} [Store σ] [Ledger τ] [Slug.Spelling] {name : String} {c : Command}

theorem apply_renamed (hkind : c.kind ≠ .create) (hname : Slug.ofName name = c.slug) :
    (apply (c.renamed name) : RegistryM σ τ (Option Int)) = apply c := by
  cases c with
  | create c => exact absurd rfl hkind
  | transfer c =>
    change transfer { c with name := name } = transfer c
    rw [transfer, transfer, hname]
    rfl
  | mint c =>
    change mint { c with name := name } = mint c
    rw [mint, mint, hname]
    rfl
  | burn c =>
    change burn { c with name := name } = burn c
    rw [burn, burn, hname]
    rfl

/-- The answer is the same and so is all that is left but the log, in which a name may be quoted. -/
structure SameButLog (out out' : Except RegistryError Receipt × Registry σ τ) : Prop where
  answer : out'.1 = out.1
  store : out'.2.store = out.2.store
  ledger : out'.2.ledger = out.2.ledger
  config : out'.2.config = out.2.config

theorem execute_renamed (hkind : c.kind ≠ .create) (hslug : c.slug ≠ "")
    (hname : Slug.ofName name = c.slug) (r : Registry σ τ) :
    SameButLog (execute c r) (execute (c.renamed name) r) := by
  have hvalidate := Command.validate_renamed hslug hname
  cases hvalid : c.validate with
  | error e =>
    rw [execute_of_invalid hvalid, execute_of_invalid (hvalidate.trans hvalid)]
    exact ⟨rfl, rfl, rfl, rfl⟩
  | ok _ =>
    have happly : (apply (c.renamed name) : RegistryM σ τ (Option Int)) r = apply c r := by
      rw [apply_renamed hkind hname]
    rcases (apply c).run_cases r with ⟨amount, r', hrun⟩ | ⟨e, r', hrun⟩
    · rw [hrun] at happly
      rw [execute_of_apply_ok hvalid hrun, execute_of_apply_ok (hvalidate.trans hvalid) happly,
        Command.kind_renamed, Command.sender_renamed]
      exact ⟨rfl, rfl, rfl, rfl⟩
    · rw [hrun] at happly
      rw [execute_of_apply_error hvalid hrun,
        execute_of_apply_error (hvalidate.trans hvalid) happly]
      exact ⟨rfl, rfl, rfl, rfl⟩

end Renaming

section Names

variable {σ τ : Type} [Store σ] [Slug.Spelling] {r : Registry σ τ} {rs : Records} {name : String}

theorem getToken_of_token? (h : Reads r.store rs) {t : Token}
    (htoken : rs.token? (Slug.ofName name) = some t) : getToken name r = (.ok t, r) := by
  obtain ⟨bytes, hget, hdecode⟩ := Records.token?_eq_some_iff.mp htoken
  exact Attempt.bind_of_ok (find?_of_decode h hget hdecode)

theorem getToken_of_missing (h : Reads r.store rs)
    (hget : rs.get? (recordKey (Slug.ofName name)) = none) :
    (getToken name r).1 = .error (.notFound (Slug.ofName name)) := by
  obtain ⟨r', hfind⟩ := find?_of_missing h hget
  exact congrArg Prod.fst (Attempt.bind_of_ok hfind)

omit [Slug.Spelling] in
theorem mem_listed_iff {names : List String} (h : names.map recordKey = rs.keys) {slug : String} :
    slug ∈ names ↔ ∃ bytes, rs.get? (recordKey slug) = some bytes := by
  rw [← OrderedMap.mem_keys_iff, ← h, List.mem_map_of_injective fun _ _ => recordKey_injective]

end Names

section Runs

variable {τ : Type} [Ledger τ] [Slug.Spelling]

/-- An empty registry, or one into which a valid genesis state is loaded, with a bound on the
amounts that it starts with. -/
inductive Origin : Nat → Registry OpenStore τ → Prop
  | empty {r : Registry OpenStore τ} (hreadable : r.store.Readable)
      (hempty : r.store.asMemory = .empty) : Origin 0 r
  | genesis {g : Genesis} {r : Registry OpenStore τ} {bound : Nat} (hreadable : r.store.Readable)
      (hempty : r.store.asMemory = .empty) (hvalid : g.validate = .ok ())
      (hfits : ∀ t ∈ g.tokens, Token.FitsField t.name ∧ Token.FitsField t.owner.text)
      (hamounts : ∀ t ∈ g.tokens, t.amount.natAbs ≤ bound) : Origin bound (load g r).2

theorem Origin.readable {bound : Nat} {r : Registry OpenStore τ} (h : Origin bound r) :
    r.store.Readable := by
  cases h with
  | empty hreadable hempty => exact hreadable
  | genesis hreadable hempty hvalid hfits hamounts =>
    exact (simulated_load OpenStore.readableImage (LedgerImage.same τ) _ _ ⟨hreadable, trivial⟩).2.1

omit [Ledger τ] in
theorem Origin.filed {bound : Nat} {r : Registry OpenStore τ} (h : Origin bound r) :
    r.store.asMemory.records.Filed bound := by
  cases h with
  | empty hreadable hempty =>
    rw [hempty]
    exact .empty
  | @genesis g r bound hreadable hempty hvalid hfits hamounts =>
    have hstart : (recordsOf OpenStore.faithful r).Filed bound := by
      change r.store.asMemory.records.Filed bound
      rw [hempty]
      exact .empty
    exact filed_load OpenStore.faithful hstart hvalid hfits hamounts

/-- The slugs listed are the known names, each of them its own slug. -/
structure Navigable (r : Registry OpenStore τ) (names : List String) : Prop where
  listed : (listTokens r).1 = .ok names
  found : ∀ name, Slug.ofName name ∈ names → ∃ t, (getToken name r).1 = .ok t
  missing : ∀ name, Slug.ofName name ∉ names →
    (getToken name r).1 = .error (.notFound (Slug.ofName name))
  stored : ∀ slug ∈ names, ∃ t, (getToken slug r).1 = .ok t ∧
    r.store.asMemory.records.token? slug = some t ∧ Slug.ofName t.name = slug
  renamed : ∀ slug ∈ names, ∀ c : Command, c.kind ≠ .create → c.slug = slug →
    SameButLog (execute c r) (execute (c.renamed slug) r)

theorem navigable_of_filed {bound : Nat} {r : Registry OpenStore τ} (hreadable : r.store.Readable)
    (hfiled : r.store.asMemory.records.Filed bound) (hroom : SignedRoom bound) :
    ∃ names, Navigable r names := by
  have h := hreadable.reads
  have hok : (listTokens r).1.isOk := by
    rw [isOk_listTokens_iff h]
    intro key hkey
    obtain ⟨bytes, hget⟩ := OrderedMap.mem_keys_iff.mp hkey
    obtain ⟨t, heq, -⟩ := hfiled key bytes hget
    exact ⟨t.slug, heq⟩
  cases hlisted : (listTokens r).1 with
  | error e =>
    rw [hlisted] at hok
    cases hok
  | ok names =>
    have hmem : ∀ slug, slug ∈ names ↔ _ := fun slug => mem_listed_iff (keys_of_listTokens h hlisted)
    have htoken : ∀ slug ∈ names, ∃ t, r.store.asMemory.records.token? slug = some t ∧
        t.slug = slug ∧ Filable bound t := by
      intro slug hslug
      obtain ⟨bytes, hget⟩ := (hmem slug).mp hslug
      exact hfiled.exists_token? hroom hget
    -- A listed slug is the slug of a name, and so its own slug.
    have hself : ∀ slug ∈ names, Slug.ofName slug = slug := by
      intro slug hslug
      obtain ⟨t, -, rfl, -⟩ := htoken slug hslug
      exact Slug.ofName_ofName t.name
    refine ⟨names, hlisted, ?_, ?_, ?_, ?_⟩
    · intro name hname
      obtain ⟨t, ht, -⟩ := htoken _ hname
      exact ⟨t, congrArg Prod.fst (getToken_of_token? h ht)⟩
    · intro name hname
      rw [hmem] at hname
      exact getToken_of_missing h (Option.eq_none_iff_forall_ne_some.mpr fun b hb => hname ⟨b, hb⟩)
    · intro slug hslug
      obtain ⟨t, ht, hname, -⟩ := htoken slug hslug
      refine ⟨t, congrArg Prod.fst (getToken_of_token? h ?_), ht, hname⟩
      rw [hself slug hslug]
      exact ht
    · rintro slug hslug c hkind rfl
      obtain ⟨t, -, hname, hfilable⟩ := htoken _ hslug
      exact execute_renamed hkind (hname ▸ hfilable.slug) (hself _ hslug) r

/-- In every state that commands reach from an origin, slugs that are listed are usable names. -/
theorem navigable_of_run {bound : Nat} {r : Registry OpenStore τ} (h : Origin bound r)
    {cs : List Command} (hfits : ∀ c ∈ cs, c.Fits) (hroom : SignedRoom (bound + turnover cs)) :
    ∃ names, Navigable (after r cs) names := by
  have hready := (image_after OpenStore.readableImage (LedgerImage.same τ) ⟨h.readable, trivial⟩ cs).2
  exact navigable_of_filed hready.1 (filed_after OpenStore.faithful h.filed hfits hroom) hroom

end Runs

def chartered : Registry OpenStore Balances :=
  (load ⟨[⟨"Ore", 5, ⟨[1]⟩⟩]⟩ ⟨.memory .empty, .empty, .standard, []⟩).2

def rechristening : List Command :=
  [.create ⟨"Blue & Gold", 2, ⟨[2]⟩⟩, .transfer ⟨"BLUE and gold", ⟨[2]⟩, ⟨[1]⟩⟩]

theorem navigable_of_rechristening :
    Origin 5 chartered ∧ (∀ c ∈ rechristening, c.Fits) ∧ SignedRoom (5 + turnover rechristening) ∧
      Navigable (after chartered rechristening) ["blue-and-gold", "ore"] := by
  have horigin : Origin 5 chartered :=
    .genesis trivial rfl (by decide +kernel) (by decide +kernel) (by decide +kernel)
  have hfits : ∀ c ∈ rechristening, c.Fits := by decide +kernel
  have hroom : SignedRoom (5 + turnover rechristening) := by decide +kernel
  obtain ⟨names, hnavigable⟩ := navigable_of_run horigin hfits hroom
  have hnames : names = ["blue-and-gold", "ore"] := by
    have hrun : (listTokens (after chartered rechristening)).1 =
        .ok ["blue-and-gold", "ore"] := by decide +kernel
    exact Except.ok.inj (hnavigable.listed.symm.trans hrun)
  rw [hnames] at hnavigable
  exact ⟨horigin, hfits, hroom, hnavigable⟩

end Registry

end TokenRegistry
