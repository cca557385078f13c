import TokenRegistry.Proofs.Registry.Rewriting
import TokenRegistry.Proofs.Registry.Soundness

/-!
# Tokens filed under their slugs

Whatever the ledger does and whichever calls are refused, every record of a registry
that starts empty, or with a genesis state, is that of a token under its own slug. All
of them are read back, as long as there is room for their amounts, which burning may
bring below zero where the books have more units than the records.
-/
namespace TokenRegistry

/-- Amounts up to the bound fit into records, with or without a sign. -/
def SignedRoom (bound : Nat) : Prop :=
  (Text.Utf8.ofString (Amount.text bound)).length + 1 < Token.fieldCapacity

instance (bound : Nat) : Decidable (SignedRoom bound) := inferInstanceAs (Decidable (_ < _))

theorem SignedRoom.mono {m n : Nat} (h : SignedRoom n) (hle : m ≤ n) : SignedRoom m :=
  Nat.lt_of_le_of_lt (Nat.succ_le_succ (Amount.length_ofString_text_le hle)) h

theorem SignedRoom.fitsField {bound : Nat} (h : SignedRoom bound) {n : Int}
    (hn : n.natAbs ≤ bound) : Token.FitsField (Amount.text n) :=
  Nat.lt_of_le_of_lt (Amount.length_ofString_text_le_natAbs n) (h.mono hn)

namespace Registry

/-- The units that commands issue and destroy, taken together. -/
def turnover (cs : List Command) : Nat := (cs.map fun c => c.issue.natAbs).sum

theorem turnover_cons (c : Command) (cs : List Command) :
    turnover (c :: cs) = c.issue.natAbs + turnover cs := List.sum_cons

end Registry

variable [Slug.Spelling]

structure Filable (bound : Nat) (t : Token) : Prop where
  slug : t.slug ≠ ""
  name : Token.FitsField t.name
  owner : Token.FitsField t.owner.text
  amount : t.amount.natAbs ≤ bound

theorem Filable.mono {m n : Nat} {t : Token} (h : Filable m t) (hle : m ≤ n) : Filable n t :=
  ⟨h.slug, h.name, h.owner, Nat.le_trans h.amount hle⟩

theorem Filable.decode {bound : Nat} {t : Token} (h : Filable bound t) (hroom : SignedRoom bound) :
    Token.decode t.encode = .ok t :=
  Token.decode_encode ⟨h.name, hroom.fitsField h.amount, h.owner⟩

/-- Every record is that of a token under its own slug. -/
def Records.Filed (bound : Nat) (rs : Records) : Prop :=
  ∀ key bytes, rs.get? key = some bytes →
    ∃ t, key = recordKey t.slug ∧ bytes = t.encode ∧ Filable bound t

namespace Records.Filed

variable {bound : Nat} {rs : Records}

theorem empty : Filed bound ∅ := fun _ _ hget => nomatch hget

theorem mono {bound' : Nat} (h : Filed bound rs) (hle : bound ≤ bound') : Filed bound' rs := by
  intro key bytes hget
  obtain ⟨t, hkey, hbytes, ht⟩ := h key bytes hget
  exact ⟨t, hkey, hbytes, ht.mono hle⟩

theorem insert (h : Filed bound rs) {slug : String} {t : Token} (hslug : t.slug = slug)
    (ht : Filable bound t) : Filed bound (rs.insert (recordKey slug) t.encode) := by
  intro key bytes hget
  rw [OrderedMap.get?_insert] at hget
  split at hget
  · rename_i hkey
    cases hget
    exact ⟨t, hkey.trans (congrArg recordKey hslug.symm), rfl, ht⟩
  · exact h key bytes hget

theorem exists_token? (h : Filed bound rs) (hroom : SignedRoom bound) {slug : String}
    {bytes : Bytes} (hget : rs.get? (recordKey slug) = some bytes) :
    ∃ t, rs.token? slug = some t ∧ t.slug = slug ∧ Filable bound t := by
  obtain ⟨t, hkey, rfl, ht⟩ := h _ _ hget
  exact ⟨t, Records.token?_eq_some_iff.mpr ⟨_, hget, ht.decode hroom⟩,
    (recordKey_injective hkey).symm, ht⟩

theorem of_token? (h : Filed bound rs) (hroom : SignedRoom bound) {slug : String} {t : Token}
    (htoken : rs.token? slug = some t) : t.slug = slug ∧ Filable bound t := by
  obtain ⟨bytes, hget, -⟩ := Records.token?_eq_some_iff.mp htoken
  obtain ⟨t', htoken', hslug, ht⟩ := h.exists_token? hroom hget
  cases htoken.symm.trans htoken'
  exact ⟨hslug, ht⟩

end Records.Filed

namespace Registry

section Runs

variable {σ τ : Type} [Store σ] {bound : Nat} {c : Command}

theorem filable_of_settle {rs : Records} (h : rs.Filed bound) (hroom : SignedRoom bound)
    (hfits : c.Fits) (hwell : c.WellFormed) {t : Token}
    (hsettled : c.settle (rs.token? c.slug) = some t) :
    t.slug = c.slug ∧ Filable (bound + c.issue.natAbs) t := by
  cases c with
  | create c =>
    cases hsettled
    have howner := hfits.parties ("creator", c.creator) List.mem_cons_self
    exact ⟨rfl, hwell.slug, hfits.name, howner, Nat.le_add_left _ _⟩
  | transfer c =>
    obtain ⟨old, htoken, rfl⟩ := Option.map_eq_some_iff.mp hsettled
    obtain ⟨hslug, hold⟩ := h.of_token? hroom htoken
    have howner := hfits.parties ("new_owner", c.newOwner)
      (List.mem_cons_of_mem _ List.mem_cons_self)
    exact ⟨hslug, hold.slug, hold.name, howner, hold.amount⟩
  | mint c =>
    obtain ⟨old, htoken, rfl⟩ := Option.map_eq_some_iff.mp hsettled
    obtain ⟨hslug, hold⟩ := h.of_token? hroom htoken
    refine ⟨hslug, hold.slug, hold.name, hold.owner, ?_⟩
    exact Nat.le_trans (Int.natAbs_add_le _ _) (Nat.add_le_add_right hold.amount _)
  | burn c =>
    obtain ⟨old, htoken, rfl⟩ := Option.map_eq_some_iff.mp hsettled
    obtain ⟨hslug, hold⟩ := h.of_token? hroom htoken
    refine ⟨hslug, hold.slug, hold.name, hold.owner, ?_⟩
    exact Nat.le_trans (Int.natAbs_add_le _ _) (Nat.add_le_add_right hold.amount _)

theorem Rewrites.filed {rs rs' : Records} (h : Rewrites c rs rs') (hfiled : rs.Filed bound)
    (hroom : SignedRoom bound) (hfits : c.Fits) (hwell : c.WellFormed) :
    rs'.Filed (bound + c.issue.natAbs) := by
  cases h with
  | kept => exact hfiled.mono (Nat.le_add_right _ _)
  | put hsettled hfree =>
    obtain ⟨hslug, ht⟩ := filable_of_settle hfiled hroom hfits hwell hsettled
    exact (hfiled.mono (Nat.le_add_right _ _)).insert hslug ht

variable (S : Faithful σ) {r : Registry σ τ}

theorem filed_execute [Ledger τ] (h : (recordsOf S r).Filed bound) (hroom : SignedRoom bound)
    (hfits : c.Fits) : (recordsOf S (execute c r).2).Filed (bound + c.issue.natAbs) := by
  rcases execute_rewrites S r c with hkept | ⟨hvalid, hrewrites⟩
  · rw [hkept]
    exact h.mono (Nat.le_add_right _ _)
  · exact hrewrites.filed h hroom hfits
      (Command.wellFormed_of_complaints (Command.complaints_of_validate hvalid))

theorem filed_after [Ledger τ] (h : (recordsOf S r).Filed bound) {cs : List Command}
    (hfits : ∀ c ∈ cs, c.Fits) (hroom : SignedRoom (bound + turnover cs)) :
    (recordsOf S (after r cs)).Filed (bound + turnover cs) := by
  induction cs generalizing bound r with
  | nil => exact h
  | cons c cs ih =>
    rw [turnover_cons, ← Nat.add_assoc] at hroom ⊢
    have hnow := filed_execute S h (hroom.mono (by omega)) (hfits c List.mem_cons_self)
    exact ih hnow (fun c' hc' => hfits c' (List.mem_cons_of_mem _ hc')) hroom

theorem filed_putAll {ts : List Token} (h : (recordsOf S r).Filed bound)
    (hall : ∀ t ∈ ts, Filable bound t) : (recordsOf S (putAll ts r).2).Filed bound := by
  induction ts generalizing r with
  | nil => exact h
  | cons t ts ih =>
    rw [putAll]
    rcases put_cases S r t.slug t with ⟨e, r', hrun, hkept⟩ | ⟨r', hrun, hput⟩
    · rw [Attempt.bind_of_error hrun, hkept]
      exact h
    · rw [Attempt.bind_of_ok hrun]
      refine ih ?_ fun t' ht' => hall t' (List.mem_cons_of_mem _ ht')
      rw [hput]
      exact h.insert rfl (hall t List.mem_cons_self)

theorem filed_load {g : Genesis} (h : (recordsOf S r).Filed bound) (hvalid : g.validate = .ok ())
    (hfits : ∀ t ∈ g.tokens, Token.FitsField t.name ∧ Token.FitsField t.owner.text)
    (hamounts : ∀ t ∈ g.tokens, t.amount.natAbs ≤ bound) :
    (recordsOf S (load g r).2).Filed bound := by
  obtain ⟨hadmissible, -⟩ := Genesis.distinct_of_checkAll hvalid
  have hputs := filed_putAll S h fun t ht =>
    ⟨(hadmissible t ht).slug, (hfits t ht).1, (hfits t ht).2, hamounts t ht⟩
  rw [load, hvalid]
  change (recordsOf S ((putAll g.tokens >>= _) r).2).Filed bound
  rcases (putAll g.tokens).run_cases r with ⟨_, r', hrun⟩ | ⟨e, r', hrun⟩
  · rw [hrun] at hputs
    rw [Attempt.bind_of_ok hrun]
    exact hputs
  · rw [hrun] at hputs
    rw [Attempt.bind_of_error hrun]
    exact hputs

end Runs

end Registry

end TokenRegistry
