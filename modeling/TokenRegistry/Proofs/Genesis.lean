import Mathlib.Data.List.Nodup
import TokenRegistry.Proofs.Registry.Step
import TokenRegistry.Proofs.Token.Record
import TokenRegistry.Registry.Genesis

/-!
# Loading a genesis state

The tokens of a genesis state that passes its checks are fit to be stored, each under
a slug of its own. Loading the state into memory puts each in its place, and the
tokens of any records, loaded in their order, give these records.
-/
namespace TokenRegistry

theorem recordKey_injective {slug slug' : String} (h : recordKey slug = recordKey slug') :
    slug = slug' := Text.Utf8.ofString_injective h

def Genesis.supplyOf (g : Genesis) (denom : String) : Int :=
  ((g.tokens.find? fun t => t.name = denom).map Token.amount).getD 0

theorem Genesis.supplyOf_of_not_mem {g : Genesis} {denom : String}
    (h : ∀ t ∈ g.tokens, t.name ≠ denom) : g.supplyOf denom = 0 := by
  have hfind : (g.tokens.find? fun t => t.name = denom) = none :=
    List.find?_eq_none.mpr fun t ht => by simpa using h t ht
  rw [supplyOf, hfind]
  rfl

variable [Slug.Spelling]

def Records.Holds (rs : Records) (t : Token) : Prop := rs.get? (recordKey t.slug) = some t.encode

def Records.putAll (rs : Records) : List Token → Records
  | [] => rs
  | t :: ts => Records.putAll (rs.insert (recordKey t.slug) t.encode) ts

def Token.entry (t : Token) : Record := (recordKey t.slug, t.encode)

namespace Records

theorem putAll_origin {ts : List Token} {rs : Records} {key bytes : Bytes}
    (h : (rs.putAll ts).get? key = some bytes) :
    (∃ t ∈ ts, key = recordKey t.slug ∧ bytes = t.encode) ∨ rs.get? key = some bytes := by
  induction ts generalizing rs with
  | nil => exact .inr h
  | cons t ts ih =>
    rcases ih h with ⟨t', hmem, hkey, hbytes⟩ | hold
    · exact .inl ⟨t', List.mem_cons_of_mem _ hmem, hkey, hbytes⟩
    · rw [OrderedMap.get?_insert] at hold
      split at hold
      · rename_i hkey
        cases hold
        exact .inl ⟨t, List.mem_cons_self, hkey, rfl⟩
      · exact .inr hold

theorem get?_putAll_of_ne {ts : List Token} {rs : Records} {key : Bytes}
    (h : ∀ t ∈ ts, key ≠ recordKey t.slug) : (rs.putAll ts).get? key = rs.get? key := by
  induction ts generalizing rs with
  | nil => rfl
  | cons t ts ih =>
    rw [putAll, ih fun t' hmem => h t' (List.mem_cons_of_mem _ hmem), OrderedMap.get?_insert,
      if_neg (h t List.mem_cons_self)]

theorem holds_putAll {ts : List Token} (hdistinct : ts.Pairwise fun t t' => t.slug ≠ t'.slug)
    (rs : Records) {t : Token} (ht : t ∈ ts) : (rs.putAll ts).Holds t := by
  induction ts generalizing rs with
  | nil => exact absurd ht List.not_mem_nil
  | cons t' ts ih =>
    obtain ⟨hne, hrest⟩ := List.pairwise_cons.mp hdistinct
    rcases List.mem_cons.mp ht with rfl | hmem
    · have hother : ∀ t' ∈ ts, recordKey t.slug ≠ recordKey t'.slug := fun t' hmem hkey =>
        hne t' hmem (recordKey_injective hkey)
      rw [Holds, putAll, get?_putAll_of_ne hother, OrderedMap.get?_insert, if_pos rfl]
    · exact ih hrest _ hmem

variable {rs : Records} {ts : List Token}

theorem ascending_of_entries (h : rs.entries = ts.map Token.entry) :
    ts.Pairwise fun t u => recordKey t.slug < recordKey u.slug := by
  have hascending : rs.entries.Pairwise fun a b => a.1 < b.1 := rs.ascending
  rw [h, List.pairwise_map] at hascending
  exact hascending

theorem distinct_of_entries (h : rs.entries = ts.map Token.entry) :
    ts.Pairwise fun t u => t.slug ≠ u.slug := by
  refine (ascending_of_entries h).imp fun {t u} hlt heq => ?_
  rw [heq] at hlt
  exact Std.lt_irrefl hlt

theorem putAll_of_entries (h : rs.entries = ts.map Token.entry) :
    Records.putAll ∅ ts = rs := by
  have hdistinct := distinct_of_entries h
  apply OrderedMap.ext_get?
  intro key
  cases hget : rs.get? key with
  | some bytes =>
    have hmem := (rs.get?_eq_some_iff key bytes).mp hget
    rw [h] at hmem
    obtain ⟨t, ht, heq⟩ := List.mem_map.mp hmem
    cases heq
    exact holds_putAll hdistinct ∅ ht
  | none =>
    cases hput : (Records.putAll ∅ ts).get? key with
    | none => rfl
    | some bytes =>
      rcases putAll_origin hput with ⟨t, ht, rfl, rfl⟩ | hold
      · have hmem : t.entry ∈ rs.entries := by
          rw [h]
          exact List.mem_map_of_mem ht
        rw [(rs.get?_eq_some_iff _ _).mpr hmem] at hget
        cases hget
      · cases hold

end Records

namespace Genesis

/-- A token that may be in a genesis state after others with the slugs `seen`. -/
structure Admissible (seen : List String) (t : Token) : Prop where
  slug : t.slug ≠ ""
  owner : t.owner.isEmpty = false
  amount : 0 ≤ t.amount
  unseen : t.slug ∉ seen

theorem admissible_of_check {seen : List String} {t : Token} (h : check seen t = .ok ()) :
    Admissible seen t := by
  rw [check] at h
  split at h
  · cases h
  · rename_i hslug
    split at h
    · cases h
    · rename_i howner
      split at h
      · cases h
      · rename_i hamount
        split at h
        · cases h
        · rename_i hseen
          exact ⟨hslug, Bool.eq_false_iff.mpr howner, Int.not_lt.mp hamount, hseen⟩

theorem distinct_of_checkAll {seen : List String} {ts : List Token}
    (h : checkAll seen ts = .ok ()) :
    (∀ t ∈ ts, Admissible seen t) ∧ ts.Pairwise fun t t' => t.slug ≠ t'.slug := by
  induction ts generalizing seen with
  | nil => exact ⟨fun t ht => absurd ht List.not_mem_nil, List.Pairwise.nil⟩
  | cons t ts ih =>
    rw [checkAll] at h
    cases hcheck : check seen t with
    | error e =>
      rw [hcheck] at h
      cases h
    | ok _ =>
      rw [hcheck] at h
      have hhead := admissible_of_check hcheck
      obtain ⟨hall, hdistinct⟩ := ih h
      refine ⟨?_, List.pairwise_cons.mpr ⟨?_, hdistinct⟩⟩
      · intro t' ht'
        rcases List.mem_cons.mp ht' with rfl | hmem
        · exact hhead
        · have htail := hall t' hmem
          exact ⟨htail.slug, htail.owner, htail.amount,
            fun hseen => htail.unseen (List.mem_cons_of_mem _ hseen)⟩
      · intro t' ht' heq
        exact (hall t' ht').unseen (heq ▸ List.mem_cons_self)

theorem check_of_admissible {seen : List String} {t : Token} (h : Admissible seen t) :
    check seen t = .ok () := by
  rw [check, if_neg h.slug, if_neg (Bool.eq_false_iff.mp h.owner),
    if_neg (Int.not_lt.mpr h.amount), if_neg h.unseen]

theorem checkAll_of_distinct {seen : List String} {ts : List Token}
    (hall : ∀ t ∈ ts, Admissible seen t) (hdistinct : ts.Pairwise fun t t' => t.slug ≠ t'.slug) :
    checkAll seen ts = .ok () := by
  induction ts generalizing seen with
  | nil => rfl
  | cons t ts ih =>
    obtain ⟨hne, hrest⟩ := List.pairwise_cons.mp hdistinct
    rw [checkAll, check_of_admissible (hall t List.mem_cons_self)]
    apply ih _ hrest
    intro t' ht'
    have htail := hall t' (List.mem_cons_of_mem _ ht')
    refine ⟨htail.slug, htail.owner, htail.amount, fun hseen => ?_⟩
    rcases List.mem_cons.mp hseen with heq | hseen
    · exact hne t' ht' heq.symm
    · exact htail.unseen hseen

theorem supplyOf_of_mem {g : Genesis}
    (hdistinct : g.tokens.Pairwise fun t t' => t.slug ≠ t'.slug) {t : Token} (ht : t ∈ g.tokens) :
    g.supplyOf t.name = t.amount := by
  rw [supplyOf]
  cases hfind : g.tokens.find? fun u => u.name = t.name with
  | none => exact absurd (List.find?_eq_none.mp hfind t ht) (by simp)
  | some u =>
    have hname : u.name = t.name := by simpa using List.find?_some hfind
    have hslug : u.slug = t.slug := congrArg Slug.ofName hname
    have hsame : u = t :=
      List.inj_on_of_nodup_map (List.pairwise_map.mpr hdistinct) (List.mem_of_find?_eq_some hfind)
        ht hslug
    rw [hsame]
    rfl

end Genesis

namespace Registry

theorem putAll_inMemory (ts : List Token) (r : InMemory) :
    ∃ r', putAll ts r = (.ok (), r') ∧ r'.store.records = r.store.records.putAll ts ∧
      r'.ledger = r.ledger := by
  induction ts generalizing r with
  | nil => exact ⟨r, rfl, rfl, rfl⟩
  | cons t ts ih =>
    obtain ⟨r₁, hput, hrecords, hledger⟩ : ∃ r₁, put t.slug t r = (.ok (), r₁) ∧
        r₁.store.records = r.store.records.insert (recordKey t.slug) t.encode ∧
        r₁.ledger = r.ledger := ⟨_, rfl, rfl, rfl⟩
    obtain ⟨r₂, hrest, hrecords', hledger'⟩ := ih r₁
    refine ⟨r₂, (Attempt.bind_of_ok hput).trans hrest, ?_, hledger'.trans hledger⟩
    rw [hrecords', hrecords, Records.putAll]

theorem load_inMemory {g : Genesis} (h : g.validate = .ok ()) (r : InMemory) :
    ∃ r', load g r = (.ok (), r') ∧ r'.store.records = r.store.records.putAll g.tokens ∧
      r'.ledger = r.ledger := by
  obtain ⟨r₁, hputs, hrecords, hledger⟩ := putAll_inMemory g.tokens r
  refine ⟨Logged.write ⟨.info, .module r₁.config.moduleName,
    s!"initialized {g.tokens.length} branded tokens from genesis"⟩ r₁, ?_, hrecords, hledger⟩
  rw [load, h]
  exact Attempt.bind_of_ok hputs

end Registry

end TokenRegistry
