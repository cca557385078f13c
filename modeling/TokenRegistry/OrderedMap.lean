/-!
# Finite maps in key order

A map is the list of its entries, strictly ascending by key. The order is part of
the type, so two maps with the same entry at every key are equal (`ext_get?`), and
each operation is pinned down by what it does to `get?`.
-/
namespace TokenRegistry

variable {κ ν : Type}

section Order

variable [LT κ]

def Ascending (es : List (κ × ν)) : Prop := es.Pairwise fun a b => a.1 < b.1

structure OrderedMap (κ ν : Type) [LT κ] where
  entries : List (κ × ν)
  ascending : Ascending entries

namespace OrderedMap

theorem ext_entries {m m' : OrderedMap κ ν} (h : m.entries = m'.entries) : m = m' := by
  cases m; cases m'; cases h; rfl

instance [DecidableEq κ] [DecidableEq ν] : DecidableEq (OrderedMap κ ν) := fun m m' =>
  decidable_of_iff (m.entries = m'.entries) ⟨ext_entries, fun h => h ▸ rfl⟩

def empty : OrderedMap κ ν := ⟨[], List.Pairwise.nil⟩

instance : EmptyCollection (OrderedMap κ ν) := ⟨empty⟩

instance : Inhabited (OrderedMap κ ν) := ⟨empty⟩

def size (m : OrderedMap κ ν) : Nat := m.entries.length

def keys (m : OrderedMap κ ν) : List κ := m.entries.map (·.1)

end OrderedMap

end Order

namespace OrderedMap

section Lookup

variable [DecidableEq κ]

def lookup (k : κ) : List (κ × ν) → Option ν
  | [] => none
  | (k', v) :: es => if k = k' then some v else lookup k es

def drop (k : κ) : List (κ × ν) → List (κ × ν)
  | [] => []
  | (k', v') :: es => if k = k' then es else (k', v') :: drop k es

theorem drop_sublist (k : κ) (es : List (κ × ν)) : (drop k es).Sublist es := by
  induction es with
  | nil => exact .slnil
  | cons e es ih =>
    rw [drop]
    split
    · exact List.sublist_cons_self _ _
    · exact ih.cons_cons _

theorem lookup_drop_ne {k k' : κ} (h : k' ≠ k) (es : List (κ × ν)) :
    lookup k' (drop k es) = lookup k' es := by
  induction es with
  | nil => rfl
  | cons e es ih =>
    obtain ⟨k'', v''⟩ := e
    rw [drop]
    split
    · rename_i heq
      simp [lookup, ← heq, h]
    · simp [lookup, ih]

variable [LT κ]

def get? (m : OrderedMap κ ν) (k : κ) : Option ν := lookup k m.entries

def contains (m : OrderedMap κ ν) (k : κ) : Bool := (m.get? k).isSome

def erase (m : OrderedMap κ ν) (k : κ) : OrderedMap κ ν :=
  ⟨drop k m.entries, m.ascending.sublist (drop_sublist k m.entries)⟩

theorem get?_empty (k : κ) : (∅ : OrderedMap κ ν).get? k = none := rfl

variable [LE κ] [Std.LawfulOrderLT κ]

theorem lookup_eq_none_of_lt {k : κ} {es : List (κ × ν)} (h : ∀ e ∈ es, k < e.1) :
    lookup k es = none := by
  induction es with
  | nil => rfl
  | cons e es ih =>
    obtain ⟨k', v'⟩ := e
    have hk : k ≠ k' := fun heq => Std.lt_irrefl (heq ▸ h (k', v') List.mem_cons_self)
    simp only [lookup, if_neg hk]
    exact ih fun e he => h e (List.mem_cons_of_mem _ he)

theorem lookup_drop_self (k : κ) {es : List (κ × ν)} (h : Ascending es) :
    lookup k (drop k es) = none := by
  induction es with
  | nil => rfl
  | cons e es ih =>
    obtain ⟨k', v'⟩ := e
    obtain ⟨hall, htail⟩ := List.pairwise_cons.mp h
    rw [drop]
    split
    · rename_i heq
      exact lookup_eq_none_of_lt fun e he => heq ▸ hall e he
    · rename_i hne
      simp [lookup, hne, ih htail]

theorem get?_erase (m : OrderedMap κ ν) (k k' : κ) :
    (m.erase k).get? k' = if k' = k then none else m.get? k' := by
  by_cases h : k' = k
  · subst h; simp [get?, erase, lookup_drop_self k' m.ascending]
  · simp [get?, erase, lookup_drop_ne h, h]

theorem lookup_eq_some_iff {k : κ} {v : ν} {es : List (κ × ν)} (h : Ascending es) :
    lookup k es = some v ↔ (k, v) ∈ es := by
  induction es with
  | nil => simp [lookup]
  | cons e es ih =>
    obtain ⟨k', v'⟩ := e
    obtain ⟨hall, htail⟩ := List.pairwise_cons.mp h
    rw [lookup]
    split
    · rename_i heq
      subst heq
      refine ⟨fun hv => ?_, fun hv => ?_⟩
      · cases hv; exact List.mem_cons_self
      · rcases List.mem_cons.mp hv with hv | hv
        · cases hv; rfl
        · exact absurd (hall _ hv) Std.lt_irrefl
    · rename_i hne
      rw [ih htail, List.mem_cons]
      refine ⟨.inr, fun hv => hv.resolve_left fun heq => hne ?_⟩
      cases heq; rfl

theorem get?_eq_some_iff (m : OrderedMap κ ν) (k : κ) (v : ν) :
    m.get? k = some v ↔ (k, v) ∈ m.entries :=
  lookup_eq_some_iff m.ascending

variable [Std.IsLinearOrder κ]

theorem lookup_eq_none_of_lt_head {k : κ} {e : κ × ν} {es : List (κ × ν)}
    (h : Ascending (e :: es)) (hlt : k < e.1) : lookup k (e :: es) = none := by
  apply lookup_eq_none_of_lt
  intro e' he'
  rcases List.mem_cons.mp he' with rfl | hmem
  · exact hlt
  · exact Std.lt_trans hlt ((List.pairwise_cons.mp h).1 e' hmem)

theorem eq_of_lookup_eq {es es' : List (κ × ν)} (h : Ascending es) (h' : Ascending es')
    (heq : ∀ k, lookup k es = lookup k es') : es = es' := by
  induction es generalizing es' with
  | nil =>
    cases es' with
    | nil => rfl
    | cons e es' => have := heq e.1; simp [lookup] at this
  | cons e es ih =>
    cases es' with
    | nil => have := heq e.1; simp [lookup] at this
    | cons e' es' =>
      obtain ⟨k, v⟩ := e
      obtain ⟨k', v'⟩ := e'
      obtain ⟨hall, htail⟩ := List.pairwise_cons.mp h
      obtain ⟨hall', htail'⟩ := List.pairwise_cons.mp h'
      have hself : lookup k ((k, v) :: es) = some v := by simp [lookup]
      have hself' : lookup k' ((k', v') :: es') = some v' := by simp [lookup]
      have hk : k = k' := by
        rcases Std.lt_trichotomy k k' with hlt | hlt | hlt
        · rw [heq k, lookup_eq_none_of_lt_head h' hlt] at hself
          cases hself
        · exact hlt
        · rw [← heq k', lookup_eq_none_of_lt_head h hlt] at hself'
          cases hself'
      subst hk
      have hv : v = v' := Option.some.inj (hself.symm.trans ((heq k).trans hself'))
      subst hv
      refine congrArg _ (ih htail htail' fun x => ?_)
      by_cases hx : x = k
      · subst hx
        rw [lookup_eq_none_of_lt hall, lookup_eq_none_of_lt hall']
      · have := heq x
        simpa [lookup, hx] using this

theorem ext_get? {m m' : OrderedMap κ ν} (h : ∀ k, m.get? k = m'.get? k) : m = m' :=
  ext_entries (eq_of_lookup_eq m.ascending m'.ascending h)

end Lookup

section After

variable [LT κ] [DecidableLT κ]

def after (m : OrderedMap κ ν) (k : κ) : List (κ × ν) := m.entries.filter fun e => k < e.1

theorem mem_after_iff (m : OrderedMap κ ν) (k : κ) (e : κ × ν) :
    e ∈ m.after k ↔ e ∈ m.entries ∧ k < e.1 := by
  simp [after]

variable [LE κ] [Std.LawfulOrderLT κ]

theorem filter_lt_head {e : κ × ν} {es : List (κ × ν)} (h : Ascending (e :: es)) :
    (e :: es).filter (fun x => e.1 < x.1) = es := by
  obtain ⟨hall, -⟩ := List.pairwise_cons.mp h
  rw [List.filter_cons_of_neg (by simpa using Std.lt_irrefl)]
  exact List.filter_eq_self.mpr fun x hx => by simpa using hall x hx

theorem after_of_entries (m : OrderedMap κ ν) {e : κ × ν} {es : List (κ × ν)}
    (h : m.entries = e :: es) : m.after e.1 = es := by
  rw [after, h]
  exact filter_lt_head (h ▸ m.ascending)

variable [Std.IsLinearOrder κ]

theorem after_of_after (m : OrderedMap κ ν) {k : κ} {e : κ × ν} {es : List (κ × ν)}
    (h : m.after k = e :: es) : m.after e.1 = es := by
  have hk : k < e.1 := ((mem_after_iff m k e).mp (h ▸ List.mem_cons_self)).2
  have hasc : Ascending (e :: es) := h ▸ m.ascending.sublist List.filter_sublist
  have hsub : m.after e.1 = (m.after k).filter fun x => e.1 < x.1 := by
    rw [after, after, List.filter_filter]
    refine List.filter_congr fun x _ => ?_
    by_cases hx : e.1 < x.1
    · simp [hx, Std.lt_trans hk hx]
    · simp [hx]
  rw [hsub, h]
  exact filter_lt_head hasc

end After

section Insert

variable [LT κ] [DecidableLT κ] [DecidableEq κ]

def put (k : κ) (v : ν) : List (κ × ν) → List (κ × ν)
  | [] => [(k, v)]
  | (k', v') :: es =>
    if k < k' then (k, v) :: (k', v') :: es
    else if k = k' then (k, v) :: es
    else (k', v') :: put k v es

theorem mem_put {k : κ} {v : ν} {es : List (κ × ν)} {e : κ × ν} (h : e ∈ put k v es) :
    e = (k, v) ∨ e ∈ es := by
  induction es with
  | nil => simpa [put] using h
  | cons e' es ih =>
    obtain ⟨k', v'⟩ := e'
    rw [put] at h
    split at h
    · simpa using h
    · split at h
      · rcases List.mem_cons.mp h with h | h
        · exact .inl h
        · exact .inr (List.mem_cons_of_mem _ h)
      · rcases List.mem_cons.mp h with h | h
        · exact .inr (h ▸ List.mem_cons_self)
        · exact (ih h).imp id (List.mem_cons_of_mem _)

theorem lookup_put_self (k : κ) (v : ν) (es : List (κ × ν)) : lookup k (put k v es) = some v := by
  induction es with
  | nil => simp [put, lookup]
  | cons e es ih =>
    obtain ⟨k', v'⟩ := e
    rw [put]
    split
    · simp [lookup]
    · split
      · simp [lookup]
      · rename_i hne
        simp [lookup, hne, ih]

theorem lookup_put_ne {k k' : κ} (h : k' ≠ k) (v : ν) (es : List (κ × ν)) :
    lookup k' (put k v es) = lookup k' es := by
  induction es with
  | nil => simp [put, lookup, h]
  | cons e es ih =>
    obtain ⟨k'', v''⟩ := e
    rw [put]
    split
    · simp [lookup, h]
    · split
      · rename_i heq
        simp [lookup, ← heq, h]
      · simp [lookup, ih]

variable [LE κ] [Std.IsLinearOrder κ] [Std.LawfulOrderLT κ]

theorem ascending_put (k : κ) (v : ν) {es : List (κ × ν)} (h : Ascending es) :
    Ascending (put k v es) := by
  induction es with
  | nil => exact List.pairwise_singleton _ _
  | cons e es ih =>
    obtain ⟨k', v'⟩ := e
    obtain ⟨hall, htail⟩ := List.pairwise_cons.mp h
    rw [put]
    split
    · rename_i hlt
      refine List.pairwise_cons.mpr ⟨fun a ha => ?_, h⟩
      rcases List.mem_cons.mp ha with ha | ha
      · exact ha ▸ hlt
      · exact Std.lt_trans hlt (hall a ha)
    · split
      · rename_i heq
        exact List.pairwise_cons.mpr ⟨fun a ha => heq ▸ hall a ha, htail⟩
      · rename_i hlt hne
        refine List.pairwise_cons.mpr ⟨fun a ha => ?_, ih htail⟩
        rcases mem_put ha with ha | ha
        · rcases Std.lt_trichotomy k k' with hk | hk | hk
          · exact absurd hk hlt
          · exact absurd hk hne
          · exact ha ▸ hk
        · exact hall a ha

def insert (m : OrderedMap κ ν) (k : κ) (v : ν) : OrderedMap κ ν :=
  ⟨put k v m.entries, ascending_put k v m.ascending⟩

theorem get?_insert (m : OrderedMap κ ν) (k k' : κ) (v : ν) :
    (m.insert k v).get? k' = if k' = k then some v else m.get? k' := by
  by_cases h : k' = k
  · subst h; simp [get?, insert, lookup_put_self]
  · simp [get?, insert, lookup_put_ne h, h]

end Insert

end OrderedMap

end TokenRegistry
