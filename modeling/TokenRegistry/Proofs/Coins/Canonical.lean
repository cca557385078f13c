import Mathlib.Data.List.Nodup
import TokenRegistry.Proofs.Coins
import TokenRegistry.Proofs.OrderedMap
import TokenRegistry.Proofs.Text.Utf8

/-!
# Coins in canonical form

A list of coins passes the checks exactly if every denomination has a name, no amount is
negative and no denomination comes twice; a coin of amount zero counts as an occurrence.
The coins that are not zero are then put in the byte order of their denominations, so the
order of the list does not matter, and coins that were put in order stay as they are.
Otherwise the first coin that may not stand after those before it is complained of.
-/
namespace TokenRegistry.Coins

structure Listable (cs : List Coin) : Prop where
  named : ∀ c ∈ cs, c.denom ≠ ""
  nonneg : ∀ c ∈ cs, 0 ≤ c.amount
  distinct : cs.Pairwise fun c c' => c.denom ≠ c'.denom

inductive Refused (before : List Coin) (c : Coin) : Fault → Prop
  | unnamed (h : c.denom = "") : Refused before c .emptyDenom
  | negative (hnamed : c.denom ≠ "") (h : c.amount < 0) : Refused before c (.negative c)
  | duplicate (hnamed : c.denom ≠ "") (hnonneg : 0 ≤ c.amount)
      (h : ∃ d ∈ before, d.denom = c.denom) : Refused before c (.duplicate c.denom)

/-- The coins of a list that are not zero, each once and in the byte order of denominations. -/
structure Canonical (cs : List Coin) (coins : Coins) : Prop where
  ascending : coins.toList.Pairwise fun c c' =>
    Text.Utf8.ofString c.denom < Text.Utf8.ofString c'.denom
  perm : coins.toList.Perm (cs.filter fun c => c.amount ≠ 0)
  listed : ∀ c ∈ cs, coins.amountOf c.denom = c.amount
  unlisted : ∀ denom, (∀ c ∈ cs, c.denom ≠ denom) → coins.amountOf denom = 0

variable {cs : List Coin} {coins : Coins} {seen all : OrderedMap String Int}

theorem eq_of_denom (h : cs.Pairwise fun c c' => c.denom ≠ c'.denom) {c d : Coin} (hc : c ∈ cs)
    (hd : d ∈ cs) (heq : c.denom = d.denom) : c = d :=
  List.inj_on_of_nodup_map (List.pairwise_map.mpr h) hc hd heq

theorem amountOf_of_mem (h : coins.toList.Pairwise fun c c' => c.denom ≠ c'.denom) {c : Coin}
    (hc : c ∈ coins.toList) : coins.amountOf c.denom = c.amount := by
  rw [amountOf]
  cases hfind : coins.toList.find? fun d => d.denom = c.denom with
  | none => simpa using List.find?_eq_none.mp hfind c hc
  | some d =>
    have hdenom : d.denom = c.denom := by simpa using List.find?_some hfind
    simp [eq_of_denom h (List.mem_of_find?_eq_some hfind) hc hdenom]

theorem amountOf_of_not_mem {denom : String} (h : ∀ c ∈ coins.toList, c.denom ≠ denom) :
    coins.amountOf denom = 0 := by
  have hfind : coins.toList.find? (fun c => c.denom = denom) = none :=
    List.find?_eq_none.mpr fun c hc => by simpa using h c hc
  simp [amountOf, hfind]

theorem Listable.tail {c : Coin} (h : Listable (c :: cs)) : Listable cs :=
  ⟨fun d hd => h.named d (List.mem_cons_of_mem _ hd),
    fun d hd => h.nonneg d (List.mem_cons_of_mem _ hd), (List.pairwise_cons.mp h.distinct).2⟩

theorem contains_insert_eq_false_iff {denom : String} {n : Int} {d : String} :
    (seen.insert denom n).contains d = false ↔ d ≠ denom ∧ seen.contains d = false := by
  rw [OrderedMap.contains, OrderedMap.get?_insert, OrderedMap.contains]
  split <;> simp [*]

theorem gather_of_listable (h : Listable cs)
    (hnew : ∀ c ∈ cs, seen.contains c.denom = false) :
    ∃ all, gather seen cs = .ok all ∧
      ∀ d n, all.get? d = some n ↔ ⟨d, n⟩ ∈ cs ∨ seen.get? d = some n := by
  induction cs generalizing seen with
  | nil => exact ⟨seen, rfl, by simp⟩
  | cons c cs ih =>
    obtain ⟨hne, -⟩ := List.pairwise_cons.mp h.distinct
    have hrest : ∀ d ∈ cs, (seen.insert c.denom c.amount).contains d.denom = false := by
      intro d hd
      rw [contains_insert_eq_false_iff]
      exact ⟨(hne d hd).symm, hnew d (List.mem_cons_of_mem _ hd)⟩
    obtain ⟨all, hall, hget⟩ := ih h.tail hrest
    have hunseen := hnew c List.mem_cons_self
    refine ⟨all, ?_, ?_⟩
    · simp [gather, h.named c List.mem_cons_self, h.nonneg c List.mem_cons_self, hunseen, hall]
    · intro d n
      have hnone : seen.get? c.denom = none := OrderedMap.get?_eq_none_of_contains hunseen
      obtain ⟨denom, amount⟩ := c
      rw [hget, OrderedMap.get?_insert]
      split
      · rename_i heq
        subst heq
        simp [hnone, or_comm, eq_comm]
      · rename_i hother
        simp [hother]

theorem exists_gather (h : Listable cs) : ∃ all, gather ∅ cs = .ok all :=
  (gather_of_listable h fun _ _ => rfl).imp fun _ hall => hall.1

theorem listable_of_gather (h : gather seen cs = .ok all) :
    Listable cs ∧ ∀ c ∈ cs, seen.contains c.denom = false := by
  induction cs generalizing seen with
  | nil => exact ⟨⟨by simp, by simp, .nil⟩, by simp⟩
  | cons c cs ih =>
    rw [gather] at h
    split_ifs at h with hnamed hamount hseen
    obtain ⟨htail, hnew⟩ := ih h
    simp only [contains_insert_eq_false_iff] at hnew
    refine ⟨⟨?_, ?_, ?_⟩, ?_⟩
    · simpa [hnamed] using htail.named
    · simpa [Int.not_lt.mp hamount] using htail.nonneg
    · exact List.pairwise_cons.mpr ⟨fun d hd => (hnew d hd).1.symm, htail.distinct⟩
    · simpa [hseen] using fun d hd => (hnew d hd).2

theorem gather_append {before : List Coin} (h : gather seen before = .ok all)
    (after : List Coin) : gather seen (before ++ after) = gather all after := by
  induction before generalizing seen with
  | nil =>
    cases h
    rfl
  | cons c before ih =>
    rw [gather] at h
    split_ifs at h with hnamed hamount hseen
    simp [gather, hnamed, hamount, hseen, ih h]

theorem exists_of_gather_error {e : Fault} (h : gather seen cs = .error e) :
    ∃ before c after all, cs = before ++ c :: after ∧ gather seen before = .ok all ∧
      gather all [c] = .error e := by
  induction cs generalizing seen with
  | nil => cases h
  | cons c cs ih =>
    by_cases hc : ∃ all, gather seen [c] = .ok all
    · obtain ⟨all, hall⟩ := hc
      rw [← List.singleton_append, gather_append hall] at h
      obtain ⟨before, d, after, all', rfl, hbefore, hd⟩ := ih h
      refine ⟨c :: before, d, after, all', rfl, ?_, hd⟩
      rw [← List.singleton_append, gather_append hall, hbefore]
    · refine ⟨[], c, cs, seen, rfl, rfl, ?_⟩
      simp only [gather] at h hc ⊢
      split_ifs at h hc ⊢ <;> simp_all

theorem get?_of_gather (h : gather ∅ cs = .ok all) (d : String) (n : Int) :
    all.get? d = some n ↔ ⟨d, n⟩ ∈ cs := by
  obtain ⟨all', hall, hget⟩ :=
    gather_of_listable (listable_of_gather h).1 (listable_of_gather h).2
  cases h.symm.trans hall
  simpa [OrderedMap.get?_empty] using hget d n

theorem contains_of_gather (h : gather ∅ cs = .ok all) (d : String) :
    all.contains d = true ↔ ∃ c ∈ cs, c.denom = d := by
  rw [OrderedMap.contains, Option.isSome_iff_exists]
  simp only [get?_of_gather h]
  constructor
  · rintro ⟨n, hmem⟩
    exact ⟨_, hmem, rfl⟩
  · rintro ⟨c, hmem, rfl⟩
    exact ⟨c.amount, hmem⟩

theorem gather_cons_error {before after : List Coin} {c : Coin} {e : Fault}
    (hall : gather ∅ before = .ok all) (h : Refused before c e) :
    gather all (c :: after) = .error e := by
  cases h with
  | unnamed h => simp [gather, h]
  | negative hnamed h => simp [gather, hnamed, h]
  | duplicate hnamed hnonneg h =>
    have hseen := (contains_of_gather hall c.denom).mpr h
    simp [gather, hnamed, Int.not_lt.mpr hnonneg, hseen]

theorem refused_of_gather {before : List Coin} {c : Coin} {e : Fault}
    (hall : gather ∅ before = .ok all) (h : gather all [c] = .error e) : Refused before c e := by
  simp only [gather] at h
  split_ifs at h with hnamed hamount hseen
  · cases h
    exact .unnamed hnamed
  · cases h
    exact .negative hnamed hamount
  · cases h
    exact .duplicate hnamed (Int.not_lt.mp hamount) ((contains_of_gather hall _).mp hseen)

theorem ofList_eq_error_iff {e : Fault} : ofList cs = .error e ↔
    ∃ before c after, cs = before ++ c :: after ∧ Listable before ∧ Refused before c e := by
  have hgather : ofList cs = .error e ↔ gather ∅ cs = .error e := by
    rw [ofList]
    cases gather ∅ cs <;> simp [Except.map]
  rw [hgather]
  constructor
  · intro h
    obtain ⟨before, c, after, all, rfl, hbefore, hc⟩ := exists_of_gather_error h
    exact ⟨before, c, after, rfl, (listable_of_gather hbefore).1, refused_of_gather hbefore hc⟩
  · rintro ⟨before, c, after, rfl, hbefore, hc⟩
    obtain ⟨all, hall⟩ := exists_gather hbefore
    rw [gather_append hall, gather_cons_error hall hc]

theorem mem_ofEntries_iff {es : List (String × Int)} {c : Coin} :
    c ∈ (ofEntries es).toList ↔ (c.denom, c.amount) ∈ es ∧ c.amount ≠ 0 := by
  obtain ⟨denom, amount⟩ := c
  simp [ofEntries]

theorem canonical_of_gather (h : gather ∅ cs = .ok all) :
    Canonical cs (ofEntries all.entries) := by
  have hlistable := (listable_of_gather h).1
  have hcoins : ofList cs = .ok (ofEntries all.entries) := by simp [ofList, h, Except.map]
  have hchecked := checked_ofList hcoins
  have hmem : ∀ c, c ∈ (ofEntries all.entries).toList ↔ c ∈ cs ∧ c.amount ≠ 0 := by
    intro c
    rw [mem_ofEntries_iff, ← OrderedMap.get?_eq_some_iff, get?_of_gather h]
  refine ⟨?_, ?_, ?_, ?_⟩
  · apply List.pairwise_map.mpr
    exact (all.ascending.filter _).imp Text.Utf8.ofString_lt_iff.mpr
  · apply (List.perm_ext_iff_of_nodup _ _).mpr
    · simpa using hmem
    · exact hchecked.distinct.imp fun hne heq => hne (congrArg _ heq)
    · exact (hlistable.distinct.imp fun hne heq => hne (congrArg _ heq)).filter _
  · intro c hc
    by_cases hzero : c.amount = 0
    · rw [hzero]
      apply amountOf_of_not_mem
      intro d hd heq
      obtain ⟨hlisted, hne⟩ := (hmem d).mp hd
      exact hne (eq_of_denom hlistable.distinct hlisted hc heq ▸ hzero)
    · exact amountOf_of_mem hchecked.distinct ((hmem c).mpr ⟨hc, hzero⟩)
  · intro denom hother
    exact amountOf_of_not_mem fun c hc => hother c ((hmem c).mp hc).1

theorem canonical_of_ofList (h : ofList cs = .ok coins) :
    Listable cs ∧ Canonical cs coins := by
  rw [ofList] at h
  cases hall : gather ∅ cs with
  | error e => simp [hall, Except.map] at h
  | ok all =>
    simp only [hall, Except.map, Except.ok.injEq] at h
    exact ⟨(listable_of_gather hall).1, h ▸ canonical_of_gather hall⟩

theorem exists_ofList (h : Listable cs) : ∃ coins, ofList cs = .ok coins := by
  obtain ⟨all, hall⟩ := exists_gather h
  exact ⟨_, by rw [ofList, hall]; rfl⟩

theorem Listable.perm {cs' : List Coin} (h : Listable cs) (hperm : cs'.Perm cs) : Listable cs' :=
  ⟨fun c hc => h.named c (hperm.mem_iff.mp hc), fun c hc => h.nonneg c (hperm.mem_iff.mp hc),
    (hperm.pairwise_iff fun hne heq => hne heq.symm).mpr h.distinct⟩

theorem Canonical.eq {cs' : List Coin} {coins' : Coins} (h : Canonical cs coins)
    (h' : Canonical cs' coins') (hperm : cs'.Perm cs) : coins' = coins := by
  have hsame : coins'.toList.Perm coins.toList :=
    h'.perm.trans ((hperm.filter _).trans h.perm.symm)
  have heq := hsame.eq_of_pairwise
    (fun _ _ _ _ hlt hgt => absurd (Std.lt_trans hlt hgt) Std.lt_irrefl) h'.ascending h.ascending
  cases coins
  cases coins'
  exact congrArg Coins.mk heq

theorem ofList_perm {cs' : List Coin} (hperm : cs'.Perm cs) (h : ofList cs = .ok coins) :
    ofList cs' = .ok coins := by
  obtain ⟨hlistable, hcanonical⟩ := canonical_of_ofList h
  obtain ⟨coins', h'⟩ := exists_ofList (hlistable.perm hperm)
  rw [h', hcanonical.eq (canonical_of_ofList h').2 hperm]

theorem ofList_toList (h : ofList cs = .ok coins) : ofList coins.toList = .ok coins := by
  obtain ⟨hlistable, hcanonical⟩ := canonical_of_ofList h
  have hchecked := checked_ofList h
  have hmem : ∀ c ∈ coins.toList, c ∈ cs := fun c hc =>
    (List.mem_filter.mp (hcanonical.perm.mem_iff.mp hc)).1
  have hkept : coins.toList.filter (fun c => c.amount ≠ 0) = coins.toList :=
    List.filter_eq_self.mpr fun c hc => by simpa using (hchecked.positive c hc).ne'
  have hagain : Listable coins.toList :=
    ⟨fun c hc => hlistable.named c (hmem c hc), fun c hc => (hchecked.positive c hc).le,
      hchecked.distinct⟩
  obtain ⟨coins', h'⟩ := exists_ofList hagain
  have hself : Canonical coins.toList coins :=
    ⟨hcanonical.ascending, by rw [hkept], fun c hc => amountOf_of_mem hchecked.distinct hc,
      fun _ hother => amountOf_of_not_mem hother⟩
  rw [h', hself.eq (canonical_of_ofList h').2 .rfl]

/-- Checking coins builds their canonical form, whatever their order, or names the first coin that
may not stand where it does. -/
theorem ofList_canonical (cs : List Coin) :
    ((∃ coins, ofList cs = .ok coins) ↔ Listable cs) ∧
      (∀ coins, ofList cs = .ok coins → Canonical cs coins ∧ ofList coins.toList = .ok coins) ∧
      (∀ e, ofList cs = .error e ↔
        ∃ before c after, cs = before ++ c :: after ∧ Listable before ∧ Refused before c e) ∧
      ∀ cs', cs'.Perm cs → (ofList cs').toOption = (ofList cs).toOption := by
  refine ⟨⟨?_, exists_ofList⟩, ?_, fun e => ofList_eq_error_iff, ?_⟩
  · rintro ⟨coins, h⟩
    exact (canonical_of_ofList h).1
  · intro coins h
    exact ⟨(canonical_of_ofList h).2, ofList_toList h⟩
  · intro cs' hperm
    cases h : ofList cs with
    | ok coins => rw [ofList_perm hperm h]
    | error e =>
      cases h' : ofList cs' with
      | error e' => rfl
      | ok coins =>
        rw [ofList_perm hperm.symm h'] at h
        cases h

-- A coin of amount zero is not kept, but no other may have its denomination.
example : ofList [⟨"Tin", 2⟩, ⟨"Ore", 0⟩] = .ok ⟨[⟨"Tin", 2⟩]⟩ ∧
    ofList [⟨"Ore", 0⟩, ⟨"Ore", 5⟩] = .error (.duplicate "Ore") := by
  decide +kernel

end TokenRegistry.Coins
