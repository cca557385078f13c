import Mathlib.Data.List.Nodup
import TokenRegistry.Proofs.OrderedMap
import TokenRegistry.Proofs.Store.Paging

/-!
# Passes while others write

A cursor is called now and then, and between the calls records are set and deleted.
What it returns is in key order and was in the store at some moment since it was
opened, and what was in the store at every moment is not missed.
-/
namespace TokenRegistry

inductive Move
  | set (key value : Bytes)
  | delete (key : Bytes)
  | next

structure Reading (σ γ : Type) where
  store : σ
  place : γ

namespace Reading

variable {σ γ : Type} [Store σ] [Cursor σ γ]

def opened (s : σ) : Reading σ γ := ⟨s, Cursor.start σ⟩

def act (o : Reading σ γ) : Move → Reading σ γ
  | .set key value => { o with store := (Store.set key value o.store).2 }
  | .delete key => { o with store := (Store.delete key o.store).2 }
  | .next => { o with place := (Cursor.next o.store o.place).2 }

def after (o : Reading σ γ) (ms : List Move) : Reading σ γ := ms.foldl act o

def answer (o : Reading σ γ) : Option (Except StoreError Record) :=
  (Cursor.next o.store o.place).1

def yielded (o : Reading σ γ) : Move → List Record
  | .set _ _ => []
  | .delete _ => []
  | .next =>
    match o.answer with
    | some (.ok r) => [r]
    | some (.error _) => []
    | none => []

def returned : Reading σ γ → List Move → List Record
  | _, [] => []
  | o, m :: ms => o.yielded m ++ returned (o.act m) ms

/-- The records of the store at each moment from now on until the moves are made. -/
def moments (view : σ → Records) : Reading σ γ → List Move → List Records
  | o, [] => [view o.store]
  | o, m :: ms => view o.store :: moments view (o.act m) ms

theorem after_append (o : Reading σ γ) (ms ms' : List Move) :
    o.after (ms ++ ms') = (o.after ms).after ms' := List.foldl_append

end Reading

/-- The records fetched so far are in order, each was there at some moment, and a key that was there
at every moment is among them unless it is still to come. -/
structure Consistent (past : List Records) (fetched : List Record) (p : Table.Place) : Prop where
  ascending : Ascending fetched
  last : p.last = fetched.getLast?.map (·.1)
  held : ∀ r ∈ fetched, ∃ rs ∈ past, rs.get? r.1 = some r.2
  pending : ∀ key, (∀ rs ∈ past, rs.contains key) → key ∉ fetched.map Prod.fst →
    p.exhausted = false ∧ Beyond p.last key

namespace Consistent

variable {past past' : List Records} {fetched got : List Record} {p : Table.Place} {size : Nat}
  {rs : Records}

theorem of_start (past : List Records) : Consistent past [] ⟨none, [], false⟩ := by
  refine ⟨List.Pairwise.nil, rfl, fun r hr => absurd hr List.not_mem_nil, ?_⟩
  intro key _ _
  exact ⟨rfl, fun k hk => by cases hk⟩

theorem mono (h : Consistent past fetched p) (hsub : past ⊆ past') :
    Consistent past' fetched p := by
  refine ⟨h.ascending, h.last, ?_, fun key hkey => h.pending key fun rs hrs => hkey rs (hsub hrs)⟩
  intro r hr
  obtain ⟨rs, hrs, hget⟩ := h.held r hr
  exact ⟨rs, hsub hrs, hget⟩

theorem lt_of_beyond (h : Consistent past fetched p) {r : Record} (hr : r ∈ fetched) {key : Bytes}
    (hbeyond : Beyond p.last key) : r.1 < key := by
  have hlast := h.last
  have hasc := h.ascending
  rcases List.eq_nil_or_concat fetched with rfl | ⟨init, e, heq⟩
  · exact absurd hr List.not_mem_nil
  · rw [List.concat_eq_append] at heq
    subst heq
    rw [List.getLast?_concat] at hlast
    have he := hbeyond e.1 hlast
    obtain ⟨-, -, hbefore⟩ := List.pairwise_append.mp hasc
    rcases List.mem_append.mp hr with hr | hr
    · exact Std.lt_trans (hbefore r hr e List.mem_cons_self) he
    · rw [List.mem_singleton.mp hr]
      exact he

theorem fetch (h : Consistent past fetched p) (hsize : 0 < size) (hrs : rs ∈ past) :
    Consistent past (fetched ++ (rs.following p.last).take size) (Paging.fetch size rs p) := by
  have hfollowing := rs.ascending_following p.last
  have hsplit := List.take_append_drop size (rs.following p.last)
  refine ⟨?_, ?_, ?_, ?_⟩
  · refine List.pairwise_append.mpr ⟨h.ascending, hfollowing.sublist (List.take_sublist _ _), ?_⟩
    intro r hr e he
    exact h.lt_of_beyond hr (Records.mem_following.mp (List.mem_of_mem_take he)).2
  · rw [List.getLast?_append, Option.map_or, ← h.last]
    rfl
  · intro r hr
    rcases List.mem_append.mp hr with hr | hr
    · exact h.held r hr
    · exact ⟨rs, hrs, (Records.mem_following.mp (List.mem_of_mem_take hr)).1⟩
  · intro key hkey hnew
    rw [List.map_append, List.mem_append, not_or] at hnew
    obtain ⟨-, hbeyond⟩ := h.pending key hkey hnew.1
    obtain ⟨value, hget⟩ := Option.isSome_iff_exists.mp (hkey rs hrs)
    have hmem : (key, value) ∈ rs.following p.last := Records.mem_following.mpr ⟨hget, hbeyond⟩
    -- The record has not been fetched, so the page is full and ends before it.
    rw [← hsplit] at hmem hfollowing
    have hrest := (List.mem_append.mp hmem).resolve_left fun hpage =>
      hnew.2 (List.mem_map_of_mem (f := Prod.fst) hpage)
    have hfull : ((rs.following p.last).take size).length = size := by
      have := List.length_pos_of_mem hrest
      rw [List.length_drop] at this
      rw [List.length_take]
      omega
    constructor
    · simp [Paging.fetch, hfull]
    · obtain ⟨-, -, hbefore⟩ := List.pairwise_append.mp hfollowing
      intro k hk
      have hk : (((rs.following p.last).take size).getLast?.map (·.1)).or p.last = some k := hk
      cases hlast : ((rs.following p.last).take size).getLast? with
      | none =>
        rw [List.getLast?_eq_none_iff.mp hlast, List.length_nil] at hfull
        omega
      | some e =>
        rw [hlast] at hk
        cases hk
        exact hbefore e (List.mem_of_getLast? hlast) _ hrest

theorem refill (h : Consistent past (got ++ p.buffer) p) (hsize : 0 < size) (hrs : rs ∈ past) :
    Consistent past (got ++ (Paging.refill size rs p).buffer) (Paging.refill size rs p) := by
  rcases Paging.refill_cases size rs p with ⟨hbuffer, -, hrefill⟩ | ⟨-, hrefill⟩
  · rw [hbuffer, List.append_nil] at h
    rw [hrefill]
    exact h.fetch hsize hrs
  · rw [hrefill]
    exact h

end Consistent

structure Tracks {σ γ : Type} [Store σ] [Cursor σ γ] (C : PagedCursor σ γ) (past : List Records)
    (got : List Record) (o : Reading σ γ) : Prop where
  ready : C.Ready o.store
  consistent : Consistent (past ++ [C.view o.store]) (got ++ (C.place o.place).buffer)
    (C.place o.place)

inductive Called {σ γ : Type} [Store σ] [Cursor σ γ] (C : PagedCursor σ γ) (past : List Records)
    (got : List Record) (o : Reading σ γ) : Prop
  | ended (hanswer : o.answer = none) (hbuffer : (C.place (o.act .next).place).buffer = [])
      (hexhausted : (C.place (o.act .next).place).exhausted = true)
      (hconsistent : Consistent past got (C.place (o.act .next).place))
  | served {r : Record} (hanswer : o.answer = some (.ok r))
      (hconsistent : Consistent past (got ++ r :: (C.place (o.act .next).place).buffer)
        (C.place (o.act .next).place))

namespace Tracks

variable {σ γ : Type} [Store σ] [Cursor σ γ] {C : PagedCursor σ γ} {past : List Records}
  {got : List Record} {o : Reading σ γ}

theorem called (h : Tracks C past got o) : Called C (past ++ [C.view o.store]) got o := by
  have hcurrent : C.view o.store ∈ past ++ [C.view o.store] :=
    List.mem_append_right _ List.mem_cons_self
  have hfilled := h.consistent.refill C.size_pos hcurrent
  obtain ⟨hitem, hplace⟩ := C.next h.ready o.place
  change o.answer = _ at hitem
  change C.place (o.act .next).place = _ at hplace
  rw [Paging.step] at hitem hplace
  cases hbuffer : (Paging.refill C.size (C.view o.store) (C.place o.place)).buffer with
  | nil =>
    rw [Paging.serve_of_nil hbuffer] at hitem hplace
    rw [hbuffer, List.append_nil] at hfilled
    refine .ended hitem ?_ ?_ ?_
    · rw [hplace, hbuffer]
    · rw [hplace, Paging.exhausted_of_refill C.size_pos hbuffer]
    · rw [hplace]
      exact hfilled
  | cons r rest =>
    rw [Paging.serve_of_cons hbuffer] at hitem hplace
    rw [hbuffer] at hfilled
    refine .served hitem ?_
    rw [hplace]
    exact ⟨hfilled.ascending, hfilled.last, hfilled.held, hfilled.pending⟩

theorem act (h : Tracks C past got o) (m : Move) :
    Tracks C (past ++ [C.view o.store]) (got ++ o.yielded m) (o.act m) := by
  cases m with
  | set key value =>
    refine ⟨C.ready_set h.ready key value, ?_⟩
    rw [Reading.yielded, List.append_nil]
    exact h.consistent.mono (List.subset_append_left _ _)
  | delete key =>
    refine ⟨C.ready_delete h.ready key, ?_⟩
    rw [Reading.yielded, List.append_nil]
    exact h.consistent.mono (List.subset_append_left _ _)
  | next =>
    refine ⟨h.ready, ?_⟩
    rw [Reading.yielded]
    cases h.called with
    | ended hanswer hbuffer hexhausted hconsistent =>
      rw [hanswer, hbuffer]
      simp only [List.append_nil]
      exact hconsistent.mono (List.subset_append_left _ _)
    | served hanswer hconsistent =>
      rw [hanswer, List.append_assoc got]
      exact hconsistent.mono (List.subset_append_left _ _)

theorem after (h : Tracks C past got o) (ms : List Move) :
    ∃ past', past' ++ [C.view (o.after ms).store] = past ++ o.moments C.view ms ∧
      Tracks C past' (got ++ o.returned ms) (o.after ms) := by
  induction ms generalizing past got o with
  | nil =>
    refine ⟨past, rfl, ?_⟩
    rw [Reading.returned, List.append_nil]
    exact h
  | cons m ms ih =>
    obtain ⟨past', hpast, htracks⟩ := ih (h.act m)
    refine ⟨past', ?_, ?_⟩
    · rw [Reading.moments, List.append_cons past]
      exact hpast
    · rw [Reading.returned, ← List.append_assoc]
      exact htracks

theorem of_opened {s : σ} (hready : C.Ready s) : Tracks C [] [] (Reading.opened s) := by
  refine ⟨hready, ?_⟩
  rw [Reading.opened, C.start]
  exact .of_start _

end Tracks

namespace Reading

section Ended

variable {σ γ : Type} [Store σ] [Cursor σ γ] {C : PagedCursor σ γ} {o : Reading σ γ}

structure Done (C : PagedCursor σ γ) (o : Reading σ γ) : Prop where
  ready : C.Ready o.store
  buffer : (C.place o.place).buffer = []
  exhausted : (C.place o.place).exhausted = true

theorem Done.step (h : Done C o) :
    Paging.step C.size (C.view o.store) (C.place o.place) = (none, C.place o.place) := by
  have hrefill : Paging.refill C.size (C.view o.store) (C.place o.place) = C.place o.place := by
    simp [Paging.refill, h.exhausted]
  rw [Paging.step, hrefill, Paging.serve_of_nil h.buffer]

theorem Done.answer (h : Done C o) : o.answer = none := by
  rw [Reading.answer, (C.next h.ready o.place).1, h.step]

theorem Done.act (h : Done C o) (m : Move) : Done C (o.act m) := by
  cases m with
  | set key value => exact ⟨C.ready_set h.ready key value, h.buffer, h.exhausted⟩
  | delete key => exact ⟨C.ready_delete h.ready key, h.buffer, h.exhausted⟩
  | next =>
    have hplace := (C.next h.ready o.place).2
    rw [h.step] at hplace
    refine ⟨h.ready, ?_, ?_⟩
    · exact (congrArg Table.Place.buffer hplace).trans h.buffer
    · exact (congrArg Table.Place.exhausted hplace).trans h.exhausted

theorem Done.after (h : Done C o) (ms : List Move) : Done C (o.after ms) := by
  induction ms generalizing o with
  | nil => exact h
  | cons m ms ih => exact ih (h.act m)

end Ended

/-- What a cursor opened on a store keeps to after any moves: what it has returned is in key order,
what it returns next was in the store at some moment since, and once it is at the end it has
returned all that was there at every moment and is at the end for good. -/
structure Reliable {σ γ : Type} [Store σ] [Cursor σ γ] (view : σ → Records) (s : σ)
    (ms : List Move) : Prop where
  ascending : Ascending ((opened s).returned ms)
  held : ∀ item, ((opened s).after ms).answer = some item →
    ∃ r, item = .ok r ∧ ∃ rs ∈ (opened s).moments view ms, rs.get? r.1 = some r.2
  complete : ((opened s).after ms).answer = none →
    ∀ key, (∀ rs ∈ (opened s).moments view ms, rs.contains key) →
      (((opened s).returned ms).map Prod.fst).count key = 1
  ended : ((opened s).after ms).answer = none →
    ∀ later, ((opened s).after (ms ++ .next :: later)).answer = none

theorem reliable_of_paged {σ γ : Type} [Store σ] [Cursor σ γ] (C : PagedCursor σ γ) {s : σ}
    (hready : C.Ready s) (ms : List Move) : Reliable C.view s ms := by
  obtain ⟨past, hpast, htracks⟩ := (Tracks.of_opened hready).after ms
  rw [List.nil_append] at hpast htracks
  have hcalled := htracks.called
  rw [hpast] at hcalled
  refine ⟨?_, ?_, ?_, ?_⟩
  · exact (List.pairwise_append.mp htracks.consistent.ascending).1
  · intro item hitem
    cases hcalled with
    | ended hanswer =>
      rw [hanswer] at hitem
      cases hitem
    | @served r hanswer hconsistent =>
      rw [hanswer] at hitem
      cases hitem
      exact ⟨r, rfl, hconsistent.held r (List.mem_append_right _ List.mem_cons_self)⟩
  · intro hend key hkey
    cases hcalled with
    | ended hanswer hbuffer hexhausted hconsistent =>
      apply List.count_eq_one_of_mem (OrderedMap.keys_nodup hconsistent.ascending)
      by_contra hmissed
      obtain ⟨hmore, -⟩ := hconsistent.pending key hkey hmissed
      rw [hexhausted] at hmore
      cases hmore
    | served hanswer =>
      rw [hend] at hanswer
      cases hanswer
  · intro hend later
    cases hcalled with
    | ended hanswer hbuffer hexhausted =>
      have hdone : Done C (((opened s).after ms).act .next) := ⟨htracks.ready, hbuffer, hexhausted⟩
      rw [after_append]
      exact (hdone.after later).answer
    | served hanswer =>
      rw [hend] at hanswer
      cases hanswer

theorem get?_of_answer {o : Reading MemoryStore MemoryStore.Place} {r : Record}
    (h : o.answer = some (.ok r)) : o.store.records.get? r.1 = some r.2 := by
  change (o.store.step o.place).1 = _ at h
  rw [MemoryStore.step] at h
  split at h
  · cases h
  · cases hrest : o.store.records.following o.place.last with
    | nil =>
      simp only [hrest] at h
      cases h
    | cons r' rest =>
      simp only [hrest] at h
      cases h
      have hmem : r ∈ o.store.records.following o.place.last := by
        rw [hrest]
        exact List.mem_cons_self
      exact (Records.mem_following.mp hmem).1

/-- Passes over stores in memory and over working tables are reliable, whatever is written in
between. -/
theorem reliable_among_writes (ms : List Move) :
    (∀ s : MemoryStore, Reliable MemoryStore.records s ms ∧
      ∀ r, ((opened s).after ms).answer = some (.ok r) →
        ((opened s).after ms).store.records.get? r.1 = some r.2) ∧
    (∀ t : Table, t.Working → Reliable (fun t => t.rows.records) t ms) := by
  constructor
  · intro s
    exact ⟨reliable_of_paged MemoryStore.pagedCursor trivial ms, fun r => get?_of_answer⟩
  · intro t ht
    exact reliable_of_paged Table.pagedCursor ht ms

def busy : Table :=
  ⟨"records.db", ⟨(OrderedMap.empty.insert [1] [10]).insert [3] [30], none⟩, false⟩

def lateWrites : List Move :=
  [.next, .set [2] [20], .set [3] [31], .delete [1], .next]

theorem reliable_among_lateWrites :
    busy.Working ∧ Reliable (fun t => t.rows.records) busy lateWrites ∧
      (opened busy).returned lateWrites = [([1], [10]), ([3], [30])] ∧
      (((opened busy).returned lateWrites).map Prod.fst).count [3] = 1 ∧
      ∀ later, ((opened busy).after (lateWrites ++ .next :: later)).answer = none := by
  have hworking : busy.Working := ⟨rfl, rfl⟩
  have hreliable := (reliable_among_writes lateWrites).2 busy hworking
  have hend : ((opened busy).after lateWrites).answer = none := by decide +kernel
  have hkept : ∀ rs ∈ (opened busy).moments (fun t => t.rows.records) lateWrites,
      rs.contains [3] := by decide +kernel
  exact ⟨hworking, hreliable, by decide +kernel, hreliable.complete hend [3] hkept,
    hreliable.ended hend⟩

end Reading

end TokenRegistry
