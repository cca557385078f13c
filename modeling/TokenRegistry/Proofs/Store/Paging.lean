import TokenRegistry.Proofs.Store.Working

/-!
# Cursors that fetch pages

The cursor of a working table fetches a page of rows when it has served the last, and
the cursor of a store in memory does the same with pages of one record. So what is
shown of cursors with pages of any size holds of both.
-/
namespace TokenRegistry

def Beyond (last : Option Bytes) (key : Bytes) : Prop := ∀ k, last = some k → k < key

namespace Records

variable {rs : Records} {last : Option Bytes}

theorem mem_following {r : Record} :
    r ∈ rs.following last ↔ rs.get? r.1 = some r.2 ∧ Beyond last r.1 := by
  rw [OrderedMap.get?_eq_some_iff]
  cases last with
  | none => simp [following, Beyond]
  | some k => simp [following, Beyond, OrderedMap.mem_after_iff]

theorem ascending_following (rs : Records) (last : Option Bytes) :
    Ascending (rs.following last) := by
  cases last with
  | none => exact rs.ascending
  | some k => exact rs.ascending.sublist List.filter_sublist

theorem following_of_append {page rest : List Record} (h : rs.following last = page ++ rest) :
    rs.following ((page.getLast?.map (·.1)).or last) = rest := by
  induction page generalizing last with
  | nil => exact h
  | cons r page ih =>
    have hnext := ih (rs.following_of_following h)
    cases page with
    | nil => exact hnext
    | cons r' page => exact hnext

end Records

namespace Paging

open Table (Place serve)

def fetch (size : Nat) (rs : Records) (p : Place) : Place :=
  let page := (rs.following p.last).take size
  ⟨(page.getLast?.map (·.1)).or p.last, page, page.length < size⟩

def refill (size : Nat) (rs : Records) (p : Place) : Place :=
  if p.buffer.isEmpty && !p.exhausted then fetch size rs p else p

def step (size : Nat) (rs : Records) (p : Place) : Option (Except StoreError Record) × Place :=
  serve (refill size rs p)

def remaining (rs : Records) (p : Place) : List Record :=
  p.buffer ++ if p.exhausted then [] else rs.following p.last

variable {size : Nat} {rs : Records} {p : Place}

theorem refill_cases (size : Nat) (rs : Records) (p : Place) :
    (p.buffer = [] ∧ p.exhausted = false ∧ refill size rs p = fetch size rs p) ∨
      ((p.buffer = [] → p.exhausted = true) ∧ refill size rs p = p) := by
  rw [refill]
  split
  · rename_i hneeds
    simp only [Bool.and_eq_true, List.isEmpty_iff, Bool.not_eq_true'] at hneeds
    exact .inl ⟨hneeds.1, hneeds.2, rfl⟩
  · rename_i hfull
    refine .inr ⟨?_, rfl⟩
    intro hbuffer
    rw [hbuffer] at hfull
    simpa using hfull

theorem remaining_fetch (hbuffer : p.buffer = []) (hexhausted : p.exhausted = false) :
    remaining rs (fetch size rs p) = remaining rs p := by
  have hsplit := List.take_append_drop size (rs.following p.last)
  simp only [remaining, fetch, hbuffer, hexhausted, decide_eq_true_eq, Bool.false_eq_true, if_false,
    List.nil_append]
  split
  · -- A short page is the last one: nothing follows it.
    rename_i hshort
    have hall : (rs.following p.last).length ≤ size := by
      rw [List.length_take] at hshort
      omega
    rw [List.take_of_length_le hall, List.append_nil]
  · rw [Records.following_of_append hsplit.symm]
    exact hsplit

theorem remaining_refill (size : Nat) (rs : Records) (p : Place) :
    remaining rs (refill size rs p) = remaining rs p := by
  rcases refill_cases size rs p with ⟨hbuffer, hexhausted, hrefill⟩ | ⟨-, hrefill⟩
  · rw [hrefill, remaining_fetch hbuffer hexhausted]
  · rw [hrefill]

theorem exhausted_of_refill (hsize : 0 < size) (h : (refill size rs p).buffer = []) :
    (refill size rs p).exhausted = true := by
  rcases refill_cases size rs p with ⟨-, -, hrefill⟩ | ⟨hfull, hrefill⟩
  · rw [hrefill] at h ⊢
    have hpage : (rs.following p.last).take size = [] := h
    simpa [fetch, hpage] using hsize
  · rw [hrefill] at h ⊢
    exact hfull h

theorem serve_of_nil (h : p.buffer = []) : serve p = (none, p) := by
  rw [serve, h]

theorem serve_of_cons {r : Record} {rest : List Record} (h : p.buffer = r :: rest) :
    serve p = (some (.ok r), { p with buffer := rest }) := by
  rw [serve, h]

theorem step_of_nil (h : remaining rs p = []) :
    (step size rs p).1 = none := by
  have hrest := remaining_refill size rs p
  rw [h] at hrest
  rw [step, serve_of_nil (List.append_eq_nil_iff.mp hrest).1]

theorem step_of_cons (hsize : 0 < size) {r : Record} {rest : List Record}
    (h : remaining rs p = r :: rest) :
    (step size rs p).1 = some (.ok r) ∧ remaining rs (step size rs p).2 = rest := by
  have hrest := remaining_refill size rs p
  rw [h] at hrest
  rw [step]
  cases hbuffer : (refill size rs p).buffer with
  | nil =>
    rw [remaining, hbuffer, exhausted_of_refill hsize hbuffer] at hrest
    cases hrest
  | cons r' rest' =>
    rw [remaining, hbuffer] at hrest
    obtain ⟨hr, htail⟩ := List.cons.inj hrest
    rw [serve_of_cons hbuffer, hr]
    exact ⟨rfl, htail⟩

end Paging

/-- A cursor that fetches pages, as long as the store is ready. -/
structure PagedCursor (σ γ : Type) [Store σ] [Cursor σ γ] where
  view : σ → Records
  Ready : σ → Prop
  size : Nat
  size_pos : 0 < size
  place : γ → Table.Place
  start : place (Cursor.start σ) = ⟨none, [], false⟩
  next {s : σ} (hready : Ready s) (c : γ) :
    (Cursor.next s c).1 = (Paging.step size (view s) (place c)).1 ∧
      place (Cursor.next s c).2 = (Paging.step size (view s) (place c)).2
  ready_set {s : σ} (hready : Ready s) (key value : Bytes) : Ready (Store.set key value s).2
  ready_delete {s : σ} (hready : Ready s) (key : Bytes) : Ready (Store.delete key s).2

def MemoryStore.Place.paged (p : MemoryStore.Place) : Table.Place := ⟨p.last, [], p.done⟩

theorem MemoryStore.step_paged (s : MemoryStore) (p : Place) :
    (s.step p).1 = (Paging.step 1 s.records p.paged).1 ∧
      (s.step p).2.paged = (Paging.step 1 s.records p.paged).2 := by
  obtain ⟨last, done⟩ := p
  cases done with
  | true => exact ⟨rfl, rfl⟩
  | false =>
    cases hrest : s.records.following last with
    | nil => simp [MemoryStore.step, Paging.step, Paging.refill, Paging.fetch, Place.paged,
        Table.serve, hrest]
    | cons r rest => simp [MemoryStore.step, Paging.step, Paging.refill, Paging.fetch, Place.paged,
        Table.serve, hrest]

def MemoryStore.pagedCursor : PagedCursor MemoryStore MemoryStore.Place where
  view := MemoryStore.records
  Ready _ := True
  size := 1
  size_pos := Nat.one_pos
  place := MemoryStore.Place.paged
  start := rfl
  next _ c := MemoryStore.step_paged _ c
  ready_set _ _ _ := trivial
  ready_delete _ _ := trivial

theorem Table.step_of_working {t : Table} (h : t.Working) (p : Place) :
    t.step p = Paging.step pageSize t.rows.records p := by
  rw [Table.step, Paging.step, Paging.refill, h.1]
  split
  · rfl
  · rfl

def Table.pagedCursor : PagedCursor Table Table.Place where
  view t := t.rows.records
  Ready := Table.Working
  size := pageSize
  size_pos := by decide
  place := id
  start := rfl
  next hready c := by
    have hstep := Table.step_of_working hready c
    exact ⟨congrArg Prod.fst hstep, congrArg Prod.snd hstep⟩
  ready_set hready key value := (Table.simulated_set key value _ hready).2
  ready_delete hready key := (Table.simulated_delete key _ hready).2

namespace PagedCursor

variable {σ γ : Type} [Store σ] [Cursor σ γ] (C : PagedCursor σ γ) {s : σ}

theorem drain_eq (hready : C.Ready s) {n : Nat} {c : γ}
    (hn : (Paging.remaining (C.view s) (C.place c)).length < n) :
    Cursor.drain s n c = (Paging.remaining (C.view s) (C.place c)).map .ok := by
  induction n generalizing c with
  | zero => exact absurd hn (Nat.not_lt_zero _)
  | succ n ih =>
    obtain ⟨hitem, hplace⟩ := C.next hready c
    rw [Cursor.drain]
    cases hrest : Paging.remaining (C.view s) (C.place c) with
    | nil =>
      rw [Paging.step_of_nil hrest] at hitem
      generalize Cursor.next s c = answer at hitem
      obtain ⟨item, c'⟩ := answer
      cases hitem
      rfl
    | cons r rest =>
      obtain ⟨hserved, hremains⟩ := Paging.step_of_cons C.size_pos hrest
      rw [hserved] at hitem
      rw [← hplace] at hremains
      have htail := @ih (Cursor.next s c).2
      rw [hremains] at htail
      rw [hrest, List.length_cons] at hn
      generalize Cursor.next s c = answer at hitem htail
      obtain ⟨item, c'⟩ := answer
      cases hitem
      exact congrArg (Except.ok r :: ·) (htail (Nat.lt_of_succ_lt_succ hn))

theorem drain_start (hready : C.Ready s) :
    Cursor.drain s ((C.view s).size + 1) (Cursor.start σ) =
      (C.view s).entries.map .ok := by
  have hall : Paging.remaining (C.view s) (C.place (Cursor.start σ)) = (C.view s).entries := by
    rw [C.start]
    rfl
  rw [C.drain_eq hready, hall]
  rw [hall]
  exact Nat.lt_succ_self _

end PagedCursor

end TokenRegistry
