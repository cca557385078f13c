import TokenRegistry.Proofs.Genesis
import TokenRegistry.Proofs.Store.Reading

/-!
# What a registry tells of its records

All that is read off a registry is read off the same records in the same order. A
record is legible if its key is text and its value is that of a token. What is told of
the others depends on who asks: a list has an error in the place of every record that
is amiss, a name needs the key only, and sums and exports stop at the first record
that is not legible.
-/
namespace TokenRegistry

section Traversal

variable {ε α β : Type} {f : α → Except ε β} {xs : List α}

theorem mapM_eq_ok_iff {ys : List β} :
    xs.mapM f = .ok ys ↔ List.Forall₂ (fun x y => f x = .ok y) xs ys := by
  induction xs generalizing ys with
  | nil => simp [pure, Except.pure, eq_comm]
  | cons x xs ih =>
    rw [List.mapM_cons, List.forall₂_cons_left_iff]
    cases hx : f x with
    | error e => simp [bind, Except.bind]
    | ok y =>
      simp only [← ih]
      cases xs.mapM f with
      | error e => simp [bind, Except.bind]
      | ok ys' => simp [bind, Except.bind, pure, Except.pure, eq_comm]

theorem exists_of_mapM_eq_error {e : ε} (h : xs.mapM f = .error e) :
    ∃ good x rest, xs = good ++ x :: rest ∧ (∀ y ∈ good, ∃ b, f y = .ok b) ∧ f x = .error e := by
  induction xs with
  | nil => cases h
  | cons x xs ih =>
    rw [List.mapM_cons] at h
    cases hx : f x with
    | error e' =>
      rw [hx] at h
      cases h
      exact ⟨[], x, xs, rfl, fun y hy => absurd hy List.not_mem_nil, hx⟩
    | ok y =>
      rw [hx] at h
      cases hxs : xs.mapM f with
      | ok ys =>
        rw [hxs] at h
        cases h
      | error e' =>
        rw [hxs] at h
        cases h
        obtain ⟨good, x', rest, rfl, hgood, hx'⟩ := ih hxs
        exact ⟨x :: good, x', rest, rfl, List.forall_mem_cons.mpr ⟨⟨y, hx⟩, hgood⟩, hx'⟩

theorem isOk_mapM_iff : (xs.mapM f).isOk ↔ ∀ x ∈ xs, ∃ y, f x = .ok y := by
  induction xs with
  | nil => simp [pure, Except.pure, Except.isOk, Except.toBool]
  | cons x xs ih =>
    rw [List.mapM_cons, List.forall_mem_cons, ← ih]
    cases f x with
    | error e => simp [bind, Except.bind, Except.isOk, Except.toBool]
    | ok y =>
      cases xs.mapM f with
      | error e => simp [bind, Except.bind, Except.isOk, Except.toBool]
      | ok ys => simp [bind, Except.bind, pure, Except.pure, Except.isOk, Except.toBool]

theorem isOk_map {γ : Type} (x : Except ε α) (g : α → γ) : (x.map g).isOk = x.isOk := by
  cases x with
  | ok a => rfl
  | error e => rfl

end Traversal

namespace Registry

def Legible (e : Record) : Prop := ∃ slug t, e.1 = recordKey slug ∧ Token.decode e.2 = .ok t

/-- What is told of a record that is amiss: of its key first. -/
inductive Amiss (e : Record) : RegistryError → Prop
  | key (hkey : ∀ slug, e.1 ≠ recordKey slug) : Amiss e (.codec (Text.Utf8.lossy e.1) .key)
  | value {slug : String} {fault : Token.RecordFault} (hkey : e.1 = recordKey slug)
      (hdecode : Token.decode e.2 = .error fault) : Amiss e (.codec slug (.record fault))

theorem slugOfKey_eq_ok_iff {key : Bytes} {slug : String} :
    slugOfKey key = .ok slug ↔ key = recordKey slug := by
  rw [recordKey, ← Text.Utf8.toString?_eq_ok_iff, slugOfKey]
  cases Text.Utf8.toString? key with
  | ok slug' => simp
  | error e => simp

theorem slugOfKey_eq_error_iff {key : Bytes} {e : RegistryError} :
    slugOfKey key = .error e ↔
      (∀ slug, key ≠ recordKey slug) ∧ e = .codec (Text.Utf8.lossy key) .key := by
  cases hkey : slugOfKey key with
  | ok slug =>
    refine ⟨fun h => (nomatch h), fun h => absurd (slugOfKey_eq_ok_iff.mp hkey) (h.1 slug)⟩
  | error e' =>
    have hnone : ∀ slug, key ≠ recordKey slug := by
      intro slug heq
      rw [slugOfKey_eq_ok_iff.mpr heq] at hkey
      cases hkey
    have he : e' = .codec (Text.Utf8.lossy key) .key := by
      rw [slugOfKey] at hkey
      split at hkey
      · cases hkey
      · exact (Except.error.inj hkey).symm
    rw [he]
    exact ⟨fun h => ⟨hnone, (Except.error.inj h).symm⟩, fun h => congrArg Except.error h.2.symm⟩

theorem entryOfRecord_eq_ok_iff {e : Record} {slug : String} {t : Token} :
    entryOfRecord e = .ok (slug, t) ↔ e.1 = recordKey slug ∧ Token.decode e.2 = .ok t := by
  rw [← slugOfKey_eq_ok_iff, entryOfRecord]
  cases slugOfKey e.1 with
  | error err => simp [bind, Except.bind]
  | ok slug' =>
    cases Token.decode e.2 with
    | error fault => simp [bind, Except.bind]
    | ok t' => simp [bind, Except.bind, pure, Except.pure]

theorem amiss_of_entryOfRecord {e : Record} {err : RegistryError}
    (h : entryOfRecord e = .error err) : Amiss e err := by
  rw [entryOfRecord] at h
  cases hkey : slugOfKey e.1 with
  | error err' =>
    rw [hkey] at h
    cases h
    obtain ⟨hnone, rfl⟩ := slugOfKey_eq_error_iff.mp hkey
    exact .key hnone
  | ok slug =>
    rw [hkey] at h
    cases hdecode : Token.decode e.2 with
    | error fault =>
      simp only [bind, Except.bind, hdecode] at h
      cases h
      exact .value (slugOfKey_eq_ok_iff.mp hkey) hdecode
    | ok t =>
      simp only [bind, Except.bind, hdecode] at h
      cases h

section Passes

variable {σ α : Type}

theorem listPass_ok (read : Record → Except RegistryError α) (s : σ) (rs : List Record) :
    listPass read s (rs.map fun r => (.ok r, s)) = (rs.map read, s) := by
  induction rs with
  | nil => rfl
  | cons r rs ih => rw [List.map_cons, listPass, ih, readItem, List.map_cons]

theorem collectPass_ok (read : Record → Except RegistryError α) (s : σ) (rs : List Record) :
    collectPass read s (rs.map fun r => (.ok r, s)) = (rs.mapM read, s) := by
  induction rs with
  | nil => rfl
  | cons r rs ih =>
    rw [List.map_cons, collectPass, readItem, List.mapM_cons]
    cases read r with
    | error e => rfl
    | ok a =>
      simp only [ih]
      cases rs.mapM read with
      | error e => rfl
      | ok items => rfl

end Passes

section Questions

variable {σ τ α : Type} [Store σ] {r : Registry σ τ} {rs : Records}

theorem list_of_reads (h : Reads r.store rs) (read : Record → Except RegistryError α) :
    list read r = (.ok (rs.entries.map read), r) := by
  rw [list, h.scan, listPass_ok]

theorem collect_of_reads (h : Reads r.store rs) (read : Record → Except RegistryError α) :
    collect read r = (rs.entries.mapM read, r) := by
  rw [collect, h.scan, collectPass_ok]

theorem get_of_reads (h : Reads r.store rs) (key : Bytes) :
    onStore (Store.get key) r = (.ok (rs.get? key), r) := by
  rw [onStore, h.get]
  rfl

theorem contains_of_reads (h : Reads r.store rs) (slug : String) :
    contains slug r = (.ok (rs.contains (recordKey slug)), r) := by
  rw [contains, onStore, h.has]
  rfl

theorem find?_of_decode (h : Reads r.store rs) {slug : String} {bytes : Bytes} {t : Token}
    (hget : rs.get? (recordKey slug) = some bytes) (hdecode : Token.decode bytes = .ok t) :
    find? slug r = (.ok (some t), r) := by
  have hstore := get_of_reads h (recordKey slug)
  rw [hget] at hstore
  exact find?_of_decode_eq_ok hstore hdecode

theorem find?_of_decode_error (h : Reads r.store rs) {slug : String} {bytes : Bytes}
    {e : Token.RecordFault} (hget : rs.get? (recordKey slug) = some bytes)
    (hdecode : Token.decode bytes = .error e) :
    find? slug r = (.error (.codec slug (.record e)), r) := by
  have hstore := get_of_reads h (recordKey slug)
  rw [hget] at hstore
  exact find?_of_decode_eq_error hstore hdecode

theorem find?_of_missing (h : Reads r.store rs) {slug : String}
    (hget : rs.get? (recordKey slug) = none) : ∃ r', find? slug r = (.ok none, r') := by
  have hstore := get_of_reads h (recordKey slug)
  rw [hget] at hstore
  exact ⟨_, Attempt.bind_of_ok hstore⟩

inductive SlugItem (key : Bytes) : Except RegistryError String → Prop
  | text {slug : String} (hkey : key = recordKey slug) : SlugItem key (.ok slug)
  | noText (hkey : ∀ slug, key ≠ recordKey slug) :
      SlugItem key (.error (.codec (Text.Utf8.lossy key) .key))

/-- What a list of tokens has in the place of a key: what is found under it, if it is text. -/
inductive EntryItem (r : Registry σ τ) (key : Bytes) :
    Except RegistryError (String × Token) → Prop
  | token {slug : String} {t : Token} (hkey : key = recordKey slug)
      (hfind : (find? slug r).1 = .ok (some t)) : EntryItem r key (.ok (slug, t))
  | undecodable {slug : String} {e : Undecodable} (hkey : key = recordKey slug)
      (hfind : (find? slug r).1 = .error (.codec slug e)) : EntryItem r key (.error (.codec slug e))
  | noText (hkey : ∀ slug, key ≠ recordKey slug) :
      EntryItem r key (.error (.codec (Text.Utf8.lossy key) .key))

theorem slugItem (key : Bytes) : SlugItem key (slugOfKey key) := by
  cases hkey : slugOfKey key with
  | ok slug => exact .text (slugOfKey_eq_ok_iff.mp hkey)
  | error e =>
    obtain ⟨hnone, rfl⟩ := slugOfKey_eq_error_iff.mp hkey
    exact .noText hnone

theorem entryItem (h : Reads r.store rs) {e : Record} (he : e ∈ rs.entries) :
    EntryItem r e.1 (entryOfRecord e) := by
  have hget := (rs.get?_eq_some_iff e.1 e.2).mpr he
  cases hread : entryOfRecord e with
  | ok entry =>
    obtain ⟨slug, t⟩ := entry
    obtain ⟨hkey, hdecode⟩ := entryOfRecord_eq_ok_iff.mp hread
    rw [hkey] at hget
    exact .token hkey (congrArg Prod.fst (find?_of_decode h hget hdecode))
  | error err =>
    cases amiss_of_entryOfRecord hread with
    | key hnone => exact .noText hnone
    | value hkey hdecode =>
      rw [hkey] at hget
      exact .undecodable hkey (congrArg Prod.fst (find?_of_decode_error h hget hdecode))

theorem listTokens_of_reads (h : Reads r.store rs) :
    (listTokens r).1 = rs.keys.mapM slugOfKey := by
  rw [listTokens, collect_of_reads h, OrderedMap.keys, List.mapM_map]
  rfl

theorem isOk_listTokens_iff (h : Reads r.store rs) :
    (listTokens r).1.isOk ↔ ∀ key ∈ rs.keys, ∃ slug, key = recordKey slug := by
  rw [listTokens_of_reads h, isOk_mapM_iff]
  simp only [slugOfKey_eq_ok_iff]

theorem keys_of_listTokens (h : Reads r.store rs) {names : List String}
    (hnames : (listTokens r).1 = .ok names) : names.map recordKey = rs.keys := by
  simp only [listTokens_of_reads h, mapM_eq_ok_iff, slugOfKey_eq_ok_iff] at hnames
  have heq := List.forall₂_map_right_iff.mpr hnames
  rw [List.forall₂_eq_eq_eq] at heq
  exact heq.symm

theorem map_allTokens_of_reads {β : Type} (h : Reads r.store rs)
    (f : List (String × Token) → β) :
    (allTokens >>= fun es => pure (f es)) r = ((rs.entries.mapM entryOfRecord).map f, r) := by
  have hall := collect_of_reads h entryOfRecord
  cases hread : rs.entries.mapM entryOfRecord with
  | error e =>
    rw [hread] at hall
    exact Attempt.bind_of_error hall
  | ok es =>
    rw [hread] at hall
    exact Attempt.bind_of_ok hall

theorem totalSupply_of_reads (h : Reads r.store rs) :
    totalSupply r =
      ((rs.entries.mapM entryOfRecord).map fun es => (es.map fun e => e.2.amount).sum, r) := by
  refine (map_allTokens_of_reads h _).trans ?_
  simp only [List.sum, List.foldr_map]

theorem exportGenesis_of_reads (h : Reads r.store rs) :
    exportGenesis r = ((rs.entries.mapM entryOfRecord).map fun es => ⟨es.map Prod.snd⟩, r) :=
  map_allTokens_of_reads h _

theorem legible_iff {e : Record} : Legible e ↔ ∃ entry, entryOfRecord e = .ok entry := by
  simp only [Legible, Prod.exists, entryOfRecord_eq_ok_iff]

theorem found_of_entries (h : Reads r.store rs) {es : List (String × Token)}
    (hread : rs.entries.mapM entryOfRecord = .ok es) :
    ∀ x ∈ es, (find? x.1 r).1 = .ok (some x.2) := by
  have hall := (List.forall₂_and_left _ _).mpr ⟨fun _ he => he, mapM_eq_ok_iff.mp hread⟩
  have hfound : List.Forall₂ (fun x _ => (find? x.1 r).1 = .ok (some x.2) ∧ True) es rs.entries := by
    refine List.Forall₂.flip (hall.imp ?_)
    rintro e ⟨slug, t⟩ ⟨he, hentry⟩
    obtain ⟨hkey, hdecode⟩ := entryOfRecord_eq_ok_iff.mp hentry
    have hget := (rs.get?_eq_some_iff e.1 e.2).mpr he
    rw [hkey] at hget
    exact ⟨congrArg Prod.fst (find?_of_decode h hget hdecode), trivial⟩
  exact ((List.forall₂_and_left _ _).mp hfound).1

theorem listTokens_of_entries (h : Reads r.store rs) {es : List (String × Token)}
    (hread : rs.entries.mapM entryOfRecord = .ok es) :
    (listTokens r).1 = .ok (es.map Prod.fst) := by
  rw [listTokens_of_reads h, mapM_eq_ok_iff, OrderedMap.keys, List.forall₂_map_left_iff,
    List.forall₂_map_right_iff]
  refine (mapM_eq_ok_iff.mp hread).imp ?_
  rintro e ⟨slug, t⟩ hentry
  exact slugOfKey_eq_ok_iff.mpr (entryOfRecord_eq_ok_iff.mp hentry).1

theorem exists_first_amiss (h : Reads r.store rs) (hnot : ¬ ∀ e ∈ rs.entries, Legible e) :
    ∃ good e rest err, rs.entries = good ++ e :: rest ∧ (∀ x ∈ good, Legible x) ∧ Amiss e err ∧
      (totalSupply r).1 = .error err ∧ (exportGenesis r).1 = .error err := by
  simp only [legible_iff, ← isOk_mapM_iff] at hnot
  cases hread : rs.entries.mapM entryOfRecord with
  | ok es =>
    rw [hread] at hnot
    exact absurd rfl hnot
  | error err =>
    obtain ⟨good, e, rest, hsplit, hgood, herror⟩ := exists_of_mapM_eq_error hread
    refine ⟨good, e, rest, err, hsplit, fun x hx => legible_iff.mpr (hgood x hx),
      amiss_of_entryOfRecord herror, ?_, ?_⟩
    · rw [totalSupply_of_reads h, hread]
      rfl
    · rw [exportGenesis_of_reads h, hread]
      rfl

theorem agree_of_export (h : Reads r.store rs) {g : Genesis} (hexport : (exportGenesis r).1 = .ok g) :
    (totalSupply r).1 = .ok (g.tokens.map Token.amount).sum ∧
      ∃ names, (listTokens r).1 = .ok names ∧
        List.Forall₂ (fun slug t => (find? slug r).1 = .ok (some t)) names g.tokens := by
  rw [exportGenesis_of_reads h] at hexport
  cases hread : rs.entries.mapM entryOfRecord with
  | error err =>
    rw [hread] at hexport
    cases hexport
  | ok es =>
    rw [hread] at hexport
    cases hexport
    refine ⟨?_, es.map Prod.fst, listTokens_of_entries h hread, ?_⟩
    · rw [totalSupply_of_reads h, hread, List.map_map]
      rfl
    · rw [List.forall₂_map_left_iff, List.forall₂_map_right_iff, List.forall₂_same]
      exact found_of_entries h hread

theorem mapM_entryOfRecord [Slug.Spelling] {ts : List Token}
    (hentries : rs.entries = ts.map Token.entry)
    (hdecode : ∀ t ∈ ts, Token.decode t.encode = .ok t) :
    rs.entries.mapM entryOfRecord = .ok (ts.map fun t => (t.slug, t)) := by
  rw [hentries, mapM_eq_ok_iff, List.forall₂_map_left_iff, List.forall₂_map_right_iff,
    List.forall₂_same]
  intro t ht
  exact entryOfRecord_eq_ok_iff.mpr ⟨rfl, hdecode t ht⟩

theorem exportGenesis_of_entries [Slug.Spelling] (h : Reads r.store rs) {ts : List Token}
    (hentries : rs.entries = ts.map Token.entry)
    (hdecode : ∀ t ∈ ts, Token.decode t.encode = .ok t) : exportGenesis r = (.ok ⟨ts⟩, r) := by
  have htokens : (ts.map fun t => (t.slug, t)).map Prod.snd = ts := by
    rw [List.map_map]
    exact List.map_id ts
  rw [exportGenesis_of_reads h, mapM_entryOfRecord hentries hdecode, Except.map, htokens]

/-- What a registry tells of records of which any may be amiss. -/
structure Surveyed (r : Registry σ τ) (rs : Records) : Prop where
  ascending : rs.keys.Pairwise (· < ·)
  slugs : ∃ items, slugs r = (.ok items, r) ∧ List.Forall₂ SlugItem rs.keys items
  entries : ∃ items, entries r = (.ok items, r) ∧ List.Forall₂ (EntryItem r) rs.keys items
  listed : (listTokens r).1.isOk ↔ ∀ key ∈ rs.keys, ∃ slug, key = recordKey slug
  names : ∀ names, (listTokens r).1 = .ok names → names.map recordKey = rs.keys
  summed : (totalSupply r).1.isOk ↔ ∀ e ∈ rs.entries, Legible e
  exported : (exportGenesis r).1.isOk ↔ ∀ e ∈ rs.entries, Legible e
  amiss : (¬ ∀ e ∈ rs.entries, Legible e) → ∃ good e rest err,
    rs.entries = good ++ e :: rest ∧ (∀ x ∈ good, Legible x) ∧ Amiss e err ∧
      (totalSupply r).1 = .error err ∧ (exportGenesis r).1 = .error err
  agree : ∀ g, (exportGenesis r).1 = .ok g →
    (totalSupply r).1 = .ok (g.tokens.map Token.amount).sum ∧
      ∃ names, (listTokens r).1 = .ok names ∧
        List.Forall₂ (fun slug t => (find? slug r).1 = .ok (some t)) names g.tokens

end Questions

/-- Whatever bytes are in a store that can be read, all that is told of them fits together. -/
theorem surveyed_of_readable {τ : Type} {r : Registry OpenStore τ}
    (hreadable : r.store.Readable) : Surveyed r r.store.asMemory.records := by
  have h := hreadable.reads
  generalize r.store.asMemory.records = rs at h
  refine ⟨List.pairwise_map.mpr rs.ascending, ⟨_, list_of_reads h _, ?_⟩,
    ⟨_, list_of_reads h _, ?_⟩, isOk_listTokens_iff h, fun _ => keys_of_listTokens h, ?_, ?_,
    exists_first_amiss h, fun _ => agree_of_export h⟩
  · rw [OrderedMap.keys, List.forall₂_map_left_iff, List.forall₂_map_right_iff, List.forall₂_same]
    exact fun e _ => slugItem e.1
  · rw [OrderedMap.keys, List.forall₂_map_left_iff, List.forall₂_map_right_iff, List.forall₂_same]
    exact fun e he => entryItem h he
  · rw [totalSupply_of_reads h, isOk_map, isOk_mapM_iff]
    simp only [legible_iff]
  · rw [exportGenesis_of_reads h, isOk_map, isOk_mapM_iff]
    simp only [legible_iff]

def damaged : Records :=
  ((OrderedMap.insert ∅ (recordKey "ore") (Token.encode ⟨"Ore", 5, ⟨[1]⟩⟩)).insert
    (recordKey "tin") [0]).insert [0xFF] []

def archive : Registry OpenStore Balances :=
  ⟨.table ⟨"archive.db", ⟨damaged, none⟩, true⟩, .empty, .standard, []⟩

theorem surveyed_of_archive :
    archive.store.Readable ∧ Surveyed archive damaged ∧
      (slugs archive).1 = .ok [.ok "ore", .ok "tin", .error (.codec "\uFFFD" .key)] ∧
      (totalSupply archive).1 = .error (.codec "tin" (.record .endInLength)) := by
  refine ⟨rfl, surveyed_of_readable (r := archive) rfl, ?_, ?_⟩
  · decide +kernel
  · decide +kernel

end Registry

end TokenRegistry
