import CodeAtlas.Proofs.Cache.Reliable

/-! What a cache does through a store that does not fail. The store can be asked for the entries
that it holds, and a call that removes some of them leaves exactly the others, unchanged. Whatever
calls are made, the store stays one that tells what was last written. -/

namespace CodeAtlas

variable {σ : Type} {store : Store σ} {start : σ} {admits : CacheEntry → Prop}
  {form : CacheEntry → CacheEntry} {found : String → Option CacheEntry} {s : CacheState σ}

/-- The store holds these entries, each under its own key, and lists them in this order. -/
structure Store.Lists (store : Store σ) (place : σ) (entries : List CacheEntry) : Prop where
  keys : (store.keys place).1 = .ok (entries.map (·.key))
  nodup : (entries.map (·.key)).Nodup
  shows : ∀ entry ∈ entries, store.Shows place entry.key entry

namespace Cache

open Store (IsKey Holding)

/-- The entries that are read under some keys. -/
def readAs (form : CacheEntry → CacheEntry) (found : String → Option CacheEntry)
    (keys : List String) : List CacheEntry :=
  keys.filterMap fun key => (found key).map form

theorem surplus_subset (limit : Nat) (entries : List CacheEntry) :
    surplus limit entries ⊆ entries :=
  fun _ hm => List.mem_mergeSort.mp (List.mem_of_mem_take hm)

variable (hr : store.Reliable start admits form)
include hr

/-! ## Uses of the store -/

theorem holding_readAll {keys : List String} (hkeys : ∀ key ∈ keys, IsKey key)
    (h : store.Holding start admits s.place found) :
    ∃ place, readAll store keys s = (readAs form found keys, ⟨place, s.counters⟩) ∧
      store.Holding start admits place found := by
  induction keys generalizing s with
  | nil => exact ⟨s.place, rfl, h⟩
  | cons key keys ih =>
      obtain ⟨hkey, hrest⟩ := List.forall_mem_cons.mp hkeys
      obtain ⟨place, hread, hplace⟩ := h.call_read hr hkey
      obtain ⟨last, hentries, hlast⟩ := ih (s := ⟨place, s.counters⟩) hrest hplace
      refine ⟨last, ?_, hlast⟩
      simp only [readAll, hread, hentries, Option.join_some, readAs]
      cases hfound : found key <;> simp [hfound]

theorem holding_entries (h : store.Holding start admits s.place found) :
    ∃ keys place, entries store s = (readAs form found keys, ⟨place, s.counters⟩) ∧
      (store.keys s.place).1 = .ok keys ∧ keys.Nodup ∧ (∀ key, key ∈ keys ↔ (found key).isSome) ∧
        store.Holding start admits place found := by
  obtain ⟨keys, place, hcall, hlist, hn, hmem, hplace⟩ := h.call_keys hr
  have hkeys : ∀ key ∈ keys, IsKey key := by
    intro key hm
    obtain ⟨entry, hfound⟩ := Option.isSome_iff_exists.mp ((hmem key).mp hm)
    exact (h.of_found hfound).2.1
  obtain ⟨last, hread, hlast⟩ := holding_readAll hr (s := ⟨place, s.counters⟩) hkeys hplace
  refine ⟨keys, last, ?_, hlist, hn, hmem, hlast⟩
  simp only [entries, hcall, Option.getD_some, hread]

theorem holding_removeEach {keys : List String} (hkeys : ∀ key ∈ keys, IsKey key)
    (h : store.Holding start admits s.place found) :
    ∃ count place, removeEach store keys s = (count, ⟨place, s.counters⟩) ∧
      (keys.Nodup → count = keys.countP fun key => (found key).isSome) ∧
        store.Holding start admits place fun key => if key ∈ keys then none else found key := by
  induction keys generalizing s found with
  | nil => exact ⟨0, s.place, rfl, fun _ => rfl, by simpa using h⟩
  | cons key keys ih =>
      obtain ⟨hkey, hrest⟩ := List.forall_mem_cons.mp hkeys
      obtain ⟨place, hdelete, hplace⟩ := h.call_delete hr hkey
      obtain ⟨count, last, hcalls, hcount, hlast⟩ :=
        ih (s := ⟨place, s.counters⟩) hrest hplace
      refine ⟨count + if (found key).isSome then 1 else 0, last, ?_, ?_, ?_⟩
      · simp only [removeEach, hdelete, hcalls]
        cases (found key).isSome <;> rfl
      · intro hn
        obtain ⟨hnew, hn⟩ := List.nodup_cons.mp hn
        -- The first key is not among the others, which are found as they were before.
        have hsame : keys.countP (fun other => (if other = key then none else found other).isSome) =
            keys.countP fun other => (found other).isSome := by
          refine List.countP_congr fun other hm => ?_
          rw [if_neg (ne_of_mem_of_not_mem hm hnew)]
        rw [hcount hn, hsame, List.countP_cons]
      · convert hlast using 2 with other
        by_cases hother : other = key <;> simp [hother]

theorem holding_removeAll {keys : List String} (hkeys : ∀ key ∈ keys, IsKey key)
    (h : store.Holding start admits s.place found) :
    ∃ count place,
      removeAll store keys s =
        (count, ⟨place, { s.counters with deletes := s.counters.deletes + count }⟩) ∧
      (keys.Nodup → count = keys.countP fun key => (found key).isSome) ∧
        store.Holding start admits place fun key => if key ∈ keys then none else found key := by
  obtain ⟨count, place, heach, hcount, hplace⟩ := holding_removeEach hr hkeys h
  exact ⟨count, place, by simp only [removeAll, heach, CacheState.countDeletes], hcount, hplace⟩

/-! ## The entries of the store -/

section Entries

variable (h : store.Holding start admits s.place found)
include h

theorem isKey_of_mem_readAs {keys : List String}
    {entry : CacheEntry} (hm : entry ∈ readAs form found keys) : IsKey entry.key := by
  obtain ⟨key, -, hread⟩ := List.mem_filterMap.mp hm
  obtain ⟨written, hfound, rfl⟩ := Option.map_eq_some_iff.mp hread
  obtain ⟨hkey, hvalid, -, -⟩ := h.of_found hfound
  rwa [hr.key_form, hkey]

theorem mem_readAs {keys : List String} (hkeys : ∀ key, key ∈ keys ↔ (found key).isSome)
    {entry : CacheEntry} :
    entry ∈ readAs form found keys ↔ (found entry.key).map form = some entry := by
  rw [readAs, List.mem_filterMap]
  constructor
  · rintro ⟨key, -, hread⟩
    obtain ⟨written, hfound, rfl⟩ := Option.map_eq_some_iff.mp hread
    rwa [hr.key_form, (h.of_found hfound).1]
  · intro hread
    obtain ⟨written, hfound, -⟩ := Option.map_eq_some_iff.mp hread
    exact ⟨entry.key, (hkeys _).mpr (Option.isSome_of_eq_some hfound), hread⟩

theorem map_key_readAs {keys : List String} (hkeys : ∀ key ∈ keys, (found key).isSome) :
    (readAs form found keys).map (·.key) = keys := by
  have hread : ∀ key ∈ keys, ((found key).map form).map (·.key) = some key := by
    intro key hm
    obtain ⟨entry, hfound⟩ := Option.isSome_iff_exists.mp (hkeys key hm)
    rw [hfound, Option.map_some, Option.map_some, hr.key_form, (h.of_found hfound).1]
  calc (readAs form found keys).map (·.key)
      = keys.filterMap fun key => ((found key).map form).map (·.key) := List.map_filterMap
    _ = keys.filterMap some := List.filterMap_congr hread
    _ = keys := List.filterMap_some

theorem lists_readAs {keys : List String} (hlist : (store.keys s.place).1 = .ok keys)
    (hn : keys.Nodup) (hkeys : ∀ key, key ∈ keys ↔ (found key).isSome) :
    store.Lists s.place (readAs form found keys) := by
  have hmap := map_key_readAs hr h fun key hm => (hkeys key).mp hm
  refine ⟨by rw [hmap, hlist], by rwa [hmap], ?_⟩
  intro entry hm
  obtain ⟨written, hfound, hform⟩ := Option.map_eq_some_iff.mp ((mem_readAs hr h hkeys).mp hm)
  rw [Store.Shows, (h.answers hr).read_some _ _ (h.of_found hfound).2.1 hfound, hform]
  rfl

end Entries

/-- The place is reached by calls with admitted entries. -/
abbrev Reached (store : Store σ) (start : σ) (admits : CacheEntry → Prop) (place : σ) : Prop :=
  ∃ found, store.Holding start admits place found

/-- Removing some of the entries that can be read leaves the others. -/
theorem holding_removeEntries (h : Reached store start admits s.place)
    (pick : List CacheEntry → List CacheEntry) (hpick : ∀ all, pick all ⊆ all) :
    ∃ count place,
      removeAll store ((pick (entries store s).1).map (·.key)) (entries store s).2 =
        (count, ⟨place, { s.counters with deletes := s.counters.deletes + count }⟩) ∧
      Reached store start admits place ∧
      ∃ entries kept, store.Lists s.place entries ∧ store.Lists place kept ∧
        (((pick entries).map (·.key)).Nodup → count = (pick entries).length) ∧
          ∀ entry, entry ∈ kept ↔ entry ∈ entries ∧ entry ∉ pick entries := by
  obtain ⟨found, h⟩ := h
  obtain ⟨keys, place, hentries, hlist, hn, hkeys, hplace⟩ := holding_entries hr h
  rw [hentries]
  have hgone : ∀ key ∈ (pick (readAs form found keys)).map (·.key), IsKey key := by
    intro key hm
    obtain ⟨entry, hentry, rfl⟩ := List.mem_map.mp hm
    exact isKey_of_mem_readAs hr h (hpick _ hentry)
  have hmap := map_key_readAs hr h fun key hm => (hkeys key).mp hm
  obtain ⟨count, last, hremove, hcount, hlast⟩ :=
    holding_removeAll (s := ⟨place, s.counters⟩) hr hgone hplace
  obtain ⟨left, -, -, hleft, hleftn, hleftkeys, -⟩ :=
    Holding.call_keys (s := ⟨last, s.counters⟩) hr hlast
  have hlists := lists_readAs hr h hlist hn hkeys
  refine ⟨count, last, hremove, ⟨_, hlast⟩, readAs form found keys, readAs form _ left, hlists,
    lists_readAs (s := ⟨last, s.counters⟩) hr hlast hleft hleftn hleftkeys, ?_, ?_⟩
  · intro hpicked
    rw [hcount hpicked, List.countP_eq_length.mpr, List.length_map]
    intro key hm
    rw [← hkeys, ← hmap]
    exact List.map_subset _ (hpick _) hm
  · intro entry
    rw [mem_readAs (s := ⟨last, s.counters⟩) hr hlast hleftkeys]
    split
    · rename_i hout
      obtain ⟨other, hpicked, hsame⟩ := List.mem_map.mp hout
      constructor
      · rintro ⟨⟩
      · rintro ⟨hm, hstays⟩
        rw [List.inj_on_of_nodup_map hlists.nodup (hpick _ hpicked) hm hsame] at hpicked
        exact absurd hpicked hstays
    · rename_i hstays
      rw [← mem_readAs hr h hkeys]
      exact ⟨fun hm => ⟨hm, fun hpicked => hstays (List.mem_map_of_mem hpicked)⟩, And.left⟩

theorem reached_removeEntries (h : Reached store start admits s.place)
    (pick : List CacheEntry → List CacheEntry) (hpick : ∀ all, pick all ⊆ all) :
    Reached store start admits
      (removeAll store ((pick (entries store s).1).map (·.key)) (entries store s).2).2.place := by
  obtain ⟨count, place, hremove, hplace, -⟩ := holding_removeEntries hr h pick hpick
  rwa [hremove]

/-! ## Calls -/

/-- The entry that a call stores, if it stores one, fits and is admitted, and so is the time. -/
structure Writes (admits : CacheEntry → Prop) (call : CacheCall) : Prop where
  now : call.now < UInt64.size
  result : ∀ scope file content result, call.op = .set scope file content result → result.Fits
  entry : ∀ scope file content result, call.op = .set scope file content result →
    admits (entryOf call.now scope file content result)

theorem reached_removeAll (h : Reached store start admits s.place) {keys : List String}
    (hkeys : ∀ key ∈ keys, IsKey key) :
    Reached store start admits (removeAll store keys s).2.place := by
  obtain ⟨found, h⟩ := h
  obtain ⟨count, place, hremove, -, hplace⟩ := holding_removeAll hr hkeys h
  rw [hremove]
  exact ⟨_, hplace⟩

theorem reached_get (maxAge : Duration) {now : Nat} (hnow : now < UInt64.size) (scope : Scope)
    (file : String) (content : Bytes) (h : Reached store start admits s.place) :
    Reached store start admits
      (Cache.get ⟨some store, maxAge⟩ now scope file content s).2.place := by
  obtain ⟨found, h⟩ := h
  obtain ⟨place, hread, hplace⟩ := h.call_read hr (Store.isKey_key scope file content)
  simp only [get, hread, Option.join_some]
  cases hfound : found (scope.key file content) with
  | none => exact ⟨found, hplace⟩
  | some entry =>
      obtain ⟨hkey, hvalid, hfits, hadmits⟩ := h.of_found hfound
      simp only [Option.map_some]
      split
      · obtain ⟨last, hdelete, hlast⟩ :=
          Holding.call_delete (s := ⟨place, s.counters⟩) hr hplace hvalid
        simp only [miss, drop, hdelete]
        split <;> exact ⟨_, hlast⟩
      · have hform := hr.fits_form entry hfits
        have htouched : ((form entry).touched now).Fits := ⟨hform.created, hnow, hform.result⟩
        have hsame : ((form entry).touched now).key = scope.key file content :=
          (hr.key_form entry).trans hkey
        obtain ⟨last, hwrite, hlast⟩ :=
          Holding.call_write (s := ⟨place, s.counters⟩) hr hplace (hsame ▸ hvalid) htouched
            (hr.admits_touched entry now hadmits)
        simp only [hit, hwrite]
        exact ⟨_, hlast⟩

theorem reached_clear (maxAge : Duration) (h : Reached store start admits s.place) :
    Reached store start admits (Cache.clear ⟨some store, maxAge⟩ s).2.place := by
  obtain ⟨found, h⟩ := h
  obtain ⟨keys, place, hcall, -, -, hmem, hplace⟩ := h.call_keys hr
  simp only [clear, hcall]
  refine reached_removeAll hr ⟨found, hplace⟩ ?_
  intro key hm
  obtain ⟨entry, hfound⟩ := Option.isSome_iff_exists.mp ((hmem key).mp hm)
  exact (h.of_found hfound).2.1

theorem reached_step (maxAge : Duration) {call : CacheCall} (hcall : Writes admits call)
    (h : Reached store start admits s.place) :
    Reached store start admits (Cache.step ⟨some store, maxAge⟩ s call).place := by
  obtain ⟨now, op⟩ := call
  cases op with
  | set scope file content result =>
      obtain ⟨found, h⟩ := h
      have hkey : IsKey (entryOf now scope file content result).key := by
        simp only [entryOf]
        exact Store.isKey_key scope file content
      have hfits : (entryOf now scope file content result).Fits :=
        ⟨hcall.now, hcall.now, hcall.result scope file content result rfl⟩
      obtain ⟨place, hwrite, hplace⟩ := h.call_write hr hkey hfits
        (hcall.entry scope file content result rfl)
      simp only [step, set, hwrite]
      exact ⟨_, hplace⟩
  | get scope file content =>
      simp only [step]
      exact reached_get hr maxAge hcall.now scope file content h
  | invalidateFile file root =>
      exact reached_removeEntries hr h
        (List.filter fun entry => entry.file == file && entry.root == root)
        fun _ => List.filter_subset_self _
  | invalidateBranch branch =>
      exact reached_removeEntries hr h (List.filter fun entry => entry.branch == branch)
        fun _ => List.filter_subset_self _
  | clear => exact reached_clear hr maxAge h
  | enforceCapacity limit =>
      exact reached_removeEntries hr h (surplus limit) (surplus_subset limit)

theorem reached_run (maxAge : Duration) {calls : List CacheCall}
    (hcalls : ∀ call ∈ calls, Writes admits call) (h : Reached store start admits s.place) :
    Reached store start admits (calls.foldl (Cache.step ⟨some store, maxAge⟩) s).place := by
  induction calls generalizing s with
  | nil => exact h
  | cons call calls ih =>
      obtain ⟨hfirst, hrest⟩ := List.forall_mem_cons.mp hcalls
      exact ih hrest (reached_step hr maxAge hfirst h)

end Cache

end CodeAtlas
