import CodeAtlas.Cache.Basic
import CodeAtlas.Cache.Memory
import CodeAtlas.Proofs.Keyed

/-! What each use of a cache does to the entries that it keeps in memory. An entry stands under its
own key, so that removing entries by the keys that they carry removes those entries and no others. -/

namespace CodeAtlas

namespace Memory

/-- Each key stands once, and each entry stands under its own key. -/
structure Sound (memory : Memory) : Prop where
  nodup : memory.keys.Nodup
  key_eq : ∀ item ∈ memory.items, item.2.key = item.1

theorem sound_empty : Sound Keyed.empty :=
  ⟨List.nodup_nil, by simp [Keyed.empty]⟩

theorem Sound.key_of_get? {memory : Memory} (hs : memory.Sound) {key : String}
    {entry : CacheEntry} (h : memory.get? key = some entry) : entry.key = key :=
  hs.key_eq _ (Keyed.mem_items_of_get? h)

theorem Sound.put {memory : Memory} (hs : memory.Sound) (entry : CacheEntry) :
    Sound (Keyed.put memory entry.key entry) := by
  refine ⟨Keyed.nodup_keys_put _ _ hs.nodup, ?_⟩
  intro item hm
  rcases Keyed.mem_items_put hm with hm | rfl
  · exact hs.key_eq item hm
  · rfl

theorem Sound.erase {memory : Memory} (hs : memory.Sound) (key : String) :
    Sound (Keyed.erase memory key) :=
  ⟨Keyed.nodup_keys_erase key hs.nodup, fun item hm => hs.key_eq item (Keyed.mem_items_erase hm)⟩

theorem Sound.foldl_erase {memory : Memory} (hs : memory.Sound) (keys : List String) :
    Sound (keys.foldl Keyed.erase memory) := by
  induction keys generalizing memory with
  | nil => exact hs
  | cons key keys ih => exact ih (hs.erase key)

/-- The entries of a memory. -/
def entries (memory : Memory) : List CacheEntry := memory.items.map (·.2)

theorem Sound.mem_entries_iff {memory : Memory} (hs : memory.Sound) (entry : CacheEntry) :
    entry ∈ memory.entries ↔ memory.get? entry.key = some entry := by
  constructor
  · intro h
    obtain ⟨item, hm, rfl⟩ := List.mem_map.mp h
    have hitem : (item.2.key, item.2) ∈ memory.items := by rwa [hs.key_eq item hm]
    exact Keyed.get?_of_mem_items hs.nodup hitem
  · intro h
    exact List.mem_map_of_mem (Keyed.mem_items_of_get? h)

/-- Looking up every key gives every entry. -/
theorem Sound.filterMap_get?_keys {memory : Memory} (hs : memory.Sound) :
    memory.keys.filterMap memory.get? = memory.entries := by
  have hfind : ∀ item ∈ memory.items, memory.get? item.1 = some item.2 := fun item hm =>
    Keyed.get?_of_mem_items hs.nodup hm
  rw [Keyed.keys, entries, List.filterMap_map, ← List.filterMap_eq_map]
  exact List.filterMap_congr hfind

end Memory

namespace Cache

/-- A cache that keeps its entries in memory. -/
def inMemory (maxAge : Duration) : Cache Memory := ⟨some Memory.store, maxAge⟩

variable {maxAge : Duration} {s : CacheState Memory}

/-! ## Reading and removing -/

theorem readAll_memory (keys : List String) (s : CacheState Memory) :
    readAll Memory.store keys s = (keys.filterMap s.place.get?, s) := by
  induction keys with
  | nil => rfl
  | cons key keys ih =>
      have hread : s.call (Memory.store.read key) = (some (s.place.get? key), s) := rfl
      simp only [readAll, hread, ih, Option.join_some]
      cases hg : s.place.get? key <;> simp [hg]

theorem entries_memory (hs : s.place.Sound) :
    entries Memory.store s = (s.place.entries, s) := by
  have hkeys : s.call Memory.store.keys = (some s.place.keys, s) := rfl
  simp only [entries, hkeys, Option.getD_some, readAll_memory, hs.filterMap_get?_keys]

theorem removeEach_memory (keys : List String) (s : CacheState Memory) :
    (removeEach Memory.store keys s).2.place = keys.foldl Keyed.erase s.place := by
  induction keys generalizing s with
  | nil => rfl
  | cons key keys ih =>
      have hdelete : (s.call (Memory.store.delete key)).2.place = s.place.erase key := rfl
      simp only [removeEach, ih, hdelete, List.foldl_cons]

theorem removeAll_memory (keys : List String) (s : CacheState Memory) :
    (removeAll Memory.store keys s).2.place = keys.foldl Keyed.erase s.place :=
  removeEach_memory keys s

/-! ## Single results -/

theorem set_place (now : Nat) (scope : Scope) (file : String) (content : Bytes)
    (result : ParseResult) :
    ((inMemory maxAge).set now scope file content result s).2.place =
      s.place.put (scope.key file content) (entryOf now scope file content result) := rfl

/-- A lookup finds what stands under the key, unless it is expired. -/
theorem get_result (now : Nat) (scope : Scope) (file : String) (content : Bytes) :
    ((inMemory maxAge).get now scope file content s).1.result =
      ((s.place.get? (scope.key file content)).filter
        fun entry => !entry.isExpired now maxAge).map (·.result) := by
  have hread : s.call (Memory.store.read (scope.key file content)) =
      (some (s.place.get? (scope.key file content)), s) := rfl
  simp only [get, inMemory, hread, Option.join_some]
  cases hg : s.place.get? (scope.key file content) with
  | none => rfl
  | some entry =>
      by_cases he : entry.isExpired now maxAge
      · simp [he, miss, Option.filter_some]
      · simp [he, hit, Option.filter_some]

/-- A lookup removes an expired entry, and notes the time with any other one. -/
theorem get_place (hs : s.place.Sound) (now : Nat) (scope : Scope) (file : String)
    (content : Bytes) :
    ((inMemory maxAge).get now scope file content s).2.place =
      match s.place.get? (scope.key file content) with
      | none => s.place
      | some entry =>
        if entry.isExpired now maxAge then s.place.erase (scope.key file content)
        else s.place.put (scope.key file content) (entry.touched now) := by
  have hread : s.call (Memory.store.read (scope.key file content)) =
      (some (s.place.get? (scope.key file content)), s) := rfl
  simp only [get, inMemory, hread, Option.join_some]
  cases hg : s.place.get? (scope.key file content) with
  | none => rfl
  | some entry =>
      have hkey : entry.key = scope.key file content := hs.key_of_get? hg
      by_cases he : entry.isExpired now maxAge
      · simp only [he, if_true]
        change (drop Memory.store (scope.key file content) s).place = _
        unfold drop
        dsimp only
        split <;> rfl
      · simp only [he, if_false, Bool.false_eq_true]
        rw [← hkey]
        rfl

/-! ## All entries -/

theorem removeWhere_place (hs : s.place.Sound) (p : CacheEntry → Bool) :
    ((inMemory maxAge).removeWhere p s).2.place =
      ((s.place.entries.filter p).map (·.key)).foldl Keyed.erase s.place := by
  simp only [removeWhere, inMemory, entries_memory hs, removeAll_memory]

/-- Removing the entries with a property leaves every other entry as it is. -/
theorem get?_removeWhere (hs : s.place.Sound) (p : CacheEntry → Bool) (key : String) :
    ((inMemory maxAge).removeWhere p s).2.place.get? key =
      (s.place.get? key).filter fun entry => !p entry := by
  have hmem : key ∈ (s.place.entries.filter p).map (·.key) ↔
      ∃ entry, s.place.get? key = some entry ∧ p entry = true := by
    simp only [List.mem_map, List.mem_filter, hs.mem_entries_iff]
    constructor
    · rintro ⟨entry, ⟨hg, hp⟩, rfl⟩
      exact ⟨entry, hg, hp⟩
    · rintro ⟨entry, hg, hp⟩
      have hkey := hs.key_of_get? hg
      exact ⟨entry, ⟨by rwa [hkey], hp⟩, hkey⟩
  rw [removeWhere_place hs, Keyed.get?_foldl_erase]
  cases hg : s.place.get? key with
  | none => simp
  | some entry =>
      cases hp : p entry <;> simp [hmem, hg, hp, Option.filter_some]

theorem clear_place : ((inMemory maxAge).clear s).2.place =
    s.place.keys.foldl Keyed.erase s.place :=
  removeAll_memory s.place.keys s

theorem get?_clear (key : String) :
    ((inMemory maxAge).clear s).2.place.get? key = none := by
  rw [clear_place, Keyed.get?_foldl_erase]
  by_cases hm : key ∈ s.place.keys
  · rw [if_pos hm]
  · rw [if_neg hm, (Keyed.get?_eq_none_iff s.place key).mpr hm]

theorem enforceCapacity_place (hs : s.place.Sound) (limit : Nat) :
    ((inMemory maxAge).enforceCapacity limit s).2.place =
      ((surplus limit s.place.entries).map (·.key)).foldl Keyed.erase s.place := by
  simp only [enforceCapacity, inMemory, entries_memory hs, removeAll_memory]

/-- Giving up entries changes none of those that stay. -/
theorem get?_enforceCapacity (hs : s.place.Sound) (limit : Nat) (key : String) :
    ((inMemory maxAge).enforceCapacity limit s).2.place.get? key =
      if key ∈ (surplus limit s.place.entries).map (·.key) then none else s.place.get? key := by
  rw [enforceCapacity_place hs, Keyed.get?_foldl_erase]

end Cache

end CodeAtlas
