import CodeAtlas.Proofs.Cache.History
import Mathlib.Data.List.Dedup
import Mathlib.Data.List.Perm.Subperm

/-! Memories that keep what they hold. Once a result stands in memory, neither noting that it was asked
for nor storing a result for another key replaces it, and a cache that has room for all of its keys
gives none of them up. -/

namespace CodeAtlas

namespace Memory

/-- What one memory holds stands in the other one too, with the same result, stored at the same
time. -/
def Retains (before after : Memory) : Prop :=
  ∀ key entry, before.get? key = some entry →
    ∃ later, after.get? key = some later ∧ later.result = entry.result ∧
      later.created = entry.created

theorem Retains.refl (memory : Memory) : memory.Retains memory :=
  fun _ entry h => ⟨entry, h, rfl, rfl⟩

theorem Retains.trans {a b c : Memory} (hab : a.Retains b) (hbc : b.Retains c) : a.Retains c := by
  intro key entry h
  obtain ⟨later, hlater, hresult, hcreated⟩ := hab key entry h
  obtain ⟨last, hlast, hresult', hcreated'⟩ := hbc key later hlater
  exact ⟨last, hlast, hresult'.trans hresult, hcreated'.trans hcreated⟩

/-- A memory whose entries stand under their own keys and were stored at times that satisfy `P`. -/
structure Dated (P : Nat → Prop) (memory : Memory) : Prop where
  sound : memory.Sound
  created : ∀ key entry, memory.get? key = some entry → P entry.created

theorem dated_empty (P : Nat → Prop) : Dated P Keyed.empty :=
  ⟨sound_empty, fun _ _ h => nomatch h⟩

variable {P : Nat → Prop} {memory : Memory}

theorem Dated.put (h : memory.Dated P) {entry : CacheEntry} (hcreated : P entry.created) :
    Dated P (Keyed.put memory entry.key entry) := by
  refine ⟨h.sound.put entry, fun key other hg => ?_⟩
  rw [Keyed.get?_put] at hg
  split at hg
  · obtain rfl := Option.some.inj hg
    exact hcreated
  · exact h.created key other hg

/-- Putting an entry keeps every result if it is put under a new key or has the result that stands
there. -/
theorem retains_put {entry : CacheEntry}
    (h : ∀ old, memory.get? entry.key = some old →
      entry.result = old.result ∧ entry.created = old.created) :
    memory.Retains (Keyed.put memory entry.key entry) := by
  intro key old hg
  rw [Keyed.get?_put]
  by_cases hk : key = entry.key
  · subst hk
    exact ⟨entry, if_pos rfl, h old hg⟩
  · exact ⟨old, by rw [if_neg hk, hg], rfl, rfl⟩

theorem Sound.length_keys_le (h : memory.Sound) {keys : List String} (hsub : memory.keys ⊆ keys) :
    memory.keys.length ≤ keys.dedup.length :=
  (h.nodup.subperm fun _ hm => List.mem_dedup.mpr (hsub hm)).length_le

/-- A memory after new results may have come under some keys. -/
structure Grows (P : Nat → Prop) (keys : List String) (before after : Memory) : Prop where
  dated : after.Dated P
  retains : before.Retains after
  keys_subset : after.keys ⊆ keys ++ before.keys

theorem Dated.grows_refl (h : memory.Dated P) (keys : List String) : Grows P keys memory memory :=
  ⟨h, .refl memory, List.subset_append_right keys memory.keys⟩

theorem Grows.trans {keys keys' : List String} {a b c : Memory} (hab : Grows P keys a b)
    (hbc : Grows P keys' b c) : Grows P (keys ++ keys') a c := by
  refine ⟨hbc.dated, hab.retains.trans hbc.retains, fun key hm => ?_⟩
  rcases List.mem_append.mp (hbc.keys_subset hm) with hm | hm
  · exact List.mem_append_left _ (List.mem_append_right keys hm)
  · rcases List.mem_append.mp (hab.keys_subset hm) with hm | hm
    · exact List.mem_append_left _ (List.mem_append_left keys' hm)
    · exact List.mem_append_right _ hm

/-- A new entry is added under its key. -/
theorem Dated.grows_put (h : memory.Dated P) {entry : CacheEntry}
    (hg : memory.get? entry.key = none) (hcreated : P entry.created) :
    Grows P [entry.key] memory (Keyed.put memory entry.key entry) := by
  refine ⟨h.put hcreated, retains_put ?_, fun other hm => ?_⟩
  · intro old hold
    exact absurd (hg.symm.trans hold) nofun
  · rw [Keyed.keys_put, Keyed.erase_of_get?_eq_none hg] at hm
    exact (List.perm_append_comm.mem_iff).mp hm

/-- Putting in what says the same as the memory before changes no result. -/
theorem Grows.put_same {before after : Memory} (h : Grows P [] before after) {key : String}
    {entry other : CacheEntry} (hg : before.get? key = some entry) (hkey : other.key = key)
    (hresult : other.result = entry.result) (hcreated : other.created = entry.created) :
    Grows P [] before (Keyed.put after other.key other) := by
  obtain ⟨later, hlater, hsame, hdate⟩ := h.retains key entry hg
  subst hkey
  refine ⟨h.dated.put ?_, h.retains.trans (retains_put ?_), fun name hm => ?_⟩
  · rw [hcreated, ← hdate]
    exact h.dated.created _ later hlater
  · intro old hold
    obtain rfl := Option.some.inj (hlater.symm.trans hold)
    exact ⟨hresult.trans hsame.symm, hcreated.trans hdate.symm⟩
  · rw [Keyed.keys_put, Keyed.keys_erase] at hm
    rcases List.mem_append.mp hm with hm | hm
    · exact h.keys_subset (List.mem_filter.mp hm).1
    · rw [List.mem_singleton.mp hm]
      exact (Keyed.get?_isSome_iff before other.key).mp (Option.isSome_of_mem hg)

/-- Noting that an entry was asked for changes no result. -/
theorem Dated.grows_touched (h : memory.Dated P) {key : String} {entry : CacheEntry}
    (hg : memory.get? key = some entry) (now : Nat) :
    Grows P [] memory (Keyed.put memory (entry.touched now).key (entry.touched now)) := by
  have hkey : entry.key = key := h.sound.key_of_get? hg
  exact (h.grows_refl []).put_same hg hkey rfl rfl

end Memory

namespace Cache

variable {maxAge : Duration} {s : CacheState Memory}

/-- What was stored at a time that satisfies `P` is not expired now. -/
def Unexpired (maxAge : Duration) (P : Nat → Prop) (now : Nat) : Prop :=
  ∀ entry : CacheEntry, P entry.created → entry.isExpired now maxAge = false

/-! ## Uses of a memory -/

theorem find_inMemory (key : String) :
    (inMemory maxAge).find key s = (s.place.get? key, s) := rfl

theorem touch_inMemory (now : Nat) (scope : Scope) (file : String) (entry : CacheEntry) :
    (inMemory maxAge).touch now scope file entry s =
      (⟨some entry.result, [.cacheHit file scope.branch]⟩,
        ⟨s.place.put (entry.touched now).key (entry.touched now),
          { s.counters with hits := s.counters.hits + 1 }⟩) := rfl

/-- A result that stands in memory and is not expired is found; the time is noted with it and the
hit is counted. -/
theorem get_of_get? {now : Nat} {scope : Scope} {file : String} {content : Bytes}
    {entry : CacheEntry} (hg : s.place.get? (scope.key file content) = some entry)
    (hage : entry.isExpired now maxAge = false) :
    (inMemory maxAge).get now scope file content s =
      (⟨some entry.result, [.cacheHit file scope.branch]⟩,
        ⟨s.place.put (entry.touched now).key (entry.touched now),
          { s.counters with hits := s.counters.hits + 1 }⟩) := by
  have hread : s.call (Memory.store.read (scope.key file content)) = (some (some entry), s) := by
    rw [← hg]
    rfl
  simp only [get, inMemory, hread, Option.join_some, hage, Bool.false_eq_true, if_false]
  rfl

theorem get_of_get?_eq_none {now : Nat} {scope : Scope} {file : String} {content : Bytes}
    (hg : s.place.get? (scope.key file content) = none) :
    (inMemory maxAge).get now scope file content s =
      (⟨none, [.cacheMiss file scope.branch]⟩, s.countMiss) := by
  have hread : s.call (Memory.store.read (scope.key file content)) = (some none, s) := by
    rw [← hg]
    rfl
  simp only [get, inMemory, hread, Option.join_some]
  rfl

/-- A cache that holds no more than its capacity gives nothing up. -/
theorem enforceCapacity_of_length_le (hs : s.place.Sound) {limit : Nat}
    (h : s.place.keys.length ≤ limit) :
    (inMemory maxAge).enforceCapacity limit s = (0, s) := by
  have hlength : s.place.entries.length - limit = 0 := by
    rw [Memory.entries, List.length_map, ← List.length_map (·.1)]
    exact Nat.sub_eq_zero_of_le h
  have hnone : surplus limit s.place.entries = [] := by
    rw [surplus, hlength, List.take_zero]
  simp only [enforceCapacity, inMemory, entries_memory hs, hnone]
  rfl

end Cache

end CodeAtlas
