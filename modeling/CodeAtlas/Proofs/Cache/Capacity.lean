import CodeAtlas.Proofs.Cache.Removal
import Mathlib.Data.String.Basic

/-! What a bound on the number of entries does. In whatever order a store lists its keys, as long as
it does not fail, the entries that were asked for least recently are given up, no more of them than
the bound asks for, and the others stay as they are. -/

namespace CodeAtlas

/-! ## The order in which entries are given up -/

namespace CacheEntry

/-- The entry is given up in front of the other one: it was asked for earlier, or at the same time
and has the smaller key. -/
def LeavesFirst (a b : CacheEntry) : Prop :=
  a.lastAccessed < b.lastAccessed ∨ a.lastAccessed = b.lastAccessed ∧ a.key < b.key

theorem leavesBefore_iff (a b : CacheEntry) :
    a.leavesBefore b = true ↔
      a.lastAccessed < b.lastAccessed ∨ a.lastAccessed = b.lastAccessed ∧ a.key ≤ b.key := by
  simp [leavesBefore]

theorem leavesBefore_total (a b : CacheEntry) :
    (a.leavesBefore b || b.leavesBefore a) = true := by
  rw [Bool.or_eq_true, leavesBefore_iff, leavesBefore_iff]
  rcases lt_trichotomy a.lastAccessed b.lastAccessed with hlt | heq | hgt
  · exact .inl (.inl hlt)
  · rcases le_total a.key b.key with hkey | hkey
    · exact .inl (.inr ⟨heq, hkey⟩)
    · exact .inr (.inr ⟨heq.symm, hkey⟩)
  · exact .inr (.inl hgt)

theorem leavesBefore_trans (a b c : CacheEntry) (hab : a.leavesBefore b = true)
    (hbc : b.leavesBefore c = true) : a.leavesBefore c = true := by
  rw [leavesBefore_iff] at hab hbc ⊢
  rcases hab with hab | ⟨hab, hkab⟩
  · left
    omega
  · rcases hbc with hbc | ⟨hbc, hkbc⟩
    · left
      omega
    · exact .inr ⟨hab.trans hbc, hkab.trans hkbc⟩

theorem leavesFirst_of_leavesBefore {a b : CacheEntry} (h : a.leavesBefore b = true)
    (hne : a.key ≠ b.key) : a.LeavesFirst b := by
  rcases (leavesBefore_iff a b).mp h with hlt | ⟨heq, hkey⟩
  · exact .inl hlt
  · exact .inr ⟨heq, lt_of_le_of_ne hkey hne⟩

end CacheEntry

namespace Cache

variable {limit : Nat} {entries : List CacheEntry}

theorem length_surplus (limit : Nat) (entries : List CacheEntry) :
    (surplus limit entries).length = entries.length - limit := by
  rw [surplus, List.length_take, List.length_mergeSort]
  omega

theorem nodup_keys_surplus (limit : Nat) (hn : (entries.map (·.key)).Nodup) :
    ((surplus limit entries).map (·.key)).Nodup := by
  have hperm := List.mergeSort_perm entries CacheEntry.leavesBefore
  have hsorted := (hperm.map (·.key)).nodup_iff.mpr hn
  exact hsorted.sublist ((List.take_sublist _ _).map _)

/-- Each entry that is given up precedes each one that is not. -/
theorem leavesFirst_of_mem_surplus (hn : (entries.map (·.key)).Nodup) {a b : CacheEntry}
    (ha : a ∈ surplus limit entries) (hb : b ∈ entries) (hkept : b ∉ surplus limit entries) :
    a.LeavesFirst b := by
  let sorted := entries.mergeSort CacheEntry.leavesBefore
  let count := entries.length - limit
  have hperm : sorted.Perm entries := List.mergeSort_perm _ _
  have hsorted : (sorted.take count ++ sorted.drop count).Pairwise
      fun a b => a.leavesBefore b = true := by
    rw [List.take_append_drop]
    exact List.pairwise_mergeSort CacheEntry.leavesBefore_trans CacheEntry.leavesBefore_total _
  have hkeys : ((sorted.take count ++ sorted.drop count).map (·.key)).Nodup := by
    rw [List.take_append_drop]
    exact (hperm.map _).nodup_iff.mpr hn
  have hrest : b ∈ sorted.drop count := by
    have hmem : b ∈ sorted.take count ++ sorted.drop count := by
      rw [List.take_append_drop]
      exact hperm.mem_iff.mpr hb
    exact (List.mem_append.mp hmem).resolve_left hkept
  have hbefore := (List.pairwise_append.mp hsorted).2.2 a ha b hrest
  refine CacheEntry.leavesFirst_of_leavesBefore hbefore ?_
  rw [List.map_append, List.nodup_append] at hkeys
  exact hkeys.2.2 _ (List.mem_map_of_mem ha) _ (List.mem_map_of_mem hrest)

/-- What is given up and what is not are all entries. -/
theorem length_surplus_add {kept : List CacheEntry} (hn : (entries.map (·.key)).Nodup)
    (hkept : (kept.map (·.key)).Nodup)
    (hmem : ∀ entry, entry ∈ kept ↔ entry ∈ entries ∧ entry ∉ surplus limit entries) :
    (surplus limit entries).length + kept.length = entries.length := by
  have hboth : (surplus limit entries ++ kept).Nodup := by
    refine List.nodup_append.mpr ⟨(nodup_keys_surplus limit hn).of_map, hkept.of_map, ?_⟩
    rintro entry hgone _ hstays rfl
    exact ((hmem entry).mp hstays).2 hgone
  have hperm : (surplus limit entries ++ kept).Perm entries := by
    refine (List.perm_ext_iff_of_nodup hboth hn.of_map).mpr fun entry => ?_
    rw [List.mem_append, hmem]
    constructor
    · rintro (hgone | hstays)
      · exact surplus_subset limit entries hgone
      · exact hstays.1
    · intro hm
      by_cases hgone : entry ∈ surplus limit entries
      · exact .inl hgone
      · exact .inr ⟨hm, hgone⟩
  rw [← List.length_append]
  exact hperm.length_eq

end Cache

variable {σ : Type} {store : Store σ} {start : σ} {admits : CacheEntry → Prop}
  {form : CacheEntry → CacheEntry} {s : CacheState σ}

/-! ## What is given up -/

/-- Of the entries of a store no more than `limit` are left, and no fewer than need be. They are
unchanged, every other one precedes each of them in the order in which entries are given up, and
`count` others there are, which are counted as removed. -/
structure Store.GivesUp (store : Store σ) (limit : Nat) (before after : CacheState σ)
    (count : Nat) : Prop where
  entries : ∃ entries kept, store.Lists before.place entries ∧ store.Lists after.place kept ∧
    kept ⊆ entries ∧ kept.length = min entries.length limit ∧ count + kept.length = entries.length ∧
      ∀ gone ∈ entries, gone ∉ kept → ∀ other ∈ kept, gone.LeavesFirst other
  counters : after.counters = { before.counters with deletes := before.counters.deletes + count }

/-- Where a bound was kept, it gives up nothing more. -/
theorem Store.GivesUp.eq_zero_of_again {limit count again : Nat} {before after last : CacheState σ}
    (h : store.GivesUp limit before after count) (ha : store.GivesUp limit after last again) :
    again = 0 := by
  obtain ⟨_, kept, -, hkept, -, hbound, -⟩ := h.entries
  obtain ⟨entries, left, hentries, -, -, hleft, hcount, -⟩ := ha.entries
  -- Both listings are of the same place.
  have hsame : kept.map (·.key) = entries.map (·.key) :=
    Except.ok.inj (hkept.keys.symm.trans hentries.keys)
  have hlength : kept.length = entries.length := by
    rw [← List.length_map (·.key), hsame, List.length_map]
  omega

namespace Cache

section Run

variable (hr : store.Reliable start admits form)
include hr

theorem givesUp_enforceCapacity (maxAge : Duration) (limit : Nat)
    (h : Reached store start admits s.place) :
    let result := enforceCapacity ⟨some store, maxAge⟩ limit s
    store.GivesUp limit s result.2 result.1 := by
  obtain ⟨count, place, hresult, -, entries, kept, hentries, hkept, hcount, hmem⟩ :=
    holding_removeEntries hr h (surplus limit) (surplus_subset limit)
  simp only [enforceCapacity, hresult]
  have hgone := hcount (nodup_keys_surplus limit hentries.nodup)
  have hlength := length_surplus_add hentries.nodup hkept.nodup hmem
  have hsurplus := length_surplus limit entries
  refine ⟨⟨entries, kept, hentries, hkept, fun entry hm => ((hmem entry).mp hm).1, by omega,
    by omega, ?_⟩, rfl⟩
  intro gone hgone hout other hother
  obtain ⟨hm, hstays⟩ := (hmem other).mp hother
  refine leavesFirst_of_mem_surplus hentries.nodup ?_ hm hstays
  by_contra hnot
  exact hout ((hmem gone).mpr ⟨hgone, hnot⟩)

/-- After any calls a bound on the number of entries gives up those that were asked for least
recently, as many as the bound asks for, and leaves the others as they are. The same bound gives up
nothing more. -/
theorem givesUp_after_calls (maxAge : Duration) {calls : List CacheCall}
    (hcalls : ∀ call ∈ calls, Writes admits call) (limit : Nat) :
    let cache : Cache σ := ⟨some store, maxAge⟩
    let s := calls.foldl cache.step (.fresh start)
    let first := cache.enforceCapacity limit s
    let second := cache.enforceCapacity limit first.2
    store.GivesUp limit s first.2 first.1 ∧ store.GivesUp limit first.2 second.2 second.1 ∧
      second.1 = 0 := by
  intro cache s first second
  have hreached : Reached store start admits s.place :=
    reached_run hr maxAge hcalls ⟨_, Store.holding_start⟩
  have hafter : Reached store start admits first.2.place :=
    reached_removeEntries hr hreached (surplus limit) (surplus_subset limit)
  have hfirst := givesUp_enforceCapacity hr maxAge limit hreached
  have hsecond := givesUp_enforceCapacity hr maxAge limit hafter
  exact ⟨hfirst, hsecond, hfirst.eq_zero_of_again hsecond⟩

end Run

end Cache

namespace Cache

/-- Three results are stored, two of them at one time, and the first one is asked for again. -/
def askedAgain : List CacheCall :=
  let scope : Scope := ⟨"/repo", "main", none⟩
  [⟨1, .set scope "a.py" [120] (.ofNothing "a.py" .python 7 none)⟩,
    ⟨2, .set scope "b.py" [120] (.ofNothing "b.py" .python 7 none)⟩,
    ⟨2, .set scope "c.py" [120] (.ofNothing "c.py" .python 7 none)⟩,
    ⟨5, .get scope "a.py" [120]⟩]

/-- Of three entries in a folder, listed from the last one on, two are given up. -/
theorem folder_gives_up_two :
    (Folder.store.relisted List.reverse).Reliable .empty CacheEntry.Lasts CacheEntry.reread ∧
      (∀ call ∈ askedAgain, Writes CacheEntry.Lasts call) ∧
      let cache : Cache Folder := ⟨some (Folder.store.relisted List.reverse), .ofSeconds 1⟩
      let s := askedAgain.foldl cache.step (.fresh .empty)
      ∃ entries kept, (Folder.store.relisted List.reverse).Lists s.place entries ∧
        (Folder.store.relisted List.reverse).Lists (cache.enforceCapacity 1 s).2.place kept ∧
        kept ⊆ entries ∧ entries.length = 3 ∧ kept.length = 1 ∧
          (cache.enforceCapacity 1 s).1 = 2 := by
  have hreliable := Store.reliable_folder.relisted List.reverse_perm
  have hcalls : ∀ call ∈ askedAgain, Writes CacheEntry.Lasts call := by
    have hwords : 7 < UInt64.size ∧ 1 < UInt32.size := by decide
    have hset : ∀ now scope file, now < UInt64.size → Writes CacheEntry.Lasts
        ⟨now, .set scope file [120] (.ofNothing file .python 7 none)⟩ := by
      intro now scope file hnow
      refine ⟨hnow, ?_, ?_⟩
      · rintro _ _ _ _ ⟨⟩
        exact ⟨hwords.1, hwords.2, List.forall_mem_nil _, List.forall_mem_nil _,
          List.forall_mem_nil _⟩
      · rintro _ _ _ _ ⟨⟩
        exact CacheEntry.Plain.lasts
          ⟨fun summary h => (by cases h), ParseResult.steady_ofNothing _ _ _ _⟩
    simp only [askedAgain, List.forall_mem_cons]
    refine ⟨hset _ _ _ (by decide), hset _ _ _ (by decide), hset _ _ _ (by decide),
      ⟨by decide, ?_, ?_⟩, List.forall_mem_nil _⟩
    · rintro _ _ _ _ ⟨⟩
    · rintro _ _ _ _ ⟨⟩
  refine ⟨hreliable, hcalls, ?_⟩
  intro cache s
  obtain ⟨hfirst, -, -⟩ := givesUp_after_calls hreliable (.ofSeconds 1) hcalls 1
  change Store.GivesUp _ 1 s (cache.enforceCapacity 1 s).2 (cache.enforceCapacity 1 s).1 at hfirst
  generalize cache.enforceCapacity 1 s = result at hfirst ⊢
  obtain ⟨entries, kept, hentries, hkept, hsubset, hbound, hcount, -⟩ := hfirst.entries
  have hthree : (((Folder.store.relisted List.reverse).keys s.place).1.toOption.map
      List.length) = some 3 := by
    decide +kernel
  rw [hentries.keys] at hthree
  have hlength : entries.length = 3 := by
    simpa only [Except.toOption, Option.map_some, List.length_map, Option.some.injEq] using hthree
  refine ⟨entries, kept, hentries, hkept, hsubset, hlength, ?_, ?_⟩
  · rw [hbound, hlength]
    rfl
  · rw [hbound, hlength] at hcount
    exact Nat.add_right_cancel hcount

end Cache

end CodeAtlas
