import CodeAtlas.Proofs.Cache.Key
import CodeAtlas.Proofs.Cache.Removal
import CodeAtlas.Proofs.Path

/-! The root of a project in a cache. Keys and entries hold the root as it is spelled, so two
spellings of one path have keys of their own, and calls that name one spelling leave the entries of
the other one. Roots that are spelled plainly are told apart as paths. -/

namespace CodeAtlas

/-! ## Roots in keys and entries -/

namespace Origin

/-- The origin under another spelling of the root. -/
def under (origin : Origin) (root : String) : Origin :=
  ⟨⟨root, origin.scope.branch, origin.scope.commit⟩, origin.file, origin.content⟩

end Origin

namespace Cache

variable {σ : Type} {store : Store σ} {start : σ} {admits : CacheEntry → Prop}
  {form : CacheEntry → CacheEntry} {s : CacheState σ}

theorem lists_invalidateFile (hr : store.Reliable start admits form) (maxAge : Duration)
    (h : Reached store start admits s.place) (file root : String) :
    ∃ entries kept, store.Lists s.place entries ∧
      store.Lists (Cache.invalidateFile ⟨some store, maxAge⟩ file root s).2.place kept ∧
      ∀ entry, entry ∈ kept ↔ entry ∈ entries ∧ ¬(entry.file = file ∧ entry.root = root) := by
  obtain ⟨count, place, hresult, -, entries, kept, hentries, hkept, -, hmem⟩ :=
    holding_removeEntries hr h
      (List.filter fun entry => entry.file == file && entry.root == root)
      fun _ => List.filter_subset_self _
  refine ⟨entries, kept, hentries, ?_, fun entry => ?_⟩
  · simpa only [invalidateFile, removeWhere, hresult] using hkept
  · rw [hmem, List.mem_filter, Bool.and_eq_true, beq_iff_eq, beq_iff_eq]
    tauto

/-- The spelling of the root decides. Keys under two roots are equal exactly if the roots are
spelled alike, and the entries of a file under one root are removed by a call that names another one
exactly if that is spelled alike. For plain spellings that is to say that the roots are one path. -/
theorem spelling_decides (hr : store.Reliable start admits form) (maxAge : Duration)
    {calls : List CacheCall} (hcalls : ∀ call ∈ calls, Writes admits call) {origin : Origin}
    {p q : String} (hp : (origin.under p).Plain) (hq : (origin.under q).Plain)
    (hapart : (origin.under p).ToldApart (origin.under q)) :
    let cache : Cache σ := ⟨some store, maxAge⟩
    let s := calls.foldl cache.step (.fresh start)
    let after := (cache.invalidateFile origin.file q s).2
    ((origin.under p).key = (origin.under q).key ↔ p = q) ∧
      (∃ entries kept, store.Lists s.place entries ∧ store.Lists after.place kept ∧
        ∀ entry ∈ entries, entry.file = origin.file → entry.root = p → (entry ∉ kept ↔ p = q)) ∧
      (Path.plain p = p → Path.plain q = q → (p = q ↔ Path.Same p q)) := by
  intro cache s after
  refine ⟨?_, ?_, ?_⟩
  · rw [Origin.key_eq_iff hp hq hapart]
    simp [Origin.under]
  · have hreached : Reached store start admits s.place :=
      reached_run hr maxAge hcalls ⟨_, Store.holding_start⟩
    obtain ⟨entries, kept, hentries, hkept, hmem⟩ :=
      lists_invalidateFile hr maxAge hreached origin.file q
    refine ⟨entries, kept, hentries, hkept, ?_⟩
    rintro entry hm hfile rfl
    rw [hmem]
    tauto
  · intro hplain hplain'
    rw [Path.same_iff_plain_eq, hplain, hplain']

/-- A result is stored under a root that is spelled without a slash at its end. -/
def storedUnderRoot : List CacheCall :=
  [⟨1, .set ⟨"/repo", "main", none⟩ "a.py" [120] (.ofNothing "a.py" .python 7 none)⟩]

/-- What is stored there. -/
def atRoot : Origin := ⟨⟨"/repo", "main", none⟩, "a.py", [120]⟩

theorem slash_at_end_decides :
    Memory.store.Reliable .empty (fun _ => True) id ∧
      (∀ call ∈ storedUnderRoot, Writes (fun _ => True) call) ∧
      (atRoot.under "/repo").Plain ∧ (atRoot.under "/repo/").Plain ∧
      (atRoot.under "/repo").ToldApart (atRoot.under "/repo/") ∧
      (atRoot.under "/repo").key ≠ (atRoot.under "/repo/").key := by
  have hcalls : ∀ call ∈ storedUnderRoot, Writes (fun _ => True) call := by
    intro call hm
    obtain rfl := List.mem_singleton.mp hm
    refine ⟨by decide, ?_, fun _ _ _ _ _ => trivial⟩
    rintro _ _ _ _ ⟨⟩
    exact ⟨by decide, by decide, List.forall_mem_nil _, List.forall_mem_nil _,
      List.forall_mem_nil _⟩
  have hp : (atRoot.under "/repo").Plain := by decide +kernel
  have hq : (atRoot.under "/repo/").Plain := by decide +kernel
  have hapart : (atRoot.under "/repo").ToldApart (atRoot.under "/repo/") :=
    ⟨fun _ => rfl, by decide +kernel⟩
  obtain ⟨hkey, -, -⟩ :=
    spelling_decides Store.reliable_memory (.ofSeconds 7200) hcalls hp hq hapart
  refine ⟨Store.reliable_memory, hcalls, hp, hq, hapart, ?_⟩
  rw [ne_eq, hkey]
  decide

/-- With a slash at its end a root is the same path, but has another key, and a call that names it
leaves the entry of the file. -/
theorem entry_stays_under_other_spelling :
    let cache := inMemory (.ofSeconds 7200)
    let stored := cache.run storedUnderRoot
    let result := cache.invalidateFile "a.py" "/repo/" stored
    Path.Same "/repo" "/repo/" ∧ (atRoot.under "/repo").key ≠ (atRoot.under "/repo/").key ∧
      stored.place.entries.map (fun entry => (entry.file, entry.root)) = [("a.py", "/repo")] ∧
      result.1 = 0 ∧ result.2.place.keys = [(atRoot.under "/repo").key] := by
  decide +kernel

end Cache

end CodeAtlas
