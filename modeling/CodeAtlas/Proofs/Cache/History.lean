import CodeAtlas.Proofs.Cache.Memory
import Mathlib.Data.List.Induction

/-! The history of a cache in memory. What a lookup finds is decided by the last result that was
stored under its key: how old that is, and whether a later call removed it. -/

namespace CodeAtlas

/-- A use of a cache. -/
inductive CacheOp where
  | set (scope : Scope) (file : String) (content : Bytes) (result : ParseResult)
  | get (scope : Scope) (file : String) (content : Bytes)
  | invalidateFile (file root : String)
  | invalidateBranch (branch : String)
  | clear
  | enforceCapacity (limit : Nat)

/-- A use of a cache at a time in milliseconds. -/
structure CacheCall where
  now : Nat
  op : CacheOp

namespace CacheOp

/-- Stores a result under a key. -/
def Sets (key : String) : CacheOp → Prop
  | set scope file content _ => scope.key file content = key
  | _ => False

/-- Asks for the removal of what is stored for a file of a project on a branch. -/
def Invalidates (file root branch : String) : CacheOp → Prop
  | invalidateFile f r => f = file ∧ r = root
  | invalidateBranch b => b = branch
  | clear => True
  | _ => False

/-- Bounds the number of entries. -/
def Bounds : CacheOp → Prop
  | enforceCapacity _ => True
  | _ => False

end CacheOp

namespace Cache

/-- The state after a use of a cache. -/
def step {σ : Type} (cache : Cache σ) (s : CacheState σ) (call : CacheCall) : CacheState σ :=
  match call.op with
  | .set scope file content result => (cache.set call.now scope file content result s).2
  | .get scope file content => (cache.get call.now scope file content s).2
  | .invalidateFile file root => (cache.invalidateFile file root s).2
  | .invalidateBranch branch => (cache.invalidateBranch branch s).2
  | .clear => (cache.clear s).2
  | .enforceCapacity limit => (cache.enforceCapacity limit s).2

/-- The state of a cache in memory after some calls, from an empty memory on. -/
def run (cache : Cache Memory) (calls : List CacheCall) : CacheState Memory :=
  calls.foldl cache.step (.fresh .empty)

/-- A bound on the number of entries removes the one under a key. -/
def Evicts (cache : Cache Memory) (s : CacheState Memory) (call : CacheCall) (key : String) :
    Prop :=
  call.op.Bounds ∧ (s.place.get? key).isSome ∧ (cache.step s call).place.get? key = none

/-- The last call that stored under `key` stored `result` for a file at the time `stored`, and since
then no call removed what it stored: none invalidated its file or its branch, none cleared the cache
and none that bounds the number of entries gave it up. -/
def Keeps (cache : Cache Memory) (calls : List CacheCall) (key : String) (stored : Nat)
    (scope : Scope) (file : String) (content : Bytes) (result : ParseResult) : Prop :=
  ∃ before after, calls = before ++ ⟨stored, .set scope file content result⟩ :: after ∧
    scope.key file content = key ∧
    (∀ call ∈ after, ¬ call.op.Sets key ∧ ¬ call.op.Invalidates file scope.root scope.branch) ∧
    ∀ earlier call later, after = earlier ++ call :: later →
      ¬ cache.Evicts
        (cache.run (before ++ ⟨stored, .set scope file content result⟩ :: earlier)) call key

variable {maxAge : Duration} {s : CacheState Memory}

/-! ## One call -/

theorem run_append (cache : Cache Memory) (calls : List CacheCall) (call : CacheCall) :
    cache.run (calls ++ [call]) = cache.step (cache.run calls) call := by
  simp [run]

/-- What stands under a key after a call. -/
def entryAfter (maxAge : Duration) (memory : Memory) (call : CacheCall) (key : String) :
    Option CacheEntry :=
  match call.op with
  | .set scope file content result =>
    if key = scope.key file content then some (entryOf call.now scope file content result)
    else memory.get? key
  | .get scope file content =>
    if key = scope.key file content then
      ((memory.get? key).filter fun entry => !entry.isExpired call.now maxAge).map
        (·.touched call.now)
    else memory.get? key
  | .invalidateFile file root =>
    (memory.get? key).filter fun entry => !(entry.file == file && entry.root == root)
  | .invalidateBranch branch => (memory.get? key).filter fun entry => !(entry.branch == branch)
  | .clear => none
  | .enforceCapacity limit =>
    if key ∈ (surplus limit memory.entries).map (·.key) then none else memory.get? key

theorem get?_get (hs : s.place.Sound) (now : Nat) (scope : Scope) (file : String)
    (content : Bytes) (key : String) :
    ((inMemory maxAge).get now scope file content s).2.place.get? key =
      if key = scope.key file content then
        ((s.place.get? key).filter fun entry => !entry.isExpired now maxAge).map (·.touched now)
      else s.place.get? key := by
  rw [get_place hs]
  by_cases hk : key = scope.key file content
  · subst hk
    rw [if_pos rfl]
    cases hg : s.place.get? (scope.key file content) with
    | none => simpa using hg
    | some entry =>
        by_cases he : entry.isExpired now maxAge
        · simp [he, Keyed.get?_erase, Option.filter_some]
        · simp [he, Keyed.get?_put, Option.filter_some]
  · rw [if_neg hk]
    split
    · rfl
    · split
      · rw [Keyed.get?_erase, if_neg hk]
      · rw [Keyed.get?_put, if_neg hk]

theorem get?_step (hs : s.place.Sound) (call : CacheCall) (key : String) :
    ((inMemory maxAge).step s call).place.get? key = entryAfter maxAge s.place call key := by
  obtain ⟨now, op⟩ := call
  cases op with
  | set scope file content result =>
      simp only [step, entryAfter, set_place, Keyed.get?_put]
  | get scope file content => exact get?_get hs now scope file content key
  | invalidateFile file root => exact get?_removeWhere hs _ key
  | invalidateBranch branch => exact get?_removeWhere hs _ key
  | clear => exact get?_clear key
  | enforceCapacity limit => exact get?_enforceCapacity hs limit key

theorem sound_step (hs : s.place.Sound) (call : CacheCall) :
    ((inMemory maxAge).step s call).place.Sound := by
  obtain ⟨now, op⟩ := call
  cases op with
  | set scope file content result => exact hs.put (entryOf now scope file content result)
  | get scope file content =>
      simp only [step, get_place hs]
      split
      · exact hs
      · rename_i entry hg
        split
        · exact hs.erase _
        · rw [← hs.key_of_get? hg]
          exact hs.put (entry.touched now)
  | invalidateFile file root =>
      simp only [step, invalidateFile, removeWhere_place hs]
      exact hs.foldl_erase _
  | invalidateBranch branch =>
      simp only [step, invalidateBranch, removeWhere_place hs]
      exact hs.foldl_erase _
  | clear =>
      simp only [step, clear_place]
      exact hs.foldl_erase _
  | enforceCapacity limit =>
      simp only [step, enforceCapacity_place hs]
      exact hs.foldl_erase _

theorem sound_run (maxAge : Duration) (calls : List CacheCall) :
    ((inMemory maxAge).run calls).place.Sound := by
  induction calls using List.reverseRecOn with
  | nil => exact Memory.sound_empty
  | append_singleton calls call ih =>
      rw [run_append]
      exact sound_step ih call

/-! ## What a call keeps -/

/-- On a clock of 64 bits an entry is expired once it is older than the allowed age. -/
theorem isExpired_eq_false_iff (entry : CacheEntry) {now : Nat} (hnow : now < UInt64.size) :
    entry.isExpired now maxAge = false ↔ now - entry.created ≤ maxAge.millis := by
  simp only [CacheEntry.isExpired, decide_eq_false_iff_not, Nat.not_lt]
  omega

/-- An entry that a call leaves was stored by it, or stood there before and was at most asked for. -/
theorem entryAfter_eq_some {memory : Memory} {call : CacheCall} {key : String}
    {entry : CacheEntry} (h : entryAfter maxAge memory call key = some entry) :
    (∃ scope file content result, call.op = .set scope file content result ∧
      scope.key file content = key ∧ entry = entryOf call.now scope file content result) ∨
    ∃ old time, memory.get? key = some old ∧ entry = old.touched time ∧
      ¬ call.op.Sets key ∧ ¬ call.op.Invalidates old.file old.root old.branch := by
  obtain ⟨now, op⟩ := call
  have same : memory.get? key = some entry → ∃ old time, memory.get? key = some old ∧
      entry = old.touched time := fun hg => ⟨entry, entry.lastAccessed, hg, rfl⟩
  cases op with
  | set scope file content result =>
      simp only [entryAfter] at h
      by_cases hk : key = scope.key file content
      · rw [if_pos hk, Option.some.injEq] at h
        exact .inl ⟨scope, file, content, result, rfl, hk.symm, h.symm⟩
      · rw [if_neg hk] at h
        obtain ⟨old, time, hg, he⟩ := same h
        exact .inr ⟨old, time, hg, he, fun hs => hk hs.symm, id⟩
  | get scope file content =>
      simp only [entryAfter] at h
      split at h
      · obtain ⟨old, hf, rfl⟩ := Option.map_eq_some_iff.mp h
        exact .inr ⟨old, now, (Option.filter_eq_some_iff.mp hf).1, rfl, id, id⟩
      · obtain ⟨old, time, hg, he⟩ := same h
        exact .inr ⟨old, time, hg, he, id, id⟩
  | invalidateFile file root =>
      obtain ⟨hg, hp⟩ := Option.filter_eq_some_iff.mp h
      refine .inr ⟨entry, entry.lastAccessed, hg, rfl, id, ?_⟩
      rintro ⟨rfl, rfl⟩
      simp at hp
  | invalidateBranch branch =>
      obtain ⟨hg, hp⟩ := Option.filter_eq_some_iff.mp h
      refine .inr ⟨entry, entry.lastAccessed, hg, rfl, id, ?_⟩
      intro hb
      simp [show entry.branch = branch from hb.symm] at hp
  | clear => cases h
  | enforceCapacity limit =>
      simp only [entryAfter] at h
      split at h
      · cases h
      · obtain ⟨old, time, hg, he⟩ := same h
        exact .inr ⟨old, time, hg, he, id, id⟩

/-- An entry that is not expired stays, unless the call replaces, removes or gives it up. -/
theorem entryAfter_of_get? {memory : Memory} {call : CacheCall} {key : String}
    {entry : CacheEntry} (hg : memory.get? key = some entry) (hset : ¬ call.op.Sets key)
    (hinv : ¬ call.op.Invalidates entry.file entry.root entry.branch)
    (hage : entry.isExpired call.now maxAge = false)
    (hbound : call.op.Bounds → entryAfter maxAge memory call key ≠ none) :
    ∃ time, entryAfter maxAge memory call key = some (entry.touched time) := by
  obtain ⟨now, op⟩ := call
  have same : memory.get? key = some (entry.touched entry.lastAccessed) := hg
  cases op with
  | set scope file content result =>
      refine ⟨entry.lastAccessed, ?_⟩
      simp only [entryAfter]
      rw [if_neg fun hk => hset hk.symm, same]
  | get scope file content =>
      simp only [entryAfter]
      split
      · exact ⟨now, by simp [hg, hage, Option.filter_some]⟩
      · exact ⟨entry.lastAccessed, same⟩
  | invalidateFile file root =>
      refine ⟨entry.lastAccessed, (Option.filter_eq_some_iff (a := entry)).mpr ⟨hg, ?_⟩⟩
      have hne : ¬ (entry.file = file ∧ entry.root = root) := fun h => hinv ⟨h.1.symm, h.2.symm⟩
      simpa only [Bool.not_eq_true', ← Bool.not_eq_true, Bool.and_eq_true, beq_iff_eq] using hne
  | invalidateBranch branch =>
      refine ⟨entry.lastAccessed, (Option.filter_eq_some_iff (a := entry)).mpr ⟨hg, ?_⟩⟩
      have hne : ¬ entry.branch = branch := fun h => hinv h.symm
      simpa using hne
  | clear => exact absurd trivial hinv
  | enforceCapacity limit =>
      have hstays := hbound trivial
      simp only [entryAfter] at hstays ⊢
      split
      · rename_i hm
        exact absurd (if_pos hm) hstays
      · exact ⟨entry.lastAccessed, same⟩

/-! ## Whole histories -/

/-- Each entry in memory is what the last call that stored under its key stored. -/
theorem keeps_of_get? {calls : List CacheCall} {key : String} {entry : CacheEntry}
    (h : ((inMemory maxAge).run calls).place.get? key = some entry) :
    ∃ stored scope file content result time,
      (inMemory maxAge).Keeps calls key stored scope file content result ∧
        entry = (entryOf stored scope file content result).touched time := by
  induction calls using List.reverseRecOn generalizing entry with
  | nil => cases h
  | append_singleton calls call ih =>
      have hstands : ((inMemory maxAge).run (calls ++ [call])).place.get? key = some entry := h
      rw [run_append, get?_step (sound_run maxAge calls)] at h
      rcases entryAfter_eq_some h with
        ⟨scope, file, content, result, hop, hkey, rfl⟩ | ⟨old, time, hg, rfl, hset, hinv⟩
      · refine ⟨call.now, scope, file, content, result, call.now, ?_, rfl⟩
        exact ⟨calls, [], by rw [← hop], hkey, by simp, by simp⟩
      · obtain ⟨stored, scope, file, content, result, asked, hkeeps, rfl⟩ := ih hg
        obtain ⟨before, after, rfl, hkey, hafter, hevict⟩ := hkeeps
        refine ⟨stored, scope, file, content, result, time, ?_, rfl⟩
        refine ⟨before, after ++ [call], by simp, hkey, ?_, ?_⟩
        · intro other hm
          rcases List.mem_append.mp hm with hm | hm
          · exact hafter other hm
          · rw [List.mem_singleton.mp hm]
            exact ⟨hset, hinv⟩
        · intro earlier other later hsplit
          rcases List.eq_nil_or_concat' later with rfl | ⟨later, last, rfl⟩
          · obtain ⟨rfl, hcall⟩ := List.append_inj' hsplit rfl
            cases hcall
            rintro ⟨-, -, hgone⟩
            rw [run_append, hgone] at hstands
            cases hstands
          · rw [← List.cons_append, ← List.append_assoc] at hsplit
            exact hevict earlier other later (List.append_inj' hsplit rfl).1

/-- What the last call that stored under a key stored is in memory, as long as it is not expired. -/
theorem get?_of_keeps {calls : List CacheCall} {key : String} {stored now : Nat} {scope : Scope}
    {file : String} {content : Bytes} {result : ParseResult}
    (h : (inMemory maxAge).Keeps calls key stored scope file content result)
    (hclock : ∀ call ∈ calls, call.now ≤ now) (hnow : now < UInt64.size)
    (hage : now - stored ≤ maxAge.millis) :
    ∃ time, ((inMemory maxAge).run calls).place.get? key =
      some ((entryOf stored scope file content result).touched time) := by
  obtain ⟨before, after, rfl, rfl, hafter, hevict⟩ := h
  induction after using List.reverseRecOn with
  | nil =>
      refine ⟨stored, ?_⟩
      rw [run_append, get?_step (sound_run maxAge before)]
      exact if_pos rfl
  | append_singleton after call ih =>
      rw [← List.cons_append, ← List.append_assoc] at hclock ⊢
      have hcall := hafter call (by simp)
      obtain ⟨time, hg⟩ := ih (fun other hm => hclock other (List.mem_append_left _ hm))
        (fun other hm => hafter other (List.mem_append_left _ hm))
        (fun earlier other later hsplit =>
          hevict earlier other (later ++ [call]) (by simp [hsplit]))
      have hlater : call.now ≤ now := hclock call (by simp)
      have hfresh : ((entryOf stored scope file content result).touched time).isExpired call.now
          maxAge = false := by
        refine (isExpired_eq_false_iff _ (Nat.lt_of_le_of_lt hlater hnow)).mpr ?_
        simp only [CacheEntry.touched, entryOf]
        omega
      have hsound := sound_run maxAge
        (before ++ ⟨stored, .set scope file content result⟩ :: after)
      obtain ⟨asked, hstays⟩ := entryAfter_of_get? hg hcall.1 hcall.2 hfresh (by
        intro hbounds hgone
        rw [← get?_step hsound] at hgone
        exact hevict after call [] rfl ⟨hbounds, by rw [hg]; rfl, hgone⟩)
      exact ⟨asked, by rw [run_append, get?_step hsound, hstays]; rfl⟩

/-- A lookup finds a result exactly if the last call that stored under its key stored that result, at
most as long ago as the allowed age, and no later call removed it; and the invalidation of a file or
of a branch leaves what was stored for every other file, project or branch as it is. -/
theorem get_run_eq_some_iff (maxAge : Duration) (calls : List CacheCall) (now : Nat)
    (scope : Scope) (file : String) (content : Bytes) (result : ParseResult)
    (hclock : ∀ call ∈ calls, call.now ≤ now) (hnow : now < UInt64.size) :
    (((inMemory maxAge).get now scope file content ((inMemory maxAge).run calls)).1.result =
        some result ↔
      ∃ stored scope' file' content',
        (inMemory maxAge).Keeps calls (scope.key file content) stored scope' file' content'
          result ∧ now - stored ≤ maxAge.millis) ∧
    ∀ key entry, ((inMemory maxAge).run calls).place.get? key = some entry →
      (∀ other root, ¬ (entry.file = other ∧ entry.root = root) →
        ((inMemory maxAge).invalidateFile other root
          ((inMemory maxAge).run calls)).2.place.get? key = some entry) ∧
      ∀ branch, entry.branch ≠ branch →
        ((inMemory maxAge).invalidateBranch branch
          ((inMemory maxAge).run calls)).2.place.get? key = some entry := by
  have hsound := sound_run maxAge calls
  refine ⟨⟨?_, ?_⟩, ?_⟩
  · intro h
    rw [get_result] at h
    obtain ⟨entry, hfound, rfl⟩ := Option.map_eq_some_iff.mp h
    obtain ⟨hg, hfresh⟩ := Option.filter_eq_some_iff.mp hfound
    obtain ⟨stored, scope', file', content', result, time, hkeeps, rfl⟩ := keeps_of_get? hg
    refine ⟨stored, scope', file', content', hkeeps, ?_⟩
    exact (isExpired_eq_false_iff _ hnow).mp (by simpa using hfresh)
  · rintro ⟨stored, scope', file', content', hkeeps, hage⟩
    obtain ⟨time, hg⟩ := get?_of_keeps hkeeps hclock hnow hage
    have hfresh := (isExpired_eq_false_iff
      ((entryOf stored scope' file' content' result).touched time) hnow).mpr hage
    rw [get_result, hg, Option.filter_some, hfresh]
    rfl
  · intro key entry hg
    refine ⟨?_, ?_⟩
    · intro other root hne
      refine (get?_removeWhere hsound _ key).trans (Option.filter_eq_some_iff.mpr ⟨hg, ?_⟩)
      simpa only [Bool.not_eq_true', ← Bool.not_eq_true, Bool.and_eq_true, beq_iff_eq] using hne
    · intro branch hne
      refine (get?_removeWhere hsound _ key).trans (Option.filter_eq_some_iff.mpr ⟨hg, ?_⟩)
      simpa using hne

/-- A result is found again, although it was asked for and another file was invalidated since. -/
theorem found_after_other_calls :
    ((inMemory (.ofSeconds 1)).get 1005 ⟨"/repo", "main", none⟩ "a.py" [120]
      ((inMemory (.ofSeconds 1)).run
        [⟨5, .set ⟨"/repo", "main", none⟩ "a.py" [120] (.ofNothing "a.py" .python 7 none)⟩,
          ⟨900, .get ⟨"/repo", "main", none⟩ "a.py" [120]⟩,
          ⟨901, .invalidateFile "b.py" "/repo"⟩])).1.result =
      some (.ofNothing "a.py" .python 7 none) := by
  refine (get_run_eq_some_iff _ _ 1005 _ _ _ _ (by decide) (by decide)).1.mpr
    ⟨5, ⟨"/repo", "main", none⟩, "a.py", [120], ⟨[], _, rfl, rfl, ?_, ?_⟩, by decide⟩
  · intro call hm
    rcases List.mem_cons.mp hm with rfl | hm
    · exact ⟨id, id⟩
    · rw [List.mem_singleton.mp hm]
      exact ⟨id, by simp [CacheOp.Invalidates]⟩
  · rintro earlier call later hsplit ⟨hbounds, -⟩
    have hm : call ∈ earlier ++ call :: later := by simp
    rw [← hsplit] at hm
    rcases List.mem_cons.mp hm with rfl | hm
    · exact hbounds
    · rw [List.mem_singleton.mp hm] at hbounds
      exact hbounds

end Cache

end CodeAtlas
