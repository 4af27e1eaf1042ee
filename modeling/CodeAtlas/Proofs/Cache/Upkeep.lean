import CodeAtlas.Proofs.Cache.Faithful

/-! Uses of a cache whose store invents nothing. Lookups, removals and a bound on the number of
entries bring no results in, and what holds of all stored results holds of every result that a lookup
finds. -/

namespace CodeAtlas

open ParseResult (Facts)

variable {σ α : Type} {store : Store σ} {P : String → Facts → Prop}

namespace CacheState

variable {s : CacheState σ}

theorem place_call (use : Use σ α) : (s.call use).2.place = (use s.place).2 := by
  unfold call
  rcases use s.place with ⟨_ | answer, place⟩ <;> rfl

theorem holds_call {use : Use σ α} (h : store.Holds P (use s.place).2) :
    store.Holds P (s.call use).2.place := by
  rwa [place_call]

theorem shows_of_call_read {key : String} {entry : CacheEntry}
    (h : (s.call (store.read key)).1.join = some entry) : store.Shows s.place key entry := by
  unfold call at h
  unfold Store.Shows
  generalize store.read key s.place = answered at h ⊢
  rcases answered with ⟨_ | found, place⟩
  · cases h
  · exact congrArg Except.ok h

end CacheState

namespace Cache

/-! ## Within a store -/

section Store

variable {s : CacheState σ} (hf : store.Faithful) (h : store.Holds P s.place)
include hf h

theorem holds_drop (key : String) : store.Holds P (drop store key s).place := by
  simp only [drop]
  split
  · exact CacheState.holds_call (hf.holds_delete h key)
  · exact CacheState.holds_call (hf.holds_delete h key)

theorem holds_readAll (keys : List String) : store.Holds P (readAll store keys s).2.place := by
  induction keys generalizing s with
  | nil => exact h
  | cons key keys ih => exact ih (CacheState.holds_call (hf.holds_read h key))

theorem holds_entries : store.Holds P (entries store s).2.place :=
  holds_readAll hf (CacheState.holds_call (hf.holds_keys h)) _

theorem holds_removeEach (keys : List String) :
    store.Holds P (removeEach store keys s).2.place := by
  induction keys generalizing s with
  | nil => exact h
  | cons key keys ih => exact ih (CacheState.holds_call (hf.holds_delete h key))

theorem holds_removeAll (keys : List String) : store.Holds P (removeAll store keys s).2.place :=
  holds_removeEach hf h keys

end Store

/-! ## Through a cache -/

theorem result_touch (cache : Cache σ) (now : Nat) (scope : Scope) (file : String)
    (entry : CacheEntry) (s : CacheState σ) :
    (cache.touch now scope file entry s).1 =
      ⟨some entry.result, [.cacheHit file scope.branch]⟩ := by
  unfold touch
  split <;> rfl

/-- A lookup reads the entry, and then removes it or notes that it was asked for. -/
theorem get_eq (cache : Cache σ) (now : Nat) (scope : Scope) (file : String) (content : Bytes)
    (s : CacheState σ) : cache.get now scope file content s =
      match (cache.find (scope.key file content) s).1 with
      | none => miss scope file (cache.find (scope.key file content) s).2
      | some entry =>
        if entry.isExpired now cache.maxAge then
          miss scope file (cache.discard (scope.key file content)
            (cache.find (scope.key file content) s).2)
        else cache.touch now scope file entry (cache.find (scope.key file content) s).2 := by
  obtain ⟨_ | store, maxAge⟩ := cache <;> rfl

/-- The store of the cache, if it has one, is faithful. -/
def Faithful (cache : Cache σ) : Prop :=
  ∀ store ∈ cache.store, store.Faithful

/-- What is stored, if anything can be, satisfies `P`. -/
def Holds (cache : Cache σ) (P : String → Facts → Prop) (s : CacheState σ) : Prop :=
  ∀ store ∈ cache.store, store.Holds P s.place

/-- Nothing can be read from the place. -/
def ShowsNothing (cache : Cache σ) (place : σ) : Prop :=
  ∀ store ∈ cache.store, ∀ key entry, ¬ store.Shows place key entry

theorem ShowsNothing.holds {cache : Cache σ} {s : CacheState σ} (h : cache.ShowsNothing s.place)
    (P : String → Facts → Prop) : cache.Holds P s :=
  fun store hstore key entry hshows => absurd hshows (h store hstore key entry)

variable {cache : Cache σ} {s : CacheState σ} (hf : cache.Faithful) (h : cache.Holds P s)
include hf h

/-- What is read for a key stands there with its own key, and satisfies `P`. -/
theorem of_find {key : String} {entry : CacheEntry} (hfound : (cache.find key s).1 = some entry) :
    entry.key = key ∧ entry.result.facts.Steady ∧ P key entry.result.facts := by
  obtain ⟨_ | store, maxAge⟩ := cache
  · cases hfound
  · exact h store rfl _ _ (CacheState.shows_of_call_read hfound)

theorem holds_find (key : String) : cache.Holds P (cache.find key s).2 := by
  obtain ⟨_ | store, maxAge⟩ := cache
  · exact h
  · rintro _ ⟨⟩
    exact CacheState.holds_call ((hf store rfl).holds_read (h store rfl) key)

theorem holds_discard (key : String) : cache.Holds P (cache.discard key s) := by
  obtain ⟨_ | store, maxAge⟩ := cache
  · exact h
  · rintro _ ⟨⟩
    exact holds_drop (hf store rfl) (h store rfl) key

theorem holds_touch (now : Nat) (scope : Scope) (file : String) {entry : CacheEntry}
    (hsteady : entry.result.facts.Steady) (hfacts : P entry.key entry.result.facts) :
    cache.Holds P (cache.touch now scope file entry s).2 := by
  obtain ⟨_ | store, maxAge⟩ := cache
  · exact h
  · rintro _ ⟨⟩
    exact CacheState.holds_call ((hf store rfl).holds_write (h store rfl) hsteady hfacts)

theorem facts_of_get {now : Nat} {scope : Scope} {file : String} {content : Bytes}
    {result : ParseResult} (hfound : (cache.get now scope file content s).1.result = some result) :
    P (scope.key file content) result.facts := by
  rw [get_eq] at hfound
  cases hread : (cache.find (scope.key file content) s).1 with
  | none =>
      rw [hread] at hfound
      cases hfound
  | some entry =>
      rw [hread] at hfound
      dsimp only at hfound
      split at hfound
      · cases hfound
      · rw [result_touch] at hfound
        obtain rfl := Option.some.inj hfound
        exact (of_find hf h hread).2.2

theorem holds_get (now : Nat) (scope : Scope) (file : String) (content : Bytes) :
    cache.Holds P (cache.get now scope file content s).2 := by
  rw [get_eq]
  have hread := holds_find hf h (scope.key file content)
  cases hfound : (cache.find (scope.key file content) s).1 with
  | none => exact hread
  | some entry =>
      dsimp only
      split
      · exact holds_discard hf hread _
      · obtain ⟨hkey, hsteady, hfacts⟩ := of_find hf h hfound
        -- The entry is written again under its own key, which is the one it was found under.
        rw [← hkey] at hfacts
        exact holds_touch hf hread now scope file hsteady hfacts

theorem holds_set (now : Nat) {scope : Scope} {file : String} {content : Bytes}
    {result : ParseResult} (hsteady : result.facts.Steady)
    (hresult : P (scope.key file content) result.facts) :
    cache.Holds P (cache.set now scope file content result s).2 := by
  obtain ⟨_ | store, maxAge⟩ := cache
  · exact h
  · rintro _ ⟨⟩
    have hwritten : store.Holds P
        (s.call (store.write (entryOf now scope file content result))).2.place :=
      CacheState.holds_call ((hf store rfl).holds_write (h store rfl) hsteady hresult)
    simp only [set]
    rcases hcall : s.call (store.write (entryOf now scope file content result)) with
      ⟨_ | _, after⟩
    · rwa [hcall] at hwritten
    · rwa [hcall] at hwritten

theorem holds_removeWhere (p : CacheEntry → Bool) :
    cache.Holds P (cache.removeWhere p s).2 := by
  obtain ⟨_ | store, maxAge⟩ := cache
  · exact h
  · rintro _ ⟨⟩
    exact holds_removeAll (hf store rfl) (holds_entries (hf store rfl) (h store rfl)) _

theorem holds_clear : cache.Holds P (cache.clear s).2 := by
  obtain ⟨_ | store, maxAge⟩ := cache
  · exact h
  · rintro _ ⟨⟩
    have hkeys := CacheState.holds_call ((hf store rfl).holds_keys (h store rfl))
    simp only [clear]
    cases (s.call store.keys).1 with
    | none => exact hkeys
    | some keys => exact holds_removeAll (hf store rfl) hkeys keys

theorem holds_enforceCapacity (limit : Nat) :
    cache.Holds P (cache.enforceCapacity limit s).2 := by
  obtain ⟨_ | store, maxAge⟩ := cache
  · exact h
  · rintro _ ⟨⟩
    exact holds_removeAll (hf store rfl) (holds_entries (hf store rfl) (h store rfl)) _

/-- A use that stores no result brings none in. -/
theorem holds_step (call : CacheCall) (hsets : ∀ key, ¬ call.op.Sets key) :
    cache.Holds P (cache.step s call) := by
  obtain ⟨now, op⟩ := call
  cases op with
  | set scope file content result => exact absurd rfl (hsets (scope.key file content))
  | get scope file content => exact holds_get hf h now scope file content
  | invalidateFile file root => exact holds_removeWhere hf h _
  | invalidateBranch branch => exact holds_removeWhere hf h _
  | clear => exact holds_clear hf h
  | enforceCapacity limit => exact holds_enforceCapacity hf h limit

end Cache

end CodeAtlas
