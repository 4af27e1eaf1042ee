import CodeAtlas.Cache.Basic

/-! A store that notes what becomes of each use. A cache answers with it as it answers with the store
itself, so that the notes tell which uses the cache makes of any store and which of them fail. -/

namespace CodeAtlas

/-! ## Stores over other places -/

namespace CacheState

variable {σ τ α : Type}

/-- The state with the place seen in another way. -/
def through (view : τ → σ) (s : CacheState τ) : CacheState σ := ⟨view s.place, s.counters⟩

end CacheState

namespace Use

variable {σ τ α : Type}

/-- Both uses give the same answer, and the places go along with each other. -/
def Follows (view : τ → σ) (outer : Use τ α) (inner : Use σ α) : Prop :=
  ∀ place, (outer place).1 = (inner (view place)).1 ∧
    view (outer place).2 = (inner (view place)).2

end Use

/-- Every use that a cache makes of the outer store follows the one of the inner store. -/
structure Store.Follows {σ τ : Type} (view : τ → σ) (outer : Store τ) (inner : Store σ) :
    Prop where
  read : ∀ key, (outer.read key).Follows view (inner.read key)
  write : ∀ entry, (outer.write entry).Follows view (inner.write entry)
  delete : ∀ key, (outer.delete key).Follows view (inner.delete key)
  keys : outer.keys.Follows view inner.keys

section Follows

variable {σ τ α : Type} {view : τ → σ}

theorem CacheState.call_through {outer : Use τ α} {inner : Use σ α} (h : outer.Follows view inner)
    (s : CacheState τ) :
    (s.call outer).1 = ((s.through view).call inner).1 ∧
      (s.call outer).2.through view = ((s.through view).call inner).2 := by
  obtain ⟨hanswer, hplace⟩ := h s.place
  simp only [call, through]
  revert hanswer hplace
  obtain ⟨answer, place⟩ := outer s.place
  obtain ⟨answer', place'⟩ := inner (view s.place)
  rintro rfl rfl
  cases answer <;> exact ⟨rfl, rfl⟩

namespace Cache

variable {outer : Store τ} {inner : Store σ} (h : Store.Follows view outer inner)
include h

theorem drop_through (key : String) (s : CacheState τ) :
    (drop outer key s).through view = drop inner key (s.through view) := by
  obtain ⟨hanswer, hafter⟩ := CacheState.call_through (h.delete key) s
  simp only [drop, ← hanswer, ← hafter]
  split <;> rfl

theorem hit_through (now : Nat) (scope : Scope) (file : String) (entry : CacheEntry)
    (s : CacheState τ) :
    (hit outer now scope file entry s).1 = (hit inner now scope file entry (s.through view)).1 ∧
      (hit outer now scope file entry s).2.through view =
        (hit inner now scope file entry (s.through view)).2 := by
  obtain ⟨-, hafter⟩ := CacheState.call_through (h.write (entry.touched now)) s
  refine ⟨rfl, ?_⟩
  simp only [hit, ← hafter]
  rfl

theorem readAll_through (keys : List String) (s : CacheState τ) :
    (readAll outer keys s).1 = (readAll inner keys (s.through view)).1 ∧
      (readAll outer keys s).2.through view = (readAll inner keys (s.through view)).2 := by
  induction keys generalizing s with
  | nil => exact ⟨rfl, rfl⟩
  | cons key keys ih =>
      obtain ⟨hanswer, hafter⟩ := CacheState.call_through (h.read key) s
      obtain ⟨hentries, hrest⟩ := ih (s.call (outer.read key)).2
      simp only [readAll, ← hanswer, ← hafter, hentries, hrest, and_self]

theorem entries_through (s : CacheState τ) :
    (entries outer s).1 = (entries inner (s.through view)).1 ∧
      (entries outer s).2.through view = (entries inner (s.through view)).2 := by
  obtain ⟨hanswer, hafter⟩ := CacheState.call_through h.keys s
  simp only [entries, ← hanswer, ← hafter]
  exact readAll_through h _ _

theorem removeEach_through (keys : List String) (s : CacheState τ) :
    (removeEach outer keys s).1 = (removeEach inner keys (s.through view)).1 ∧
      (removeEach outer keys s).2.through view = (removeEach inner keys (s.through view)).2 := by
  induction keys generalizing s with
  | nil => exact ⟨rfl, rfl⟩
  | cons key keys ih =>
      obtain ⟨hanswer, hafter⟩ := CacheState.call_through (h.delete key) s
      obtain ⟨hcount, hrest⟩ := ih (s.call (outer.delete key)).2
      simp only [removeEach, ← hanswer, ← hafter, hcount, hrest, and_self]

theorem removeAll_through (keys : List String) (s : CacheState τ) :
    (removeAll outer keys s).1 = (removeAll inner keys (s.through view)).1 ∧
      (removeAll outer keys s).2.through view = (removeAll inner keys (s.through view)).2 := by
  obtain ⟨hcount, hafter⟩ := removeEach_through h keys s
  simp only [removeAll, ← hcount, ← hafter]
  exact ⟨trivial, rfl⟩

end Cache

end Follows

/-! ## Caches over other places -/

namespace Cache

variable {σ τ : Type} {view : τ → σ}

/-- Both caches are disabled, or the store of the one follows that of the other. -/
structure Follows (view : τ → σ) (outer : Cache τ) (inner : Cache σ) : Prop where
  store : Option.Rel (Store.Follows view) outer.store inner.store
  maxAge_eq : outer.maxAge = inner.maxAge

variable {outer : Cache τ} {inner : Cache σ} (h : Follows view outer inner) (s : CacheState τ)
include h

theorem get_through (now : Nat) (scope : Scope) (file : String) (content : Bytes) :
    (outer.get now scope file content s).1 = (inner.get now scope file content (s.through view)).1 ∧
      (outer.get now scope file content s).2.through view =
        (inner.get now scope file content (s.through view)).2 := by
  obtain ⟨store, maxAge⟩ := outer
  obtain ⟨store', maxAge'⟩ := inner
  obtain ⟨hstore, rfl⟩ := h
  cases hstore with
  | none => exact ⟨rfl, rfl⟩
  | some hstore =>
      obtain ⟨hanswer, hafter⟩ := CacheState.call_through (hstore.read (scope.key file content)) s
      simp only [get, ← hanswer, ← hafter]
      split
      · exact ⟨rfl, rfl⟩
      · split
        · rw [← drop_through hstore]
          exact ⟨rfl, rfl⟩
        · exact hit_through hstore now scope file _ _

theorem set_through (now : Nat) (scope : Scope) (file : String) (content : Bytes)
    (result : ParseResult) :
    (outer.set now scope file content result s).1 =
        (inner.set now scope file content result (s.through view)).1 ∧
      (outer.set now scope file content result s).2.through view =
        (inner.set now scope file content result (s.through view)).2 := by
  obtain ⟨store, maxAge⟩ := outer
  obtain ⟨store', maxAge'⟩ := inner
  obtain ⟨hstore, rfl⟩ := h
  cases hstore with
  | none => exact ⟨rfl, rfl⟩
  | some hstore =>
      have hcall := CacheState.call_through
        (hstore.write (entryOf now scope file content result)) s
      simp only [set]
      revert hcall
      obtain ⟨written, after⟩ := s.call _
      obtain ⟨written', after'⟩ := (s.through view).call _
      rintro ⟨rfl, rfl⟩
      cases written <;> exact ⟨rfl, rfl⟩

theorem removeWhere_through (p : CacheEntry → Bool) :
    (outer.removeWhere p s).1 = (inner.removeWhere p (s.through view)).1 ∧
      (outer.removeWhere p s).2.through view = (inner.removeWhere p (s.through view)).2 := by
  obtain ⟨store, maxAge⟩ := outer
  obtain ⟨store', maxAge'⟩ := inner
  obtain ⟨hstore, rfl⟩ := h
  cases hstore with
  | none => exact ⟨rfl, rfl⟩
  | some hstore =>
      obtain ⟨hall, hafter⟩ := entries_through hstore s
      simp only [removeWhere, ← hall, ← hafter]
      exact removeAll_through hstore _ _

theorem clear_through :
    (outer.clear s).1 = (inner.clear (s.through view)).1 ∧
      (outer.clear s).2.through view = (inner.clear (s.through view)).2 := by
  obtain ⟨store, maxAge⟩ := outer
  obtain ⟨store', maxAge'⟩ := inner
  obtain ⟨hstore, rfl⟩ := h
  cases hstore with
  | none => exact ⟨rfl, rfl⟩
  | some hstore =>
      obtain ⟨hkeys, hafter⟩ := CacheState.call_through hstore.keys s
      simp only [clear, ← hkeys, ← hafter]
      split
      · exact ⟨rfl, rfl⟩
      · exact removeAll_through hstore _ _

theorem enforceCapacity_through (limit : Nat) :
    (outer.enforceCapacity limit s).1 = (inner.enforceCapacity limit (s.through view)).1 ∧
      (outer.enforceCapacity limit s).2.through view =
        (inner.enforceCapacity limit (s.through view)).2 := by
  obtain ⟨store, maxAge⟩ := outer
  obtain ⟨store', maxAge'⟩ := inner
  obtain ⟨hstore, rfl⟩ := h
  cases hstore with
  | none => exact ⟨rfl, rfl⟩
  | some hstore =>
      obtain ⟨hall, hafter⟩ := entries_through hstore s
      simp only [enforceCapacity, ← hall, ← hafter]
      exact removeAll_through hstore _ _

end Cache

/-! ## Notes -/

/-- What became of a use of a store. -/
inductive UseOutcome where
  | failed
  | removed
  | answered
  deriving Repr, DecidableEq

/-- A note of a use of a store. -/
structure UseNote where
  action : Store.Action
  outcome : UseOutcome
  deriving Repr, DecidableEq

/-- The outcome of a use with a given answer; some answers tell that an entry was removed. -/
def UseOutcome.of {α : Type} (removes : α → Bool) : Except CacheError α → UseOutcome
  | .error _ => .failed
  | .ok answer => if removes answer then .removed else .answered

/-- A place with the notes of the uses so far. -/
abbrev Noted (σ : Type) := σ × List UseNote

/-- The use with a note of what became of it. -/
def Use.noted {σ α : Type} (action : Store.Action) (removes : α → Bool) (use : Use σ α) :
    Use (Noted σ) α := fun place =>
  let (answer, inner) := use place.1
  (answer, (inner, place.2 ++ [⟨action, .of removes answer⟩]))

/-- The store with a note of each use. -/
def Store.noted {σ : Type} (store : Store σ) : Store (Noted σ) where
  has key := (store.has key).noted .has fun _ => false
  read key := (store.read key).noted .read fun _ => false
  write entry := (store.write entry).noted .write fun _ => false
  delete key := (store.delete key).noted .delete id
  dated key := (store.dated key).noted .dated fun _ => false
  keys := store.keys.noted .keys fun _ => false

/-- The cache with a note of each use of its store. -/
def Cache.noted {σ : Type} (cache : Cache σ) : Cache (Noted σ) :=
  ⟨cache.store.map Store.noted, cache.maxAge⟩

theorem Cache.noted_some {σ : Type} (store : Store σ) (maxAge : Duration) :
    Cache.noted ⟨some store, maxAge⟩ = ⟨some store.noted, maxAge⟩ := rfl

/-- Taking notes changes nothing else. -/
theorem Cache.follows_noted {σ : Type} (cache : Cache σ) : cache.noted.Follows Prod.fst cache := by
  obtain ⟨store, maxAge⟩ := cache
  refine ⟨?_, rfl⟩
  cases store with
  | none => exact .none
  | some store =>
      refine .some ⟨?_, ?_, ?_, ?_⟩
      · exact fun key place => ⟨rfl, rfl⟩
      · exact fun entry place => ⟨rfl, rfl⟩
      · exact fun key place => ⟨rfl, rfl⟩
      · exact fun place => ⟨rfl, rfl⟩

end CodeAtlas
