import CodeAtlas.Cache.Scope
import CodeAtlas.Cache.Store
import CodeAtlas.Config.Basic
import CodeAtlas.Event

/-! The cache of results. A store that fails never stops an analysis: the failure is counted, and
what could not be read counts as missing. -/

namespace CodeAtlas

/-- What a cache has counted. -/
structure CacheCounters where
  hits : Nat
  misses : Nat
  writes : Nat
  deletes : Nat
  errors : Nat
  deriving Repr, DecidableEq, Inhabited

namespace CacheCounters

def zero : CacheCounters := ⟨0, 0, 0, 0, 0⟩

/-- The share of hits in all lookups. -/
def hitRate (c : CacheCounters) : Fixed := .ratio c.hits (c.hits + c.misses)

def toJson (c : CacheCounters) : Json :=
  .obj [("hits", .ofNat c.hits), ("misses", .ofNat c.misses), ("writes", .ofNat c.writes),
    ("deletes", .ofNat c.deletes), ("errors", .ofNat c.errors), ("hit_rate", .real c.hitRate)]

end CacheCounters

/-- A cache: a store, unless caching is disabled, and the age that an entry may reach. -/
structure Cache (σ : Type) where
  store : Option (Store σ)
  maxAge : Duration

/-- What changes while a cache is used: the place of its entries, and the counters. -/
structure CacheState (σ : Type) where
  place : σ
  counters : CacheCounters

namespace CacheState

variable {σ α : Type}

/-- Nothing is counted yet. -/
def fresh (place : σ) : CacheState σ := ⟨place, .zero⟩

/-- Uses the store. A failure is counted and gives no answer. -/
def call (use : Use σ α) (s : CacheState σ) : Option α × CacheState σ :=
  match use s.place with
  | (.ok answer, place) => (some answer, ⟨place, s.counters⟩)
  | (.error _, place) =>
    (none, ⟨place, { s.counters with errors := s.counters.errors + 1 }⟩)

def countHit (s : CacheState σ) : CacheState σ :=
  { s with counters := { s.counters with hits := s.counters.hits + 1 } }

def countMiss (s : CacheState σ) : CacheState σ :=
  { s with counters := { s.counters with misses := s.counters.misses + 1 } }

def countWrite (s : CacheState σ) : CacheState σ :=
  { s with counters := { s.counters with writes := s.counters.writes + 1 } }

def countDeletes (n : Nat) (s : CacheState σ) : CacheState σ :=
  { s with counters := { s.counters with deletes := s.counters.deletes + n } }

def resetCounters (s : CacheState σ) : CacheState σ := fresh s.place

end CacheState

/-- What a lookup found, and the events that it told. -/
structure Lookup where
  result : Option ParseResult
  events : List Event

namespace Cache

variable {σ : Type}

/-- The age that an entry may reach unless it is set. -/
def defaultMaxAge : Duration := .ofSeconds 7200

/-- A cache that finds and keeps nothing. -/
def disabled : Cache σ := ⟨none, defaultMaxAge⟩

def isEnabled (cache : Cache σ) : Bool := cache.store.isSome

/-- The cache that a configuration asks for, in a store that could be opened. -/
def ofConfig (settings : Config.Cache) (store : Option (Store σ)) :
    Except ConfigError (Cache σ) := do
  let maxAge ← settings.lifetime
  return if settings.isEnabled && store.isSome then ⟨store, maxAge⟩ else disabled

/-! ## Single results -/

/-- Nothing was found. -/
def miss (scope : Scope) (file : String) (s : CacheState σ) : Lookup × CacheState σ :=
  (⟨none, [.cacheMiss file scope.branch]⟩, s.countMiss)

/-- Removes the entry for a key and counts it if it was there. -/
def drop (store : Store σ) (key : String) (s : CacheState σ) : CacheState σ :=
  let (gone, s) := s.call (store.delete key)
  if gone == some true then s.countDeletes 1 else s

/-- Finds an entry that is not expired, and notes that it was asked for. -/
def hit (store : Store σ) (now : Nat) (scope : Scope) (file : String) (entry : CacheEntry)
    (s : CacheState σ) : Lookup × CacheState σ :=
  let (_, s) := s.call (store.write (entry.touched now))
  (⟨some entry.result, [.cacheHit file scope.branch]⟩, s.countHit)

/-- Looks up the result for a file with a content. An expired entry is removed. -/
def get (cache : Cache σ) (now : Nat) (scope : Scope) (file : String) (content : Bytes)
    (s : CacheState σ) : Lookup × CacheState σ :=
  match cache.store with
  | none => miss scope file s
  | some store =>
    let key := scope.key file content
    let (found, s) := s.call (store.read key)
    match found.join with
    | none => miss scope file s
    | some entry =>
      if entry.isExpired now cache.maxAge then miss scope file (drop store key s)
      else hit store now scope file entry s

/-- The entry for a result that is stored now. -/
def entryOf (now : Nat) (scope : Scope) (file : String) (content : Bytes) (result : ParseResult) :
    CacheEntry where
  key := scope.key file content
  file := file
  root := scope.root
  branch := scope.branch
  commit := scope.commit
  created := now
  lastAccessed := now
  result := result

/-- Stores the result for a file with a content. The answer tells whether it was stored. -/
def set (cache : Cache σ) (now : Nat) (scope : Scope) (file : String) (content : Bytes)
    (result : ParseResult) (s : CacheState σ) : Bool × CacheState σ :=
  match cache.store with
  | none => (false, s)
  | some store =>
    match s.call (store.write (entryOf now scope file content result)) with
    | (some _, s) => (true, s.countWrite)
    | (none, s) => (false, s)

/-! ## One use of the store at a time -/

/-- Reads the entry for a key. -/
def find (cache : Cache σ) (key : String) (s : CacheState σ) : Option CacheEntry × CacheState σ :=
  match cache.store with
  | none => (none, s)
  | some store =>
    let (found, s) := s.call (store.read key)
    (found.join, s)

/-- Removes the entry for a key, which is expired. -/
def discard (cache : Cache σ) (key : String) (s : CacheState σ) : CacheState σ :=
  match cache.store with
  | none => s
  | some store => drop store key s

/-- Notes that an entry was asked for. -/
def touch (cache : Cache σ) (now : Nat) (scope : Scope) (file : String) (entry : CacheEntry)
    (s : CacheState σ) : Lookup × CacheState σ :=
  match cache.store with
  | none => (⟨some entry.result, [.cacheHit file scope.branch]⟩, s.countHit)
  | some store => hit store now scope file entry s

/-! ## All entries -/

/-- Reads the entries for some keys. Those that cannot be read are passed over. -/
def readAll (store : Store σ) : List String → CacheState σ → List CacheEntry × CacheState σ
  | [], s => ([], s)
  | key :: keys, s =>
    let (found, s) := s.call (store.read key)
    let (entries, s) := readAll store keys s
    (found.join.toList ++ entries, s)

/-- Every entry that can be read. -/
def entries (store : Store σ) (s : CacheState σ) : List CacheEntry × CacheState σ :=
  let (keys, s) := s.call store.keys
  readAll store (keys.getD []) s

/-- Removes the entries for some keys. The answer is the number of those that were there. -/
def removeEach (store : Store σ) : List String → CacheState σ → Nat × CacheState σ
  | [], s => (0, s)
  | key :: keys, s =>
    let (gone, s) := s.call (store.delete key)
    let (count, s) := removeEach store keys s
    (count + (if gone == some true then 1 else 0), s)

/-- Removes the entries for some keys and counts those that were there. -/
def removeAll (store : Store σ) (keys : List String) (s : CacheState σ) : Nat × CacheState σ :=
  let (count, s) := removeEach store keys s
  (count, s.countDeletes count)

/-- Removes the entries with a property. -/
def removeWhere (cache : Cache σ) (p : CacheEntry → Bool) (s : CacheState σ) :
    Nat × CacheState σ :=
  match cache.store with
  | none => (0, s)
  | some store =>
    let (all, s) := entries store s
    removeAll store ((all.filter p).map (·.key)) s

/-- Removes every entry for a file of a project, on any branch. -/
def invalidateFile (cache : Cache σ) (file root : String) (s : CacheState σ) :
    Nat × CacheState σ :=
  cache.removeWhere (fun entry => entry.file == file && entry.root == root) s

def invalidateBranch (cache : Cache σ) (branch : String) (s : CacheState σ) :
    Nat × CacheState σ :=
  cache.removeWhere (fun entry => entry.branch == branch) s

/-- Removes every entry, also those that cannot be read. -/
def clear (cache : Cache σ) (s : CacheState σ) : Nat × CacheState σ :=
  match cache.store with
  | none => (0, s)
  | some store =>
    let (keys, s) := s.call store.keys
    match keys with
    | none => (0, s)
    | some keys => removeAll store keys s

/-- The entries that have to go so that at most `limit` stay. -/
def surplus (limit : Nat) (entries : List CacheEntry) : List CacheEntry :=
  (entries.mergeSort CacheEntry.leavesBefore).take (entries.length - limit)

/-- Gives up entries until at most `limit` stay. -/
def enforceCapacity (cache : Cache σ) (limit : Nat) (s : CacheState σ) : Nat × CacheState σ :=
  match cache.store with
  | none => (0, s)
  | some store =>
    let (all, s) := entries store s
    removeAll store ((surplus limit all).map (·.key)) s

end Cache

end CodeAtlas
