import CodeAtlas.Cache.Entry
import CodeAtlas.Error

/-! Places that keep entries by key. A place is a state, and a store says how it is used; every use
may fail. -/

namespace CodeAtlas

/-- A use of a place: the answer, unless it fails, and the place after it. -/
abbrev Use (σ α : Type) := σ → Except CacheError α × σ

namespace Use

variable {σ τ α : Type}

def look (answer : σ → Except CacheError α) : Use σ α :=
  fun place => (answer place, place)

def failing (error : CacheError) : Use σ α :=
  look fun _ => .error error

/-- A use of a place inside another one. -/
def within (get : τ → σ) (set : σ → τ → τ) (use : Use σ α) : Use τ α :=
  fun place =>
    let (answer, inner) := use (get place)
    (answer, set inner place)

end Use

/-- How a place that keeps entries is used. `delete` tells whether there was an entry, and `dated`
whether the time of the last write is known. -/
structure Store (σ : Type) where
  has : (key : String) → Use σ Bool
  read : (key : String) → Use σ (Option CacheEntry)
  write : (entry : CacheEntry) → Use σ Unit
  delete : (key : String) → Use σ Bool
  dated : (key : String) → Use σ Bool
  keys : Use σ (List String)

namespace Store

variable {σ τ : Type}

/-- A store whose place lies inside another one. -/
def within (get : τ → σ) (set : σ → τ → τ) (store : Store σ) : Store τ where
  has key := (store.has key).within get set
  read key := (store.read key).within get set
  write entry := (store.write entry).within get set
  delete key := (store.delete key).within get set
  dated key := (store.dated key).within get set
  keys := store.keys.within get set

/-- The ways to use a store. -/
inductive Action where
  | has
  | read
  | write
  | delete
  | dated
  | keys
  deriving Repr, DecidableEq

/-- A use that fails if it is a broken one. -/
def guarded {α : Type} (broken : List Action) (action : Action) (use : Use σ α) : Use σ α :=
  if List.elem action broken then .failing .lockPoisoned else use

/-- A store that cannot be used in some ways. -/
def breaking (broken : List Action) (store : Store σ) : Store σ where
  has key := guarded broken .has (store.has key)
  read key := guarded broken .read (store.read key)
  write entry := guarded broken .write (store.write entry)
  delete key := guarded broken .delete (store.delete key)
  dated key := guarded broken .dated (store.dated key)
  keys := guarded broken .keys store.keys

end Store

end CodeAtlas
