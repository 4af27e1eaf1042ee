import CodeAtlas.Duration
import CodeAtlas.Parse.Result

/-! Entries of a cache. Times are in milliseconds. -/

namespace CodeAtlas

/-- A cached result with where it holds and when it was stored and last asked for. -/
structure CacheEntry where
  key : String
  file : String
  root : String
  branch : String
  commit : Option String
  created : Nat
  lastAccessed : Nat
  result : ParseResult

namespace CacheEntry

/-- An entry is expired once it is older than `maxAge`. -/
def isExpired (entry : CacheEntry) (now : Nat) (maxAge : Duration) : Bool :=
  min maxAge.millis (UInt64.size - 1) < now - entry.created

/-- An entry that was asked for now. -/
def touched (entry : CacheEntry) (now : Nat) : CacheEntry :=
  { entry with lastAccessed := now }

/-- The order in which entries are given up: the one that was asked for least recently first, and of
several such the one with the least key. -/
def leavesBefore (a b : CacheEntry) : Bool :=
  a.lastAccessed < b.lastAccessed || (a.lastAccessed == b.lastAccessed && decide (a.key ≤ b.key))

/-! ## Records -/

/-- The members of an entry's record, with the result in a given form. -/
def members (result : Json) (e : CacheEntry) : List (String × Json) :=
  [("key", .str e.key), ("file_path", .str e.file), ("project_root", .str e.root),
    ("branch", .str e.branch), ("commit", .ofOption .str e.commit),
    ("created_at_ms", .ofNat e.created), ("last_accessed_ms", .ofNat e.lastAccessed),
    ("result", result)]

/-- An entry for readers. -/
def toJson (e : CacheEntry) : Json := .obj (e.members e.result.toJson)

def toRecord (e : CacheEntry) : Json := .obj (e.members e.result.toRecord)

/-- The record that is read where the record of an entry was written, if it can be read. -/
def stored? (e : CacheEntry) : Option Json := e.toRecord.restored?

/-- Reads a stored record. -/
def ofRecord? (value : Json) : Option CacheEntry := do
  let fields ← value.record? ["key", "file_path", "project_root", "branch", "commit",
    "created_at_ms", "last_accessed_ms", "result"]
  return {
    key := ← fields.get "key" Json.str?
    file := ← fields.get "file_path" Json.str?
    root := ← fields.get "project_root" Json.str?
    branch := ← fields.get "branch" Json.str?
    commit := ← fields.opt "commit" Json.str?
    created := ← fields.get "created_at_ms" Json.word64?
    lastAccessed := ← fields.get "last_accessed_ms" Json.word64?
    result := ← fields.get "result" ParseResult.ofJson? }

end CacheEntry

end CodeAtlas
