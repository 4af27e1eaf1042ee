import CodeAtlas.Keyed
import CodeAtlas.Cache.Store

/-! A store in memory, and one in the table of a database, which holds records. Neither fails, but for
records that cannot be read. -/

namespace CodeAtlas

abbrev Memory := Keyed String CacheEntry

/-- Using entries in memory. -/
def Memory.store : Store Memory where
  has key := .look fun memory => .ok (memory.get? key).isSome
  read key := .look fun memory => .ok (memory.get? key)
  write entry := fun memory => (.ok (), memory.put entry.key entry)
  delete key := fun memory => (.ok (memory.get? key).isSome, memory.erase key)
  dated key := .look fun memory => .ok (memory.get? key).isSome
  keys := .look fun memory => .ok memory.keys

/-- Records as they are read, and none in the place of one that cannot be read. -/
abbrev Table := Keyed String (Option Json)

/-- The entry of a record; one that cannot be read is an error. -/
def CacheEntry.decode (key : String) (value : Option Json) : Except CacheError CacheEntry :=
  match value.bind CacheEntry.ofRecord? with
  | some entry => .ok entry
  | none => .error (.serialization key "malformed record")

/-- Using the records of a table. -/
def Table.store : Store Table where
  has key := .look fun table => .ok (table.get? key).isSome
  read key := .look fun table =>
    match table.get? key with
    | none => .ok none
    | some value => (CacheEntry.decode key value).map some
  write entry := fun table => (.ok (), table.put entry.key entry.stored?)
  delete key := fun table => (.ok (table.get? key).isSome, table.erase key)
  dated key := .look fun table => .ok (table.get? key).isSome
  keys := .look fun table => .ok table.keys

end CodeAtlas
