import CodeAtlas.Cache.Memory
import CodeAtlas.Source.Disk

/-! A store in a folder on a disk, which holds a file with a record for each entry. Other files and
folders may lie there too, and the folder itself may go missing. -/

namespace CodeAtlas

/-- What lies in a folder under a name: a file with a record as it is read, or none that can be read,
or a folder. -/
inductive FolderItem where
  | file (record : Option Json)
  | folder

/-- The items of a folder by name, unless it is missing. -/
structure Folder where
  items? : Option (Keyed String FolderItem)

/-- A file that holds some bytes. -/
def FolderItem.ofBytes (bytes : Bytes) : FolderItem :=
  .file ((Utf8.decode? bytes).bind Json.read?)

namespace Folder

def empty : Folder := ⟨some .empty⟩

def missing : Folder := ⟨none⟩

/-- The folder itself is made if it is missing. -/
def opened (folder : Folder) : Folder :=
  ⟨some (folder.items?.getD .empty)⟩

def item? (folder : Folder) (name : String) : Option FolderItem :=
  folder.items?.bind fun items => items.get? name

/-- With an item under a name, if the folder is there. -/
def put (folder : Folder) (name : String) (item : FolderItem) : Folder :=
  ⟨folder.items?.map fun items => items.put name item⟩

/-- Without the item under a name. -/
def erase (folder : Folder) (name : String) : Folder :=
  ⟨folder.items?.map fun items => items.erase name⟩

/-- The end of the name of a file with an entry. -/
def suffix : Text := ".json".toList

def nameOf (key : String) : String :=
  String.ofList (key.toList ++ suffix)

/-- The key that a name stands for. Hidden names stand for none. -/
def keyOf? (name : String) : Option String :=
  let text := name.toList
  if text.head? != some '.' && suffix.isSuffixOf text then
    some (String.ofList (text.take (text.length - suffix.length)))
  else none

/-- The entry for a key. -/
def read (key : String) (folder : Folder) : Except CacheError (Option CacheEntry) :=
  match folder.item? (nameOf key) with
  | none => .ok none
  | some (.file record) => (CacheEntry.decode key record).map some
  | some .folder => .error (.file key Disk.isADirectory)

/-- There is a file for the key. -/
def has (key : String) (folder : Folder) : Bool :=
  match folder.item? (nameOf key) with
  | none | some .folder => false
  | some _ => true

/-- Writes the file for an entry. A key with a slash leads into a folder that is not there. -/
def write (entry : CacheEntry) : Use Folder Unit := fun folder =>
  if folder.items?.isNone || List.elem '/' entry.key.toList then
    (.error (.file entry.key Disk.noSuchFile), folder)
  else
    match folder.item? (nameOf entry.key) with
    | some .folder => (.error (.file entry.key Disk.isADirectory), folder)
    | _ => (.ok (), folder.put (nameOf entry.key) (.file entry.stored?))

/-- Removes the file for a key. -/
def delete (key : String) : Use Folder Bool := fun folder =>
  match folder.item? (nameOf key) with
  | none => (.ok false, folder)
  | some .folder => (.error (.file key Disk.isADirectory), folder)
  | some _ => (.ok true, folder.erase (nameOf key))

/-- The keys that names stand for. -/
def keys (folder : Folder) : Except CacheError (List String) :=
  match folder.items? with
  | none => .error (.file "<keys>" Disk.noSuchFile)
  | some items => .ok (items.keys.filterMap keyOf?)

/-- Using the files of a folder. -/
def store : Store Folder where
  has key := .look fun folder => .ok (folder.has key)
  read key := .look (read key)
  write := write
  delete := delete
  dated key := .look fun folder => .ok (folder.item? (nameOf key)).isSome
  keys := .look keys

end Folder

end CodeAtlas
