import CodeAtlas.Analysis.Workspace
import CodeAtlas.Proofs.Cache.History
import CodeAtlas.Proofs.Cache.Record

/-! Caches whose stores invent nothing. What holds of all results that are stored holds of every
result that a lookup finds, whatever is removed in between and whatever uses of the store fail. -/

namespace CodeAtlas

open ParseResult (Facts)

namespace Store

variable {σ τ : Type}

/-- The entry can be read under the key. -/
def Shows (store : Store σ) (place : σ) (key : String) (entry : CacheEntry) : Prop :=
  (store.read key place).1 = .ok (some entry)

/-- A store shows what was written to it and nothing else. Of what is written it keeps the key, and
the facts of the result where they hold no number that may be read otherwise. -/
structure Faithful (store : Store σ) : Prop where
  of_read : ∀ {place other key entry},
    store.Shows (store.read other place).2 key entry → store.Shows place key entry
  of_delete : ∀ {place other key entry},
    store.Shows (store.delete other place).2 key entry → store.Shows place key entry
  of_keys : ∀ {place key entry}, store.Shows (store.keys place).2 key entry →
    store.Shows place key entry
  of_write : ∀ {place written key entry}, store.Shows (store.write written place).2 key entry →
    store.Shows place key entry ∨
      key = written.key ∧ entry.key = written.key ∧
        (written.result.facts.Steady → entry.result.facts = written.result.facts)

/-- Every entry carries the key under which it is shown, and its facts are kept when they are written
and satisfy `P` for that key. -/
def Holds (store : Store σ) (P : String → Facts → Prop) (place : σ) : Prop :=
  ∀ key entry, store.Shows place key entry →
    entry.key = key ∧ entry.result.facts.Steady ∧ P key entry.result.facts

variable {store : Store σ} {P : String → Facts → Prop} {place : σ}

theorem Faithful.holds_read (hf : store.Faithful) (h : store.Holds P place) (other : String) :
    store.Holds P (store.read other place).2 :=
  fun key entry hshows => h key entry (hf.of_read hshows)

theorem Faithful.holds_delete (hf : store.Faithful) (h : store.Holds P place) (other : String) :
    store.Holds P (store.delete other place).2 :=
  fun key entry hshows => h key entry (hf.of_delete hshows)

theorem Faithful.holds_keys (hf : store.Faithful) (h : store.Holds P place) :
    store.Holds P (store.keys place).2 :=
  fun key entry hshows => h key entry (hf.of_keys hshows)

theorem Faithful.holds_write (hf : store.Faithful) (h : store.Holds P place)
    {written : CacheEntry} (hsteady : written.result.facts.Steady)
    (hw : P written.key written.result.facts) : store.Holds P (store.write written place).2 := by
  intro key entry hshows
  rcases hf.of_write hshows with hold | ⟨rfl, hkey, hfacts⟩
  · exact h key entry hold
  · rw [hfacts hsteady]
    exact ⟨hkey, hsteady, hw⟩

/-! ## The stores -/

theorem faithful_memory : Memory.store.Faithful where
  of_read h := h
  of_keys h := h
  of_delete {place other key entry} h := by
    have hfound : (place.erase other).get? key = some entry := Except.ok.inj h
    rw [Keyed.get?_erase] at hfound
    split at hfound
    · cases hfound
    · exact congrArg Except.ok hfound
  of_write {place written key entry} h := by
    have hfound : (place.put written.key written).get? key = some entry := Except.ok.inj h
    rw [Keyed.get?_put] at hfound
    split at hfound
    · rename_i hkey
      obtain rfl := Option.some.inj hfound
      exact .inr ⟨hkey, rfl, fun _ => rfl⟩
    · exact .inl (congrArg Except.ok hfound)

theorem map_some_eq_ok_iff {answer : Except CacheError CacheEntry} {entry : CacheEntry} :
    answer.map some = .ok (some entry) ↔ answer = .ok entry := by
  cases answer <;> simp [Except.map]

/-- An entry is decoded from the record that it was encoded in. -/
theorem decode_eq_ok_iff {key : String} {record : Option Json} {entry : CacheEntry} :
    (CacheEntry.decode key record).map some = .ok (some entry) ↔
      record.bind CacheEntry.ofRecord? = some entry := by
  rw [map_some_eq_ok_iff, CacheEntry.decode]
  cases record.bind CacheEntry.ofRecord? with
  | none => simp
  | some other => simp

theorem shows_table_iff {table : Table} {key : String} {entry : CacheEntry} :
    Table.store.Shows table key entry ↔
      ∃ record, table.get? key = some record ∧
        record.bind CacheEntry.ofRecord? = some entry := by
  simp only [Shows, Table.store, Use.look]
  cases table.get? key with
  | none => simp
  | some record => simp [decode_eq_ok_iff]

theorem faithful_table : Table.store.Faithful where
  of_read h := h
  of_keys h := h
  of_delete {place other key entry} h := by
    obtain ⟨record, hrecord, hentry⟩ := shows_table_iff.mp h
    have hfound : (place.erase other).get? key = some record := hrecord
    rw [Keyed.get?_erase] at hfound
    split at hfound
    · cases hfound
    · exact shows_table_iff.mpr ⟨record, hfound, hentry⟩
  of_write {place written key entry} h := by
    obtain ⟨record, hrecord, hentry⟩ := shows_table_iff.mp h
    have hfound : (place.put written.key written.stored?).get? key = some record := hrecord
    rw [Keyed.get?_put] at hfound
    split at hfound
    · rename_i hkey
      obtain rfl := Option.some.inj hfound
      exact .inr ⟨hkey, CacheEntry.of_stored? hentry⟩
    · exact .inl (shows_table_iff.mpr ⟨record, hfound, hentry⟩)

theorem shows_folder_iff {folder : Folder} {key : String} {entry : CacheEntry} :
    Folder.store.Shows folder key entry ↔
      ∃ record, folder.item? (Folder.nameOf key) = some (.file record) ∧
        record.bind CacheEntry.ofRecord? = some entry := by
  simp only [Shows, Folder.store, Use.look, Folder.read]
  cases folder.item? (Folder.nameOf key) with
  | none => simp
  | some item =>
      cases item with
      | file record => simp [decode_eq_ok_iff]
      | folder => simp

theorem item?_erase (folder : Folder) (name other : String) :
    (folder.erase name).item? other = if other = name then none else folder.item? other := by
  obtain ⟨items⟩ := folder
  cases items with
  | none => simp [Folder.erase, Folder.item?]
  | some items => simpa [Folder.erase, Folder.item?] using Keyed.get?_erase items name other

theorem item?_put (folder : Folder) (name other : String) (item : FolderItem) :
    (folder.put name item).item? other =
      if other = name then folder.items?.map fun _ => item else folder.item? other := by
  obtain ⟨items⟩ := folder
  cases items with
  | none => simp [Folder.put, Folder.item?]
  | some items => simpa [Folder.put, Folder.item?] using Keyed.get?_put items name other item

theorem nameOf_injective : Function.Injective Folder.nameOf := by
  intro a b h
  exact String.toList_inj.mp (List.append_cancel_right (String.ofList_injective h))

theorem faithful_folder : Folder.store.Faithful where
  of_read h := h
  of_keys h := h
  of_delete {place other key entry} h := by
    have hplace : (Folder.store.delete other place).2 = place ∨
        (Folder.store.delete other place).2 = place.erase (Folder.nameOf other) := by
      simp only [Folder.store, Folder.delete]
      split <;> simp
    rcases hplace with hsame | herased
    · rwa [hsame] at h
    · rw [herased, shows_folder_iff] at h
      obtain ⟨record, hrecord, hentry⟩ := h
      rw [item?_erase] at hrecord
      split at hrecord
      · cases hrecord
      · exact shows_folder_iff.mpr ⟨record, hrecord, hentry⟩
  of_write {place written key entry} h := by
    have hplace : (Folder.store.write written place).2 = place ∨
        (Folder.store.write written place).2 =
          place.put (Folder.nameOf written.key) (.file written.stored?) := by
      simp only [Folder.store, Folder.write]
      split
      · exact .inl rfl
      · split
        · exact .inl rfl
        · exact .inr rfl
    rcases hplace with hsame | hput
    · rw [hsame] at h
      exact .inl h
    · rw [hput, shows_folder_iff] at h
      obtain ⟨record, hrecord, hentry⟩ := h
      rw [item?_put] at hrecord
      split at hrecord
      · rename_i hname
        obtain ⟨items, -, hitem⟩ := Option.map_eq_some_iff.mp hrecord
        obtain rfl := FolderItem.file.inj hitem
        exact .inr ⟨nameOf_injective hname, CacheEntry.of_stored? hentry⟩
      · exact .inl (shows_folder_iff.mpr ⟨record, hrecord, hentry⟩)

section Within

variable {get : τ → σ} {set : σ → τ → τ} (hset : ∀ inner outer, get (set inner outer) = inner)
include hset

theorem shows_of_within {α : Type} {use : Use σ α} {place : τ} {key : String} {entry : CacheEntry}
    (h : (store.within get set).Shows (use.within get set place).2 key entry) :
    store.Shows (use (get place)).2 key entry := by
  have hinner : store.Shows (get (set (use (get place)).2 place)) key entry := h
  rwa [hset] at hinner

/-- A store inside another place is faithful if what is set there is got there. -/
theorem Faithful.within (hf : store.Faithful) : (store.within get set).Faithful where
  of_read h := hf.of_read (shows_of_within hset h)
  of_delete h := hf.of_delete (shows_of_within hset h)
  of_keys h := hf.of_keys (shows_of_within hset h)
  of_write h := hf.of_write (shows_of_within hset h)

end Within

theorem faithful_inMemory : Storage.inMemory.Faithful :=
  faithful_memory.within (fun _ _ => rfl)

theorem faithful_inFolder (directory : Steps) : (Storage.inFolder directory).Faithful := by
  refine faithful_folder.within ?_
  intro folder storage
  simp [Storage.folderAt, Storage.putFolder, Keyed.get?_put_self]

end Store

end CodeAtlas
