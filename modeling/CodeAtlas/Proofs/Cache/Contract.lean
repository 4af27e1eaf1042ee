import CodeAtlas.Proofs.Cache.Faithful
import CodeAtlas.Proofs.Cache.Key

/-! All stores answer alike. After any calls a store tells what was last written under a key,
whether it lies in memory, in a folder or in a table. Only the summary of a result may be another one
where it is read from a record. -/

namespace CodeAtlas

namespace Store

variable {σ : Type}

/-! ## Calls -/

/-- A use of a store. -/
inductive Call where
  | write (entry : CacheEntry)
  | read (key : String)
  | has (key : String)
  | delete (key : String)
  | keys

/-- The text is written like a digest of 128 bits. -/
def IsKey (key : String) : Prop :=
  key.toList.length = 32 ∧ ∀ c ∈ key.toList, c ∈ "0123456789abcdef".toList

/-- The key of the call is one, and the numbers of an entry fit into their words. -/
def Call.Valid : Call → Prop
  | write entry => IsKey entry.key ∧ entry.Fits
  | read key | has key | delete key => IsKey key
  | keys => True

/-- The place after a call. -/
def act (store : Store σ) (place : σ) : Call → σ
  | .write entry => (store.write entry place).2
  | .read key => (store.read key place).2
  | .has key => (store.has key place).2
  | .delete key => (store.delete key place).2
  | .keys => (store.keys place).2

def after (store : Store σ) (calls : List Call) (place : σ) : σ :=
  calls.foldl store.act place

/-- What lies under a key after a call, if `found` lay there before. -/
def Call.leaves (key : String) (found : Option CacheEntry) : Call → Option CacheEntry
  | write entry => if key = entry.key then some entry else found
  | delete other => if key = other then none else found
  | read _ | has _ | keys => found

/-- The entry that was last written under a key, unless it was deleted since. -/
def lastWritten (calls : List Call) (key : String) : Option CacheEntry :=
  calls.foldl (Call.leaves key) none

/-- How a place answers the next call where `found` tells the entry under each key. An entry is read
in the given form, and every key is told once. -/
structure Answers (store : Store σ) (place : σ) (found : String → Option CacheEntry)
    (form : String → CacheEntry → Except CacheError CacheEntry) : Prop where
  write : ∀ entry, IsKey entry.key → (store.write entry place).1 = .ok ()
  read_none : ∀ key, IsKey key → found key = none → (store.read key place).1 = .ok none
  read_some : ∀ key entry, IsKey key → found key = some entry →
    (store.read key place).1 = (form key entry).map some
  has : ∀ key, IsKey key → (store.has key place).1 = .ok (found key).isSome
  delete : ∀ key, IsKey key → (store.delete key place).1 = .ok (found key).isSome
  keys : ∃ keys, (store.keys place).1 = .ok keys ∧ keys.Nodup ∧
    ∀ key, key ∈ keys ↔ (found key).isSome

theorem Answers.congr {store : Store σ} {place : σ} {found : String → Option CacheEntry}
    {form other : String → CacheEntry → Except CacheError CacheEntry}
    (h : store.Answers place found form)
    (hform : ∀ key entry, found key = some entry → form key entry = other key entry) :
    store.Answers place found other :=
  { h with
    read_some := fun key entry hkey hfound => by
      rw [h.read_some key entry hkey hfound, hform key entry hfound] }

end Store

/-! ## Keys and names -/

namespace Store

theorem IsKey.slash_not_mem {key : String} (h : IsKey key) : '/' ∉ key.toList := by
  intro hmem
  have hdigit := h.2 _ hmem
  revert hdigit
  decide

theorem IsKey.head?_ne {key : String} (h : IsKey key) (rest : Text) :
    (key.toList ++ rest).head? ≠ some '.' := by
  obtain ⟨hlength, hdigits⟩ := h
  cases hlist : key.toList with
  | nil => simp [hlist] at hlength
  | cons c text =>
      intro hdot
      obtain rfl := Option.some.inj hdot
      have hdigit := hdigits '.' (by simp [hlist])
      revert hdigit
      decide

theorem isKey_hex (wide : Digest.Wide) : IsKey wide.hex := by
  constructor
  · simp [Digest.Wide.hex, Digest.length_hex16]
  · intro c hc
    rw [Digest.Wide.hex, String.toList_append, List.mem_append] at hc
    exact hc.elim Digest.mem_hex16 Digest.mem_hex16

/-- All results are kept under such keys. -/
theorem isKey_key (scope : Scope) (file : String) (content : Bytes) :
    IsKey (scope.key file content) :=
  isKey_hex _

/-- The name of a file for a key stands for that key. -/
theorem IsKey.keyOf?_nameOf {key : String} (h : IsKey key) :
    Folder.keyOf? (Folder.nameOf key) = some key := by
  have hhead := h.head?_ne Folder.suffix
  have hsuffix : Folder.suffix.isSuffixOf (key.toList ++ Folder.suffix) = true :=
    List.isSuffixOf_iff_suffix.mpr (List.suffix_append _ _)
  simp only [Folder.keyOf?, Folder.nameOf, String.toList_ofList]
  rw [if_pos (Bool.and_eq_true_iff.mpr ⟨bne_iff_ne.mpr hhead, hsuffix⟩)]
  simp

end Store

/-! ## The store in memory -/

namespace Memory

open Store

/-- Each key stands once, and what stands there is valid. -/
structure Valid (memory : Memory) : Prop where
  nodup : memory.keys.Nodup
  isKey : ∀ item ∈ memory.items, IsKey item.1
  fits : ∀ item ∈ memory.items, item.2.Fits

variable {memory : Memory}

theorem valid_empty : Valid Keyed.empty :=
  ⟨List.nodup_nil, by simp [Keyed.empty], by simp [Keyed.empty]⟩

theorem Valid.act (h : memory.Valid) {call : Call} (hc : call.Valid) :
    Valid (store.act memory call) := by
  cases call with
  | read _ | has _ | keys => exact h
  | delete key =>
      exact ⟨Keyed.nodup_keys_erase key h.nodup,
        fun item hm => h.isKey item (Keyed.mem_items_erase hm),
        fun item hm => h.fits item (Keyed.mem_items_erase hm)⟩
  | write entry =>
      obtain ⟨hkey, hfits⟩ := hc
      refine ⟨Keyed.nodup_keys_put _ _ h.nodup, ?_, ?_⟩
      · intro item hm
        rcases Keyed.mem_items_put hm with hm | rfl
        · exact h.isKey item hm
        · exact hkey
      · intro item hm
        rcases Keyed.mem_items_put hm with hm | rfl
        · exact h.fits item hm
        · exact hfits

theorem Valid.after (h : memory.Valid) {calls : List Call} (hc : ∀ call ∈ calls, call.Valid) :
    Valid (store.after calls memory) := by
  induction calls generalizing memory with
  | nil => exact h
  | cons call calls ih =>
      obtain ⟨hfirst, hrest⟩ := List.forall_mem_cons.mp hc
      exact ih (h.act hfirst) hrest

theorem get?_act (memory : Memory) (call : Call) (key : String) :
    Keyed.get? (store.act memory call) key = call.leaves key (memory.get? key) := by
  cases call with
  | write entry => exact Keyed.get?_put memory entry.key key entry
  | delete other => exact Keyed.get?_erase memory other key
  | read _ | has _ | keys => rfl

theorem get?_after (calls : List Call) (memory : Memory) (key : String) :
    Keyed.get? (store.after calls memory) key =
      calls.foldl (Call.leaves key) (memory.get? key) := by
  induction calls generalizing memory with
  | nil => rfl
  | cons call calls ih =>
      rw [List.foldl_cons, ← get?_act]
      exact ih (store.act memory call)

theorem Valid.answers (h : memory.Valid) :
    store.Answers memory memory.get? (fun _ entry => .ok entry) where
  write _ _ := rfl
  read_none _ _ hfound := congrArg Except.ok hfound
  read_some _ _ _ hfound := congrArg Except.ok hfound
  has _ _ := rfl
  delete _ _ := rfl
  keys := ⟨memory.keys, rfl, h.nodup, fun key => (Keyed.get?_isSome_iff memory key).symm⟩

theorem Valid.fits_of_get? (h : memory.Valid) {key : String} {entry : CacheEntry}
    (hfound : memory.get? key = some entry) : entry.Fits :=
  h.fits _ (Keyed.mem_items_of_get? hfound)

end Memory

/-! ## The store in a table -/

namespace Table

open Store

/-- The table with the records of the entries in memory. -/
def holding (memory : Memory) : Table := memory.image id CacheEntry.stored?

theorem get?_holding (memory : Memory) (key : String) :
    (holding memory).get? key = (memory.get? key).map CacheEntry.stored? :=
  Keyed.get?_image Function.injective_id _ memory key

theorem act_holding (memory : Memory) (call : Call) :
    store.act (holding memory) call = holding (Memory.store.act memory call) := by
  cases call with
  | write entry => exact Keyed.put_image Function.injective_id CacheEntry.stored? memory _ entry
  | delete key => exact Keyed.erase_image Function.injective_id _ memory key
  | read _ | has _ | keys => rfl

theorem after_holding (calls : List Call) (memory : Memory) :
    store.after calls (holding memory) = holding (Memory.store.after calls memory) :=
  List.foldl_hom holding fun memory call => act_holding memory call

theorem answers_holding {memory : Memory} (h : memory.Valid) :
    store.Answers (holding memory) memory.get? CacheEntry.shown where
  write _ _ := rfl
  read_none key _ hfound := by
    simp [store, Use.look, get?_holding, hfound]
  read_some key entry _ hfound := by
    simp [store, Use.look, get?_holding, hfound, CacheEntry.decode_stored? (h.fits_of_get? hfound)]
  has key _ := by
    simp [store, Use.look, get?_holding]
  delete key _ := by
    simp [store, get?_holding]
  keys := by
    refine ⟨memory.keys, ?_, h.nodup, fun key => (Keyed.get?_isSome_iff memory key).symm⟩
    simp [store, Use.look, holding, Keyed.keys_image]

end Table

/-! ## The store in a folder -/

namespace Folder

open Store

/-- The folder with a file for each of the entries in memory. -/
def holding (memory : Memory) : Folder :=
  ⟨some (memory.image nameOf fun entry => .file entry.stored?)⟩

theorem item?_holding (memory : Memory) (key : String) :
    (holding memory).item? (nameOf key) =
      (memory.get? key).map fun entry => .file entry.stored? :=
  Keyed.get?_image nameOf_injective _ memory key

theorem write_holding (memory : Memory) {entry : CacheEntry} (hkey : IsKey entry.key) :
    write entry (holding memory) = (.ok (), holding (memory.put entry.key entry)) := by
  have hslash : List.elem '/' entry.key.toList = false := by simpa using hkey.slash_not_mem
  have hput : (holding memory).put (nameOf entry.key) (.file entry.stored?) =
      holding (memory.put entry.key entry) := by
    simp only [holding, put, Option.map_some]
    rw [← Keyed.put_image nameOf_injective]
  rw [write, hslash, if_neg (by simp [holding]), item?_holding, hput]
  -- Nothing or a file lies under the name, never a folder.
  cases memory.get? entry.key <;> rfl

theorem delete_holding (memory : Memory) (key : String) :
    delete key (holding memory) = (.ok (memory.get? key).isSome, holding (memory.erase key)) := by
  have herase : (holding memory).erase (nameOf key) = holding (memory.erase key) := by
    simp only [holding, erase, Option.map_some]
    rw [← Keyed.erase_image nameOf_injective]
  rw [delete, item?_holding, herase]
  cases hfound : memory.get? key with
  | none =>
      rw [Keyed.erase_of_get?_eq_none hfound]
      rfl
  | some entry => rfl

theorem act_holding (memory : Memory) {call : Call} (hc : call.Valid) :
    store.act (holding memory) call = holding (Memory.store.act memory call) := by
  cases call with
  | write entry => exact congrArg Prod.snd (write_holding memory hc.1)
  | delete key => exact congrArg Prod.snd (delete_holding memory key)
  | read _ | has _ | keys => rfl

theorem after_holding {calls : List Call} (hc : ∀ call ∈ calls, call.Valid) (memory : Memory) :
    store.after calls (holding memory) = holding (Memory.store.after calls memory) := by
  induction calls generalizing memory with
  | nil => rfl
  | cons call calls ih =>
      obtain ⟨hfirst, hrest⟩ := List.forall_mem_cons.mp hc
      simp only [after, List.foldl_cons] at ih ⊢
      rw [act_holding memory hfirst, ih hrest]

theorem keys_holding {memory : Memory} (h : memory.Valid) :
    (holding memory).keys = .ok memory.keys := by
  have hkeys : ∀ key ∈ memory.keys, keyOf? (nameOf key) = some key := by
    intro key hm
    obtain ⟨item, hitem, rfl⟩ := List.mem_map.mp hm
    exact (h.isKey item hitem).keyOf?_nameOf
  have hread : memory.keys.filterMap (keyOf? ∘ nameOf) = memory.keys := calc
    memory.keys.filterMap (keyOf? ∘ nameOf) = memory.keys.filterMap some :=
      List.filterMap_congr hkeys
    _ = memory.keys := List.filterMap_some
  simp only [keys, holding, Keyed.keys_image, List.filterMap_map, hread]

theorem answers_holding {memory : Memory} (h : memory.Valid) :
    store.Answers (holding memory) memory.get? CacheEntry.shown where
  write entry hkey := congrArg Prod.fst (write_holding memory hkey)
  read_none key _ hfound := by
    simp [store, Use.look, read, item?_holding, hfound]
  read_some key entry _ hfound := by
    simp [store, Use.look, read, item?_holding, hfound,
      CacheEntry.decode_stored? (h.fits_of_get? hfound)]
  has key _ := by
    simp only [store, Use.look, has, item?_holding]
    cases memory.get? key <;> rfl
  delete key _ := congrArg Prod.fst (delete_holding memory key)
  keys := ⟨memory.keys, keys_holding h, h.nodup,
    fun key => (Keyed.get?_isSome_iff memory key).symm⟩

end Folder

/-! ## All stores -/

namespace Store

section After

variable {calls : List Call} (h : ∀ call ∈ calls, call.Valid)

theorem written_of_foldl_leaves {key : String} {found : Option CacheEntry} {entry : CacheEntry}
    (hleft : calls.foldl (Call.leaves key) found = some entry) :
    found = some entry ∨ entry.key = key ∧ .write entry ∈ calls := by
  -- What an earlier call left lies there before the later ones, so `found` varies.
  induction calls generalizing found with
  | nil => exact .inl hleft
  | cons call calls ih =>
      rcases ih hleft with hfirst | ⟨hkey, hlater⟩
      · cases call with
        | write other =>
            simp only [Call.leaves] at hfirst
            split at hfirst
            · obtain rfl := Option.some.inj hfirst
              exact .inr ⟨Eq.symm ‹_›, List.mem_cons_self⟩
            · exact .inl hfirst
        | delete other =>
            simp only [Call.leaves] at hfirst
            split at hfirst
            · cases hfirst
            · exact .inl hfirst
        | read _ | has _ | keys => exact .inl hfirst
      · exact .inr ⟨hkey, List.mem_cons_of_mem call hlater⟩

/-- What was last written under a key was written in one of the calls, under that key. -/
theorem written_of_lastWritten {key : String} {entry : CacheEntry}
    (hfound : lastWritten calls key = some entry) : entry.key = key ∧ .write entry ∈ calls := by
  rcases written_of_foldl_leaves hfound with hnone | hwritten
  · cases hnone
  · exact hwritten

theorem lastWritten_eq (calls : List Call) :
    lastWritten calls = Keyed.get? (Memory.store.after calls .empty) := by
  funext key
  exact (Memory.get?_after calls .empty key).symm

include h

theorem answers_memory : Memory.store.Answers (Memory.store.after calls .empty)
    (lastWritten calls) (fun _ entry => .ok entry) := by
  rw [lastWritten_eq]
  exact (Memory.valid_empty.after h).answers

theorem answers_folder : Folder.store.Answers (Folder.store.after calls .empty)
    (lastWritten calls) CacheEntry.shown := by
  have hplace : Folder.store.after calls .empty =
      Folder.holding (Memory.store.after calls .empty) := Folder.after_holding h .empty
  rw [lastWritten_eq, hplace]
  exact Folder.answers_holding (Memory.valid_empty.after h)

theorem answers_table : Table.store.Answers (Table.store.after calls .empty)
    (lastWritten calls) CacheEntry.shown := by
  have hplace : Table.store.after calls .empty =
      Table.holding (Memory.store.after calls .empty) := Table.after_holding calls .empty
  rw [lastWritten_eq, hplace]
  exact Table.answers_holding (Memory.valid_empty.after h)

/-- Plain entries are read as they were written, wherever they lie. -/
theorem answers_of_plain (hplain : ∀ entry, .write entry ∈ calls → entry.Plain) :
    Folder.store.Answers (Folder.store.after calls .empty) (lastWritten calls)
        (fun _ entry => .ok entry) ∧
      Table.store.Answers (Table.store.after calls .empty) (lastWritten calls)
        (fun _ entry => .ok entry) := by
  have hform : ∀ key entry, lastWritten calls key = some entry → entry.shown key = .ok entry :=
    fun key entry hfound => (hplain entry (written_of_lastWritten hfound).2).shown_eq key
  exact ⟨(answers_folder h).congr hform, (answers_table h).congr hform⟩

/-- After any calls the stores tell of the entry that was last written under a key: all alike
whether there is one, memory the entry itself, and a folder or a table the entry as it is read back.
That differs from it at most in the summary and the confidences, and not at all for plain entries. -/
theorem answers_alike :
    Memory.store.Answers (Memory.store.after calls .empty) (lastWritten calls)
        (fun _ entry => .ok entry) ∧
      Folder.store.Answers (Folder.store.after calls .empty) (lastWritten calls)
        CacheEntry.shown ∧
      Table.store.Answers (Table.store.after calls .empty) (lastWritten calls)
        CacheEntry.shown ∧
      ((∀ entry, .write entry ∈ calls → entry.Plain) →
        Folder.store.Answers (Folder.store.after calls .empty) (lastWritten calls)
            (fun _ entry => .ok entry) ∧
          Table.store.Answers (Table.store.after calls .empty) (lastWritten calls)
            (fun _ entry => .ok entry)) :=
  ⟨answers_memory h, answers_folder h, answers_table h, answers_of_plain h⟩

end After

def sampleKey : String := Scope.key ⟨"/repo", "main", none⟩ "a.py" []

def sampleEntry (summary : Json) : CacheEntry where
  key := sampleKey
  file := "a.py"
  root := "/repo"
  branch := "main"
  commit := none
  created := 1
  lastAccessed := 1
  result := { ParseResult.ofNothing "a.py" .python 0 none with summary := some summary }

theorem steady_sampleEntry (summary : Json) : (sampleEntry summary).result.Steady :=
  ⟨Binary.unchanged_zero, fun info h => by cases h⟩

theorem isKey_sampleKey : IsKey sampleKey := isKey_key _ _ _

theorem fits_sampleEntry (summary : Json) : (sampleEntry summary).Fits := by
  have hwords : 0 < UInt64.size ∧ 1 < UInt64.size ∧ 1 < UInt32.size := by decide
  exact ⟨hwords.2.1, hwords.2.1, hwords.1, hwords.2.2, List.forall_mem_nil _,
    List.forall_mem_nil _, List.forall_mem_nil _⟩

/-- An entry is deleted and written anew with another summary. -/
def rewriting : List Call :=
  [.write (sampleEntry (.int 3)), .delete sampleKey, .write (sampleEntry (.int 7)), .keys]

theorem rewriting_found :
    (∀ call ∈ rewriting, call.Valid) ∧ (∀ entry, .write entry ∈ rewriting → entry.Plain) ∧
      (Folder.store.read sampleKey (Folder.store.after rewriting .empty)).1 =
        .ok (some (sampleEntry (.int 7))) ∧
      (Table.store.read sampleKey (Table.store.after rewriting .empty)).1 =
        .ok (some (sampleEntry (.int 7))) := by
  have hvalid : ∀ call ∈ rewriting, call.Valid := by
    have hwrite : ∀ summary, (Call.write (sampleEntry summary)).Valid := fun summary =>
      ⟨isKey_sampleKey, fits_sampleEntry summary⟩
    simp only [rewriting, List.forall_mem_cons]
    exact ⟨hwrite _, isKey_sampleKey, hwrite _, trivial, List.forall_mem_nil _⟩
  have hplain : ∀ entry, .write entry ∈ rewriting → entry.Plain := by
    have hint : ∀ n, (sampleEntry (.int n)).Plain := by
      refine fun n => ⟨?_, steady_sampleEntry _⟩
      rintro summary ⟨⟩
      exact ⟨fun h => Json.noConfusion h, Nat.le_add_left 2 125, rfl⟩
    intro entry hm
    simp only [rewriting, List.mem_cons, Call.write.injEq, reduceCtorEq, false_or, or_false,
      List.not_mem_nil] at hm
    rcases hm with rfl | rfl <;> exact hint _
  have hfound : lastWritten rewriting sampleKey = some (sampleEntry (.int 7)) := by
    simp [lastWritten, rewriting, Call.leaves, sampleEntry]
  obtain ⟨-, -, -, hexact⟩ := answers_alike hvalid
  obtain ⟨hfolder, htable⟩ := hexact hplain
  exact ⟨hvalid, hplain, hfolder.read_some _ _ isKey_sampleKey hfound,
    htable.read_some _ _ isKey_sampleKey hfound⟩

/-- The number `2 ^ 67`. It is written with 17 digits, which are rounded when they are read, and so
is their product with a power of ten. -/
def wideNumber : Binary := ⟨false, 1 <<< 52, 15⟩

/-- Memory gives back an entry that is read otherwise from a folder and from a table. -/
theorem wide_number_read_otherwise :
    IsKey sampleKey ∧ (sampleEntry (.binary wideNumber)).Fits ∧
      (Memory.store.read sampleKey
        (Memory.store.after [.write (sampleEntry (.binary wideNumber))] .empty)).1 =
          .ok (some (sampleEntry (.binary wideNumber))) ∧
      (Folder.store.read sampleKey
        (Folder.store.after [.write (sampleEntry (.binary wideNumber))] .empty)).1 ≠
          .ok (some (sampleEntry (.binary wideNumber))) ∧
      (Table.store.read sampleKey
        (Table.store.after [.write (sampleEntry (.binary wideNumber))] .empty)).1 ≠
          .ok (some (sampleEntry (.binary wideNumber))) := by
  have hfits := fits_sampleEntry (.binary wideNumber)
  have hcalls : ∀ call ∈ [Call.write (sampleEntry (.binary wideNumber))], call.Valid := by
    simp only [List.forall_mem_singleton]
    exact ⟨isKey_sampleKey, hfits⟩
  have hfound : lastWritten [.write (sampleEntry (.binary wideNumber))] sampleKey =
      some (sampleEntry (.binary wideNumber)) := by
    simp [lastWritten, Call.leaves, sampleEntry]
  have hchanged : wideNumber.reread? ≠ some wideNumber := by decide +kernel
  have hshown : ((sampleEntry (.binary wideNumber)).shown sampleKey).map some ≠
      .ok (some (sampleEntry (.binary wideNumber))) := by
    intro h
    have hsame := ((CacheEntry.shown_eq_ok_iff _ _).mp (map_some_eq_ok_iff.mp h)).1 _ rfl
    exact hchanged ((Json.unchanged_binary_iff wideNumber).mp hsame.2.2)
  refine ⟨isKey_sampleKey, hfits, ?_, ?_, ?_⟩
  · rw [(answers_memory hcalls).read_some _ _ isKey_sampleKey hfound]
    rfl
  · rwa [(answers_folder hcalls).read_some _ _ isKey_sampleKey hfound]
  · rwa [(answers_table hcalls).read_some _ _ isKey_sampleKey hfound]

end Store

end CodeAtlas
