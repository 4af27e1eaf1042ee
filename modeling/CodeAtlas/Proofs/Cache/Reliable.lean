import CodeAtlas.Proofs.Cache.Contract

/-! Stores that do not fail. Whatever is written, deleted and read, such a store tells what was last
written under a key, in some form of its own, and lists its keys in some order. A store in memory is
one, and so are a folder and a table, for entries that can be read again and again. -/

namespace CodeAtlas

namespace Store

variable {σ : Type}

/-- From `start` on the store does not fail: after any calls with entries that it admits it tells
the entry that was last written under a key, in a form in which the entry may be written again. -/
structure Reliable (store : Store σ) (start : σ) (admits : CacheEntry → Prop)
    (form : CacheEntry → CacheEntry) : Prop where
  answers : ∀ calls, (∀ call ∈ calls, call.Valid) → (∀ entry, .write entry ∈ calls → admits entry) →
    store.Answers (store.after calls start) (lastWritten calls) fun _ entry => .ok (form entry)
  key_form : ∀ entry, (form entry).key = entry.key
  fits_form : ∀ entry, entry.Fits → (form entry).Fits
  admits_touched : ∀ entry now, admits entry → admits ((form entry).touched now)

/-- The place is reached from `start` by calls with admitted entries, and `found` tells what was
last written in them. -/
def Holding (store : Store σ) (start : σ) (admits : CacheEntry → Prop) (place : σ)
    (found : String → Option CacheEntry) : Prop :=
  ∃ calls, (∀ call ∈ calls, call.Valid) ∧ (∀ entry, .write entry ∈ calls → admits entry) ∧
    place = store.after calls start ∧ found = lastWritten calls

variable {store : Store σ} {start place : σ} {admits : CacheEntry → Prop}
  {form : CacheEntry → CacheEntry} {found : String → Option CacheEntry}

theorem holding_start : store.Holding start admits start fun _ => none :=
  ⟨[], List.forall_mem_nil _, fun _ h => absurd h List.not_mem_nil, rfl, rfl⟩

theorem Holding.act (h : store.Holding start admits place found) (call : Call) (hc : call.Valid)
    (ha : ∀ entry, call = .write entry → admits entry) :
    store.Holding start admits (store.act place call) fun key => call.leaves key (found key) := by
  obtain ⟨calls, hvalid, hadmits, rfl, rfl⟩ := h
  refine ⟨calls ++ [call], ?_, ?_, ?_, ?_⟩
  · rintro other hm
    rcases List.mem_append.mp hm with hm | hm
    · exact hvalid other hm
    · rwa [List.mem_singleton.mp hm]
  · intro entry hm
    rcases List.mem_append.mp hm with hm | hm
    · exact hadmits entry hm
    · exact ha entry (List.mem_singleton.mp hm).symm
  · simp [after]
  · funext key
    simp [lastWritten]

theorem Holding.answers (hr : store.Reliable start admits form)
    (h : store.Holding start admits place found) :
    store.Answers place found fun _ entry => .ok (form entry) := by
  obtain ⟨calls, hvalid, hadmits, rfl, rfl⟩ := h
  exact hr.answers calls hvalid hadmits

/-- What lies under a key was written under it. -/
theorem Holding.of_found (h : store.Holding start admits place found) {key : String}
    {entry : CacheEntry} (hfound : found key = some entry) :
    entry.key = key ∧ IsKey key ∧ entry.Fits ∧ admits entry := by
  obtain ⟨calls, hvalid, hadmits, -, rfl⟩ := h
  obtain ⟨rfl, hmem⟩ := written_of_lastWritten hfound
  have hcall : IsKey entry.key ∧ entry.Fits := hvalid _ hmem
  exact ⟨rfl, hcall.1, hcall.2, hadmits _ hmem⟩

end Store

/-! ## Uses through a cache -/

section Uses

variable {σ : Type} {store : Store σ} {start : σ} {admits : CacheEntry → Prop}
  {form : CacheEntry → CacheEntry} {found : String → Option CacheEntry} {s : CacheState σ}

/-- A use that does not fail changes nothing but the place. -/
theorem CacheState.call_of_ok {α : Type} {use : Use σ α} {answer : α}
    (h : (use s.place).1 = .ok answer) :
    s.call use = (some answer, ⟨(use s.place).2, s.counters⟩) := by
  rw [CacheState.call]
  revert h
  rcases use s.place with ⟨_ | _, place⟩ <;> rintro ⟨⟩
  rfl

namespace Store

variable (hr : store.Reliable start admits form) (h : store.Holding start admits s.place found)
include hr h

theorem Holding.call_read {key : String} (hkey : IsKey key) :
    ∃ place, s.call (store.read key) = (some ((found key).map form), ⟨place, s.counters⟩) ∧
      store.Holding start admits place found := by
  have hanswers := h.answers hr
  have hread : (store.read key s.place).1 = .ok ((found key).map form) := by
    cases hfound : found key with
    | none => exact hanswers.read_none key hkey hfound
    | some entry => exact hanswers.read_some key entry hkey hfound
  exact ⟨_, CacheState.call_of_ok hread, h.act (.read key) hkey fun _ h => by cases h⟩

theorem Holding.call_delete {key : String} (hkey : IsKey key) :
    ∃ place, s.call (store.delete key) = (some (found key).isSome, ⟨place, s.counters⟩) ∧
      store.Holding start admits place fun other => if other = key then none else found other := by
  have hdelete := (h.answers hr).delete key hkey
  exact ⟨_, CacheState.call_of_ok hdelete, h.act (.delete key) hkey fun _ h => by cases h⟩

theorem Holding.call_write {entry : CacheEntry} (hkey : IsKey entry.key) (hfits : entry.Fits)
    (hadmits : admits entry) :
    ∃ place, s.call (store.write entry) = (some (), ⟨place, s.counters⟩) ∧
      store.Holding start admits place
        fun other => if other = entry.key then some entry else found other := by
  have hwrite := (h.answers hr).write entry hkey
  refine ⟨_, CacheState.call_of_ok hwrite, h.act (.write entry) ⟨hkey, hfits⟩ ?_⟩
  rintro _ ⟨⟩
  exact hadmits

/-- The keys are told in some order. -/
theorem Holding.call_keys :
    ∃ keys place, s.call store.keys = (some keys, ⟨place, s.counters⟩) ∧
      (store.keys s.place).1 = .ok keys ∧ keys.Nodup ∧ (∀ key, key ∈ keys ↔ (found key).isSome) ∧
        store.Holding start admits place found := by
  obtain ⟨keys, hkeys, hn, hmem⟩ := (h.answers hr).keys
  exact ⟨keys, _, CacheState.call_of_ok hkeys, hkeys, hn, hmem,
    h.act .keys trivial fun _ h => by cases h⟩

end Store

end Uses

/-! ## The stores -/

namespace CacheEntry

/-- The entry as it is read where its record was written, or the entry itself if no record of it can
be read. -/
def reread (e : CacheEntry) : CacheEntry :=
  match e.result.kept? with
  | some result => e.withResult result
  | none => e

/-- However often the entry is written and read, it can be read again. -/
def Lasts (e : CacheEntry) : Prop :=
  ∀ count, (reread^[count] e).result.kept?.isSome

theorem key_reread (e : CacheEntry) : e.reread.key = e.key := by
  unfold reread
  split <;> rfl

theorem reread_touched (e : CacheEntry) (now : Nat) :
    (e.touched now).reread = e.reread.touched now := by
  unfold reread touched
  dsimp only
  split <;> rfl

theorem Fits.reread {e : CacheEntry} (h : e.Fits) : e.reread.Fits := by
  unfold CacheEntry.reread
  split
  · rename_i result hkept
    exact ⟨h.created, h.lastAccessed, h.result.kept? hkept⟩
  · exact h

theorem Lasts.shown_eq {e : CacheEntry} (h : e.Lasts) (key : String) :
    e.shown key = .ok e.reread := by
  obtain ⟨result, hkept⟩ := Option.isSome_iff_exists.mp (h 0)
  rw [shown, CacheEntry.reread]
  simp only [Function.iterate_zero, id] at hkept
  simp only [hkept]

theorem Lasts.touched {e : CacheEntry} (h : e.Lasts) (now : Nat) :
    (e.reread.touched now).Lasts := by
  intro count
  have hcommute :
      Function.Semiconj (CacheEntry.touched · now) CacheEntry.reread CacheEntry.reread :=
    fun e => (reread_touched e now).symm
  have hlater := h (count + 1)
  rw [Function.iterate_succ_apply] at hlater
  rw [← (hcommute.iterate_right count).eq]
  exact hlater

/-- Plain entries are read as they were written. -/
theorem Plain.lasts {e : CacheEntry} (h : e.Plain) : e.Lasts := by
  have hkept := (shown_eq_ok_self_iff e.key e).mp (h.shown_eq e.key)
  have hfixed : e.reread = e := by
    rw [reread, hkept]
    rfl
  intro count
  rw [Function.iterate_fixed hfixed, hkept]
  rfl

end CacheEntry

namespace Store

theorem reliable_memory : Memory.store.Reliable .empty (fun _ => True) id where
  answers _ hvalid _ := answers_memory hvalid
  key_form _ := rfl
  fits_form _ h := h
  admits_touched _ _ _ := trivial

/-- Entries that last are told as they are read. -/
theorem Answers.reread {σ : Type} {store : Store σ} {place : σ} {calls : List Call}
    (h : store.Answers place (lastWritten calls) CacheEntry.shown)
    (hlasts : ∀ entry, .write entry ∈ calls → entry.Lasts) :
    store.Answers place (lastWritten calls) fun _ entry => .ok entry.reread :=
  h.congr fun key entry hfound =>
    (hlasts entry (written_of_lastWritten hfound).2).shown_eq key

theorem reliable_folder :
    Folder.store.Reliable .empty CacheEntry.Lasts CacheEntry.reread where
  answers _ hvalid hlasts := (answers_folder hvalid).reread hlasts
  key_form := CacheEntry.key_reread
  fits_form _ h := h.reread
  admits_touched _ now h := h.touched now

theorem reliable_table : Table.store.Reliable .empty CacheEntry.Lasts CacheEntry.reread where
  answers _ hvalid hlasts := (answers_table hvalid).reread hlasts
  key_form := CacheEntry.key_reread
  fits_form _ h := h.reread
  admits_touched _ now h := h.touched now

section Relisted

variable {σ : Type} (store : Store σ) (order : List String → List String)

/-- The store, with its keys listed in another order. -/
def relisted : Store σ :=
  { store with keys := fun place => ((store.keys place).1.map order, (store.keys place).2) }

variable {store order} {start : σ} {admits : CacheEntry → Prop} {form : CacheEntry → CacheEntry}

/-- The order in which a store lists its keys is left open. -/
theorem Reliable.relisted (hr : store.Reliable start admits form)
    (horder : ∀ keys, (order keys).Perm keys) :
    (store.relisted order).Reliable start admits form where
  answers calls hvalid hadmits := by
    have hact : (store.relisted order).act = store.act := by
      funext place call
      cases call <;> rfl
    have hanswers := hr.answers calls hvalid hadmits
    rw [after, hact]
    refine { hanswers with keys := ?_ }
    obtain ⟨keys, hkeys, hn, hmem⟩ := hanswers.keys
    refine ⟨order keys, ?_, (horder keys).nodup_iff.mpr hn, fun key => ?_⟩
    · exact congrArg (Except.map order) hkeys
    · rw [(horder keys).mem_iff, hmem]
  key_form := hr.key_form
  fits_form := hr.fits_form
  admits_touched := hr.admits_touched

end Relisted

end Store

end CodeAtlas
