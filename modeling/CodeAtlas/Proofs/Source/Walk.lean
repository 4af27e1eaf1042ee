import CodeAtlas.Proofs.Path
import CodeAtlas.Source.Discovery
import Mathlib.Data.List.Nodup

/-! Walks through what lies below a root. A walk is known by what it yields: the entries that are
neither hidden nor ignored and that are taken, where the same holds of every directory on the way to
them. The walk on a disk yields these in the order in which the disk lists them. -/

namespace CodeAtlas

namespace Disk

def places (disk : Disk) : List Steps :=
  disk.files.map (·.1) ++ disk.directories

/-- The files and directories of a disk are told apart by names, and each lies in a directory. -/
structure IsTree (disk : Disk) : Prop where
  names : ∀ path ∈ disk.places, ∀ name ∈ path, Path.IsName name.bytes
  nodup : disk.places.Nodup
  parents : ∀ path ∈ disk.places, path ≠ [] → path.dropLast ∈ disk.directories

/-- What stands on the way to a place is a directory. -/
theorem IsTree.mem_directories {disk : Disk} (h : disk.IsTree) {path front : Steps}
    (hpath : path ∈ disk.places) (hbegins : front <+: path) (hne : front ≠ path) :
    front ∈ disk.directories := by
  induction path using List.reverseRecOn with
  | nil => exact absurd (List.prefix_nil.mp hbegins) hne
  | append_singleton path name ih =>
      have hparent : path ∈ disk.directories := by
        simpa using h.parents _ hpath (by simp)
      rcases List.prefix_concat_iff.mp hbegins with hall | hfront
      · exact absurd hall hne
      · by_cases hsame : front = path
        · rwa [hsame]
        · exact ih (List.mem_append_right _ hparent) hfront hsame

theorem mem_drop_beginnings_iff {front below : Steps} :
    front ∈ (beginnings below).drop 1 ↔ front ≠ [] ∧ front <+: below := by
  have hall : ∀ {front below : Steps}, front ∈ beginnings below ↔ front <+: below := by
    intro front below
    induction below generalizing front with
    | nil => simp [beginnings]
    | cons step below ih => simp [beginnings, List.prefix_cons_iff, ih, eq_comm, and_comm]
  cases below with
  | nil => simp [beginnings]
  | cons step below =>
      simp only [beginnings, List.drop_succ_cons, List.drop_zero, List.mem_map, hall,
        List.prefix_cons_iff]
      constructor
      · rintro ⟨front, hfront, rfl⟩
        exact ⟨List.cons_ne_nil _ _, .inr ⟨front, rfl, hfront⟩⟩
      · rintro ⟨hne, rfl | ⟨front, rfl, hfront⟩⟩
        · exact absurd rfl hne
        · exact ⟨front, hfront, rfl⟩

end Disk

namespace Discovery

/-! ## Trees of entries -/

/-- The entries below a root are told apart by names, and what stands on the way to one of them is a
directory among them. -/
structure IsTree (entries : List Entry) : Prop where
  ne_nil : ∀ entry ∈ entries, entry.below ≠ []
  names : ∀ entry ∈ entries, ∀ name ∈ entry.below, Path.IsName name.bytes
  nodup : (entries.map (·.below)).Nodup
  directories : ∀ entry ∈ entries, ∀ front, front ≠ [] → front <+: entry.below →
    front ≠ entry.below → ⟨front, .directory⟩ ∈ entries

section Tree

variable {entries : List Entry} (htree : IsTree entries)

include htree

theorem IsTree.eq_of_below_eq {entry other : Entry} (h : entry ∈ entries) (h' : other ∈ entries)
    (hbelow : entry.below = other.below) : entry = other :=
  List.inj_on_of_nodup_map htree.nodup h h' hbelow

/-- The way to an entry is made of the entries that its names lead through. -/
theorem IsTree.mem_way_iff {entry above : Entry} (h : entry ∈ entries) :
    above ∈ entry.way ↔ above ∈ entries ∧ above.below <+: entry.below := by
  simp only [Entry.way, List.mem_map, Disk.mem_drop_beginnings_iff]
  constructor
  · rintro ⟨front, ⟨hne, hbegins⟩, rfl⟩
    split
    · exact ⟨h, List.prefix_refl _⟩
    · rename_i hproper
      exact ⟨htree.directories entry h front hne hbegins hproper, hbegins⟩
  · rintro ⟨habove, hbegins⟩
    refine ⟨above.below, ⟨htree.ne_nil above habove, hbegins⟩, ?_⟩
    split
    · rename_i hsame
      exact htree.eq_of_below_eq h habove hsame.symm
    · rename_i hproper
      have hdirectory := htree.directories entry h above.below (htree.ne_nil above habove) hbegins
        hproper
      exact htree.eq_of_below_eq hdirectory habove rfl

end Tree

/-! ## What a walk yields -/

/-- A walk yields an entry once, exactly where the entry and all that stand on the way to it are
neither hidden nor ignored and are accepted. -/
structure Yields (walk : Walk) (entries : List Entry) (hidden ignored : Entry → Prop) : Prop where
  mem_iff : ∀ (accepts : Entry → Bool) (entry : Entry), entry ∈ walk accepts ↔
    entry ∈ entries ∧ ∀ above ∈ entries, above.below <+: entry.below →
      ¬hidden above ∧ ¬ignored above ∧ accepts above = true
  nodup : ∀ accepts : Entry → Bool, (walk accepts).Nodup

/-- Two walks that yield the same differ in the order alone. -/
theorem Yields.perm {walk other : Walk} {entries : List Entry} {hidden ignored : Entry → Prop}
    (h : Yields walk entries hidden ignored) (h' : Yields other entries hidden ignored)
    (accepts : Entry → Bool) : (walk accepts).Perm (other accepts) :=
  (List.perm_ext_iff_of_nodup (h.nodup accepts) (h'.nodup accepts)).mpr fun entry => by
    rw [h.mem_iff, h'.mem_iff]

/-! ## The walk on a disk -/

theorem below?_eq_some_iff {root path below : Steps} :
    below? root path = some below ↔ below ≠ [] ∧ path = root ++ below := by
  simp only [below?, Bool.and_eq_true, List.isPrefixOf_iff_prefix, bne_iff_ne]
  constructor
  · intro h
    split at h
    · rename_i hroot
      obtain ⟨⟨rest, rfl⟩, hne⟩ := hroot
      rw [List.drop_left] at h
      obtain rfl := Option.some.inj h
      exact ⟨by simpa using hne, rfl⟩
    · cases h
  · rintro ⟨hne, rfl⟩
    simp [hne]

section Disk

variable (disk : Disk) (root : Steps)

theorem map_below_entriesOn :
    (entriesOn disk root).map (·.below) = disk.places.filterMap (below? root) := by
  have hbelow : ∀ kind : Kind, ∀ path : Steps,
      ((below? root path).map (⟨·, kind⟩ : Steps → Entry)).map (·.below) = below? root path := by
    intro kind path
    cases below? root path <;> rfl
  rw [entriesOn, List.map_append, List.map_filterMap, List.map_filterMap, Disk.places,
    List.filterMap_append, List.filterMap_map]
  simp only [hbelow]
  rfl

theorem mem_places_of_mem_entriesOn {entry : Entry} (h : entry ∈ entriesOn disk root) :
    entry.below ≠ [] ∧ root ++ entry.below ∈ disk.places := by
  have hm := List.mem_map_of_mem (f := (·.below)) h
  rw [map_below_entriesOn, List.mem_filterMap] at hm
  obtain ⟨path, hpath, hbelow⟩ := hm
  obtain ⟨hne, rfl⟩ := below?_eq_some_iff.mp hbelow
  exact ⟨hne, hpath⟩

variable {disk}

theorem isTree_entriesOn (hdisk : disk.IsTree) : IsTree (entriesOn disk root) where
  ne_nil := fun _ h => (mem_places_of_mem_entriesOn disk root h).1
  names := by
    intro entry h name hname
    have hplace := (mem_places_of_mem_entriesOn disk root h).2
    exact hdisk.names _ hplace name (List.mem_append_right root hname)
  nodup := by
    rw [map_below_entriesOn]
    refine hdisk.nodup.filterMap fun path path' below h h' => ?_
    rw [(below?_eq_some_iff.mp h).2, (below?_eq_some_iff.mp h').2]
  directories := by
    intro entry h front hne hbegins hproper
    have hplace := (mem_places_of_mem_entriesOn disk root h).2
    have hdirectory : root ++ front ∈ disk.directories :=
      hdisk.mem_directories hplace ((List.prefix_append_right_inj root).mpr hbegins)
        (by simpa using hproper)
    refine List.mem_append_right _ (List.mem_filterMap.mpr ⟨root ++ front, hdirectory, ?_⟩)
    rw [below?_eq_some_iff.mpr ⟨hne, rfl⟩]
    rfl

/-- The walk on a disk yields what lies below the root and is neither hidden nor ignored there. -/
theorem yields_walkOn (hdisk : disk.IsTree) :
    Yields (walkOn disk root) (entriesOn disk root) (fun entry => isHidden disk root entry = true)
      fun entry => isIgnored disk root entry = true where
  mem_iff := by
    intro accepts entry
    rw [walkOn, List.mem_filter, List.all_eq_true]
    refine and_congr_right fun hm => ?_
    simp only [(isTree_entriesOn root hdisk).mem_way_iff hm, Bool.and_eq_true, Bool.not_eq_true',
      Bool.not_eq_true, and_imp]
    exact forall_congr' fun above => forall₂_congr fun _ _ => by tauto
  nodup := fun accepts => ((isTree_entriesOn root hdisk).nodup.of_map).filter _

end Disk

end Discovery

end CodeAtlas
