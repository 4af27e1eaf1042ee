import CodeAtlas.Proofs.Sorted
import CodeAtlas.Proofs.Source.RawPath
import CodeAtlas.Proofs.Source.Walk
import Mathlib.Algebra.BigOperators.Group.List.Basic
import Mathlib.Algebra.GroupWithZero.Nat

/-! What a discovery finds. A file that the walk yields is found or counted once, and the files stand
in the order of their paths. Names that are no UTF-8 may be read alike; where they are not, there is
one order, whatever that of the walk. -/

namespace CodeAtlas

namespace SourceFile

/-! ## Files below a root -/

/-- Names as they are read, with a slash between neighbours. -/
def called (below : Steps) : String :=
  String.ofList (Path.join (below.map fun name => Utf8.decode name.bytes))

/-- The file with the names `below` behind a root, if the extension of the last one belongs to a
language. -/
def below? (rootPath : RawText) (below : Steps) : Option SourceFile := do
  let name ← below.getLast?
  let extension ← RawText.text? ⟨← Path.extensionOf? name.bytes⟩
  let language ← Language.ofExtension? extension
  return ⟨⟨Path.append rootPath.bytes (Disk.written below).bytes⟩, called below, language, extension⟩

theorem isName_bytes {below : Steps} (h : ∀ name ∈ below, Path.IsName name.bytes) :
    ∀ name ∈ below.map (·.bytes), Path.IsName name :=
  List.forall_mem_map.mpr h

section Below

variable {below : Steps} (h : ∀ name ∈ below, Path.IsName name.bytes) (rootPath : RawText)

include h

theorem relativeText_append :
    relativeText rootPath ⟨Path.append rootPath.bytes (Disk.written below).bytes⟩ =
      called below := by
  rw [relativeText, Disk.written, Path.seenFrom_append (isName_bytes h), List.map_map, List.map_map,
    called, ← Path.render_normal, List.map_map]
  rfl

theorem ofPath?_append (hne : below ≠ []) :
    ofPath? rootPath ⟨Path.append rootPath.bytes (Disk.written below).bytes⟩ =
      below? rootPath below := by
  have hlast : below.getLast? = some (below.getLast hne) := List.getLast?_eq_some_getLast hne
  have hname : (below.map (·.bytes)).getLast? = some (below.getLast hne).bytes := by
    rw [List.getLast?_map, hlast]
    rfl
  rw [ofPath?, relativeText_append h, Path.extension?, Disk.written,
    Path.fileName?_append (isName_bytes h) hname, below?, hlast]
  rfl

end Below

section Found

variable {rootPath : RawText} {below : Steps} {file : SourceFile}

theorem path_of_below? (h : below? rootPath below = some file) :
    file.path = ⟨Path.append rootPath.bytes (Disk.written below).bytes⟩ := by
  simp only [below?, Option.bind_eq_bind, Option.bind_eq_some_iff, Option.pure_def] at h
  obtain ⟨name, -, raw, -, extension, -, language, -, hfile⟩ := h
  exact (congrArg path (Option.some.inj hfile)).symm

theorem relativePath_of_below? (h : below? rootPath below = some file) :
    file.relativePath = called below := by
  simp only [below?, Option.bind_eq_bind, Option.bind_eq_some_iff, Option.pure_def] at h
  obtain ⟨name, -, raw, -, extension, -, language, -, hfile⟩ := h
  exact (congrArg relativePath (Option.some.inj hfile)).symm

end Found

theorem below_eq_of_path_eq {rootPath : RawText} {below below' : Steps}
    (h : ∀ name ∈ below, Path.IsName name.bytes) (h' : ∀ name ∈ below', Path.IsName name.bytes)
    (hpath : Path.append rootPath.bytes (Disk.written below).bytes =
      Path.append rootPath.bytes (Disk.written below').bytes) : below = below' := by
  have hnames := Path.append_join_injective (isName_bytes h) (isName_bytes h') hpath
  exact List.map_injective_iff.mpr (fun _ _ he => congrArg RawText.mk he) hnames

/-- Names that are UTF-8 are told apart by how they are read. -/
theorem below_eq_of_called_eq {below below' : Steps}
    (h : ∀ name ∈ below, Path.IsName name.bytes ∧ name.text?.isSome)
    (h' : ∀ name ∈ below', Path.IsName name.bytes ∧ name.text?.isSome)
    (hcalled : called below = called below') : below = below' := by
  have hread : ∀ name : RawText, name.text?.isSome → Utf8.encode (Utf8.decode name.bytes) =
      name.bytes := by
    intro name hname
    obtain ⟨text, htext, -⟩ := Option.map_eq_some_iff.mp (Option.some_get hname).symm
    rw [Utf8.decode?_eq_some_iff.mp htext, Utf8.decode_encode]
  have hnames : ∀ below : Steps, (∀ name ∈ below, Path.IsName name.bytes ∧ name.text?.isSome) →
      ∀ name ∈ below.map fun name => Utf8.decode name.bytes, Path.IsName name := by
    intro below h
    refine List.forall_mem_map.mpr fun name hm => ?_
    rw [← Path.isName_encode_iff, hread name (h name hm).2]
    exact (h name hm).1
  have hwritten := Path.join_injective (hnames below h) (hnames below' h')
    (String.ofList_injective hcalled)
  have hbytes := congrArg (List.map fun name => RawText.mk (Utf8.encode name)) hwritten
  rw [List.map_map, List.map_map] at hbytes
  have hsame : ∀ below : Steps, (∀ name ∈ below, Path.IsName name.bytes ∧ name.text?.isSome) →
      below.map ((fun name => RawText.mk (Utf8.encode name)) ∘ fun name => Utf8.decode name.bytes) =
        below := by
    intro below h
    exact (List.map_congr_left fun name hm => congrArg RawText.mk (hread name (h name hm).2)).trans
      (List.map_id below)
  rwa [hsame below h, hsame below' h'] at hbytes

end SourceFile

namespace Discovery

/-! ## Files that the walk yields -/

/-- A file below a root, and its size. -/
structure Met where
  below : Steps
  size : Nat

/-- The file that an entry is. -/
def Entry.met? (entry : Entry) : Option Met :=
  match entry.kind with
  | .file size => some ⟨entry.below, size⟩
  | _ => none

/-- The files among some entries. -/
def filesOf (entries : List Entry) : List Met :=
  entries.filterMap Entry.met?

/-- The file is there, nothing on the way to it is hidden or ignored, the file included, and no
directory is one of those without sources. -/
structure IsVisible (entries : List Entry) (hidden ignored : Entry → Prop) (met : Met) : Prop where
  mem : ⟨met.below, .file met.size⟩ ∈ entries
  not_hidden : ∀ above ∈ entries, above.below <+: met.below → ¬hidden above
  not_ignored : ∀ above ∈ entries, above.below <+: met.below → ¬ignored above
  not_sourceless : ∀ name ∈ met.below.dropLast, name ∉ sourcelessDirectories

theorem Entry.met?_eq_some_iff {entry : Entry} {met : Met} :
    entry.met? = some met ↔ entry = ⟨met.below, .file met.size⟩ := by
  obtain ⟨below, kind⟩ := entry
  cases met
  cases kind <;> simp [met?]

theorem mem_filesOf_iff {entries : List Entry} {met : Met} :
    met ∈ filesOf entries ↔ ⟨met.below, .file met.size⟩ ∈ entries := by
  simp [filesOf, Entry.met?_eq_some_iff]

/-- The directories on the way to a file, by their names. -/
theorem mem_dropLast_iff {below : Steps} {name : RawText} :
    name ∈ below.dropLast ↔
      ∃ front, front <+: below ∧ front ≠ below ∧ front.getLast? = some name := by
  constructor
  · intro hm
    rcases List.eq_nil_or_concat' below with rfl | ⟨directories, last, rfl⟩
    · cases hm
    · rw [List.dropLast_concat] at hm
      obtain ⟨front, back, rfl⟩ := List.append_of_mem hm
      exact ⟨front ++ [name], ⟨back ++ [last], by simp⟩, by simp, by simp⟩
  · rintro ⟨front, ⟨back, rfl⟩, hne, hlast⟩
    have hback : back ≠ [] := by
      rintro rfl
      exact hne (List.append_nil front).symm
    rw [List.dropLast_append_of_ne_nil hback]
    exact List.mem_append_left _ (List.mem_of_getLast? hlast)

section Walked

variable {entries : List Entry} {hidden ignored : Entry → Prop} {walk : Walk}

theorem accepts_eq_true_iff {entry : Entry} :
    accepts entry = true ↔ entry.kind = .directory → entry.name ∉ sourcelessDirectories := by
  simp [accepts, imp_iff_not_or]

/-- The walk takes what leads to a file exactly where no directory is one without sources. -/
theorem accepts_iff_not_sourceless (htree : IsTree entries) {met : Met}
    (hm : ⟨met.below, .file met.size⟩ ∈ entries) :
    (∀ above ∈ entries, above.below <+: met.below → accepts above = true) ↔
      ∀ name ∈ met.below.dropLast, name ∉ sourcelessDirectories := by
  simp only [accepts_eq_true_iff]
  constructor
  · intro h name hname
    obtain ⟨front, hbegins, hproper, hlast⟩ := mem_dropLast_iff.mp hname
    have hne : front ≠ [] := by
      rintro rfl
      cases hlast
    have hdirectory := htree.directories _ hm front hne hbegins hproper
    have hsources := h _ hdirectory hbegins rfl
    rwa [Entry.name, hlast] at hsources
  · intro h above habove hbegins hkind
    have hproper : above.below ≠ met.below := by
      intro hsame
      rw [htree.eq_of_below_eq habove hm hsame] at hkind
      cases hkind
    have hlast := List.getLast?_eq_some_getLast (htree.ne_nil above habove)
    rw [Entry.name, hlast]
    exact h _ (mem_dropLast_iff.mpr ⟨above.below, hbegins, hproper, hlast⟩)

variable (htree : IsTree entries) (hwalk : Yields walk entries hidden ignored)

include htree hwalk

/-- The walk yields every visible file, and no other. -/
theorem mem_filesOf_walk_iff {met : Met} :
    met ∈ filesOf (walk accepts) ↔ IsVisible entries hidden ignored met := by
  rw [mem_filesOf_iff, hwalk.mem_iff]
  constructor
  · rintro ⟨hm, hway⟩
    refine ⟨hm, fun above ha hp => (hway above ha hp).1, fun above ha hp => (hway above ha hp).2.1, ?_⟩
    exact (accepts_iff_not_sourceless htree hm).mp fun above ha hp => (hway above ha hp).2.2
  · rintro ⟨hm, hhidden, hignored, hsources⟩
    have haccepts := (accepts_iff_not_sourceless htree hm).mpr hsources
    exact ⟨hm, fun above ha hp => ⟨hhidden above ha hp, hignored above ha hp, haccepts above ha hp⟩⟩

/-- The walk yields each file once. -/
theorem nodup_filesOf_walk : ((filesOf (walk accepts)).map (·.below)).Nodup := by
  refine List.Nodup.map_on ?_ ?_
  · intro met hm met' hm' hbelow
    have hentry := (hwalk.mem_iff _ _).mp (mem_filesOf_iff.mp hm)
    have hentry' := (hwalk.mem_iff _ _).mp (mem_filesOf_iff.mp hm')
    have hsame := htree.eq_of_below_eq hentry.1 hentry'.1 hbelow
    cases met
    cases met'
    simpa using hsame
  · refine (hwalk.nodup accepts).filterMap fun entry entry' met hmet hmet' => ?_
    rw [Entry.met?_eq_some_iff.mp hmet, Entry.met?_eq_some_iff.mp hmet']

theorem isName_of_mem_filesOf {met : Met} (h : met ∈ filesOf (walk accepts)) :
    ∀ name ∈ met.below, Path.IsName name.bytes :=
  htree.names _ ((mem_filesOf_walk_iff htree hwalk).mp h).mem

theorem ne_nil_of_mem_filesOf {met : Met} (h : met ∈ filesOf (walk accepts)) : met.below ≠ [] :=
  htree.ne_nil _ ((mem_filesOf_walk_iff htree hwalk).mp h).mem

end Walked

theorem outcomes_eq_map_filesOf (settings : Config.Analysis) (exclude : List Glob)
    (rootPath : RawText) (entries : List Entry) :
    outcomes settings exclude rootPath entries = (filesOf entries).map fun met =>
      outcome settings exclude rootPath met.below met.size := by
  rw [outcomes, filesOf, List.map_filterMap]
  refine List.filterMap_congr fun entry _ => ?_
  rw [Entry.met?]
  cases entry.kind <;> rfl

/-! ## Choosing files -/

def isExcluded (exclude : List Glob) (below : Steps) : Bool :=
  exclude.any fun glob => glob.covers (Disk.written below).bytes

/-- Why a file that the walk meets is left out and counted. -/
inductive Reason where
  | excluded
  | otherLanguage
  | tooLarge
  deriving DecidableEq

section Choice

variable (settings : Config.Analysis) (exclude : List Glob) (rootPath : RawText)

/-- The file is to be found where it was met. -/
@[mk_iff]
structure IsWanted (met : Met) (file : SourceFile) : Prop where
  not_excluded : isExcluded exclude met.below = false
  file_eq : SourceFile.below? rootPath met.below = some file
  allowed : settings.allows file.language.id = true
  size_le : met.size ≤ settings.sizeLimit

/-- The reason applies to a file that the walk meets. -/
def Reason.applies (reason : Reason) (met : Met) : Bool :=
  match reason with
  | excluded => isExcluded exclude met.below
  | otherLanguage => !isExcluded exclude met.below &&
      (SourceFile.below? rootPath met.below).any fun file => !settings.allows file.language.id
  | tooLarge => !isExcluded exclude met.below && decide (settings.sizeLimit < met.size) &&
      (SourceFile.below? rootPath met.below).any fun file => settings.allows file.language.id

/-- The outcome that stands for a reason. -/
def Reason.outcome : Reason → Outcome
  | excluded => .excluded
  | otherLanguage => .otherLanguage
  | tooLarge => .tooLarge

theorem exists_outcome_iff {outcome : Outcome} : (∃ reason : Reason, outcome = reason.outcome) ↔
    outcome ≠ .unknown ∧ ¬∃ file size, outcome = .found file size := by
  constructor
  · rintro ⟨reason, rfl⟩
    cases reason <;> simp [Reason.outcome]
  · rintro ⟨hunknown, hfound⟩
    cases outcome with
    | found file size => exact absurd ⟨file, size, rfl⟩ hfound
    | excluded => exact ⟨.excluded, rfl⟩
    | unknown => exact absurd rfl hunknown
    | otherLanguage => exact ⟨.otherLanguage, rfl⟩
    | tooLarge => exact ⟨.tooLarge, rfl⟩

theorem Reason.outcome_injective : Function.Injective Reason.outcome := by
  intro reason other h
  cases reason <;> cases other <;> first | rfl | cases h

variable {settings exclude rootPath} {met : Met}

section Names

variable (hnames : ∀ name ∈ met.below, Path.IsName name.bytes) (hne : met.below ≠ [])

include hnames hne

theorem outcome_eq : outcome settings exclude rootPath met.below met.size =
    if isExcluded exclude met.below then .excluded
    else
      match SourceFile.below? rootPath met.below with
      | none => .unknown
      | some file =>
        if settings.allows file.language.id = false then .otherLanguage
        else if settings.sizeLimit < met.size then .tooLarge
        else .found file met.size := by
  simp only [outcome, SourceFile.ofPath?_append hnames _ hne, Bool.not_eq_true']
  rfl

theorem outcome_eq_found_iff {file : SourceFile} {size : Nat} :
    outcome settings exclude rootPath met.below met.size = .found file size ↔
      IsWanted settings exclude rootPath met file ∧ size = met.size := by
  rw [outcome_eq hnames hne, isWanted_iff]
  cases isExcluded exclude met.below with
  | true => simp
  | false =>
      cases SourceFile.below? rootPath met.below with
      | none => simp
      | some other => grind

theorem outcome_eq_reason_iff {reason : Reason} :
    outcome settings exclude rootPath met.below met.size = reason.outcome ↔
      reason.applies settings exclude rootPath met = true := by
  rw [outcome_eq hnames hne, Reason.applies.eq_def]
  cases isExcluded exclude met.below with
  | true => cases reason <;> simp [Reason.outcome]
  | false =>
      cases SourceFile.below? rootPath met.below with
      | none => cases reason <;> simp [Reason.outcome]
      | some file => cases reason <;> grind [Reason.outcome]

theorem outcome_ne_unknown_iff : outcome settings exclude rootPath met.below met.size ≠ .unknown ↔
    isExcluded exclude met.below = true ∨ (SourceFile.below? rootPath met.below).isSome := by
  rw [outcome_eq hnames hne]
  cases isExcluded exclude met.below with
  | true => simp
  | false =>
      cases SourceFile.below? rootPath met.below with
      | none => simp
      | some file => grind

/-- A file with a known language or an excluded path is found or counted. -/
theorem exists_applies_iff :
    (∃ reason : Reason, reason.applies settings exclude rootPath met = true) ↔
      (isExcluded exclude met.below = true ∨ (SourceFile.below? rootPath met.below).isSome) ∧
        ¬∃ file, IsWanted settings exclude rootPath met file := by
  simp only [← outcome_eq_reason_iff hnames hne, exists_outcome_iff,
    outcome_eq_found_iff hnames hne, exists_and_left, exists_eq, and_true]
  rw [outcome_ne_unknown_iff hnames hne]

/-- No file is counted for two reasons: it has one outcome. -/
theorem eq_of_applies {reason other : Reason}
    (h : reason.applies settings exclude rootPath met = true)
    (h' : other.applies settings exclude rootPath met = true) : reason = other := by
  rw [← outcome_eq_reason_iff hnames hne] at h h'
  exact Reason.outcome_injective (h.symm.trans h')

end Names

end Choice

/-! ## Counting files -/

theorem mem_countLanguages_iff {languages : List Language} {language : Language} {count : Nat} :
    (language, count) ∈ countLanguages languages ↔
      count ≠ 0 ∧ count = languages.count language := by
  have hall : language ∈ Language.all := by cases language <;> decide
  simp only [countLanguages, List.mem_filter, List.mem_map, Prod.mk.injEq, bne_iff_ne]
  constructor
  · rintro ⟨⟨_, -, rfl, rfl⟩, hne⟩
    exact ⟨hne, rfl⟩
  · rintro ⟨hne, rfl⟩
    exact ⟨⟨language, hall, rfl, rfl⟩, hne⟩

theorem pairwise_countLanguages (languages : List Language) :
    (countLanguages languages).Pairwise fun a b => a.1.rank < b.1.rank := by
  have hall : Language.all.Pairwise fun a b => a.rank < b.rank := by decide
  refine List.Pairwise.filter _ (List.pairwise_map.mpr ?_)
  exact hall

theorem countLanguages_congr {languages languages' : List Language}
    (h : languages.Perm languages') : countLanguages languages = countLanguages languages' := by
  simp only [countLanguages, h.count_eq]

theorem Outcome.found?_eq_some_iff {outcome : Outcome} {file : SourceFile} {size : Nat} :
    outcome.found? = some (file, size) ↔ outcome = .found file size := by
  cases outcome <;> simp [Outcome.found?]

/-- The files that were found, with their sizes, in the order of their paths. -/
def found (outcomes : List Outcome) : List (SourceFile × Nat) :=
  sortedBy (·.1.relativePath) (outcomes.filterMap Outcome.found?)

theorem found_perm (outcomes : List Outcome) :
    (found outcomes).Perm (outcomes.filterMap Outcome.found?) :=
  sortedBy_perm _ _

/-- The counter for a reason. -/
def skipped (stats : DiscoveryStats) : Reason → Nat
  | .excluded => stats.excluded
  | .otherLanguage => stats.otherLanguage
  | .tooLarge => stats.tooLarge

theorem skipped_gather (outcomes : List Outcome) (reason : Reason) :
    skipped (gather outcomes).2 reason = outcomes.count reason.outcome := by
  cases reason <;> rfl

theorem files_gather (outcomes : List Outcome) :
    (gather outcomes).1 = (found outcomes).map (·.1) :=
  (map_sortedBy SourceFile.relativePath (Prod.fst : SourceFile × Nat → SourceFile) _).symm

theorem totalFiles_gather (outcomes : List Outcome) :
    (gather outcomes).2.totalFiles = (found outcomes).length :=
  (found_perm outcomes).length_eq.symm

theorem totalSize_gather (outcomes : List Outcome) :
    (gather outcomes).2.totalSize = ((found outcomes).map (·.2)).sum := by
  rw [((found_perm outcomes).map _).sum_eq, List.sum_eq_foldl, List.foldl_map]
  rfl

theorem languages_gather (outcomes : List Outcome) :
    (gather outcomes).2.languages = countLanguages ((found outcomes).map (·.1.language)) :=
  countLanguages_congr ((found_perm outcomes).map _).symm

section Perm

variable {outcomes outcomes' : List Outcome} (h : outcomes.Perm outcomes')

include h

theorem found_perm_of_perm : (found outcomes).Perm (found outcomes') :=
  ((found_perm outcomes).trans (h.filterMap _)).trans (found_perm outcomes').symm

/-- The counts do not depend on the order of the outcomes. -/
theorem stats_gather_congr : (gather outcomes).2 = (gather outcomes').2 := by
  have hfound := found_perm_of_perm h
  have hfiles := hfound.length_eq
  have hsize := (hfound.map (·.2)).sum_eq
  have hlanguages := countLanguages_congr (hfound.map (·.1.language))
  rw [← totalFiles_gather, ← totalFiles_gather] at hfiles
  rw [← totalSize_gather, ← totalSize_gather] at hsize
  rw [← languages_gather, ← languages_gather] at hlanguages
  simp only [gather, DiscoveryStats.mk.injEq] at hfiles hsize hlanguages ⊢
  exact ⟨hfiles, hsize, h.count_eq _, h.count_eq _, h.count_eq _, hlanguages⟩

/-- Where each path is found once, the order of the outcomes makes no difference. -/
theorem gather_congr (hn : ((found outcomes).map (·.1.relativePath)).Nodup) :
    gather outcomes = gather outcomes' := by
  refine Prod.ext ?_ (stats_gather_congr h)
  have hfound : found outcomes = found outcomes' :=
    sortedBy_eq_of_perm _ (h.filterMap _) (((found_perm outcomes).map _).nodup_iff.mp hn)
  rw [files_gather, files_gather, hfound]

end Perm

/-! ## Discoveries -/

/-- What a discovery promises of the files that it finds and of its counts, by the files that the
walk yields. -/
structure Finds (entries : List Entry) (hidden ignored : Entry → Prop) (settings : Config.Analysis)
    (exclude : List Glob) (rootPath : RawText) (walked : List Met)
    (found : List (SourceFile × Nat)) (stats : DiscoveryStats) : Prop where
  mem_walked_iff : ∀ met, met ∈ walked ↔ IsVisible entries hidden ignored met
  walked_nodup : (walked.map (·.below)).Nodup
  mem_found_iff : ∀ file size, (file, size) ∈ found ↔
    ∃ met ∈ walked, IsWanted settings exclude rootPath met file ∧ size = met.size
  found_nodup : (found.map (·.1.path)).Nodup
  found_sorted : found.Pairwise fun a b => a.1.relativePath ≤ b.1.relativePath
  totalFiles_eq : stats.totalFiles = found.length
  totalSize_eq : stats.totalSize = (found.map (·.2)).sum
  mem_languages_iff : ∀ language count, (language, count) ∈ stats.languages ↔
    count ≠ 0 ∧ count = (found.map (·.1.language)).count language
  languages_sorted : stats.languages.Pairwise fun a b => a.1.rank < b.1.rank
  skipped_eq : ∀ reason : Reason,
    skipped stats reason = walked.countP (reason.applies settings exclude rootPath)
  counted_iff : ∀ met ∈ walked,
    (∃ reason : Reason, reason.applies settings exclude rootPath met = true) ↔
      (isExcluded exclude met.below = true ∨ (SourceFile.below? rootPath met.below).isSome) ∧
        ¬∃ file, IsWanted settings exclude rootPath met file
  counted_once : ∀ met ∈ walked, ∀ reason other : Reason,
    reason.applies settings exclude rootPath met = true →
      other.applies settings exclude rootPath met = true → reason = other

/-- What a discovery promises for all orders in which a walk may yield its entries: the counts and
the files are the same, and where each of these has a path of its own, so is their order. Names that
are UTF-8 give each file a path of its own. -/
structure SettlesOrder (entries : List Entry) (hidden ignored : Entry → Prop)
    (settings : Config.Analysis) (rootPath : RawText) (found : List (SourceFile × Nat))
    (stats : DiscoveryStats) : Prop where
  perm : ∀ walk, Yields walk entries hidden ignored → ∃ files,
    discover .directory walk settings rootPath = .ok (files, stats) ∧ files.Perm (found.map (·.1))
  strict : (found.map (·.1.relativePath)).Nodup →
    found.Pairwise fun a b => a.1.relativePath < b.1.relativePath
  same : (found.map (·.1.relativePath)).Nodup → ∀ walk, Yields walk entries hidden ignored →
    discover .directory walk settings rootPath = .ok (found.map (·.1), stats)
  nodup : (∀ entry ∈ entries, ∀ name ∈ entry.below, name.text?.isSome) →
    (found.map (·.1.relativePath)).Nodup

section Discover

variable {entries : List Entry} {hidden ignored : Entry → Prop} {walk : Walk}
  (settings : Config.Analysis) {exclude : List Glob} (rootPath : RawText)

theorem discover_eq_of_globs (hglobs : excludeGlobs settings.exclude = .ok exclude) (walk : Walk) :
    discover .directory walk settings rootPath =
      .ok (gather (outcomes settings exclude rootPath (walk accepts))) := by
  rw [discover, hglobs]
  rfl

variable (exclude)

/-- The files that a discovery finds behind a walk, with their sizes. -/
def foundBy (walk : Walk) : List (SourceFile × Nat) :=
  found (outcomes settings exclude rootPath (walk accepts))

section Yields

variable (htree : IsTree entries) (hwalk : Yields walk entries hidden ignored)

include hwalk in
theorem outcomes_perm {other : Walk} (hother : Yields other entries hidden ignored) :
    (outcomes settings exclude rootPath (walk accepts)).Perm
      (outcomes settings exclude rootPath (other accepts)) :=
  (hwalk.perm hother accepts).filterMap _

include htree hwalk

theorem mem_foundBy_iff {file : SourceFile} {size : Nat} :
    (file, size) ∈ foundBy settings exclude rootPath walk ↔
      ∃ met ∈ filesOf (walk accepts), IsWanted settings exclude rootPath met file ∧
        size = met.size := by
  rw [foundBy, (found_perm _).mem_iff, outcomes_eq_map_filesOf, List.filterMap_map,
    List.mem_filterMap]
  refine exists_congr fun met => and_congr_right fun hm => ?_
  rw [Function.comp_apply, Outcome.found?_eq_some_iff]
  exact outcome_eq_found_iff (isName_of_mem_filesOf htree hwalk hm)
    (ne_nil_of_mem_filesOf htree hwalk hm)

/-- A key of files that tells apart what the walk yields has another value for each file that is
found. -/
theorem nodup_map_foundBy {κ : Type} (key : SourceFile → κ)
    (hkey : ∀ met ∈ filesOf (walk accepts), ∀ met' ∈ filesOf (walk accepts), ∀ file file',
      IsWanted settings exclude rootPath met file → IsWanted settings exclude rootPath met' file' →
        key file = key file' → met.below = met'.below) :
    ((foundBy settings exclude rootPath walk).map fun entry => key entry.1).Nodup := by
  rw [foundBy, ((found_perm _).map _).nodup_iff, outcomes_eq_map_filesOf, List.filterMap_map]
  refine List.pairwise_map.mpr (List.pairwise_filterMap.mpr ?_)
  refine (List.pairwise_map.mp (nodup_filesOf_walk htree hwalk)).imp_of_mem ?_
  rintro met met' hm hm' hne ⟨file, size⟩ hfile ⟨file', size'⟩ hfile' hsame
  obtain ⟨hwanted, -⟩ := (outcome_eq_found_iff (isName_of_mem_filesOf htree hwalk hm)
    (ne_nil_of_mem_filesOf htree hwalk hm)).mp (Outcome.found?_eq_some_iff.mp hfile)
  obtain ⟨hwanted', -⟩ := (outcome_eq_found_iff (isName_of_mem_filesOf htree hwalk hm')
    (ne_nil_of_mem_filesOf htree hwalk hm')).mp (Outcome.found?_eq_some_iff.mp hfile')
  exact hne (hkey met hm met' hm' file file' hwanted hwanted' hsame)

theorem nodup_path_foundBy : ((foundBy settings exclude rootPath walk).map (·.1.path)).Nodup := by
  refine nodup_map_foundBy settings exclude rootPath htree hwalk SourceFile.path ?_
  intro met hm met' hm' file file' hwanted hwanted' hpath
  rw [SourceFile.path_of_below? hwanted.file_eq, SourceFile.path_of_below? hwanted'.file_eq] at hpath
  exact SourceFile.below_eq_of_path_eq (isName_of_mem_filesOf htree hwalk hm)
    (isName_of_mem_filesOf htree hwalk hm') (congrArg RawText.bytes hpath)

theorem nodup_relativePath_foundBy
    (hread : ∀ entry ∈ entries, ∀ name ∈ entry.below, name.text?.isSome) :
    ((foundBy settings exclude rootPath walk).map (·.1.relativePath)).Nodup := by
  have hnames : ∀ met ∈ filesOf (walk accepts), ∀ name ∈ met.below,
      Path.IsName name.bytes ∧ name.text?.isSome := by
    intro met hm name hname
    have hentry := ((mem_filesOf_walk_iff htree hwalk).mp hm).mem
    exact ⟨htree.names _ hentry name hname, hread _ hentry name hname⟩
  refine nodup_map_foundBy settings exclude rootPath htree hwalk SourceFile.relativePath ?_
  intro met hm met' hm' file file' hwanted hwanted' hcalled
  rw [SourceFile.relativePath_of_below? hwanted.file_eq,
    SourceFile.relativePath_of_below? hwanted'.file_eq] at hcalled
  exact SourceFile.below_eq_of_called_eq (hnames met hm) (hnames met' hm') hcalled

theorem skipped_gather_outcomes (reason : Reason) :
    skipped (gather (outcomes settings exclude rootPath (walk accepts))).2 reason =
      (filesOf (walk accepts)).countP (reason.applies settings exclude rootPath) := by
  rw [skipped_gather, outcomes_eq_map_filesOf, List.count_eq_countP, List.countP_map]
  refine List.countP_congr fun met hm => ?_
  rw [Function.comp_apply, beq_iff_eq]
  exact outcome_eq_reason_iff (isName_of_mem_filesOf htree hwalk hm)
    (ne_nil_of_mem_filesOf htree hwalk hm)

theorem finds_gather :
    Finds entries hidden ignored settings exclude rootPath (filesOf (walk accepts))
      (foundBy settings exclude rootPath walk)
      (gather (outcomes settings exclude rootPath (walk accepts))).2 where
  mem_walked_iff := fun _ => mem_filesOf_walk_iff htree hwalk
  walked_nodup := nodup_filesOf_walk htree hwalk
  mem_found_iff := fun _ _ => mem_foundBy_iff settings exclude rootPath htree hwalk
  found_nodup := nodup_path_foundBy settings exclude rootPath htree hwalk
  found_sorted := pairwise_sortedBy _ _
  totalFiles_eq := totalFiles_gather _
  totalSize_eq := totalSize_gather _
  mem_languages_iff := by
    intro language count
    rw [languages_gather]
    exact mem_countLanguages_iff
  languages_sorted := pairwise_countLanguages _
  skipped_eq := skipped_gather_outcomes settings exclude rootPath htree hwalk
  counted_iff := fun _ hm =>
    exists_applies_iff (isName_of_mem_filesOf htree hwalk hm) (ne_nil_of_mem_filesOf htree hwalk hm)
  counted_once := fun _ hm _ _ =>
    eq_of_applies (isName_of_mem_filesOf htree hwalk hm) (ne_nil_of_mem_filesOf htree hwalk hm)

variable {exclude} in
theorem settlesOrder_gather (hglobs : excludeGlobs settings.exclude = .ok exclude) :
    SettlesOrder entries hidden ignored settings rootPath (foundBy settings exclude rootPath walk)
      (gather (outcomes settings exclude rootPath (walk accepts))).2 where
  perm := by
    intro other hother
    have hperm := outcomes_perm settings exclude rootPath hwalk hother
    refine ⟨(gather (outcomes settings exclude rootPath (other accepts))).1, ?_, ?_⟩
    · rw [discover_eq_of_globs settings rootPath hglobs other, stats_gather_congr hperm]
    · rw [files_gather]
      exact ((found_perm_of_perm hperm).map _).symm
  strict := by
    intro hn
    exact pairwise_lt_sortedBy _ _ (((found_perm _).map _).nodup_iff.mp hn)
  same := by
    intro hn other hother
    have hperm := outcomes_perm settings exclude rootPath hwalk hother
    rw [discover_eq_of_globs settings rootPath hglobs other, ← gather_congr hperm hn,
      foundBy, ← files_gather]
  nodup := nodup_relativePath_foundBy settings exclude rootPath htree hwalk

/-- A discovery finds the wanted files among those that are visible from the root, and says how many
it left out and why. A glob that cannot be read ends it. -/
theorem discover_finds :
    match excludeGlobs settings.exclude with
    | .error e => discover .directory walk settings rootPath = .error e
    | .ok exclude => ∃ walked found stats,
        discover .directory walk settings rootPath = .ok (found.map (·.1), stats) ∧
        Finds entries hidden ignored settings exclude rootPath walked found stats ∧
        SettlesOrder entries hidden ignored settings rootPath found stats := by
  cases hglobs : excludeGlobs settings.exclude with
  | error e =>
      change discover .directory walk settings rootPath = .error e
      rw [discover, hglobs]
      rfl
  | ok exclude =>
      refine ⟨_, _, _, ?_, finds_gather settings exclude rootPath htree hwalk,
        settlesOrder_gather settings rootPath htree hwalk hglobs⟩
      rw [discover_eq_of_globs settings rootPath hglobs, foundBy, ← files_gather]

end Yields

end Discover

/-- A project with a file of each kind. -/
def mixedDisk : Disk where
  files :=
    [(["project", "src", "main.rs"], [10]), (["project", "a.py"], [32, 10]),
      (["project", "long.py"], [32, 32, 32, 10]), (["project", ".hidden.py"], []),
      (["project", "ignored.py"], []), (["project", ".gitignore"], Utf8.encode "ignored.py".toList),
      (["project", "build", "made.py"], []), (["project", "old", "b.py"], []),
      (["project", "c.rb"], []), (["project", "notes.txt"], [])]
  directories := [[], ["project"], ["project", "src"], ["project", "build"], ["project", "old"]]

def mixedSettings : Config.Analysis :=
  { Config.unset.analysis with
    maxFileSize := some 3, languages := ["Python", "rust"], exclude := ["old/**"] }

def mixedStats : DiscoveryStats :=
  ⟨2, 3, 1, 1, 1, [(.python, 1), (.rust, 1)]⟩

theorem isTree_mixedDisk : mixedDisk.IsTree where
  names := by decide +kernel
  nodup := by decide +kernel
  parents := by decide +kernel

theorem stats_discover_mixedDisk :
    (discoverOn mixedDisk mixedSettings "/project" ["project"]).toOption.map (·.2) =
      some mixedStats := by
  decide +kernel

theorem mixedDisk_found :
    IsTree (entriesOn mixedDisk ["project"]) ∧
      Yields (walkOn mixedDisk ["project"]) (entriesOn mixedDisk ["project"])
        (fun entry => isHidden mixedDisk ["project"] entry = true)
        (fun entry => isIgnored mixedDisk ["project"] entry = true) ∧
      ∃ exclude walked found, excludeGlobs mixedSettings.exclude = .ok exclude ∧
        discoverOn mixedDisk mixedSettings "/project" ["project"] =
          .ok (found.map (·.1), mixedStats) ∧
        Finds (entriesOn mixedDisk ["project"])
          (fun entry => isHidden mixedDisk ["project"] entry = true)
          (fun entry => isIgnored mixedDisk ["project"] entry = true)
          mixedSettings exclude "/project" walked found mixedStats := by
  have htree := isTree_entriesOn ["project"] isTree_mixedDisk
  have hwalk := yields_walkOn ["project"] isTree_mixedDisk
  have hstanding : standingOn mixedDisk ["project"] = .directory := by decide +kernel
  have hstats := stats_discover_mixedDisk
  have hfinds := discover_finds mixedSettings "/project" htree hwalk
  refine ⟨htree, hwalk, ?_⟩
  rw [discoverOn, hstanding] at hstats ⊢
  cases hglobs : excludeGlobs mixedSettings.exclude with
  | error e =>
      rw [hglobs] at hfinds
      rw [hfinds] at hstats
      cases hstats
  | ok exclude =>
      rw [hglobs] at hfinds
      obtain ⟨walked, found, stats, hdiscover, hfinds, -⟩ := hfinds
      rw [hdiscover] at hstats
      obtain rfl : stats = mixedStats := Option.some.inj hstats
      exact ⟨exclude, walked, found, rfl, hdiscover, hfinds⟩

/-! ## Names that are no UTF-8 -/

/-- A file next to the root whose name starts with a byte that is no UTF-8. -/
def oddlyNamed (first : UInt8) : Entry :=
  ⟨[⟨[first, 0x61, 0x2E, 0x70, 0x79]⟩], .file 0⟩

/-- What is found there. All such files have one relative path. -/
def oddlyCalled (first : UInt8) : SourceFile where
  path := ⟨Utf8.encode "/project/".toList ++ [first, 0x61, 0x2E, 0x70, 0x79]⟩
  relativePath := "\uFFFDa.py"
  language := .python
  extension := "py"

/-- The walk through files next to the root. -/
def oddWalk (names : List UInt8) : Walk := fun accepts =>
  (names.map oddlyNamed).filter accepts

theorem isTree_oddlyNamed : IsTree ([0xFF, 0xFE].map oddlyNamed) where
  ne_nil := by decide
  names := by decide +kernel
  nodup := by decide
  directories := by
    intro entry hentry front hne hbegins hproper
    simp only [List.map_cons, List.map_nil, List.mem_cons, List.not_mem_nil, or_false] at hentry
    rcases hentry with rfl | rfl <;>
    · rcases List.prefix_cons_iff.mp hbegins with rfl | ⟨rest, rfl, hrest⟩
      · exact absurd rfl hne
      · rw [List.prefix_nil.mp hrest] at hproper
        exact absurd rfl hproper

theorem yields_oddWalk {names : List UInt8} (h : names.Perm [0xFF, 0xFE]) :
    Yields (oddWalk names) ([0xFF, 0xFE].map oddlyNamed) (fun _ => False) fun _ => False where
  mem_iff := by
    intro accepts entry
    have halone : ∀ entry ∈ [0xFF, 0xFE].map oddlyNamed, ∀ above ∈ [0xFF, 0xFE].map oddlyNamed,
        above.below <+: entry.below → above = entry := by
      decide
    rw [oddWalk, List.mem_filter, (h.map oddlyNamed).mem_iff]
    refine and_congr_right fun hm => ⟨fun haccepts above ha hp => ?_, fun hway => ?_⟩
    · rw [halone entry hm above ha hp]
      exact ⟨not_false, not_false, haccepts⟩
    · exact (hway entry hm (List.prefix_refl _)).2.2
  nodup := fun accepts =>
    List.Nodup.filter _ ((h.map oddlyNamed).nodup_iff.mpr (by decide))

/-- Files with one relative path are listed as the walk yields them. -/
theorem files_discover_oddWalk (names : List UInt8) (h : names ∈ [[0xFF, 0xFE], [0xFE, 0xFF]]) :
    ∃ stats, discover .directory (oddWalk names) Config.unset.analysis "/project" =
      .ok (names.map oddlyCalled, stats) := by
  have hfound : ∀ names ∈ [[0xFF, 0xFE], [0xFE, 0xFF]],
      outcomes Config.unset.analysis [] "/project" (oddWalk names accepts) =
        names.map fun first => .found (oddlyCalled first) 0 := by
    decide +kernel
  have hsorted : (names.map oddlyCalled).Pairwise fun a b => a.relativePath ≤ b.relativePath :=
    List.pairwise_map.mpr (List.pairwise_of_forall fun _ _ => le_refl _)
  have hglobs : excludeGlobs Config.unset.analysis.exclude = .ok [] := rfl
  have hlisted : ((names.map fun first => Outcome.found (oddlyCalled first) 0).filterMap
      Outcome.found?).map (·.1) = names.map oddlyCalled := by
    simp [Outcome.found?, Function.comp_def, List.filterMap_map]
  refine ⟨(gather (names.map fun first => .found (oddlyCalled first) 0)).2, ?_⟩
  rw [discover_eq_of_globs _ _ hglobs, hfound names h, gather, hlisted, sortedBy_eq_self _ hsorted]

/-- Of two files whose names are read alike neither comes before the other by its path, so that the
order of the walk is that of the list; and a glob that cannot be read leaves no list. -/
theorem oddlyNamed_not_sorted :
    IsTree ([0xFF, 0xFE].map oddlyNamed) ∧
      Yields (oddWalk [0xFF, 0xFE]) ([0xFF, 0xFE].map oddlyNamed) (fun _ => False) (fun _ => False) ∧
      Yields (oddWalk [0xFE, 0xFF]) ([0xFF, 0xFE].map oddlyNamed) (fun _ => False) (fun _ => False) ∧
      (∃ files stats, discover .directory (oddWalk [0xFF, 0xFE]) Config.unset.analysis "/project" =
          .ok (files, stats) ∧ ¬files.Pairwise fun a b => a.relativePath < b.relativePath) ∧
      discover .directory (oddWalk [0xFE, 0xFF]) Config.unset.analysis "/project" ≠
        discover .directory (oddWalk [0xFF, 0xFE]) Config.unset.analysis "/project" ∧
      ∃ message, discover .directory (oddWalk [0xFF, 0xFE])
        { Config.unset.analysis with exclude := ["["] } "/project" =
          .error (.invalidPattern "[" message) := by
  obtain ⟨stats, hstats⟩ := files_discover_oddWalk [0xFF, 0xFE] (by decide)
  obtain ⟨others, hothers⟩ := files_discover_oddWalk [0xFE, 0xFF] (by decide)
  refine ⟨isTree_oddlyNamed, yields_oddWalk (.refl _), yields_oddWalk (.swap _ _ _),
    ⟨_, stats, hstats, by decide⟩, ?_, _, rfl⟩
  rw [hstats, hothers]
  have hfiles : [0xFE, 0xFF].map oddlyCalled ≠ [0xFF, 0xFE].map oddlyCalled := by decide
  exact fun h => hfiles (congrArg Prod.fst (Except.ok.inj h))

end Discovery

end CodeAtlas
