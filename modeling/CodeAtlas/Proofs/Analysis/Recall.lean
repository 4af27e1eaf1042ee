import CodeAtlas.Proofs.Analysis.Gather

/-! A run through files whose results stand in memory. Whatever the parsers are, none of them is used:
each file that can be read is found in memory, which is told and counted once. -/

namespace CodeAtlas

open Cache (Unexpired)

/-- What is done of a parse that found an entry. -/
def Progress.Recalls (key : String) (entry : CacheEntry) : Progress → Prop
  | asked => True
  | found other =>
    other.key = key ∧ other.result = entry.result ∧ other.created = entry.created
  | answered result => result = entry.result
  | expired | missed | parsed _ | learned _ => False

/-- An item in a list is changed so that more is made of it. -/
theorem perm_flatMap_set {α β : Type} {f : α → List β} {items : List α} {position : Nat}
    {old new : α} {more : List β} (h : items[position]? = some old) (hnew : f new = f old ++ more) :
    ((items.set position new).flatMap f).Perm (items.flatMap f ++ more) := by
  induction items generalizing position with
  | nil => cases h
  | cons item items ih =>
      cases position with
      | zero =>
          obtain rfl := Option.some.inj h
          rw [List.set_cons_zero, List.flatMap_cons, List.flatMap_cons, hnew, List.append_assoc,
            List.append_assoc]
          exact List.perm_append_comm.append_left (f item)
      | succ position =>
          rw [List.set_cons_succ, List.flatMap_cons, List.flatMap_cons, List.append_assoc]
          exact (ih h).append_left (f item)

namespace Analyzer

/-- What becomes of a file whose result is taken from memory. -/
def recalled (analyzer : Analyzer Memory) (disk : Disk) (memory : Memory) (file : SourceFile) :
    FileOutcome :=
  match disk.readFile file.path with
  | .error message => .failed (.fileRead file.relativePath message)
  | .ok content =>
    match memory.get? (analyzer.scope.key file.relativePath content) with
    | none => .skipped
    | some entry => .done ⟨file, entry.result, analyzer.interfacesOf file content entry.result⟩

/-- The event of a hit for a file that can be read. -/
def hit? (analyzer : Analyzer Memory) (disk : Disk) (file : SourceFile) : Option Event :=
  match disk.readFile file.path with
  | .error _ => none
  | .ok _ => some (.cacheHit file.relativePath analyzer.scope.branch)

/-- The parse of a file finds the entry that stands in memory. -/
def Recalls (analyzer : Analyzer Memory) (memory : Memory) (file : SourceFile) (content : Bytes)
    (progress : Progress) : Prop :=
  ∃ entry, memory.get? (analyzer.scope.key file.relativePath content) = some entry ∧
    progress.Recalls (analyzer.scope.key file.relativePath content) entry

/-- What is told of a file that is found in memory. -/
def told (analyzer : Analyzer Memory) (task : Task) : List Event :=
  match task.state with
  | .reading _ (.answered _) | .ended (.done _) =>
    [.cacheHit task.file.relativePath analyzer.scope.branch]
  | _ => []

/-- The same analyzer with other parsers. -/
def withParsers (analyzer : Analyzer Memory) (orchestrator : Orchestrator) : Analyzer Memory :=
  { analyzer with orchestrator := orchestrator }

variable {analyzer : Analyzer Memory} {run : Circumstances} {files : List SourceFile}
  {P : Nat → Prop} {memory : Memory} {maxAge : Duration}
  (hcache : analyzer.cache = .inMemory maxAge)

/-! ## Steps -/

section Step

variable {s : Session Memory} (hgrows : Memory.Grows P [] memory s.cache.place) {position : Nat}
  (hage : Unexpired maxAge P (run.clock (2 * position))) {file : SourceFile} {content : Bytes}
include hcache hgrows hage

/-- A parse that finds its entry in memory changes no result there. -/
theorem recalls_stepAt {progress : Progress} (h : analyzer.Recalls memory file content progress) :
    let next := analyzer.stepAt run position file content progress s
    Memory.Grows P [] memory next.2.cache.place ∧
      analyzer.Recalls memory file content next.1.1 := by
  obtain ⟨entry, hg, hprogress⟩ := h
  cases progress with
  | asked =>
      obtain ⟨later, hlater, hresult, hcreated⟩ := hgrows.retains _ entry hg
      have hkey := hgrows.dated.sound.key_of_get? hlater
      have hunexpired := hage later (hgrows.dated.created _ later hlater)
      rw [stepAt_asked_of_get? hcache position file content s hlater hunexpired]
      exact ⟨hgrows, entry, hg, hkey, hresult, hcreated⟩
  | found other =>
      obtain ⟨hkey, hresult, hcreated⟩ := hprogress
      rw [stepAt_found hcache]
      exact ⟨hgrows.put_same hg hkey hresult hcreated, entry, hg, hresult⟩
  | answered result => exact ⟨hgrows, entry, hg, hprogress⟩
  | expired | missed | parsed _ | learned _ => exact hprogress.elim

/-- A hit is told and counted when the parse is answered. -/
theorem told_stepAt {progress : Progress} (h : analyzer.Recalls memory file content progress) :
    let next := analyzer.stepAt run position file content progress s
    analyzer.told ⟨file, .reading content next.1.1⟩ =
        analyzer.told ⟨file, .reading content progress⟩ ++ next.1.2 ∧
      next.2.cache.counters = { s.cache.counters with
        hits := s.cache.counters.hits + next.1.2.length } := by
  obtain ⟨entry, hg, hprogress⟩ := h
  cases progress with
  | asked =>
      obtain ⟨later, hlater, -⟩ := hgrows.retains _ entry hg
      have hunexpired := hage later (hgrows.dated.created _ later hlater)
      rw [stepAt_asked_of_get? hcache position file content s hlater hunexpired]
      exact ⟨rfl, rfl⟩
  | found other =>
      rw [stepAt_found hcache]
      exact ⟨rfl, rfl⟩
  | answered result => exact ⟨rfl, rfl⟩
  | expired | missed | parsed _ | learned _ => exact hprogress.elim

theorem told_workOn {state : TaskState}
    (h : analyzer.StateHolds run position file (analyzer.Recalls memory file) state) :
    let next := analyzer.workOn run position file state s
    analyzer.told ⟨file, next.1.1⟩ = analyzer.told ⟨file, state⟩ ++ next.1.2 ∧
      next.2.cache.counters = { s.cache.counters with
        hits := s.cache.counters.hits + next.1.2.length } := by
  cases state with
  | waiting =>
      unfold workOn
      dsimp only
      split
      · exact ⟨rfl, rfl⟩
      · split <;> exact ⟨rfl, rfl⟩
  | reading content progress =>
      by_cases hanswered : ∃ result, progress = .answered result
      · obtain ⟨result, rfl⟩ := hanswered
        exact ⟨rfl, rfl⟩
      · rw [workOn_reading (not_exists.mp hanswered)]
        exact told_stepAt hcache hgrows hage h.2.2
  | ended outcome => exact ⟨(List.append_nil _).symm, rfl⟩

end Step

/-- A parse that finds its entry in memory needs no parser. -/
theorem workOn_withParsers (orchestrator : Orchestrator) (s : Session Memory) {position : Nat}
    {file : SourceFile} {state : TaskState}
    (h : analyzer.StateHolds run position file (analyzer.Recalls memory file) state) :
    (analyzer.withParsers orchestrator).workOn run position file state s =
      analyzer.workOn run position file state s := by
  cases state with
  | waiting | ended outcome => rfl
  | reading content progress =>
      obtain ⟨-, -, entry, -, hprogress⟩ := h
      cases progress with
      | missed => exact hprogress.elim
      | asked | found _ | expired | parsed _ | learned _ | answered _ => rfl

/-! ## Runs -/

/-- What a run tells and counts. -/
structure Tells (analyzer : Analyzer Memory) (before : CacheCounters) (work : Work Memory) :
    Prop where
  events_perm : work.events.Perm (work.tasks.flatMap analyzer.told)
  counters_eq : work.session.cache.counters =
    { before with hits := before.hits + work.events.length }

/-- The work on files whose results stand in memory. -/
abbrev FitsRecalled (analyzer : Analyzer Memory) (run : Circumstances) (files : List SourceFile)
    (P : Nat → Prop) (memory : Memory) (work : Work Memory) : Prop :=
  analyzer.Fits run files (fun s => Memory.Grows P [] memory s.cache.place)
    (fun _ _ file content progress => analyzer.Recalls memory file content progress) work

section Run

variable (hage : ∀ look < 2 * files.length, Unexpired maxAge P (run.clock look))
include hcache hage

/-- The step lemma: each file is found in memory. -/
theorem keeps_recalls :
    analyzer.Keeps run files (fun s => Memory.Grows P [] memory s.cache.place)
      fun _ _ file content progress => analyzer.Recalls memory file content progress where
  step := by
    intro s position file content progress hfile _ hgrows h
    have hlength := (List.getElem?_eq_some_iff.mp hfile).1
    exact recalls_stepAt hcache hgrows (hage (2 * position) (by omega)) h
  frame := by
    intro _ _ _ _ _ _ _ _ _ _ _ _ _ _ _ _ hother
    exact hother

theorem Tells.turn {before : CacheCounters} {work : Work Memory} (h : analyzer.Tells before work)
    (hfits : analyzer.FitsRecalled run files P memory work) (position : Nat) :
    analyzer.Tells before (analyzer.turn run work position) := by
  cases htask : work.tasks[position]? with
  | none => rwa [turn_of_getElem?_eq_none htask]
  | some task =>
      have hlength := (List.getElem?_eq_some_iff.mp (hfits.file_eq htask)).1
      obtain ⟨htold, hcounters⟩ := told_workOn hcache hfits.session
        (hage (2 * position) (by omega)) (hfits.tasks htask)
      rw [turn_of_getElem? htask]
      refine ⟨?_, ?_⟩
      · exact (h.events_perm.append_right _).trans (perm_flatMap_set htask htold).symm
      · rw [hcounters, h.counters_eq, List.length_append, Nat.add_assoc]

theorem FitsRecalled.turn {work : Work Memory}
    (hfits : analyzer.FitsRecalled run files P memory work) (position : Nat) :
    analyzer.FitsRecalled run files P memory (analyzer.turn run work position) :=
  Fits.turn (keeps_recalls hcache hage) hfits position

/-- The run lemma. -/
theorem tells_foldl {before : CacheCounters} {work : Work Memory}
    (h : analyzer.Tells before work) (hfits : analyzer.FitsRecalled run files P memory work)
    (turns : List Nat) : analyzer.Tells before (turns.foldl (analyzer.turn run) work) := by
  induction turns generalizing work with
  | nil => exact h
  | cons position turns ih =>
      exact ih (h.turn hcache hage hfits position) (hfits.turn hcache hage position)

theorem foldl_turn_withParsers (orchestrator : Orchestrator) {work : Work Memory}
    (hfits : analyzer.FitsRecalled run files P memory work) (turns : List Nat) :
    turns.foldl ((analyzer.withParsers orchestrator).turn run) work =
      turns.foldl (analyzer.turn run) work := by
  induction turns generalizing work with
  | nil => rfl
  | cons position turns ih =>
      have hturn : (analyzer.withParsers orchestrator).turn run work position =
          analyzer.turn run work position := by
        cases htask : work.tasks[position]? with
        | none => rw [turn_of_getElem?_eq_none htask, turn_of_getElem?_eq_none htask]
        | some task =>
            rw [turn_of_getElem? htask, turn_of_getElem? htask,
              workOn_withParsers orchestrator work.session (hfits.tasks htask)]
      rw [List.foldl_cons, List.foldl_cons, hturn, ih (hfits.turn hcache hage position)]

variable {s : Session Memory} (hdated : s.cache.place.Dated P)
  (hasked : ∀ {position : Nat} {file content}, files[position]? = some file →
    run.disk.readFile file.path = .ok content → analyzer.Recalls s.cache.place file content .asked)
include hdated hasked

/-- Other parsers make no difference. -/
theorem processFiles_withParsers (orchestrator : Orchestrator) :
    (analyzer.withParsers orchestrator).processFiles run files s =
      analyzer.processFiles run files s :=
  foldl_turn_withParsers hcache hage orchestrator (fits_begin (hdated.grows_refl []) hasked) _

theorem grows_processFiles :
    Memory.Grows P [] s.cache.place (analyzer.processFiles run files s).session.cache.place :=
  (fits_processFiles (keeps_recalls hcache hage) (hdated.grows_refl []) hasked).session

variable (hcancelled : ∀ position, run.cancelled position = false)
include hcancelled

theorem outcomes_processFiles :
    (analyzer.processFiles run files s).outcomes =
      files.map (analyzer.recalled run.disk s.cache.place) := by
  obtain ⟨-, hends⟩ :=
    ends_processFiles (keeps_recalls hcache hage) (hdated.grows_refl []) hasked
  rw [← List.map_id (analyzer.processFiles run files s).outcomes]
  refine map_eq_of_forall₂ (fun entry outcome hend => ?_) hends
  cases hend with
  | skipped hskipped => exact absurd ((hcancelled entry.2).symm.trans hskipped) Bool.false_ne_true
  | failed _ hread => simp only [recalled, hread, id]
  | done _ hread hresult =>
      obtain ⟨found, hg, rfl⟩ := hresult
      simp only [recalled, hread, hg, id]

/-- One hit is told of each file that can be read. -/
theorem flatMap_told_processFiles :
    (analyzer.processFiles run files s).tasks.flatMap analyzer.told =
      files.filterMap (analyzer.hit? run.disk) := by
  have hfits := fits_processFiles (keeps_recalls hcache hage) (hdated.grows_refl []) hasked
  have htold : ∀ task ∈ (analyzer.processFiles run files s).tasks,
      analyzer.told task = (analyzer.hit? run.disk task.file).toList := by
    intro task hm
    obtain ⟨position, htask⟩ := List.getElem?_of_mem hm
    obtain ⟨outcome, hover⟩ := over_processFiles (hfits.file_eq htask) htask
    have hstate := hfits.tasks htask
    rw [hover] at hstate
    unfold told hit?
    rw [hover]
    cases hstate with
    | skipped hskipped => exact absurd ((hcancelled position).symm.trans hskipped) Bool.false_ne_true
    | failed _ hread => rw [hread]; rfl
    | done _ hread _ => rw [hread]; rfl
  have hfiles : (analyzer.processFiles run files s).tasks.map (·.file) = files := hfits.files_eq
  conv_rhs => rw [← hfiles, List.filterMap_map, List.filterMap_eq_flatMap_toList]
  exact List.flatMap_congr htold

/-- What a run tells and counts. -/
theorem tells_processFiles :
    let work := analyzer.processFiles run files s
    work.events.Perm (files.filterMap (analyzer.hit? run.disk)) ∧
      work.session.cache.counters = { s.cache.counters with
        hits := s.cache.counters.hits + (files.filterMap (analyzer.hit? run.disk)).length } := by
  have hbegin : analyzer.Tells s.cache.counters (begin files s) := by
    have hnothing : (begin files s).tasks.flatMap analyzer.told = [] := by
      simp [begin, Task.start, told]
    exact ⟨hnothing ▸ .nil, rfl⟩
  have htells := tells_foldl hcache hage hbegin (fits_begin (hdated.grows_refl []) hasked)
    (run.turnsThrough files.length)
  have hperm := htells.events_perm
  change List.Perm _ ((analyzer.processFiles run files s).tasks.flatMap analyzer.told) at hperm
  rw [flatMap_told_processFiles hcache hage hdated hasked hcancelled] at hperm
  exact ⟨hperm, by rw [← hperm.length_eq]; exact htells.counters_eq⟩

end Run

end Analyzer

end CodeAtlas
