import CodeAtlas.Proofs.Analysis.Step
import Mathlib.Data.List.Forall2

/-! Runs in which the files have their turns in any order. A turn changes the state of one file and
the session; what each step of a parse keeps, for its own file and for the others, a whole run keeps,
and at its end the work on every file is over. Without interruptions the files are analysed one
after the other. -/

namespace CodeAtlas

/-- What holds of any two items in order, and in the other order as well, holds at any two
positions. -/
theorem rel_of_getElem?_ne {α : Type} {R : α → α → Prop} {items : List α} (h : items.Pairwise R)
    (hsymm : ∀ {a b}, R a b → R b a) {i j : Nat} {a b : α} (hi : items[i]? = some a)
    (hj : items[j]? = some b) (hne : i ≠ j) : R a b := by
  obtain ⟨hilength, rfl⟩ := List.getElem?_eq_some_iff.mp hi
  obtain ⟨hjlength, rfl⟩ := List.getElem?_eq_some_iff.mp hj
  rw [List.pairwise_iff_getElem] at h
  rcases Nat.lt_or_gt_of_ne hne with hlt | hgt
  · exact h i j hilength hjlength hlt
  · exact hsymm (h j i hjlength hilength hgt)

/-! ## Ends -/

/-- The number of steps that a parse takes at most from here. -/
def Progress.remaining : Progress → Nat
  | asked => 6
  | expired => 5
  | missed => 4
  | parsed _ => 3
  | learned _ | found _ => 2
  | answered _ => 1

def TaskState.remaining : TaskState → Nat
  | waiting => turnsPerFile
  | reading _ progress => progress.remaining
  | ended _ => 0

namespace Analyzer

variable {σ : Type}

/-- What becomes of the file at a position, where `Q` holds of the result for its content. -/
inductive Ends (analyzer : Analyzer σ) (run : Circumstances) (position : Nat) (file : SourceFile)
    (Q : Bytes → ParseResult → Prop) : FileOutcome → Prop
  | skipped (hcancelled : run.cancelled position = true) : Ends analyzer run position file Q .skipped
  | failed {message : String} (hcancelled : run.cancelled position = false)
      (hread : run.disk.readFile file.path = .error message) :
      Ends analyzer run position file Q (.failed (.fileRead file.relativePath message))
  | done {content : Bytes} {result : ParseResult} (hcancelled : run.cancelled position = false)
      (hread : run.disk.readFile file.path = .ok content) (hresult : Q content result) :
      Ends analyzer run position file Q
        (.done ⟨file, result, analyzer.interfacesOf file content result⟩)

/-- A state of the work on the file at a position, where `G` holds of the parse of its content. -/
def StateHolds (analyzer : Analyzer σ) (run : Circumstances) (position : Nat) (file : SourceFile)
    (G : Bytes → Progress → Prop) : TaskState → Prop
  | .waiting => ∀ content, run.disk.readFile file.path = .ok content → G content .asked
  | .reading content progress => run.cancelled position = false ∧
      run.disk.readFile file.path = .ok content ∧ G content progress
  | .ended outcome =>
    analyzer.Ends run position file (fun content result => G content (.answered result)) outcome

variable {analyzer : Analyzer σ} {run : Circumstances}

theorem Ends.imp {position : Nat} {file : SourceFile} {Q R : Bytes → ParseResult → Prop}
    (hQR : ∀ content result, run.disk.readFile file.path = .ok content → Q content result →
      R content result)
    {outcome : FileOutcome} (h : analyzer.Ends run position file Q outcome) :
    analyzer.Ends run position file R outcome := by
  cases h with
  | skipped hcancelled => exact .skipped hcancelled
  | failed hcancelled hread => exact .failed hcancelled hread
  | done hcancelled hread hresult => exact .done hcancelled hread (hQR _ _ hread hresult)

theorem StateHolds.imp {position : Nat} {file : SourceFile} {G H : Bytes → Progress → Prop}
    (hGH : ∀ content progress, run.disk.readFile file.path = .ok content → G content progress →
      H content progress)
    {state : TaskState} (h : analyzer.StateHolds run position file G state) :
    analyzer.StateHolds run position file H state := by
  cases state with
  | waiting => exact fun content hread => hGH _ _ hread (h content hread)
  | reading content progress => exact ⟨h.1, h.2.1, hGH _ _ h.2.1 h.2.2⟩
  | ended outcome => exact Ends.imp (fun _ _ hread => hGH _ _ hread) h

/-! ## What a step keeps -/

/-- The next step of the parse of a file at a position of a run. -/
def stepAt (analyzer : Analyzer σ) (run : Circumstances) (position : Nat) (file : SourceFile)
    (content : Bytes) (progress : Progress) (s : Session σ) :
    (Progress × List Event) × Session σ :=
  analyzer.parseStep (run.clock (2 * position)) (run.clock (2 * position + 1)) file content progress s

/-- Each step of the parse of a file keeps `I` for the session and `G` for the parse, and the parses
of the other files keep `G` as well. -/
structure Keeps (analyzer : Analyzer σ) (run : Circumstances) (files : List SourceFile)
    (I : Session σ → Prop) (G : Session σ → Nat → SourceFile → Bytes → Progress → Prop) : Prop where
  step : ∀ {s position file content progress}, files[position]? = some file →
    run.disk.readFile file.path = .ok content → I s → G s position file content progress →
    I (analyzer.stepAt run position file content progress s).2 ∧
      G (analyzer.stepAt run position file content progress s).2 position file content
        (analyzer.stepAt run position file content progress s).1.1
  frame : ∀ {s position file content progress}, files[position]? = some file →
    run.disk.readFile file.path = .ok content → I s → G s position file content progress →
    ∀ {other file' content' progress'}, other ≠ position → files[other]? = some file' →
      run.disk.readFile file'.path = .ok content' → G s other file' content' progress' →
      G (analyzer.stepAt run position file content progress s).2 other file' content' progress'

section Keeps

variable {files : List SourceFile} {I : Session σ → Prop}
  {G : Session σ → Nat → SourceFile → Bytes → Progress → Prop}

theorem workOn_reading {position : Nat} {file : SourceFile} {content : Bytes} {progress : Progress}
    (h : ∀ result, progress ≠ .answered result) (s : Session σ) :
    analyzer.workOn run position file (.reading content progress) s =
      let next := analyzer.stepAt run position file content progress s
      ((.reading content next.1.1, next.1.2), next.2) := by
  cases progress with
  | answered result => exact absurd rfl (h result)
  | asked | found _ | expired | missed | parsed _ | learned _ => rfl

/-- The state of a file and the session after a step of the work on it, and what the step leaves of
the others. -/
theorem Keeps.workOn (hkeeps : analyzer.Keeps run files I G) {s : Session σ} {position : Nat}
    {file : SourceFile} {state : TaskState} (hfile : files[position]? = some file) (hI : I s)
    (h : analyzer.StateHolds run position file (G s position file) state) :
    let next := analyzer.workOn run position file state s
    I next.2 ∧ analyzer.StateHolds run position file (G next.2 position file) next.1.1 ∧
      ∀ {other file' state'}, other ≠ position → files[other]? = some file' →
        analyzer.StateHolds run other file' (G s other file') state' →
        analyzer.StateHolds run other file' (G next.2 other file') state' := by
  have hstep : ∀ {content progress}, run.cancelled position = false →
      run.disk.readFile file.path = .ok content → G s position file content progress →
      let next := analyzer.stepAt run position file content progress s
      I next.2 ∧
        analyzer.StateHolds run position file (G next.2 position file)
          (.reading content next.1.1) ∧
        ∀ {other file' state'}, other ≠ position → files[other]? = some file' →
          analyzer.StateHolds run other file' (G s other file') state' →
          analyzer.StateHolds run other file' (G next.2 other file') state' := by
    intro content progress hcancelled hread hG
    obtain ⟨hnext, hafter⟩ := hkeeps.step hfile hread hI hG
    refine ⟨hnext, ⟨hcancelled, hread, hafter⟩, fun hne hother hstate => hstate.imp ?_⟩
    exact fun _ _ hread' hG' => hkeeps.frame hfile hread hI hG hne hother hread' hG'
  cases state with
  | waiting =>
      by_cases hcancelled : run.cancelled position = true
      · simp only [Analyzer.workOn, hcancelled, if_true]
        exact ⟨hI, .skipped hcancelled, fun _ _ hstate => hstate⟩
      · have hnot : run.cancelled position = false := by simpa using hcancelled
        cases hread : run.disk.readFile file.path with
        | error message =>
            simp only [Analyzer.workOn, hnot, Bool.false_eq_true, if_false, hread]
            exact ⟨hI, .failed hnot hread, fun _ _ hstate => hstate⟩
        | ok content =>
            simp only [Analyzer.workOn, hnot, Bool.false_eq_true, if_false, hread]
            exact ⟨hI, ⟨hnot, hread, h content hread⟩, fun _ _ hstate => hstate⟩
  | reading content progress =>
      obtain ⟨hcancelled, hread, hG⟩ := h
      by_cases hanswered : ∃ result, progress = .answered result
      · obtain ⟨result, rfl⟩ := hanswered
        exact ⟨hI, .done hcancelled hread hG, fun _ _ hstate => hstate⟩
      · rw [workOn_reading (not_exists.mp hanswered)]
        exact hstep hcancelled hread hG
  | ended outcome => exact ⟨hI, h, fun _ _ hstate => hstate⟩

/-- The work is on the files; `I` holds of the session and `G` of each parse. -/
structure Fits (analyzer : Analyzer σ) (run : Circumstances) (files : List SourceFile)
    (I : Session σ → Prop) (G : Session σ → Nat → SourceFile → Bytes → Progress → Prop)
    (work : Work σ) : Prop where
  files_eq : work.tasks.map (·.file) = files
  session : I work.session
  tasks : ∀ {position task}, work.tasks[position]? = some task →
    analyzer.StateHolds run position task.file (G work.session position task.file) task.state

theorem Fits.file_eq {work : Work σ} (h : analyzer.Fits run files I G work) {position : Nat}
    {task : Task} (htask : work.tasks[position]? = some task) :
    files[position]? = some task.file := by
  rw [← h.files_eq, List.getElem?_map, htask]
  rfl

theorem fits_begin {s : Session σ} (hI : I s)
    (hasked : ∀ {position file content}, files[position]? = some file →
      run.disk.readFile file.path = .ok content → G s position file content .asked) :
    analyzer.Fits run files I G (begin files s) where
  files_eq := by
    rw [begin, List.map_map]
    exact List.map_id files
  session := hI
  tasks := by
    intro position task htask
    rw [begin, List.getElem?_map] at htask
    obtain ⟨file, hfile, rfl⟩ := Option.map_eq_some_iff.mp htask
    exact fun content hread => hasked hfile hread

theorem turn_of_getElem? {work : Work σ} {position : Nat} {task : Task}
    (h : work.tasks[position]? = some task) :
    analyzer.turn run work position =
      let next := analyzer.workOn run position task.file task.state work.session
      ⟨work.tasks.set position ⟨task.file, next.1.1⟩, work.events ++ next.1.2, next.2⟩ := by
  simp only [turn, h]

theorem turn_of_getElem?_eq_none {work : Work σ} {position : Nat}
    (h : work.tasks[position]? = none) : analyzer.turn run work position = work := by
  simp only [turn, h]

/-- The step lemma. -/
theorem Fits.turn (hkeeps : analyzer.Keeps run files I G) {work : Work σ}
    (h : analyzer.Fits run files I G work) (position : Nat) :
    analyzer.Fits run files I G (analyzer.turn run work position) := by
  cases htask : work.tasks[position]? with
  | none => rwa [turn_of_getElem?_eq_none htask]
  | some task =>
      have hfile := h.file_eq htask
      obtain ⟨hI, hstate, hothers⟩ := hkeeps.workOn hfile h.session (h.tasks htask)
      rw [turn_of_getElem? htask]
      refine ⟨?_, hI, fun {other task'} hother => ?_⟩
      · obtain ⟨hlength, hget⟩ := List.getElem?_eq_some_iff.mp hfile
        rw [List.map_set, h.files_eq, ← hget, List.set_getElem_self]
      · rw [List.getElem?_set] at hother
        split at hother
        · rename_i hsame
          subst hsame
          split at hother
          · obtain rfl := Option.some.inj hother
            exact hstate
          · cases hother
        · rename_i hne
          exact hothers (Ne.symm hne) (h.file_eq hother) (h.tasks hother)

/-- The run lemma. -/
theorem Fits.foldl (hkeeps : analyzer.Keeps run files I G) {work : Work σ}
    (h : analyzer.Fits run files I G work) (turns : List Nat) :
    analyzer.Fits run files I G (turns.foldl (analyzer.turn run) work) :=
  List.foldlRecOn turns (analyzer.turn run) h fun _ hwork position _ => hwork.turn hkeeps position

end Keeps

/-! ## Every run ends -/

theorem remaining_parseStep (lookedUp stored : Nat) (file : SourceFile) (content : Bytes)
    {progress : Progress} (h : ∀ result, progress ≠ .answered result) (s : Session σ) :
    (analyzer.parseStep lookedUp stored file content progress s).1.1.remaining <
      progress.remaining := by
  cases progress with
  | asked =>
      simp only [parseStep]
      cases (analyzer.cache.find (analyzer.scope.key file.relativePath content) s.cache).1 with
      | none => simp [missOn, Progress.remaining]
      | some entry =>
          dsimp only
          split <;> simp [Progress.remaining]
  | answered result => exact absurd rfl (h result)
  | found _ | expired | missed | parsed _ | learned _ =>
      simp [parseStep, missOn, Progress.remaining]

theorem remaining_workOn (position : Nat) (file : SourceFile) (state : TaskState) (s : Session σ) :
    (analyzer.workOn run position file state s).1.1.remaining ≤ state.remaining - 1 := by
  cases state with
  | waiting =>
      unfold workOn
      dsimp only
      split
      · simp [TaskState.remaining]
      · split <;> simp [TaskState.remaining, Progress.remaining, turnsPerFile]
  | reading content progress =>
      by_cases hanswered : ∃ result, progress = .answered result
      · obtain ⟨result, rfl⟩ := hanswered
        simp [workOn, TaskState.remaining]
      · rw [workOn_reading (not_exists.mp hanswered)]
        exact Nat.le_sub_one_of_lt
          (remaining_parseStep _ _ file content (not_exists.mp hanswered) s)
  | ended outcome => simp [workOn, TaskState.remaining]

variable (analyzer run) in
theorem getElem?_tasks_turn {work : Work σ} {position : Nat} {task : Task}
    (h : work.tasks[position]? = some task) (first : Nat) :
    ∃ task', (analyzer.turn run work first).tasks[position]? = some task' ∧
      task'.state.remaining ≤ task.state.remaining - [first].count position := by
  by_cases hsame : first = position
  · subst hsame
    rw [turn_of_getElem? h]
    refine ⟨_, List.getElem?_set_self (List.getElem?_eq_some_iff.mp h).1, ?_⟩
    simpa using remaining_workOn first task.file task.state work.session
  · have hcount : [first].count position = 0 := by simp [hsame]
    refine ⟨task, ?_, by omega⟩
    cases hfirst : work.tasks[first]? with
    | none => rwa [turn_of_getElem?_eq_none hfirst]
    | some other => rw [turn_of_getElem? hfirst, List.getElem?_set_ne hsame, h]

/-- A file is closer to its end by each of its turns. -/
theorem remaining_foldl (turns : List Nat) {work : Work σ} {position : Nat} {task : Task}
    (h : work.tasks[position]? = some task) :
    ∃ task', (turns.foldl (analyzer.turn run) work).tasks[position]? = some task' ∧
      task'.state.remaining ≤ task.state.remaining - turns.count position := by
  induction turns generalizing work task with
  | nil => exact ⟨task, h, by simp⟩
  | cons first turns ih =>
      obtain ⟨next, hnext, hless⟩ := getElem?_tasks_turn analyzer run h first
      obtain ⟨task', htask', hless'⟩ := ih hnext
      refine ⟨task', htask', ?_⟩
      rw [← List.singleton_append, List.count_append]
      omega

theorem turnsPerFile_le_count (run : Circumstances) {position files : Nat}
    (h : position < files) : turnsPerFile ≤ (run.turnsThrough files).count position := by
  have hsub : (List.replicate turnsPerFile position).Sublist
      ((List.range files).flatMap (List.replicate turnsPerFile)) :=
    List.sublist_flatten_of_mem (List.mem_map_of_mem (List.mem_range.mpr h))
  have hcount := hsub.count_le position
  rw [List.count_replicate_self] at hcount
  rw [Circumstances.turnsThrough, List.count_append]
  exact hcount.trans (Nat.le_add_left _ _)

/-- In the end the work on every file is over. -/
theorem over_processFiles {files : List SourceFile} {s : Session σ} {position : Nat}
    {file : SourceFile} (h : files[position]? = some file) {task : Task}
    (htask : (analyzer.processFiles run files s).tasks[position]? = some task) :
    ∃ outcome, task.state = .ended outcome := by
  have hbegin : (begin files s).tasks[position]? = some (Task.start file) := by
    rw [begin, List.getElem?_map, h, Option.map_some]
  obtain ⟨last, hlast, hless⟩ := remaining_foldl (run.turnsThrough files.length) hbegin
  have hcount := turnsPerFile_le_count run (List.getElem?_eq_some_iff.mp h).1
  have hwaiting : (Task.start file).state.remaining = turnsPerFile := rfl
  obtain rfl : last = task := Option.some.inj (hlast.symm.trans htask)
  have hzero : last.state.remaining = 0 := by
    rw [hwaiting] at hless
    omega
  cases hstate : last.state with
  | ended outcome => exact ⟨outcome, rfl⟩
  | waiting =>
      rw [hstate] at hzero
      cases hzero
  | reading content progress =>
      rw [hstate] at hzero
      cases progress <;> cases hzero

/-- What holds of each file whose work is over holds of the outcomes in order. -/
theorem forall₂_outcomes {E : SourceFile → Nat → FileOutcome → Prop} {tasks : List Task}
    (offset : Nat) (h : ∀ position task, tasks[position]? = some task →
      ∃ outcome, task.state = .ended outcome ∧ E task.file (offset + position) outcome) :
    List.Forall₂ (fun entry outcome => E entry.1 entry.2 outcome)
      ((tasks.map (·.file)).zipIdx offset) (tasks.filterMap fun task => task.state.outcome?) := by
  induction tasks generalizing offset with
  | nil => exact .nil
  | cons task tasks ih =>
      obtain ⟨outcome, hover, hE⟩ := h 0 task rfl
      have hsome : task.state.outcome? = some outcome := by rw [hover, TaskState.outcome?]
      rw [List.map_cons, List.zipIdx_cons, List.filterMap_cons, hsome]
      refine .cons hE (ih (offset + 1) fun position later hlater => ?_)
      obtain ⟨outcome, hover, hE⟩ := h (position + 1) later hlater
      refine ⟨outcome, hover, ?_⟩
      rwa [Nat.add_assoc, Nat.add_comm 1]

/-- What is the same of each outcome and its file is the same of all in order. -/
theorem map_eq_of_forall₂ {α : Type} {R : SourceFile × Nat → FileOutcome → Prop}
    {f : SourceFile → α} {g : FileOutcome → α}
    (hR : ∀ entry outcome, R entry outcome → g outcome = f entry.1) {files : List SourceFile}
    {outcomes : List FileOutcome} (h : List.Forall₂ R files.zipIdx outcomes) :
    outcomes.map g = files.map f := by
  have hequal : List.Forall₂ (· = ·) (outcomes.map g) (files.zipIdx.map fun entry => f entry.1) := by
    rw [List.forall₂_map_left_iff, List.forall₂_map_right_iff]
    exact (h.imp hR).flip
  rw [List.forall₂_eq_eq_eq] at hequal
  rw [hequal]
  conv_rhs => rw [← List.zipIdx_map_fst 0 files, List.map_map]
  rfl

/-- What holds of each file and its outcome holds at every position. -/
theorem exists_of_forall₂ {R : SourceFile × Nat → FileOutcome → Prop} {files : List SourceFile}
    {outcomes : List FileOutcome} (h : List.Forall₂ R files.zipIdx outcomes) {position : Nat}
    {file : SourceFile} (hfile : files[position]? = some file) :
    ∃ outcome, R (file, position) outcome := by
  obtain ⟨hlength, hget⟩ := List.forall₂_iff_get.mp h
  obtain ⟨hposition, rfl⟩ := List.getElem?_eq_some_iff.mp hfile
  have hzip : position < files.zipIdx.length := by rwa [List.length_zipIdx]
  have hrel := hget position hzip (hlength ▸ hzip)
  rw [List.get_eq_getElem, List.getElem_zipIdx, Nat.zero_add] at hrel
  exact ⟨_, hrel⟩

section Ends

variable {files : List SourceFile} {I : Session σ → Prop}
  {G : Session σ → Nat → SourceFile → Bytes → Progress → Prop} {s : Session σ}
  (hkeeps : analyzer.Keeps run files I G) (hI : I s)
  (hasked : ∀ {position file content}, files[position]? = some file →
    run.disk.readFile file.path = .ok content → G s position file content .asked)
include hkeeps hI hasked

theorem fits_processFiles :
    analyzer.Fits run files I G (analyzer.processFiles run files s) :=
  (fits_begin hI hasked).foldl hkeeps _

/-- After a run `I` holds of the session, and each outcome has the end of its file, with `G` holding
of the answer. -/
theorem ends_processFiles :
    let work := analyzer.processFiles run files s
    I work.session ∧
      List.Forall₂ (fun entry outcome => analyzer.Ends run entry.2 entry.1
          (fun content result => G work.session entry.2 entry.1 content (.answered result)) outcome)
        files.zipIdx work.outcomes := by
  have hfits := fits_processFiles hkeeps hI hasked
  refine ⟨hfits.session, ?_⟩
  have hends := forall₂_outcomes
    (E := fun file position outcome => analyzer.Ends run position file (fun content result =>
      G (analyzer.processFiles run files s).session position file content (.answered result)) outcome)
    0 fun position task htask => by
      obtain ⟨outcome, hover⟩ := over_processFiles (hfits.file_eq htask) htask
      refine ⟨outcome, hover, ?_⟩
      have hstate := hfits.tasks htask
      rw [hover] at hstate
      rwa [Nat.zero_add]
  rwa [hfits.files_eq] at hends

end Ends

/-! ## Runs without interruptions -/

/-- Analyses files from a position on, one after the other. -/
def processEach (analyzer : Analyzer σ) (run : Circumstances) :
    Nat → List SourceFile → Session σ → List (FileOutcome × List Event) × Session σ
  | _, [], s => ([], s)
  | position, file :: files, s =>
    let (outcome, s) := analyzer.processFile run position file s
    let (outcomes, s) := analyzer.processEach run (position + 1) files s
    (outcome :: outcomes, s)

theorem foldl_replicate_turn (n : Nat) {work : Work σ} {position : Nat} {task : Task}
    (h : work.tasks[position]? = some task) :
    (List.replicate n position).foldl (analyzer.turn run) work =
      let after := analyzer.workTimes run position task.file n task.state work.session
      ⟨work.tasks.set position ⟨task.file, after.1.1⟩, work.events ++ after.1.2, after.2⟩ := by
  induction n generalizing work task with
  | zero =>
      obtain ⟨hlength, hget⟩ := List.getElem?_eq_some_iff.mp h
      have hset : work.tasks.set position ⟨task.file, task.state⟩ = work.tasks := by
        rw [← hget, List.set_getElem_self]
      simp only [workTimes, hset, List.append_nil, List.replicate_zero, List.foldl_nil]
  | succ n ih =>
      have hnext := List.getElem?_set_self (a := Task.mk task.file
        (analyzer.workOn run position task.file task.state work.session).1.1)
        (List.getElem?_eq_some_iff.mp h).1
      rw [List.replicate_succ, List.foldl_cons, turn_of_getElem? h, ih hnext]
      simp only [workTimes, List.set_set, List.append_assoc]

/-- The work on files that are still waiting is done, one file after the other. -/
theorem foldl_turns_alone (done : List Task) (files : List SourceFile) (events : List Event)
    (s : Session σ) :
    ((List.range' done.length files.length).flatMap (List.replicate turnsPerFile)).foldl
        (analyzer.turn run) ⟨done ++ files.map Task.start, events, s⟩ =
      let processed := analyzer.processEach run done.length files s
      ⟨done ++ List.zipWith (fun file entry => Task.mk file (.ended entry.1)) files processed.1,
        events ++ processed.1.flatMap (·.2), processed.2⟩ := by
  induction files generalizing done events s with
  | nil => simp [processEach]
  | cons file files ih =>
      have hget : (done ++ Task.start file :: files.map Task.start)[done.length]? =
          some (Task.start file) := by
        simp
      have hset : ∀ task : Task, (done ++ Task.start file :: files.map Task.start).set done.length task =
          (done ++ [task]) ++ files.map Task.start := by
        simp
      have hlength : ∀ task : Task, (done ++ [task]).length = done.length + 1 := by
        simp
      have hrest := ih
        (done ++ [⟨file, .ended (analyzer.processFile run done.length file s).1.1⟩])
        (events ++ (analyzer.processFile run done.length file s).1.2)
        (analyzer.processFile run done.length file s).2
      rw [hlength] at hrest
      rw [List.map_cons, List.length_cons, List.range'_succ, List.flatMap_cons, List.foldl_append,
        foldl_replicate_turn turnsPerFile hget]
      simp only [Task.start, workTimes_waiting] at hset ⊢
      rw [hset, hrest]
      simp [processEach]

theorem outcomes_zipWith (position : Nat) (files : List SourceFile) (s : Session σ) :
    (List.zipWith (fun file entry => Task.mk file (.ended entry.1)) files
        (analyzer.processEach run position files s).1).filterMap (fun task => task.state.outcome?) =
      (analyzer.processEach run position files s).1.map (·.1) := by
  induction files generalizing position s with
  | nil => rfl
  | cons file files ih => exact congrArg (List.cons _) (ih (position + 1) _)

variable (analyzer) in
/-- Without interruptions the files are analysed one after the other. -/
theorem processFiles_of_turns_eq_nil (h : run.turns = []) (files : List SourceFile)
    (s : Session σ) :
    let processed := analyzer.processEach run 0 files s
    (analyzer.processFiles run files s).outcomes = processed.1.map (·.1) ∧
      (analyzer.processFiles run files s).events = processed.1.flatMap (·.2) ∧
      (analyzer.processFiles run files s).session = processed.2 := by
  have hturns : run.turnsThrough files.length =
      (List.range' 0 files.length).flatMap (List.replicate turnsPerFile) := by
    rw [Circumstances.turnsThrough, h, List.nil_append, List.range_eq_range']
  have hall : analyzer.processFiles run files s =
      ⟨List.zipWith (fun file entry => Task.mk file (.ended entry.1)) files
          (analyzer.processEach run 0 files s).1,
        (analyzer.processEach run 0 files s).1.flatMap (·.2),
        (analyzer.processEach run 0 files s).2⟩ := by
    rw [processFiles, hturns]
    exact foldl_turns_alone [] files [] s
  rw [hall]
  exact ⟨outcomes_zipWith 0 files s, rfl, rfl⟩

end Analyzer

end CodeAtlas
