import CodeAtlas.Analysis.Analyzer

/-! The analysis of a project: the files are worked on side by side, each is parsed through the cache
and searched for interfaces, and a report is made of all of them. A file that cannot be read stops
none of the others. -/

namespace CodeAtlas

/-- What a run meets: the files, the time at each look at the clock, the positions of the files
before which it was cancelled, and the positions of the files whose turn comes next. -/
structure Circumstances where
  disk : Disk
  clock : Nat → Nat
  cancelled : Nat → Bool
  turns : List Nat

/-- The number of turns after which the work on a file is over. -/
def turnsPerFile : Nat := 7

/-- The turns of a run through so many files. In the end the work on each file that is not over yet
is done, one file after the other. -/
def Circumstances.turnsThrough (run : Circumstances) (files : Nat) : List Nat :=
  run.turns ++ (List.range files).flatMap (List.replicate turnsPerFile)

/-! ## Steps -/

/-- How far the parse of a file through the cache has come. From one stage to the next the store or
the hints are used once, and other files may have their turns in between. -/
inductive Progress where
  | asked
  | found (entry : CacheEntry)
  | expired
  | missed
  | parsed (result : ParseResult)
  | learned (result : ParseResult)
  | answered (result : ParseResult)

/-- How far the work on a file has come. -/
inductive TaskState where
  | waiting
  | reading (content : Bytes) (progress : Progress)
  | ended (outcome : FileOutcome)

def TaskState.outcome? : TaskState → Option FileOutcome
  | ended outcome => some outcome
  | _ => none

structure Task where
  file : SourceFile
  state : TaskState

/-- The work on a file that had no turn yet. -/
def Task.start (file : SourceFile) : Task := ⟨file, .waiting⟩

/-- The work on the files of a run, with what it has told and the session that it is done in. -/
structure Work (σ : Type) where
  tasks : List Task
  events : List Event
  session : Session σ

def Work.outcomes {σ : Type} (work : Work σ) : List FileOutcome :=
  work.tasks.filterMap fun task => task.state.outcome?

/-- A report with the events that led to it. -/
structure Answer where
  report : Report
  events : List Event

namespace Analyzer

variable {σ : Type}

/-- Nothing was found for a file. -/
def missOn (analyzer : Analyzer σ) (file : SourceFile) (s : Session σ) :
    (Progress × List Event) × Session σ :=
  let (lookup, cache) := Cache.miss analyzer.scope file.relativePath s.cache
  ((.missed, lookup.events), { s with cache := cache })

/-- Takes the parse of a file one step further. -/
def parseStep (analyzer : Analyzer σ) (lookedUp stored : Nat) (file : SourceFile)
    (content : Bytes) (progress : Progress) (s : Session σ) :
    (Progress × List Event) × Session σ :=
  let key := analyzer.scope.key file.relativePath content
  let job : Job := ⟨file.relativePath, file.language, content⟩
  match progress with
  | .asked =>
    let (found, cache) := analyzer.cache.find key s.cache
    let s := { s with cache := cache }
    match found with
    | none => analyzer.missOn file s
    | some entry =>
      ((if entry.isExpired lookedUp analyzer.cache.maxAge then .expired else .found entry, []), s)
  | .found entry =>
    let (lookup, cache) :=
      analyzer.cache.touch lookedUp analyzer.scope file.relativePath entry s.cache
    ((.answered entry.result, lookup.events), { s with cache := cache })
  | .expired => analyzer.missOn file { s with cache := analyzer.cache.discard key s.cache }
  | .missed =>
    let (parsing, _) := analyzer.orchestrator.parse s.hints job
    ((.parsed parsing.result, parsing.events), s)
  | .parsed result =>
    ((.learned result, []), { s with hints := Orchestrator.learn job result s.hints })
  | .learned result =>
    let (_, cache) :=
      analyzer.cache.set stored analyzer.scope file.relativePath content result s.cache
    ((.answered result, []), { s with cache := cache })
  | .answered result => ((.answered result, []), s)

/-- Takes the work on the file at a position of a run one step further. -/
def workOn (analyzer : Analyzer σ) (run : Circumstances) (position : Nat) (file : SourceFile)
    (state : TaskState) (s : Session σ) : (TaskState × List Event) × Session σ :=
  match state with
  | .waiting =>
    if run.cancelled position then ((.ended .skipped, []), s)
    else
      match run.disk.readFile file.path with
      | .error message => ((.ended (.failed (.fileRead file.relativePath message)), []), s)
      | .ok content => ((.reading content .asked, []), s)
  | .reading content (.answered result) =>
    ((.ended (.done ⟨file, result, analyzer.interfacesOf file content result⟩), []), s)
  | .reading content progress =>
    let ((progress, events), s) := analyzer.parseStep (run.clock (2 * position))
      (run.clock (2 * position + 1)) file content progress s
    ((.reading content progress, events), s)
  | .ended outcome => ((.ended outcome, []), s)

/-! ## Runs -/

/-- The work before its first step. -/
def begin (files : List SourceFile) (s : Session σ) : Work σ :=
  ⟨files.map Task.start, [], s⟩

/-- The file at a position has its turn. -/
def turn (analyzer : Analyzer σ) (run : Circumstances) (work : Work σ) (position : Nat) : Work σ :=
  match work.tasks[position]? with
  | none => work
  | some task =>
    let ((state, events), s) := analyzer.workOn run position task.file task.state work.session
    ⟨work.tasks.set position ⟨task.file, state⟩, work.events ++ events, s⟩

/-- Works on files until the work on each of them is over. -/
def processFiles (analyzer : Analyzer σ) (run : Circumstances) (files : List SourceFile)
    (s : Session σ) : Work σ :=
  (run.turnsThrough files.length).foldl (analyzer.turn run) (begin files s)

/-- Analyses some files. At the end the cache gives up what exceeds its capacity. -/
def analyzeFiles (analyzer : Analyzer σ) (run : Circumstances) (files : List SourceFile)
    (s : Session σ) : Answer × Session σ :=
  if !analyzer.config.analysis.isEnabled then (⟨.blank, []⟩, s)
  else
    let work := analyzer.processFiles run files s
    let (_, cache) :=
      analyzer.cache.enforceCapacity analyzer.config.cache.capacity work.session.cache
    let report := Report.ofOutcomes analyzer.resolver work.outcomes cache.counters
    let started := Event.analysisStarted (some analyzer.root.path) files.length
    (⟨report, started :: work.events ++ report.events⟩, { work.session with cache := cache })

/-- Discovers the files of the project and analyses them. -/
def analyze (analyzer : Analyzer σ) (run : Circumstances) (s : Session σ) :
    Except AnalysisError Answer × Session σ :=
  match Discovery.discoverOn run.disk analyzer.config.analysis analyzer.root.path
      analyzer.root.steps with
  | .error e => (.error (.scan e), s)
  | .ok (files, _) =>
    let (answer, s) := analyzer.analyzeFiles run files s
    (.ok answer, s)

end Analyzer

end CodeAtlas
