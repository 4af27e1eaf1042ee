import CodeAtlas.Proofs.Analysis.Session
import CodeAtlas.Proofs.Analysis.Turn
import CodeAtlas.Proofs.Graph.Build
import Mathlib.Algebra.GroupWithZero.Nat

/-! What a report says of a run. Every submitted file is counted once, by what became of it, and the
graph has a node for each path that was analysed. -/

namespace CodeAtlas

open ParseResult (Facts)

/-! ## Edges between languages -/

namespace DependencyGraph

/-- The ends of an edge are nodes of different languages. -/
def crosses (graph : DependencyGraph) (edge : Edge) : Bool :=
  (graph.node? edge.source).map (·.language) != (graph.node? edge.target).map (·.language)

theorem Consistent.length_crossLanguageEdges {graph : DependencyGraph} (h : graph.Consistent) :
    graph.crossLanguageEdges.length = graph.edges.countP graph.crosses := by
  rw [h.crossLanguageEdges_eq, ← List.countP_eq_length_filter]
  apply List.countP_congr
  intro edge hm
  obtain ⟨source, target, hsource, htarget, hcross⟩ := h.ends_of_mem_edges hm
  simp [crosses, hsource, htarget, hcross]

end DependencyGraph

/-! ## Counts of outcomes -/

/-- What becomes of a file in a run. -/
inductive Fate where
  | analyzed
  | failed
  | cancelled
  deriving DecidableEq

def FileOutcome.fate : FileOutcome → Fate
  | done _ => .analyzed
  | failed _ => .failed
  | skipped => .cancelled

theorem sum_countLanguages (languages : List Language) :
    ((Discovery.countLanguages languages).map (·.2)).sum = languages.length := by
  have hfilter : ∀ counts : List (Language × Nat),
      ((counts.filter fun entry => entry.2 != 0).map (·.2)).sum = (counts.map (·.2)).sum := by
    intro counts
    induction counts with
    | nil => rfl
    | cons entry counts ih =>
        by_cases hzero : entry.2 = 0
        · simp [hzero, ih]
        · simp [hzero, ih]
  have hone : ∀ language : Language,
      (Language.all.map fun l => if language == l then 1 else 0).sum = 1 := by
    intro language
    cases language <;> rfl
  rw [Discovery.countLanguages, hfilter, List.map_map]
  induction languages with
  | nil => rfl
  | cons language languages ih =>
      simp only [Function.comp_def, List.count_cons, List.sum_map_add, hone] at ih ⊢
      rw [ih, List.length_cons]

theorem length_eq_count_stages (stages : List Stage) :
    stages.length = stages.count .primary + stages.count .recovered + stages.count .fallback +
      stages.count .empty := by
  induction stages with
  | nil => rfl
  | cons stage stages ih =>
      cases stage <;> simp [ih] <;> omega

namespace Report

variable (outcomes : List FileOutcome)

theorem length_contributions :
    (contributions outcomes).length = outcomes.countP (·.fate = .analyzed) := by
  rw [contributions, List.length_filterMap_eq_countP]
  refine List.countP_congr fun outcome _ => ?_
  cases outcome <;> simp [FileOutcome.contribution?, FileOutcome.fate]

theorem length_failures :
    (outcomes.filterMap FileOutcome.error?).length = outcomes.countP (·.fate = .failed) := by
  rw [List.length_filterMap_eq_countP]
  refine List.countP_congr fun outcome _ => ?_
  cases outcome <;> simp [FileOutcome.error?, FileOutcome.fate]

theorem countP_isSkipped :
    outcomes.countP FileOutcome.isSkipped = outcomes.countP (·.fate = .cancelled) := by
  refine List.countP_congr fun outcome _ => ?_
  cases outcome <;> simp [FileOutcome.isSkipped, FileOutcome.fate]

theorem length_eq_countP_fates :
    outcomes.length = outcomes.countP (·.fate = .analyzed) +
      outcomes.countP (·.fate = .failed) + outcomes.countP (·.fate = .cancelled) := by
  induction outcomes with
  | nil => rfl
  | cons outcome outcomes ih =>
      cases outcome <;> simp [FileOutcome.fate, ih] <;> omega

theorem length_errorsOf :
    (errorsOf outcomes).length = (outcomes.filterMap FileOutcome.error?).length +
      if outcomes.countP FileOutcome.isSkipped = 0 then 0 else 1 := by
  by_cases hany : outcomes.any FileOutcome.isSkipped = true
  · have hpos : outcomes.countP FileOutcome.isSkipped ≠ 0 := by
      simpa [List.countP_eq_zero] using hany
    simp [errorsOf, hany, hpos]
  · have hzero : outcomes.countP FileOutcome.isSkipped = 0 := by
      simpa [List.countP_eq_zero] using hany
    simp [errorsOf, hany, hzero]

end Report

/-! ## Runs -/

namespace Circumstances

/-- What becomes of a file at a position. -/
def fate (run : Circumstances) (entry : SourceFile × Nat) : Fate :=
  if run.cancelled entry.2 then .cancelled
  else if (run.disk.readFile entry.1.path).isOk then .analyzed
  else .failed

/-- The submitted files that have a fate, with repetitions. -/
def files (run : Circumstances) (submitted : List SourceFile) (fate : Fate) : List SourceFile :=
  (submitted.zipIdx.filter fun entry => run.fate entry = fate).map (·.1)

end Circumstances

/-- The facts of a result that some parse made. -/
def ParseResult.Facts.Made (facts : Facts) : Prop :=
  ∃ (orchestrator : Orchestrator) (hints : Sketch.Hints) (job : Job),
    facts = (orchestrator.parse hints job).1.result.facts

theorem ParseResult.Facts.Made.success {facts : Facts} (h : facts.Made) : facts.success = true := by
  obtain ⟨orchestrator, hints, job, rfl⟩ := h
  exact (orchestrator.describes_parse hints job).success

/-- The outcome is that of the file: it has its fate, and it holds a result that was made for it. -/
structure FileOutcome.Fits (run : Circumstances) (entry : SourceFile × Nat)
    (outcome : FileOutcome) : Prop where
  fate_eq : outcome.fate = run.fate entry
  of_done : ∀ contribution, outcome.contribution? = some contribution →
    contribution.file = entry.1 ∧ contribution.result.facts.Made

namespace Analyzer

variable {σ : Type} {analyzer : Analyzer σ} {run : Circumstances}

/-- Every stored result was made by some parse. -/
abbrev HoldsMade (analyzer : Analyzer σ) (s : Session σ) : Prop :=
  analyzer.cache.Holds (fun _ facts => facts.Made) s.cache

/-- What holds of the stored results and of every fresh one is kept by each step. -/
theorem keeps_holds {P : String → Facts → Prop} (hf : analyzer.cache.Faithful)
    {files : List SourceFile}
    (hfresh : ∀ (file : SourceFile) content hints, P (analyzer.scope.key file.relativePath content)
      (analyzer.orchestrator.parse hints
        ⟨file.relativePath, file.language, content⟩).1.result.facts) :
    analyzer.Keeps run files (fun s => analyzer.cache.Holds P s.cache)
      fun _ _ file content progress =>
        progress.Holds (P (analyzer.scope.key file.relativePath content))
          (analyzer.scope.key file.relativePath content) where
  step := by
    intro s position file content progress _ _ h hprogress
    exact (holds_parseStep hf h _ _ hprogress (hfresh file content)).symm
  frame := by
    intro _ _ _ _ _ _ _ _ _ _ _ _ _ _ _ _ hother
    exact hother

theorem Ends.fits {position : Nat} {file : SourceFile} {Q : Bytes → ParseResult → Prop}
    (hQ : ∀ content result, Q content result → result.facts.Made) {outcome : FileOutcome}
    (h : analyzer.Ends run position file Q outcome) : outcome.Fits run (file, position) := by
  cases h with
  | skipped hcancelled =>
      refine ⟨?_, ?_⟩
      · simp [FileOutcome.fate, Circumstances.fate, hcancelled]
      · rintro _ ⟨⟩
  | failed hcancelled hread =>
      refine ⟨?_, ?_⟩
      · simp [FileOutcome.fate, Circumstances.fate, hcancelled, hread, Except.isOk, Except.toBool]
      · rintro _ ⟨⟩
  | done hcancelled hread hresult =>
      refine ⟨?_, ?_⟩
      · simp [FileOutcome.fate, Circumstances.fate, hcancelled, hread, Except.isOk, Except.toBool]
      · rintro _ ⟨⟩
        exact ⟨rfl, hQ _ _ hresult⟩

variable (run) in
theorem fits_outcomes (hf : analyzer.cache.Faithful) {s : Session σ} (h : analyzer.HoldsMade s)
    (files : List SourceFile) :
    List.Forall₂ (FileOutcome.Fits run) files.zipIdx
      (analyzer.processFiles run files s).outcomes := by
  have hkeeps : analyzer.Keeps run files _ _ := keeps_holds (P := fun _ facts => facts.Made) hf
    fun _ _ hints => ⟨analyzer.orchestrator, hints, _, rfl⟩
  obtain ⟨-, hends⟩ := ends_processFiles hkeeps h fun _ _ => trivial
  exact hends.imp fun _ _ hend => hend.fits fun _ _ hmade => hmade

end Analyzer

/-! ## From outcomes to the report -/

section Outcomes

variable {run : Circumstances} {entries : List (SourceFile × Nat)}
  {outcomes : List FileOutcome} (h : List.Forall₂ (FileOutcome.Fits run) entries outcomes)
include h

theorem countP_fate (fate : Fate) :
    outcomes.countP (·.fate = fate) =
      (entries.filter fun entry => run.fate entry = fate).length := by
  induction h with
  | nil => rfl
  | @cons entry outcome entries outcomes hfits _ ih =>
      rw [List.countP_cons, ih, hfits.fate_eq, List.filter_cons]
      by_cases hfate : run.fate entry = fate
      · simp [hfate]
      · simp [hfate]

theorem files_contributions :
    (Report.contributions outcomes).map (·.file) =
      (entries.filter fun entry => run.fate entry = .analyzed).map (·.1) := by
  induction h with
  | nil => rfl
  | @cons entry outcome entries outcomes hfits _ ih =>
      rw [List.filter_cons, ← hfits.fate_eq]
      cases outcome with
      | done contribution =>
          have hfile : contribution.file = entry.1 := (hfits.of_done contribution rfl).1
          simpa [Report.contributions, FileOutcome.contribution?, FileOutcome.fate, hfile] using ih
      | failed error => simpa [Report.contributions, FileOutcome.contribution?, FileOutcome.fate]
      | skipped => simpa [Report.contributions, FileOutcome.contribution?, FileOutcome.fate]

theorem success_of_mem_contributions {contribution : Contribution}
    (hm : contribution ∈ Report.contributions outcomes) : contribution.result.success = true := by
  obtain ⟨outcome, ho, hdone⟩ := List.mem_filterMap.mp hm
  induction h with
  | nil => cases ho
  | cons hfits _ ih =>
      rcases List.mem_cons.mp ho with rfl | ho
      · exact (hfits.of_done contribution hdone).2.success
      · exact ih (List.mem_filterMap.mpr ⟨outcome, ho, hdone⟩) ho

theorem mem_ids_graphOf_iff (resolver : Graph.Resolver) (id : String) :
    id ∈ (Report.graphOf resolver outcomes).ids ↔
      ∃ file ∈ (entries.filter fun entry => run.fate entry = .analyzed).map (·.1),
        file.relativePath = id := by
  rw [Report.graphOf, DependencyGraph.ids, Graph.nodes_build, Graph.mem_ids_nodesOf,
    ← files_contributions h]
  simp only [List.mem_map, exists_exists_and_eq_and]
  constructor
  · rintro ⟨contribution, hm, -, hid⟩
    exact ⟨contribution, hm, hid⟩
  · rintro ⟨contribution, hm, hid⟩
    exact ⟨contribution, hm, success_of_mem_contributions h hm, hid⟩

end Outcomes

/-- The report agrees with itself and with the run: each file is counted once, an error is reported
for each failure and one for all cancelled files together, and the graph has a node for each path
that was analysed. -/
structure Report.Accounts (report : Report) (run : Circumstances)
    (submitted : List SourceFile) : Prop where
  submitted_eq : report.stats.submitted = submitted.length
  analyzed_eq : report.stats.analyzed = (run.files submitted .analyzed).length
  failed_eq : report.stats.failed = (run.files submitted .failed).length
  cancelled_eq : report.stats.cancelled = (run.files submitted .cancelled).length
  submitted_sum : report.stats.submitted =
    report.stats.analyzed + report.stats.failed + report.stats.cancelled
  analyzed_sum : report.stats.analyzed = report.stats.primary + report.stats.recovered +
    report.stats.fallback + report.stats.empty
  languages_sum : (report.languages.map (·.2)).sum = report.stats.analyzed
  errors_length : report.errors.length =
    report.stats.failed + if report.stats.cancelled = 0 then 0 else 1
  ids_sorted : report.graph.ids.Pairwise (· < ·)
  mem_ids_iff : ∀ id, id ∈ report.graph.ids ↔
    ∃ file ∈ run.files submitted .analyzed, file.relativePath = id
  interfaces_eq : report.stats.interfaces = report.interfaces.length
  crossLanguage_eq : report.crossLanguageEdgeCount = report.graph.edges.countP report.graph.crosses

section Report

variable {run : Circumstances} {submitted : List SourceFile}
  {outcomes : List FileOutcome}
  (h : List.Forall₂ (FileOutcome.Fits run) submitted.zipIdx outcomes)
include h

theorem countP_fate_eq_length_files (fate : Fate) :
    outcomes.countP (·.fate = fate) = (run.files submitted fate).length := by
  rw [countP_fate h, Circumstances.files, List.length_map]

theorem accounts_ofOutcomes (resolver : Graph.Resolver) (counters : CacheCounters) :
    (Report.ofOutcomes resolver outcomes counters).Accounts run submitted := by
  have hlength : (Report.statsOf outcomes counters).analyzed =
      (Report.contributions outcomes).length := List.length_map _
  have hanalyzed := hlength.trans (Report.length_contributions outcomes)
  have hfailed := Report.length_failures outcomes
  have hcancelled := Report.countP_isSkipped outcomes
  have hsum : outcomes.length = (Report.statsOf outcomes counters).analyzed +
      (outcomes.filterMap FileOutcome.error?).length + outcomes.countP FileOutcome.isSkipped := by
    rw [hanalyzed, hfailed, hcancelled]
    exact Report.length_eq_countP_fates outcomes
  have hlanguages := sum_countLanguages ((Report.contributions outcomes).map (·.file.language))
  have hgraph := Graph.consistent_build resolver
    ((Report.contributions outcomes).map fun c => (c.file, c.result))
    (Report.interfacesOf outcomes)
  exact {
    submitted_eq := h.length_eq.symm.trans List.length_zipIdx
    analyzed_eq := hanalyzed.trans (countP_fate_eq_length_files h .analyzed)
    failed_eq := hfailed.trans (countP_fate_eq_length_files h .failed)
    cancelled_eq := hcancelled.trans (countP_fate_eq_length_files h .cancelled)
    submitted_sum := hsum
    analyzed_sum := length_eq_count_stages _
    languages_sum := (hlanguages.trans (List.length_map _)).trans hlength.symm
    errors_length := Report.length_errorsOf outcomes
    ids_sorted := hgraph.ids_sorted
    mem_ids_iff := mem_ids_graphOf_iff h resolver
    interfaces_eq := rfl
    crossLanguage_eq := hgraph.length_crossLanguageEdges }

end Report

namespace Analyzer

/-- The report of an analysis accounts for every submitted file, whichever of them can be read, are
cancelled, repeated or found in the cache, and in whatever order they have their turns. -/
theorem accounts_analyzeFiles {σ : Type} {analyzer : Analyzer σ}
    (henabled : analyzer.config.analysis.isEnabled = true) (hf : analyzer.cache.Faithful)
    {s : Session σ} (hmade : analyzer.HoldsMade s) (run : Circumstances)
    (submitted : List SourceFile) :
    (analyzer.analyzeFiles run submitted s).1.report.Accounts run submitted := by
  have hfits := fits_outcomes run hf hmade submitted
  simp only [analyzeFiles, henabled, Bool.not_true, Bool.false_eq_true, if_false]
  exact accounts_ofOutcomes hfits analyzer.resolver _

/-- A file that is there, once more the same, one that is missing and one that is cancelled. The two
that are the same are worked on side by side. -/
def mixed : List SourceFile :=
  [⟨"/repo/a.py", "a.py", .python, "py"⟩, ⟨"/repo/a.py", "a.py", .python, "py"⟩,
    ⟨"/repo/b.py", "b.py", .python, "py"⟩, ⟨"/repo/a.py", "a.py", .python, "py"⟩]

def mixedRun : Circumstances where
  disk := Disk.empty.write ["repo", "a.py"] []
  clock := id
  cancelled position := position == 3
  turns := [0, 1, 0, 1, 2, 1, 0, 1, 0, 1, 0, 0]

theorem accounts_mixed :
    let report := (small.analyzeFiles mixedRun mixed (start emptied)).1.report
    report.Accounts mixedRun mixed ∧
      report.stats.analyzed = 2 ∧ report.stats.failed = 1 ∧ report.stats.cancelled = 1 ∧
      report.stats.cache.misses = 2 :=
  ⟨accounts_analyzeFiles rfl faithful_small (showsNothing_small.holds _) mixedRun mixed,
    by decide +kernel⟩

end Analyzer

end CodeAtlas
