import CodeAtlas.Proofs.Analysis.Report
import CodeAtlas.Proofs.Parse.Account
import CodeAtlas.Proofs.Source.Discovery

/-! Analyses of the same files in different orders. What a report shows of a file is the same
whenever the file is taken up, and the report puts what it shows in an order of its own, so that it
says the same of the files in whatever order they come. -/

namespace CodeAtlas

open Sketch (Hints)

/-! ## Stages -/

namespace Orchestrator

variable {orchestrator : Orchestrator}

theorem stage_sketchedResult (job : Job) (error : Option String) (sketched : Sketch.Sketched) :
    (sketchedResult job error sketched).stage = .fallback := by
  have hprimary : (sketchedResult job error sketched).strategy ≠ ParseResult.primaryStrategy :=
    sketched.method.name_ne_primary
  have hempty : (sketchedResult job error sketched).strategy ≠ ParseResult.emptyStrategy :=
    sketched.method.name_ne_empty
  rw [ParseResult.stage, if_neg hprimary, if_neg hempty]
  rfl

theorem stage_degrade (hints : Hints) (job : Job) (error : String) :
    (orchestrator.degrade hints job error).1.result.stage =
      if (Sketch.attempt hints (Utf8.decode job.content) job.language
        orchestrator.sketchBudget).1.isSome then .fallback else .empty := by
  unfold degrade
  obtain ⟨_ | sketched, -⟩ := Sketch.attempt hints (Utf8.decode job.content) job.language
    orchestrator.sketchBudget
  · rfl
  · exact stage_sketchedResult job (some error) sketched

/-- Hints may change the method of a sketch, but not the stage that makes the result. -/
theorem stage_parse_hints (hb : ∀ look, orchestrator.sketchBudget.expired look = false)
    (hints : Hints) (job : Job) :
    (orchestrator.parse hints job).1.result.stage =
      (orchestrator.parse .empty job).1.result.stage := by
  have hdegrade : ∀ error, (orchestrator.degrade hints job error).1.result.stage =
      (orchestrator.degrade .empty job error).1.result.stage := by
    intro error
    have hagrees := Sketch.agrees_attempt hints (Utf8.decode job.content) job.language hb
    rw [stage_degrade, stage_degrade]
    exact if_congr hagrees.isSome_iff rfl rfl
  change (orchestrator.stages hints job _).1.result.stage =
    (orchestrator.stages .empty job _).1.result.stage
  unfold stages
  cases orchestrator.registry.get? job.language with
  | none => exact hdegrade _
  | some parser =>
      dsimp only
      cases parser.run job.content job.file orchestrator.timeoutMillis with
      | ok outline => rfl
      | error failure =>
          dsimp only [mend]
          split
          · rfl
          · exact hdegrade failure.message

end Orchestrator

/-! ## Interfaces belong to their file -/

namespace Interface

theorem file_of_mem_detect {rules : List Rule} {context : Context} {d : InterfaceDescriptor}
    (h : d ∈ detect rules context) : d.file = context.file := by
  obtain ⟨line, -, hline⟩ := List.mem_flatMap.mp h
  obtain ⟨rule, -, hrule⟩ := List.mem_flatMap.mp hline
  obtain ⟨captures, -, rfl⟩ := List.mem_map.mp hrule
  rfl

theorem Registry.file_of_mem_extract {registry : Registry} {context : Context}
    {d : InterfaceDescriptor} (h : d ∈ registry.extract context) : d.file = context.file := by
  have hadded : ∀ new found : List InterfaceDescriptor, d ∈ new.foldl addNew found →
      d ∈ found ∨ d ∈ new := by
    intro new
    induction new with
    | nil => exact fun found hm => .inl hm
    | cons first new ih =>
        intro found hm
        rcases ih (addNew found first) hm with hm | hm
        · unfold addNew at hm
          split at hm
          · exact .inl hm
          · rcases List.mem_append.mp hm with hm | hm
            · exact .inl hm
            · exact .inr (List.mem_cons.mpr (.inl (List.mem_singleton.mp hm)))
        · exact .inr (List.mem_cons_of_mem first hm)
  have hfound := (hadded _ [] h).resolve_left List.not_mem_nil
  obtain ⟨detector, -, hm⟩ := List.mem_flatMap.mp hfound
  exact file_of_mem_detect hm

end Interface

/-! ## What a report shows of its files -/

/-- What a report shows of an analysed file. -/
structure Showing where
  language : Language
  success : Bool
  node : Node
  stage : Stage
  interfaces : List InterfaceDescriptor

def Contribution.showing (c : Contribution) : Showing :=
  ⟨c.file.language, c.result.success, Graph.nodeOf (c.file, c.result), c.result.stage, c.interfaces⟩

/-- What a report shows of a file, whatever became of it. -/
abbrev View := Option Showing × Option AnalysisError × Bool

def FileOutcome.view (outcome : FileOutcome) : View :=
  (outcome.contribution?.map (·.showing), outcome.error?, outcome.isSkipped)

namespace Report

def showings (outcomes : List FileOutcome) : List Showing :=
  (contributions outcomes).map (·.showing)

/-- The nodes of the files that were parsed. -/
def nodesShown (showings : List Showing) : List Node :=
  (showings.filter (·.success)).map (·.node)

/-- Two reports say the same, but for the use of the cache. Interfaces and errors may stand in
different orders. -/
structure Agrees (a b : Report) : Prop where
  graph_eq : a.graph = b.graph
  findings_eq : a.findings = b.findings
  recommendations_eq : a.recommendations = b.recommendations
  languages_eq : a.languages = b.languages
  counts_eq : { a.stats with cache := .zero } = { b.stats with cache := .zero }
  interfaces_perm : a.interfaces.Perm b.interfaces
  errors_perm : a.errors.Perm b.errors

theorem Agrees.refl (report : Report) : report.Agrees report :=
  ⟨rfl, rfl, rfl, rfl, rfl, .refl _, .refl _⟩

section Views

variable (outcomes : List FileOutcome)

theorem showings_eq : showings outcomes = (outcomes.map FileOutcome.view).filterMap (·.1) := by
  rw [showings, contributions, List.map_filterMap, List.filterMap_map]
  rfl

theorem errors_eq :
    outcomes.filterMap FileOutcome.error? = (outcomes.map FileOutcome.view).filterMap (·.2.1) := by
  rw [List.filterMap_map]
  rfl

theorem countP_isSkipped_eq :
    outcomes.countP FileOutcome.isSkipped = (outcomes.map FileOutcome.view).countP (·.2.2) := by
  rw [List.countP_map]
  rfl

theorem any_isSkipped_eq :
    outcomes.any FileOutcome.isSkipped = (outcomes.map FileOutcome.view).any (·.2.2) := by
  rw [List.any_map]
  rfl

theorem interfacesOf_eq : interfacesOf outcomes = (showings outcomes).flatMap (·.interfaces) := by
  rw [interfacesOf, showings, List.flatMap_map]
  rfl

theorem languages_eq :
    (contributions outcomes).map (·.file.language) = (showings outcomes).map (·.language) := by
  rw [showings, List.map_map]
  rfl

theorem stages_eq :
    (contributions outcomes).map (·.result.stage) = (showings outcomes).map (·.stage) := by
  rw [showings, List.map_map]
  rfl

theorem nodesOf_contributions :
    Graph.nodesOf ((contributions outcomes).map fun c => (c.file, c.result)) =
      distinctBy (·.id) (nodesShown (showings outcomes)) := by
  have hnodes := map_distinctBy (·.id) Graph.nodeOf
    (((contributions outcomes).map fun c => (c.file, c.result)).filter (·.2.success))
  refine hnodes.trans (congrArg (distinctBy _) ?_)
  rw [nodesShown, showings, List.filter_map, List.filter_map, List.map_map, List.map_map]
  rfl

theorem nodes_graphOf (resolver : Graph.Resolver) :
    (graphOf resolver outcomes).nodes = distinctBy (·.id) (nodesShown (showings outcomes)) := by
  rw [graphOf, Graph.nodes_build, nodesOf_contributions]

end Views

/-! ## Interfaces in order -/

section Located

variable {showings showings' : List Showing} (hperm : showings.Perm showings')
  (hids : (showings.map (·.node.id)).Nodup)
  (hfiles : ∀ showing ∈ showings, ∀ d ∈ showing.interfaces, d.file = showing.node.id)
include hfiles

/-- The interfaces of a file are those that the report shows of it. -/
theorem filter_flatMap_interfaces (id : String) :
    (showings.flatMap (·.interfaces)).filter (·.file = id) =
      (showings.filter (·.node.id = id)).flatMap (·.interfaces) := by
  induction showings with
  | nil => rfl
  | cons showing showings ih =>
      obtain ⟨hfirst, hrest⟩ := List.forall_mem_cons.mp hfiles
      rw [List.flatMap_cons, List.filter_append, ih hrest, List.filter_cons]
      by_cases hid : showing.node.id = id
      · have hall : ∀ d ∈ showing.interfaces, decide (d.file = id) = true := by
          intro d hd
          simpa [hid] using hfirst d hd
        rw [if_pos (by simpa using hid), List.flatMap_cons, List.filter_eq_self.mpr hall]
      · have hnone : ∀ d ∈ showing.interfaces, ¬ decide (d.file = id) = true := by
          intro d hd
          simpa [hfirst d hd] using hid
        rw [if_neg (by simpa using hid), List.filter_eq_nil_iff.mpr hnone, List.nil_append]

include hperm hids

theorem located_congr (graph : DependencyGraph) :
    Graph.located graph (showings.flatMap (·.interfaces)) =
      Graph.located graph (showings'.flatMap (·.interfaces)) := by
  have hfiles' : ∀ showing ∈ showings', ∀ d ∈ showing.interfaces, d.file = showing.node.id :=
    fun showing hm => hfiles showing (hperm.mem_iff.mpr hm)
  refine Graph.located_congr graph fun id => ?_
  rw [filter_flatMap_interfaces hfiles, filter_flatMap_interfaces hfiles',
    filter_key_eq_of_perm (·.node.id) hperm hids]

end Located

/-! ## Counts -/

theorem recommendations_congr (graph : DependencyGraph) (findings : Findings)
    {interfaces interfaces' : List InterfaceDescriptor} (h : interfaces.Perm interfaces') :
    Insight.recommendations graph findings interfaces =
      Insight.recommendations graph findings interfaces' := by
  have htags := sortedTexts_congr fun tag => (h.map (·.type.tag)).mem_iff
  simp only [Insight.recommendations, Insight.unordered, Insight.interfaceAdvice?, htags]

section Counts

variable {outcomes outcomes' : List FileOutcome}
  (h : (outcomes.map FileOutcome.view).Perm (outcomes'.map FileOutcome.view))
include h

theorem showings_perm : (showings outcomes).Perm (showings outcomes') := by
  rw [showings_eq, showings_eq]
  exact h.filterMap _

theorem errors_perm :
    (outcomes.filterMap FileOutcome.error?).Perm (outcomes'.filterMap FileOutcome.error?) := by
  rw [errors_eq, errors_eq]
  exact h.filterMap _

theorem interfacesOf_perm : (interfacesOf outcomes).Perm (interfacesOf outcomes') := by
  rw [interfacesOf_eq, interfacesOf_eq]
  exact (showings_perm h).flatMap_right _

theorem languages_congr :
    Discovery.countLanguages ((contributions outcomes).map (·.file.language)) =
      Discovery.countLanguages ((contributions outcomes').map (·.file.language)) := by
  rw [languages_eq, languages_eq]
  exact Discovery.countLanguages_congr ((showings_perm h).map _)

theorem any_isSkipped_congr :
    outcomes.any FileOutcome.isSkipped = outcomes'.any FileOutcome.isSkipped := by
  rw [any_isSkipped_eq, any_isSkipped_eq]
  exact h.any_eq

theorem errorsOf_perm : (errorsOf outcomes).Perm (errorsOf outcomes') := by
  rw [errorsOf, errorsOf, any_isSkipped_congr h]
  exact (errors_perm h).append_right _

theorem statsOf_congr (counters : CacheCounters) :
    statsOf outcomes counters = statsOf outcomes' counters := by
  have hlength : outcomes.length = outcomes'.length := by simpa using h.length_eq
  have hskipped : outcomes.countP FileOutcome.isSkipped =
      outcomes'.countP FileOutcome.isSkipped := by
    rw [countP_isSkipped_eq, countP_isSkipped_eq]
    exact h.countP_eq _
  have hstages : ((contributions outcomes).map (·.result.stage)).Perm
      ((contributions outcomes').map (·.result.stage)) := by
    rw [stages_eq, stages_eq]
    exact (showings_perm h).map _
  simp only [statsOf, hlength, hskipped, (errors_perm h).length_eq, (interfacesOf_perm h).length_eq,
    hstages.length_eq, hstages.count_eq]

end Counts

/-! ## Reports on the same views -/

/-- A graph is made of the nodes that are shown and of the interfaces in their order. -/
theorem graphOf_congr (resolver : Graph.Resolver) {outcomes outcomes' : List FileOutcome}
    (hnodes : distinctBy (·.id) (nodesShown (showings outcomes)) =
      distinctBy (·.id) (nodesShown (showings outcomes')))
    (hlocated : ∀ graph, Graph.located graph ((showings outcomes).flatMap (·.interfaces)) =
      Graph.located graph ((showings outcomes').flatMap (·.interfaces))) :
    graphOf resolver outcomes = graphOf resolver outcomes' := by
  rw [graphOf, graphOf, Graph.build, Graph.build, nodesOf_contributions, nodesOf_contributions,
    hnodes, Graph.addInterfaces, Graph.addInterfaces, interfacesOf_eq, interfacesOf_eq, hlocated]

section Same

variable (resolver : Graph.Resolver) {outcomes outcomes' : List FileOutcome}

/-- Reports on files that are shown alike, in the same order, are the same. -/
theorem ofOutcomes_congr (h : outcomes.map FileOutcome.view = outcomes'.map FileOutcome.view)
    (counters : CacheCounters) :
    ofOutcomes resolver outcomes counters = ofOutcomes resolver outcomes' counters := by
  have hperm : (outcomes.map FileOutcome.view).Perm (outcomes'.map FileOutcome.view) := .of_eq h
  have hshowings : showings outcomes = showings outcomes' := by rw [showings_eq, showings_eq, h]
  have herrors : errorsOf outcomes = errorsOf outcomes' := by
    rw [errorsOf, errorsOf, errors_eq, errors_eq, h, any_isSkipped_congr hperm]
  have hinterfaces : interfacesOf outcomes = interfacesOf outcomes' := by
    rw [interfacesOf_eq, interfacesOf_eq, hshowings]
  have hgraph : graphOf resolver outcomes = graphOf resolver outcomes' :=
    graphOf_congr resolver (by rw [hshowings]) fun _ => by rw [hshowings]
  simp only [ofOutcomes, hgraph, hinterfaces, herrors, languages_congr hperm,
    statsOf_congr hperm counters]

/-- Reports on files that are shown alike agree, in whatever order the files come. -/
theorem agrees_ofOutcomes
    (hviews : (outcomes.map FileOutcome.view).Perm (outcomes'.map FileOutcome.view))
    (hids : ((showings outcomes).map (·.node.id)).Nodup)
    (hfiles : ∀ showing ∈ showings outcomes, ∀ d ∈ showing.interfaces, d.file = showing.node.id)
    (counters counters' : CacheCounters) :
    (ofOutcomes resolver outcomes counters).Agrees (ofOutcomes resolver outcomes' counters') := by
  have hperm := showings_perm hviews
  have hgraph : graphOf resolver outcomes = graphOf resolver outcomes' := by
    refine graphOf_congr resolver ?_ (located_congr hperm hids hfiles)
    refine distinctBy_eq_of_perm _ ((hperm.filter _).map _) ?_
    rw [nodesShown, List.map_map]
    exact hids.sublist (List.filter_sublist.map _)
  exact {
    graph_eq := hgraph
    findings_eq := congrArg Insight.detect hgraph
    recommendations_eq := by
      simp only [ofOutcomes, hgraph, recommendations_congr _ _ (interfacesOf_perm hviews)]
    languages_eq := languages_congr hviews
    counts_eq := statsOf_congr hviews .zero
    interfaces_perm := interfacesOf_perm hviews
    errors_perm := errorsOf_perm hviews }

end Same

end Report

/-! ## What becomes of a file -/

namespace Analyzer

variable {σ : Type} (analyzer : Analyzer σ)

/-- What becomes of a file that is parsed without cache and hints. -/
def outcomeOf (disk : Disk) (file : SourceFile) : FileOutcome :=
  match disk.readFile file.path with
  | .error message => .failed (.fileRead file.relativePath message)
  | .ok content =>
    let result := (analyzer.orchestrator.parse .empty
      ⟨file.relativePath, file.language, content⟩).1.result
    .done ⟨file, result, analyzer.interfacesOf file content result⟩

/-- The key of a file that can be read. -/
def keyOf? (disk : Disk) (file : SourceFile) : Option String :=
  match disk.readFile file.path with
  | .error _ => none
  | .ok content => some (analyzer.scope.key file.relativePath content)

variable {analyzer}

/-- A report shows the facts of a result and the stage that made it. -/
theorem view_done {file : SourceFile} {content : Bytes} {result other : ParseResult}
    (hfacts : result.facts = other.facts) (hstage : result.stage = other.stage) :
    (FileOutcome.done ⟨file, result, analyzer.interfacesOf file content result⟩).view =
      (FileOutcome.done ⟨file, other, analyzer.interfacesOf file content other⟩).view := by
  have hlanguage : result.language = other.language := congrArg (·.language) hfacts
  have hsuccess : result.success = other.success := congrArg (·.success) hfacts
  have hfunctions : result.functions = other.functions := congrArg (·.functions) hfacts
  have hclasses : result.classes = other.classes := congrArg (·.classes) hfacts
  have himports : result.imports = other.imports := congrArg (·.imports) hfacts
  have hshowing :
      (⟨file, result, analyzer.interfacesOf file content result⟩ : Contribution).showing =
        (⟨file, other, analyzer.interfacesOf file content other⟩ : Contribution).showing := by
    simp only [Contribution.showing, Graph.nodeOf, interfacesOf, hlanguage, hsuccess, hfunctions,
      hclasses, himports, hstage]
  exact congrArg (fun showing => (some showing, none, false)) hshowing

theorem id_of_view_outcomeOf {disk : Disk} {file : SourceFile} {showing : Showing}
    (h : (analyzer.outcomeOf disk file).view.1 = some showing) :
    showing.node.id = file.relativePath ∧
      ∀ d ∈ showing.interfaces, d.file = showing.node.id := by
  unfold outcomeOf at h
  cases hread : disk.readFile file.path with
  | error message =>
      rw [hread] at h
      cases h
  | ok content =>
      rw [hread] at h
      obtain rfl := Option.some.inj h
      exact ⟨rfl, fun d hd => Interface.Registry.file_of_mem_extract hd⟩

/-! ## Files side by side -/

/-- The result is that of a parse of the file, with some hints. -/
def IsFresh (analyzer : Analyzer σ) (file : SourceFile) (content : Bytes) (result : ParseResult) :
    Prop :=
  ∃ hints, result = (analyzer.orchestrator.parse hints
    ⟨file.relativePath, file.language, content⟩).1.result

/-- Nothing was found for the file, so that its result is fresh. -/
def FreshAt (analyzer : Analyzer σ) (file : SourceFile) (content : Bytes) : Progress → Prop
  | .asked | .missed => True
  | .found _ | .expired => False
  | .parsed result | .learned result | .answered result => analyzer.IsFresh file content result

/-- No stored result stands under the key. -/
abbrev Lacks (analyzer : Analyzer σ) (key : String) (s : Session σ) : Prop :=
  analyzer.cache.Holds (fun other _ => other ≠ key) s.cache

/-- The parse of a file is fresh, and nothing stands under its key until it is over. -/
def Unshared (analyzer : Analyzer σ) (s : Session σ) (_ : Nat) (file : SourceFile)
    (content : Bytes) (progress : Progress) : Prop :=
  analyzer.FreshAt file content progress ∧ ((∀ result, progress ≠ .answered result) →
    analyzer.Lacks (analyzer.scope.key file.relativePath content) s)

theorem key_of_read {disk : Disk} {file : SourceFile} {content : Bytes}
    (h : disk.readFile file.path = .ok content) :
    analyzer.keyOf? disk file = some (analyzer.scope.key file.relativePath content) := by
  rw [keyOf?, h]

theorem FreshAt.holds {file : SourceFile} {content : Bytes} {progress : Progress}
    (h : analyzer.FreshAt file content progress) {P : ParseResult.Facts → Prop} (hP : ∀ facts, P facts)
    (key : String) : progress.Holds P key := by
  cases progress with
  | asked | missed => trivial
  | found entry | expired => exact h.elim
  | parsed result | learned result =>
      obtain ⟨hints, rfl⟩ := h
      exact ⟨(analyzer.orchestrator.steady_parse hints _).facts, hP _⟩
  | answered result => exact hP _

section Run

variable (hf : analyzer.cache.Faithful) {run : Circumstances}
include hf

/-- The step lemma: where no two files have one key, each is parsed afresh. -/
theorem keeps_unshared {files : List SourceFile} (hkeys : analyzer.cache.isEnabled = true →
      (files.filterMap (analyzer.keyOf? run.disk)).Nodup) :
    analyzer.Keeps run files (fun _ => True) analyzer.Unshared where
  step := by
    rintro s position file content progress - - - ⟨hfresh, hlacks⟩
    refine ⟨trivial, ?_⟩
    unfold stepAt parseStep
    cases progress with
    | asked =>
        have hnothing := hlacks (by simp)
        have hread := Cache.holds_find hf hnothing (analyzer.scope.key file.relativePath content)
        dsimp only
        cases hfound : (analyzer.cache.find (analyzer.scope.key file.relativePath content)
            s.cache).1 with
        | none => exact ⟨trivial, fun _ => hread⟩
        | some entry => exact absurd rfl (Cache.of_find hf hnothing hfound).2.2
    | found entry | expired => exact hfresh.elim
    | missed => exact ⟨⟨s.hints, rfl⟩, fun _ => hlacks (by simp)⟩
    | parsed result => exact ⟨hfresh, fun _ => hlacks (by simp)⟩
    | learned result => exact ⟨hfresh, fun hnot => absurd rfl (hnot result)⟩
    | answered result => exact ⟨hfresh, fun hnot => absurd rfl (hnot result)⟩
  frame := by
    rintro s position file content progress hfile hread - ⟨hfresh, -⟩ other file' content' progress'
      hne hother hread' ⟨hfresh', hlacks'⟩
    refine ⟨hfresh', fun hnot => ?_⟩
    by_cases henabled : analyzer.cache.isEnabled = true
    · have hkey : analyzer.scope.key file.relativePath content ≠
          analyzer.scope.key file'.relativePath content' := by
        have hpairs := List.pairwise_filterMap.mp (hkeys henabled)
        exact rel_of_getElem?_ne hpairs (fun h k hk k' hk' => (h k' hk' k hk).symm) hfile hother
          hne.symm _ (key_of_read hread) _ (key_of_read hread')
      exact (holds_parseStep hf (hlacks' hnot) _ _ (hfresh.holds (fun _ => hkey) _) fun _ => hkey).2
    · -- A disabled cache has no store that anything could stand in.
      intro store hstore
      exact absurd (Option.isSome_of_mem hstore) henabled

variable (hb : ∀ look, analyzer.orchestrator.sketchBudget.expired look = false)
  (hcancelled : ∀ position, run.cancelled position = false)
include hb hcancelled

/-- The run lemma: where no two files have one key, each is shown as it is without cache and hints,
in whatever order the files have their turns. -/
theorem map_view_outcomes {files : List SourceFile} {s : Session σ}
    (hempty : analyzer.cache.ShowsNothing s.cache.place)
    (hkeys : analyzer.cache.isEnabled = true →
      (files.filterMap (analyzer.keyOf? run.disk)).Nodup) :
    (analyzer.processFiles run files s).outcomes.map FileOutcome.view =
      files.map fun file => (analyzer.outcomeOf run.disk file).view := by
  obtain ⟨-, hends⟩ := ends_processFiles (keeps_unshared hf hkeys) (s := s) trivial
    fun _ _ => ⟨trivial, fun _ => hempty.holds _⟩
  refine map_eq_of_forall₂ (fun entry outcome hend => ?_) hends
  cases hend with
  | skipped hskipped => exact absurd ((hcancelled entry.2).symm.trans hskipped) Bool.false_ne_true
  | failed _ hread => rw [outcomeOf, hread]
  | done _ hread hresult =>
      obtain ⟨hints, rfl⟩ := hresult.1
      rw [outcomeOf, hread]
      exact view_done (Orchestrator.facts_parse_hints hb hints _)
        (Orchestrator.stage_parse_hints hb hints _)

end Run

theorem nodes_analyzeFiles (henabled : analyzer.config.analysis.isEnabled = true)
    (run : Circumstances) (files : List SourceFile) (s : Session σ) :
    (analyzer.analyzeFiles run files s).1.report.graph.nodes =
      distinctBy (·.id) (Report.nodesShown
        (Report.showings (analyzer.processFiles run files s).outcomes)) := by
  simp only [analyzeFiles, henabled, Bool.not_true, Bool.false_eq_true, if_false]
  exact Report.nodes_graphOf _ _

/-! ## Reports in any order -/

section Orders

variable (hf : analyzer.cache.Faithful)
  (hb : ∀ look, analyzer.orchestrator.sketchBudget.expired look = false)
include hf hb

/-- The report is on what becomes of each submitted file without cache and hints. -/
theorem exists_outcomes_analyzeFiles (henabled : analyzer.config.analysis.isEnabled = true)
    {place : σ} (hempty : analyzer.cache.ShowsNothing place) {run : Circumstances}
    (hcancelled : ∀ position, run.cancelled position = false) {submitted : List SourceFile}
    (hkeys : analyzer.cache.isEnabled = true →
      (submitted.filterMap (analyzer.keyOf? run.disk)).Nodup) :
    ∃ outcomes counters,
      (analyzer.analyzeFiles run submitted (start place)).1.report =
        Report.ofOutcomes analyzer.resolver outcomes counters ∧
      outcomes.map FileOutcome.view =
        submitted.map fun file => (analyzer.outcomeOf run.disk file).view := by
  refine ⟨(analyzer.processFiles run submitted (start place)).outcomes,
    (analyzer.cache.enforceCapacity analyzer.config.cache.capacity
      (analyzer.processFiles run submitted (start place)).session.cache).2.counters, ?_,
    map_view_outcomes hf hb hcancelled hempty hkeys⟩
  simp only [analyzeFiles, henabled, Bool.not_true, Bool.false_eq_true, if_false]

/-- Reports on the same files agree in whatever orders the files are submitted and have their turns,
if nothing is cancelled, nothing was cached, no sketch runs out of time, and no two files share their
path or their key. -/
theorem agrees_analyzeFiles {place place' : σ} (hempty : analyzer.cache.ShowsNothing place)
    (hempty' : analyzer.cache.ShowsNothing place') {run run' : Circumstances}
    (hdisk : run'.disk = run.disk) (hcancelled : ∀ position, run.cancelled position = false)
    (hcancelled' : ∀ position, run'.cancelled position = false)
    {submitted submitted' : List SourceFile} (hpaths : (submitted.map (·.relativePath)).Nodup)
    (hsubmitted' : submitted'.Perm submitted)
    (hkeys : analyzer.cache.isEnabled = true →
      (submitted.filterMap (analyzer.keyOf? run.disk)).Nodup) :
    (analyzer.analyzeFiles run submitted (start place)).1.report.Agrees
      (analyzer.analyzeFiles run' submitted' (start place')).1.report := by
  by_cases henabled : analyzer.config.analysis.isEnabled = true
  · obtain ⟨outcomes, counters, hreport, hviews⟩ :=
      exists_outcomes_analyzeFiles hf hb henabled hempty hcancelled hkeys
    obtain ⟨outcomes', counters', hreport', hviews'⟩ :=
      exists_outcomes_analyzeFiles hf hb henabled hempty' hcancelled' fun hcache => by
        rw [hdisk]
        exact (hsubmitted'.filterMap _).nodup_iff.mpr (hkeys hcache)
    have hshowings : Report.showings outcomes =
        submitted.filterMap fun file => (analyzer.outcomeOf run.disk file).view.1 := by
      rw [Report.showings_eq, hviews, List.filterMap_map]
      rfl
    rw [hreport, hreport']
    refine Report.agrees_ofOutcomes _ ?_ ?_ ?_ counters counters'
    · rw [hviews, hviews', hdisk]
      exact (hsubmitted'.map _).symm
    · -- The id of a node is the path of its file.
      rw [hshowings, List.Nodup, List.pairwise_map, List.pairwise_filterMap]
      refine (List.pairwise_map.mp hpaths).imp ?_
      intro a b hne showing hshowing other hother
      rwa [(id_of_view_outcomeOf hshowing).1, (id_of_view_outcomeOf hother).1]
    · intro showing hm
      rw [hshowings] at hm
      obtain ⟨file, -, hshowing⟩ := List.mem_filterMap.mp hm
      exact (id_of_view_outcomeOf hshowing).2
  · have hdisabled : analyzer.config.analysis.isEnabled = false := by simpa using henabled
    simp only [analyzeFiles, hdisabled, Bool.not_false, if_true]
    exact .refl _

end Orders

def pair : List SourceFile :=
  [⟨"/repo/a.py", "a.py", .python, "py"⟩, ⟨"/repo/b.rb", "b.rb", .ruby, "rb"⟩]

/-- Every file of the pair can be read. -/
def pairRun (turns : List Nat) : Circumstances where
  disk := (Disk.empty.write ["repo", "a.py"] []).write ["repo", "b.rb"] []
  clock := id
  cancelled _ := false
  turns := turns

theorem agrees_pair :
    let alone := (small.analyzeFiles (pairRun []) pair (start emptied)).1.report
    let together :=
      (small.analyzeFiles (pairRun [1, 0, 0, 1, 0, 1, 1]) pair.reverse (start emptied)).1.report
    alone.Agrees together ∧ alone.stats.analyzed = 2 := by
  have hkeys : (pair.filterMap (small.keyOf? (pairRun []).disk)).Nodup := by decide +kernel
  have hdisk : (pairRun [1, 0, 0, 1, 0, 1, 1]).disk = (pairRun []).disk := rfl
  exact ⟨agrees_analyzeFiles faithful_small (fun _ => rfl) showsNothing_small showsNothing_small hdisk
    (fun _ => rfl) (fun _ => rfl) (by decide) pair.reverse_perm fun _ => hkeys, by decide +kernel⟩

/-- The names of two files whose keys have the same digest, though nothing else of them is the
same. -/
def clashing : List SourceFile :=
  [⟨"/repo/Dπt嫌р0ma1.rs", "Dπt嫌р0ma1.rs", .rust, "rs"⟩,
    ⟨"/repo/Dπt嫔р0ma1.js", "Dπt嫔р0ma1.js", .javaScript, "js"⟩]

def clashingRun : Circumstances where
  disk := (Disk.empty.write ["repo", "Dπt嫌р0ma1.rs"] []).write ["repo", "Dπt嫔р0ma1.js"] []
  clock := id
  cancelled _ := false
  turns := []

def onMaster : Analyzer Storage :=
  { small with scope := ⟨"/repo", "master", none⟩ }

/-- The nodes of the clashing files, in the order in which they are taken up. -/
def clashingNodes (files : List SourceFile) : List Node :=
  Report.nodesShown (Report.showings
    (onMaster.processFiles clashingRun files (start emptied)).outcomes)

/-- Of two files with one key the second has the result of the first, so that the order counts. -/
theorem graphs_of_clashing_ne :
    (clashing.map (·.relativePath)).Nodup ∧ onMaster.cache.Faithful ∧
      onMaster.cache.ShowsNothing emptied ∧
      (∀ look, onMaster.orchestrator.sketchBudget.expired look = false) ∧
      (∀ position, clashingRun.cancelled position = false) ∧
      (onMaster.analyzeFiles clashingRun clashing (start emptied)).1.report.graph ≠
        (onMaster.analyzeFiles clashingRun clashing.reverse (start emptied)).1.report.graph := by
  refine ⟨by decide, faithful_small, showsNothing_small, fun _ => rfl, fun _ => rfl, fun h => ?_⟩
  have henabled : onMaster.config.analysis.isEnabled = true := rfl
  have hfirst : clashingNodes clashing =
      [⟨"Dπt嫌р0ma1.rs", .rust, [], []⟩, ⟨"Dπt嫔р0ma1.js", .rust, [], []⟩] := by
    decide +kernel
  have hsecond : clashingNodes clashing.reverse =
      [⟨"Dπt嫔р0ma1.js", .javaScript, [], []⟩, ⟨"Dπt嫌р0ma1.rs", .javaScript, [], []⟩] := by
    decide +kernel
  have hnodes : distinctBy (·.id) (clashingNodes clashing) =
      distinctBy (·.id) (clashingNodes clashing.reverse) := by
    have hgraph := congrArg DependencyGraph.nodes h
    rwa [nodes_analyzeFiles henabled, nodes_analyzeFiles henabled] at hgraph
  have hid : "Dπt嫌р0ma1.rs" ∈ (distinctBy Node.id (clashingNodes clashing)).map Node.id := by
    rw [mem_map_distinctBy, hfirst]
    exact List.mem_cons_self
  obtain ⟨node, hm, -⟩ := List.mem_map.mp hid
  have hrust : ∀ node ∈ clashingNodes clashing, node.language = .rust := by
    rw [hfirst]
    decide
  have hscript : ∀ node ∈ clashingNodes clashing.reverse, node.language = .javaScript := by
    rw [hsecond]
    decide
  have hfound := hrust node (mem_of_mem_distinctBy _ hm)
  rw [hscript node (mem_of_mem_distinctBy _ (hnodes ▸ hm))] at hfound
  cases hfound

end Analyzer

end CodeAtlas
