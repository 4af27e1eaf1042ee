import CodeAtlas.Cache.Basic
import CodeAtlas.Insight.Advice
import CodeAtlas.Insight.Detect
import CodeAtlas.Graph.Build
import CodeAtlas.Source.Discovery

/-! The report of an analysis. It is made of what became of each file. -/

namespace CodeAtlas

/-- The stage of parsing that made a result. -/
inductive Stage where
  | primary
  | recovered
  | fallback
  | empty
  deriving Repr, DecidableEq

/-- The stage that made a result. -/
def ParseResult.stage (result : ParseResult) : Stage :=
  if result.strategy = primaryStrategy then .primary
  else if result.strategy = emptyStrategy then .empty
  else if result.recovery.isSome then .recovered
  else .fallback

/-- What an analysed file adds to a report. -/
structure Contribution where
  file : SourceFile
  result : ParseResult
  interfaces : List InterfaceDescriptor

/-- What became of a file. -/
inductive FileOutcome where
  | done (contribution : Contribution)
  | failed (error : AnalysisError)
  | skipped

namespace FileOutcome

def contribution? : FileOutcome → Option Contribution
  | done contribution => some contribution
  | _ => none

def error? : FileOutcome → Option AnalysisError
  | failed error => some error
  | _ => none

def isSkipped : FileOutcome → Bool
  | skipped => true
  | _ => false

end FileOutcome

/-- The counts of a run. -/
structure RunStats where
  submitted : Nat
  analyzed : Nat
  failed : Nat
  cancelled : Nat
  primary : Nat
  recovered : Nat
  fallback : Nat
  empty : Nat
  interfaces : Nat
  cache : CacheCounters
  deriving Repr, DecidableEq, Inhabited

namespace RunStats

def zero : RunStats := ⟨0, 0, 0, 0, 0, 0, 0, 0, 0, .zero⟩

def toJson (s : RunStats) : Json :=
  .obj [("files_submitted", .ofNat s.submitted), ("files_analyzed", .ofNat s.analyzed),
    ("files_failed", .ofNat s.failed), ("files_cancelled", .ofNat s.cancelled),
    ("primary", .ofNat s.primary), ("recovered", .ofNat s.recovered),
    ("fallback", .ofNat s.fallback), ("empty", .ofNat s.empty),
    ("interfaces", .ofNat s.interfaces), ("cache", s.cache.toJson)]

end RunStats

/-- The report of an analysis. The languages stand in order with the number of their files. -/
structure Report where
  graph : DependencyGraph
  interfaces : List InterfaceDescriptor
  findings : Findings
  recommendations : List Recommendation
  languages : List (Language × Nat)
  stats : RunStats
  errors : List AnalysisError

namespace Report

/-- The report of an analysis that did not take place. -/
def blank : Report := ⟨.empty, [], ⟨[], []⟩, [], [], .zero, []⟩

def contributions (outcomes : List FileOutcome) : List Contribution :=
  outcomes.filterMap FileOutcome.contribution?

def interfacesOf (outcomes : List FileOutcome) : List InterfaceDescriptor :=
  (contributions outcomes).flatMap (·.interfaces)

def graphOf (resolver : Graph.Resolver) (outcomes : List FileOutcome) : DependencyGraph :=
  Graph.build resolver ((contributions outcomes).map fun c => (c.file, c.result))
    (interfacesOf outcomes)

/-- The failures of files, and behind them one error if any file was skipped. -/
def errorsOf (outcomes : List FileOutcome) : List AnalysisError :=
  outcomes.filterMap FileOutcome.error? ++
    if outcomes.any FileOutcome.isSkipped then [.cancelled] else []

/-- The counts of the outcomes. -/
def statsOf (outcomes : List FileOutcome) (cache : CacheCounters) : RunStats :=
  let stages := (contributions outcomes).map (·.result.stage)
  { submitted := outcomes.length
    analyzed := stages.length
    failed := (outcomes.filterMap FileOutcome.error?).length
    cancelled := outcomes.countP FileOutcome.isSkipped
    primary := stages.count .primary
    recovered := stages.count .recovered
    fallback := stages.count .fallback
    empty := stages.count .empty
    interfaces := (interfacesOf outcomes).length
    cache := cache }

/-- The report on some outcomes. -/
def ofOutcomes (resolver : Graph.Resolver) (outcomes : List FileOutcome) (cache : CacheCounters) :
    Report :=
  let graph := graphOf resolver outcomes
  let interfaces := interfacesOf outcomes
  let findings := Insight.detect graph
  { graph := graph
    interfaces := interfaces
    findings := findings
    recommendations := Insight.recommendations graph findings interfaces
    languages := Discovery.countLanguages ((contributions outcomes).map (·.file.language))
    stats := statsOf outcomes cache
    errors := errorsOf outcomes }

/-- Nothing failed and nothing was skipped. -/
def isClean (r : Report) : Bool := r.errors.isEmpty

/-- The number of edges between files of different languages. -/
def crossLanguageEdgeCount (r : Report) : Nat := r.graph.crossLanguageEdges.length

/-- The events that tell of a report. -/
def events (r : Report) : List Event :=
  (r.findings.patterns.map fun p => .patternDetected p.type.tag p.confidence p.nodes) ++
    (r.findings.antiPatterns.map fun a =>
      .antiPatternDetected a.pattern.type.tag a.severity.tag a.pattern.nodes) ++
    (r.errors.map fun e => .errorReported e.message e.code) ++
    [.analysisComplete r.stats.analyzed r.graph.nodes.length r.graph.edges.length
      r.crossLanguageEdgeCount]

def toJson (r : Report) : Json :=
  .obj [("graph", r.graph.toJson),
    ("interfaces", .arr (r.interfaces.map InterfaceDescriptor.toJson)),
    ("patterns", .arr (r.findings.patterns.map Pattern.toJson)),
    ("anti_patterns", .arr (r.findings.antiPatterns.map AntiPattern.toJson)),
    ("recommendations", .arr (r.recommendations.map Recommendation.toJson)),
    ("language_distribution", .obj (r.languages.map fun l => (l.1.tag, .ofNat l.2))),
    ("cross_language_edge_count", .ofNat r.crossLanguageEdgeCount), ("stats", r.stats.toJson),
    ("errors", .arr (r.errors.map fun e =>
      .obj [("code", .str e.code), ("message", .str e.message)])),
    ("clean", .bool r.isClean)]

end Report

end CodeAtlas
