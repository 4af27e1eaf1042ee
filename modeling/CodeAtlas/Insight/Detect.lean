import CodeAtlas.Graph.Cluster
import CodeAtlas.Graph.Component
import CodeAtlas.Insight.Pattern
import CodeAtlas.Sorted

/-! Detectors of patterns in a dependency graph. -/

namespace CodeAtlas.Insight

/-- A share of `each` millionths for every one of `count`, at most `limit`. -/
def share (count each limit : Nat) : Nat :=
  min (count * each) limit

/-- The files that edges join, in order. -/
def endpointsOf (edges : List Edge) : List String :=
  sortedTexts (edges.flatMap fun e => [e.source, e.target])

/-! ## Patterns -/

/-- Clusters make services likely, and edges between them make them less so. -/
def serviceConfidence (clusters crossEdges : Nat) : Fixed :=
  .ofMillionths (max (share clusters 200000 800000 - share crossEdges 50000 300000) 100000)

/-- The edges between languages that lead from one cluster to another. -/
def linksBetweenClusters (graph : DependencyGraph) : List Link :=
  let numbers := graph.clustering.numbers
  graph.links.filter fun l =>
    l.edge.crossLanguage && numbers[l.source]? != numbers[l.target]?

/-- The report of clusters that edges between languages join. -/
def servicePattern (clusters crossEdges : Nat) (nodes : List String) : Pattern where
  type := .microservices
  confidence := serviceConfidence clusters crossEdges
  description := toString clusters ++ " single-language clusters connected by " ++
    toString crossEdges ++ " cross-language edges"
  advice := "Define explicit service contracts at the cluster boundaries and keep cross-service " ++
    "calls behind versioned interfaces"
  nodes := nodes

/-- Clusters that are joined by edges between languages. -/
def microservices? (graph : DependencyGraph) : Option Pattern :=
  let clusters := graph.clustering.count
  let links := linksBetweenClusters graph
  if clusters ≤ 1 || links.isEmpty then none
  else
    let ends := links.flatMap fun l => [l.source, l.target]
    some (servicePattern clusters links.length (sortedTexts (ends.filterMap (graph.ids[·]?))))

/-- A file that many files use, some of them in another language. -/
def isHub (graph : DependencyGraph) (id : String) : Bool :=
  let incoming := graph.incoming id
  3 < incoming.length && incoming.any (·.crossLanguage)

/-- The files that many files use. -/
def apiLayer? (graph : DependencyGraph) : Option Pattern :=
  let hubs := sortedBy id (graph.ids.filter (isHub graph))
  if hubs.isEmpty then none
  else some {
    type := .apiLayer
    confidence := .ofMillionths (share hubs.length 300000 900000)
    description := toString hubs.length ++
      " module(s) act as an API layer with high fan-in across languages"
    advice := "Keep API-layer modules thin and document their contracts so callers in other " ++
      "languages stay in sync"
    nodes := hubs }

/-- A file that uses several files of other languages. -/
def sharedLibrary? (graph : DependencyGraph) (id : String) : Option Pattern :=
  let count := ((graph.outgoing id).filter (·.crossLanguage)).length
  if count ≤ 2 then none
  else some {
    type := .sharedLibrary
    confidence := .ofMillionths (share count 200000 900000)
    description := id ++ " has " ++ toString count ++ " cross-language dependencies"
    advice := "Consider extracting what " ++ id ++
      " shares across languages into a dedicated library with a stable interface"
    nodes := [id] }

/-- The files that use several files of other languages. -/
def sharedLibraries (graph : DependencyGraph) : List Pattern :=
  (sortedBy id graph.ids).filterMap (sharedLibrary? graph)

/-- Several edges of one type between languages. -/
def communication? (graph : DependencyGraph) (type : EdgeType) : Option Pattern :=
  let edges := graph.crossLanguageEdges.filter fun e => e.type == type
  let tags := sortedTexts (edges.filterMap fun e => e.interfaceType.map InterfaceType.tag)
  let via := if tags.isEmpty then "" else " (" ++ ", ".intercalate tags ++ ")"
  if edges.length ≤ 1 then none
  else some {
    type := .communication
    confidence := .ofMillionths 800000
    description := toString edges.length ++ " cross-language " ++ type.tag ++ " edges" ++ via
    advice := "Standardize " ++ type.tag ++
      "-based communication between languages with shared schemas"
    nodes := endpointsOf edges }

def patterns (graph : DependencyGraph) : List Pattern :=
  (microservices? graph).toList ++ (apiLayer? graph).toList ++ sharedLibraries graph ++
    EdgeType.all.filterMap (communication? graph)

/-! ## Patterns to be avoided -/

/-- The report of a cycle through some files. -/
def cyclePattern (graph : DependencyGraph) (ids : List String) : AntiPattern :=
  let nodes := sortedBy id ids
  let languages := sortedTexts (ids.filterMap fun id => (graph.node? id).map (·.language.name))
  { severity := .high
    pattern := {
      type := .cycle
      confidence := .ofMillionths 900000
      description := "Circular dependency across " ++ ", ".intercalate languages ++ " between " ++
        " -> ".intercalate nodes
      advice := "Break the cycle by introducing an interface or message boundary so one side no " ++
        "longer depends on the other"
      nodes := nodes } }

/-- The reports of the cycles across a language boundary, in the order of their files. The sets of
files that can reach each other may be given in any order. -/
def antiPatternsAmong (graph : DependencyGraph) (components : List (List String)) :
    List AntiPattern :=
  -- Lists have another order too, where more of the library is at hand.
  letI : LE (List String) := List.instLE
  sortedBy (·.pattern.nodes) ((graph.mixedCycles components).map (cyclePattern graph))

/-- The reports of the cycles across a language boundary. -/
def antiPatterns (graph : DependencyGraph) : List AntiPattern :=
  antiPatternsAmong graph graph.components

/-- Everything that is found in a graph. -/
def detect (graph : DependencyGraph) : Findings :=
  ⟨patterns graph, antiPatterns graph⟩

end CodeAtlas.Insight
