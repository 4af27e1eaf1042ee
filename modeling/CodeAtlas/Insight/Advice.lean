import CodeAtlas.Graph.Basic
import CodeAtlas.Insight.Pattern
import CodeAtlas.Sorted

/-! Recommendations from the findings in a graph, the most urgent first. -/

namespace CodeAtlas.Insight

def crossLanguageEdgeLimit : Nat := 10

def interfaceTypeLimit : Nat := 3

/-- Advice on the number of edges between languages. -/
def couplingAdvice? (crossEdges : Nat) : Option Recommendation :=
  if crossEdges ≤ crossLanguageEdgeLimit then none
  else some {
    priority := .high
    category := "dependency-reduction"
    message := toString crossEdges ++ " cross-language dependencies found; reduce direct coupling " ++
      "between languages by routing calls through a small set of interfaces"
    nodes := [] }

/-- Advice on the number of families of interfaces. -/
def interfaceAdvice? (interfaces : List InterfaceDescriptor) : Option Recommendation :=
  let tags := sortedTexts (interfaces.map (·.type.tag))
  if tags.length ≤ interfaceTypeLimit then none
  else some {
    priority := .medium
    category := "interface-standardization"
    message := toString tags.length ++ " interface styles in use (" ++ ", ".intercalate tags ++
      "); standardize on fewer communication mechanisms"
    nodes := [] }

def ofPattern (priority : Level) (p : Pattern) : Recommendation :=
  ⟨priority, p.type.tag, p.advice, p.nodes⟩

/-- The recommendations in the order in which they come up. -/
def unordered (graph : DependencyGraph) (findings : Findings)
    (interfaces : List InterfaceDescriptor) : List Recommendation :=
  (couplingAdvice? graph.crossLanguageEdges.length).toList ++ (interfaceAdvice? interfaces).toList ++
    findings.patterns.map (ofPattern .low) ++
    findings.antiPatterns.map fun a => ofPattern a.severity a.pattern

/-- The recommendations, the most urgent first; those of one priority stay in order. -/
def recommendations (graph : DependencyGraph) (findings : Findings)
    (interfaces : List InterfaceDescriptor) : List Recommendation :=
  let all := unordered graph findings interfaces
  Level.all.flatMap fun level => all.filter fun r => r.priority == level

end CodeAtlas.Insight
