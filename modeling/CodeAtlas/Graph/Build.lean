import CodeAtlas.Graph.Basic
import CodeAtlas.Graph.Endpoint
import CodeAtlas.Graph.Resolver
import CodeAtlas.Parse.Result
import CodeAtlas.Sorted
import CodeAtlas.Source.File

/-! Building the dependency graph: a node for each parsed file, in the order of the paths; an edge for
each resolved import; an edge for each pair of files whose interfaces correspond. -/

namespace CodeAtlas.Graph

abbrev ParsedFile := SourceFile × ParseResult

/-! ## Nodes -/

/-- The node of a parsed file. -/
def nodeOf (parsed : ParsedFile) : Node where
  id := parsed.1.relativePath
  language := parsed.2.language
  exports :=
    ((parsed.2.functions.filter (·.exported)).map Export.ofFunction) ++
      ((parsed.2.classes.filter (·.exported)).map Export.ofClass)
  imports := parsed.2.imports

/-- The nodes of the files that were parsed; of files with one path the first one counts. -/
def nodesOf (files : List ParsedFile) : List Node :=
  (distinctBy (fun f => f.1.relativePath) (files.filter fun f => f.2.success)).map nodeOf

def ofNodes (nodes : List Node) : DependencyGraph :=
  nodes.foldl DependencyGraph.addNode .empty

/-! ## Drawing edges -/

/-- A graph to which edges are added, with the keys of those that were added. -/
structure Drawing (κ : Type) where
  graph : DependencyGraph
  seen : List κ

namespace Drawing

variable {κ : Type} [DecidableEq κ]

/-- Nothing was added yet. -/
def start (graph : DependencyGraph) : Drawing κ := ⟨graph, []⟩

/-- Adds an edge, unless one with the same key was added. -/
def join (drawing : Drawing κ) (key : κ) (link : Link) : Drawing κ :=
  if key ∈ drawing.seen then drawing
  else ⟨drawing.graph.addLink link, key :: drawing.seen⟩

def note (drawing : Drawing κ) (ambiguous : Option AmbiguousImport) : Drawing κ :=
  { drawing with graph := drawing.graph.noteAmbiguous ambiguous }

end Drawing

/-! ## Imports -/

/-- The nodes that an import of the node at `position` may mean. A file does not import itself. -/
def candidates (resolver : Resolver) (nodes : List Node) (position : Nat) (source : String) :
    List Placed :=
  ((resolver.resolve source (nodes.map (·.id))).filter (· != position)).filterMap fun p =>
    nodes[p]?.map (·, p)

/-- The record of an import that several nodes match. -/
def ambiguous? (node : Node) (source : String) : List Placed → Option AmbiguousImport
  | first :: second :: rest =>
    some ⟨node.id, source, first.1.id, (first :: second :: rest).map (·.1.id)⟩
  | _ => none

/-- The ends of an edge for an import: one edge leads from a node to another. -/
abbrev ImportKey := Nat × Nat

/-- Adds the edge for an import of a node, to the first of the nodes that it may mean. -/
def addImport (resolver : Resolver) (nodes : List Node) (source : Placed)
    (drawing : Drawing ImportKey) (declared : ImportDecl) : Drawing ImportKey :=
  let found := candidates resolver nodes source.2 declared.source
  match found with
  | [] => drawing
  | target :: _ =>
    (drawing.note (ambiguous? source.1 declared.source found)).join (source.2, target.2)
      (.ofImport source target)

/-- Adds the edges for the imports of a node. -/
def addImportsOf (resolver : Resolver) (nodes : List Node) (drawing : Drawing ImportKey)
    (source : Placed) : Drawing ImportKey :=
  source.1.imports.foldl (addImport resolver nodes source) drawing

/-- Adds the edges for the imports of all nodes. -/
def addImports (resolver : Resolver) (graph : DependencyGraph) : DependencyGraph :=
  (graph.nodes.zipIdx.foldl (addImportsOf resolver graph.nodes) (.start graph)).graph

/-! ## Interfaces -/

/-- The family of interfaces through which two descriptors correspond. -/
def sharedType? (a b : InterfaceDescriptor) : Option InterfaceType :=
  if a.type = b.type then some a.type
  else
    match a.path, b.path with
    | some pa, some pb =>
      if overlap pa.toList pb.toList then
        some (if b.role = .provider then b.type else a.type)
      else none
    | _, _ => none

/-- A descriptor with the node of its file. -/
abbrev Located := InterfaceDescriptor × Placed

/-- The descriptors of files in the graph, in the order of the files. -/
def located (graph : DependencyGraph) (descriptors : List InterfaceDescriptor) : List Located :=
  sortedBy (fun d => d.1.file) (descriptors.filterMap fun d => (graph.placed? d.file).map (d, ·))

/-- The ends of an edge for an interface and its family: of each family one edge joins two nodes. -/
abbrev ContactKey := Nat × Nat × InterfaceType

/-- The link of two descriptors, from the consumer to the provider where the roles tell. -/
def contactLink (a b : Located) (type : InterfaceType) : Link :=
  if a.1.role = .provider ∧ b.1.role = .consumer then .ofInterface b.2 a.2 type
  else .ofInterface a.2 b.2 type

/-- The ends of a link in order, with a family of interfaces. -/
def contactKey (link : Link) (type : InterfaceType) : ContactKey :=
  (min link.source link.target, max link.source link.target, type)

/-- Adds the edge for two descriptors, if they correspond and their files are different. -/
def addContact (drawing : Drawing ContactKey) (pair : Located × Located) : Drawing ContactKey :=
  if pair.1.2.2 = pair.2.2.2 then drawing
  else
    match sharedType? pair.1.1 pair.2.1 with
    | none => drawing
    | some type =>
      let link := contactLink pair.1 pair.2 type
      drawing.join (contactKey link type) link

def addInterfaces (graph : DependencyGraph) (descriptors : List InterfaceDescriptor) :
    DependencyGraph :=
  ((pairsInOrder (located graph descriptors)).foldl addContact (.start graph)).graph

/-! ## The graph -/

/-- The graph of parsed files and their interfaces. -/
def build (resolver : Resolver) (files : List ParsedFile)
    (descriptors : List InterfaceDescriptor) : DependencyGraph :=
  addInterfaces (addImports resolver (ofNodes (nodesOf files))) descriptors

/-- A short description of a way to build graphs, for logs. -/
def describe (resolver : Resolver) : String :=
  "GraphBuilder \x7b resolver: \"" ++ resolver.name ++ "\" \x7d"

end CodeAtlas.Graph
