import CodeAtlas.Interface.Basic
import CodeAtlas.Keyed
import CodeAtlas.Outline.Record

/-! The dependency graph of a project: its files and the imports and interfaces between them. -/

namespace CodeAtlas

/-- What an export is. -/
inductive ExportKind where
  | function
  | classLike
  deriving Repr, DecidableEq

def ExportKind.tag : ExportKind → String
  | function => "function"
  | classLike => "class"

/-- A name that other files can see. Only functions have a complexity and only classes have
methods. -/
structure Export where
  name : String
  kind : ExportKind
  line : Nat
  complexity : Option Nat
  methods : List String
  deriving Repr, DecidableEq

namespace Export

def ofFunction (f : FunctionDecl) : Export := ⟨f.name, .function, f.line, some f.complexity, []⟩

def ofClass (c : ClassDecl) : Export := ⟨c.name, .classLike, c.line, none, c.methods⟩

def toJson (e : Export) : Json :=
  .obj [("name", .str e.name), ("kind", .str e.kind.tag), ("line", .ofNat e.line),
    ("complexity", .ofOption .ofNat e.complexity), ("methods", .strs e.methods)]

end Export

/-- A file of the graph, told apart by its relative path. -/
structure Node where
  id : String
  language : Language
  exports : List Export
  imports : List ImportDecl
  deriving Repr, DecidableEq

def Node.toJson (n : Node) : Json :=
  .obj [("id", .str n.id), ("language", .ofLanguage n.language),
    ("exports", .arr (n.exports.map Export.toJson)),
    ("imports", .arr (n.imports.map ImportDecl.toJson))]

/-- What an edge stands for. -/
inductive EdgeType where
  | imports
  | interface
  deriving Repr, DecidableEq

namespace EdgeType

def all : List EdgeType := [imports, interface]

def tag : EdgeType → String
  | imports => "import"
  | interface => "interface"

end EdgeType

/-- An edge between two files, given by their ids. -/
structure Edge where
  source : String
  target : String
  type : EdgeType
  crossLanguage : Bool
  interfaceType : Option InterfaceType
  deriving Repr, DecidableEq

namespace Edge

/-- An import of `target` by `source`. -/
def ofImport (source target : Node) : Edge :=
  ⟨source.id, target.id, .imports, source.language != target.language, none⟩

/-- A use of an interface of `target` by `source`. -/
def ofInterface (source target : Node) (type : InterfaceType) : Edge :=
  ⟨source.id, target.id, .interface, source.language != target.language, some type⟩

def toJson (e : Edge) : Json :=
  .obj [("source", .str e.source), ("target", .str e.target), ("edge_type", .str e.type.tag),
    ("cross_language", .bool e.crossLanguage),
    ("interface_type", .ofOption (fun t => .str t.tag) e.interfaceType)]

end Edge

/-- An import with several candidates, of which the first one was chosen. -/
structure AmbiguousImport where
  file : String
  source : String
  chosen : String
  candidates : List String
  deriving Repr, DecidableEq

def AmbiguousImport.toJson (a : AmbiguousImport) : Json :=
  .obj [("file", .str a.file), ("source", .str a.source), ("chosen", .str a.chosen),
    ("candidates", .strs a.candidates)]

/-- An edge with the positions of the nodes that it joins. -/
structure Link where
  source : Nat
  target : Nat
  edge : Edge
  deriving Repr, DecidableEq

/-- A node with its position. -/
abbrev Placed := Node × Nat

namespace Link

/-- An import of `target` by `source`. -/
def ofImport (source target : Placed) : Link :=
  ⟨source.2, target.2, .ofImport source.1 target.1⟩

/-- A use of an interface of `target` by `source`. -/
def ofInterface (source target : Placed) (type : InterfaceType) : Link :=
  ⟨source.2, target.2, .ofInterface source.1 target.1 type⟩

end Link

/-- The files of a project and the edges between them, in the order in which they were found. The
position of a node is found by its id, and the edges between languages are kept once more. -/
structure DependencyGraph where
  nodes : List Node
  positions : Keyed String Nat
  links : List Link
  crossLanguageEdges : List Edge
  ambiguousImports : List AmbiguousImport
  deriving Repr, DecidableEq

namespace DependencyGraph

def empty : DependencyGraph := ⟨[], .empty, [], [], []⟩

def ids (graph : DependencyGraph) : List String := graph.nodes.map (·.id)

def edges (graph : DependencyGraph) : List Edge := graph.links.map (·.edge)

/-- The file with a given id, and its position. -/
def placed? (graph : DependencyGraph) (id : String) : Option Placed :=
  (graph.positions.get? id).bind fun position => graph.nodes[position]?.map (·, position)

/-- The file with a given id. -/
def node? (graph : DependencyGraph) (id : String) : Option Node :=
  (graph.placed? id).map (·.1)

/-- The edges with a file at one end, the latest first. -/
def edgesAt (graph : DependencyGraph) (endOf : Link → Nat) (id : String) : List Edge :=
  match graph.positions.get? id with
  | none => []
  | some position => ((graph.links.filter fun l => endOf l == position).map (·.edge)).reverse

/-- The edges to a file. -/
def incoming (graph : DependencyGraph) (id : String) : List Edge :=
  graph.edgesAt (·.target) id

/-- The edges from a file. -/
def outgoing (graph : DependencyGraph) (id : String) : List Edge :=
  graph.edgesAt (·.source) id

/-! ## Growth -/

/-- The graph with one more node. -/
def addNode (graph : DependencyGraph) (node : Node) : DependencyGraph :=
  { graph with
    nodes := graph.nodes ++ [node]
    positions := graph.positions.put node.id graph.nodes.length }

/-- The graph with one more edge. -/
def addLink (graph : DependencyGraph) (link : Link) : DependencyGraph :=
  { graph with
    links := graph.links ++ [link]
    crossLanguageEdges :=
      if link.edge.crossLanguage then graph.crossLanguageEdges ++ [link.edge]
      else graph.crossLanguageEdges }

/-- The graph with one more record of an ambiguous import, if there is one. -/
def noteAmbiguous (graph : DependencyGraph) (ambiguous : Option AmbiguousImport) :
    DependencyGraph :=
  { graph with ambiguousImports := graph.ambiguousImports ++ ambiguous.toList }

def toJson (graph : DependencyGraph) : Json :=
  .obj [("nodes", .arr (graph.nodes.map Node.toJson)), ("edges", .arr (graph.edges.map Edge.toJson)),
    ("cross_language_edges", .arr (graph.crossLanguageEdges.map Edge.toJson)),
    ("ambiguous_imports", .arr (graph.ambiguousImports.map AmbiguousImport.toJson))]

end DependencyGraph

end CodeAtlas
