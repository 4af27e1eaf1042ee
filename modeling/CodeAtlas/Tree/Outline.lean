import CodeAtlas.Text.Cased
import CodeAtlas.Tree.Import
import CodeAtlas.Tree.Kinds

/-! The outline of a syntax tree. Functions inside a class are its methods; methods that are
declared apart from their type join it at the end. -/

namespace CodeAtlas.Tree

/-- What the functions below a node belong to. -/
inductive Owner where
  | nothing
  | classAt (index : Nat)
  | typeNamed (name : String)
  deriving Repr, DecidableEq

/-- What has been found so far. -/
structure Found where
  functions : List FunctionDecl
  classes : List ClassDecl
  imports : List ImportDecl
  detached : List (String × FunctionDecl)

/-- The source that a tree was read from. -/
structure Reading where
  language : Language
  source : Bytes
  kinds : Kinds

namespace Reading

def textOf (reading : Reading) (node : Node) : String :=
  String.ofList (node.text reading.source)

/-- The name of the class that a node declares. -/
def className? (reading : Reading) (node : Node) : Option String := do
  if reading.language == .go then
    let type ← node.child? "type"
    if type.kind != "struct_type" && type.kind != "interface_type" then failure
  return reading.textOf (← node.child? "name")

/-- The name of the function that a node declares. A function without one takes the name that it is
bound to. -/
def functionName? (reading : Reading) (parent : Option Node) (node : Node) : Option String :=
  match node.child? "name" with
  | some name => some (reading.textOf name)
  | none => do
    let parent ← parent
    if parent.kind == "variable_declarator" then
      return reading.textOf (← parent.child? "name")
    else if parent.kind == "pair" then
      return reading.textOf (← parent.child? "key")
    else failure

/-- The type that a method with a receiver belongs to. -/
def receiverType? (reading : Reading) (node : Node) : Option String := do
  if node.kind != "method_declaration" || reading.language != .go then failure
  let receiver ← node.child? "receiver"
  let text := trimWhere (fun c => c == '(' || c == ')') (receiver.text reading.source)
  return baseTypeName (← (Text.words text).getLast?)

/-- A declaration is visible from outside. The ancestors are given from the parent on; a script's
declaration may lie at most five of them below its export. -/
def isExported (reading : Reading) (ancestors : List Node) (node : Node) (name : String) : Bool :=
  match reading.language with
  | .typeScript | .javaScript =>
    ((ancestors.take 5).takeWhile fun a => a.kind != "program").any
      fun a => a.kind == "export_statement"
  | .python => name.toList.head? != some '_'
  | .go => name.toList.head?.any Text.isUppercase
  | .rust => !(node.childrenOf "visibility_modifier").isEmpty
  | .java => (node.childrenOf "modifiers").any fun m =>
    (m.text reading.source).contains "public".toList
  | .kotlin | .ruby | .php | .cSharp => false

/-- The function that a node declares. -/
def functionDecl (reading : Reading) (ancestors : List Node) (node : Node) (name : String) :
    FunctionDecl where
  name := name
  line := node.line
  complexity := 1 + node.countKinds reading.kinds.decisions
  exported := reading.isExported ancestors node name

/-- Puts a function where it belongs. -/
def place (reading : Reading) (owner : Owner) (node : Node) (decl : FunctionDecl)
    (found : Found) : Found :=
  match owner with
  | .classAt index =>
    { found with
      classes := found.classes.modify index fun c => { c with methods := c.methods ++ [decl.name] } }
  | .typeNamed name => { found with detached := found.detached ++ [(name, decl)] }
  | .nothing =>
    match reading.receiverType? node with
    | some name => { found with detached := found.detached ++ [(name, decl)] }
    | none => { found with functions := found.functions ++ [decl] }

/-- What a node stands for in the outline. -/
inductive Role where
  | declaresClass (name : String)
  | extendsType (name : String)
  | declaresFunction (name : String)
  | other

/-- The role of a node. A function inside another one has none. -/
def role (reading : Reading) (ancestors : List Node) (inFunction : Bool) (node : Node) : Role :=
  let asClass := if reading.kinds.classes.contains node.kind then reading.className? node else none
  let asImpl := if reading.kinds.impls.contains node.kind then node.child? "type" else none
  let asFunction :=
    if reading.kinds.functions.contains node.kind && !inFunction then
      reading.functionName? ancestors.head? node
    else none
  match asClass, asImpl, asFunction with
  | some name, _, _ => .declaresClass name
  | none, some type, _ => .extendsType (baseTypeName (type.text reading.source))
  | none, none, some name => .declaresFunction name
  | none, none, none => .other

/-- Adds the imports of a node that is none of the declarations. -/
def addImports (reading : Reading) (node : Node) (found : Found) : Found :=
  if reading.kinds.imports.contains node.kind then
    { found with imports := found.imports ++ importsOf reading.language reading.source node }
  else found

mutual

/-- Adds what a node and the nodes below it declare. -/
def visit (reading : Reading) (ancestors : List Node) (owner : Owner) (inFunction : Bool) :
    Node → Found → Found
  | .mk kind named field status span children, found =>
    let node := Node.mk kind named field status span children
    match reading.role ancestors inFunction node with
    | .declaresClass name =>
      let decl : ClassDecl := ⟨name, [], node.line, reading.isExported ancestors node name⟩
      visitAll reading (node :: ancestors) (.classAt found.classes.length) false children
        { found with classes := found.classes ++ [decl] }
    | .extendsType name =>
      visitAll reading (node :: ancestors) (.typeNamed name) false children found
    | .declaresFunction name =>
      visitAll reading (node :: ancestors) .nothing true children
        (reading.place owner node (reading.functionDecl ancestors node name) found)
    | .other =>
      visitAll reading (node :: ancestors) owner inFunction children
        (reading.addImports node found)

/-- Adds what several nodes declare, in order. -/
def visitAll (reading : Reading) (ancestors : List Node) (owner : Owner) (inFunction : Bool) :
    List Node → Found → Found
  | [], found => found
  | node :: rest, found =>
    visitAll reading ancestors owner inFunction rest
      (visit reading ancestors owner inFunction node found)

end

end Reading

/-- Joins a method that was declared apart to the first class of its type's name; where there is
none it is a function. -/
def Found.attach (found : Found) (method : String × FunctionDecl) : Found :=
  match found.classes.findIdx? fun c => c.name == method.1 with
  | some index =>
    { found with
      classes := found.classes.modify index fun c =>
        { c with methods := c.methods ++ [method.2.name] } }
  | none => { found with functions := found.functions ++ [method.2] }

/-- A short description of a tree. -/
def summary (root : Node) : Json :=
  .obj [("root", .str root.kind), ("node_count", .ofNat root.size),
    ("end_line", .ofNat (root.span.endRow + 1)),
    ("top_level", .strs ((root.namedChildren.take 64).map Node.kind))]

/-- The outline of a tree without errors. -/
def outline (root : Node) (reading : Reading) : Outline :=
  let found := reading.visit [] .nothing false root ⟨[], [], [], []⟩
  let found := found.detached.foldl Found.attach found
  { functions := found.functions.mergeSort fun a b => a.line ≤ b.line
    classes := found.classes
    imports := found.imports
    complexity := 1 + root.countKinds reading.kinds.decisions
    summary := some (summary root) }

end CodeAtlas.Tree
