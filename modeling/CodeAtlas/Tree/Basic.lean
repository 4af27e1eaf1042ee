import CodeAtlas.Json.Record

/-! Concrete syntax trees as grammars give them: every token is a node, and errors are nodes too. -/

namespace CodeAtlas.Tree

/-- Whether a node belongs to the grammar, holds what could not be parsed, or was put in where a
token is missing. -/
inductive Status where
  | normal
  | error
  | missing
  deriving Repr, DecidableEq

/-- The place of a node: its bytes, the row and column where it starts and the row where it ends,
all from zero. -/
structure Span where
  startByte : Nat
  endByte : Nat
  startRow : Nat
  startColumn : Nat
  endRow : Nat
  deriving Repr, DecidableEq

/-- A node with its children in order. `field` is the part that it plays in its parent. -/
inductive Node where
  | mk (kind : String) (named : Bool) (field : Option String) (status : Status) (span : Span)
    (children : List Node)

namespace Node

def kind : Node → String
  | mk kind _ _ _ _ _ => kind

def named : Node → Bool
  | mk _ named _ _ _ _ => named

def field : Node → Option String
  | mk _ _ field _ _ _ => field

def status : Node → Status
  | mk _ _ _ status _ _ => status

def span : Node → Span
  | mk _ _ _ _ span _ => span

def children : Node → List Node
  | mk _ _ _ _ _ children => children

/-- The number of the line on which a node starts, from one. -/
def line (node : Node) : Nat := node.span.startRow + 1

def child? (node : Node) (field : String) : Option Node :=
  node.children.find? fun child => child.field == some field

def childrenAt (node : Node) (field : String) : List Node :=
  node.children.filter fun child => child.field == some field

def childrenOf (node : Node) (kind : String) : List Node :=
  node.children.filter fun child => child.kind == kind

def namedChildren (node : Node) : List Node :=
  node.children.filter (·.named)

/-- The text of a node in the source that it was read from. -/
def text (source : Bytes) (node : Node) : Text :=
  let bytes := (source.drop node.span.startByte).take (node.span.endByte - node.span.startByte)
  (Utf8.decode? bytes).getD []

mutual

/-- The nodes of a tree that satisfy `p`, from the root on in the order of the text. -/
def collect (p : Node → Bool) : Node → List Node
  | mk kind named field status span children =>
    let below := collectAll p children
    let node := mk kind named field status span children
    if p node then node :: below else below

/-- The nodes of several trees that satisfy `p`. -/
def collectAll (p : Node → Bool) : List Node → List Node
  | [] => []
  | node :: rest => collect p node ++ collectAll p rest

end

/-- The number of nodes of a tree. -/
def size (node : Node) : Nat := (node.collect fun _ => true).length

/-- How many nodes of a tree are of one of the kinds. -/
def countKinds (kinds : List String) (node : Node) : Nat :=
  (node.collect fun node => kinds.contains node.kind).length

mutual

def firstLeaf : Node → Node
  | mk kind named field status span children =>
    firstLeafOf (mk kind named field status span []) children

/-- The first leaf of the first of several trees, or `self` where there are none. -/
def firstLeafOf (self : Node) : List Node → Node
  | [] => self
  | node :: _ => firstLeaf node

end

end Node

/-- A syntax tree. `hasError` says that some node is an error or missing. -/
structure SyntaxTree where
  hasError : Bool
  root : Node

/-! ## Reading -/

/-- The status of that number. -/
def Status.ofCode : Nat → Status
  | 0 => normal
  | 1 => error
  | _ => missing

mutual

/-- Reads a node from an array of its kind, name flag, field, status, place and children. -/
def Node.ofJson? : Json → Option Node
  | .arr [.str kind, .int named, field, .int status, .int startByte, .int endByte, .int startRow,
      .int startColumn, .int endRow, .arr children] => do
    let children ← Node.listOfJson? children
    return .mk kind (named != 0) field.str? (.ofCode status.toNat)
      ⟨startByte.toNat, endByte.toNat, startRow.toNat, startColumn.toNat, endRow.toNat⟩ children
  | _ => none

/-- Reads several nodes. -/
def Node.listOfJson? : List Json → Option (List Node)
  | [] => some []
  | value :: rest => do
    let node ← Node.ofJson? value
    let nodes ← Node.listOfJson? rest
    return node :: nodes

end

/-- Reads a tree from an object with its root and its error flag. -/
def SyntaxTree.ofJson? (value : Json) : Option SyntaxTree := do
  return ⟨← (value.field? "has_error").bind Json.bool?,
    ← (value.field? "root").bind Node.ofJson?⟩

end CodeAtlas.Tree
