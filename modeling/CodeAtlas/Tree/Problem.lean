import CodeAtlas.Tree.Basic

/-! Syntax problems: the nodes of a tree that are errors or missing, and the first of them in the
words of a compiler. -/

namespace CodeAtlas.Tree

/-- A syntax problem. The line counts from one, the column from zero. -/
structure Problem where
  line : Nat
  column : Nat
  message : String
  deriving Repr, DecidableEq

/-- A node that is an error or missing. -/
def Node.isBroken (node : Node) : Bool :=
  node.status != .normal

/-- The nodes that are errors or missing. -/
def Node.problems (root : Node) : List Node :=
  root.collect Node.isBroken

/-- The beginning of the first token of a node. -/
def Node.firstToken (source : Bytes) (node : Node) : String :=
  let text := (node.firstLeaf.text source).trim
  if text.isEmpty then "<eof>" else String.ofList (text.take 24)

/-- What is wrong at a node. -/
def Node.problem (source : Bytes) (node : Node) : Problem where
  line := node.line
  column := node.span.startColumn
  message :=
    match node.status with
    | .missing => "Missing " ++ node.kind ++ " at line " ++ toString node.line
    | _ => "Unexpected token " ++ node.firstToken source ++ " at line " ++ toString node.line

def Node.firstProblem? (source : Bytes) (root : Node) : Option Problem :=
  root.problems.head?.map (Node.problem source)

end CodeAtlas.Tree
