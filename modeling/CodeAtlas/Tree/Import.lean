import CodeAtlas.Outline.Basic
import CodeAtlas.Tree.Basic

/-! The imports that a node of a syntax tree brings in. -/

namespace CodeAtlas.Tree

/-! ## Texts of imports and types -/

/-- The text without the characters at either end that satisfy `p`. -/
def trimWhere (p : Char → Bool) (text : Text) : Text :=
  Text.dropTail p (text.dropWhile p)

/-- The text without quotes at its ends. -/
def unquoted (text : Text) : String :=
  String.ofList (trimWhere (fun c => c == '"' || c == '\'' || c == '\x60') text)

/-- What stands in front of the first `word` and behind it. -/
def cutAtFrom (word : Text) : Text → Text → Option (Text × Text)
  | [], before => if word.isEmpty then some (before.reverse, []) else none
  | c :: rest, before =>
    if word.isPrefixOf (c :: rest) then some (before.reverse, (c :: rest).drop word.length)
    else cutAtFrom word rest (c :: before)

/-- What stands in front of the first `word` in a text and behind it. -/
def cutAt? (word text : Text) : Option (Text × Text) :=
  cutAtFrom word text []

/-- What stands behind the last `separator`, or the whole text where there is none. -/
def lastPiece (separator text : Text) : Text :=
  match cutAt? separator.reverse text.reverse with
  | some (piece, _) => piece.reverse
  | none => text

/-- The text without the repetitions of a nonempty `word` at its start. The first argument bounds
their number. -/
def dropLeading (word : Text) : Nat → Text → Text
  | 0, text => text
  | n + 1, text =>
    match text.after? word with
    | some rest => dropLeading word n rest
    | none => text

/-- The name of a type without references, path and parameters. -/
def baseTypeName (text : Text) : String :=
  let head := text.takeWhile fun c => c != '<' && c != '['
  let last := (lastPiece [':', ':'] head).dropWhile fun c => c == '&' || c == '*'
  String.ofList (dropLeading "mut ".toList last.length last).trim

/-- The import of a path such as `a::b::{c, d}`, `a.b.C` or `a.b.*`: its source is the part
in front of a star or a group in braces, or else the whole path. -/
def splitPath (path separator : Text) (line : Nat) : ImportDecl :=
  let path : Text := path.filter fun c => !Text.isBlank c
  match path.before? (separator ++ ['*']) with
  | some source => ⟨String.ofList source, .wildcard, [], line⟩
  | none =>
    match cutAt? (separator ++ ['\x7b']) path with
    | some (source, rest) =>
      let names := Text.splitWhere (· == ',') (Text.dropTail (· == '\x7d') rest)
      ⟨String.ofList source, .named,
        (names.filter fun name => !name.isEmpty).map String.ofList, line⟩
    | none =>
      let name := lastPiece separator path
      ⟨String.ofList path, .named, if name.isEmpty then [] else [String.ofList name], line⟩

/-! ## Imports by language -/

/-- The node that an alias stands for, or the node itself. -/
def Node.unaliased (node : Node) : Node :=
  if node.kind == "aliased_import" then (node.child? "name").getD node else node

/-- What one part of an import clause brings in. -/
def clausePart (source : Bytes) (kind : ImportKind) (part : Node) : ImportKind × List String :=
  if part.kind == "identifier" then (kind, [String.ofList (part.text source)])
  else if part.kind == "named_imports" then
    (kind, ((part.childrenOf "import_specifier").filterMap (·.child? "name")).map
      fun name => String.ofList (name.text source))
  else if part.kind == "namespace_import" then (.wildcard, [])
  else (kind, [])

/-- What the clauses of an import statement bring in; without one it is made for its effects. -/
def clauseNames (source : Bytes) (node : Node) : ImportKind × List String :=
  (node.childrenOf "import_clause").foldl (fun (_, names) clause =>
    clause.children.foldl (fun (kind, names) part =>
      let (kind, more) := clausePart source kind part
      (kind, names ++ more)) (.named, names)) (.sideEffect, [])

/-- The import of a script's import statement. -/
def scriptImport? (source : Bytes) (node : Node) : Option ImportDecl := do
  let target ← node.child? "source"
  let (kind, names) := clauseNames source node
  return ⟨unquoted (target.text source), kind, names, node.line⟩

/-- The import of a script's call of `require` or `import` on a string. -/
def scriptCall? (source : Bytes) (node : Node) : Option ImportDecl := do
  let function ← node.child? "function"
  let name := String.ofList (function.text source)
  if name != "require" && name != "import" then failure
  let arguments ← node.child? "arguments"
  let first ← arguments.namedChildren.head?
  if first.kind != "string" then failure
  return ⟨unquoted (first.text source), .whole, [], node.line⟩

/-- The import of a statement with a module and names taken from it. -/
def fromImport? (source : Bytes) (node : Node) : Option ImportDecl := do
  let target ← node.child? "module_name"
  let kind := if (node.childrenOf "wildcard_import").isEmpty then .named else .wildcard
  let names := (node.childrenAt "name").map fun name =>
    String.ofList (name.unaliased.text source)
  return ⟨String.ofList (target.text source), kind, names, node.line⟩

/-- The import of a path in quotes, under a name of its own where one is given. -/
def specImport? (source : Bytes) (node : Node) : Option ImportDecl := do
  let path ← node.child? "path"
  let names := (node.child? "name").toList.map fun name => String.ofList (name.text source)
  return ⟨unquoted (path.text source), .whole, names, node.line⟩

/-- The path of a declaration that starts with `import` and may be `static`. -/
def declaredPath (text : Text) : Text :=
  let text := text.trim
  let text := (dropLeading "import".toList text.length text).trim
  let text := (dropLeading "static".toList text.length text).trim
  (Text.dropTail (· == ';') text).trim

/-- The imports of a node. -/
def importsOf (language : Language) (source : Bytes) (node : Node) : List ImportDecl :=
  match language with
  | .typeScript | .javaScript =>
    if node.kind == "import_statement" then (scriptImport? source node).toList
    else if node.kind == "call_expression" then (scriptCall? source node).toList
    else []
  | .python =>
    if node.kind == "import_statement" then
      (node.childrenAt "name").map fun name =>
        ⟨String.ofList (name.unaliased.text source), .whole, [], node.line⟩
    else if node.kind == "import_from_statement" then (fromImport? source node).toList
    else []
  | .go => if node.kind == "import_spec" then (specImport? source node).toList else []
  | .rust =>
    if node.kind == "use_declaration" then
      ((node.child? "argument").map fun path =>
        splitPath (path.text source) [':', ':'] node.line).toList
    else []
  | .java =>
    if node.kind == "import_declaration" then
      [splitPath (declaredPath (node.text source)) ['.'] node.line]
    else []
  | .kotlin | .ruby | .php | .cSharp => []

end CodeAtlas.Tree
