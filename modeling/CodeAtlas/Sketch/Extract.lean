import CodeAtlas.Outline.Basic
import CodeAtlas.Regex.Match
import CodeAtlas.Sketch.Family
import CodeAtlas.Text.Cased

/-! The outline of a text by patterns. The family of the language is tried first; where it finds
neither functions nor classes the generic family takes its place. -/

namespace CodeAtlas.Sketch

open Regex

/-- Words that the patterns of callables match but that name no function. -/
def reservedNames : List String :=
  ["if", "for", "while", "switch", "catch", "return", "new", "else", "elif", "foreach", "using",
    "lock", "sizeof", "typeof", "match"]

/-- The declaration of `name` on a given line looks as if it were visible from outside. -/
def looksExported (language : Language) (line : Text) (name : Text) : Bool :=
  let line := line.trimStart
  match language with
  | .python | .ruby => name.head? != some '_'
  | .go => name.head?.any Text.isUppercase
  | .typeScript | .javaScript => line.startsWith "export".toList
  | .rust => line.startsWith "pub".toList
  | .java | .cSharp => line.contains "public".toList
  | .kotlin => !line.containsAny ["private", "internal"]
  | .php => !line.containsAny ["private", "protected"]

/-! ## Declarations -/

/-- A declared name with its line. -/
structure Declared where
  name : String
  line : Nat
  exported : Bool
  deriving Repr, DecidableEq

/-- The names declared so far, the latest first. A name counts once on a line. -/
structure Gathered where
  seen : List (String × Nat)
  found : List Declared

/-- A text with the offsets at which its lines start. -/
structure Source where
  language : Language
  text : Text
  starts : List Nat

/-- Adds the name of one match. -/
def Source.gather (source : Source) (reserved : List String) (gathered : Gathered)
    (captures : Captures) : Gathered :=
  match captures.get? "name" with
  | none => gathered
  | some capture =>
    let name := String.ofList capture.text
    let line := Text.lineAt source.starts capture.offset
    if reserved.contains name || gathered.seen.contains (name, line) then gathered
    else
      let shown := Text.lineText source.text source.starts capture.offset
      ⟨(name, line) :: gathered.seen,
        ⟨name, line, looksExported source.language shown capture.text⟩ :: gathered.found⟩

/-- The names that patterns find, in the order of their lines. -/
def Source.declarations (source : Source) (reserved : List String) (patterns : List Regex.Pattern)
    (seen : List (String × Nat)) : Gathered :=
  let captures := patterns.flatMap fun pattern => findAll pattern source.text
  let gathered := captures.foldl (source.gather reserved) ⟨seen, []⟩
  { gathered with found := gathered.found.reverse.mergeSort fun a b => a.line ≤ b.line }

/-! ## Imports -/

def separatesNames (c : Char) : Bool :=
  c == ',' || c == '\x7b' || c == '\x7d' || c == '(' || c == ')'

/-- What a list of imported names brings in. -/
def importNames (raw : Text) : ImportKind × List String :=
  if raw.contains ['*'] then (.wildcard, [])
  else
    let names := (Text.splitWhere separatesNames raw).filterMap fun part =>
      (Text.words part).head?.map String.ofList
    (if names.isEmpty then .whole else .named, names)

/-- The text without the pairs of colons at its end. The first argument bounds their number. -/
def dropColons : Nat → Text → Text
  | 0, text => text
  | n + 1, text =>
    match text.before? [':', ':'] with
    | some text => dropColons n text
    | none => text

/-- The import of `names` from `raw`, on a given line. A star at the end of the source brings in
everything. -/
def importOf (raw : Text) (names : Option Text) (line : Nat) : ImportDecl :=
  let (kind, names) := (names.map importNames).getD (.whole, [])
  match (raw.before? ['.', '*']).orElse fun _ => raw.before? [':', ':', '*'] with
  | some source => ⟨String.ofList source, .wildcard, names, line⟩
  | none => ⟨String.ofList (dropColons raw.length raw), kind, names, line⟩

/-- The imports found so far, the latest first. A source counts once on a line. -/
structure GatheredImports where
  seen : List (Text × Nat)
  found : List ImportDecl

/-- Adds the import of one match. -/
def Source.gatherImport (source : Source) (gathered : GatheredImports) (captures : Captures) :
    GatheredImports :=
  match captures.get? "source" with
  | none => gathered
  | some capture =>
    let line := Text.lineAt source.starts capture.offset
    if gathered.seen.contains (capture.text, line) then gathered
    else
      ⟨(capture.text, line) :: gathered.seen,
        importOf capture.text ((captures.get? "names").map (·.text)) line :: gathered.found⟩

/-- The imports that patterns find, in the order of their lines. -/
def Source.imports (source : Source) (patterns : List Regex.Pattern) : List ImportDecl :=
  let captures := patterns.flatMap fun pattern => findAll pattern source.text
  (captures.foldl source.gatherImport ⟨[], []⟩).found.reverse.mergeSort
    fun a b => a.line ≤ b.line

/-! ## Outlines -/

/-- What a family finds. -/
structure Findings where
  functions : List FunctionDecl
  classes : List ClassDecl
  imports : List ImportDecl

/-- What a family of patterns finds in a text. A name that was found as a function on a line is no
class there. -/
def Source.findings (source : Source) (family : Family) : Findings :=
  let functions := source.declarations reservedNames family.functions []
  let classes := source.declarations [] family.classes functions.seen
  { functions := functions.found.map fun d => ⟨d.name, d.line, 1, d.exported⟩
    classes := classes.found.map fun d => ⟨d.name, [], d.line, d.exported⟩
    imports := source.imports family.imports }

/-- The outline of findings. A function counts one and a class two towards the complexity. -/
def Findings.outline (findings : Findings) : Outline where
  functions := findings.functions
  classes := findings.classes
  imports := findings.imports
  complexity := 1 + findings.functions.length + 2 * findings.classes.length
  summary := some (.obj
    [("kind", .str "heuristic"), ("functions", .ofNat findings.functions.length),
      ("classes", .ofNat findings.classes.length),
      ("imports", .ofNat findings.imports.length)])

/-- The outline of a text by patterns. -/
def extract (text : Text) (language : Language) : Outline :=
  let source : Source := ⟨language, text, text.lineStarts⟩
  let own := source.findings (.ofLanguage language)
  if own.functions.isEmpty && own.classes.isEmpty then
    let generic := source.findings .generic
    let imports := if own.imports.isEmpty then generic.imports else own.imports
    Findings.outline { generic with imports := imports }
  else own.outline

end CodeAtlas.Sketch
