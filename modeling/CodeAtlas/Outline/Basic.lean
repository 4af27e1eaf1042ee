import CodeAtlas.Language

/-! The outline of a source file: the functions, classes and imports found in it, an estimate of its
complexity, and a summary of where the facts came from. -/

namespace CodeAtlas

/-- A function or method, with the number of its first line. -/
structure FunctionDecl where
  name : String
  line : Nat
  complexity : Nat
  exported : Bool
  deriving Repr, DecidableEq, Inhabited

/-- A class, or a declaration that counts as one. -/
structure ClassDecl where
  name : String
  methods : List String
  line : Nat
  exported : Bool
  deriving Repr, DecidableEq, Inhabited

/-- What an import brings in. -/
inductive ImportKind where
  | whole
  | named
  | wildcard
  | sideEffect
  deriving Repr, DecidableEq, Inhabited

namespace ImportKind

def all : List ImportKind := [whole, named, wildcard, sideEffect]

def tag : ImportKind → String
  | whole => "module"
  | named => "named"
  | wildcard => "wildcard"
  | sideEffect => "side_effect"

def ofTag? (tag : String) : Option ImportKind :=
  all.find? fun kind => kind.tag == tag

end ImportKind

/-- An import of `names` from `source`. -/
structure ImportDecl where
  source : String
  kind : ImportKind
  names : List String
  line : Nat
  deriving Repr, DecidableEq, Inhabited

/-- What was found in one file. -/
structure Outline where
  functions : List FunctionDecl
  classes : List ClassDecl
  imports : List ImportDecl
  complexity : Nat
  summary : Option Json
  deriving Inhabited

namespace Outline

/-- Nothing was found. -/
def empty : Outline := ⟨[], [], [], 0, none⟩

/-- No function, class or import was found. -/
def isBare (outline : Outline) : Bool :=
  outline.functions.isEmpty && outline.classes.isEmpty && outline.imports.isEmpty

/-- The names of exported functions, then of exported classes. -/
def exportedNames (functions : List FunctionDecl) (classes : List ClassDecl) : List String :=
  (functions.filter (·.exported)).map (·.name) ++ (classes.filter (·.exported)).map (·.name)

end Outline

end CodeAtlas
