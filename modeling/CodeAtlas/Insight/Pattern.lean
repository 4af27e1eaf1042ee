import CodeAtlas.Fixed
import CodeAtlas.Json

/-! What is read off a dependency graph: patterns of its architecture, patterns to be avoided, and
recommendations. -/

namespace CodeAtlas

/-- A kind of pattern. -/
inductive PatternType where
  | microservices
  | apiLayer
  | sharedLibrary
  | communication
  | cycle
  deriving Repr, DecidableEq

def PatternType.tag : PatternType → String
  | microservices => "microservices"
  | apiLayer => "api-layer"
  | sharedLibrary => "shared-library"
  | communication => "communication-pattern"
  | cycle => "cross-language-circular-dependency"

/-- A level of severity or of priority. -/
inductive Level where
  | high
  | medium
  | low
  deriving Repr, DecidableEq

namespace Level

/-- The levels from the most to the least urgent. -/
def all : List Level := [high, medium, low]

def tag : Level → String
  | high => "high"
  | medium => "medium"
  | low => "low"

end Level

/-- A pattern with the files that take part in it. -/
structure Pattern where
  type : PatternType
  confidence : Fixed
  description : String
  advice : String
  nodes : List String
  deriving Repr, DecidableEq

namespace Pattern

/-- The members of a pattern's record. -/
def fields (p : Pattern) : List (String × Json) :=
  [("pattern_type", .str p.type.tag), ("confidence", .real p.confidence),
    ("description", .str p.description), ("recommendation", .str p.advice),
    ("nodes", .strs p.nodes)]

def toJson (p : Pattern) : Json := .obj p.fields

end Pattern

/-- A pattern to be avoided. -/
structure AntiPattern where
  pattern : Pattern
  severity : Level
  deriving Repr, DecidableEq

def AntiPattern.toJson (a : AntiPattern) : Json :=
  .obj (("severity", .str a.severity.tag) :: a.pattern.fields)

/-- The patterns of a graph. -/
structure Findings where
  patterns : List Pattern
  antiPatterns : List AntiPattern
  deriving Repr, DecidableEq

/-- Something that is worth doing. -/
structure Recommendation where
  priority : Level
  category : String
  message : String
  nodes : List String
  deriving Repr, DecidableEq

def Recommendation.toJson (r : Recommendation) : Json :=
  .obj [("priority", .str r.priority.tag), ("category", .str r.category),
    ("message", .str r.message), ("nodes", .strs r.nodes)]

end CodeAtlas
