import CodeAtlas.Language

/-! Hints for sketching: which method succeeded last on a text of a language and of about the same
size. A hint never puts another method in front of the patterns. -/

namespace CodeAtlas.Sketch

/-- A method of sketching. -/
inductive Method where
  | regexExtraction
  | contentStatistics
  | minimalStructure
  deriving Repr, DecidableEq, Inhabited

namespace Method

/-- Every method, in the order in which they are tried. -/
def all : List Method := [regexExtraction, contentStatistics, minimalStructure]

def name : Method → String
  | regexExtraction => "regex_extraction"
  | contentStatistics => "content_statistics"
  | minimalStructure => "minimal_structure"

def ofName? (name : String) : Option Method :=
  all.find? fun method => method.name == name

/-- How far an outline made by a method is to be trusted. -/
def confidence : Method → Binary
  | regexExtraction => .ofRatio 5 10
  | contentStatistics => .ofRatio 3 10
  | minimalStructure => .ofRatio 1 10

end Method

/-- The number of binary digits of a size: texts whose sizes have equally many count as similar. -/
def sizeBucket (size : Nat) : Nat :=
  if size = 0 then 0 else size.log2 + 1

/-- What a hint is kept for. -/
structure HintKey where
  language : Language
  bucket : Nat
  deriving Repr, DecidableEq

/-- The hint key of a text of a given size. -/
def HintKey.of (language : Language) (size : Nat) : HintKey :=
  ⟨language, sizeBucket size⟩

/-- The method that succeeded last, for each key; the latest hint stands first. -/
structure Hints where
  entries : List (HintKey × Method)
  deriving Repr, DecidableEq

namespace Hints

def empty : Hints := ⟨[]⟩

/-- The hint for a text of a given size. -/
def get? (hints : Hints) (language : Language) (size : Nat) : Option Method :=
  hints.entries.lookup (.of language size)

/-- The hints with a new one, which replaces the one of the same key. -/
def remember (hints : Hints) (language : Language) (size : Nat) (method : Method) : Hints :=
  let key := HintKey.of language size
  ⟨(key, method) :: hints.entries.filter fun entry => entry.1 ≠ key⟩

/-- The methods to try in order. Where a bare module was the last success the estimate is left
out. -/
def order (hints : Hints) (language : Language) (size : Nat) : List Method :=
  if hints.get? language size = some .minimalStructure then
    [.regexExtraction, .minimalStructure]
  else Method.all

end Hints

end CodeAtlas.Sketch
