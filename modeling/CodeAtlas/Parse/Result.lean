import CodeAtlas.Digest
import CodeAtlas.Outline.Record

/-! The result of parsing one file. There always is one; how far it is to be trusted shows in its
strategy, confidence, warning and error. -/

namespace CodeAtlas

/-- How a repair led to a result. -/
structure RecoveryInfo where
  category : String
  strategy : String
  changes : List String
  confidence : Binary
  fixedContent : Option String
  deriving Repr, DecidableEq

/-- The result of parsing one file. -/
structure ParseResult where
  file : String
  language : Language
  contentHash : Nat
  success : Bool
  summary : Option Json
  functions : List FunctionDecl
  classes : List ClassDecl
  imports : List ImportDecl
  complexity : Nat
  error : Option String
  fromFallback : Bool
  strategy : String
  warning : Option String
  confidence : Binary
  recovery : Option RecoveryInfo

namespace ParseResult

/-- The strategy of a result that a parser made. -/
def primaryStrategy : String := "primary"

def emptyStrategy : String := "empty"

/-- The result of a parser. -/
def ofPrimary (file : String) (language : Language) (contentHash : Nat) (outline : Outline) :
    ParseResult where
  file := file
  language := language
  contentHash := contentHash
  success := true
  summary := outline.summary
  functions := outline.functions
  classes := outline.classes
  imports := outline.imports
  complexity := max outline.complexity 1
  error := none
  fromFallback := false
  strategy := primaryStrategy
  warning := none
  confidence := .one
  recovery := none

/-- The result where nothing could be found out. -/
def ofNothing (file : String) (language : Language) (contentHash : Nat)
    (error : Option String) : ParseResult where
  file := file
  language := language
  contentHash := contentHash
  success := true
  summary := none
  functions := []
  classes := []
  imports := []
  complexity := 1
  error := error
  fromFallback := true
  strategy := emptyStrategy
  warning := some "all parsing strategies failed; returning empty structure"
  confidence := .zero
  recovery := none

/-- No parser made the result. -/
def isDegraded (result : ParseResult) : Bool :=
  result.strategy != primaryStrategy

def exportedNames (result : ParseResult) : List String :=
  Outline.exportedNames result.functions result.classes

end ParseResult

/-! ## Records -/

namespace RecoveryInfo

def toJson (info : RecoveryInfo) : Json :=
  .obj [("category", .str info.category), ("strategy", .str info.strategy),
    ("changes", .strs info.changes), ("confidence", .binary info.confidence),
    ("fixed_content", .ofOption .str info.fixedContent)]

def ofJson? (value : Json) : Option RecoveryInfo := do
  let fields ← value.record? ["category", "strategy", "changes", "confidence", "fixed_content"]
  return ⟨← fields.get "category" Json.str?, ← fields.get "strategy" Json.str?,
    ← fields.get "changes" Json.strings?, ← fields.get "confidence" Json.binary?,
    ← fields.opt "fixed_content" Json.str?⟩

end RecoveryInfo

namespace ParseResult

/-- The members of a result's record, with the digest in a given form. -/
def members (contentHash : Json) (r : ParseResult) : List (String × Json) :=
  [("file", .str r.file), ("language", .ofLanguage r.language), ("content_hash", contentHash),
    ("success", .bool r.success), ("ast", r.summary.getD .null),
    ("functions", .arr (r.functions.map FunctionDecl.toJson)),
    ("classes", .arr (r.classes.map ClassDecl.toJson)),
    ("imports", .arr (r.imports.map ImportDecl.toJson)), ("complexity", .ofNat r.complexity),
    ("error", .ofOption .str r.error), ("from_fallback", .bool r.fromFallback),
    ("strategy", .str r.strategy), ("warning", .ofOption .str r.warning),
    ("confidence", .binary r.confidence), ("recovery", .ofOption RecoveryInfo.toJson r.recovery)]

/-- A result for readers. The digest is written as a text, because it may exceed what a reader of
numbers can hold. -/
def toJson (r : ParseResult) : Json :=
  .obj (r.members (.str (toString r.contentHash)))

def toRecord (r : ParseResult) : Json :=
  .obj (r.members (.ofNat r.contentHash) ++ [("parse_time_us", .ofNat 0)])

/-- The names of the fields of a stored record, in order. -/
def fieldNames : List String :=
  ["file", "language", "content_hash", "success", "ast", "functions", "classes", "imports",
    "complexity", "error", "from_fallback", "strategy", "warning", "confidence", "recovery",
    "parse_time_us"]

/-- Reads a stored record. The time that parsing took has to be there and is passed over. -/
def ofJson? (value : Json) : Option ParseResult := do
  let fields ← value.record? fieldNames
  let _ ← fields.get "parse_time_us" Json.word64?
  return {
    file := ← fields.get "file" Json.str?
    language := ← fields.get "language" Json.language?
    contentHash := ← fields.get "content_hash" Json.word64?
    success := ← fields.get "success" Json.bool?
    summary := ← fields.opt "ast" some
    functions := ← fields.get "functions" (Json.list? FunctionDecl.ofJson?)
    classes := ← fields.get "classes" (Json.list? ClassDecl.ofJson?)
    imports := ← fields.get "imports" (Json.list? ImportDecl.ofJson?)
    complexity := ← fields.get "complexity" Json.word32?
    error := ← fields.opt "error" Json.str?
    fromFallback := ← fields.get "from_fallback" Json.bool?
    strategy := ← fields.get "strategy" Json.str?
    warning := ← fields.opt "warning" Json.str?
    confidence := ← fields.get "confidence" Json.binary?
    recovery := ← fields.opt "recovery" RecoveryInfo.ofJson? }

end ParseResult

end CodeAtlas
