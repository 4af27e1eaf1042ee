import CodeAtlas.Json

/-! Events that an analysis tells its observers, and the list of observers. -/

namespace CodeAtlas

/-- Something that happened during an analysis. -/
inductive Event where
  | analysisStarted (root : Option String) (fileCount : Nat)
  | analysisComplete (files nodes edges crossLanguageEdges : Nat)
  | fileParsed (file strategy : String) (fromFallback : Bool) (confidence : Binary)
  | parseFailed (file category message : String)
  | errorRecovered (file category strategy : String) (confidence : Binary)
  | fallbackUsed (file language strategy : String)
  | emptyResult (file error : String)
  | cacheHit (file branch : String)
  | cacheMiss (file branch : String)
  | patternDetected (patternType : String) (confidence : Fixed) (nodes : List String)
  | antiPatternDetected (patternType severity : String) (nodes : List String)
  | errorReported (message errorCode : String)
  deriving Repr, DecidableEq

namespace Event

/-- The name of the kind of event. -/
def name : Event → String
  | analysisStarted .. => "analysis_started"
  | analysisComplete .. => "analysis_complete"
  | fileParsed .. => "file_parsed"
  | parseFailed .. => "parse_failed"
  | errorRecovered .. => "error_recovered"
  | fallbackUsed .. => "fallback_used"
  | emptyResult .. => "empty_result"
  | cacheHit .. => "cache_hit"
  | cacheMiss .. => "cache_miss"
  | patternDetected .. => "pattern_detected"
  | antiPatternDetected .. => "anti_pattern_detected"
  | errorReported .. => "error"

/-- What an event says beside its name. -/
def payload : Event → List (String × Json)
  | analysisStarted root fileCount =>
    [("has_root", .bool root.isSome), ("file_count", .ofNat fileCount)]
  | analysisComplete files nodes edges crossLanguageEdges =>
    [("files", .ofNat files), ("nodes", .ofNat nodes), ("edges", .ofNat edges),
      ("cross_language_edges", .ofNat crossLanguageEdges)]
  | fileParsed file strategy fromFallback confidence =>
    [("file", .str file), ("strategy", .str strategy), ("from_fallback", .bool fromFallback),
      ("confidence", .binary confidence)]
  | parseFailed file category message =>
    [("file", .str file), ("category", .str category), ("message", .str message)]
  | errorRecovered file category strategy confidence =>
    [("file", .str file), ("category", .str category), ("strategy", .str strategy),
      ("confidence", .binary confidence)]
  | fallbackUsed file language strategy =>
    [("file", .str file), ("language", .str language), ("strategy", .str strategy)]
  | emptyResult file error => [("file", .str file), ("error", .str error)]
  | cacheHit file branch => [("file", .str file), ("branch", .str branch)]
  | cacheMiss file branch => [("file", .str file), ("branch", .str branch)]
  | patternDetected patternType confidence nodes =>
    [("pattern_type", .str patternType), ("confidence", .real confidence),
      ("nodes", .strs nodes)]
  | antiPatternDetected patternType severity nodes =>
    [("pattern_type", .str patternType), ("severity", .str severity), ("nodes", .strs nodes)]
  | errorReported message errorCode =>
    [("message", .str message), ("error_code", .str errorCode)]

def toJson (event : Event) : Json :=
  .obj (("event", .str event.name) :: event.payload)

/-- The file that an event of a single file's analysis is about. -/
def file? : Event → Option String
  | fileParsed file .. | parseFailed file .. | errorRecovered file .. | fallbackUsed file ..
  | emptyResult file .. | cacheHit file .. | cacheMiss file .. => some file
  | _ => none

end Event

/-- An observer with its own state. One that fails on an event gives no new state. -/
structure Observer (σ : Type) where
  state : σ
  receive : Event → σ → Option σ

/-- The observers of an analysis in the order in which they are told. -/
structure Dispatcher (σ : Type) where
  observers : List (Observer σ)

namespace Dispatcher

variable {σ : Type}

/-- Tells every observer; one that fails keeps its state and holds up none of the others. -/
def emit (event : Event) (dispatcher : Dispatcher σ) : Dispatcher σ where
  observers := dispatcher.observers.map fun observer =>
    { observer with state := (observer.receive event observer.state).getD observer.state }

def size (dispatcher : Dispatcher σ) : Nat := dispatcher.observers.length

def describe (dispatcher : Dispatcher σ) : String :=
  "EventDispatcher \x7b handlers: " ++ toString dispatcher.size ++ " \x7d"

end Dispatcher

end CodeAtlas
