import CodeAtlas.Config.Basic
import CodeAtlas.Event
import CodeAtlas.Parse.Parser
import CodeAtlas.Parse.Result
import CodeAtlas.Repair.Engine
import CodeAtlas.Sketch.Attempt

/-! Parsing that never fails: the parser of the language, then repair of the content, then a sketch,
then an empty result. Each step down shows in the result and is told as an event. -/

namespace CodeAtlas

open Repair (Budget Fault Recovery)
open Sketch (Hints Sketched)

/-- The parsers and the time that each stage may take. -/
structure Orchestrator where
  registry : Registry
  timeoutMillis : Nat
  repairBudget : Repair.Strategy → Budget
  sketchBudget : Budget

/-- A result with the events that led to it. -/
structure Parsing where
  result : ParseResult
  events : List Event

/-- The file that is parsed. -/
structure Job where
  file : String
  language : Language
  content : Bytes

namespace Job

def contentHash (job : Job) : Nat := (Digest.narrow job.content).toNat

end Job

/-- What the parser said, without the path of the file, with the kind of failure in front. -/
def classificationText : ParseError → String
  | .badSyntax _ message => "syntax error: " ++ message
  | .encoding _ message => "encoding error: " ++ message
  | .resource _ message => "resource error: " ++ message
  | .timeout _ millis => "timeout after " ++ toString millis ++ "ms"
  | .panicked _ => "parser panicked"
  | .grammarNotFound language => "grammar not found for " ++ language
  | .unsupportedLanguage language => "no parser for " ++ language

/-- The kind of failure that a parser's error is on a content. -/
def faultOf (error : ParseError) (content : Bytes) : Fault :=
  Repair.classify (classificationText error) (Utf8.decode content)

/-- The result of a successful repair. Repaired content is sketched by patterns. -/
def repairedResult (job : Job) (error : String) (fault : Fault) (strategy : Repair.Strategy)
    (outcome : Repair.Outcome) : ParseResult :=
  let outline := match outcome.output with
    | .content text => Sketch.extract text job.language
    | .outline outline => outline
  { file := job.file
    language := job.language
    contentHash := job.contentHash
    success := true
    summary := outline.summary
    functions := outline.functions
    classes := outline.classes
    imports := outline.imports
    complexity := max outline.complexity 1
    error := some error
    fromFallback := true
    strategy := strategy.name
    warning := some ("recovered from " ++ fault.tag ++ " via " ++ strategy.name ++
      "; repaired content was not re-validated")
    confidence := outcome.confidence
    recovery := some
      { category := fault.tag
        strategy := strategy.name
        changes := outcome.changes
        confidence := outcome.confidence
        fixedContent := outcome.output.content?.map String.ofList } }

/-- The result of a sketch. -/
def sketchedResult (job : Job) (error : Option String) (sketched : Sketched) : ParseResult where
  file := job.file
  language := job.language
  contentHash := job.contentHash
  success := true
  summary := sketched.outline.summary
  functions := sketched.outline.functions
  classes := sketched.outline.classes
  imports := sketched.outline.imports
  complexity := max sketched.outline.complexity 1
  error := error
  fromFallback := true
  strategy := sketched.method.name
  warning := some ("structure extracted heuristically (" ++ sketched.method.name ++ ")")
  confidence := sketched.confidence
  recovery := none

/-- The result of a sketch alone, or an empty one. -/
def sketchFile (hints : Hints) (budget : Budget) (job : Job) : ParseResult × Hints :=
  match Sketch.attempt hints (Utf8.decode job.content) job.language budget with
  | (some sketched, hints) => (sketchedResult job none sketched, hints)
  | (none, hints) => (.ofNothing job.file job.language job.contentHash none, hints)

namespace Orchestrator

/-- The stages with the times that a configuration sets. -/
def ofConfig (registry : Registry) (settings : Config.Parser) : Orchestrator where
  registry := registry
  timeoutMillis := settings.timeoutMillis
  repairBudget _ := .ofMillis settings.recoveryMillis
  sketchBudget := .ofMillis settings.fallbackMillis

/-- The last two stages: a sketch, or an empty result. -/
def degrade (orchestrator : Orchestrator) (hints : Hints) (job : Job) (error : String) :
    Parsing × Hints :=
  match Sketch.attempt hints (Utf8.decode job.content) job.language
      orchestrator.sketchBudget with
  | (some sketched, hints) =>
    (⟨sketchedResult job (some error) sketched,
      [.fallbackUsed job.file job.language.id sketched.method.name]⟩, hints)
  | (none, hints) =>
    (⟨.ofNothing job.file job.language job.contentHash (some error),
      [.emptyResult job.file error]⟩, hints)

/-- The stages after a failure of the parser. -/
def mend (orchestrator : Orchestrator) (hints : Hints) (job : Job) (error : ParseError) :
    Parsing × Hints :=
  let fault := faultOf error job.content
  let failed := Event.parseFailed job.file fault.tag error.message
  let recovery := Repair.recover fault job.content job.language orchestrator.repairBudget
  match recovery.found with
  | some (strategy, outcome) =>
    (⟨repairedResult job error.message fault strategy outcome,
      [failed, .errorRecovered job.file fault.tag strategy.name outcome.confidence]⟩, hints)
  | none =>
    let (parsing, hints) := orchestrator.degrade hints job error.message
    (⟨parsing.result, failed :: parsing.events⟩, hints)

/-- All stages. A language without a parser goes straight to the sketch, since nothing failed. -/
def stages (orchestrator : Orchestrator) (hints : Hints) (job : Job) (parser : Option Parser) :
    Parsing × Hints :=
  match parser with
  | none =>
    orchestrator.degrade hints job (ParseError.unsupportedLanguage job.language.name).message
  | some parser =>
    match parser.run job.content job.file orchestrator.timeoutMillis with
    | .ok outline =>
      (⟨.ofPrimary job.file job.language job.contentHash outline, []⟩, hints)
    | .error error => orchestrator.mend hints job error

/-- Parses a file with a given parser or none. The last event tells how it was done. -/
def parseWith (orchestrator : Orchestrator) (hints : Hints) (job : Job)
    (parser : Option Parser) : Parsing × Hints :=
  let (parsing, hints) := orchestrator.stages hints job parser
  let result := parsing.result
  let done := Event.fileParsed job.file result.strategy result.fromFallback result.confidence
  (⟨result, parsing.events ++ [done]⟩, hints)

/-- Parses a file with the parser of its language. -/
def parse (orchestrator : Orchestrator) (hints : Hints) (job : Job) : Parsing × Hints :=
  orchestrator.parseWith hints job (orchestrator.registry.get? job.language)

/-- The hints after a result. The method of a sketch is remembered. -/
def learn (job : Job) (result : ParseResult) (hints : Hints) : Hints :=
  match Sketch.Method.ofName? result.strategy with
  | some method => hints.remember job.language (Utf8.decode job.content).size method
  | none => hints

end Orchestrator

end CodeAtlas
