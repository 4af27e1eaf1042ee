import CodeAtlas.Analysis.Report
import CodeAtlas.Interface.Detector
import CodeAtlas.Parse.Orchestrator

/-! The parts of an analysis. A file is parsed through the cache and searched for interfaces. -/

namespace CodeAtlas

/-- The root of a project: its written form and the way to it. -/
structure ProjectRoot where
  path : String
  steps : Steps
  deriving Repr, DecidableEq

/-- Where a path leads from the root. -/
def ProjectRoot.locate (root : ProjectRoot) (path : RawText) : Steps :=
  Disk.stepsFrom root.steps path

/-- The parts of an analysis. -/
structure Analyzer (σ : Type) where
  root : ProjectRoot
  config : Config
  orchestrator : Orchestrator
  cache : Cache σ
  scope : Scope
  interfaces : Interface.Registry
  resolver : Graph.Resolver

/-- What an analysis keeps from one run to the next. -/
structure Session (σ : Type) where
  cache : CacheState σ
  hints : Sketch.Hints

namespace Analyzer

variable {σ : Type}

/-- Nothing was done yet. -/
def start (place : σ) : Session σ := ⟨.fresh place, .empty⟩

/-- Parses a file through the cache. The clock is looked at once for the lookup and once for
storing the result. -/
def parseFile (analyzer : Analyzer σ) (lookedUp stored : Nat) (file : SourceFile)
    (content : Bytes) (s : Session σ) : Parsing × Session σ :=
  let (found, cache) :=
    analyzer.cache.get lookedUp analyzer.scope file.relativePath content s.cache
  match found.result with
  | some result => (⟨result, found.events⟩, { s with cache := cache })
  | none =>
    let (parsing, hints) :=
      analyzer.orchestrator.parse s.hints ⟨file.relativePath, file.language, content⟩
    let (_, cache) :=
      analyzer.cache.set stored analyzer.scope file.relativePath content parsing.result cache
    (⟨parsing.result, found.events ++ parsing.events⟩, ⟨cache, hints⟩)

/-- The interfaces of a parsed file. -/
def interfacesOf (analyzer : Analyzer σ) (file : SourceFile) (content : Bytes)
    (result : ParseResult) : List InterfaceDescriptor :=
  analyzer.interfaces.extract ⟨file.relativePath, file.language, Utf8.decode content,
    result.imports.map (·.source)⟩

end Analyzer

end CodeAtlas
