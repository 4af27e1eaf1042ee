import CodeAtlas.Duration
import CodeAtlas.Error
import CodeAtlas.Language
import CodeAtlas.Path

/-! The configuration of an analysis. Every setting may be missing and then has a default. -/

namespace CodeAtlas

/-- Which files are analysed. -/
structure Config.Analysis where
  enabled : Option Bool
  languages : List String
  exclude : List String
  maxFileSize : Option Nat
  threads : Option Nat
  deriving Repr, DecidableEq, Inhabited

/-- How results are cached. -/
structure Config.Cache where
  enabled : Option Bool
  maxAge : Option String
  maxSize : Option Nat
  directory : Option String
  deriving Repr, DecidableEq, Inhabited

/-- How long the stages of parsing may take, in milliseconds. -/
structure Config.Parser where
  primaryTimeout : Option Nat
  recoveryBudget : Option Nat
  fallbackBudget : Option Nat
  deriving Repr, DecidableEq, Inhabited

/-- All settings. -/
structure Config where
  analysis : Config.Analysis
  cache : Config.Cache
  parser : Config.Parser
  deriving Repr, DecidableEq, Inhabited

namespace Config

/-- Nothing is set. -/
def unset : Config :=
  ⟨⟨none, [], [], none, none⟩, ⟨none, none, none, none⟩, ⟨none, none, none⟩⟩

/-! ## Effective settings -/

namespace Analysis

def isEnabled (analysis : Analysis) : Bool := analysis.enabled.getD true

/-- The largest size of a file in bytes. -/
def sizeLimit (analysis : Analysis) : Nat := analysis.maxFileSize.getD 1048576

/-- A language with that name or identifier is analysed, in any case of its letters. No list stands
for every language. -/
def allows (analysis : Analysis) (name : String) : Bool :=
  analysis.languages.isEmpty ||
    analysis.languages.any fun allowed => Language.lowered allowed == Language.lowered name

end Analysis

namespace Cache

def isEnabled (cache : Cache) : Bool := cache.enabled.getD true

/-- How many entries are kept. -/
def capacity (cache : Cache) : Nat := cache.maxSize.getD 10000

/-- How old an entry may become. -/
def lifetime (cache : Cache) : Except ConfigError Duration :=
  let written := cache.maxAge.getD "2h"
  match Duration.read written with
  | .ok age => .ok age
  | .error e => .error (.invalidValue "cache.max_age" (e.message written))

/-- The directory of the cache as seen from the root of the project. -/
def folder (cache : Cache) : String := cache.directory.getD ".polyglot/cache"

/-- The directory of the cache of the project at `root`. -/
def location (cache : Cache) (root : String) : String :=
  String.ofList (Path.append root.toList cache.folder.toList)

end Cache

namespace Parser

def timeoutMillis (parser : Parser) : Nat := parser.primaryTimeout.getD 5000

def recoveryMillis (parser : Parser) : Nat := parser.recoveryBudget.getD 50

def fallbackMillis (parser : Parser) : Nat := parser.fallbackBudget.getD 100

end Parser

/-! ## Validation -/

/-- A setting must not be zero. -/
def positive (field : String) (setting : Option Nat) : Except ConfigError Unit :=
  if setting = some 0 then .error (.validationFailed field "must be greater than 0") else .ok ()

/-- The first setting that cannot be used is an error. -/
def validate (config : Config) : Except ConfigError Unit := do
  let _ ← config.cache.lifetime
  positive "cache.max_size" config.cache.maxSize
  positive "analysis.max_file_size" config.analysis.maxFileSize
  positive "parser.primary_timeout_ms" config.parser.primaryTimeout

end Config

end CodeAtlas
