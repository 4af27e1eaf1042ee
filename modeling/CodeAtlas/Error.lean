/-! What can go wrong in the parts of an analysis: each error is a cause, with a message for readers
and a stable code for programs. -/

namespace CodeAtlas

/-- Why a file could not be parsed. -/
inductive ParseError where
  | grammarNotFound (language : String)
  | badSyntax (path message : String)
  | timeout (path : String) (millis : Nat)
  | unsupportedLanguage (language : String)
  | encoding (path message : String)
  | resource (path message : String)
  | panicked (path : String)
  deriving Repr, DecidableEq

/-- Why a project's files could not be listed. -/
inductive ScanError where
  | rootNotFound (path : String)
  | notADirectory (path : String)
  | unreadable (path message : String)
  | invalidPattern (pattern message : String)
  deriving Repr, DecidableEq

/-- Why a cached result could not be stored or found. -/
inductive CacheError where
  | file (key message : String)
  | serialization (key message : String)
  | database (message : String)
  | lockPoisoned
  deriving Repr, DecidableEq

/-- Why a configuration was refused. -/
inductive ConfigError where
  | fileNotFound (path : String)
  | malformed (path message : String)
  | validationFailed (field message : String)
  | invalidValue (field message : String)
  deriving Repr, DecidableEq

/-- Why an analysis, or a part of one, failed. -/
inductive AnalysisError where
  | scan (cause : ScanError)
  | parse (cause : ParseError)
  | cache (cause : CacheError)
  | config (cause : ConfigError)
  | fileRead (path message : String)
  | cancelled
  deriving Repr, DecidableEq

/-- A message with its code in brackets before it. -/
def coded (code message : String) : String :=
  "[" ++ code ++ "] " ++ message

namespace ParseError

def message : ParseError → String
  | grammarNotFound language => "Grammar not found for language: " ++ language
  | badSyntax path message => "Syntax error in " ++ path ++ ": " ++ message
  | timeout path millis => "Parse timeout for " ++ path ++ " after " ++ toString millis ++ "ms"
  | unsupportedLanguage language => "No parser registered for language: " ++ language
  | encoding path message => "Invalid encoding in " ++ path ++ ": " ++ message
  | resource path message => "Resource limit exceeded parsing " ++ path ++ ": " ++ message
  | panicked path => "Parser panicked on " ++ path

def code : ParseError → String
  | unsupportedLanguage _ => "UNSUPPORTED_LANGUAGE"
  | timeout _ _ => "PARSE_TIMEOUT"
  | _ => "PARSE_ERROR"

/-- The name of the kind of error. -/
def kind : ParseError → String
  | grammarNotFound _ => "GrammarNotFound"
  | badSyntax _ _ => "Syntax"
  | timeout _ _ => "Timeout"
  | unsupportedLanguage _ => "UnsupportedLanguage"
  | encoding _ _ => "Encoding"
  | resource _ _ => "Resource"
  | panicked _ => "Panicked"

/-- The error of a given kind with the details that it holds. -/
def ofKind? (kind language path message : String) (millis : Nat) : Option ParseError :=
  [grammarNotFound language, badSyntax path message, timeout path millis,
    unsupportedLanguage language, encoding path message, resource path message,
    panicked path].find? fun e => e.kind == kind

end ParseError

namespace ScanError

def message : ScanError → String
  | rootNotFound path => "Project root not found: " ++ path
  | notADirectory path => "Project root is not a directory: " ++ path
  | unreadable path message => "I/O error at " ++ path ++ ": " ++ message
  | invalidPattern pattern message => "Invalid exclude pattern " ++ pattern ++ ": " ++ message

/-- The name of the kind of error. -/
def kind : ScanError → String
  | rootNotFound _ => "RootNotFound"
  | notADirectory _ => "NotADirectory"
  | unreadable _ _ => "Io"
  | invalidPattern _ _ => "InvalidPattern"

/-- The error of a given kind with the details that it holds. -/
def ofKind? (kind path message pattern : String) : Option ScanError :=
  [rootNotFound path, notADirectory path, unreadable path message,
    invalidPattern pattern message].find? fun e => e.kind == kind

end ScanError

namespace CacheError

def message : CacheError → String
  | file key message => "Cache I/O error for " ++ key ++ ": " ++ message
  | serialization key message =>
    "Cache entry " ++ key ++ " could not be (de)serialized: " ++ message
  | database message => "Cache database error: " ++ message
  | lockPoisoned => "Cache lock poisoned"

/-- The name of the kind of error. -/
def kind : CacheError → String
  | file _ _ => "Io"
  | serialization _ _ => "Serialization"
  | database _ => "Database"
  | lockPoisoned => "LockPoisoned"

/-- The error of a given kind with the details that it holds. -/
def ofKind? (kind key message : String) : Option CacheError :=
  [file key message, serialization key message, database message, lockPoisoned].find?
    fun e => e.kind == kind

end CacheError

namespace ConfigError

def message : ConfigError → String
  | fileNotFound path => "Config file not found: " ++ path
  | malformed path message => "Config parse error in " ++ path ++ ": " ++ message
  | validationFailed field message =>
    "Config validation failed for " ++ field ++ ": " ++ message
  | invalidValue field message => "Invalid config value for " ++ field ++ ": " ++ message

/-- The name of the kind of error. -/
def kind : ConfigError → String
  | fileNotFound _ => "FileNotFound"
  | malformed _ _ => "ParseError"
  | validationFailed _ _ => "ValidationFailed"
  | invalidValue _ _ => "InvalidValue"

/-- The error of a given kind with the details that it holds. -/
def ofKind? (kind path message field : String) : Option ConfigError :=
  [fileNotFound path, malformed path message, validationFailed field message,
    invalidValue field message].find? fun e => e.kind == kind

end ConfigError

namespace AnalysisError

def message : AnalysisError → String
  | scan cause => "Scan error: " ++ cause.message
  | parse cause => "Parse error: " ++ cause.message
  | cache cause => "Cache error: " ++ cause.message
  | config cause => "Configuration error: " ++ cause.message
  | fileRead path message => "Failed to read " ++ path ++ ": " ++ message
  | cancelled => "Analysis cancelled"

def code : AnalysisError → String
  | scan _ => "SCAN_ERROR"
  | parse cause => cause.code
  | cache _ => "CACHE_ERROR"
  | config _ => "CONFIG_ERROR"
  | fileRead _ _ => "SCAN_ERROR"
  | cancelled => "CANCELLED"

/-- The name of the kind of error. -/
def kind : AnalysisError → String
  | scan _ => "Scan"
  | parse _ => "Parse"
  | cache _ => "Cache"
  | config _ => "Config"
  | fileRead _ _ => "FileRead"
  | cancelled => "Cancelled"

/-- The message of the part that failed, if the error came from one. -/
def cause? : AnalysisError → Option String
  | scan cause => some cause.message
  | parse cause => some cause.message
  | cache cause => some cause.message
  | config cause => some cause.message
  | fileRead _ _ | cancelled => none

end AnalysisError

end CodeAtlas
