import CodeAtlas.Config.Basic
import CodeAtlas.Json
import CodeAtlas.Toml.Reader

/-! Configurations as TOML documents and as JSON records. Unknown keys of a document are passed
over. -/

namespace CodeAtlas.Config

/-! ## Reading -/

abbrev Settings := String → Option Toml

/-- A setting that may be missing. -/
def optional? {α : Type} (read : Toml → Option α) (settings : Settings) (key : String) :
    Option (Option α) :=
  match settings key with
  | none => some none
  | some value => (read value).map some

/-- A list that is empty if it is missing. -/
def list? (settings : Settings) (key : String) : Option (List String) :=
  (optional? Toml.strings? settings key).map (·.getD [])

def Analysis.ofToml? (value : Toml) : Option Analysis := do
  let settings ← value.record?
    ["enabled", "supported_languages", "exclude_patterns", "max_file_size", "threads"]
  return ⟨← optional? Toml.bool? settings "enabled", ← list? settings "supported_languages",
    ← list? settings "exclude_patterns", ← optional? Toml.nat? settings "max_file_size",
    ← optional? Toml.nat? settings "threads"⟩

def Cache.ofToml? (value : Toml) : Option Cache := do
  let settings ← value.record? ["enabled", "max_age", "max_size", "directory"]
  return ⟨← optional? Toml.bool? settings "enabled", ← optional? Toml.str? settings "max_age",
    ← optional? Toml.nat? settings "max_size", ← optional? Toml.str? settings "directory"⟩

def Parser.ofToml? (value : Toml) : Option Parser := do
  let settings ← value.record?
    ["primary_timeout_ms", "recovery_budget_ms", "fallback_budget_ms"]
  return ⟨← optional? Toml.nat? settings "primary_timeout_ms",
    ← optional? Toml.nat? settings "recovery_budget_ms",
    ← optional? Toml.nat? settings "fallback_budget_ms"⟩

def ofToml? (value : Toml) : Option Config := do
  let settings ← value.record? ["analysis", "cache", "parser"]
  return ⟨(← optional? Analysis.ofToml? settings "analysis").getD unset.analysis,
    (← optional? Cache.ofToml? settings "cache").getD unset.cache,
    (← optional? Parser.ofToml? settings "parser").getD unset.parser⟩

/-- The configuration that a document describes, without validation. -/
def read? (document : Text) : Option Config :=
  (Toml.read? document).bind ofToml?

/-- The valid configuration that a document describes. -/
def ofDocument (document : Text) : Except ConfigError Config :=
  match read? document with
  | none => .error (.malformed "<string>" "")
  | some config => config.validate.map fun _ => config

/-! ## Writing -/

/-- The written form of a whole number, which has at most 63 bits. -/
def writeNat? (n : Nat) : Option Text :=
  if n < Json.signedLimit then some (Nat.toDigits 10 n) else none

def writeBool (b : Bool) : Text :=
  (if b then "true" else "false").toList

/-- The written form of a list of strings; one with several strings has each on its own line. -/
def writeList (items : List String) : Text :=
  let quoted := items.map fun item => Toml.quote item.toList
  match quoted with
  | [] => ['[', ']']
  | [item] => '[' :: item ++ [']']
  | items => "[\n".toList ++ (items.flatMap fun item => "    ".toList ++ item ++ ",\n".toList) ++
    [']']

def line (key : String) (value : Text) : Text :=
  key.toList ++ " = ".toList ++ value ++ ['\n']

/-- A line for a setting that may be missing. -/
def optionalLine {α : Type} (key : String) (write : α → Text) : Option α → Text
  | none => []
  | some value => line key (write value)

/-- A line for a number that may be missing. -/
def numberLine? (key : String) : Option Nat → Option Text
  | none => some []
  | some n => (writeNat? n).map (line key)

def writeString (s : String) : Text := Toml.quote s.toList

def Analysis.write? (a : Analysis) : Option Text := do
  return "[analysis]\n".toList ++ optionalLine "enabled" writeBool a.enabled ++
    line "supported_languages" (writeList a.languages) ++
    line "exclude_patterns" (writeList a.exclude) ++
    (← numberLine? "max_file_size" a.maxFileSize) ++ (← numberLine? "threads" a.threads)

def Cache.write? (c : Cache) : Option Text := do
  return "[cache]\n".toList ++ optionalLine "enabled" writeBool c.enabled ++
    optionalLine "max_age" writeString c.maxAge ++ (← numberLine? "max_size" c.maxSize) ++
    optionalLine "directory" writeString c.directory

def Parser.write? (p : Parser) : Option Text := do
  return "[parser]\n".toList ++ (← numberLine? "primary_timeout_ms" p.primaryTimeout) ++
    (← numberLine? "recovery_budget_ms" p.recoveryBudget) ++
    (← numberLine? "fallback_budget_ms" p.fallbackBudget)

/-- The document of a configuration. There is none if a number has more than 63 bits. -/
def write? (config : Config) : Option Text := do
  return (← config.analysis.write?) ++ ['\n'] ++ (← config.cache.write?) ++ ['\n'] ++
    (← config.parser.write?)

/-! ## Records -/

def toJson (config : Config) : Json :=
  let a := config.analysis
  let c := config.cache
  let p := config.parser
  .obj [("analysis", .obj [("enabled", .ofOption .bool a.enabled),
      ("supported_languages", .strs a.languages), ("exclude_patterns", .strs a.exclude),
      ("max_file_size", .ofOption .ofNat a.maxFileSize), ("threads", .ofOption .ofNat a.threads)]),
    ("cache", .obj [("enabled", .ofOption .bool c.enabled), ("max_age", .ofOption .str c.maxAge),
      ("max_size", .ofOption .ofNat c.maxSize), ("directory", .ofOption .str c.directory)]),
    ("parser", .obj [("primary_timeout_ms", .ofOption .ofNat p.primaryTimeout),
      ("recovery_budget_ms", .ofOption .ofNat p.recoveryBudget),
      ("fallback_budget_ms", .ofOption .ofNat p.fallbackBudget)])]

end CodeAtlas.Config
