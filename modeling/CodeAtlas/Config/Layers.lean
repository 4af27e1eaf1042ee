import CodeAtlas.Config.Document
import CodeAtlas.Text.Utf8

/-! Layers of configuration, the later ones counting more: the user's file, the project's file,
environment variables, and overrides by the caller. -/

namespace CodeAtlas.Config

/-- What is found at the path of a configuration file. -/
inductive Found where
  | nothing
  | unreadable
  | document (text : Text)

/-- What a file of these bytes counts as. -/
def Found.ofBytes (content : Bytes) : Found :=
  match Utf8.decode? content with
  | some text => .document text
  | none => .unreadable

/-- What the layers are read from. -/
structure Surroundings where
  file : (path : String) → Found
  env : (name : String) → Option String

/-- Settings by the caller. -/
structure Overrides where
  enabled : Option Bool
  cacheEnabled : Option Bool
  cacheMaxAge : Option String
  cacheDirectory : Option String
  threads : Option Nat

/-- The list of the upper layer, unless it is empty. -/
def preferred (lower upper : List String) : List String :=
  if upper.isEmpty then lower else upper

/-- The settings of `upper`, and where it has none those of `lower`. -/
def overlay (lower upper : Config) : Config where
  analysis := {
    enabled := upper.analysis.enabled <|> lower.analysis.enabled
    languages := preferred lower.analysis.languages upper.analysis.languages
    exclude := preferred lower.analysis.exclude upper.analysis.exclude
    maxFileSize := upper.analysis.maxFileSize <|> lower.analysis.maxFileSize
    threads := upper.analysis.threads <|> lower.analysis.threads }
  cache := {
    enabled := upper.cache.enabled <|> lower.cache.enabled
    maxAge := upper.cache.maxAge <|> lower.cache.maxAge
    maxSize := upper.cache.maxSize <|> lower.cache.maxSize
    directory := upper.cache.directory <|> lower.cache.directory }
  parser := {
    primaryTimeout := upper.parser.primaryTimeout <|> lower.parser.primaryTimeout
    recoveryBudget := upper.parser.recoveryBudget <|> lower.parser.recoveryBudget
    fallbackBudget := upper.parser.fallbackBudget <|> lower.parser.fallbackBudget }

/-! ## Layers -/

def home? (around : Surroundings) : Option String :=
  around.env "HOME" <|> around.env "USERPROFILE"

def pathIn (directory file : String) : String :=
  String.ofList (Path.append directory.toList file.toList)

/-- The user's layer. A file that cannot be read is passed over; one that is no configuration is an
error. -/
def userLayer (around : Surroundings) : Except ConfigError Config :=
  match home? around with
  | none => .ok unset
  | some home =>
    let path := pathIn (pathIn home ".polyglot") "config.toml"
    match around.file path with
    | .nothing | .unreadable => .ok unset
    | .document text =>
      match read? text with
      | some config => .ok config
      | none => .error (.malformed path "invalid TOML in user config")

/-- The project's layer. A file that cannot be read is an error. -/
def projectLayer (around : Surroundings) (root : String) : Except ConfigError Config :=
  let path := pathIn root "polyglot.toml"
  match around.file path with
  | .nothing => .ok unset
  | .unreadable => .error (.fileNotFound path)
  | .document text =>
    match read? text with
    | some config => .ok config
    | none => .error (.malformed path "")

/-- A variable that is read as a truth value. -/
def readBool? (written : String) : Option Bool :=
  if written = "true" then some true else if written = "false" then some false else none

/-- A variable that is read as a number of 64 bits. -/
def readNat? (written : String) : Option Nat :=
  Duration.word? written.toList

/-- The layer of environment variables. One that cannot be read does not count. -/
def variableLayer (around : Surroundings) : Config where
  analysis := { unset.analysis with
    enabled := (around.env "POLYGLOT_ANALYSIS_ENABLED").bind readBool?
    threads := (around.env "POLYGLOT_ANALYSIS_THREADS").bind readNat? }
  cache := {
    enabled := (around.env "POLYGLOT_CACHE_ENABLED").bind readBool?
    maxAge := around.env "POLYGLOT_CACHE_MAX_AGE"
    maxSize := (around.env "POLYGLOT_CACHE_MAX_SIZE").bind readNat?
    directory := around.env "POLYGLOT_CACHE_DIR" }
  parser := { unset.parser with
    primaryTimeout := (around.env "POLYGLOT_PARSER_TIMEOUT_MS").bind readNat? }

/-- The layer of the caller's settings. -/
def Overrides.layer (o : Overrides) : Config where
  analysis := { unset.analysis with enabled := o.enabled, threads := o.threads }
  cache := { unset.cache with
    enabled := o.cacheEnabled, maxAge := o.cacheMaxAge, directory := o.cacheDirectory }
  parser := unset.parser

/-- The valid configuration of the project at `root` from all layers. -/
def load (around : Surroundings) (root : String) (overrides : Option Overrides) :
    Except ConfigError Config := do
  let user ← userLayer around
  let project ← projectLayer around root
  let upper := ((overrides.map Overrides.layer).getD unset)
  let config := ([user, project, variableLayer around, upper]).foldl overlay unset
  config.validate
  return config

end CodeAtlas.Config
