import CodeAtlas.Config.Basic
import CodeAtlas.Sorted
import CodeAtlas.Source.File
import CodeAtlas.Source.Ignore

/-! Discovery of the source files of a project. A walk from the root passes over hidden and ignored
entries and over directories that hold no sources; of the files that it yields, those that are
excluded, of no enabled language or too large are counted and left out. -/

namespace CodeAtlas

/-- What a discovery met. The languages stand in order with the number of their files. -/
structure DiscoveryStats where
  totalFiles : Nat
  totalSize : Nat
  tooLarge : Nat
  excluded : Nat
  otherLanguage : Nat
  languages : List (Language × Nat)
  deriving Repr, DecidableEq

namespace Discovery

def sourcelessDirectories : List RawText :=
  ["node_modules", "__pycache__", ".venv", "venv", "target", "build", "dist", "out", "vendor",
    "bin", "obj", ".git", ".svn", ".hg", ".idea", ".vscode", ".polyglot", "coverage"]

/-! ## Walks -/

/-- What stands somewhere on a disk. A file has a size. -/
inductive Kind where
  | file (size : Nat)
  | directory
  | other
  deriving Repr, DecidableEq

/-- What lies below the root of a project: the names on the way there, and what stands there. -/
structure Entry where
  below : Steps
  kind : Kind
  deriving Repr, DecidableEq

namespace Entry

def name (entry : Entry) : RawText := entry.below.getLast?.getD ""

/-- The directories on the way from the root to an entry, and the entry. -/
def way (entry : Entry) : List Entry :=
  ((Disk.beginnings entry.below).drop 1).map fun below =>
    if below = entry.below then entry else ⟨below, .directory⟩

end Entry

/-- A walk through what lies below a root. Where an entry is not accepted, nothing below it is
yielded either. -/
abbrev Walk := (accepts : Entry → Bool) → List Entry

/-- The walk takes all entries but directories that hold no sources. -/
def accepts (entry : Entry) : Bool :=
  !(entry.kind == .directory && List.elem entry.name sourcelessDirectories)

/-! ## Choosing files -/

/-- What becomes of a file that the walk meets. -/
inductive Outcome where
  | found (file : SourceFile) (size : Nat)
  | excluded
  | unknown
  | otherLanguage
  | tooLarge
  deriving Repr, DecidableEq

/-- What becomes of a file with some names below the root `rootPath`. -/
def outcome (settings : Config.Analysis) (exclude : List Glob) (rootPath : RawText) (below : Steps)
    (size : Nat) : Outcome :=
  if exclude.any fun glob => glob.covers (Disk.written below).bytes then .excluded
  else
    match SourceFile.ofPath? rootPath ⟨Path.append rootPath.bytes (Disk.written below).bytes⟩ with
    | none => .unknown
    | some file =>
      if !settings.allows file.language.id then .otherLanguage
      else if settings.sizeLimit < size then .tooLarge
      else .found file size

/-- The globs of files that are left out. -/
def excludeGlobs (patterns : List String) : Except ScanError (List Glob) :=
  patterns.mapM fun pattern =>
    match Glob.readPieces false pattern.toList with
    | .ok pieces => .ok ⟨true, pieces⟩
    | .error e =>
      .error (.invalidPattern pattern ("error parsing glob '" ++ pattern ++ "': " ++ e.message))

/-- What becomes of the files among some entries. -/
def outcomes (settings : Config.Analysis) (exclude : List Glob) (rootPath : RawText)
    (entries : List Entry) : List Outcome :=
  entries.filterMap fun entry =>
    match entry.kind with
    | .file size => some (outcome settings exclude rootPath entry.below size)
    | _ => none

/-- A file that was found, with its size. -/
def Outcome.found? : Outcome → Option (SourceFile × Nat)
  | found file size => some (file, size)
  | _ => none

def countLanguages (languages : List Language) : List (Language × Nat) :=
  (Language.all.map fun l => (l, languages.count l)).filter fun entry => entry.2 != 0

/-- The files that were found, in the order of their paths, and the counts. -/
def gather (outcomes : List Outcome) : List SourceFile × DiscoveryStats :=
  let found := outcomes.filterMap Outcome.found?
  (sortedBy (·.relativePath) (found.map (·.1)),
    { totalFiles := found.length
      totalSize := found.foldl (fun size entry => size + entry.2) 0
      tooLarge := outcomes.count .tooLarge
      excluded := outcomes.count .excluded
      otherLanguage := outcomes.count .otherLanguage
      languages := countLanguages (found.map (·.1.language)) })

/-- What stands at the root of a project. -/
inductive Standing where
  | missing
  | noDirectory
  | unreadable (message : String)
  | directory
  deriving Repr, DecidableEq

/-- Finds the source files that a walk yields below the root `rootPath`. -/
def discover (standing : Standing) (walk : Walk) (settings : Config.Analysis)
    (rootPath : RawText) : Except ScanError (List SourceFile × DiscoveryStats) :=
  match standing with
  | .missing => .error (.rootNotFound rootPath.text)
  | .noDirectory => .error (.notADirectory rootPath.text)
  | .unreadable message => .error (.unreadable rootPath.text message)
  | .directory => (excludeGlobs settings.exclude).map fun exclude =>
    gather (outcomes settings exclude rootPath (walk accepts))

/-! ## The walk on a disk -/

/-- The names behind those of a root, if a path leads below it. -/
def below? (root path : Steps) : Option Steps :=
  if root.isPrefixOf path && path != root then some (path.drop root.length) else none

/-- What lies below the root on a disk. -/
def entriesOn (disk : Disk) (root : Steps) : List Entry :=
  (disk.files.filterMap fun file => (below? root file.1).map (⟨·, .file file.2.length⟩)) ++
    disk.directories.filterMap fun path => (below? root path).map (⟨·, .directory⟩)

/-- The ignore files ask to pass over an entry. -/
def isIgnored (disk : Disk) (root : Steps) (entry : Entry) : Bool :=
  Ignore.verdict? disk (root ++ entry.below) (entry.kind == .directory) == some .skip

/-- The name of an entry starts with a dot, and no ignore file keeps it. -/
def isHidden (disk : Disk) (root : Steps) (entry : Entry) : Bool :=
  entry.name.bytes.head? == some Path.dot &&
    Ignore.verdict? disk (root ++ entry.below) (entry.kind == .directory) == none

/-- The walk below a root on a disk. -/
def walkOn (disk : Disk) (root : Steps) : Walk := fun accepts =>
  (entriesOn disk root).filter fun entry =>
    entry.way.all fun above =>
      accepts above && !isHidden disk root above && !isIgnored disk root above

def standingOn (disk : Disk) (root : Steps) : Standing :=
  if disk.isDirectory root then .directory else if disk.isFile root then .noDirectory else .missing

/-- Finds the source files below `root` on a disk, whose written form is `rootPath`. -/
def discoverOn (disk : Disk) (settings : Config.Analysis) (rootPath : RawText) (root : Steps) :
    Except ScanError (List SourceFile × DiscoveryStats) :=
  discover (standingOn disk root) (walkOn disk root) settings rootPath

end Discovery

end CodeAtlas
