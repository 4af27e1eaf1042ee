import CodeAtlas.Analysis.Run
import CodeAtlas.Cache.Folder
import CodeAtlas.Config.Layers

/-! Where analyses take place: the files of projects, and what caches keep in memory and in folders.
A folder may serve several analyses, one after the other. -/

namespace CodeAtlas

/-- What caches keep. -/
structure Storage where
  memory : Memory
  folders : Keyed Steps Folder

namespace Storage

def empty : Storage := ⟨.empty, .empty⟩

def folderAt (storage : Storage) (directory : Steps) : Folder :=
  (storage.folders.get? directory).getD .missing

def putFolder (directory : Steps) (folder : Folder) (storage : Storage) : Storage :=
  { storage with folders := storage.folders.put directory folder }

def inMemory : Store Storage :=
  Memory.store.within (·.memory) fun memory storage => { storage with memory := memory }

def inFolder (directory : Steps) : Store Storage :=
  Folder.store.within (folderAt · directory) (putFolder directory)

end Storage

/-- The files of projects, and what caches keep. -/
structure Workspace where
  disk : Disk
  storage : Storage

/-- The name of what lies at a path, if it lies in a directory itself and the name is a text. -/
def nameIn? (directory path : Steps) : Option String :=
  if path.dropLast == directory then path.getLast?.bind RawText.text? else none

/-- What lies in a directory of a disk, if there is one. -/
def Folder.onDisk (disk : Disk) (directory : Steps) : Folder :=
  let files := disk.files.filterMap fun file =>
    (nameIn? directory file.1).map fun name => (name, FolderItem.ofBytes file.2)
  let folders := disk.directories.filterMap fun inner =>
    (nameIn? directory inner).map fun name => (name, FolderItem.folder)
  if disk.isDirectory directory then ⟨some ⟨files ++ folders⟩⟩ else .missing

namespace Workspace

/-- The folder in a directory. One that no cache was opened in yet is as the disk has it. -/
def folderAt (w : Workspace) (directory : Steps) : Folder :=
  (w.storage.folders.get? directory).getD (.onDisk w.disk directory)

def withFolder (w : Workspace) (directory : Steps) : Workspace where
  disk := w.disk.makeDirectory directory
  storage := w.storage.putFolder directory (w.folderAt directory).opened

/-- Opens the cache that a configuration asks for. Its folder is made, with the directories on the
way; where that cannot be done, caching is disabled. -/
def openCache (w : Workspace) (settings : Config.Cache) (root : ProjectRoot) :
    Except ConfigError (Cache Storage × Workspace) := do
  let directory := root.locate settings.folder
  let store := if w.disk.admits directory then some (Storage.inFolder directory) else none
  let cache ← Cache.ofConfig settings store
  return (cache, if cache.isEnabled then w.withFolder directory else w)

/-- Opens a project for analysis. -/
def openProject (w : Workspace) (root : ProjectRoot) (config : Config) (registry : Registry)
    (head : Head) : Except ConfigError (Analyzer Storage × Workspace) := do
  config.validate
  let (cache, w) ← w.openCache config.cache root
  return (⟨root, config, .ofConfig registry config.parser, cache, .ofHead root.path head,
    .standard, .substring⟩, w)

/-- What configurations are read from: the project's file, and environment variables. -/
def surroundings (w : Workspace) (root : ProjectRoot) (env : String → Option String) :
    Config.Surroundings where
  file path :=
    let place := root.locate "polyglot.toml"
    if path ≠ Config.pathIn root.path "polyglot.toml" then .nothing
    else
      match w.disk.read? place with
      | some content => .ofBytes content
      | none => if w.disk.isDirectory place then .unreadable else .nothing
  env := env

/-- Opens a project for analysis with the configuration that its layers give. -/
def loadProject (w : Workspace) (root : ProjectRoot) (env : String → Option String)
    (overrides : Option Config.Overrides) (registry : Registry) (head : Head) :
    Except ConfigError (Analyzer Storage × Workspace) := do
  let config ← Config.load (w.surroundings root env) root.path overrides
  w.openProject root config registry head

/-- Analyses a project once, with its own configuration and cache. -/
def analyzeProject (w : Workspace) (root : ProjectRoot) (env : String → Option String)
    (registry : Registry) (head : Head) (clock : Nat → Nat) (turns : List Nat) :
    Except AnalysisError Report × Workspace :=
  match w.loadProject root env none registry head with
  | .error e => (.error (.config e), w)
  | .ok (analyzer, w) =>
    let run : Circumstances := ⟨w.disk, clock, fun _ => false, turns⟩
    let (answer, s) := analyzer.analyze run (Analyzer.start w.storage)
    (answer.map (·.report), { w with storage := s.cache.place })

end Workspace

end CodeAtlas
