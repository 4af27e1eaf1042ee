import CodeAtlas.Path
import CodeAtlas.Text.Raw

/-! The part of a disk that a project lives on: files and directories, told apart by the names on
the way to them from the top. The top is also where programs work, so that a path leads from there
whether it starts with a slash or not. -/

namespace CodeAtlas

/-- The names on the way from the top to a file or directory. -/
abbrev Steps := List RawText

/-- Every file with its content, and every directory. The top always is one. -/
structure Disk where
  files : List (Steps × Bytes)
  directories : List Steps

namespace Disk

/-- Only the top. -/
def empty : Disk := ⟨[], [[]]⟩

def isFile (disk : Disk) (path : Steps) : Bool :=
  disk.files.any fun file => file.1 == path

def isDirectory (disk : Disk) (path : Steps) : Bool :=
  List.elem path disk.directories

/-- Something is at that path. -/
def has (disk : Disk) (path : Steps) : Bool :=
  disk.isFile path || disk.isDirectory path

def read? (disk : Disk) (path : Steps) : Option Bytes :=
  disk.files.lookup path

/-- The beginnings of a path, from the top to the path itself. -/
def beginnings : Steps → List Steps
  | [] => [[]]
  | step :: path => [] :: (beginnings path).map (step :: ·)

/-- The disk with a directory and those on the way to it. -/
def makeDirectory (disk : Disk) (path : Steps) : Disk where
  files := disk.files
  directories :=
    disk.directories ++ (beginnings path).filter fun d => !List.elem d disk.directories

/-- The disk with a file, and with the directories on the way to it. -/
def write (disk : Disk) (path : Steps) (content : Bytes) : Disk where
  files := disk.files.filter (·.1 != path) ++ [(path, content)]
  directories := (disk.makeDirectory path.dropLast).directories

/-- The disk without a file. -/
def remove (disk : Disk) (path : Steps) : Disk where
  files := disk.files.filter (·.1 != path)
  directories := disk.directories

/-- Where a path leads from a directory. Two dots lead back, a single one leads nowhere, and a path
with a slash in front starts at the top. -/
def stepsFrom (directory : Steps) (path : RawText) : Steps :=
  (Path.components path.bytes).foldl (fun steps component =>
    match component with
    | .normal name => steps ++ [⟨name⟩]
    | .parent => steps.dropLast
    | .root => []
    | .current => steps) directory

/-- The path of names below each other. -/
def written (path : Steps) : RawText :=
  ⟨Path.join (path.map (·.bytes))⟩

/-- No plain file stands in the way to a directory at that path. -/
def admits (disk : Disk) (path : Steps) : Bool :=
  (beginnings path).all fun d => !disk.isFile d

/-! ## Reading -/

def noSuchFile : String := "No such file or directory (os error 2)"

def notADirectory : String := "Not a directory (os error 20)"

def isADirectory : String := "Is a directory (os error 21)"

def nulInName : String := "file name contained an unexpected NUL byte"

/-- Where the pieces of a path lead from a place. Each of them, dots and empty ones included, is
looked for in a directory. -/
def follow (disk : Disk) : Steps → List Bytes → Except String Steps
  | place, [] => .ok place
  | place, piece :: pieces =>
    if disk.isFile place then .error notADirectory
    else if !disk.isDirectory place then .error noSuchFile
    else
      match Path.inner? piece with
      | some (.normal name) => disk.follow (place ++ [⟨name⟩]) pieces
      | some .parent => disk.follow place.dropLast pieces
      | _ => disk.follow place pieces

/-- The content of the file at a path, or why it cannot be read. -/
def readFile (disk : Disk) (path : RawText) : Except String Bytes :=
  if List.elem 0 path.bytes then .error nulInName
  else if path.bytes = [] then .error noSuchFile
  else
    match disk.follow [] (Path.pieces path.bytes) with
    | .error message => .error message
    | .ok place =>
      match disk.read? place with
      | some content => .ok content
      | none => .error (if disk.isDirectory place then isADirectory else noSuchFile)

end Disk

end CodeAtlas
