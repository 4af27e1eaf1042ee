import CodeAtlas.Glob.Reader
import CodeAtlas.Source.Disk

/-! Ignore files: lists of globs for entries that a walk through a project passes over. The last glob
that matches an entry counts, and one behind an exclamation mark keeps the entry. -/

namespace CodeAtlas.Ignore

/-- What ignore files say about an entry. -/
inductive Verdict where
  | skip
  | keep
  deriving Repr, DecidableEq

/-- A line of an ignore file. -/
structure Rule where
  glob : Glob
  verdict : Verdict
  onlyDirectories : Bool

/-! ## Reading -/

/-- A line without blanks at its end; an escaped blank stays. -/
def trimLine (line : Text) : Text :=
  if line.endsWith ['\\', ' '] then line else line.trimEnd

/-- The mark for an exception at the start of a line, the mark for the top, and what follows. An
escaped mark belongs to the glob. -/
def marks (line : Text) : Verdict × Bool × Text :=
  if line.startsWith ['\\', '!'] || line.startsWith ['\\', '#'] then (.skip, false, line.drop 1)
  else
    let (verdict, rest) : Verdict × Text := match line with
      | '!' :: rest => (.keep, rest)
      | rest => (.skip, rest)
    match rest with
    | '/' :: rest => (verdict, true, rest)
    | rest => (verdict, false, rest)

/-- A line without the slash at its end that asks for a directory. -/
def directoryMark (line : Text) : Bool × Text :=
  if line.endsWith ['/'] then
    let rest := line.dropLast
    (true, if Text.endsWith rest ['\\'] then rest.dropLast else rest)
  else (false, line)

/-- The glob of a line: one without a slash matches at any depth, and one for everything below a
directory does not match the directory. -/
def globText (atTop : Bool) (line : Text) : Text :=
  let anywhere := !atTop && !List.elem '/' line && line != ['*', '*']
  let placed := if anywhere then "**/".toList ++ line else line
  if Text.endsWith placed "/**".toList then placed ++ "/*".toList else placed

/-- The rule of a line. Blank lines, comments and lines that are no globs have none. -/
def rule? (line : Text) : Option Rule :=
  let trimmed := trimLine line
  if line.startsWith ['#'] || trimmed.isEmpty then none
  else
    let (verdict, atTop, rest) := marks trimmed
    let (onlyDirectories, rest) := directoryMark rest
    match Glob.readPieces true (globText atTop rest) with
    | .ok pieces => some ⟨⟨false, pieces⟩, verdict, onlyDirectories⟩
    | .error _ => none

/-- Puts a byte in front of the first piece, or opens a new piece in front of it at a newline. -/
def lineStep (b : UInt8) (pieces : List Bytes) : List Bytes :=
  if b = 10 then [] :: pieces
  else
    match pieces with
    | [] => [[b]]
    | piece :: pieces => (b :: piece) :: pieces

/-- The lines of a file in bytes. A newline at the end opens no line. -/
def byteLines (content : Bytes) : List Bytes :=
  let pieces := content.foldr lineStep [[]]
  if pieces.getLast? = some [] then pieces.dropLast else pieces

/-- The lines of a file up to the first one that is no UTF-8, without a carriage return at their
ends. -/
def linesOf (content : Bytes) : List Text :=
  (((byteLines content).map Utf8.decode?).takeWhile Option.isSome).filterMap fun line =>
    line.map fun line => if Text.endsWith line ['\r'] then line.dropLast else line

/-- The rules of a file. A byte-order mark in front of its first line is passed over. -/
def rulesOf (content : Bytes) : List Rule :=
  match linesOf content with
  | [] => []
  | first :: lines => (first.dropWhile (· == '\uFEFF') :: lines).filterMap rule?

/-! ## Judging -/

/-- What the rules of one file say about an entry, which is given as seen from the directory of the
file. -/
def judge (rules : List Rule) (path : Steps) (isDirectory : Bool) : Option Verdict :=
  let bytes := (Disk.written path).bytes
  (rules.reverse.find? fun rule =>
    (isDirectory || !rule.onlyDirectories) && rule.glob.covers bytes).map (·.verdict)

/-- The names of the files with ignore rules for a directory, those that count most first. -/
def fileNames : List Steps :=
  [[".ignore"], [".gitignore"], [".git", "info", "exclude"]]

/-- What the files with a given name say about an entry; the nearest one that says anything
counts. -/
def judgeBy (disk : Disk) (name path : Steps) (isDirectory : Bool) : Option Verdict :=
  ((Disk.beginnings path.dropLast).reverse).findSome? fun directory =>
    (disk.read? (directory ++ name)).bind fun content =>
      judge (rulesOf content) (path.drop directory.length) isDirectory

/-- What all ignore files say about an entry. -/
def verdict? (disk : Disk) (path : Steps) (isDirectory : Bool) : Option Verdict :=
  fileNames.findSome? fun name => judgeBy disk name path isDirectory

end CodeAtlas.Ignore
