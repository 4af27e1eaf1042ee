import CodeAtlas.Text.Alphanumeric

/-! Text as a list of characters: blanks, lines, sections and searching. A line ends at a newline,
and a carriage return in front of that newline belongs to the line's end. -/

namespace CodeAtlas

abbrev Text := List Char

namespace Text

/-! ## Blanks -/

/-- The white space of every script. -/
def isBlank (c : Char) : Bool :=
  (9 ≤ c.toNat && c.toNat ≤ 13) || c == ' ' || c.toNat == 0x85 || c.toNat == 0xA0 ||
    c.toNat == 0x1680 || (0x2000 ≤ c.toNat && c.toNat ≤ 0x200A) || c.toNat == 0x2028 ||
    c.toNat == 0x2029 || c.toNat == 0x202F || c.toNat == 0x205F || c.toNat == 0x3000

def isControl (c : Char) : Bool :=
  c.toNat < 32 || (127 ≤ c.toNat && c.toNat < 160)

/-- The text without its leading blanks. -/
def trimStart (text : Text) : Text :=
  text.dropWhile isBlank

/-- The text without the longest tail of characters that satisfy `p`. -/
def dropTail (p : Char → Bool) (text : Text) : Text :=
  (text.reverse.dropWhile p).reverse

/-- The text without its trailing blanks. -/
def trimEnd (text : Text) : Text :=
  text.dropTail isBlank

/-- The text without blanks at either end. -/
def trim (text : Text) : Text :=
  trimEnd (trimStart text)

def allBlank (text : Text) : Bool :=
  text.all isBlank

/-! ## Searching -/

/-- The text starts with `word`. -/
def startsWith (text word : Text) : Bool :=
  word.isPrefixOf text

/-- The text ends with `word`. -/
def endsWith (text word : Text) : Bool :=
  word.reverse.isPrefixOf text.reverse

/-- Somewhere in the text `word` stands. -/
def contains (text word : Text) : Bool :=
  word.isPrefixOf text ||
    match text with
    | [] => false
    | _ :: rest => contains rest word

/-- What follows `word` at the start of the text. -/
def after? (text word : Text) : Option Text :=
  if text.startsWith word then some (text.drop word.length) else none

/-- What precedes `word` at the end of the text. -/
def before? (text word : Text) : Option Text :=
  if text.endsWith word then some (text.take (text.length - word.length)) else none

/-- One of the words stands somewhere in the text. -/
def containsAny (text : Text) (words : List String) : Bool :=
  words.any fun word => text.contains word.toList

/-- How often `word` occurs in the text without overlaps, counted from the left; the first
argument is the part of the last occurrence that is still to be passed. -/
def occurrencesFrom (word : Text) : Nat → Text → Nat → Nat
  | _, [], found => found
  | skip + 1, _ :: rest, found => occurrencesFrom word skip rest found
  | 0, c :: rest, found =>
    if word.isPrefixOf (c :: rest) then occurrencesFrom word (word.length - 1) rest (found + 1)
    else occurrencesFrom word 0 rest found

/-- How often a nonempty `word` occurs in the text without overlaps. -/
def occurrences (text word : Text) : Nat :=
  occurrencesFrom word 0 text 0

/-! ## Pieces

Bytes are taken apart like characters. -/

section Pieces

variable {α : Type}

/-- Puts a character in front of the first piece. -/
def consHead (c : α) : List (List α) → List (List α)
  | [] => [[c]]
  | piece :: pieces => (c :: piece) :: pieces

/-- The pieces between the characters that satisfy `p`; there is one more piece than there are
such characters. -/
def splitWhere (p : α → Bool) (text : List α) : List (List α) :=
  text.foldr (fun c pieces => if p c then [] :: pieces else consHead c pieces) [[]]

end Pieces

/-- The nonempty pieces between blanks. -/
def words (text : Text) : List Text :=
  (splitWhere isBlank text).filter fun piece => !piece.isEmpty

/-- The pieces with `separator` between neighbours. -/
def join (separator : Text) (pieces : List Text) : Text :=
  separator.intercalate pieces

/-- What stands before the first `separator` and after it. -/
def cut? (separator : Char) (text : Text) : Option (Text × Text) :=
  match text.dropWhile (· != separator) with
  | [] => none
  | _ :: rest => some (text.takeWhile (· != separator), rest)

/-! ## Lines -/

/-- One step of `lines`, from the right: `fresh` says that the first line was opened by the
newline just behind this character. -/
def lineStep (c : Char) (state : Bool × List Text) : Bool × List Text :=
  if c = '\n' then (true, [] :: state.2)
  else if c = '\r' && state.1 then (false, state.2)
  else (false, consHead c state.2)

/-- The lines of a text without their ends. A newline at the end of the text opens no line. -/
def lines (text : Text) : List Text :=
  (text.foldr lineStep (false, [])).2

/-- Gathers sections from the left: the section being read, reversed, and the finished ones,
reversed. -/
def sectionsFrom : Text → Text → List Text → List Text
  | [], current, done => (current.reverse :: done).reverse
  | '\n' :: '\n' :: rest, current, done => sectionsFrom rest [] (current.reverse :: done)
  | c :: rest, current, done => sectionsFrom rest (c :: current) done

/-- The sections of a text, which are the pieces between pairs of newlines, taken from the
left. -/
def sections (text : Text) : List Text :=
  sectionsFrom text [] []

/-- The lines joined again, with a newline at the end if the text they came from had one. -/
def rejoin (lines : List Text) (source : Text) : Text :=
  if source.endsWith ['\n'] then join ['\n'] lines ++ ['\n'] else join ['\n'] lines

/-! ## Bytes -/

/-- The number of bytes of a text in UTF-8. -/
def size (text : Text) : Nat :=
  text.foldl (fun n c => n + c.utf8Size) 0

/-- The longest beginning of the text that fits into `limit` bytes. -/
def takeBytes (limit : Nat) (text : Text) : Text :=
  go limit text []
where
  /-- Takes characters while they fit, gathering them in reverse. -/
  go : Nat → Text → Text → Text
    | _, [], taken => taken.reverse
    | limit, c :: rest, taken =>
      if c.utf8Size ≤ limit then go (limit - c.utf8Size) rest (c :: taken) else taken.reverse

/-- What remains when the first `count` bytes are passed; a character that they enter only in
part is passed too. -/
def dropBytes : Nat → Text → Text
  | _, [] => []
  | 0, text => text
  | count + 1, c :: rest => dropBytes (count + 1 - c.utf8Size) rest

/-! ## Offsets and lines

An offset is the number of bytes in front of a place in the text. -/

/-- The offset behind each newline behind `offset`. -/
def lineStartsFrom : Nat → Text → List Nat → List Nat
  | _, [], found => found.reverse
  | offset, c :: rest, found =>
    if c = '\n' then lineStartsFrom (offset + c.utf8Size) rest ((offset + c.utf8Size) :: found)
    else lineStartsFrom (offset + c.utf8Size) rest found

/-- The offset at which each line starts, with an empty last line after a final newline. -/
def lineStarts (text : Text) : List Nat :=
  0 :: lineStartsFrom 0 text []

/-- The number of the line that holds `offset`; the first line has number 1. -/
def lineAt (starts : List Nat) (offset : Nat) : Nat :=
  (starts.takeWhile (· ≤ offset)).length

/-- The offset at which the line that holds `offset` starts. -/
def lineStart (starts : List Nat) (offset : Nat) : Nat :=
  starts.getD (lineAt starts offset - 1) 0

/-- The offset at which the line that holds `offset` ends, in front of its newline. -/
def lineStop (text : Text) (starts : List Nat) (offset : Nat) : Nat :=
  match starts[lineAt starts offset - 1 + 1]? with
  | some next => next - 1
  | none => text.size

/-- The line that holds `offset`, without its newline. -/
def lineText (text : Text) (starts : List Nat) (offset : Nat) : Text :=
  let start := lineStart starts offset
  takeBytes (lineStop text starts offset - start) (dropBytes start text)

end Text

end CodeAtlas
