import CodeAtlas.Repair.Strategy
import CodeAtlas.Text.Utf8

/-! Encoding repair: bytes that are no UTF-8, a byte-order mark, carriage returns in front of
newlines, and control characters are taken out. -/

namespace CodeAtlas.Repair

/-- The mark that some editors put at the start of a file. -/
def byteOrderMark : Char := Char.ofNat 0xFEFF

/-- The character that stands for bytes that hold none. -/
def replacement : Char := Char.ofNat 0xFFFD

/-- Gathers a text in reverse with each carriage return dropped that a newline follows. -/
def unifyNewlinesFrom : Text → Text → Text
  | [], read => read.reverse
  | '\r' :: '\n' :: rest, read => unifyNewlinesFrom rest ('\n' :: read)
  | c :: rest, read => unifyNewlinesFrom rest (c :: read)

/-- The text with a single newline at the end of each line. -/
def unifyNewlines (text : Text) : Text :=
  unifyNewlinesFrom text []

/-- A character that belongs into a source file. -/
def isPlain (c : Char) : Bool :=
  c != replacement && (c == '\n' || c == '\t' || !Text.isControl c)

def dropMark (text : Text) : Text :=
  if text.head? = some byteOrderMark then text.tail else text

/-- Cleans the bytes of a file. -/
def encodingNormalization (bytes : Bytes) : Option Outcome :=
  let decoded := Utf8.decode bytes
  let unmarked := dropMark decoded
  let unified := unifyNewlines unmarked
  let plain := unified.filter isPlain
  let changes :=
    (if (Utf8.firstError? bytes).isSome then ["replaced invalid UTF-8 sequences"] else []) ++
    (if decoded.head? = some byteOrderMark then ["stripped byte-order mark"] else []) ++
    (if unmarked.contains ['\r', '\n'] then ["normalized CRLF line endings"] else []) ++
    (if unified.all isPlain then [] else ["removed control and replacement characters"])
  if changes.isEmpty then none
  else some (.ofContent .encodingNormalization plain changes)

end CodeAtlas.Repair
