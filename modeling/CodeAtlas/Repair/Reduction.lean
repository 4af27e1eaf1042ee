import CodeAtlas.Repair.Strategy

/-! Repairs that make the content smaller: comments and blank lines are dropped, and of a large
file only the leading part is kept. -/

namespace CodeAtlas.Repair

/-- The number of bytes that a reduced file keeps. -/
def maxReducedBytes : Nat := 65536

def chunkLines : Nat := 200

def maxChunks : Nat := 10

/-- A line, given without blanks at its ends, that looks like a comment. -/
def isCommentLine (line : Text) : Bool :=
  line.startsWith ['/', '/'] || line.startsWith ['/', '*'] || line.startsWith ['*'] ||
    line.startsWith ['-', '-'] ||
    (line.startsWith ['#'] && !line.startsWith ['#', '['] && !line.startsWith ['#', '!'])

def isCodeLine (line : Text) : Bool :=
  !line.trim.isEmpty && !isCommentLine line.trim

/-- What precedes the last newline of a text, or nothing. -/
def beforeLastNewline (text : Text) : Text :=
  ((text.reverse.dropWhile (· != '\n')).drop 1).reverse

/-- The text cut at a line's end so that it fits into the allowed size. -/
def cutToSize (text : Text) : Text :=
  if maxReducedBytes < text.size then beforeLastNewline (text.takeBytes maxReducedBytes) else text

/-- Drops comments and blank lines, then cuts the text at a line's end. -/
def contentReduction (text : Text) : Option Outcome :=
  let lines := text.lines
  let kept := lines.filter isCodeLine
  let dropped := lines.length - kept.length
  let joined := Text.join ['\n'] kept
  let reduced := cutToSize joined
  let changes :=
    (if 0 < dropped then ["dropped " ++ toString dropped ++ " comment or blank lines"] else []) ++
    (if maxReducedBytes < joined.size then
      ["truncated to " ++ toString reduced.size ++ " bytes"] else [])
  if text.size ≤ reduced.size || reduced.allBlank then none
  else some (.ofContent .contentReduction reduced changes)

def chunk (lines : List Text) (number : Nat) : List Text :=
  (lines.drop (chunkLines * number)).take chunkLines

/-- Keeps the leading chunks of a file that has several, as far as the time allows. -/
def chunking (text : Text) (budget : Budget) : Option Outcome :=
  let lines := text.lines
  let total := (lines.length + chunkLines - 1) / chunkLines
  if total ≤ 1 then none
  else
    let numbers := (List.range (min total maxChunks)).takeWhile fun n => !budget.expired n
    if numbers.isEmpty then none
    else
      let kept := numbers.map fun n => Text.join ['\n'] (chunk lines n)
      some (.ofContent .chunking (Text.join ['\n'] kept)
        ["split into " ++ toString total ++ " chunks of " ++ toString chunkLines ++
          " lines; kept " ++ toString kept.length])

end CodeAtlas.Repair
