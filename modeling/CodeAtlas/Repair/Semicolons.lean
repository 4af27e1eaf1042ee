import CodeAtlas.Repair.Strategy

/-! Semicolon repair: in the languages that end statements with a semicolon, a line that looks like
an unfinished statement gets one. -/

namespace CodeAtlas.Repair

def usesSemicolons : Language → Bool
  | .typeScript | .javaScript | .java | .cSharp | .php => true
  | _ => false

/-- The characters after which a line needs no semicolon. -/
def statementEnds : List Char :=
  [';', '\x7b', '\x7d', '(', '[', ',', ':', '=', '+', '-', '*', '/', '\\', '|', '&', '.', '>',
    '<', '?']

/-- The words that open a block at the start of a line. -/
def blockWords : List String :=
  ["if", "else", "for", "while", "switch", "do", "try", "catch", "finally", "function", "class",
    "interface", "namespace", "case", "default"]

def isNameChar (c : Char) : Bool :=
  Text.isAlphanumeric c || c == '_'

/-- The line starts with `word`, and no longer identifier does. -/
def startsWithWord (line word : Text) : Bool :=
  match line.after? word with
  | none => false
  | some [] => true
  | some (c :: _) => !isNameChar c

/-- A line, given without blanks at its ends, that looks like a statement without its end. -/
def needsSemicolon (line : Text) : Bool :=
  match line, line.getLast? with
  | first :: _, some last =>
    !(line.startsWith ['/', '/'] || line.startsWith ['/', '*'] || first == '*' || first == '#' ||
        first == '@') &&
      !statementEnds.contains last &&
      !blockWords.any fun word => startsWithWord line word.toList
  | _, _ => false

/-- The line with the semicolon that it needs. -/
def endStatement (line : Text) : Text :=
  if needsSemicolon line.trim then line.trimEnd ++ [';'] else line

/-- Ends the statements of a text that lack a semicolon. The time is looked at before each line,
and when it is used up nothing is changed. -/
def semicolonFix (text : Text) (language : Language) (budget : Budget) : Option Outcome :=
  if !usesSemicolons language then none
  else
    let lines := text.lines
    if (List.range lines.length).any budget.expired then none
    else
      let changes := lines.zipIdx.filterMap fun (line, number) =>
        if needsSemicolon line.trim then
          some ("added ';' on line " ++ toString (number + 1))
        else none
      if changes.isEmpty then none
      else some (.ofContent .semicolonFix (Text.rejoin (lines.map endStatement) text) changes)

end CodeAtlas.Repair
