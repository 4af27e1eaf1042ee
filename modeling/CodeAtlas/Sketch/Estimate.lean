import CodeAtlas.Outline.Basic
import CodeAtlas.Text.Basic

/-! Outlines without names: an estimate from how often the words of declarations occur, and a bare
module for any text that is not blank. -/

namespace CodeAtlas.Sketch

def functionWords : List String := ["def", "function", "func", "fn", "fun"]

def classWords : List String := ["class", "struct", "interface", "trait", "module", "object"]

/-- The identifiers of a text, with empty ones between neighbouring separators. -/
def tokens (text : Text) : List String :=
  (Text.splitWhere (fun c => !Text.isAlphanumeric c && c != '_') text).map String.ofList

/-- How many functions a text seems to declare; in scripts every arrow counts. -/
def estimatedFunctions (text : Text) (language : Language) : Nat :=
  (tokens text).countP functionWords.contains +
    if language.isScript then text.occurrences ['=', '>'] else 0

def estimatedClasses (text : Text) : Nat :=
  (tokens text).countP classWords.contains

/-- A line, given without indentation, that looks like a comment. -/
def looksLikeComment (line : Text) : Bool :=
  line.startsWith ['/', '/'] || line.startsWith ['#'] || line.startsWith ['/', '*'] ||
    line.startsWith ['*']

/-- An outline that only estimates how much is declared, unless nothing seems to be. -/
def statistics (text : Text) (language : Language) : Option Outline :=
  let functions := estimatedFunctions text language
  let classes := estimatedClasses text
  if functions + classes = 0 then none
  else
    let lines := text.lines
    some
      { functions := []
        classes := []
        imports := []
        complexity := 1 + functions + 2 * classes
        summary := some (.obj
          [("kind", .str "statistics"), ("lines", .ofNat lines.length),
            ("non_blank_lines", .ofNat (lines.countP fun line => !line.allBlank)),
            ("comment_lines", .ofNat (lines.countP fun line => looksLikeComment line.trimStart)),
            ("estimated_functions", .ofNat functions),
            ("estimated_classes", .ofNat classes)]) }

/-- A line that starts a statement outside of any block. -/
def isTopLevel (line : Text) : Bool :=
  !line.allBlank && !line.startsWith [' '] && !line.startsWith ['\t']

/-- The outline of a bare module, unless the text is blank. -/
def minimal (text : Text) : Option Outline :=
  if text.allBlank then none
  else
    let lines := text.lines
    some
      { Outline.empty with
        complexity := 1
        summary := some (.obj
          [("kind", .str "module"), ("lines", .ofNat lines.length),
            ("top_level_statements", .ofNat (lines.countP isTopLevel))]) }

end CodeAtlas.Sketch
