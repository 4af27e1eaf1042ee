import CodeAtlas.Repair.Brackets
import CodeAtlas.Repair.Encoding
import CodeAtlas.Repair.Guess
import CodeAtlas.Repair.Parts
import CodeAtlas.Repair.Quotes
import CodeAtlas.Repair.Reduction

/-! Repair of a failure of a given kind: the strategies for that kind are tried in order, each in
its own time, and the first yield counts. -/

namespace CodeAtlas.Repair

/-- The strategies for a kind of failure, in the order in which they are tried. -/
def strategiesFor : Fault → List Strategy
  | .bracketMismatch => [.bracketFix, .partialSections]
  | .quoteMismatch => [.quoteFix, .quoteEscape]
  | .missingSemicolon => [.semicolonFix, .partialLines]
  | .encodingError => [.encodingNormalization, .partialLines]
  | .resourceError => [.contentReduction, .chunking]
  | .timeoutError => [.contentReduction, .structureGuess]
  | .parseError => [.partialSections, .partialLines]
  | .unknownError => []

/-- What a person can do about a kind of failure. -/
def advice : Fault → List String
  | .bracketMismatch =>
    ["Check that every opening brace, parenthesis and bracket has a matching closer",
      "Look for a stray closing brace near the reported line"]
  | .quoteMismatch =>
    ["Close the unterminated string literal",
      "Escape quotes that appear inside string literals"]
  | .missingSemicolon =>
    ["Terminate the statement before the reported line with a semicolon"]
  | .encodingError =>
    ["Re-save the file as UTF-8", "Remove binary or control characters from the file"]
  | .resourceError =>
    ["Split the file into smaller modules",
      "Exclude generated or vendored files from analysis"]
  | .timeoutError =>
    ["Split the file into smaller modules",
      "Raise parser.primary_timeout_ms for very large sources"]
  | .parseError =>
    ["Check the file with the language's own compiler or linter",
      "Verify the file extension matches its language"]
  | .unknownError => ["Inspect the parser error message for details"]

/-- What a strategy yields on the bytes of a file. All but one work on the decoded text. -/
def repairWith (strategy : Strategy) (bytes : Bytes) (language : Language) (budget : Budget) :
    Option Outcome :=
  let text := Utf8.decode bytes
  match strategy with
  | .bracketFix => bracketFix text
  | .quoteFix => quoteFix text
  | .quoteEscape => quoteEscape text
  | .semicolonFix => semicolonFix text language budget
  | .encodingNormalization => encodingNormalization bytes
  | .contentReduction => contentReduction text
  | .chunking => chunking text budget
  | .structureGuess => structureGuess text
  | .partialSections => partialSections text budget
  | .partialLines => partialLines text budget

/-- A strategy that was tried, and whether it yielded something. -/
structure Attempt where
  strategy : Strategy
  success : Bool
  deriving Repr, DecidableEq

/-- The result of a repair. -/
structure Recovery where
  fault : Fault
  found : Option (Strategy × Outcome)
  attempts : List Attempt

namespace Recovery

def success (recovery : Recovery) : Bool := recovery.found.isSome

/-- Advice is given only when every strategy failed. -/
def suggestions (recovery : Recovery) : List String :=
  if recovery.success then [] else advice recovery.fault

def changes (recovery : Recovery) : List String :=
  (recovery.found.map (·.2.changes)).getD []

def confidence (recovery : Recovery) : Binary :=
  (recovery.found.map (·.2.confidence)).getD .zero

end Recovery

/-- Tries strategies in order until one yields something in its time. -/
def attempt (bytes : Bytes) (language : Language) (budget : Strategy → Budget) :
    List Strategy → List Attempt × Option (Strategy × Outcome)
  | [] => ([], none)
  | strategy :: rest =>
    let failed :=
      let (attempts, found) := attempt bytes language budget rest
      (⟨strategy, false⟩ :: attempts, found)
    match repairWith strategy bytes language (budget strategy) with
    | some outcome =>
      if (budget strategy).overrun then failed
      else ([⟨strategy, true⟩], some (strategy, outcome))
    | none => failed

/-- Repairs the bytes of a file after a failure of a given kind. -/
def recover (fault : Fault) (bytes : Bytes) (language : Language)
    (budget : Strategy → Budget) : Recovery :=
  let (attempts, found) := attempt bytes language budget (strategiesFor fault)
  ⟨fault, found, attempts⟩

end CodeAtlas.Repair
