import CodeAtlas.Repair.Strategy

/-! Repairs that keep the sound parts of a text: the sections whose brackets and quotes balance, or
the lines without open quotes and stray closers. -/

namespace CodeAtlas.Repair

/-- A section that balances on its own. -/
def isSound (part : Text) : Bool :=
  !hasUnbalancedBrackets part && !hasOddQuotes part

/-- A line that closes more brackets of a kind than it opens without starting with the closer. -/
def hasStrayCloser (line : Text) : Bool :=
  bracketPairs.any fun pair =>
    line.count pair.1 < line.count pair.2 && line.trim.head? != some pair.2

def isSoundLine (line : Text) : Bool :=
  !hasOddQuotes line && !hasStrayCloser line

/-- The parts that are reached before the time is used up. -/
def inTime (budget : Budget) (parts : List Text) : List Text :=
  (parts.zipIdx.takeWhile fun part => !budget.expired part.2).map (·.1)

/-- The parts that are not blank, divided into sound and other ones. -/
def divide (sound : Text → Bool) (parts : List Text) : List Text × List Text :=
  (parts.filter fun part => !part.allBlank).partition sound

def keptMessage (noun : String) (kept dropped : Nat) : String :=
  "kept " ++ toString kept ++ " " ++ noun ++ ", dropped " ++ toString dropped

/-- Keeps the sections that balance on their own. -/
def partialSections (text : Text) (budget : Budget) : Option Outcome :=
  let (kept, dropped) := divide isSound (inTime budget text.sections)
  if kept.isEmpty then none
  else some (.ofContent .partialSections (Text.join ['\n', '\n'] kept)
    [keptMessage "sections" kept.length dropped.length])

/-- Keeps the lines without open quotes and stray closers. -/
def partialLines (text : Text) (budget : Budget) : Option Outcome :=
  let (kept, dropped) := divide isSoundLine (inTime budget text.lines)
  if kept.isEmpty then none
  else some (.ofContent .partialLines (Text.join ['\n'] kept)
    [keptMessage "lines" kept.length dropped.length])

end CodeAtlas.Repair
