import CodeAtlas.Outline.Basic
import CodeAtlas.Repair.Fault

/-! The repair strategies by name, and what a strategy yields. -/

namespace CodeAtlas.Repair

/-- A repair strategy. -/
inductive Strategy where
  | bracketFix
  | quoteFix
  | quoteEscape
  | semicolonFix
  | encodingNormalization
  | contentReduction
  | chunking
  | structureGuess
  | partialSections
  | partialLines
  deriving Repr, DecidableEq, Inhabited

namespace Strategy

def all : List Strategy :=
  [bracketFix, quoteFix, quoteEscape, semicolonFix, encodingNormalization, contentReduction,
    chunking, structureGuess, partialSections, partialLines]

def name : Strategy → String
  | bracketFix => "bracket_fix"
  | quoteFix => "quote_fix"
  | quoteEscape => "quote_escape"
  | semicolonFix => "semicolon_fix"
  | encodingNormalization => "encoding_normalization"
  | contentReduction => "content_reduction"
  | chunking => "chunking"
  | structureGuess => "structure_guess"
  | partialSections => "partial_sections"
  | partialLines => "partial_lines"

def ofName? (name : String) : Option Strategy :=
  all.find? fun strategy => strategy.name == name

/-- How far the result of a strategy is to be trusted. -/
def confidence : Strategy → Binary
  | bracketFix => .ofRatio 7 10
  | quoteFix => .ofRatio 65 100
  | quoteEscape => .ofRatio 6 10
  | semicolonFix => .ofRatio 6 10
  | encodingNormalization => .ofRatio 75 100
  | contentReduction => .ofRatio 35 100
  | chunking => .ofRatio 3 10
  | structureGuess => .ofRatio 2 10
  | partialSections => .ofRatio 4 10
  | partialLines => .ofRatio 3 10

end Strategy

/-- What a strategy yields: repaired or reduced content, or an outline guessed from it. -/
inductive Output where
  | content (text : Text)
  | outline (outline : Outline)

namespace Output

def content? : Output → Option Text
  | content text => some text
  | outline _ => none

end Output

/-- The yield of a strategy with a list of what it did. -/
structure Outcome where
  output : Output
  changes : List String
  confidence : Binary

/-- The outcome of a strategy that changed the content. -/
def Outcome.ofContent (strategy : Strategy) (text : Text) (changes : List String) : Outcome :=
  ⟨.content text, changes, strategy.confidence⟩

/-- The time that a piece of work may take. Work looks at the clock now and then; the looks are
numbered from zero. -/
structure Budget where
  /-- The look of that number finds the time used up. -/
  expired : Nat → Bool
  /-- The time is used up when the work is done. -/
  overrun : Bool

namespace Budget

/-- Time never runs out. -/
def unlimited : Budget := ⟨fun _ => false, false⟩

/-- There is no time at all. -/
def spent : Budget := ⟨fun _ => true, true⟩

/-- The time of some milliseconds. Work that has any time at all is taken to be done in it. -/
def ofMillis (millis : Nat) : Budget := if millis = 0 then spent else unlimited

end Budget

end CodeAtlas.Repair
