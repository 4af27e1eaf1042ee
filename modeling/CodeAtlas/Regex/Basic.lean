import CodeAtlas.Text.Basic

/-! Regular expressions as data, with the names by which the tables of expressions are written. -/

namespace CodeAtlas.Regex

/-- A set of characters that a class is built from. -/
inductive ClassItem where
  | one (c : Char)
  | between (first last : Char)
  | word
  | space
  deriving Repr, DecidableEq

/-- The characters of one of the items, or all other characters. -/
structure CharClass where
  negated : Bool
  items : List ClassItem
  deriving Repr, DecidableEq

/-- A character belongs to an item. -/
def ClassItem.has (item : ClassItem) (c : Char) : Bool :=
  match item with
  | one d => c == d
  | between first last => first ≤ c && c ≤ last
  | word => Text.isWord c
  | space => Text.isBlank c

/-- A character belongs to a class. -/
def CharClass.has (set : CharClass) (c : Char) : Bool :=
  set.items.any (·.has c) != set.negated

/-- A regular expression. -/
inductive Pattern where
  /-- Matches nothing but the empty text. -/
  | empty
  /-- One character of a class. -/
  | char (set : CharClass)
  /-- The first pattern and then the second. -/
  | seq (first second : Pattern)
  /-- The first pattern, or the second where the first leads nowhere. -/
  | alt (first second : Pattern)
  /-- As many characters of a class as lead on. -/
  | many (set : CharClass)
  /-- As few characters of a class as lead on. -/
  | few (set : CharClass)
  /-- As many repetitions of a pattern as lead on. -/
  | star (body : Pattern)
  /-- A pattern whose match is kept under a name. -/
  | group (name : String) (body : Pattern)
  /-- The start of the text or the place behind a newline. -/
  | lineStart
  /-- The end of the text or the place in front of a newline. -/
  | lineEnd
  /-- A place between a word character and another character or an end of the text. -/
  | wordEdge
  deriving Repr, DecidableEq

/-! ## Classes -/

/-- Letters, marks, digits and connectors. -/
def wordClass : CharClass := ⟨false, [.word]⟩

def spaceClass : CharClass := ⟨false, [.space]⟩

/-- The characters of a text. -/
def oneOf (chars : String) : CharClass := ⟨false, chars.toList.map .one⟩

/-- All characters but those of a text. -/
def noneOf (chars : String) : CharClass := ⟨true, chars.toList.map .one⟩

/-- Word characters and the characters of a text. -/
def wordOr (chars : String) : CharClass := ⟨false, .word :: chars.toList.map .one⟩

/-- Spaces and tabs. -/
def gapClass : CharClass := oneOf " \t"

/-- The letters from A to Z. -/
def capitalClass : CharClass := ⟨false, [.between 'A' 'Z']⟩

/-! ## Patterns -/

/-- The characters of a text one after the other. -/
def lit (text : String) : Pattern :=
  text.toList.foldr (fun c rest => .seq (.char ⟨false, [.one c]⟩) rest) .empty

/-- Patterns one after the other. -/
def all : List Pattern → Pattern
  | [] => .empty
  | [p] => p
  | p :: ps => .seq p (all ps)

/-- The first of the patterns that leads on. -/
def any : List Pattern → Pattern
  | [] => .empty
  | [p] => p
  | p :: ps => .alt p (any ps)

/-- The first of the texts that leads on. -/
def anyLit (texts : List String) : Pattern := any (texts.map lit)

/-- A pattern, or nothing where it leads nowhere. -/
def opt (p : Pattern) : Pattern := .alt p .empty

/-- One character of a class and as many more as lead on. -/
def many1 (set : CharClass) : Pattern := .seq (.char set) (.many set)

/-- One character of a class and as few more as lead on. -/
def few1 (set : CharClass) : Pattern := .seq (.char set) (.few set)

/-- One repetition of a pattern and as many more as lead on. -/
def star1 (p : Pattern) : Pattern := .seq p (.star p)

/-- A pattern whose match is kept under a name. -/
def named (name : String) (p : Pattern) : Pattern := .group name p

def word : Pattern := many1 wordClass

/-- Spaces and tabs, or nothing. -/
def gap : Pattern := .many gapClass

/-- At least one space or tab. -/
def gap1 : Pattern := many1 gapClass

def spaces : Pattern := .many spaceClass

def spaces1 : Pattern := many1 spaceClass

end CodeAtlas.Regex
