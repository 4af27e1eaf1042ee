import CodeAtlas.Regex.Basic

/-! Matching. A pattern is run against a place in a text with a continuation that says whether a
way of matching leads on; the ways are tried in order of preference, so the match found is the
first one, not the longest. -/

namespace CodeAtlas.Regex

/-- A place in a text: the character before it, what follows it, and its offset in bytes. -/
structure Cursor where
  previous : Option Char
  rest : Text
  offset : Nat

namespace Cursor

def start (text : Text) : Cursor := ⟨none, text, 0⟩

/-- The place behind the next character `c`, with `rest` behind it. -/
def step (cursor : Cursor) (c : Char) (rest : Text) : Cursor :=
  ⟨some c, rest, cursor.offset + c.utf8Size⟩

/-- The text between a place and a later one. -/
def upTo (cursor later : Cursor) : Text :=
  cursor.rest.takeBytes (later.offset - cursor.offset)

/-- Goes on through `text` while its characters belong to a class, and gathers each place on the
way, the last one first. -/
def stopsFrom (set : CharClass) : Text → Cursor → List Cursor → List Cursor
  | [], _, found => found
  | c :: rest, cursor, found =>
    if set.has c then stopsFrom set rest (cursor.step c rest) (cursor.step c rest :: found)
    else found

/-- The places that are reached through characters of a class, the farthest first. -/
def stops (set : CharClass) (cursor : Cursor) : List Cursor :=
  stopsFrom set cursor.rest cursor [cursor]

/-- The character before the place is a word character. -/
def afterWord (cursor : Cursor) : Bool :=
  match cursor.previous with
  | some c => Text.isWord c
  | none => false

/-- The character behind the place is a word character. -/
def beforeWord (cursor : Cursor) : Bool :=
  match cursor.rest with
  | c :: _ => Text.isWord c
  | [] => false

end Cursor

/-- The match of a group: where it starts and what it holds. -/
structure Capture where
  offset : Nat
  text : Text
  deriving Repr, DecidableEq

/-- The matches of groups by name, the latest first. -/
abbrev Captures := List (String × Capture)

/-- The match of the group of that name. -/
def Captures.get? (captures : Captures) (name : String) : Option Capture :=
  captures.lookup name

/-- What follows a match: it answers if the match leads on. -/
abbrev Continuation (α : Type) := Cursor → Captures → Option α

variable {α : Type}

/-- Repeats a body as often as leads on. A repetition has to consume something, so the text at the
start, given first, bounds the number of repetitions. -/
def repeatBody (body : Cursor → Captures → Continuation α → Option α) :
    Text → Cursor → Captures → Continuation α → Option α
  | [], cursor, captures, next => next cursor captures
  | _ :: fuel, cursor, captures, next =>
    match body cursor captures fun later captures =>
        if later.offset ≤ cursor.offset then none
        else repeatBody body fuel later captures next with
    | some answer => some answer
    | none => next cursor captures

/-- Runs a pattern at a place: the answer of the first way of matching that leads on. -/
def run : Pattern → Cursor → Captures → Continuation α → Option α
  | .empty, cursor, captures, next => next cursor captures
  | .char set, cursor, captures, next =>
    match cursor.rest with
    | [] => none
    | c :: rest => if set.has c then next (cursor.step c rest) captures else none
  | .seq first second, cursor, captures, next =>
    run first cursor captures fun cursor captures => run second cursor captures next
  | .alt first second, cursor, captures, next =>
    match run first cursor captures next with
    | some answer => some answer
    | none => run second cursor captures next
  | .many set, cursor, captures, next =>
    (cursor.stops set).findSome? fun cursor => next cursor captures
  | .few set, cursor, captures, next =>
    (cursor.stops set).reverse.findSome? fun cursor => next cursor captures
  | .star body, cursor, captures, next =>
    repeatBody (run body) cursor.rest cursor captures next
  | .group name body, cursor, captures, next =>
    run body cursor captures fun later captures =>
      next later ((name, ⟨cursor.offset, cursor.upTo later⟩) :: captures)
  | .lineStart, cursor, captures, next =>
    if cursor.previous.all (· == '\n') then next cursor captures else none
  | .lineEnd, cursor, captures, next =>
    if cursor.rest.head?.all (· == '\n') then next cursor captures else none
  | .wordEdge, cursor, captures, next =>
    if cursor.afterWord != cursor.beforeWord then next cursor captures else none

/-- The match of a pattern at a place: where it ends, and its groups. -/
def matchAt? (pattern : Pattern) (cursor : Cursor) : Option (Cursor × Captures) :=
  run pattern cursor [] fun cursor captures => some (cursor, captures)

/-- Looks for matches from each place on, but for the places in front of offset `resume`. The
place lies in front of the text given first. -/
def findFrom (pattern : Pattern) : Text → Cursor → Nat → List Captures → List Captures
  | [], cursor, resume, found =>
    if cursor.offset < resume then found.reverse
    else
      match matchAt? pattern cursor with
      | some (_, captures) => (captures :: found).reverse
      | none => found.reverse
  | c :: rest, cursor, resume, found =>
    if cursor.offset < resume then findFrom pattern rest (cursor.step c rest) resume found
    else
      match matchAt? pattern cursor with
      | some (stop, captures) =>
        findFrom pattern rest (cursor.step c rest) stop.offset (captures :: found)
      | none => findFrom pattern rest (cursor.step c rest) resume found

/-- The groups of every match in a text. The matches are taken from the left and do not overlap. -/
def findAll (pattern : Pattern) (text : Text) : List Captures :=
  findFrom pattern text (Cursor.start text) 0 []

end CodeAtlas.Regex
