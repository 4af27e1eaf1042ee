import CodeAtlas.Glob.Basic

/-! Reading globs. A question mark stands for one character, a star for any number of them, two stars
for whole directories, brackets for a set of characters, braces for alternatives, and a backslash
takes the next character for itself. -/

namespace CodeAtlas.Glob

/-- Why a text is no glob. -/
inductive ReadError where
  | unclosedSet
  | invalidRange (first last : Char)
  | unclosedChoice
  | unopenedChoice
  | danglingEscape
  deriving Repr, DecidableEq

def ReadError.message : ReadError → String
  | unclosedSet => "unclosed character class; missing ']'"
  | invalidRange first last =>
    "invalid range; '" ++ first.toString ++ "' > '" ++ last.toString ++ "'"
  | unclosedChoice =>
    "unclosed alternate group; missing '\x7d' (maybe escape '\x7b' with '[\x7b]'?)"
  | unopenedChoice =>
    "unopened alternate group; missing '\x7b' (maybe escape '\x7d' with '[\x7d]'?)"
  | danglingEscape => "dangling '\\'"

/-! ## Sets -/

/-- The characters from `first` to `last`. -/
structure CharRange where
  first : Char
  last : Char

/-- A range as ranges of bytes. Of a character with several bytes each one counts, and a range leads
from the last byte of its first character to the first byte of its last one. -/
def CharRange.bytes (range : CharRange) : List ByteRange :=
  let one := fun b => ByteRange.mk b b
  let first := Utf8.encode [range.first]
  let last := Utf8.encode [range.last]
  if range.first = range.last then first.map one
  else
    first.dropLast.map one ++
      (first.getLast?.toList.flatMap fun a => last.head?.toList.map fun b => ByteRange.mk a b) ++
      (last.drop 1).map one

/-- A set so far: its ranges, the latest first, and whether a dash waits for the end of a range. -/
structure SetDraft where
  ranges : List CharRange
  dashed : Bool

namespace SetDraft

/-- The ranges in order. A dash that waits for nothing stands for itself. -/
def finish (draft : SetDraft) : List CharRange :=
  ((if draft.dashed then [CharRange.mk '-' '-'] else []) ++ draft.ranges).reverse

/-- The set with one more character, which may end a range. -/
def add (draft : SetDraft) (c : Char) : Except ReadError SetDraft :=
  match draft.dashed, draft.ranges with
  | true, range :: ranges =>
    if c < range.first then .error (.invalidRange range.first c)
    else .ok ⟨⟨range.first, c⟩ :: ranges, false⟩
  | _, ranges => .ok ⟨⟨c, c⟩ :: ranges, false⟩

end SetDraft

/-- Reads a set from behind its first character on: its ranges, and what follows its bracket. -/
def setFrom (draft : SetDraft) : Text → Except ReadError (List CharRange × Text)
  | [] => .error .unclosedSet
  | c :: rest =>
    if c = ']' then .ok (draft.finish, rest)
    else if c = '-' && !draft.dashed then setFrom ⟨draft.ranges, true⟩ rest
    else
      match draft.add c with
      | .ok draft => setFrom draft rest
      | .error e => .error e

/-- Reads a set behind its opening bracket. The first character stands for itself. -/
def set (text : Text) : Except ReadError (Piece × Text) :=
  let negated := text.head? == some '!' || text.head? == some '^'
  match if negated then text.drop 1 else text with
  | [] => .error .unclosedSet
  | c :: rest =>
    (setFrom ⟨[⟨c, c⟩], false⟩ rest).map fun found =>
      (.set negated (found.1.flatMap CharRange.bytes), found.2)

/-! ## Pieces -/

/-- A group of alternatives that is being read: the alternatives before this one, the latest first,
and the pieces in front of the group, in reverse. -/
structure Group where
  earlier : List (List Piece)
  outside : List Piece

/-- A glob so far: its pieces in reverse, the groups around them from the inside out, the last
character, and whether a bracket still opens a set. -/
structure Draft where
  pieces : List Piece
  groups : List Group
  previous : Option Char
  opensSets : Bool

namespace Draft

/-- The glob with more pieces behind it. -/
def push (draft : Draft) (pieces : List Piece) (last : Char) : Draft :=
  { draft with pieces := pieces.reverse ++ draft.pieces, previous := some last }

/-- The glob with a character that stands for itself. -/
def literal (draft : Draft) (c : Char) : Draft :=
  draft.push ((Utf8.encode [c]).map .byte) c

/-- A piece that matches nothing but the empty text, since it has no options. -/
def isVoid : Piece → Bool
  | .choice [] => true
  | _ => false

/-- Closes the innermost group. An alternative of nothing does not count. -/
def close (draft : Draft) : Except ReadError Draft :=
  match draft.groups with
  | [] => .error .unopenedChoice
  | group :: groups =>
    let options := (draft.pieces.reverse :: group.earlier).reverse.filter fun o => !o.all isVoid
    .ok { draft with
      pieces := .choice options :: group.outside, groups := groups, previous := some '\x7d' }

/-- A comma separates alternatives in a group and stands for itself elsewhere. -/
def comma (draft : Draft) : Draft :=
  match draft.groups with
  | [] => draft.literal ','
  | group :: groups =>
    { draft with
      pieces := []
      groups := ⟨draft.pieces.reverse :: group.earlier, group.outside⟩ :: groups
      previous := some ',' }

def opened (draft : Draft) : Draft :=
  { draft with pieces := [], groups := ⟨[], draft.pieces⟩ :: draft.groups, previous := some '\x7b' }

/-- Two stars whose neighbours are no slashes are two stars. -/
def twoStars (draft : Draft) (text : Text) : Draft × Text :=
  (draft.push [.anyBytes, .anyBytes] '*', text)

/-- Two stars take the place of the piece in front of them, which is the slash. Behind other
directories they add nothing. -/
def below (draft : Draft) (piece : Piece) (last : Char) : Draft :=
  match draft.pieces with
  | .directories :: _ | .everythingBelow :: _ => { draft with previous := some last }
  | _ :: pieces => { draft with pieces := piece :: pieces, previous := some last }
  | [] => { draft with pieces := [piece], previous := some last }

/-- Reads what follows two stars. -/
def stars (draft : Draft) (text : Text) : Draft × Text :=
  let inGroup := !draft.groups.isEmpty
  let opensAlternative := draft.previous == some ',' || draft.previous == some '\x7b'
  if draft.pieces.isEmpty then
    match text with
    | [] => (draft.push [.directories] '*', [])
    | '/' :: rest => (draft.push [.directories] '/', rest)
    | _ => draft.twoStars text
  else if draft.previous != some '/' && !(inGroup && opensAlternative) then draft.twoStars text
  else
    match text with
    | [] => (draft.below .everythingBelow '*', [])
    | '/' :: rest => (draft.below .innerDirectories '/', rest)
    | c :: rest =>
      if inGroup && (c = ',' || c = '\x7d') then (draft.below .everythingBelow '*', c :: rest)
      else draft.twoStars (c :: rest)

/-- Reads one piece that starts with `c`. Where sets may stay unclosed, the bracket of such a one and
all later brackets stand for themselves. -/
def read (lenient : Bool) (draft : Draft) (c : Char) (rest : Text) :
    Except ReadError (Draft × Text) :=
  match c, rest with
  | '?', _ => .ok (draft.push [.anyByte] '?', rest)
  | '*', '*' :: rest => .ok (draft.stars rest)
  | '*', _ => .ok (draft.push [.anyBytes] '*', rest)
  | '\x7b', _ => .ok (draft.opened, rest)
  | '\x7d', _ => draft.close.map (·, rest)
  | ',', _ => .ok (draft.comma, rest)
  | '\\', [] => .error .danglingEscape
  | '\\', c :: rest => .ok (draft.literal c, rest)
  | '[', _ =>
    if draft.opensSets then
      match set rest with
      | .ok (piece, rest) => .ok (draft.push [piece] ']', rest)
      | .error .unclosedSet =>
        if lenient then .ok ({ draft.literal '[' with opensSets := false }, rest)
        else .error .unclosedSet
      | .error e => .error e
    else .ok (draft.literal '[', rest)
  | c, _ => .ok (draft.literal c, rest)

end Draft

/-- Reads pieces to the end of the text. The first argument bounds their number. -/
def piecesFrom (lenient : Bool) : Nat → Draft → Text → Except ReadError (List Piece)
  | _, draft, [] =>
    if draft.groups.isEmpty then .ok draft.pieces.reverse else .error .unclosedChoice
  | 0, draft, _ => .ok draft.pieces.reverse
  | steps + 1, draft, c :: rest =>
    match draft.read lenient c rest with
    | .ok (draft, rest) => piecesFrom lenient steps draft rest
    | .error e => .error e

def readPieces (lenient : Bool) (text : Text) : Except ReadError (List Piece) :=
  piecesFrom lenient text.length ⟨[], [], none, true⟩ text

end CodeAtlas.Glob
