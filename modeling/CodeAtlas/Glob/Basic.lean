import CodeAtlas.Text.Utf8

/-! Globs: patterns of paths with wildcards. A glob is matched against the bytes of a path, all of
which have to be covered; a wildcard for one character stands for one byte. -/

namespace CodeAtlas

/-- A range of bytes. -/
structure ByteRange where
  first : UInt8
  last : UInt8
  deriving Repr, DecidableEq

def ByteRange.has (range : ByteRange) (b : UInt8) : Bool :=
  range.first ≤ b && b ≤ range.last

/-- A piece of a glob. Two stars stand for whole directories: at the start of a glob, between two
slashes, or behind the last slash. -/
inductive Glob.Piece where
  | byte (b : UInt8)
  | anyByte
  | anyBytes
  | set (negated : Bool) (ranges : List ByteRange)
  | directories
  | innerDirectories
  | everythingBelow
  | choice (options : List (List Glob.Piece))

/-- A glob. Its wildcards either match slashes like any other byte or stop at them. -/
structure Glob where
  crossesSlashes : Bool
  pieces : List Glob.Piece

namespace Glob

/-! ## Matching

A match is followed from all places of a path at once. The places in front of the bytes and behind
the last one are marked with whether the pieces so far can end there. -/

/-- The places behind one more byte that satisfies `p`. -/
def advance (p : UInt8 → Bool) (path : Bytes) (places : List Bool) : List Bool :=
  false :: places.zipWith (fun reached b => reached && p b) path

/-- The places behind any number of bytes that satisfy `p`, from left to right; `running` tells
that such a run comes from the left. -/
def spreadFrom (p : UInt8 → Bool) : (running : Bool) → Bytes → List Bool → List Bool
  | _, _, [] => []
  | running, [], reached :: _ => [running || reached]
  | running, b :: path, reached :: places =>
    (running || reached) :: spreadFrom p ((running || reached) && p b) path places

/-- The places behind any number of bytes that satisfy `p`. -/
def spread (p : UInt8 → Bool) (path : Bytes) (places : List Bool) : List Bool :=
  spreadFrom p false path places

def either (a b : List Bool) : List Bool :=
  a.zipWith (· || ·) b

def slash : UInt8 := 47

def behindSlash : Bytes → List Bool → List Bool :=
  advance (· == slash)

def behindAll : Bytes → List Bool → List Bool :=
  spread fun _ => true

mutual

/-- The places behind a piece, of a glob whose wildcards match the bytes that satisfy `wild`. -/
def follow (wild : UInt8 → Bool) (path : Bytes) (places : List Bool) : Piece → List Bool
  | .byte b => advance (· == b) path places
  | .anyByte => advance wild path places
  | .anyBytes => spread wild path places
  | .set negated ranges => advance (fun b => ranges.any (·.has b) != negated) path places
  | .directories =>
    either places (either (behindSlash path places) (behindSlash path (behindAll path places)))
  | .innerDirectories =>
    let first := behindSlash path places
    either first (behindSlash path (behindAll path first))
  | .everythingBelow => behindAll path (behindSlash path places)
  | .choice [] => places
  | .choice (option :: options) =>
    followAny wild path places (followAll wild path places option) options

/-- The places behind some pieces in a row. -/
def followAll (wild : UInt8 → Bool) (path : Bytes) (places : List Bool) :
    List Piece → List Bool
  | [] => places
  | piece :: pieces => followAll wild path (follow wild path places piece) pieces

/-- The places behind any of the options, together with those found before. -/
def followAny (wild : UInt8 → Bool) (path : Bytes) (places found : List Bool) :
    List (List Piece) → List Bool
  | [] => found
  | option :: options =>
    followAny wild path places (either found (followAll wild path places option)) options

end

/-- Two stars alone stand for every path. -/
def isEverything : List Piece → Bool
  | [.directories] => true
  | _ => false

/-- The glob covers the whole path. -/
def covers (glob : Glob) (path : Bytes) : Bool :=
  let wild := fun b => glob.crossesSlashes || b != slash
  let start := true :: path.map fun _ => false
  isEverything glob.pieces ||
    (followAll wild path start glob.pieces).getLast?.getD false

end Glob

end CodeAtlas
