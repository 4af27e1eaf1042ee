import CodeAtlas.Text.Basic

/-! Reading UTF-8. A sequence that no character has is one error, and its length is that of the
longest beginning of a character found there, or one byte. -/

namespace CodeAtlas

abbrev Bytes := List UInt8

namespace Utf8

/-- What stands at the start of some bytes. -/
inductive Head where
  | character (c : Char) (width : Nat)
  | invalid (width : Nat)
  deriving Repr, DecidableEq

/-- A byte that may follow the first byte of a character. -/
def isTail (b : UInt8) : Bool :=
  0x80 ≤ b && b ≤ 0xBF

def payload (b : UInt8) : Nat :=
  b.toNat - 0x80

/-- The range of the second byte of a three-byte character narrows after some first bytes, so that
no short character and no surrogate is written long. -/
def secondOfThree (first second : UInt8) : Bool :=
  if first = 0xE0 then 0xA0 ≤ second && second ≤ 0xBF
  else if first = 0xED then 0x80 ≤ second && second ≤ 0x9F
  else isTail second

/-- The range of the second byte of a four-byte character narrows after some first bytes, so that
no shorter character is written long and nothing exceeds the last code point. -/
def secondOfFour (first second : UInt8) : Bool :=
  if first = 0xF0 then 0x90 ≤ second && second ≤ 0xBF
  else if first = 0xF4 then 0x80 ≤ second && second ≤ 0x8F
  else isTail second

/-- The character or the error that starts with byte `b` and goes on with the bytes `rest`. -/
def head (b : UInt8) (rest : Bytes) : Head :=
  if b < 0x80 then .character (Char.ofNat b.toNat) 1
  else if 0xC2 ≤ b && b ≤ 0xDF then
    match rest with
    | c :: _ =>
      if isTail c then .character (Char.ofNat ((b.toNat - 0xC0) * 64 + payload c)) 2
      else .invalid 1
    | [] => .invalid 1
  else if 0xE0 ≤ b && b ≤ 0xEF then
    match rest with
    | c :: rest =>
      if secondOfThree b c then
        match rest with
        | d :: _ =>
          if isTail d then
            .character
              (Char.ofNat ((b.toNat - 0xE0) * 4096 + payload c * 64 + payload d)) 3
          else .invalid 2
        | [] => .invalid 2
      else .invalid 1
    | [] => .invalid 1
  else if 0xF0 ≤ b && b ≤ 0xF4 then
    match rest with
    | c :: rest =>
      if secondOfFour b c then
        match rest with
        | d :: rest =>
          if isTail d then
            match rest with
            | e :: _ =>
              if isTail e then
                .character (Char.ofNat
                  ((b.toNat - 0xF0) * 262144 + payload c * 4096 + payload d * 64 + payload e)) 4
              else .invalid 3
            | [] => .invalid 3
          else .invalid 2
        | [] => .invalid 2
      else .invalid 1
    | [] => .invalid 1
  else .invalid 1

/-- Reads unit after unit, putting U+FFFD for each error; `skip` bytes belong to the unit read
last, and `read` holds the characters read so far in reverse. -/
def decodeFrom : Nat → Bytes → Text → Text
  | _, [], read => read.reverse
  | skip + 1, _ :: rest, read => decodeFrom skip rest read
  | 0, b :: rest, read =>
    match head b rest with
    | .character c width => decodeFrom (width - 1) rest (c :: read)
    | .invalid width => decodeFrom (width - 1) rest (Char.ofNat 0xFFFD :: read)

/-- The text that the bytes hold, with U+FFFD in the place of each error. -/
def decode (bytes : Bytes) : Text :=
  decodeFrom 0 bytes []

/-- The offset of the first error at or behind `offset`; `skip` bytes belong to the unit read
last. -/
def errorFrom : Nat → Nat → Bytes → Option Nat
  | _, _, [] => none
  | skip + 1, offset, _ :: rest => errorFrom skip (offset + 1) rest
  | 0, offset, b :: rest =>
    match head b rest with
    | .character _ width => errorFrom (width - 1) (offset + 1) rest
    | .invalid _ => some offset

/-- The offset of the first error. -/
def firstError? (bytes : Bytes) : Option Nat :=
  errorFrom 0 0 bytes

/-- The text that the bytes hold, if they hold no error. -/
def decode? (bytes : Bytes) : Option Text :=
  match firstError? bytes with
  | none => some (decode bytes)
  | some _ => none

/-- The bytes of a text. -/
def encode (text : Text) : Bytes :=
  text.flatMap String.utf8EncodeChar

end Utf8

end CodeAtlas
