import CodeAtlas.Text.Quoted
import CodeAtlas.Text.Basic

/-! Lengths of time and their compact written form: a bare number of seconds, or segments of a
number and a unit such as `1h30m`. A written length holds less than `2 ^ 64` seconds. -/

namespace CodeAtlas

/-- A length of time in nanoseconds. -/
structure Duration where
  nanoseconds : Nat
  deriving Repr, DecidableEq, Inhabited

namespace Duration

def ofMillis (n : Nat) : Duration := ⟨n * 1000000⟩

def ofSeconds (n : Nat) : Duration := ⟨n * 1000000000⟩

def seconds (d : Duration) : Nat := d.nanoseconds / 1000000000

/-- What is left beside the whole seconds. -/
def subsecond (d : Duration) : Nat := d.nanoseconds % 1000000000

def millis (d : Duration) : Nat := d.nanoseconds / 1000000

/-- The first number that a written number can no longer hold. -/
def wordLimit : Nat := UInt64.size

/-! ## Units -/

/-- A unit of a segment. -/
inductive TimeUnit where
  | millisecond
  | second
  | minute
  | hour
  | day
  | week
  deriving Repr, DecidableEq

namespace TimeUnit

/-- The spellings of a unit in lower case. -/
def spellings : TimeUnit → List String
  | millisecond => ["ms"]
  | second => ["s", "sec", "secs"]
  | minute => ["m", "min", "mins"]
  | hour => ["h", "hr", "hrs"]
  | day => ["d", "day", "days"]
  | week => ["w"]

def all : List TimeUnit := [millisecond, second, minute, hour, day, week]

/-- The length of one unit in milliseconds. -/
def millis : TimeUnit → Nat
  | millisecond => 1
  | second => 1000
  | minute => 60000
  | hour => 3600000
  | day => 86400000
  | week => 604800000

/-- The unit with a given spelling in lower case. -/
def ofSpelling? (word : String) : Option TimeUnit :=
  all.find? fun u => u.spellings.contains word

end TimeUnit

/-! ## Errors -/

/-- Why a text is no length of time. -/
inductive ReadError where
  | empty
  | expectedNumber
  | numberTooLarge
  | missingUnit
  | unknownUnit (word : String)
  | outOfRange
  deriving Repr, DecidableEq

/-- The message for an error in `input`. -/
def ReadError.message (input : String) : ReadError → String
  | empty => "empty duration"
  | expectedNumber => "expected a number in duration " ++ Text.quoted input
  | numberTooLarge =>
    "bad number in duration " ++ Text.quoted input ++
      ": number too large to fit in target type"
  | missingUnit => "missing unit in duration " ++ Text.quoted input
  | unknownUnit word =>
    "unknown unit " ++ Text.quoted word ++ " in duration " ++ Text.quoted input
  | outOfRange => "duration out of range: " ++ Text.quoted input

/-! ## Reading -/

def digitsValue (digits : Text) : Nat :=
  digits.foldl (fun n c => n * 10 + (c.toNat - 48)) 0

/-- A nonempty run of digits, with an optional plus sign, that fits into a word. -/
def word? (text : Text) : Option Nat :=
  let digits := match text with
    | '+' :: rest => rest
    | text => text
  if digits.isEmpty || !digits.all Char.isDigit then none
  else if digitsValue digits < wordLimit then some (digitsValue digits)
  else none

/-- An ASCII letter. -/
def isLetter (c : Char) : Bool :=
  ('a' ≤ c && c ≤ 'z') || ('A' ≤ c && c ≤ 'Z')

/-- Adds a segment to the milliseconds so far. Neither the segment nor the sum may reach the limit
in seconds. -/
def addSegment (total value : Nat) (unit : TimeUnit) : Except ReadError Nat :=
  if unit ≠ .millisecond ∧ wordLimit * 1000 ≤ value * unit.millis then .error .outOfRange
  else if wordLimit * 1000 ≤ total + value * unit.millis then .error .outOfRange
  else .ok (total + value * unit.millis)

/-- Reads one segment: the sum with it and what follows it. -/
def segment (total : Nat) (text : Text) : Except ReadError (Nat × Text) :=
  let digits := text.takeWhile Char.isDigit
  let rest := text.dropWhile Char.isDigit
  let word := String.ofList ((rest.takeWhile isLetter).map Char.toLower)
  if digits.isEmpty then .error .expectedNumber
  else if wordLimit ≤ digitsValue digits then .error .numberTooLarge
  else
    match TimeUnit.ofSpelling? word with
    | none => .error (if word.isEmpty then .missingUnit else .unknownUnit word)
    | some unit => (addSegment total (digitsValue digits) unit).map (·, rest.dropWhile isLetter)

/-- Reads segments to the end of the text. The first argument bounds their number. -/
def segments : Nat → Nat → Text → Except ReadError Nat
  | _, total, [] => .ok total
  | 0, total, _ :: _ => .ok total
  | steps + 1, total, text =>
    match segment total text with
    | .error e => .error e
    | .ok (total, rest) => segments steps total rest

/-- Reads a length of time. -/
def read (input : String) : Except ReadError Duration :=
  let text := Text.trim input.toList
  if text.isEmpty then .error .empty
  else
    match word? text with
    | some n => .ok (ofSeconds n)
    | none => (segments text.length 0 text).map ofMillis

end Duration

end CodeAtlas
