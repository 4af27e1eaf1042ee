import CodeAtlas.Toml.Basic
import CodeAtlas.Json

/-! TOML numbers, dates and times. Digits may be grouped by single underscores between them. -/

namespace CodeAtlas.Toml

/-! ## Digits -/

/-- The digits that follow a first one; those read before are in reverse. -/
def digitsFrom (isDigit : Char → Bool) : Text → Text → Option (Text × Text)
  | '_' :: c :: rest, read => if isDigit c then digitsFrom isDigit rest (c :: read) else none
  | ['_'], _ => none
  | c :: rest, read =>
    if isDigit c then digitsFrom isDigit rest (c :: read) else some (read.reverse, c :: rest)
  | [], read => some (read.reverse, [])

/-- One or more digits and what follows them. -/
def digits? (isDigit : Char → Bool) : Text → Option (Text × Text)
  | c :: rest => if isDigit c then digitsFrom isDigit rest [c] else none
  | [] => none

/-- A digit of a base up to sixteen. -/
def isDigitOf (base : Nat) (c : Char) : Bool :=
  (Json.hexValue? c).any (· < base)

def valueOf (base : Nat) (digits : Text) : Nat :=
  digits.foldl (fun n c => base * n + (Json.hexValue? c).getD 0) 0

/-- A whole number of 64 bits with a sign. -/
def integer? (n : Int) : Option Toml :=
  if -Int.ofNat Json.signedLimit ≤ n ∧ n < Int.ofNat Json.signedLimit then some (.int n) else none

/-! ## Numbers -/

/-- The sign at the start of a number: whether it is a minus, and what follows. -/
def sign : Text → Bool × Text
  | '-' :: rest => (true, rest)
  | '+' :: rest => (false, rest)
  | rest => (false, rest)

/-- The digits in front of a decimal point. Nothing follows a leading zero. -/
def whole? : Text → Option (Text × Text)
  | '0' :: rest => some (['0'], rest)
  | rest => digits? Char.isDigit rest

/-- The exponent of a number: its value, or none if there is none, and what follows. -/
def exponent? : Text → Option (Option Int × Text)
  | [] => some (none, [])
  | c :: rest =>
    if c = 'e' || c = 'E' then
      let (negative, rest) := sign rest
      (digits? Char.isDigit rest).map fun (digits, rest) =>
        (some (if negative then -(valueOf 10 digits : Int) else valueOf 10 digits), rest)
    else some (none, c :: rest)

/-- The fraction of a number: its digits, or none if there is none, and what follows. -/
def fraction? : Text → Option (Option Text × Text)
  | '.' :: rest => (digits? Char.isDigit rest).map fun (digits, rest) => (some digits, rest)
  | rest => some (none, rest)

/-- A decimal number without its sign. One that is too large for a binary number of 64 bits is
refused. -/
def decimal? (negative : Bool) (text : Text) : Option (Toml × Text) := do
  let (whole, rest) ← whole? text
  let (fraction, rest) ← fraction? rest
  let (exponent, rest) ← exponent? rest
  if fraction.isNone && exponent.isNone then
    let n : Int := valueOf 10 whole
    return (← integer? (if negative then -n else n), rest)
  let places := (fraction.getD []).length
  let value := valueOf 10 (whole ++ fraction.getD [])
  let size := Fixed.ofDecimal? negative value (exponent.getD 0 - places)
  if size.isNone && !negative then failure
  return (.real, rest)

/-- A whole number in another base behind its mark. -/
def based? (base : Nat) (text : Text) : Option (Toml × Text) := do
  let (digits, rest) ← digits? (isDigitOf base) text
  return (← integer? (valueOf base digits), rest)

/-- A number and what follows it. -/
def number? (text : Text) : Option (Toml × Text) :=
  match text with
  | '0' :: 'x' :: rest => based? 16 rest
  | '0' :: 'o' :: rest => based? 8 rest
  | '0' :: 'b' :: rest => based? 2 rest
  | _ =>
    let (negative, rest) := sign text
    match rest with
    | 'i' :: 'n' :: 'f' :: rest => some (.real, rest)
    | 'n' :: 'a' :: 'n' :: rest => some (.real, rest)
    | rest => decimal? negative rest

/-! ## Dates and times -/

/-- Two digits with a value up to `limit`. -/
def two? (limit : Nat) : Text → Option (Nat × Text)
  | a :: b :: rest =>
    let value := valueOf 10 [a, b]
    if a.isDigit && b.isDigit && value ≤ limit then some (value, rest) else none
  | _ => none

/-- A character at the start of the text is passed. -/
def skip? (c : Char) : Text → Option Text
  | d :: rest => if c = d then some rest else none
  | [] => none

/-- A decimal point with digits is passed. -/
def skipFraction (text : Text) : Text :=
  match text with
  | '.' :: c :: rest => if c.isDigit then rest.dropWhile Char.isDigit else text
  | _ => text

/-- What follows a time of day. A minute may have a leap second. -/
def time? (text : Text) : Option Text := do
  let (_, rest) ← two? 23 text
  let (_, rest) ← two? 59 (← skip? ':' rest)
  let (_, rest) ← two? 60 (← skip? ':' rest)
  return skipFraction rest

/-- What follows an offset from universal time, which may be missing. -/
def skipOffset (text : Text) : Text :=
  match text with
  | [] => []
  | c :: rest =>
    if c = 'Z' || c = 'z' then rest
    else if c = '+' || c = '-' then
      (do
        let (_, rest) ← two? 23 rest
        let (_, rest) ← two? 59 (← skip? ':' rest)
        return rest).getD text
    else text

/-- The number of days of a month. -/
def daysIn (year month : Nat) : Nat :=
  if month = 2 then if year % 4 = 0 ∧ (year % 100 ≠ 0 ∨ year % 400 = 0) then 29 else 28
  else if month = 4 ∨ month = 6 ∨ month = 9 ∨ month = 11 then 30
  else 31

/-- What follows a calendar day. -/
def day? (text : Text) : Option Text := do
  let (century, rest) ← two? 99 text
  let (decade, rest) ← two? 99 rest
  let (month, rest) ← two? 12 (← skip? '-' rest)
  let (day, rest) ← two? 31 (← skip? '-' rest)
  if 1 ≤ month && 1 ≤ day && day ≤ daysIn (century * 100 + decade) month then return rest
  else failure

/-- What follows a time of day with its offset, behind the mark that joins it to a date. -/
def skipTime (text : Text) : Text :=
  match text with
  | c :: rest =>
    if c = 'T' || c = 't' || c = ' ' then ((time? rest).map skipOffset).getD text else text
  | [] => []

/-- What follows a date, a date with a time, or a time. -/
def date? (text : Text) : Option Text :=
  match day? text with
  | some rest => some (skipTime rest)
  | none => time? text

end CodeAtlas.Toml
