import CodeAtlas.Binary
import CodeAtlas.Text.Utf8

/-! JSON values, their reader and their writer. Whole numbers that fit into 64 bits are exact, and all
other numbers that are read are binary ones. Numbers that are made to be shown have six decimals. -/

namespace CodeAtlas

/-- A JSON value. The members of an object are kept in written order, and of two members of one
name the later one counts. -/
inductive Json where
  | null
  | bool (value : Bool)
  | int (value : Int)
  | real (value : Fixed)
  | binary (value : Binary)
  | str (value : String)
  | arr (items : List Json)
  | obj (fields : List (String × Json))
  deriving Inhabited

namespace Json

/-! ## Access -/

/-- The member of that name; the last one counts. -/
def field? (name : String) : Json → Option Json
  | .obj fields => (fields.reverse.find? (·.1 == name)).map (·.2)
  | _ => none

def str? : Json → Option String
  | .str s => some s
  | _ => none

def bool? : Json → Option Bool
  | .bool b => some b
  | _ => none

def nat? : Json → Option Nat
  | .int (.ofNat n) => some n
  | _ => none

def arr? : Json → Option (List Json)
  | .arr items => some items
  | _ => none

/-- An optional value; none is `null`. -/
def ofOption {α : Type} (f : α → Json) : Option α → Json
  | none => .null
  | some x => f x

def ofNat (n : Nat) : Json := .int n

def strs (items : List String) : Json := .arr (items.map .str)

/-! ## Writing -/

/-- A character inside a written string. -/
def escaped (c : Char) : String :=
  if c = '"' then "\\\"" else if c = '\\' then "\\\\"
  else if c = '\n' then "\\n"
  else if c.toNat < 32 then
    let digits := Nat.toDigits 16 c.toNat
    String.ofList ('\\' :: 'u' :: List.replicate (4 - digits.length) '0' ++ digits)
  else c.toString

def writeString (out : String) (s : String) : String :=
  (s.foldl (fun out c => out ++ escaped c) (out.push '"')).push '"'

mutual

/-- Appends the written form of a value. -/
def write (out : String) : Json → String
  | .null => out ++ "null"
  | .bool b => out ++ (if b then "true" else "false")
  | .int n => out ++ toString n
  | .real x => writeString out x.render
  | .binary x => writeString out x.toFixed.render
  | .str s => writeString out s
  | .arr items => (writeItems (out.push '[') items).push ']'
  | .obj fields => (writeFields (out.push '\x7b') fields).push '\x7d'

/-- Appends values with commas between them. -/
def writeItems (out : String) : List Json → String
  | [] => out
  | [item] => write out item
  | item :: items => writeItems ((write out item).push ',') items

/-- Appends members with commas between them. -/
def writeFields (out : String) : List (String × Json) → String
  | [] => out
  | [(name, value)] => write ((writeString out name).push ':') value
  | (name, value) :: fields =>
    writeFields ((write ((writeString out name).push ':') value).push ',') fields

end

/-- The written form of a value on one line. A number with decimals is written as a string, so
that its six decimals survive. -/
def render (value : Json) : String :=
  write "" value

/-! ## Reading -/

def isSpace (c : Char) : Bool :=
  c == ' ' || c == '\n' || c == '\t' || c == '\r'

def skipSpace (text : Text) : Text :=
  text.dropWhile isSpace

/-- The value of a hexadecimal digit. -/
def hexValue? (c : Char) : Option Nat :=
  if '0' ≤ c && c ≤ '9' then some (c.toNat - 48)
  else if 'a' ≤ c && c ≤ 'f' then some (c.toNat - 87)
  else if 'A' ≤ c && c ≤ 'F' then some (c.toNat - 55)
  else none

/-- The value of four hexadecimal digits. -/
def hex4? (a b c d : Char) : Option Nat := do
  return (← hexValue? a) * 4096 + (← hexValue? b) * 256 + (← hexValue? c) * 16 + (← hexValue? d)

/-- The character that stands behind a backslash for another one. -/
def shortEscape? (c : Char) : Option Char :=
  if c = '"' || c = '\\' || c = '/' then some c
  else if c = 'n' then some '\n'
  else if c = 't' then some '\t'
  else if c = 'r' then some '\r'
  else if c = 'b' then some '\x08'
  else if c = 'f' then some '\x0c'
  else none

/-- The rest of a string behind its opening quote: its characters, read in reverse, and the text
behind the closing quote. A surrogate stands only in a pair. -/
def stringFrom : Text → Text → Option (String × Text)
  | '"' :: rest, read => some (String.ofList read.reverse, rest)
  | '\\' :: 'u' :: a :: b :: c :: d :: '\\' :: 'u' :: e :: f :: g :: h :: rest, read =>
    match hex4? a b c d with
    | none => none
    | some high =>
      if 0xD800 ≤ high && high ≤ 0xDBFF then
        match hex4? e f g h with
        | none => none
        | some low =>
          if 0xDC00 ≤ low && low ≤ 0xDFFF then
            stringFrom rest
              (Char.ofNat (0x10000 + (high - 0xD800) * 1024 + (low - 0xDC00)) :: read)
          else none
      else if 0xDC00 ≤ high && high ≤ 0xDFFF then none
      else stringFrom ('\\' :: 'u' :: e :: f :: g :: h :: rest) (Char.ofNat high :: read)
  | '\\' :: 'u' :: a :: b :: c :: d :: rest, read =>
    match hex4? a b c d with
    | none => none
    | some n =>
      if 0xD800 ≤ n && n ≤ 0xDFFF then none else stringFrom rest (Char.ofNat n :: read)
  | '\\' :: c :: rest, read =>
    match shortEscape? c with
    | none => none
    | some c => stringFrom rest (c :: read)
  | c :: rest, read => if c.toNat < 32 || c = '\\' then none else stringFrom rest (c :: read)
  | [], _ => none
termination_by text => text.length

/-- The digits at the start of a text and what follows them. -/
def digitRun (text : Text) : Text × Text :=
  (text.takeWhile Char.isDigit, text.dropWhile Char.isDigit)

def digitsValue (digits : Text) : Nat :=
  digits.foldl (fun n c => n * 10 + (c.toNat - 48)) 0

/-- The fraction of a number: its digits and what follows. -/
def fractionPart? : Text → Option (Text × Text)
  | '.' :: rest => match digitRun rest with
    | ([], _) => none
    | found => some found
  | rest => some ([], rest)

/-- The exponent behind its letter. -/
def exponentDigits? (rest : Text) : Option (Int × Text) :=
  let (negative, rest) := match rest with
    | '-' :: rest => (true, rest)
    | '+' :: rest => (false, rest)
    | rest => (false, rest)
  match digitRun rest with
  | ([], _) => none
  | (digits, rest) =>
    some (if negative then -(digitsValue digits : Int) else digitsValue digits, rest)

/-- The exponent of a number, if it has one, and what follows. -/
def exponentPart? : Text → Option (Option Int × Text)
  | 'e' :: rest => (exponentDigits? rest).map fun r => (some r.1, r.2)
  | 'E' :: rest => (exponentDigits? rest).map fun r => (some r.1, r.2)
  | rest => some (none, rest)

/-- Whole numbers of 64 bits with a sign lie below this limit. -/
def signedLimit : Nat := 9223372036854775808

/-- Adds digits to a number while it fits into 64 bits. The digits that are left over follow. -/
def gather : Nat → Text → Nat × Text
  | n, [] => (n, [])
  | n, c :: rest =>
    let longer := n * 10 + (c.toNat - 48)
    if longer < UInt64.size then gather longer rest else (n, c :: rest)

/-- Exponents with a sign lie within this limit in 32 bits. -/
def exponentLimit : Nat := 2147483647

/-- The number that is read from digits, whose last one has the exponent `place`, and an exponent. -/
def decimal? (digits : Nat) (place exponent : Int) : Option Binary :=
  if exponentLimit < exponent.natAbs then
    if digits != 0 && 0 < exponent then none else some .zero
  else Binary.ofDigits? digits (place + exponent)

/-- A number and what follows it. A whole number outside 64 bits, and a negative zero, is a binary
one. Of many digits the first ones count that fit into 64 bits. -/
def number? (text : Text) : Option (Json × Text) := do
  let (negative, rest) := match text with
    | '-' :: rest => (true, rest)
    | rest => (false, rest)
  let (whole, rest) := digitRun rest
  if whole.isEmpty || (whole.head? == some '0' && whole.length > 1) then failure
  let (fraction, rest) ← fractionPart? rest
  let (exponent, rest) ← exponentPart? rest
  let (digits, dropped) := gather 0 whole
  let isWhole := dropped.isEmpty && fraction.isEmpty && exponent.isNone
  if isWhole && !negative then
    return (.int digits, rest)
  if isWhole && digits != 0 && digits ≤ signedLimit then
    return (.int (-(digits : Int)), rest)
  let (digits, left) := gather digits fraction
  let place : Int := dropped.length + left.length - fraction.length
  let value ← decimal? digits place (exponent.getD 0)
  return (.binary (value.withSign negative), rest)

/-- How deep arrays and objects may be nested. -/
def maxDepth : Nat := 127

mutual

/-- A value at the start of the text and what follows it. The first argument bounds the number of
steps, the second the depth. -/
def readValue? : Nat → Nat → Text → Option (Json × Text)
  | 0, _, _ => none
  | steps + 1, depth, text =>
    match skipSpace text with
    | 'n' :: 'u' :: 'l' :: 'l' :: rest => some (.null, rest)
    | 't' :: 'r' :: 'u' :: 'e' :: rest => some (.bool true, rest)
    | 'f' :: 'a' :: 'l' :: 's' :: 'e' :: rest => some (.bool false, rest)
    | '"' :: rest => (stringFrom rest []).map fun r => (.str r.1, r.2)
    | '[' :: rest =>
      match depth with
      | 0 => none
      | depth + 1 =>
        match skipSpace rest with
        | ']' :: rest => some (.arr [], rest)
        | rest => readItems? steps depth rest []
    | '\x7b' :: rest =>
      match depth with
      | 0 => none
      | depth + 1 =>
        match skipSpace rest with
        | '\x7d' :: rest => some (.obj [], rest)
        | rest => readMembers? steps depth rest []
    | text => number? text

/-- The rest of an array from an item on; the items read before are in reverse. -/
def readItems? : Nat → Nat → Text → List Json → Option (Json × Text)
  | 0, _, _, _ => none
  | steps + 1, depth, text, read =>
    match readValue? steps depth text with
    | none => none
    | some (item, rest) =>
      match skipSpace rest with
      | ',' :: rest => readItems? steps depth rest (item :: read)
      | ']' :: rest => some (.arr (item :: read).reverse, rest)
      | _ => none

/-- The rest of an object from a member on; the members read before are in reverse. -/
def readMembers? : Nat → Nat → Text → List (String × Json) → Option (Json × Text)
  | 0, _, _, _ => none
  | steps + 1, depth, text, read =>
    match skipSpace text with
    | '"' :: rest =>
      match stringFrom rest [] with
      | none => none
      | some (name, rest) =>
        match skipSpace rest with
        | ':' :: rest =>
          match readValue? steps depth rest with
          | none => none
          | some (value, rest) =>
            match skipSpace rest with
            | ',' :: rest => readMembers? steps depth rest ((name, value) :: read)
            | '\x7d' :: rest => some (.obj ((name, value) :: read).reverse, rest)
            | _ => none
        | _ => none
    | _ => none

end

/-- The value that a text holds, with nothing but space around it and no deeper than `depth`. -/
def readDeep? (depth : Nat) (text : Text) : Option Json :=
  match readValue? (2 * text.length + 2) depth text with
  | some (value, rest) => if (skipSpace rest).isEmpty then some value else none
  | none => none

/-- The value that a text holds, no deeper than allowed. -/
def read? (text : Text) : Option Json :=
  readDeep? maxDepth text

/-! ## Reading what was written -/

mutual

/-- How deep a value is nested. -/
def depth : Json → Nat
  | .arr items => depthOfItems items + 1
  | .obj fields => depthOfFields fields + 1
  | _ => 0

def depthOfItems : List Json → Nat
  | [] => 0
  | item :: items => max item.depth (depthOfItems items)

def depthOfFields : List (String × Json) → Nat
  | [] => 0
  | (_, value) :: fields => max value.depth (depthOfFields fields)

end

mutual

/-- The value with its binary numbers as they are read where they were written. -/
def reread? : Json → Option Json
  | .binary x => x.reread?.map .binary
  | .arr items => (rereadItems? items).map .arr
  | .obj fields => (rereadFields? fields).map .obj
  | value => some value

def rereadItems? : List Json → Option (List Json)
  | [] => some []
  | item :: items => do return (← item.reread?) :: (← rereadItems? items)

def rereadFields? : List (String × Json) → Option (List (String × Json))
  | [] => some []
  | (name, value) :: fields => do return (name, ← value.reread?) :: (← rereadFields? fields)

end

/-- The value that is read where a value was written. One that is nested too deep is not read. -/
def restored? (value : Json) : Option Json :=
  if value.depth ≤ maxDepth then value.reread? else none

end Json

end CodeAtlas
