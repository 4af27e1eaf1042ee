import CodeAtlas.Json

/-! TOML strings: in double quotes with escapes or in single quotes without, on one line or between
triple quotes on several. -/

namespace CodeAtlas.Toml

/-- A character that may stand for itself in a string or a comment. -/
def isPlain (c : Char) : Bool :=
  c == '\t' || (32 ≤ c.toNat && c.toNat != 127)

def isSpace (c : Char) : Bool :=
  c == ' ' || c == '\t'

def skipSpace (text : Text) : Text :=
  text.dropWhile isSpace

/-- The text behind a newline at its start. -/
def afterNewline? : Text → Option Text
  | '\n' :: rest => some rest
  | '\r' :: '\n' :: rest => some rest
  | _ => none

/-! ## Reading -/

/-- The character that a letter behind a backslash stands for. -/
def shortEscape? (c : Char) : Option Char :=
  if c = '"' || c = '\\' then some c
  else if c = 'n' then some '\n'
  else if c = 't' then some '\t'
  else if c = 'r' then some '\r'
  else if c = 'b' then some '\x08'
  else if c = 'f' then some '\x0c'
  else none

/-- The character whose number some hexadecimal digits give. -/
def scalar? (digits : Text) : Option Char := do
  let code ← digits.foldlM (fun n c => (Json.hexValue? c).map (16 * n + ·)) 0
  if code.isValidChar then some (Char.ofNat code) else none

/-- The rest of a string behind its double quote; the characters read before are in reverse. -/
def basicFrom : Text → Text → Option (String × Text)
  | '"' :: rest, read => some (String.ofList read.reverse, rest)
  | '\\' :: 'u' :: a :: b :: c :: d :: rest, read =>
    match scalar? [a, b, c, d] with
    | some x => basicFrom rest (x :: read)
    | none => none
  | '\\' :: 'U' :: a :: b :: c :: d :: e :: f :: g :: h :: rest, read =>
    match scalar? [a, b, c, d, e, f, g, h] with
    | some x => basicFrom rest (x :: read)
    | none => none
  | '\\' :: c :: rest, read =>
    match shortEscape? c with
    | some x => basicFrom rest (x :: read)
    | none => none
  | c :: rest, read => if isPlain c && c != '\\' then basicFrom rest (c :: read) else none
  | [], _ => none

/-- The rest of a string behind its triple double quotes. Up to two quotes may stand in front of the
closing ones. A backslash at the end of a line joins it to the next text: while `joining`, blanks and
newlines are passed over. -/
def basicLinesFrom (joining : Bool) : Text → Text → Option (String × Text)
  | '"' :: '"' :: '"' :: '"' :: '"' :: rest, read =>
    some (String.ofList ('"' :: '"' :: read).reverse, rest)
  | '"' :: '"' :: '"' :: '"' :: rest, read => some (String.ofList ('"' :: read).reverse, rest)
  | '"' :: '"' :: '"' :: rest, read => some (String.ofList read.reverse, rest)
  | '\r' :: '\n' :: rest, read =>
    if joining then basicLinesFrom true rest read else basicLinesFrom false rest ('\n' :: read)
  | '\n' :: rest, read =>
    if joining then basicLinesFrom true rest read else basicLinesFrom false rest ('\n' :: read)
  | '\\' :: 'u' :: a :: b :: c :: d :: rest, read =>
    match scalar? [a, b, c, d] with
    | some x => basicLinesFrom false rest (x :: read)
    | none => none
  | '\\' :: 'U' :: a :: b :: c :: d :: e :: f :: g :: h :: rest, read =>
    match scalar? [a, b, c, d, e, f, g, h] with
    | some x => basicLinesFrom false rest (x :: read)
    | none => none
  | '\\' :: c :: rest, read =>
    match shortEscape? c with
    | some x => basicLinesFrom false rest (x :: read)
    | none =>
      if (afterNewline? (skipSpace (c :: rest))).isSome then basicLinesFrom true rest read
      else none
  | c :: rest, read =>
    if joining && isSpace c then basicLinesFrom true rest read
    else if isPlain c && c != '\\' then basicLinesFrom false rest (c :: read)
    else none
  | [], _ => none

/-- The rest of a string behind its single quote. -/
def literalFrom : Text → Text → Option (String × Text)
  | '\'' :: rest, read => some (String.ofList read.reverse, rest)
  | c :: rest, read => if isPlain c then literalFrom rest (c :: read) else none
  | [], _ => none

/-- The rest of a string behind its triple single quotes. Up to two quotes may stand in front of the
closing ones. -/
def literalLinesFrom : Text → Text → Option (String × Text)
  | '\'' :: '\'' :: '\'' :: '\'' :: '\'' :: rest, read =>
    some (String.ofList ('\'' :: '\'' :: read).reverse, rest)
  | '\'' :: '\'' :: '\'' :: '\'' :: rest, read => some (String.ofList ('\'' :: read).reverse, rest)
  | '\'' :: '\'' :: '\'' :: rest, read => some (String.ofList read.reverse, rest)
  | '\r' :: '\n' :: rest, read => literalLinesFrom rest ('\n' :: read)
  | c :: rest, read =>
    if isPlain c || c == '\n' then literalLinesFrom rest (c :: read) else none
  | [], _ => none

def dropNewline (text : Text) : Text :=
  (afterNewline? text).getD text

/-- A string of any form at the start of the text, and what follows it. -/
def string? : Text → Option (String × Text)
  | '"' :: '"' :: '"' :: rest => basicLinesFrom false (dropNewline rest) []
  | '"' :: rest => basicFrom rest []
  | '\'' :: '\'' :: '\'' :: rest => literalLinesFrom (dropNewline rest) []
  | '\'' :: rest => literalFrom rest []
  | _ => none

/-! ## Writing -/

/-- The length of the longest run of a character. -/
def longestRun (mark : Char) (text : Text) : Nat :=
  (text.foldl (fun (run, longest) c =>
    if c = mark then (run + 1, max longest (run + 1)) else (0, longest)) (0, 0)).2

/-- A control character that only an escape can show. -/
def needsEscape (c : Char) : Bool :=
  !isPlain c && c != '\n'

/-- A character inside double quotes, other than a quote or a newline. -/
def escaped (c : Char) : Text :=
  if c = '\\' then ['\\', '\\']
  else if c = '\t' then ['\\', 't']
  else if c = '\r' then ['\\', 'r']
  else if c = '\x08' then ['\\', 'b']
  else if c = '\x0c' then ['\\', 'f']
  else if isPlain c then [c]
  else
    let digits := (Nat.toDigits 16 c.toNat).map Char.toUpper
    '\\' :: 'u' :: (List.replicate (4 - digits.length) '0' ++ digits)

/-- The characters of a string on one line in double quotes. -/
def basicBody (text : Text) : Text :=
  text.flatMap fun c =>
    if c = '"' then ['\\', '"'] else if c = '\n' then ['\\', 'n'] else escaped c

/-- The characters of a string on several lines in double quotes. Of three quotes in a row the third
one is escaped; `run` counts the ones before. -/
def basicLinesBody : (run : Nat) → Text → Text
  | _, [] => []
  | run, c :: rest =>
    if c = '"' then
      if run < 2 then '"' :: basicLinesBody (run + 1) rest
      else '\\' :: '"' :: basicLinesBody 0 rest
    else if c = '\n' then '\n' :: basicLinesBody 0 rest
    else escaped c ++ basicLinesBody 0 rest

/-- A body between marks; a newline behind the opening mark does not belong to the string. -/
def between (mark : String) (isMultiline : Bool) (body : Text) : Text :=
  mark.toList ++ (if isMultiline then ['\n'] else []) ++ body ++ mark.toList

/-- The written form of a string: the first of double quotes, single quotes, triple double quotes and
triple single quotes that needs no escape, or else double quotes with escapes. -/
def quote (text : Text) : Text :=
  let isMultiline := Text.contains text ['\n']
  let doubles := longestRun '"' text
  let singles := longestRun '\'' text
  let controls := text.any needsEscape
  let backslash := Text.contains text ['\\']
  if !controls && !backslash && doubles == 0 && !isMultiline then
    between "\"" false (basicBody text)
  else if !controls && singles == 0 && !isMultiline then between "'" false text
  else if !controls && !backslash && doubles ≤ 2 then
    between "\"\"\"" isMultiline (basicLinesBody 0 text)
  else if !controls && singles ≤ 2 then between "'''" isMultiline text
  else if isMultiline then between "\"\"\"" true (basicLinesBody 0 text)
  else between "\"" false (basicBody text)

end CodeAtlas.Toml
