import CodeAtlas.Toml.Number
import CodeAtlas.Toml.Quote

/-! Reading TOML: keys, values and documents. A document is a run of lines, each with a setting, a
header or nothing, and each with an optional comment. -/

namespace CodeAtlas.Toml

/-- How deep values may be nested, and how many parts a dotted key may have. -/
def maxDepth : Nat := 79

/-! ## Blanks and comments -/

/-- The text behind the end of a line: blanks, an optional comment, and a newline or the end of the
text. -/
def afterLine? (text : Text) : Option Text :=
  let rest := match skipSpace text with
    | '#' :: rest => rest.dropWhile isPlain
    | rest => rest
  if rest.isEmpty then some [] else afterNewline? rest

/-- The text without blanks, comments and newlines at its start. The first argument bounds the
number of lines. -/
def skipLines : Nat → Text → Text
  | 0, text => text
  | lines + 1, text =>
    match skipSpace text with
    | [] => []
    | c :: rest =>
      if c = '#' || c = '\n' || c = '\r' then
        match afterLine? (c :: rest) with
        | some rest => skipLines lines rest
        | none => c :: rest
      else c :: rest

/-! ## Keys -/

/-- A character of a key without quotes. -/
def isBare (c : Char) : Bool :=
  Char.isAlphanum c || c == '_' || c == '-'

/-- One part of a key and what follows it. -/
def part? (text : Text) : Option (String × Text) :=
  match text with
  | '"' :: rest => basicFrom rest []
  | '\'' :: rest => literalFrom rest []
  | _ =>
    match text.takeWhile isBare with
    | [] => none
    | bare => some (String.ofList bare, text.dropWhile isBare)

/-- A key as the path to its last part, that part, and what follows. The first argument bounds the
number of parts. -/
def key? : Nat → Text → Option (List String × String × Text)
  | 0, _ => none
  | parts + 1, text => do
    let (part, rest) ← part? (skipSpace text)
    match skipSpace rest with
    | '.' :: rest =>
      let (path, last, rest) ← key? parts rest
      return (part :: path, last, rest)
    | rest => return ([], part, rest)

/-! ## Values -/

mutual

/-- A value at the start of the text and what follows it. The first argument bounds the number of
steps, the second the depth. -/
def value? : Nat → Nat → Text → Option (Toml × Text)
  | 0, _, _ => none
  | steps + 1, depth, text =>
    match text with
    | 't' :: 'r' :: 'u' :: 'e' :: rest => some (.bool true, rest)
    | 'f' :: 'a' :: 'l' :: 's' :: 'e' :: rest => some (.bool false, rest)
    | '[' :: rest =>
      match depth with
      | 0 => none
      | depth + 1 => items? steps depth rest []
    | '\x7b' :: rest =>
      match depth with
      | 0 => none
      | depth + 1 =>
        match skipSpace rest with
        | '\x7d' :: rest => some (.table .braces [], rest)
        | rest => pairs? steps depth rest []
    | '"' :: _ => (string? text).map fun found => (.str found.1, found.2)
    | '\'' :: _ => (string? text).map fun found => (.str found.1, found.2)
    | _ =>
      match date? text with
      | some rest => some (.date, rest)
      | none => number? text

/-- The rest of a list from an item on; the items read before are in reverse. A comma may follow the
last one. -/
def items? : Nat → Nat → Text → List Toml → Option (Toml × Text)
  | 0, _, _, _ => none
  | steps + 1, depth, text, read =>
    match skipLines (text.length + 1) text with
    | ']' :: rest => some (.arr read.reverse, rest)
    | text =>
      match value? steps depth text with
      | none => none
      | some (item, rest) =>
        match skipLines (rest.length + 1) rest with
        | ',' :: rest => items? steps depth rest (item :: read)
        | ']' :: rest => some (.arr (item :: read).reverse, rest)
        | _ => none

/-- The rest of a table in braces from a key on, with the fields read before. -/
def pairs? : Nat → Nat → Text → Fields → Option (Toml × Text)
  | 0, _, _, _ => none
  | steps + 1, depth, text, fields =>
    match key? maxDepth text with
    | some (path, key, '=' :: rest) =>
      match value? steps depth (skipSpace rest) with
      | none => none
      | some (value, rest) =>
        match insert key value path fields with
        | none => none
        | some fields =>
          match skipSpace rest with
          | ',' :: rest => pairs? steps depth rest fields
          | '\x7d' :: rest => some (.table .braces fields, rest)
          | _ => none
    | _ => none

end

/-! ## Documents -/

/-- A document so far: the path of the last header, and everything read. -/
structure Draft where
  header : List String
  fields : Fields

/-- Reads the header of a table behind its bracket. -/
def tableHeader? (draft : Draft) (text : Text) : Option (Draft × Text) := do
  let (path, key, rest) ← key? maxDepth text
  let rest ← afterLine? (← skip? ']' rest)
  return (⟨path ++ [key], ← changeAt (openTable key) path draft.fields⟩, rest)

/-- Reads the header of a table in a list of tables behind its brackets. -/
def itemHeader? (draft : Draft) (text : Text) : Option (Draft × Text) := do
  let (path, key, rest) ← key? maxDepth text
  let rest ← afterLine? (← skip? ']' (← skip? ']' rest))
  return (⟨path ++ [key], ← changeAt (openItem key) path draft.fields⟩, rest)

/-- Reads a setting of the table that was opened last. -/
def setting? (draft : Draft) (text : Text) : Option (Draft × Text) := do
  let (path, key, rest) ← key? maxDepth text
  let (value, rest) ← value? (2 * text.length + 2) maxDepth (skipSpace (← skip? '=' rest))
  let rest ← afterLine? rest
  return (⟨draft.header, ← changeAt (insert key value path) draft.header draft.fields⟩, rest)

/-- Reads a header or a setting. -/
def statement? (draft : Draft) : Text → Option (Draft × Text)
  | '[' :: '[' :: rest => itemHeader? draft rest
  | '[' :: rest => tableHeader? draft rest
  | text => setting? draft text

/-- Reads statements to the end of the text. The first argument bounds their number. -/
def statements? : Nat → Draft → Text → Option Fields
  | 0, _, _ => none
  | steps + 1, draft, text =>
    match skipLines (text.length + 1) text with
    | [] => some draft.fields
    | text =>
      match statement? draft text with
      | some (draft, rest) => statements? steps draft rest
      | none => none

/-- The document that a text holds. A byte-order mark in front is passed over. -/
def read? (text : Text) : Option Toml :=
  let text := if text.head? == some '\uFEFF' then text.drop 1 else text
  (statements? (text.length + 1) ⟨[], []⟩ text).map (.table .header)

end CodeAtlas.Toml
