import CodeAtlas.Repair.Strategy

/-! Quote repair. A line may end inside a string; when that happens on an odd number of lines for
one kind of quote, the last of these lines is repaired, by closing the string or by escaping the
quote that opens it. -/

namespace CodeAtlas.Repair

/-- What is known when a line has been read up to some place: the open quote with its index, and
whether the next character is escaped. -/
structure QuoteScan where
  opened : Option (Char × Nat)
  escaped : Bool
  index : Nat

/-- Reads one character of a line. A quote inside a string of the other kind is content, and a
backslash escapes what follows it. -/
def QuoteScan.step (scan : QuoteScan) (c : Char) : QuoteScan :=
  if scan.escaped then { scan with escaped := false, index := scan.index + 1 }
  else if c = '\\' then { scan with escaped := true, index := scan.index + 1 }
  else if quotes.contains c then
    match scan.opened with
    | none => { scan with opened := some (c, scan.index), index := scan.index + 1 }
    | some (quote, _) =>
      if quote = c then { scan with opened := none, index := scan.index + 1 }
      else { scan with index := scan.index + 1 }
  else { scan with index := scan.index + 1 }

/-- The quote that is open at the end of a line, with its index. -/
def openQuote? (line : Text) : Option (Char × Nat) :=
  (line.foldl QuoteScan.step ⟨none, false, 0⟩).opened

/-- The line holds three quotes of one kind in a row. -/
def isTripleQuoted (line : Text) : Bool :=
  line.contains ['"', '"', '"'] || line.contains ['\'', '\'', '\'']

/-- The lines that `quote` leaves open, each by its index and the index of the quote. -/
def openLines (quote : Char) (lines : List Text) : List (Nat × Nat) :=
  lines.zipIdx.filterMap fun (line, number) =>
    if isTripleQuoted line then none
    else
      match openQuote? line with
      | some (found, index) => if found = quote then some (number, index) else none
      | none => none

/-- For each kind of quote that leaves an odd number of lines open, the last of them. -/
def unmatchedQuotes (lines : List Text) : List (Char × Nat × Nat) :=
  quotes.filterMap fun quote =>
    let found := openLines quote lines
    if found.length % 2 = 1 then found.getLast?.map (quote, ·) else none

/-- The characters in front of which a missing quote is put at the end of a line. -/
def trailingClosers : List Char := [';', ')', ']', '\x7d', ',']

/-- The line with the string closed that is opened by the quote at `index`. -/
def closeQuote (quote : Char) (index : Nat) (line : Text) : Text :=
  let body := Text.trimEnd (line.drop (index + 1))
  let inner := Text.dropTail trailingClosers.contains body
  line.take (index + 1) ++ inner ++ quote :: body.drop inner.length

/-- The line with a backslash in front of the character at `index`. -/
def escapeQuote (index : Nat) (line : Text) : Text :=
  line.take index ++ '\\' :: line.drop index

/-- Closes the string on each line that has an unmatched quote. -/
def quoteFix (text : Text) : Option Outcome :=
  let targets := unmatchedQuotes text.lines
  let lines := targets.foldl
    (fun lines (quote, number, index) => lines.modify number (closeQuote quote index)) text.lines
  let changes := targets.map fun (quote, number, _) =>
    "closed " ++ quote.toString ++ " on line " ++ toString (number + 1)
  if changes.isEmpty then none
  else some (.ofContent .quoteFix (Text.rejoin lines text) changes)

/-- Escapes the quote on each line that has an unmatched quote. -/
def quoteEscape (text : Text) : Option Outcome :=
  let targets := unmatchedQuotes text.lines
  let lines := targets.foldl
    (fun lines (_, number, index) => lines.modify number (escapeQuote index)) text.lines
  let changes := targets.map fun (quote, number, _) =>
    "escaped " ++ quote.toString ++ " on line " ++ toString (number + 1)
  if changes.isEmpty then none
  else some (.ofContent .quoteEscape (Text.rejoin lines text) changes)

end CodeAtlas.Repair
