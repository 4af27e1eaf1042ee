import CodeAtlas.Repair.Semicolons

/-! An outline guessed from the words at the start of lines. -/

namespace CodeAtlas.Repair

def functionWords : List String := ["def", "function", "func", "fn", "fun", "async def"]

def classWords : List String := ["class", "struct", "interface", "trait", "type"]

/-- The text without the repetitions of a nonempty `word` at its start. The first argument bounds
their number. -/
def dropRepeated (word : Text) : Nat → Text → Text
  | 0, text => text
  | n + 1, text =>
    match text.after? word with
    | some rest => dropRepeated word n rest
    | none => text

/-- The text without the repetitions of `word` at its start. -/
def dropWords (word : String) (text : Text) : Text :=
  dropRepeated word.toList text.length text

/-- The identifier behind one of the words and a blank at the start of a line. -/
def declaredName? (words : List String) (line : Text) : Option String :=
  words.findSome? fun word =>
    match line.after? word.toList with
    | some (blank :: rest) =>
      if blank = ' ' || blank = '\t' then
        let name := (Text.trimStart rest).takeWhile isNameChar
        if name.isEmpty then none else some (String.ofList name)
      else none
    | _ => none

/-- The line without indentation and without words that make a declaration visible. -/
def declarationPart (line : Text) : Text :=
  dropWords "public " (dropWords "pub " (dropWords "export " line.trimStart))

def guessFunction? (line : Text × Nat) : Option FunctionDecl :=
  (declaredName? functionWords (declarationPart line.1)).map (⟨·, line.2 + 1, 1, false⟩)

/-- The class that a line seems to declare. -/
def guessClass? (line : Text × Nat) : Option ClassDecl :=
  match guessFunction? line with
  | some _ => none
  | none => (declaredName? classWords (declarationPart line.1)).map (⟨·, [], line.2 + 1, false⟩)

/-- Guesses the functions and classes of a text. -/
def structureGuess (text : Text) : Option Outcome :=
  let lines := text.lines.zipIdx
  let functions := lines.filterMap guessFunction?
  let classes := lines.filterMap guessClass?
  if functions.isEmpty && classes.isEmpty then none
  else
    some
      { output := .outline
          { functions := functions
            classes := classes
            imports := []
            complexity := 1 + functions.length + 2 * classes.length
            summary := some (.obj [("kind", .str "guess")]) }
        changes := ["guessed " ++ toString functions.length ++ " functions and " ++
          toString classes.length ++ " classes from line prefixes"]
        confidence := Strategy.structureGuess.confidence }

end CodeAtlas.Repair
