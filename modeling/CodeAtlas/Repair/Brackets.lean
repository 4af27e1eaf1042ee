import CodeAtlas.Repair.Strategy

/-! Bracket repair by counting: missing closers are appended, excess closers are removed from the
end. Brackets inside strings and comments count like all others. -/

namespace CodeAtlas.Repair

/-- The text with the first `n` characters `c` removed. -/
def removeFirst (c : Char) : Nat → Text → Text
  | 0, text => text
  | n + 1, text => removeFirst c n (text.erase c)

/-- The text without its last `n` characters `c`. -/
def removeLast (c : Char) (n : Nat) (text : Text) : Text :=
  (removeFirst c n text.reverse).reverse

/-- A bracket repair under way. -/
structure BracketRepair where
  text : Text
  closers : Text
  changes : List String

/-- Balances the counts of one pair of brackets. -/
def BracketRepair.balance (repair : BracketRepair) (pair : Char × Char) : BracketRepair :=
  let opens := repair.text.count pair.1
  let closes := repair.text.count pair.2
  if closes < opens then
    { repair with
      closers := repair.closers ++ List.replicate (opens - closes) pair.2
      changes := repair.changes ++
        ["appended " ++ toString (opens - closes) ++ " '" ++ pair.2.toString ++ "'"] }
  else if opens < closes then
    { repair with
      text := removeLast pair.2 (closes - opens) repair.text
      changes := repair.changes ++
        ["removed " ++ toString (closes - opens) ++ " trailing '" ++ pair.2.toString ++ "'"] }
  else repair

/-- The text with the appended closers on a line of their own. -/
def BracketRepair.content (repair : BracketRepair) : Text :=
  if repair.closers.isEmpty then repair.text
  else if repair.text.isEmpty || repair.text.endsWith ['\n'] then
    repair.text ++ repair.closers ++ ['\n']
  else repair.text ++ '\n' :: repair.closers ++ ['\n']

/-- Appends missing closers and removes excess ones, for each kind of bracket. -/
def bracketFix (text : Text) : Option Outcome :=
  let repair := bracketPairs.foldl BracketRepair.balance ⟨text, [], []⟩
  if repair.changes.isEmpty then none
  else some (.ofContent .bracketFix repair.content repair.changes)

end CodeAtlas.Repair
