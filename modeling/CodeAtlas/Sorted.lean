/-! Lists in order and without repetitions. Sorting keeps the order of items with equal keys, and of
items that count as the same the first one stays. -/

namespace CodeAtlas

variable {α : Type}

/-- The items ordered by a key. -/
def sortedBy {κ : Type} [LE κ] [DecidableLE κ] (key : α → κ) (items : List α) : List α :=
  items.mergeSort fun a b => decide (key a ≤ key b)

/-- The first item of each run of neighbours with equal keys. -/
def firstOfRuns (key : α → String) : List α → List α
  | [] => []
  | item :: items => item :: (firstOfRuns key items).dropWhile fun other => key other == key item

/-- The items ordered by a text, and of those with equal texts the first one. -/
def distinctBy (key : α → String) (items : List α) : List α :=
  firstOfRuns key (sortedBy key items)

/-- The texts in order, each once. -/
def sortedTexts (texts : List String) : List String :=
  distinctBy id texts

/-- Every item with every later one. -/
def pairsInOrder : List α → List (α × α)
  | [] => []
  | item :: items => items.map (item, ·) ++ pairsInOrder items

end CodeAtlas
