/-! Values by key, each key once. -/

namespace CodeAtlas

/-- Values by key. -/
structure Keyed (κ α : Type) where
  items : List (κ × α)
  deriving Repr, DecidableEq

namespace Keyed

variable {κ α : Type} [BEq κ]

def empty : Keyed κ α := ⟨[]⟩

def get? (keyed : Keyed κ α) (key : κ) : Option α :=
  keyed.items.lookup key

def keys (keyed : Keyed κ α) : List κ :=
  keyed.items.map (·.1)

/-- Without the value of a key. -/
def erase (keyed : Keyed κ α) (key : κ) : Keyed κ α :=
  ⟨keyed.items.filter fun item => !item.1 == key⟩

/-- With a value for a key in place of the one that it had. -/
def put (keyed : Keyed κ α) (key : κ) (value : α) : Keyed κ α :=
  ⟨(keyed.erase key).items ++ [(key, value)]⟩

end Keyed

end CodeAtlas
