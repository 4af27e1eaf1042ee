import CodeAtlas.Language

/-! Reading records from JSON. A record is an object, whose unknown members are passed over, or an
array of its fields in order. -/

namespace CodeAtlas.Json

abbrev Fields := String → Option Json

/-- The fields of a record whose fields are named `names` in order. -/
def record? (names : List String) (value : Json) : Option Fields :=
  match value with
  | .obj _ => some fun name => value.field? name
  | .arr items =>
    if items.length = names.length then some fun name => (names.zip items).lookup name else none
  | _ => none

/-- A field that must be there. -/
def Fields.get {α : Type} (fields : Fields) (name : String) (read : Json → Option α) : Option α :=
  (fields name).bind read

/-- A field that may be missing or null. -/
def Fields.opt {α : Type} (fields : Fields) (name : String) (read : Json → Option α) :
    Option (Option α) :=
  match fields name with
  | none | some .null => some none
  | some value => (read value).map some

/-- A whole number below `limit`. -/
def below? (limit : Nat) (value : Json) : Option Nat :=
  value.nat?.filter (· < limit)

def word32? : Json → Option Nat := below? UInt32.size

def word64? : Json → Option Nat := below? UInt64.size

/-- A binary number; a whole number stands for the nearest one. -/
def binary? : Json → Option Binary
  | .binary x => some x
  | .int n => some (Binary.ofInt n)
  | _ => none

/-- A list of values that can all be read. -/
def list? {α : Type} (read : Json → Option α) (value : Json) : Option (List α) :=
  value.arr?.bind fun items => items.mapM read

def strings? : Json → Option (List String) := list? str?

/-- A tag: a string, or an object with the tag as its only member and null as the value. -/
def tag? : Json → Option String
  | .str s => some s
  | .obj [(name, .null)] => some name
  | _ => none

/-- A tag that `ofTag?` knows. -/
def tagged? {α : Type} (ofTag? : String → Option α) (value : Json) : Option α :=
  value.tag?.bind ofTag?

def language? : Json → Option Language := tagged? Language.ofTag?

def ofLanguage (language : Language) : Json := .str language.tag

end CodeAtlas.Json
