import CodeAtlas.Text.Basic

/-! TOML values and the rules by which keys and headers build tables: no key is given twice, no table
is opened twice, and a table is extended only in the way in which it came about. -/

namespace CodeAtlas

/-- How a table came about: written in braces, opened by a header, implied by the header of a table
inside it, or implied by a dotted key. -/
inductive Toml.Origin where
  | braces
  | header
  | implied
  | dotted
  deriving Repr, DecidableEq

/-- A TOML value. Of numbers with decimals and of dates only their presence is kept. A list of tables
is what repeated headers in double brackets build. -/
inductive Toml where
  | str (value : String)
  | int (value : Int)
  | bool (value : Bool)
  | real
  | date
  | arr (items : List Toml)
  | table (origin : Toml.Origin) (fields : List (String × Toml))
  | tables (items : List (List (String × Toml)))

namespace Toml

/-- The keys of a table with their values. -/
abbrev Fields := List (String × Toml)

/-- The fields with a new value for a key that is there. -/
def Fields.replace (fields : Fields) (key : String) (value : Toml) : Fields :=
  fields.map fun field => if field.1 == key then (key, value) else field

/-- The fields with a new key. -/
def Fields.add (fields : Fields) (key : String) (value : Toml) : Fields :=
  fields ++ [(key, value)]

/-- Changes the last table of a list of tables. -/
def changeLast (change : Fields → Option Fields) (items : List Fields) : Option (List Fields) :=
  match items.getLast? with
  | some last => (change last).map fun fields => items.dropLast ++ [fields]
  | none => none

/-! ## Dotted keys -/

/-- Puts a value under a key into the table that the path of a dotted key leads to. Only tables that
are implied may be entered, and only one that a dotted key implied may be extended. -/
def insert (key : String) (value : Toml) : (path : List String) → Fields → Option Fields
  | [], fields => if (fields.lookup key).isSome then none else some (fields.add key value)
  | step :: path, fields =>
    match fields.lookup step with
    | none => (insert key value path []).map fun inner => fields.add step (.table .dotted inner)
    | some (.table .dotted inner) =>
      (insert key value path inner).map fun inner => fields.replace step (.table .dotted inner)
    | some (.table .implied inner) =>
      if path.isEmpty then none
      else (insert key value path inner).map fun inner =>
        fields.replace step (.table .implied inner)
    | some (.tables items) =>
      if path.isEmpty then none
      else (changeLast (insert key value path) items).map fun items =>
        fields.replace step (.tables items)
    | some _ => none

/-! ## Headers -/

/-- Changes the table under a key on the way of a header, which implies it if it is missing. -/
def enter (key : String) (change : Fields → Option Fields) (fields : Fields) : Option Fields :=
  match fields.lookup key with
  | none => (change []).map fun inner => fields.add key (.table .implied inner)
  | some (.table .braces _) => none
  | some (.table origin inner) =>
    (change inner).map fun inner => fields.replace key (.table origin inner)
  | some (.tables items) =>
    (changeLast change items).map fun items => fields.replace key (.tables items)
  | some _ => none

/-- Changes the table at the end of a path. -/
def changeAt (change : Fields → Option Fields) (path : List String) : Fields → Option Fields :=
  path.foldr enter change

/-- Opens a table that is new or only implied by headers. -/
def openTable (key : String) (fields : Fields) : Option Fields :=
  match fields.lookup key with
  | none => some (fields.add key (.table .header []))
  | some (.table .implied inner) => some (fields.replace key (.table .header inner))
  | some _ => none

/-- Appends a table to a list of tables that is new or built by the same header. -/
def openItem (key : String) (fields : Fields) : Option Fields :=
  match fields.lookup key with
  | none => some (fields.add key (.tables [[]]))
  | some (.tables items) => some (fields.replace key (.tables (items ++ [[]])))
  | some _ => none

/-! ## Access -/

/-- The settings of a record whose keys are `names` in order. Unknown keys are passed over; a list
gives the settings in order; a date has none of them. -/
def record? (names : List String) : Toml → Option (String → Option Toml)
  | .table _ fields => some fun name => fields.lookup name
  | .arr items => some fun name => (names.zip items).lookup name
  | .tables items => some fun name => (names.zip (items.map (Toml.table .header))).lookup name
  | .date => some fun _ => none
  | _ => none

def str? : Toml → Option String
  | .str s => some s
  | _ => none

def bool? : Toml → Option Bool
  | .bool b => some b
  | _ => none

/-- A whole number that is not negative. -/
def nat? : Toml → Option Nat
  | .int (.ofNat n) => some n
  | _ => none

def strings? : Toml → Option (List String)
  | .arr items => items.mapM str?
  | _ => none

end Toml

end CodeAtlas
