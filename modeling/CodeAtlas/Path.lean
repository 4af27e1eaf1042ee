import CodeAtlas.Text.Basic

/-! File paths. A path is made of components that stand between slashes; empty components and, but for
a leading one, single dots do not count. Paths of texts are made of characters, and those of a disk of
bytes. -/

namespace CodeAtlas.Path

/-- What paths are made of, with the two signs that have a meaning there. -/
class Alphabet (α : Type) where
  slash : α
  dot : α
  dot_ne_slash : dot ≠ slash

export Alphabet (slash dot)

instance : Alphabet Char where
  slash := '/'
  dot := '.'
  dot_ne_slash := by decide

instance : Alphabet UInt8 where
  slash := 47
  dot := 46
  dot_ne_slash := by decide

/-- A component of a path. -/
inductive Component (α : Type) where
  | root
  | current
  | parent
  | normal (name : List α)
  deriving Repr, DecidableEq

/-- The component with its name in another alphabet. -/
def Component.map {α β : Type} (f : List α → List β) : Component α → Component β
  | root => .root
  | current => .current
  | parent => .parent
  | normal name => .normal (f name)

variable {α : Type} [Alphabet α] [DecidableEq α]

/-- The written form of a component. -/
def Component.text : Component α → List α
  | root => [slash]
  | current => [dot]
  | parent => [dot, dot]
  | normal name => name

/-- The component that a piece between slashes stands for inside a path. -/
def inner? (piece : List α) : Option (Component α) :=
  if piece = [] || piece = [dot] then none
  else if piece = [dot, dot] then some .parent
  else some (.normal piece)

def pieces (path : List α) : List (List α) :=
  Text.splitWhere (· == slash) path

/-- A path that starts at the root. -/
def isAbsolute (path : List α) : Bool :=
  path.head? == some slash

/-- The components of a path by its pieces, unless it starts at the root. -/
def relativeComponents : List (List α) → List (Component α)
  | [] => []
  | piece :: rest =>
    if piece = [dot] then .current :: rest.filterMap inner? else (piece :: rest).filterMap inner?

/-- The components of a path. -/
def components (path : List α) : List (Component α) :=
  if isAbsolute path then .root :: (pieces path.tail).filterMap inner?
  else relativeComponents (pieces path)

/-- The components behind those of `root`, if the path lies there. -/
def under? : List (Component α) → List (Component α) → Option (List (Component α))
  | [], path => some path
  | _ :: _, [] => none
  | r :: root, p :: path => if r = p then under? root path else none

/-- The components of `path` as seen from `root`, or all of them if it lies elsewhere. -/
def seenFrom (root path : List α) : List (Component α) :=
  (under? (components root) (components path)).getD (components path)

/-- Names with a slash between neighbours. -/
def join (names : List (List α)) : List α :=
  [slash].intercalate names

/-- Components written with a slash between neighbours. -/
def render (components : List (Component α)) : List α :=
  join (components.map Component.text)

/-- The path of `path` as seen from `root`, or the whole path if it lies elsewhere. -/
def relative (root path : List α) : List α :=
  render (seenFrom root path)

/-- The last component, unless it is the root or dots. -/
def fileName? (path : List α) : Option (List α) :=
  match (components path).getLast? with
  | some (.normal name) => some name
  | _ => none

/-- What stands behind the last dot of a file name. A leading dot opens no extension. -/
def extensionOf? (name : List α) : Option (List α) :=
  match name.reverse.dropWhile (· != dot) with
  | [] | [_] => none
  | _ => some (name.reverse.takeWhile (· != dot)).reverse

def extension? (path : List α) : Option (List α) :=
  (fileName? path).bind extensionOf?

/-- The path `other` as seen from `base`; an absolute path stays. -/
def append (base other : List α) : List α :=
  if isAbsolute other then other
  else if base.isEmpty || base.getLast? == some slash then base ++ other
  else base ++ slash :: other

end CodeAtlas.Path
