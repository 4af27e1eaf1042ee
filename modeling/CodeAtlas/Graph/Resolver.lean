import CodeAtlas.Language
import CodeAtlas.Path

/-! Resolvers map the source of an import onto the files of a project. The usual one turns the source
into a piece of a path and looks for it inside the path of each file. -/

namespace CodeAtlas.Graph

/-- A way to find the candidates that an import may mean, given by their positions. -/
structure Resolver where
  name : String
  resolve : (source : String) → (candidates : List String) → List Nat

/-! ## Import sources -/

/-- A path without its extension, if that belongs to a language. -/
def stripExtension (path : Text) : Text :=
  match Path.extensionOf? path with
  | some extension =>
    if !List.elem '/' extension && (Language.ofExtension? (String.ofList extension)).isSome then
      path.take (path.length - extension.length - 1)
    else path
  | none => path

/-- Writes a slash for every pair of colons. -/
def slashForColons : Text → Text
  | [] => []
  | ':' :: ':' :: rest => '/' :: slashForColons rest
  | c :: rest => c :: slashForColons rest

/-- Writes slashes between the segments of a source that names a module by other separators. In a
source without slashes leading dots only say where to start. -/
def slashed (source : Text) : Text :=
  if Text.contains source [':', ':'] then slashForColons source
  else if List.elem '/' source then source
  else (source.dropWhile (· == '.')).map fun c => if c = '.' then '/' else c

/-- What a source may start with to say where its path starts. -/
def anchors : List String :=
  ["./", "../", "@/", "~/", "/", "crate/", "self/", "super/"]

/-- What follows an anchor at the start of a path. -/
def afterAnchor? (path : Text) : Option Text :=
  anchors.findSome? fun anchor => Text.after? path anchor.toList

theorem length_lt_of_afterAnchor? {path rest : Text} (h : afterAnchor? path = some rest) :
    rest.length < path.length := by
  obtain ⟨anchor, hm, ha⟩ := List.exists_of_findSome?_eq_some h
  have hpos : 0 < anchor.toList.length := by
    simp only [anchors, List.mem_cons, List.not_mem_nil, or_false] at hm
    rcases hm with rfl | rfl | rfl | rfl | rfl | rfl | rfl | rfl <;> decide
  unfold Text.after? at ha
  split at ha
  · next hs =>
    have hle := (List.isPrefixOf_iff_prefix.mp hs).length_le
    cases ha
    rw [List.length_drop]
    omega
  · cases ha

/-- A path without the anchors at its start. -/
def withoutAnchors (path : Text) : Text :=
  match _h : afterAnchor? path with
  | some rest => withoutAnchors rest
  | none => path
termination_by path.length
decreasing_by exact length_lt_of_afterAnchor? _h

/-- A quotation mark that may stand around a source. -/
def isQuotationMark (c : Char) : Bool :=
  c == '"' || c == '\'' || c == '\x60'

/-- The piece of a path that the source of an import stands for. -/
def normalizeImport (source : Text) : Text :=
  let bare := Text.dropTail isQuotationMark (source.trim.dropWhile isQuotationMark)
  Text.dropTail (· == '/') (withoutAnchors (slashed (stripExtension bare)))

/-! ## Resolvers -/

/-- The positions of the items that satisfy `p`. -/
def positionsWhere (p : String → Bool) (candidates : List String) : List Nat :=
  (candidates.zipIdx.filter fun c => p c.1).map (·.2)

namespace Resolver

/-- Finds the files whose path without its extension contains the piece that the source stands
for. -/
def substring : Resolver where
  name := "substring"
  resolve source candidates :=
    let needle := normalizeImport source.toList
    if needle.isEmpty then []
    else positionsWhere (fun c => Text.contains (stripExtension c.toList) needle) candidates

/-- Finds the files whose path is the source. -/
def exact : Resolver where
  name := "exact"
  resolve source := positionsWhere (· == source)

/-- Finds nothing. -/
def never : Resolver where
  name := "none"
  resolve _ _ := []

end Resolver

end CodeAtlas.Graph
