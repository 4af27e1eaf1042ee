import CodeAtlas.Json.Record
import CodeAtlas.Path
import CodeAtlas.Text.Raw

/-! Source files, told apart by the path that they have as seen from the project's root. -/

namespace CodeAtlas

/-- A file of a known language: where it lies, and how it is called in the project. -/
structure SourceFile where
  path : RawText
  relativePath : String
  language : Language
  extension : String
  deriving Repr, DecidableEq, Inhabited

namespace SourceFile

/-- The path as seen from a root, as a text. Names that are no UTF-8 are read as well as can be, so
that files with different names may be called the same. -/
def relativeText (root path : RawText) : String :=
  String.ofList
    (Path.render ((Path.seenFrom root.bytes path.bytes).map (Path.Component.map Utf8.decode)))

/-- The file at `path` in the project at `root`, if its extension belongs to a language. -/
def ofPath? (root path : RawText) : Option SourceFile := do
  let extension ← RawText.text? ⟨← Path.extension? path.bytes⟩
  let language ← Language.ofExtension? extension
  return ⟨path, relativeText root path, language, extension⟩

/-- A file that is given by a relative path alone; backslashes count as slashes. -/
def inMemory (relativePath : String) (language : Language) : SourceFile where
  path := relativePath
  relativePath := String.ofList (relativePath.toList.map fun c => if c = '\\' then '/' else c)
  language := language
  extension := String.ofList ((Path.extension? relativePath.toList).getD [])

def toJson (f : SourceFile) : Json :=
  .obj [("path", .str f.path.text), ("relative_path", .str f.relativePath),
    ("language", .ofLanguage f.language), ("extension", .str f.extension)]

def ofJson? (value : Json) : Option SourceFile := do
  let fields ← value.record? ["path", "relative_path", "language", "extension"]
  return ⟨(← fields.get "path" Json.str? : String), ← fields.get "relative_path" Json.str?,
    ← fields.get "language" Json.language?, ← fields.get "extension" Json.str?⟩

end SourceFile

end CodeAtlas
