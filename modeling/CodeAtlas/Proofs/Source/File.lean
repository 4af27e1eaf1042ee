import CodeAtlas.Proofs.Source.RawPath

/-! Files as seen from a root. The last name of a path can be read off its relative form, and so the
files of one project that have the same relative path are of the same language, also where names are
no UTF-8. Joined to the root, the relative path of a file below it is the path of the file again. -/

namespace CodeAtlas

namespace Path

section Names

variable {α : Type} [Alphabet α] [DecidableEq α]

/-- A name in a path is not empty and holds no slash. -/
theorem normal_of_mem_components {path name : List α} (h : .normal name ∈ components path) :
    name ≠ [] ∧ slash ∉ name := by
  have hinner : IsInner (.normal name) := by
    obtain ⟨inner, hinner, hroot | hcurrent | hnone⟩ := components_cases path
    · exact hinner _ (by simpa [hroot] using h)
    · exact hinner _ (by simpa [hcurrent] using h)
    · exact hinner _ (hnone ▸ h)
  refine ⟨?_, hinner.1⟩
  rintro rfl
  have hnone := hinner.2
  rw [Component.text, inner?_nil] at hnone
  cases hnone

theorem fileName?_eq_some_iff {path name : List α} :
    fileName? path = some name ↔ (components path).getLast? = some (.normal name) := by
  unfold fileName?
  split
  · rename_i other hlast
    simp [hlast]
  · rename_i hlast
    constructor
    · intro h
      cases h
    · intro h
      exact absurd h (hlast name)

/-- Nothing is seen of the root alone, and else what is seen ends with the name of the file. -/
theorem seenFrom_cases (root : List α) {path name : List α} (h : fileName? path = some name) :
    (seenFrom root path = [] ∧ components path = components root) ∨
      (seenFrom root path).getLast? = some (.normal name) := by
  rw [fileName?_eq_some_iff] at h
  unfold seenFrom
  cases hunder : under? (components root) (components path) with
  | none => exact .inr h
  | some rest =>
      have hpath := under?_eq_some_iff.mp hunder
      rcases List.eq_nil_or_concat' rest with rfl | ⟨front, last, rfl⟩
      · exact .inl ⟨rfl, by simpa using hpath⟩
      · rw [hpath, ← List.append_assoc] at h
        exact .inr (by simpa using h)

end Names

/-! ## The last name of a written path -/

/-- What stands behind the last slash. -/
def lastName (path : Text) : Text :=
  (path.reverse.takeWhile (· != '/')).reverse

theorem lastName_append {front name : Text} (hfront : front = [] ∨ front.getLast? = some '/')
    (hname : '/' ∉ name) : lastName (front ++ name) = name := by
  have hall : ∀ c ∈ name.reverse, (c != '/') = true := by
    intro c hc
    simp only [bne_iff_ne]
    rintro rfl
    exact hname (List.mem_reverse.mp hc)
  unfold lastName
  rw [List.reverse_append, List.takeWhile_append_of_pos hall]
  rcases hfront with rfl | hlast
  · simp
  · rw [← List.head?_reverse] at hlast
    obtain ⟨rest, hrest⟩ := List.head?_eq_some_iff.mp hlast
    simp [hrest]

theorem lastName_render {components : List (Component Char)} {name : Text}
    (hlast : components.getLast? = some (.normal name)) (hname : '/' ∉ name) :
    lastName (render components) = name := by
  obtain ⟨front, rfl⟩ := List.getLast?_eq_some_iff.mp hlast
  have hjoin : render (front ++ [.normal name]) =
      (front.map Component.text).flatMap (· ++ ['/']) ++ name := by
    rw [render, List.map_append, List.map_singleton]
    exact Text.join_concat ['/'] _ name
  rw [hjoin]
  apply lastName_append _ hname
  rcases List.eq_nil_or_concat' front with rfl | ⟨front, last, rfl⟩
  · exact .inl rfl
  · exact .inr (by simp)

/-- The name of a file as it is read stands at the end of its relative path. -/
theorem lastName_relative (root : Bytes) {path name : Bytes} (h : fileName? path = some name) :
    (seenFrom root path = [] ∧ components path = components root) ∨
      lastName (render ((seenFrom root path).map (Component.map Utf8.decode))) =
        Utf8.decode name := by
  refine (seenFrom_cases root h).imp_right fun hlast => ?_
  have hslash := (normal_of_mem_components
    (List.mem_of_getLast? (fileName?_eq_some_iff.mp h))).2
  refine lastName_render ?_ (slash_not_mem_decode hslash)
  rw [List.getLast?_map, hlast]
  rfl

end Path

namespace SourceFile

/-! ## Relative paths -/

theorem ofPath?_eq_some {root path : RawText} {file : SourceFile}
    (h : ofPath? root path = some file) :
    file.relativePath = relativeText root path ∧
      ∃ name, Path.fileName? path.bytes = some name ∧
        ((Path.extensionOf? (Utf8.decode name)).bind fun extension =>
          Language.ofExtension? (String.ofList extension)) = some file.language := by
  simp only [ofPath?, Path.extension?, RawText.text?, Option.bind_eq_bind, Option.bind_eq_some_iff,
    Option.map_eq_some_iff, Option.pure_def, Utf8.decode?_eq_some_iff] at h
  obtain ⟨_, ⟨name, hname, hextension⟩, _, ⟨text, rfl, rfl⟩, language, hlanguage, hfile⟩ := h
  obtain rfl := Option.some.inj hfile
  refine ⟨rfl, name, hname, ?_⟩
  rw [Path.extensionOf?_decode hextension, Utf8.decode_encode]
  exact hlanguage

theorem decode_eq_of_relativeText_eq {root path path' : RawText} {name name' : Bytes}
    (hname : Path.fileName? path.bytes = some name)
    (hname' : Path.fileName? path'.bytes = some name')
    (h : relativeText root path = relativeText root path') :
    Utf8.decode name = Utf8.decode name' := by
  have hne : ∀ {path name : Bytes}, Path.fileName? path = some name → Utf8.decode name ≠ [] := by
    intro path name hname
    exact mt Utf8.decode_eq_nil_iff.mp
      (Path.normal_of_mem_components (List.mem_of_getLast? (Path.fileName?_eq_some_iff.mp hname))).1
  have hempty : ∀ {path : Bytes}, Path.seenFrom root.bytes path = [] →
      Path.lastName (Path.render ((Path.seenFrom root.bytes path).map
        (Path.Component.map Utf8.decode))) = [] := by
    intro path hseen
    rw [hseen]
    rfl
  have hread := congrArg Path.lastName (String.ofList_injective h)
  rcases Path.lastName_relative root.bytes hname with ⟨hseen, hroot⟩ | hlast <;>
    rcases Path.lastName_relative root.bytes hname' with ⟨hseen', hroot'⟩ | hlast'
  · rw [Path.fileName?_eq_some_iff, hroot] at hname
    rw [Path.fileName?_eq_some_iff, hroot', hname] at hname'
    rw [Path.Component.normal.inj (Option.some.inj hname')]
  · rw [hempty hseen, hlast'] at hread
    exact absurd hread.symm (hne hname')
  · rw [hempty hseen', hlast] at hread
    exact absurd hread (hne hname)
  · rwa [hlast, hlast'] at hread

/-- In one project the relative path fixes the language. -/
theorem language_eq_of_relativePath_eq {root path path' : RawText} {file file' : SourceFile}
    (hfile : ofPath? root path = some file) (hfile' : ofPath? root path' = some file')
    (h : file.relativePath = file'.relativePath) : file.language = file'.language := by
  obtain ⟨hpath, name, hname, hlanguage⟩ := ofPath?_eq_some hfile
  obtain ⟨hpath', name', hname', hlanguage'⟩ := ofPath?_eq_some hfile'
  rw [hpath, hpath'] at h
  rw [decode_eq_of_relativeText_eq hname hname' h] at hlanguage
  exact Option.some.inj (hlanguage.symm.trans hlanguage')

/-! ## Paths that are texts -/

theorem relativePath_of_ofPath? {root path : String} {file : SourceFile}
    (h : ofPath? root path = some file) :
    file.relativePath = String.ofList (Path.relative root.toList path.toList) :=
  (ofPath?_eq_some h).1.trans (relativeText_coe root path)

/-- Files below a root keep their paths: joined to the root, the relative path of a file is its
path, and so two of them have the same relative path exactly if their paths are the same. -/
theorem same_append_relativePath {root path : String} {file : SourceFile}
    (hunder : Path.components root.toList <+: Path.components path.toList)
    (hfile : ofPath? root path = some file) :
    Path.Same (.ofList (Path.append root.toList file.relativePath.toList)) path ∧
      ∀ {path' : String} {file' : SourceFile},
        Path.components root.toList <+: Path.components path'.toList →
        ofPath? root path' = some file' →
          (file'.relativePath = file.relativePath ↔ Path.Same path' path) := by
  have hjoined : ∀ {path : String} {file : SourceFile},
      Path.components root.toList <+: Path.components path.toList →
      ofPath? root path = some file →
        Path.Same (.ofList (Path.append root.toList file.relativePath.toList)) path := by
    intro path file hunder hfile
    rw [Path.Same, relativePath_of_ofPath? hfile, String.toList_ofList, String.toList_ofList]
    exact Path.components_append_relative hunder
  refine ⟨hjoined hunder hfile, fun {path' file'} hunder' hfile' => ?_⟩
  refine ⟨fun heq => ?_, fun hsame => ?_⟩
  · have hpath' := hjoined hunder' hfile'
    rw [heq] at hpath'
    exact hpath'.symm.trans (hjoined hunder hfile)
  · have hcomponents : Path.components path'.toList = Path.components path.toList := hsame
    rw [relativePath_of_ofPath? hfile, relativePath_of_ofPath? hfile', Path.relative,
      Path.relative, Path.seenFrom, Path.seenFrom, hcomponents]

/-- Neither dots nor slashes in excess, in the root or in the path, do any harm. -/
theorem same_append_relativePath_dots :
    Path.components "./naïve//src/".toList <+:
        Path.components "./naïve/./src///a/../.b/x.d.PY/".toList ∧
      ofPath? "./naïve//src/" "./naïve/./src///a/../.b/x.d.PY/" =
        some ⟨"./naïve/./src///a/../.b/x.d.PY/", "a/../.b/x.d.PY", .python, "PY"⟩ ∧
      Path.Same (.ofList (Path.append "./naïve//src/".toList "a/../.b/x.d.PY".toList))
        "./naïve/./src///a/../.b/x.d.PY/" := by
  have hunder : Path.components "./naïve//src/".toList <+:
      Path.components "./naïve/./src///a/../.b/x.d.PY/".toList := by
    decide +kernel
  have hfile : ofPath? "./naïve//src/" "./naïve/./src///a/../.b/x.d.PY/" =
      some ⟨"./naïve/./src///a/../.b/x.d.PY/", "a/../.b/x.d.PY", .python, "PY"⟩ := by
    decide +kernel
  exact ⟨hunder, hfile, (same_append_relativePath hunder hfile).1⟩

end SourceFile

end CodeAtlas
