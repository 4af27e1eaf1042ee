import CodeAtlas.Proofs.Path
import CodeAtlas.Proofs.Text.Utf8
import CodeAtlas.Source.File

/-! Paths in bytes. Slashes and dots are bytes of their own, so that the bytes of a text are taken
apart as the text is, and what is read of a path holds a slash or a dot only where the path does. -/

namespace CodeAtlas.Path

open Utf8 (encode decode)

/-! ## Paths of texts -/

theorem pieces_cons_of_ne {α : Type} [Alphabet α] [DecidableEq α] {c : α} (h : c ≠ slash)
    (path : List α) : pieces (c :: path) = Text.consHead c (pieces path) := by
  have hslash : (c == slash) = false := by simpa using h
  rw [pieces, Text.splitWhere_cons, hslash, if_neg Bool.false_ne_true, pieces]

theorem pieces_append_of_not_mem {α : Type} [Alphabet α] [DecidableEq α] {front : List α}
    (h : slash ∉ front) (back : List α) :
    pieces (front ++ back) = (front ++ (pieces back).headD []) :: (pieces back).tail := by
  induction front with
  | nil =>
      cases hpieces : pieces back with
      | nil => exact absurd hpieces (Text.splitWhere_ne_nil _ back)
      | cons piece rest => simp [hpieces]
  | cons c front ih =>
      obtain ⟨hne, hrest⟩ := List.ne_and_not_mem_of_not_mem_cons h
      rw [List.cons_append, pieces_cons_of_ne hne.symm, ih hrest]
      rfl

theorem pieces_encode (text : Text) : pieces (encode text) = (pieces text).map encode := by
  induction text with
  | nil => rfl
  | cons c text ih =>
      by_cases hc : c = '/'
      · subst hc
        have hbytes : encode ('/' :: text) = [] ++ slash :: encode text := rfl
        have htext : '/' :: text = [] ++ slash :: text := rfl
        rw [hbytes, htext, pieces_append_slash, pieces_append_slash, ih, List.map_append]
        rfl
      · have hslash : (slash : UInt8) ∉ encode [c] := by
          rw [Utf8.mem_encode_iff (by decide)]
          intro hm
          exact hc (List.mem_singleton.mp hm).symm
        have hbytes : encode (c :: text) = encode [c] ++ encode text := Utf8.encode_append [c] text
        rw [hbytes, pieces_append_of_not_mem hslash, ih, pieces_cons_of_ne hc]
        cases pieces text with
        | nil => simp [Text.consHead, encode]
        | cons piece rest => simp [Text.consHead, ← Utf8.encode_append]

theorem inner?_encode (piece : Text) :
    inner? (encode piece) = (inner? piece).map (Component.map encode) := by
  have hdot : encode piece = [dot] ↔ piece = ['.'] := Utf8.encode_injective.eq_iff (b := ['.'])
  have hdots : encode piece = [dot, dot] ↔ piece = ['.', '.'] :=
    Utf8.encode_injective.eq_iff (b := ['.', '.'])
  have hchar : (dot : Char) = '.' := rfl
  simp only [inner?, Utf8.encode_eq_nil_iff, hdot, hdots, hchar]
  split
  · rfl
  · split <;> rfl

theorem isName_encode_iff {name : Text} : IsName (encode name) ↔ IsName name := by
  have hslash : (slash : UInt8) ∈ encode name ↔ '/' ∈ name := Utf8.mem_encode_iff (by decide)
  have hdot : encode name = [dot] ↔ name = ['.'] := Utf8.encode_injective.eq_iff (b := ['.'])
  have hdots : encode name = [dot, dot] ↔ name = ['.', '.'] :=
    Utf8.encode_injective.eq_iff (b := ['.', '.'])
  rw [IsName, IsName, hslash, Ne, Ne, Ne, Utf8.encode_eq_nil_iff, hdot, hdots]
  rfl

theorem filterMap_inner?_encode (pieces : List Text) :
    (pieces.map encode).filterMap inner? =
      (pieces.filterMap inner?).map (Component.map encode) := by
  rw [List.filterMap_map, List.map_filterMap]
  exact congrArg (List.filterMap · pieces) (funext inner?_encode)

theorem isAbsolute_encode_iff {text : Text} :
    (encode text).head? = some slash ↔ text.head? = some '/' := by
  cases text with
  | nil => simp [encode]
  | cons c text =>
      obtain ⟨b, tail, hbytes, -⟩ := Utf8.exists_utf8EncodeChar_eq c
      have hone : encode [c] = b :: tail := by simpa [encode] using hbytes
      rw [Utf8.encode_cons, hbytes, List.cons_append, List.head?_cons, List.head?_cons,
        Option.some.injEq, Option.some.injEq]
      constructor
      · rintro rfl
        have hm : (slash : UInt8) ∈ encode [c] := hone ▸ List.mem_cons_self
        exact (List.mem_singleton.mp ((Utf8.mem_encode_iff (by decide)).mp hm)).symm
      · rintro rfl
        exact (List.cons.inj hbytes).1.symm

/-- The bytes of a text have the components of the text. -/
theorem components_encode (text : Text) :
    components (encode text) = (components text).map (Component.map encode) := by
  by_cases hroot : text.head? = some '/'
  · obtain ⟨rest, rfl⟩ := List.head?_eq_some_iff.mp hroot
    have hbytes : encode ('/' :: rest) = slash :: encode rest := rfl
    have htext : components ('/' :: rest) = .root :: innerComponents rest := components_slash rest
    rw [hbytes, components_slash, htext, innerComponents, pieces_encode, filterMap_inner?_encode]
    rfl
  · have hdot : ∀ piece, encode piece = [dot] ↔ piece = [dot] := fun piece =>
      Utf8.encode_injective.eq_iff (b := ['.'])
    rw [components_eq_relativeComponents (mt isAbsolute_encode_iff.mp hroot),
      components_eq_relativeComponents hroot, pieces_encode]
    cases pieces text with
    | nil => rfl
    | cons piece rest =>
        simp only [List.map_cons, relativeComponents, hdot]
        split
        · rw [filterMap_inner?_encode, List.map_cons]
          rfl
        · exact filterMap_inner?_encode (piece :: rest)

/-! ## Names and extensions of texts -/

theorem map_encode_injective : Function.Injective (Component.map encode) := by
  intro component other h
  cases component <;> cases other <;> first | rfl | cases h | skip
  exact congrArg Component.normal (Utf8.encode_injective (Component.normal.inj h))

theorem map_decode_map_encode (component : Component Char) :
    (component.map encode).map decode = component := by
  cases component with
  | normal name => exact congrArg Component.normal (Utf8.decode_encode name)
  | root | current | parent => rfl

theorem under?_map {α β : Type} [DecidableEq α] [DecidableEq β] {f : Component α → Component β}
    (hf : Function.Injective f) (root path : List (Component α)) :
    under? (root.map f) (path.map f) = (under? root path).map (List.map f) := by
  induction root generalizing path with
  | nil => rfl
  | cons r root ih =>
      cases path with
      | nil => rfl
      | cons p path =>
          simp only [List.map_cons, under?, hf.eq_iff, ih]
          split <;> rfl

theorem seenFrom_encode (root path : Text) :
    seenFrom (encode root) (encode path) = (seenFrom root path).map (Component.map encode) := by
  rw [seenFrom, components_encode, components_encode, under?_map map_encode_injective, seenFrom]
  cases under? (components root) (components path) <;> rfl

theorem fileName?_encode (path : Text) :
    fileName? (encode path) = (fileName? path).map encode := by
  rw [fileName?, components_encode, List.getLast?_map, fileName?]
  cases (components path).getLast? with
  | none => rfl
  | some component => cases component <;> rfl

theorem extensionOf?_encode (name : Text) :
    extensionOf? (encode name) = (extensionOf? name).map encode := by
  have hmem : ∀ {text : Text}, (dot : UInt8) ∈ encode text ↔ (dot : Char) ∈ text :=
    Utf8.mem_encode_iff (by decide)
  by_cases hdot : (dot : Char) ∈ name
  · obtain ⟨stem, extension, hextension, rfl⟩ := exists_eq_append_dot hdot
    have hbytes : encode (stem ++ dot :: extension) = encode stem ++ dot :: encode extension :=
      Utf8.encode_append stem (dot :: extension)
    rw [hbytes, extensionOf?_append _ (mt hmem.mp hextension), extensionOf?_append _ hextension]
    simp only [Utf8.encode_eq_nil_iff]
    split <;> rfl
  · rw [extensionOf?_of_not_mem hdot, extensionOf?_of_not_mem (mt hmem.mp hdot)]
    rfl

theorem extension?_encode (path : Text) :
    extension? (encode path) = (extension? path).map encode := by
  rw [extension?, fileName?_encode, extension?]
  cases fileName? path with
  | none => rfl
  | some name => exact extensionOf?_encode name

/-! ## What is read of names -/

/-- An extension is read as the extension of what is read. -/
theorem extensionOf?_decode {name extension : Bytes} (h : extensionOf? name = some extension) :
    extensionOf? (decode name) = some (decode extension) := by
  obtain ⟨hdot, stem, hstem, rfl⟩ := extensionOf?_eq_some_iff.mp h
  have hread : decode (stem ++ dot :: extension) = decode stem ++ dot :: decode extension :=
    Utf8.decode_append (by decide) stem extension
  have hextension : (dot : Char) ∉ decode extension :=
    mt (Utf8.mem_of_ascii_mem_decode (b := 46) (by decide)) hdot
  rw [hread, extensionOf?_append _ hextension, if_neg (mt Utf8.decode_eq_nil_iff.mp hstem)]

theorem slash_not_mem_decode {name : Bytes} (h : slash ∉ name) : '/' ∉ decode name :=
  mt (Utf8.mem_of_ascii_mem_decode (b := 47) (by decide)) h

end CodeAtlas.Path

namespace CodeAtlas.SourceFile

theorem relativeText_coe (root path : String) :
    relativeText root path = String.ofList (Path.relative root.toList path.toList) := by
  have hnames : ∀ components : List (Path.Component Char),
      (components.map (Path.Component.map Utf8.encode)).map (Path.Component.map Utf8.decode) =
        components := by
    intro components
    rw [List.map_map]
    exact (List.map_congr_left fun component _ => Path.map_decode_map_encode component).trans
      (List.map_id components)
  rw [relativeText, Path.seenFrom_encode, hnames, Path.relative]

/-- A path that is a text makes the file that the text makes. -/
theorem ofPath?_coe (root path : String) :
    ofPath? root path = do
      let extension := String.ofList (← Path.extension? path.toList)
      let language ← Language.ofExtension? extension
      return ⟨path, String.ofList (Path.relative root.toList path.toList), language, extension⟩ := by
  rw [ofPath?, Path.extension?_encode, relativeText_coe]
  cases Path.extension? path.toList with
  | none => rfl
  | some extension =>
      have hread : RawText.text? ⟨Utf8.encode extension⟩ = some (String.ofList extension) := by
        rw [RawText.text?, Utf8.decode?_eq_some_iff.mpr rfl, Option.map_some]
      simp [hread]

end CodeAtlas.SourceFile
