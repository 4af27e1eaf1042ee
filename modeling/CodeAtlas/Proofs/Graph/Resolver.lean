import CodeAtlas.Graph.Resolver
import CodeAtlas.Proofs.Path
import CodeAtlas.Proofs.Text.Pieces
import Mathlib

/-! Sources of imports and the files that they mean. A file is found under its own path, and a
module under the path of its names; but of names that are written with dots the last one is lost
where it reads as the extension of a language's files. -/

namespace CodeAtlas.Graph

/-! ## Names -/

/-- A letter or a number of any script, or an underscore. -/
def isNameChar (c : Char) : Bool :=
  Text.isAlphanumeric c || c == '_'

theorem isNameChar_of_isAlpha {c : Char} (h : c.isAlpha = true) : isNameChar c = true := by
  have hascii : c.toNat < 128 := by
    simp only [Char.isAlpha, Char.isUpper, Char.isLower, Bool.or_eq_true, Bool.and_eq_true,
      decide_eq_true_eq, ge_iff_le, UInt32.le_iff_toNat_le] at h
    change c.val.toNat < 128
    rcases h with ⟨-, h⟩ | ⟨-, h⟩
    · exact Nat.lt_of_le_of_lt h (by decide)
    · exact Nat.lt_of_le_of_lt h (by decide)
  rw [isNameChar, Text.isAlphanumeric, if_pos hascii, Char.isAlphanum, h]
  rfl

theorem isBlank_of_isNameChar {c : Char} (h : isNameChar c = true) : Text.isBlank c = false := by
  have hnone : ∀ point ∈ Text.blankPoints, isNameChar (Char.ofNat point) = false := by
    decide +kernel
  rw [Bool.eq_false_iff]
  intro hblank
  have hc := hnone c.toNat (Text.toNat_mem_blankPoints hblank)
  rw [Char.ofNat_toNat, h] at hc
  cases hc

theorem isQuotationMark_of_isNameChar {c : Char} (h : isNameChar c = true) :
    isQuotationMark c = false := by
  simp [isQuotationMark, Text.ne_of_kind h (d := '"') (by decide),
    Text.ne_of_kind h (d := '\'') (by decide), Text.ne_of_kind h (d := '\x60') (by decide)]

/-! ## Extensions -/

/-- The extension of a language's files. -/
def IsExtension (extension : Text) : Prop :=
  (Language.ofExtension? (String.ofList extension)).isSome = true

instance (extension : Text) : Decidable (IsExtension extension) :=
  inferInstanceAs (Decidable (_ = true))

/-- An extension is made of letters. -/
theorem IsExtension.letters {extension : Text} (h : IsExtension extension) :
    extension ≠ [] ∧ ∀ c ∈ extension, c.isAlpha = true := by
  have hlisted : ∀ language ∈ Language.all, ∀ word ∈ language.extensions,
      word ≠ "" ∧ word.toList.all Char.isLower = true := by
    decide +kernel
  obtain ⟨language, hfind⟩ := Option.isSome_iff_exists.mp h
  have hword := List.find?_some hfind
  rw [List.contains_iff_mem] at hword
  obtain ⟨hne, hlower⟩ := hlisted language (List.mem_of_find?_eq_some hfind) _ hword
  rw [Language.lowered, String.toList_ofList] at hne hlower
  rw [String.toList_ofList, List.all_map] at hlower
  constructor
  · rintro rfl
    exact hne rfl
  · intro c hc
    rw [← Char.isLower_toLower_eq_isAlpha]
    exact List.all_eq_true.mp hlower c hc

theorem IsExtension.not_mem {extension : Text} (h : IsExtension extension) {c : Char}
    (hc : c.isAlpha = false) : c ∉ extension := by
  intro hm
  rw [h.letters.2 c hm] at hc
  cases hc

theorem stripExtension_append {stem extension : Text} (hstem : stem ≠ [])
    (h : IsExtension extension) : stripExtension (stem ++ '.' :: extension) = stem := by
  have hslash : '/' ∉ extension := h.not_mem (by decide)
  have hlanguage : (Language.ofExtension? (String.ofList extension)).isSome = true := h
  have hlength : (stem ++ '.' :: extension).length - extension.length - 1 = stem.length := by
    rw [List.length_append, List.length_cons]
    omega
  rw [stripExtension, Path.extensionOf?_append_text stem (h.not_mem (by decide)), if_neg hstem]
  simp only
  rw [hlength, List.take_left]
  simp [hslash, hlanguage]

/-- A path loses nothing but an extension. -/
theorem stripExtension_cases (path : Text) : stripExtension path = path ∨
    ∃ stem extension, stem ≠ [] ∧ IsExtension extension ∧ path = stem ++ '.' :: extension := by
  unfold stripExtension
  split
  · rename_i extension hextension
    split
    · rename_i hlanguage
      obtain ⟨-, stem, hstem, hpath⟩ := Path.extensionOf?_eq_some_iff.mp hextension
      exact .inr ⟨stem, extension, hstem, (Bool.and_eq_true_iff.mp hlanguage).2, hpath⟩
    · exact .inl rfl
  · exact .inl rfl

theorem stripExtension_eq_self {path : Text} (h : '.' ∉ path) : stripExtension path = path := by
  refine (stripExtension_cases path).resolve_right ?_
  rintro ⟨stem, extension, -, -, rfl⟩
  simp at h

/-! ## What a source stands for -/

/-- A source without the blanks and quotation marks around it. -/
def bareSource (source : Text) : Text :=
  Text.dropTail isQuotationMark (source.trim.dropWhile isQuotationMark)

/-- The piece of a path that a bare source without extension stands for. -/
def pieceOf (source : Text) : Text :=
  Text.dropTail (· == '/') (withoutAnchors (slashed source))

theorem normalizeImport_eq (source : Text) :
    normalizeImport source = pieceOf (stripExtension (bareSource source)) := rfl

/-- Nothing stands around a text that starts and ends in a name. -/
theorem bareSource_eq_self {first last : Char} {rest front : Text}
    (hfirst : isNameChar first = true) (hlast : isNameChar last = true)
    (h : first :: rest = front ++ [last]) : bareSource (first :: rest) = first :: rest := by
  have htrim : Text.trim (first :: rest) = first :: rest := by
    rw [Text.trim, Text.trimStart,
      List.dropWhile_cons_of_neg (by simp [isBlank_of_isNameChar hfirst]), h]
    exact Text.dropTail_concat front (isBlank_of_isNameChar hlast)
  rw [bareSource, htrim,
    List.dropWhile_cons_of_neg (by simp [isQuotationMark_of_isNameChar hfirst]), h]
  exact Text.dropTail_concat front (isQuotationMark_of_isNameChar hlast)

theorem withoutAnchors_eq (path : Text) : withoutAnchors path =
    match afterAnchor? path with
    | some rest => withoutAnchors rest
    | none => path := by
  rw [withoutAnchors]
  split <;> simp_all

theorem withoutAnchors_isSuffix (path : Text) : withoutAnchors path <:+ path := by
  fun_induction withoutAnchors path with
  | case1 path rest h ih =>
      obtain ⟨anchor, -, hanchor⟩ := List.exists_of_findSome?_eq_some h
      rw [Text.after?_eq_some_iff.mp hanchor]
      exact ih.trans (List.suffix_append _ rest)
  | case2 path h => exact List.suffix_refl path

/-! ## Matches -/

theorem mem_positionsWhere_iff {p : String → Bool} {candidates : List String} {i : Nat} :
    i ∈ positionsWhere p candidates ↔ ∃ c, candidates[i]? = some c ∧ p c = true := by
  simp [positionsWhere, List.mk_mem_zipIdx_iff_getElem?]

theorem mem_resolve_substring_iff {source : String} {candidates : List String} {i : Nat} :
    i ∈ Resolver.substring.resolve source candidates ↔
      normalizeImport source.toList ≠ [] ∧ ∃ c, candidates[i]? = some c ∧
        normalizeImport source.toList <:+: stripExtension c.toList := by
  unfold Resolver.substring
  dsimp only
  split
  · rename_i hempty
    simp [List.isEmpty_iff.mp hempty]
  · rename_i hne
    simp only [mem_positionsWhere_iff, Text.contains_iff_infix]
    rw [List.isEmpty_iff] at hne
    simp [hne]

/-! ## Files -/

/-- A path without pairs of colons stands for itself below the directory it is seen from. -/
theorem slashed_here {path : Text} (h : ¬[':', ':'] <:+: path) :
    slashed ('.' :: '/' :: path) = '.' :: '/' :: path := by
  have hcolons : Text.contains ('.' :: '/' :: path) [':', ':'] = false := by
    rw [Bool.eq_false_iff, Ne, Text.contains_iff_infix]
    simpa [List.infix_cons_iff] using h
  simp [slashed, hcolons]

theorem pieceOf_here_isInfix {path : Text} (h : ¬[':', ':'] <:+: path) :
    pieceOf ('.' :: '/' :: path) <:+: path := by
  have hanchor : afterAnchor? ('.' :: '/' :: path) = some path := rfl
  rw [pieceOf, slashed_here h, withoutAnchors_eq, hanchor]
  exact (Text.dropTail_isPrefix _ _).isInfix.trans (withoutAnchors_isSuffix path).isInfix

theorem bareSource_here (path : Text) : bareSource ('.' :: '/' :: path) =
    '.' :: '/' :: Text.dropTail isQuotationMark (Text.trimEnd path) := by
  have htrim : Text.trim ('.' :: '/' :: path) = '.' :: '/' :: Text.trimEnd path :=
    Text.trimEnd_append_cons ['.'] (c := '/') (by decide) path
  have hstart : ('.' :: '/' :: Text.trimEnd path).dropWhile isQuotationMark =
      '.' :: '/' :: Text.trimEnd path := rfl
  rw [bareSource, htrim, hstart]
  exact Text.dropTail_append_cons ['.'] (c := '/') (by decide) _

theorem stripExtension_here (path : Text) : ∃ stem, stem <+: path ∧
    stripExtension ('.' :: '/' :: path) = '.' :: '/' :: stem := by
  rcases stripExtension_cases ('.' :: '/' :: path) with hself | ⟨stem, extension, hne, hext, hpath⟩
  · exact ⟨path, List.prefix_refl path, hself⟩
  · rw [hpath, stripExtension_append hne hext]
    match stem, hpath with
    | [_], hpath => simp at hpath
    | d :: e :: stem, hpath =>
        simp only [List.cons_append, List.cons.injEq] at hpath
        obtain ⟨rfl, rfl, rfl⟩ := hpath
        exact ⟨stem, List.prefix_append _ _, rfl⟩

/-- What the path of a file stands for is found in it. -/
theorem normalizeImport_here_isInfix {path : Text} (h : ¬[':', ':'] <:+: path) :
    normalizeImport ('.' :: '/' :: path) <:+: stripExtension path := by
  rw [normalizeImport_eq, bareSource_here]
  rcases stripExtension_cases path with hself | ⟨stem, extension, hstem, hext, rfl⟩
  · -- no extension is lost from the file, but what is around the source may be
    obtain ⟨stem, hstem, hstrip⟩ := stripExtension_here
      (Text.dropTail isQuotationMark (Text.trimEnd path))
    have hprefix : stem <+: path :=
      hstem.trans ((Text.dropTail_isPrefix _ _).trans (Text.trimEnd_isPrefix path))
    have hcolons : ¬[':', ':'] <:+: stem := fun hin => h (hin.trans hprefix.isInfix)
    rw [hstrip, hself]
    exact (pieceOf_here_isInfix hcolons).trans hprefix.isInfix
  · -- nothing is around a source that ends in an extension
    obtain ⟨hne, hletters⟩ := hext.letters
    obtain ⟨front, last, rfl⟩ := (List.eq_nil_or_concat' extension).resolve_left hne
    have hlast : isNameChar last = true := isNameChar_of_isAlpha (hletters last (by simp))
    have hend : stem ++ '.' :: (front ++ [last]) = (stem ++ '.' :: front) ++ [last] := by
      simp
    have hcolons : ¬[':', ':'] <:+: stem :=
      fun hin => h (hin.trans (List.prefix_append _ _).isInfix)
    rw [stripExtension_append hstem hext, hend, Text.trimEnd,
      Text.dropTail_concat _ (isBlank_of_isNameChar hlast),
      Text.dropTail_concat _ (isQuotationMark_of_isNameChar hlast), ← hend]
    have hstrip : stripExtension ('.' :: '/' :: (stem ++ '.' :: (front ++ [last]))) =
        '.' :: '/' :: stem :=
      stripExtension_append (List.cons_ne_nil '.' ('/' :: stem)) hext
    rw [hstrip]
    exact pieceOf_here_isInfix hcolons

/-- An import of a file by its own path finds that file among whatever others. -/
theorem mem_resolve_own_path {candidates : List String} {i : Nat} {c : String}
    (hc : candidates[i]? = some c) (hcolons : ¬[':', ':'] <:+: c.toList)
    (hne : normalizeImport ("./" ++ c).toList ≠ []) :
    i ∈ Resolver.substring.resolve ("./" ++ c) candidates := by
  have hsource : ("./" ++ c).toList = '.' :: '/' :: c.toList := by
    rw [String.toList_append]
    rfl
  rw [mem_resolve_substring_iff]
  refine ⟨hne, c, hc, ?_⟩
  rw [hsource]
  exact normalizeImport_here_isInfix hcolons

theorem mem_resolve_own_path_quoted : 1 ∈ Resolver.substring.resolve
    ("./" ++ "self/'odd'.v2/.naïve.spec.TS\"")
    ["main.go", "self/'odd'.v2/.naïve.spec.TS\"", "other.rb"] :=
  mem_resolve_own_path (by rfl) (by decide +kernel) (by decide +kernel)

/-! ## Modules -/

/-- A part of a module's name. -/
def IsModuleName (name : Text) : Prop :=
  name ≠ [] ∧ name.all isNameChar = true

instance (name : Text) : Decidable (IsModuleName name) :=
  inferInstanceAs (Decidable (_ ∧ _))

/-- The names of a module, the outermost one first. That one is no word for a place to start
from. -/
structure IsModulePath (names : List Text) : Prop where
  ne_nil : names ≠ []
  named : ∀ name ∈ names, IsModuleName name
  unanchored : ∀ word ∈ ["crate", "self", "super"], names.head? ≠ some word.toList

instance (names : List Text) : Decidable (IsModulePath names) :=
  decidable_of_iff (names ≠ [] ∧ (∀ name ∈ names, IsModuleName name) ∧
      ∀ word ∈ ["crate", "self", "super"], names.head? ≠ some word.toList)
    ⟨fun ⟨hne, hnamed, hfirst⟩ => ⟨hne, hnamed, hfirst⟩,
      fun h => ⟨h.ne_nil, h.named, h.unanchored⟩⟩

/-- The last of several names reads as the extension of a language's files. -/
def EndsInExtension (names : List Text) : Prop :=
  names.dropLast ≠ [] ∧ ∃ last ∈ names.getLast?, IsExtension last

instance (names : List Text) : Decidable (EndsInExtension names) :=
  inferInstanceAs (Decidable (_ ∧ _))

theorem endsInExtension_concat {front : List Text} {last : Text} :
    EndsInExtension (front ++ [last]) ↔ front ≠ [] ∧ IsExtension last := by
  simp [EndsInExtension]

/-- An anchor is closed by its only slash. What precedes it is a name only in the words for a place
to start from. -/
theorem anchors_closed : ∀ anchor ∈ anchors, ∃ word, anchor.toList = word ++ ['/'] ∧
    '/' ∉ word ∧ (IsModuleName word → word ∈ ["crate".toList, "self".toList, "super".toList]) := by
  have hall : ∀ anchor ∈ anchors, anchor.toList = anchor.toList.dropLast ++ ['/'] ∧
      '/' ∉ anchor.toList.dropLast ∧ (IsModuleName anchor.toList.dropLast →
        anchor.toList.dropLast ∈ ["crate".toList, "self".toList, "super".toList]) := by
    decide +kernel
  exact fun anchor hm => ⟨_, hall anchor hm⟩

theorem slashForColons_append {front : Text} (h : ':' ∉ front) (back : Text) :
    slashForColons (front ++ back) = front ++ slashForColons back := by
  induction front with
  | nil => rfl
  | cons c front ih =>
      obtain ⟨hne, hrest⟩ := List.ne_and_not_mem_of_not_mem_cons h
      simp [slashForColons, hne.symm, ih hrest]

theorem slashForColons_join {names : List Text} (h : ∀ name ∈ names, ':' ∉ name) :
    slashForColons (Text.join [':', ':'] names) = Text.join ['/'] names := by
  induction names with
  | nil => rfl
  | cons name names ih =>
      obtain ⟨hname, hrest⟩ := List.forall_mem_cons.mp h
      cases names with
      | nil => simpa [Text.join, slashForColons] using slashForColons_append hname []
      | cons next names =>
          have hjoin : Text.join [':', ':'] (name :: next :: names) =
              name ++ ':' :: ':' :: Text.join [':', ':'] (next :: names) := by
            simp [Text.join, List.intercalate_cons_cons]
          rw [hjoin, slashForColons_append hname, Text.join_cons_cons, ← ih hrest]
          rfl

theorem map_join_dots {names : List Text} (h : ∀ name ∈ names, '.' ∉ name) :
    (Text.join ['.'] names).map (fun c => if c = '.' then '/' else c) = Text.join ['/'] names := by
  have hname : ∀ {name : Text}, '.' ∉ name →
      name.map (fun c => if c = '.' then '/' else c) = name := by
    intro name hdot
    conv_rhs => rw [← List.map_id name]
    refine List.map_congr_left fun c hc => if_neg ?_
    rintro rfl
    exact hdot hc
  induction names with
  | nil => rfl
  | cons name names ih =>
      obtain ⟨hfirst, hrest⟩ := List.forall_mem_cons.mp h
      cases names with
      | nil => simpa [Text.join] using hname hfirst
      | cons next names =>
          rw [Text.join_cons_cons, Text.join_cons_cons, ← ih hrest, List.map_append, hname hfirst]
          rfl

namespace IsModulePath

variable {names : List Text} (h : IsModulePath names)
include h

theorem not_mem {c : Char} (hc : isNameChar c = false) : ∀ name ∈ names, c ∉ name := by
  intro name hname hm
  rw [List.all_eq_true.mp (h.named name hname).2 c hm] at hc
  cases hc

theorem not_mem_join {c : Char} (hc : isNameChar c = false) {separator : Text}
    (hseparator : c ∉ separator) : c ∉ Text.join separator names := by
  intro hm
  rcases Text.mem_of_mem_join hm with hm | ⟨name, hname, hm⟩
  · exact hseparator hm
  · exact h.not_mem hc name hname hm

theorem exists_join_eq_cons (separator : Text) : ∃ first rest, isNameChar first = true ∧
    Text.join separator names = first :: rest := by
  obtain ⟨name, names, rfl⟩ := List.exists_cons_of_ne_nil h.ne_nil
  obtain ⟨hne, hall⟩ := h.named name List.mem_cons_self
  obtain ⟨first, rest, rfl⟩ := List.exists_cons_of_ne_nil hne
  have hfirst : isNameChar first = true := List.all_eq_true.mp hall first List.mem_cons_self
  cases names with
  | nil => exact ⟨first, rest, hfirst, by simp [Text.join]⟩
  | cons next names =>
      exact ⟨first, rest ++ (separator ++ Text.join separator (next :: names)), hfirst, by
        simp [Text.join, List.intercalate_cons_cons]⟩

theorem exists_join_eq_concat (separator : Text) : ∃ front last, isNameChar last = true ∧
    Text.join separator names = front ++ [last] := by
  obtain ⟨names, name, rfl⟩ := (List.eq_nil_or_concat' names).resolve_left h.ne_nil
  obtain ⟨hne, hall⟩ := h.named name (by simp)
  obtain ⟨front, last, rfl⟩ := (List.eq_nil_or_concat' name).resolve_left hne
  have hlast : isNameChar last = true := List.all_eq_true.mp hall last (by simp)
  refine ⟨names.flatMap (· ++ separator) ++ front, last, hlast, ?_⟩
  rw [Text.join_concat, List.append_assoc]

theorem join_ne_nil (separator : Text) : Text.join separator names ≠ [] := by
  obtain ⟨first, rest, -, hjoin⟩ := h.exists_join_eq_cons separator
  rw [hjoin]
  exact List.cons_ne_nil first rest

theorem bareSource_join (separator : Text) :
    bareSource (Text.join separator names) = Text.join separator names := by
  obtain ⟨first, rest, hfirst, hcons⟩ := h.exists_join_eq_cons separator
  obtain ⟨front, last, hlast, hconcat⟩ := h.exists_join_eq_concat separator
  rw [hcons] at hconcat ⊢
  exact bareSource_eq_self hfirst hlast hconcat

theorem slashed_join_dots : slashed (Text.join ['.'] names) = Text.join ['/'] names := by
  have hcolons : Text.contains (Text.join ['.'] names) [':', ':'] = false := by
    rw [Bool.eq_false_iff, Ne, Text.contains_iff_infix]
    intro hin
    exact h.not_mem_join (c := ':') (by decide) (by decide) (hin.subset (by simp))
  have hslash : '/' ∉ Text.join ['.'] names := h.not_mem_join (by decide) (by decide)
  have hstart : (Text.join ['.'] names).dropWhile (· == '.') = Text.join ['.'] names := by
    obtain ⟨first, rest, hfirst, hjoin⟩ := h.exists_join_eq_cons ['.']
    rw [hjoin, List.dropWhile_cons_of_neg]
    simpa using Text.ne_of_kind hfirst (by decide)
  simp only [slashed, hcolons, Bool.false_eq_true, if_false, List.elem_iff, hslash, hstart]
  exact map_join_dots (h.not_mem (by decide))

theorem slashed_join_colons : slashed (Text.join [':', ':'] names) = Text.join ['/'] names := by
  obtain ⟨name, rest, rfl⟩ := List.exists_cons_of_ne_nil h.ne_nil
  cases rest with
  | nil => simpa [Text.join] using h.slashed_join_dots
  | cons next rest =>
      have hcolons : Text.contains (Text.join [':', ':'] (name :: next :: rest)) [':', ':'] =
          true := by
        rw [Text.contains_iff_infix]
        exact ⟨name, Text.join [':', ':'] (next :: rest), by
          simp [Text.join, List.intercalate_cons_cons]⟩
      rw [slashed, if_pos hcolons]
      exact slashForColons_join (h.not_mem (by decide))

theorem afterAnchor?_join : afterAnchor? (Text.join ['/'] names) = none := by
  refine List.findSome?_eq_none_iff.mpr fun anchor hanchor => ?_
  rw [Option.eq_none_iff_forall_ne_some]
  intro rest hrest
  obtain ⟨word, hword, hslash, hname⟩ := anchors_closed anchor hanchor
  have hjoin : Text.join ['/'] names = word ++ '/' :: rest := by
    rw [Text.after?_eq_some_iff.mp hrest, hword, List.append_assoc, List.singleton_append]
  have hnames : names = word.splitOn '/' ++ rest.splitOn '/' := by
    rw [← List.splitOn_append_cons_self, ← hjoin]
    exact (List.splitOn_intercalate '/' (h.not_mem (by decide)) h.ne_nil).symm
  rw [List.splitOn_eq_singleton hslash] at hnames
  have hhead : names.head? = some word := by
    rw [hnames]
    rfl
  have hmem : word ∈ names := List.mem_of_head? hhead
  have hanchor := hname (h.named word hmem)
  simp only [List.mem_cons, List.not_mem_nil, or_false] at hanchor
  rcases hanchor with rfl | rfl | rfl
  · exact h.unanchored "crate" (by simp) hhead
  · exact h.unanchored "self" (by simp) hhead
  · exact h.unanchored "super" (by simp) hhead

/-- A module stands for the path of its names. -/
theorem pieceOf_join {source : Text} (hsource : slashed source = Text.join ['/'] names) :
    pieceOf source = Text.join ['/'] names := by
  obtain ⟨front, last, hlast, hjoin⟩ := h.exists_join_eq_concat ['/']
  have hslash : (last == '/') = false := by
    simpa using Text.ne_of_kind hlast (by decide)
  rw [pieceOf, hsource, withoutAnchors_eq, h.afterAnchor?_join, hjoin]
  exact Text.dropTail_concat front hslash

theorem normalizeImport_join_colons :
    normalizeImport (Text.join [':', ':'] names) = Text.join ['/'] names := by
  have hdot : '.' ∉ Text.join [':', ':'] names := h.not_mem_join (by decide) (by decide)
  rw [normalizeImport_eq, h.bareSource_join, stripExtension_eq_self hdot]
  exact h.pieceOf_join h.slashed_join_colons

theorem dropLast (hne : names.dropLast ≠ []) : IsModulePath names.dropLast := by
  refine ⟨hne, fun name hname => h.named name (List.mem_of_mem_dropLast hname), ?_⟩
  intro word hword hhead
  obtain ⟨front, last, rfl⟩ := (List.eq_nil_or_concat' names).resolve_left h.ne_nil
  rw [List.dropLast_concat] at hne hhead
  exact h.unanchored word hword (by rwa [List.head?_append_of_ne_nil front hne])

/-- Where the last name reads as an extension, it is lost. -/
theorem stripExtension_join_dots (hends : EndsInExtension names) :
    stripExtension (Text.join ['.'] names) = Text.join ['.'] names.dropLast := by
  obtain ⟨front, last, rfl⟩ := (List.eq_nil_or_concat' names).resolve_left h.ne_nil
  obtain ⟨hne, hlast⟩ := endsInExtension_concat.mp hends
  have hfront : IsModulePath front := by
    simpa using h.dropLast (by simpa using hne)
  rw [Text.join_append_singleton hne, List.dropLast_concat]
  exact stripExtension_append (hfront.join_ne_nil ['.']) hlast

theorem stripExtension_join_dots_eq_self (hends : ¬EndsInExtension names) :
    stripExtension (Text.join ['.'] names) = Text.join ['.'] names := by
  refine (stripExtension_cases _).resolve_right ?_
  rintro ⟨stem, extension, hstem, hextension, hpath⟩
  obtain ⟨front, last, rfl⟩ := (List.eq_nil_or_concat' names).resolve_left h.ne_nil
  have hdot : '.' ∉ last := h.not_mem (by decide) last (by simp)
  by_cases hne : front = []
  · subst hne
    have hlast : last = stem ++ '.' :: extension := by simpa [Text.join] using hpath
    simp [hlast] at hdot
  · have hfront : IsModulePath front := by
      simpa using h.dropLast (by simpa using hne)
    -- the last dot of the path is the one in front of the last name
    have hfound := Path.extensionOf?_append_text stem (hextension.not_mem (c := '.') (by decide))
    rw [← hpath, Text.join_append_singleton hne, Path.extensionOf?_append_text _ hdot,
      if_neg (hfront.join_ne_nil ['.']), if_neg hstem] at hfound
    cases hfound
    exact hends (endsInExtension_concat.mpr ⟨hne, hextension⟩)

theorem normalizeImport_join_dots_of_ends (hends : EndsInExtension names) :
    normalizeImport (Text.join ['.'] names) = Text.join ['/'] names.dropLast := by
  have hfront : IsModulePath names.dropLast := h.dropLast hends.1
  rw [normalizeImport_eq, h.bareSource_join, h.stripExtension_join_dots hends]
  exact hfront.pieceOf_join hfront.slashed_join_dots

theorem normalizeImport_join_dots (hends : ¬EndsInExtension names) :
    normalizeImport (Text.join ['.'] names) = Text.join ['/'] names := by
  rw [normalizeImport_eq, h.bareSource_join, h.stripExtension_join_dots_eq_self hends]
  exact h.pieceOf_join h.slashed_join_dots

end IsModulePath

/-- An import of `source` means the files below `path`: their paths without extension contain it,
and they are all that is found. -/
def StandsFor (source path : Text) : Prop :=
  normalizeImport source = path ∧ ∀ (candidates : List String) (i : Nat),
    i ∈ Resolver.substring.resolve (String.ofList source) candidates ↔
      ∃ c, candidates[i]? = some c ∧ path <:+: stripExtension c.toList

theorem standsFor_of_normalizeImport {source path : Text} (h : normalizeImport source = path)
    (hne : path ≠ []) : StandsFor source path := by
  refine ⟨h, fun candidates i => ?_⟩
  rw [mem_resolve_substring_iff, String.toList_ofList, h]
  exact and_iff_right hne

/-- A module that is written with colons stands for the path of its names. One that is written with
dots does so unless its last name reads as an extension, which is then taken from it. -/
theorem standsFor_modulePath {names : List Text} (h : IsModulePath names) :
    StandsFor (Text.join [':', ':'] names) (Text.join ['/'] names) ∧
    (¬EndsInExtension names → StandsFor (Text.join ['.'] names) (Text.join ['/'] names)) ∧
    (EndsInExtension names →
      StandsFor (Text.join ['.'] names) (Text.join ['/'] names.dropLast)) := by
  refine ⟨?_, fun hends => ?_, fun hends => ?_⟩
  · exact standsFor_of_normalizeImport h.normalizeImport_join_colons (h.join_ne_nil ['/'])
  · exact standsFor_of_normalizeImport (h.normalizeImport_join_dots hends) (h.join_ne_nil ['/'])
  · exact standsFor_of_normalizeImport (h.normalizeImport_join_dots_of_ends hends)
      ((h.dropLast hends.1).join_ne_nil ['/'])

theorem standsFor_modulePath_shop :
    StandsFor (Text.join [':', ':'] ["shop".toList, "größe_2".toList])
        (Text.join ['/'] ["shop".toList, "größe_2".toList]) ∧
      StandsFor (Text.join ['.'] ["shop".toList, "größe_2".toList])
        (Text.join ['/'] ["shop".toList, "größe_2".toList]) ∧
      StandsFor (Text.join ['.'] ["shop".toList, "größe_2".toList, "TSX".toList])
        (Text.join ['/'] ["shop".toList, "größe_2".toList]) := by
  have hsize : IsModulePath ["shop".toList, "größe_2".toList] := by decide +kernel
  have hpage : IsModulePath ["shop".toList, "größe_2".toList, "TSX".toList] := by decide +kernel
  obtain ⟨hcolons, hdots, -⟩ := standsFor_modulePath hsize
  obtain ⟨-, -, hlost⟩ := standsFor_modulePath hpage
  exact ⟨hcolons, hdots (by decide +kernel), hlost (by decide +kernel)⟩

/-- A module called `go` is lost, and with it every trace of it in what is found. -/
theorem modulePath_go_lost :
    IsModulePath ["pkg".toList, "go".toList] ∧
      Text.join ['.'] ["pkg".toList, "go".toList] = "pkg.go".toList ∧
      normalizeImport "pkg.go".toList = "pkg".toList ∧
      "pkg".toList ≠ Text.join ['/'] ["pkg".toList, "go".toList] ∧
      Resolver.substring.resolve "pkg.go" ["pkg/go.py", "pkg/main.py"] = [0, 1] ∧
      ¬Text.join ['/'] ["pkg".toList, "go".toList] <:+: "pkg/main.py".toList := by
  decide +kernel

end CodeAtlas.Graph
