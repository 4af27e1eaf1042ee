import CodeAtlas.Path
import CodeAtlas.Proofs.Text

/-! Components of paths. A path that is written from components, below whatever path, ends in these
components, and so they can be read off it again; this holds of names and of dots. Two texts that
have the same components spell one path, and each path has one plain spelling. The extension of a
name stands behind its last dot. -/

namespace CodeAtlas.Path

variable {α : Type} [Alphabet α] [DecidableEq α]

/-- The name of a file or directory: it is not empty, holds no slash and is not made of one dot or
two. -/
def IsName (name : List α) : Prop :=
  name ≠ [] ∧ slash ∉ name ∧ name ≠ [dot] ∧ name ≠ [dot, dot]

instance (name : List α) : Decidable (IsName name) :=
  inferInstanceAs (Decidable (_ ∧ _))

theorem IsName.inner? {name : List α} (h : IsName name) : inner? name = some (.normal name) := by
  obtain ⟨hne, -, hdot, hdots⟩ := h
  simp [Path.inner?, hne, hdot, hdots]

@[simp] theorem inner?_nil : inner? ([] : List α) = none := by
  simp [inner?]

@[simp] theorem inner?_dot : inner? [(dot : α)] = none := by
  simp [inner?]

/-- The components behind the start of a path. -/
def innerComponents (path : List α) : List (Component α) :=
  (pieces path).filterMap inner?

/-! ## Pieces -/

@[simp] theorem pieces_nil : pieces ([] : List α) = [[]] := rfl

@[simp] theorem innerComponents_nil : innerComponents ([] : List α) = [] := by
  simp [innerComponents]

theorem pieces_append_slash (front back : List α) :
    pieces (front ++ slash :: back) = pieces front ++ pieces back := by
  induction front with
  | nil => simp [pieces, Text.splitWhere]
  | cons c front ih =>
      simp only [pieces] at ih ⊢
      rw [List.cons_append, Text.splitWhere_cons, Text.splitWhere_cons, ih]
      split
      · rfl
      · cases hpieces : Text.splitWhere (· == slash) front with
        | nil => exact absurd hpieces (Text.splitWhere_ne_nil _ front)
        | cons piece pieces => rfl

theorem pieces_of_not_mem {name : List α} (h : slash ∉ name) : pieces name = [name] := by
  induction name with
  | nil => rfl
  | cons c name ih =>
      obtain ⟨hne, hrest⟩ := List.ne_and_not_mem_of_not_mem_cons h
      have hslash : (c == slash) = false := by simpa using hne.symm
      rw [pieces, Text.splitWhere_cons, hslash, ← pieces, ih hrest]
      rfl

theorem innerComponents_append_slash (front back : List α) :
    innerComponents (front ++ slash :: back) = innerComponents front ++ innerComponents back := by
  rw [innerComponents, pieces_append_slash, List.filterMap_append]
  rfl

/-! ## Components -/

@[simp] theorem components_slash (rest : List α) :
    components (slash :: rest) = .root :: innerComponents rest := by
  simp [components, isAbsolute, innerComponents]

theorem components_eq_relativeComponents {path : List α} (h : path.head? ≠ some slash) :
    components path = relativeComponents (pieces path) := by
  rw [components, isAbsolute, beq_eq_false_iff_ne.mpr h, if_neg Bool.false_ne_true]

@[simp] theorem components_nil : components ([] : List α) = [] := by
  simp [components, isAbsolute, relativeComponents]

@[simp] theorem components_dot : components [(dot : α)] = [.current] := by
  rw [components_eq_relativeComponents (by simpa using Alphabet.dot_ne_slash), pieces_of_not_mem
    (by simpa using Alphabet.dot_ne_slash.symm)]
  simp [relativeComponents]

theorem relativeComponents_append {front : List (List α)} (hne : front ≠ []) (back : List (List α)) :
    relativeComponents (front ++ back) = relativeComponents front ++ back.filterMap inner? := by
  cases front with
  | nil => exact absurd rfl hne
  | cons piece front =>
      by_cases hdot : piece = [dot]
      · subst hdot
        simp [relativeComponents, List.filterMap_append]
      · simp [relativeComponents, hdot, ← List.filterMap_append]

theorem components_append_slash {front : List α} (hne : front ≠ []) (back : List α) :
    components (front ++ slash :: back) = components front ++ innerComponents back := by
  by_cases hslash : front.head? = some slash
  · obtain ⟨rest, rfl⟩ := List.head?_eq_some_iff.mp hslash
    rw [List.cons_append, components_slash, components_slash, innerComponents_append_slash,
      List.cons_append]
  · have hslash' : (front ++ slash :: back).head? ≠ some slash := by
      rwa [List.head?_append_of_ne_nil front hne]
    rw [components_eq_relativeComponents hslash, components_eq_relativeComponents hslash',
      pieces_append_slash]
    exact relativeComponents_append (Text.splitWhere_ne_nil _ front) (pieces back)

/-! ## Written components -/

/-- A component that a piece between slashes stands for inside a path. -/
def IsInner (component : Component α) : Prop :=
  slash ∉ component.text ∧ inner? component.text = some component

theorem IsName.isInner {name : List α} (h : IsName name) : IsInner (.normal name) :=
  ⟨h.2.1, h.inner?⟩

theorem isInner_of_inner? {piece : List α} {component : Component α} (h : inner? piece = some component)
    (hslash : slash ∉ piece) : IsInner component := by
  have htext : component.text = piece := by
    unfold inner? at h
    split at h
    · cases h
    · split at h
      · rename_i hdots
        cases h
        exact hdots.symm
      · cases h
        rfl
  rw [IsInner, htext]
  exact ⟨hslash, h⟩

theorem isInner_of_mem_filterMap (path : List α) {all : List (List α)} (hall : all ⊆ pieces path) :
    ∀ component ∈ all.filterMap inner?, IsInner component := by
  intro component hm
  obtain ⟨piece, hpiece, hinner⟩ := List.mem_filterMap.mp hm
  refine isInner_of_inner? hinner fun hslash => ?_
  have hsep := (Text.mem_of_mem_splitWhere (hall hpiece) hslash).2
  simp at hsep

/-- A path starts at the root, with a dot, or with neither. -/
theorem components_cases (path : List α) :
    ∃ inner, (∀ component ∈ inner, IsInner component) ∧
      (components path = .root :: inner ∨ components path = .current :: inner ∨
        components path = inner) := by
  unfold components
  split
  · exact ⟨_, isInner_of_mem_filterMap path.tail (List.Subset.refl _), .inl rfl⟩
  · cases hpieces : pieces path with
    | nil => exact absurd hpieces (Text.splitWhere_ne_nil _ path)
    | cons piece rest =>
        rw [relativeComponents]
        split
        · refine ⟨_, isInner_of_mem_filterMap path ?_, .inr (.inl rfl)⟩
          rw [hpieces]
          exact List.subset_cons_self _ _
        · refine ⟨_, isInner_of_mem_filterMap path ?_, .inr (.inr rfl)⟩
          rw [hpieces]
          exact List.Subset.refl _

omit [DecidableEq α] in
theorem join_cons_cons (name next : List α) (names : List (List α)) :
    join (name :: next :: names) = name ++ slash :: join (next :: names) := by
  simp [join, List.intercalate_cons_cons]

omit [DecidableEq α] in
theorem render_cons_cons (first next : Component α) (rest : List (Component α)) :
    render (first :: next :: rest) = first.text ++ slash :: render (next :: rest) := by
  simp only [render, List.map_cons, join_cons_cons]

theorem IsInner.text_eq_cons {component : Component α} (h : IsInner component) :
    ∃ c rest, component.text = c :: rest ∧ c ≠ slash := by
  obtain ⟨c, rest, htext⟩ : ∃ c rest, component.text = c :: rest := by
    refine List.exists_cons_of_ne_nil fun hempty => ?_
    have hinner := h.2
    rw [hempty] at hinner
    cases hinner
  refine ⟨c, rest, htext, ?_⟩
  rintro rfl
  exact h.1 (htext ▸ List.mem_cons_self)

section Inner

variable {inner : List (Component α)} (h : ∀ component ∈ inner, IsInner component)
include h

theorem innerComponents_render : innerComponents (render inner) = inner := by
  induction inner with
  | nil => rfl
  | cons first rest ih =>
      obtain ⟨hfirst, hrest⟩ := List.forall_mem_cons.mp h
      have hone : innerComponents first.text = [first] := by
        rw [innerComponents, pieces_of_not_mem hfirst.1, List.filterMap_cons_some hfirst.2]
        rfl
      cases rest with
      | nil => simpa [render, join] using hone
      | cons next rest =>
          rw [render_cons_cons, innerComponents_append_slash, hone, ih hrest]
          rfl

/-- Inner components that are written down do not start at the root. -/
theorem isAbsolute_render : isAbsolute (render inner) = false := by
  cases inner with
  | nil => rfl
  | cons first rest =>
      obtain ⟨c, name, hname, hc⟩ := (h first List.mem_cons_self).text_eq_cons
      cases rest with
      | nil => simpa [isAbsolute, render, join, hname] using hc
      | cons next rest => simpa [isAbsolute, render_cons_cons, hname] using hc

/-- Nor do they start with a dot. -/
theorem components_render : components (render inner) = inner := by
  have hroot : (render inner).head? ≠ some slash := by
    simpa [isAbsolute] using isAbsolute_render h
  cases inner with
  | nil => rfl
  | cons first rest =>
      obtain ⟨hslash, hfirst⟩ := h first List.mem_cons_self
      have hpieces : ∃ later, pieces (render (first :: rest)) = first.text :: later := by
        cases rest with
        | nil => exact ⟨[], by simpa [render, join] using pieces_of_not_mem hslash⟩
        | cons next rest =>
            rw [render_cons_cons, pieces_append_slash, pieces_of_not_mem hslash]
            exact ⟨_, rfl⟩
      obtain ⟨later, hpieces⟩ := hpieces
      have hdot : first.text ≠ [dot] := by
        intro hdot
        rw [hdot, inner?_dot] at hfirst
        cases hfirst
      have hrelative : relativeComponents (first.text :: later) =
          (first.text :: later).filterMap inner? := by
        simp [relativeComponents, hdot]
      rw [components_eq_relativeComponents hroot, hpieces, hrelative, ← hpieces]
      exact innerComponents_render h

/-- A dot at the start of a path is read back. -/
theorem components_render_current :
    components (render (.current :: inner)) = .current :: inner := by
  cases inner with
  | nil => exact components_dot
  | cons next rest =>
      rw [render_cons_cons, Component.text, components_append_slash (List.cons_ne_nil _ _),
        innerComponents_render h, components_dot]
      rfl

/-- Components that are written below a path are its last ones. -/
theorem components_append_render (base : List α) :
    components (append base (render inner)) = components base ++ inner := by
  rw [append, isAbsolute_render h, if_neg Bool.false_ne_true]
  split
  · rename_i hbase
    rcases List.eq_nil_or_concat' base with rfl | ⟨front, last, rfl⟩
    · exact components_render h
    · obtain rfl : last = slash := by simpa using hbase
      rw [List.append_assoc, List.singleton_append]
      cases front with
      | nil =>
          rw [List.nil_append, List.nil_append, components_slash, components_slash,
            innerComponents_render h, innerComponents_nil, List.singleton_append]
      | cons c front =>
          have hne : c :: front ≠ [] := List.cons_ne_nil c front
          have hend : components (c :: front ++ [slash]) = components (c :: front) ++ [] :=
            components_append_slash hne []
          rw [components_append_slash hne, hend, innerComponents_render h, List.append_nil]
  · rename_i hbase
    have hne : base ≠ [] := by
      rintro rfl
      exact hbase rfl
    rw [components_append_slash hne, innerComponents_render h]

end Inner

/-! ## Spellings -/

/-- The text of components, with nothing in it that does not count. -/
def written : List (Component α) → List α
  | .root :: rest => slash :: render rest
  | all => render all

/-- A path is read back from its components. -/
theorem components_written (path : List α) :
    components (written (components path)) = components path := by
  obtain ⟨inner, hinner, hroot | hcurrent | hnone⟩ := components_cases path
  · rw [hroot, written, components_slash, innerComponents_render hinner]
  · rw [hcurrent]
    exact components_render_current hinner
  · rw [hnone]
    have hwritten : written inner = render inner := by
      unfold written
      split
      · rename_i rest
        exact absurd (hinner .root List.mem_cons_self).1 (by simp [Component.text])
      · rfl
    rw [hwritten, components_render hinner]

/-- The two texts spell one path. -/
def Same (p q : String) : Prop := components p.toList = components q.toList

instance (p q : String) : Decidable (Same p q) :=
  inferInstanceAs (Decidable (_ = _))

/-- The spelling of a path without anything that does not count. -/
def plain (p : String) : String := .ofList (written (components p.toList))

theorem same_plain (p : String) : Same (plain p) p := by
  rw [Same, plain, String.toList_ofList, components_written]

/-- A path has one plain spelling. -/
theorem same_iff_plain_eq (p q : String) : Same p q ↔ plain p = plain q := by
  constructor
  · intro h
    rw [plain, plain, h]
  · intro h
    exact (same_plain p).symm.trans (h ▸ same_plain q)

/-! ## Paths of names -/

omit [DecidableEq α] in
theorem render_normal (names : List (List α)) :
    render (names.map .normal) = join names := by
  rw [render, List.map_map]
  exact congrArg _ (List.map_id names)

theorem isInner_of_mem_names {names : List (List α)} (h : ∀ name ∈ names, IsName name) :
    ∀ component ∈ names.map Component.normal, IsInner component :=
  List.forall_mem_map.mpr fun name hname => (h name hname).isInner

/-- A path that is written from names has them as its components. -/
theorem components_join {names : List (List α)} (h : ∀ name ∈ names, IsName name) :
    components (join names) = names.map .normal := by
  rw [← render_normal, components_render (isInner_of_mem_names h)]

/-- Names below a path are its last components. -/
theorem components_append {names : List (List α)} (h : ∀ name ∈ names, IsName name) (base : List α) :
    components (append base (join names)) = components base ++ names.map .normal := by
  rw [← render_normal, components_append_render (isInner_of_mem_names h)]

/-! ## Relative paths -/

omit [Alphabet α] in
theorem under?_eq_some_iff {root path rest : List (Component α)} :
    under? root path = some rest ↔ path = root ++ rest := by
  induction root generalizing path with
  | nil => cases path <;> simp [under?]
  | cons r root ih =>
      cases path with
      | nil => simp [under?]
      | cons p path =>
          rw [under?, List.cons_append, List.cons.injEq]
          split
          · rename_i hrp
            rw [ih, and_iff_right hrp.symm]
          · rename_i hrp
            exact iff_of_false (by simp) fun h => hrp h.1.symm

/-- A path below a root is seen from there as its names. -/
theorem seenFrom_append {names : List (List α)} (h : ∀ name ∈ names, IsName name) (root : List α) :
    seenFrom root (append root (join names)) = names.map .normal := by
  rw [seenFrom, components_append h, under?_eq_some_iff.mpr rfl, Option.getD_some]

/-- Names below a path are told apart by the whole path. -/
theorem append_join_injective {names names' : List (List α)} (h : ∀ name ∈ names, IsName name)
    (h' : ∀ name ∈ names', IsName name) {root : List α}
    (hpath : append root (join names) = append root (join names')) : names = names' := by
  have hcomponents := congrArg components hpath
  rw [components_append h, components_append h', List.append_cancel_left_eq] at hcomponents
  exact List.map_injective_iff.mpr (fun _ _ he => Component.normal.inj he) hcomponents

theorem fileName?_append {names : List (List α)} (h : ∀ name ∈ names, IsName name) {name : List α}
    (hlast : names.getLast? = some name) (root : List α) :
    fileName? (append root (join names)) = some name := by
  have hcomponents : (components root ++ names.map Component.normal).getLast? =
      some (.normal name) := by
    simp [List.getLast?_append, hlast]
  rw [fileName?, components_append h, hcomponents]

/-- Different lists of names are written differently. -/
theorem join_injective {names names' : List (List α)} (h : ∀ name ∈ names, IsName name)
    (h' : ∀ name ∈ names', IsName name) (hjoin : join names = join names') :
    names = names' := by
  have hcomponents : names.map Component.normal = names'.map Component.normal := by
    rw [← components_join h, ← components_join h', hjoin]
  exact List.map_injective_iff.mpr (fun _ _ he => Component.normal.inj he) hcomponents

theorem components_eq_nil_iff {path : List α} : components path = [] ↔ path = [] := by
  refine ⟨fun h => ?_, fun h => by rw [h, components_nil]⟩
  cases path with
  | nil => rfl
  | cons c path =>
      by_cases hc : c = slash
      · rw [hc, components_slash] at h
        cases h
      · have hpieces : ∃ piece later, pieces (c :: path) = (c :: piece) :: later := by
          have hslash : (c == slash) = false := by simpa using hc
          rw [pieces, Text.splitWhere_cons, hslash, if_neg Bool.false_ne_true]
          cases Text.splitWhere (· == slash) path with
          | nil => exact ⟨[], [], rfl⟩
          | cons piece later => exact ⟨piece, later, rfl⟩
        obtain ⟨piece, later, hpieces⟩ := hpieces
        rw [components_eq_relativeComponents (by simpa using hc), hpieces] at h
        by_cases hdot : c :: piece = [dot]
        · rw [relativeComponents, if_pos hdot] at h
          cases h
        · by_cases hdots : c :: piece = [dot, dot] <;>
            simp [relativeComponents, inner?, hdot, hdots] at h

/-- Only the first component of a path may be the root or a single dot. -/
theorem isInner_of_mem_tail {path : List α} {component : Component α}
    (h : component ∈ (components path).tail) : IsInner component := by
  obtain ⟨inner, hinner, hroot | hcurrent | hnone⟩ := components_cases path
  · exact hinner component (by simpa [hroot] using h)
  · exact hinner component (by simpa [hcurrent] using h)
  · exact hinner component (by simpa [hnone] using List.mem_of_mem_tail h)

/-- Written with a slash between neighbours, the components of a path are read back, also where the
root is written with one slash too many. -/
theorem components_render_components (path : List α) :
    components (render (components path)) = components path := by
  obtain ⟨inner, hinner, hroot | hcurrent | hnone⟩ := components_cases path
  · rw [hroot]
    cases inner with
    | nil => simp [render, join, Component.text]
    | cons next rest =>
        rw [render_cons_cons, Component.text, List.singleton_append, components_slash,
          ← List.nil_append (slash :: _), innerComponents_append_slash,
          innerComponents_render hinner, innerComponents_nil, List.nil_append]
  · rw [hcurrent, components_render_current hinner]
  · rw [hnone, components_render hinner]

/-- A path below a root is the same path when it is joined to the root as it is seen from there. -/
theorem components_append_relative {root path : List α} (h : components root <+: components path) :
    components (append root (relative root path)) = components path := by
  obtain ⟨rest, hrest⟩ := h
  have hrelative : relative root path = render rest := by
    rw [relative, seenFrom, under?_eq_some_iff.mpr hrest.symm, Option.getD_some]
  rw [hrelative]
  by_cases hroot : root = []
  · -- nothing is in front of a path that is seen from nowhere, so it may start at the root
    subst hroot
    have hall : rest = components path := hrest
    have happend : append [] (render rest) = render rest := by
      simp [append]
    rw [happend, hall, components_render_components]
  · have hinner : ∀ component ∈ rest, IsInner component := by
      intro component hm
      obtain ⟨first, more, hfirst⟩ :=
        List.exists_cons_of_ne_nil (mt components_eq_nil_iff.mp hroot)
      have htail : component ∈ (components path).tail := by
        rw [← hrest, hfirst]
        exact List.mem_append_right more hm
      exact isInner_of_mem_tail htail
    rw [components_append_render hinner, hrest]

/-! ## Extensions -/

/-- A dot opens an extension wherever something stands in front of it. -/
theorem extensionOf?_append (stem : List α) {extension : List α} (h : dot ∉ extension) :
    extensionOf? (stem ++ dot :: extension) = if stem = [] then none else some extension := by
  have hreverse : (stem ++ dot :: extension).reverse =
      extension.reverse ++ dot :: stem.reverse := by
    simp
  have hletters : ∀ c ∈ extension.reverse, (c != dot) = true := by
    intro c hc
    rw [bne_iff_ne]
    rintro rfl
    exact h (List.mem_reverse.mp hc)
  have hfront : (extension.reverse ++ dot :: stem.reverse).takeWhile (· != dot) =
      extension.reverse := by
    simp [List.takeWhile_append_of_pos hletters]
  have hback : (extension.reverse ++ dot :: stem.reverse).dropWhile (· != dot) =
      dot :: stem.reverse := by
    simp [List.dropWhile_append_of_pos hletters]
  rw [extensionOf?, hreverse, hfront, hback, List.reverse_reverse]
  rcases List.eq_nil_or_concat' stem with rfl | ⟨front, c, rfl⟩ <;> simp

/-- The same of a text, where the dot is written as the character that it is. -/
theorem extensionOf?_append_text (stem : Text) {extension : Text} (h : '.' ∉ extension) :
    extensionOf? (stem ++ '.' :: extension) = if stem = [] then none else some extension :=
  extensionOf?_append stem h

omit [DecidableEq α] in
theorem exists_eq_append_dot {name : List α} (h : dot ∈ name) :
    ∃ stem extension, dot ∉ extension ∧ name = stem ++ dot :: extension := by
  obtain ⟨back, front, hname, hback⟩ := List.eq_append_cons_of_mem (List.mem_reverse.mpr h)
  refine ⟨front.reverse, back.reverse, mt List.mem_reverse.mp hback, ?_⟩
  rw [← List.reverse_reverse name, hname]
  simp

theorem extensionOf?_of_not_mem {name : List α} (h : dot ∉ name) : extensionOf? name = none := by
  have hnone : name.reverse.dropWhile (· != dot) = [] := by
    rw [List.dropWhile_eq_nil_iff]
    intro c hc
    rw [bne_iff_ne]
    rintro rfl
    exact h (List.mem_reverse.mp hc)
  rw [extensionOf?, hnone]

theorem extensionOf?_eq_some_iff {name extension : List α} :
    extensionOf? name = some extension ↔
      dot ∉ extension ∧ ∃ stem, stem ≠ [] ∧ name = stem ++ dot :: extension := by
  constructor
  · intro h
    by_cases hdot : dot ∈ name
    · obtain ⟨stem, other, hother, rfl⟩ := exists_eq_append_dot hdot
      rw [extensionOf?_append stem hother] at h
      split at h
      · cases h
      · rename_i hstem
        cases h
        exact ⟨hother, stem, hstem, rfl⟩
    · rw [extensionOf?_of_not_mem hdot] at h
      cases h
  · rintro ⟨hdot, stem, hstem, rfl⟩
    rw [extensionOf?_append stem hdot, if_neg hstem]

end CodeAtlas.Path
