import CodeAtlas.Proofs.Regex.Match
import CodeAtlas.Proofs.Sorted
import CodeAtlas.Sketch.Extract

/-! What patterns find in a text. Whichever family finds it, an outline lists declarations and
imports by lines of the text, each name once on a line, and counts them in its summary and its
complexity, which never exceeds the size of the text by more than one. -/

namespace CodeAtlas.Sketch

open Regex (Captures findAll)

/-! ## Declarations -/

/-- What a declaration is told apart by. -/
def Declared.key (d : Declared) : String × Nat := (d.name, d.line)

/-- The word stands in the text, on the line with that number. -/
def StandsOn (text word : Text) (line : Nat) : Prop :=
  ∃ front rest, text = front ++ word ++ rest ∧ line = front.count '\n' + 1

theorem StandsOn.bounds {text word : Text} {line : Nat} (h : StandsOn text word line) :
    1 ≤ line ∧ line ≤ text.count '\n' + 1 := by
  obtain ⟨front, rest, rfl, rfl⟩ := h
  rw [List.count_append, List.count_append]
  omega

theorem standsOn_of_get? {pattern : Regex.Pattern} {text : Text} {captures : Captures}
    (h : captures ∈ findAll pattern text) {name : String} {capture : Regex.Capture}
    (hcapture : captures.get? name = some capture) :
    StandsOn text capture.text (Text.lineAt text.lineStarts capture.offset) := by
  obtain ⟨body, -, front, rest, -, htext, hoffset, -⟩ := Regex.stands_of_get? h hcapture
  refine ⟨front, rest, htext, ?_⟩
  rw [htext, hoffset, List.append_assoc, Text.lineAt_size]

section Declarations

variable {source : Source} {reserved : List String} {seen : List (String × Nat)}
  {gathered : Gathered}

/-- One match adds a name that is new on its line, or nothing. -/
theorem gather_cases (source : Source) (reserved : List String) (gathered : Gathered)
    (captures : Captures) : source.gather reserved gathered captures = gathered ∨
      ∃ (d : Declared) (capture : Regex.Capture), captures.get? "name" = some capture ∧
        source.gather reserved gathered captures =
          ⟨d.key :: gathered.seen, d :: gathered.found⟩ ∧
        d.name ∉ reserved ∧ d.key ∉ gathered.seen ∧ d.name = String.ofList capture.text ∧
        d.line = Text.lineAt source.starts capture.offset := by
  rw [Source.gather]
  cases captures.get? "name" with
  | none => exact .inl rfl
  | some capture =>
      dsimp only
      split
      · exact .inl rfl
      · rename_i hnew
        simp only [Bool.or_eq_true, List.contains_iff_mem, not_or] at hnew
        exact .inr ⟨⟨String.ofList capture.text, Text.lineAt source.starts capture.offset, _⟩,
          capture, rfl, rfl, hnew.1, hnew.2, rfl, rfl⟩

/-- What has been gathered since the names of `seen`. -/
structure Gathers (source : Source) (reserved : List String) (seen : List (String × Nat))
    (gathered : Gathered) : Prop where
  perm : gathered.seen.Perm (gathered.found.map Declared.key ++ seen)
  nodup : (gathered.found.map Declared.key).Nodup
  fresh : ∀ d ∈ gathered.found, d.key ∉ seen
  plain : ∀ d ∈ gathered.found, d.name ∉ reserved
  stands : ∀ d ∈ gathered.found, StandsOn source.text d.name.toList d.line

/-- The order of what was found makes no difference. -/
theorem Gathers.of_perm (h : Gathers source reserved seen gathered) {found : List Declared}
    (hperm : found.Perm gathered.found) :
    Gathers source reserved seen { gathered with found := found } where
  perm := h.perm.trans ((hperm.symm.map Declared.key).append_right seen)
  nodup := (hperm.map Declared.key).nodup_iff.mpr h.nodup
  fresh d hd := h.fresh d (hperm.mem_iff.mp hd)
  plain d hd := h.plain d (hperm.mem_iff.mp hd)
  stands d hd := h.stands d (hperm.mem_iff.mp hd)

section Starts

variable (hstarts : source.starts = source.text.lineStarts)
include hstarts

theorem Gathers.gather (h : Gathers source reserved seen gathered) {pattern : Regex.Pattern}
    {captures : Captures} (hm : captures ∈ findAll pattern source.text) :
    Gathers source reserved seen (source.gather reserved gathered captures) := by
  rcases gather_cases source reserved gathered captures with
    heq | ⟨d, capture, hcapture, heq, hplain, hnew, hname, hline⟩
  · rwa [heq]
  · rw [h.perm.mem_iff, List.mem_append, not_or] at hnew
    have hstands : StandsOn source.text d.name.toList d.line := by
      rw [hname, hline, hstarts, String.toList_ofList]
      exact standsOn_of_get? hm hcapture
    rw [heq]
    exact
      { perm := h.perm.cons d.key
        nodup := List.nodup_cons.mpr ⟨hnew.1, h.nodup⟩
        fresh := List.forall_mem_cons.mpr ⟨hnew.2, h.fresh⟩
        plain := List.forall_mem_cons.mpr ⟨hplain, h.plain⟩
        stands := List.forall_mem_cons.mpr ⟨hstands, h.stands⟩ }

theorem Gathers.foldl (h : Gathers source reserved seen gathered) {matched : List Captures}
    (hm : ∀ captures ∈ matched, ∃ pattern, captures ∈ findAll pattern source.text) :
    Gathers source reserved seen (matched.foldl (source.gather reserved) gathered) := by
  induction matched generalizing gathered with
  | nil => exact h
  | cons captures matched ih =>
      obtain ⟨⟨pattern, hfirst⟩, hrest⟩ := List.forall_mem_cons.mp hm
      exact ih (h.gather hstarts hfirst) hrest

theorem gathers_declarations (reserved : List String) (patterns : List Regex.Pattern)
    (seen : List (String × Nat)) :
    Gathers source reserved seen (source.declarations reserved patterns seen) := by
  have hstart : Gathers source reserved seen ⟨seen, []⟩ :=
    ⟨List.Perm.refl _, List.nodup_nil, List.forall_mem_nil _, List.forall_mem_nil _,
      List.forall_mem_nil _⟩
  have hm : ∀ captures ∈ patterns.flatMap fun pattern => findAll pattern source.text,
      ∃ pattern, captures ∈ findAll pattern source.text :=
    fun captures hm => (List.mem_flatMap.mp hm).imp fun _ => And.right
  have hfold := hstart.foldl hstarts hm
  exact hfold.of_perm ((List.mergeSort_perm _ _).trans (List.reverse_perm _))

end Starts

theorem length_foldl_gather_le (matched : List Captures) :
    (matched.foldl (source.gather reserved) gathered).found.length ≤
      gathered.found.length + matched.length := by
  induction matched generalizing gathered with
  | nil => exact Nat.le_refl _
  | cons captures matched ih =>
      have hstep : (source.gather reserved gathered captures).found.length ≤
          gathered.found.length + 1 := by
        rcases gather_cases source reserved gathered captures with heq | ⟨d, _, -, heq, -⟩
        · rw [heq]
          exact Nat.le_succ _
        · rw [heq]
          exact Nat.le_refl _
      rw [List.foldl_cons, List.length_cons]
      exact ih.trans (by omega)

/-- There are no more declarations than matches. -/
theorem length_declarations_le (source : Source) (reserved : List String)
    (patterns : List Regex.Pattern) (seen : List (String × Nat)) :
    (source.declarations reserved patterns seen).found.length ≤
      (patterns.flatMap fun pattern => findAll pattern source.text).length := by
  have hstart : (⟨seen, []⟩ : Gathered).found.length = 0 := rfl
  rw [Source.declarations, List.length_mergeSort, List.length_reverse]
  exact length_foldl_gather_le _ |>.trans (by rw [hstart, Nat.zero_add])

end Declarations

/-! ## Imports -/

theorem line_importOf (raw : Text) (names : Option Text) (line : Nat) :
    (importOf raw names line).line = line := by
  unfold importOf
  dsimp only
  split <;> rfl

/-- Each import is that of a match. -/
theorem exists_of_mem_imports {source : Source} {patterns : List Regex.Pattern} {decl : ImportDecl}
    (h : decl ∈ source.imports patterns) : ∃ pattern ∈ patterns,
      ∃ captures ∈ findAll pattern source.text, ∃ capture, captures.get? "source" = some capture ∧
        decl = importOf capture.text ((captures.get? "names").map (·.text))
          (Text.lineAt source.starts capture.offset) := by
  have hfold : ∀ (matched : List Captures) (gathered : GatheredImports),
      decl ∈ (matched.foldl source.gatherImport gathered).found → decl ∈ gathered.found ∨
        ∃ captures ∈ matched, ∃ capture, captures.get? "source" = some capture ∧
          decl = importOf capture.text ((captures.get? "names").map (·.text))
            (Text.lineAt source.starts capture.offset) := by
    intro matched
    induction matched with
    | nil => exact fun gathered => .inl
    | cons captures matched ih =>
        intro gathered hm
        rcases ih _ hm with hm | ⟨later, hlater, hdecl⟩
        · rw [Source.gatherImport] at hm
          cases hcapture : captures.get? "source" with
          | none =>
              rw [hcapture] at hm
              exact .inl hm
          | some capture =>
              rw [hcapture] at hm
              dsimp only at hm
              split at hm
              · exact .inl hm
              · rcases List.mem_cons.mp hm with heq | hm
                · exact .inr ⟨captures, List.mem_cons_self, capture, hcapture, heq⟩
                · exact .inl hm
        · exact .inr ⟨later, List.mem_cons_of_mem _ hlater, hdecl⟩
  have hm := List.mem_reverse.mp ((List.mergeSort_perm _ _).mem_iff.mp h)
  obtain ⟨captures, hcaptures, hdecl⟩ := (hfold _ _ hm).resolve_left List.not_mem_nil
  obtain ⟨pattern, hpattern, hcaptures⟩ := List.mem_flatMap.mp hcaptures
  exact ⟨pattern, hpattern, captures, hcaptures, hdecl⟩

/-! ## Families -/

theorem length_flatMap_findAll_mul_le {patterns : List Regex.Pattern} {width : Nat}
    (h : ∀ pattern ∈ patterns, width ≤ pattern.width) (text : Text) :
    (patterns.flatMap fun pattern => findAll pattern text).length * width ≤
      patterns.length * text.size := by
  induction patterns with
  | nil => simp
  | cons pattern patterns ih =>
      obtain ⟨hpattern, hpatterns⟩ := List.forall_mem_cons.mp h
      have hfirst := Regex.length_findAll_mul_width_le pattern text
      have hwidth := Nat.mul_le_mul_left (findAll pattern text).length hpattern
      have hrest := ih hpatterns
      rw [List.flatMap_cons, List.length_append, List.length_cons, Nat.add_mul, Nat.add_mul,
        Nat.one_mul]
      omega

/-- A family looks for few kinds of declarations, and none of them is very short. -/
def Family.isFrugal (family : Family) : Bool :=
  family.functions.length ≤ 2 && family.classes.length ≤ 1 &&
    (family.functions ++ family.classes).all fun pattern => 4 ≤ pattern.width

theorem isFrugal_families (language : Language) :
    ∀ family ∈ [Family.ofLanguage language, .generic], family.isFrugal = true := by
  cases language <;> decide +kernel

/-! ## Outlines -/

/-- Items stand in the order of their lines, which are lines of the text. -/
structure InOrder {α : Type} (text : Text) (line : α → Nat) (items : List α) : Prop where
  ordered : items.Pairwise fun a b => line a ≤ line b
  placed : ∀ item ∈ items, 1 ≤ line item ∧ line item ≤ text.count '\n' + 1

/-- What an outline by patterns is like. Its complexity stays within the size of the text, so that
all its numbers fit into a word into which that size fits. -/
structure Tidy (text : Text) (outline : Outline) : Prop where
  functions : InOrder text FunctionDecl.line outline.functions
  classes : InOrder text ClassDecl.line outline.classes
  imports : InOrder text ImportDecl.line outline.imports
  functions_stand : ∀ d ∈ outline.functions, StandsOn text d.name.toList d.line
  classes_stand : ∀ d ∈ outline.classes, StandsOn text d.name.toList d.line
  nodup : (outline.functions.map (fun d => (d.name, d.line)) ++
    outline.classes.map fun d => (d.name, d.line)).Nodup
  plain : ∀ d ∈ outline.functions, d.name ∉ reservedNames
  complexity_eq : outline.complexity = 1 + outline.functions.length + 2 * outline.classes.length
  complexity_le : outline.complexity ≤ 1 + text.size
  summary_eq : outline.summary = some (.obj
    [("kind", .str "heuristic"), ("functions", .ofNat outline.functions.length),
      ("classes", .ofNat outline.classes.length), ("imports", .ofNat outline.imports.length)])

theorem InOrder.map {α β : Type} {text : Text} {line : α → Nat} {other : β → Nat} {items : List α}
    (h : InOrder text line items) {f : α → β} (hf : ∀ item, other (f item) = line item) :
    InOrder text other (items.map f) where
  ordered := List.pairwise_map.mpr (by simpa only [hf] using h.ordered)
  placed := List.forall_mem_map.mpr (by simpa only [hf] using h.placed)

section Findings

variable {source : Source} (hstarts : source.starts = source.text.lineStarts)
include hstarts

theorem inOrder_declarations (reserved : List String) (patterns : List Regex.Pattern)
    (seen : List (String × Nat)) :
    InOrder source.text Declared.line (source.declarations reserved patterns seen).found :=
  ⟨pairwise_sortedBy Declared.line _, fun d hd =>
    ((gathers_declarations hstarts reserved patterns seen).stands d hd).bounds⟩

theorem inOrder_imports (patterns : List Regex.Pattern) :
    InOrder source.text ImportDecl.line (source.imports patterns) := by
  refine ⟨pairwise_sortedBy ImportDecl.line _, fun decl hdecl => ?_⟩
  obtain ⟨_, _, captures, hm, capture, hcapture, rfl⟩ := exists_of_mem_imports hdecl
  rw [line_importOf, hstarts]
  exact (standsOn_of_get? hm hcapture).bounds

/-- What a family finds. -/
theorem tidy_findings {family : Family} (hfrugal : family.isFrugal = true) :
    Tidy source.text (source.findings family).outline := by
  simp only [Family.isFrugal, Bool.and_eq_true, decide_eq_true_eq, List.all_append,
    List.all_eq_true] at hfrugal
  obtain ⟨⟨hfew, hone⟩, hfunctions, hclasses⟩ := hfrugal
  let functions := source.declarations reservedNames family.functions []
  let classes := source.declarations [] family.classes functions.seen
  have hf : Gathers source reservedNames [] functions := gathers_declarations hstarts _ _ _
  have hc : Gathers source [] functions.seen classes := gathers_declarations hstarts _ _ _
  have hkeys : (functions.found.map Declared.key ++ classes.found.map Declared.key).Nodup := by
    refine List.nodup_append.mpr ⟨hf.nodup, hc.nodup, ?_⟩
    rintro _ hfirst key hsecond rfl
    obtain ⟨d, hd, rfl⟩ := List.mem_map.mp hsecond
    exact hc.fresh d hd (hf.perm.mem_iff.mpr (List.mem_append_left _ hfirst))
  have hsize : functions.found.length + 2 * classes.found.length ≤ source.text.size := by
    have hfound : functions.found.length ≤ _ := length_declarations_le _ _ _ _
    have hnamed : classes.found.length ≤ _ := length_declarations_le _ _ _ _
    have hmatches := length_flatMap_findAll_mul_le hfunctions source.text
    have hothers := length_flatMap_findAll_mul_le hclasses source.text
    have htwo := Nat.mul_le_mul_right source.text.size hfew
    have hsingle := Nat.mul_le_mul_right source.text.size hone
    omega
  exact
    { functions := (inOrder_declarations hstarts _ _ _).map fun _ => rfl
      classes := (inOrder_declarations hstarts _ _ _).map fun _ => rfl
      imports := inOrder_imports hstarts _
      functions_stand := List.forall_mem_map.mpr hf.stands
      classes_stand := List.forall_mem_map.mpr hc.stands
      nodup := by
        simp only [Findings.outline, Source.findings, List.map_map]
        exact hkeys
      plain := List.forall_mem_map.mpr hf.plain
      complexity_eq := rfl
      complexity_le := by
        simp only [Findings.outline, Source.findings, List.length_map, Nat.add_assoc]
        exact Nat.add_le_add_left hsize 1
      summary_eq := rfl }

end Findings

/-- Imports of another family may stand in for those that were found. -/
theorem Tidy.withImports {text : Text} {findings : Findings} (h : Tidy text findings.outline)
    {imports : List ImportDecl} (himports : InOrder text ImportDecl.line imports) :
    Tidy text { findings with imports := imports }.outline where
  functions := h.functions
  classes := h.classes
  imports := himports
  functions_stand := h.functions_stand
  classes_stand := h.classes_stand
  nodup := h.nodup
  plain := h.plain
  complexity_eq := rfl
  complexity_le := h.complexity_le
  summary_eq := rfl

/-- Whatever the text and its language are, its outline by patterns is in order, also where the
patterns of any language took the place of its own. -/
theorem tidy_extract (text : Text) (language : Language) : Tidy text (extract text language) := by
  let source : Source := ⟨language, text, text.lineStarts⟩
  have hstarts : source.starts = source.text.lineStarts := rfl
  have hfrugal := isFrugal_families language
  have hown : Tidy text (source.findings (.ofLanguage language)).outline :=
    tidy_findings hstarts (hfrugal _ List.mem_cons_self)
  have hgeneric : Tidy text (source.findings .generic).outline :=
    tidy_findings hstarts (hfrugal _ (List.mem_cons_of_mem _ List.mem_cons_self))
  simp only [extract]
  split
  · refine hgeneric.withImports ?_
    split
    · exact hgeneric.imports
    · exact hown.imports
  · exact hown

end CodeAtlas.Sketch
