import CodeAtlas.Proofs.Regex.Match
import CodeAtlas.Proofs.Sketch.Hint

/-! Sketches of blank texts. A pattern that asks for a visible character on every way finds nothing
in a blank text, and every pattern of every family is of that kind. So no method of sketching makes
an outline of a blank text, while some method makes one of any other text. -/

namespace CodeAtlas.Sketch

open Repair (Budget)

/-! ## Families -/

/-- The patterns of a family, of whatever they are. -/
def Family.patterns (family : Family) : List Regex.Pattern :=
  family.functions ++ family.classes ++ family.imports

theorem isVisible_of_mem_patterns (language : Language) :
    ∀ family ∈ [Family.ofLanguage language, .generic],
      ∀ pattern ∈ family.patterns, pattern.isVisible = true := by
  cases language <;> decide +kernel

theorem flatMap_findAll_eq_nil {patterns : List Regex.Pattern}
    (hp : ∀ pattern ∈ patterns, pattern.isVisible = true) {text : Text} (h : text.allBlank) :
    (patterns.flatMap fun pattern => Regex.findAll pattern text) = [] :=
  List.flatMap_eq_nil_iff.mpr fun pattern hm => Regex.findAll_eq_nil (hp pattern hm) h

theorem findings_of_allBlank {source : Source} (h : source.text.allBlank) {family : Family}
    (hp : ∀ pattern ∈ family.patterns, pattern.isVisible = true) :
    source.findings family = ⟨[], [], []⟩ := by
  simp only [Family.patterns, List.forall_mem_append] at hp
  obtain ⟨⟨hfunctions, hclasses⟩, himports⟩ := hp
  simp [Source.findings, Source.declarations, Source.imports,
    flatMap_findAll_eq_nil hfunctions h, flatMap_findAll_eq_nil hclasses h,
    flatMap_findAll_eq_nil himports h]

/-- Patterns find nothing in a blank text, whatever its language. -/
theorem extract_of_allBlank {text : Text} (h : text.allBlank) (language : Language) :
    (extract text language).isBare = true := by
  have hvisible := isVisible_of_mem_patterns language
  have hown := hvisible _ List.mem_cons_self
  have hgeneric := hvisible _ (List.mem_cons_of_mem _ List.mem_cons_self)
  simp only [extract]
  rw [findings_of_allBlank h hown, findings_of_allBlank h hgeneric]
  rfl

/-! ## Methods -/

theorem sketch?_of_allBlank {text : Text} (h : text.allBlank) (language : Language)
    (method : Method) : method.sketch? text language = none := by
  cases method with
  | regexExtraction => simp [Method.sketch?, extract_of_allBlank h language]
  | contentStatistics =>
      obtain ⟨hfunctions, hclasses⟩ := estimates_of_allBlank h language
      simp [Method.sketch?, statistics, hfunctions, hclasses]
  | minimalStructure => simp [Method.sketch?, minimal, h]

/-- No hint leaves out the bare module. -/
theorem minimalStructure_mem_order (hints : Hints) (language : Language) (size : Nat) :
    Method.minimalStructure ∈ hints.order language size := by
  rw [Hints.order]
  split <;> decide

/-- Whatever the hints are, a text cannot be sketched exactly if it is blank. -/
theorem attempt_eq_none_iff (hints : Hints) (text : Text) (language : Language) {budget : Budget}
    (hb : ∀ look, budget.expired look = false) :
    (attempt hints text language budget).1 = none ↔ text.allBlank := by
  rw [attempt_fst, firstSketch_of_unlimited hb, List.findSome?_eq_none_iff]
  constructor
  · intro hnone
    have hminimal := hnone _ (minimalStructure_mem_order hints language text.size)
    by_contra hvisible
    simp [Method.sketch?, minimal, hvisible] at hminimal
  · intro hblank method _
    rw [sketch?_of_allBlank hblank, Option.map_none]

end CodeAtlas.Sketch
