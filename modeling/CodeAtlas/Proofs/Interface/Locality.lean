import CodeAtlas.Interface.Detector
import CodeAtlas.Proofs.Text.Lines

/-! Interfaces are recognised line by line. What is found in two texts one behind the other is what
is found in the first and then what is found in the second, further down, provided that the same
rules apply to both. A marker that a rule asks for stands on one line, so it cannot come about where
the texts meet. -/

namespace CodeAtlas

namespace InterfaceDescriptor

/-- The interface on a line that is `n` lines further down. -/
def movedDown (n : Nat) (d : InterfaceDescriptor) : InterfaceDescriptor :=
  { d with properties := d.properties.map fun p =>
      if p.1 = "line" then (p.1, toString (Nat.ofDigitChars 10 p.2.toList 0 + n)) else p }

end InterfaceDescriptor

namespace Interface

open InterfaceDescriptor

/-- The file with another content. -/
def Context.withContent (context : Context) (content : Text) : Context :=
  { context with content := content }

/-- The content as a whole only decides which rules are active. -/
theorem detect_withContent (rules : List Rule) (context : Context) (content : Text) :
    detect rules (context.withContent content) =
      content.lines.zipIdx.flatMap
        (onLine (rules.filter fun rule => rule.applies (context.withContent content)) context) := rfl

/-! ## Lines further down -/

theorem movedDown_describe (rule : Rule) (context : Context) (line n : Nat)
    (captures : Regex.Captures) :
    (rule.describe context line captures).movedDown n =
      rule.describe context (line + n) captures := by
  have hline : Nat.ofDigitChars 10 (toString line).toList 0 = line := by
    rw [Nat.toString_eq_repr, Nat.toList_repr, Nat.ofDigitChars_ten_toDigits]
  have hmethod : ∀ method : Option String,
      ((method.map fun m => ("method", m)).toList.map fun p =>
        if p.1 = "line" then (p.1, toString (Nat.ofDigitChars 10 p.2.toList 0 + n)) else p) =
          (method.map fun m => ("method", m)).toList := by
    intro method
    cases method <;> rfl
  simp only [movedDown, Rule.describe, List.map_cons, if_pos, hline, hmethod]

/-- Where a line stands matters only for its number. -/
theorem onLine_add (rules : List Rule) (context : Context) (line : Text) (n i : Nat) :
    onLine rules context (line, n + i) = (onLine rules context (line, i)).map (movedDown n) := by
  have hnumber : n + i + 1 = i + 1 + n := by
    omega
  simp only [onLine, List.map_flatMap, List.map_map, Function.comp_def, movedDown_describe, hnumber]

/-- Lines that stand behind `n` others give the same interfaces further down. -/
theorem flatMap_onLine_zipIdx (rules : List Rule) (context : Context) (lines : List Text)
    (n : Nat) : (lines.zipIdx n).flatMap (onLine rules context) =
      (lines.zipIdx.flatMap (onLine rules context)).map (movedDown n) := by
  rw [List.zipIdx_eq_map_add, List.flatMap_map, List.map_flatMap]
  exact List.flatMap_congr fun entry _ => onLine_add rules context entry.1 n entry.2

/-! ## Markers -/

theorem mentions_iff (context : Context) (marker : String) :
    context.mentions marker = true ↔ marker.toList <:+: context.content ∨
      ∃ source ∈ context.imports, marker.toList <:+: source.toList := by
  simp only [Context.mentions, Bool.or_eq_true, List.any_eq_true, Text.contains_iff_infix]

/-- A marker on one line stands on one side of the end of a line. -/
theorem infix_append_iff {marker front : Text} (hmarker : '\n' ∉ marker)
    (hfront : front = [] ∨ front.endsWith ['\n'] = true) (back : Text) :
    marker <:+: front ++ back ↔ marker <:+: front ∨ marker <:+: back := by
  constructor
  · intro h
    rcases hfront with rfl | hend
    · exact .inr h
    · obtain ⟨text, rfl⟩ := Text.endsWith_iff_suffix.mp hend
      rw [List.append_assoc, List.singleton_append] at h
      refine (Text.infix_or_infix_of_append_cons hmarker h).imp_left fun hword => ?_
      exact hword.trans (List.prefix_append _ _).isInfix
  · rintro (h | h)
    · exact h.trans (List.prefix_append front back).isInfix
    · exact h.trans (List.suffix_append front back).isInfix

theorem mentions_append {marker : String} (hmarker : '\n' ∉ marker.toList) (context : Context)
    {front : Text} (hfront : front = [] ∨ front.endsWith ['\n'] = true) (back : Text) :
    (context.withContent (front ++ back)).mentions marker =
      ((context.withContent front).mentions marker ||
        (context.withContent back).mentions marker) := by
  rw [Bool.eq_iff_iff, Bool.or_eq_true, mentions_iff, mentions_iff, mentions_iff]
  simp only [Context.withContent, infix_append_iff hmarker hfront]
  tauto

/-! ## Detectors -/

/-- The same rules are active where the same markers are mentioned. -/
theorem filter_applies_congr {rules : List Rule} {context other : Context}
    (h : ∀ rule ∈ rules, ∀ marker ∈ rule.marker, context.mentions marker = other.mentions marker) :
    (rules.filter fun rule => rule.applies context) =
      rules.filter fun rule => rule.applies other := by
  refine List.filter_congr fun rule hrule => ?_
  unfold Rule.applies
  cases hmarker : rule.marker with
  | none => rfl
  | some marker => exact h rule hrule marker hmarker

/-- Interfaces are found apart in two texts that mention the same of the markers of some rules. -/
theorem detect_append {rules : List Rule}
    (hmarkers : ∀ rule ∈ rules, ∀ marker ∈ rule.marker, '\n' ∉ marker.toList) (context : Context)
    {front back : Text} (hfront : front = [] ∨ front.endsWith ['\n'] = true)
    (halike : ∀ rule ∈ rules, ∀ marker ∈ rule.marker,
      (context.withContent front).mentions marker = (context.withContent back).mentions marker) :
    detect rules (context.withContent (front ++ back)) =
      detect rules (context.withContent front) ++
        (detect rules (context.withContent back)).map (movedDown front.lines.length) := by
  have hback : (rules.filter fun rule => rule.applies (context.withContent (front ++ back))) =
      rules.filter fun rule => rule.applies (context.withContent back) := by
    refine filter_applies_congr fun rule hrule marker hmarker => ?_
    rw [mentions_append (hmarkers rule hrule marker hmarker) context hfront,
      halike rule hrule marker hmarker, Bool.or_self]
  have hlines : (front ++ back).lines.zipIdx =
      front.lines.zipIdx ++ back.lines.zipIdx front.lines.length := by
    rw [Text.lines_append hfront, List.zipIdx_append, Nat.zero_add]
  rw [detect_withContent, detect_withContent, detect_withContent, hback,
    filter_applies_congr halike, hlines, List.flatMap_append,
    flatMap_onLine_zipIdx _ _ back.lines front.lines.length]

/-- The markers of all known rules stand on one line. -/
theorem newline_not_mem_marker : ∀ detector ∈ Registry.standard.detectors,
    ∀ rule ∈ detector.rules, ∀ marker ∈ rule.marker, '\n' ∉ marker.toList := by
  decide +kernel

/-- Every known detector works line by line. In two texts, the first of which is empty or ends in a
newline, it finds what it finds in the first and then what it finds in the second, as many lines
further down as the first has, if both texts mention the same of its markers; the whole text then
mentions just these. -/
theorem detect_append_of_mem_standard {detector : Detector}
    (hdetector : detector ∈ Registry.standard.detectors) (context : Context) {front back : Text}
    (hfront : front = [] ∨ front.endsWith ['\n'] = true)
    (halike : ∀ rule ∈ detector.rules, ∀ marker ∈ rule.marker,
      (context.withContent front).mentions marker = (context.withContent back).mentions marker) :
    detect detector.rules (context.withContent (front ++ back)) =
      detect detector.rules (context.withContent front) ++
        (detect detector.rules (context.withContent back)).map (movedDown front.lines.length) :=
  detect_append (newline_not_mem_marker detector hdetector) context hfront halike

/-- A file that imports the package which the rules for stubs ask for. -/
def stubFile : Context := ⟨"svc/app.py", .python, [], ["grpc.aio"]⟩

def routeLines : Text :=
  "@app.route('/ä')\r\nu = UserStub(ch)\n".toList

def clientLines : Text :=
  "client.put(f\"/b\"); OrderStub(ch)".toList

theorem detect_append_stubs :
    ⟨"python", [.python], Rules.python⟩ ∈ Registry.standard.detectors ∧
      routeLines.endsWith ['\n'] = true ∧
      (∀ rule ∈ Rules.python, ∀ marker ∈ rule.marker,
        (stubFile.withContent routeLines).mentions marker =
          (stubFile.withContent clientLines).mentions marker) ∧
      (detect Rules.python (stubFile.withContent (routeLines ++ clientLines))).map
          (fun d => (d.framework, d.properties)) =
        [("flask", [("line", "1")]), ("grpcio", [("line", "2")]),
          ("requests", [("line", "3"), ("method", "PUT")]), ("grpcio", [("line", "3")])] := by
  have hdetector : (⟨"python", [.python], Rules.python⟩ : Detector) ∈
      Registry.standard.detectors := List.mem_cons_self
  have hend : routeLines.endsWith ['\n'] = true := by decide +kernel
  have halike : ∀ rule ∈ Rules.python, ∀ marker ∈ rule.marker,
      (stubFile.withContent routeLines).mentions marker =
        (stubFile.withContent clientLines).mentions marker := by
    decide +kernel
  refine ⟨hdetector, hend, halike, ?_⟩
  rw [detect_append_of_mem_standard hdetector stubFile (.inr hend) halike]
  decide +kernel

end Interface

end CodeAtlas
