import CodeAtlas.Proofs.Text.Lines
import CodeAtlas.Repair.Semicolons

/-! Semicolon repair. Each line that lacks a semicolon gets one behind its last visible character and
needs none any more; the other lines are read as they were, up to blanks at their ends. -/

namespace CodeAtlas.Repair

/-! ## Blanks and marks at the end of a line -/

theorem trimEnd_concat_of_isBlank {c : Char} (hc : Text.isBlank c = true) (line : Text) :
    Text.trimEnd (line ++ [c]) = line.trimEnd := by
  simp [Text.trimEnd, Text.dropTail, hc]

theorem trim_concat_of_isBlank {c : Char} (hc : Text.isBlank c = true) (line : Text) :
    Text.trim (line ++ [c]) = line.trim := by
  rw [Text.trim, Text.trim, Text.trimStart, Text.trimStart, List.dropWhile_append]
  split
  · rename_i hnil
    rw [List.isEmpty_iff.mp hnil, List.dropWhile_cons_of_pos hc]
    rfl
  · exact trimEnd_concat_of_isBlank hc _

/-- A visible character at the end stays there. -/
theorem trim_concat {c : Char} (hc : Text.isBlank c = false) (line : Text) :
    Text.trim (line ++ [c]) = line.trimStart ++ [c] := by
  have hstart : Text.trimStart (line ++ [c]) = line.trimStart ++ [c] := by
    have hlast : [c].dropWhile Text.isBlank = [c] := List.dropWhile_cons_of_neg (by simp [hc])
    rw [Text.trimStart, Text.trimStart, List.dropWhile_append, hlast]
    split
    · rename_i hnil
      rw [List.isEmpty_iff.mp hnil, List.nil_append]
    · rfl
  rw [Text.trim, hstart, Text.trimEnd, Text.dropTail_concat _ hc]

theorem count_trimEnd {c : Char} (hc : Text.isBlank c = false) (line : Text) :
    line.trimEnd.count c = line.count c := by
  obtain ⟨tail, hline, hblank⟩ := Text.exists_eq_dropTail_append Text.isBlank line
  have htail : tail.count c = 0 := by
    refine List.count_eq_zero_of_not_mem fun hm => ?_
    rw [hblank c hm] at hc
    cases hc
  conv_rhs => rw [hline, List.count_append, htail, Nat.add_zero]
  rfl

/-! ## One line -/

/-- The line looks like a statement without its end. -/
def isUnfinished (line : Text) : Bool :=
  needsSemicolon line.trim

theorem isUnfinished_concat_return (line : Text) :
    isUnfinished (line ++ ['\r']) = isUnfinished line := by
  rw [isUnfinished, trim_concat_of_isBlank rfl, isUnfinished]

theorem needsSemicolon_of_getLast? {line : Text} {c : Char} (h : line.getLast? = some c)
    (hc : statementEnds.contains c = true) : needsSemicolon line = false := by
  cases line with
  | nil => cases h
  | cons first line =>
      unfold needsSemicolon
      rw [h]
      dsimp only
      rw [hc, Bool.not_true, Bool.and_false, Bool.false_and]

theorem isUnfinished_concat_semicolon (line : Text) : isUnfinished (line ++ [';']) = false := by
  rw [isUnfinished, trim_concat (by decide),
    needsSemicolon_of_getLast? List.getLast?_concat (by decide)]

theorem endStatement_of_isUnfinished {line : Text} (h : isUnfinished line = true) :
    endStatement line = line.trimEnd ++ [';'] :=
  if_pos h

theorem endStatement_of_finished {line : Text} (h : isUnfinished line = false) :
    endStatement line = line :=
  if_neg (Bool.eq_false_iff.mp h)

/-- No line is unfinished once its statement is ended. -/
theorem isUnfinished_endStatement (line : Text) : isUnfinished (endStatement line) = false := by
  cases h : isUnfinished line with
  | true => rw [endStatement_of_isUnfinished h, isUnfinished_concat_semicolon]
  | false => rw [endStatement_of_finished h, h]

theorem count_endStatement (line : Text) :
    (endStatement line).count ';' = line.count ';' + (isUnfinished line).toNat := by
  cases h : isUnfinished line with
  | true =>
      rw [endStatement_of_isUnfinished h, List.count_append, count_trimEnd (by decide)]
      rfl
  | false =>
      rw [endStatement_of_finished h]
      rfl

theorem not_mem_endStatement {line : Text} (h : '\n' ∉ line) : '\n' ∉ endStatement line := by
  cases hline : isUnfinished line with
  | true =>
      have htrim : '\n' ∉ line.trimEnd := fun hm => h ((Text.trimEnd_isPrefix line).subset hm)
      simp [endStatement_of_isUnfinished hline, htrim]
  | false => rwa [endStatement_of_finished hline]

theorem endStatement_ne_nil {line : Text} (h : line ≠ []) : endStatement line ≠ [] := by
  cases hline : isUnfinished line with
  | true => simp [endStatement_of_isUnfinished hline]
  | false => rwa [endStatement_of_finished hline]

/-! ## All lines -/

/-- The text with its statements ended. -/
def endedText (text : Text) : Text :=
  Text.rejoin (text.lines.map endStatement) text

/-- The numbers of the unfinished lines, counted from zero. -/
def unfinishedLines (text : Text) : List Nat :=
  text.lines.zipIdx.filterMap fun (line, number) => if isUnfinished line then some number else none

/-- What is reported of a line that got a semicolon. -/
def endedNote (number : Nat) : String :=
  "added ';' on line " ++ toString (number + 1)

theorem mem_unfinishedLines_iff {text : Text} {number : Nat} : number ∈ unfinishedLines text ↔
    ∃ line, text.lines[number]? = some line ∧ isUnfinished line = true := by
  simp only [unfinishedLines, List.mem_filterMap, Prod.exists, List.mem_zipIdx_iff_getElem?,
    Option.ite_none_right_eq_some, Option.some.injEq]
  constructor
  · rintro ⟨line, index, hline, hunfinished, rfl⟩
    exact ⟨line, hline, hunfinished⟩
  · rintro ⟨line, hline, hunfinished⟩
    exact ⟨line, number, hline, hunfinished, rfl⟩

theorem length_unfinishedLines (text : Text) :
    (unfinishedLines text).length = text.lines.countP isUnfinished := by
  have hsome : ∀ line : Text × Nat,
      ((if isUnfinished line.1 then some line.2 else none : Option Nat).isSome) =
        isUnfinished line.1 := fun line => by cases isUnfinished line.1 <;> rfl
  have hlines : text.lines.countP isUnfinished =
      text.lines.zipIdx.countP fun line => isUnfinished line.1 := by
    conv_lhs => rw [← List.zipIdx_map_fst 0 text.lines, List.countP_map]
    rfl
  rw [unfinishedLines, List.length_filterMap_eq_countP, hlines]
  exact List.countP_congr fun line _ => by rw [hsome]

theorem semicolonFix_eq (text : Text) (language : Language) (budget : Budget) :
    semicolonFix text language budget =
      if usesSemicolons language = false ∨
          (List.range text.lines.length).any budget.expired = true ∨ unfinishedLines text = [] then
        none
      else some (.ofContent .semicolonFix (endedText text)
        ((unfinishedLines text).map endedNote)) := by
  have hnotes : (text.lines.zipIdx.filterMap fun (line, number) =>
      if isUnfinished line then some (endedNote number) else none) =
        (unfinishedLines text).map endedNote := by
    rw [unfinishedLines, List.map_filterMap]
    refine List.filterMap_congr fun (line, number) _ => ?_
    dsimp only
    cases isUnfinished line <;> rfl
  have hunfold : semicolonFix text language budget =
      if !usesSemicolons language then none
      else if (List.range text.lines.length).any budget.expired then none
      else if (text.lines.zipIdx.filterMap fun (line, number) =>
        if isUnfinished line then some (endedNote number) else none).isEmpty then none
      else some (.ofContent .semicolonFix (endedText text)
        (text.lines.zipIdx.filterMap fun (line, number) =>
          if isUnfinished line then some (endedNote number) else none)) := rfl
  rw [hunfold, hnotes]
  by_cases hlanguage : usesSemicolons language = false
  · rw [hlanguage, Bool.not_false, if_pos rfl, if_pos (.inl rfl)]
  · by_cases htime : (List.range text.lines.length).any budget.expired = true
    · rw [if_neg (by simpa using hlanguage), if_pos htime, if_pos (.inr (.inl htime))]
    · rw [if_neg (by simpa using hlanguage), if_neg htime]
      simp [hlanguage, htime]

/-! ## The text with its statements ended -/

theorem not_mem_of_mem_map_endStatement {text line : Text}
    (h : line ∈ text.lines.map endStatement) : '\n' ∉ line := by
  obtain ⟨before, hbefore, rfl⟩ := List.mem_map.mp h
  exact not_mem_endStatement (Text.not_mem_of_mem_lines hbefore)

theorem map_endStatement_ne_nil {text : Text} (h : text.endsWith ['\n'] = true) :
    text.lines.map endStatement ≠ [] :=
  fun hnil => Text.lines_ne_nil h (List.map_eq_nil_iff.mp hnil)

theorem getLast?_map_endStatement_ne {text : Text} (h : text.endsWith ['\n'] = false) :
    (text.lines.map endStatement).getLast? ≠ some [] := by
  intro hlast
  rw [List.getLast?_map, Option.map_eq_some_iff] at hlast
  obtain ⟨line, hline, hnil⟩ := hlast
  refine endStatement_ne_nil ?_ hnil
  rintro rfl
  exact Text.getLast?_lines_ne h hline

/-- Joined again, the lines with their statements ended are read as they are, up to a carriage
return at their ends. -/
theorem map_lines_endedText {β : Type} {f : Text → β} (hf : ∀ line, f (line ++ ['\r']) = f line)
    (text : Text) :
    (endedText text).lines.map f = text.lines.map fun line => f (endStatement line) := by
  rw [endedText, Text.map_lines_rejoin hf (fun _ => not_mem_of_mem_map_endStatement)
    map_endStatement_ne_nil getLast?_map_endStatement_ne, List.map_map]
  rfl

theorem length_lines_endedText (text : Text) :
    (endedText text).lines.length = text.lines.length := by
  have hlines := congrArg List.length (map_lines_endedText (f := fun _ => ()) (fun _ => rfl) text)
  rwa [List.length_map, List.length_map] at hlines

/-- No line is unfinished any more. -/
theorem unfinishedLines_endedText (text : Text) : unfinishedLines (endedText text) = [] := by
  have hlines := map_lines_endedText isUnfinished_concat_return text
  refine List.eq_nil_iff_forall_not_mem.mpr fun number hm => ?_
  obtain ⟨line, hline, hunfinished⟩ := mem_unfinishedLines_iff.mp hm
  have hplace := congrArg (·[number]?) hlines
  simp only [List.getElem?_map, hline, Option.map_some, hunfinished,
    isUnfinished_endStatement] at hplace
  obtain ⟨-, -, hfalse⟩ := Option.map_eq_some_iff.mp hplace.symm
  cases hfalse

theorem count_endedText (text : Text) :
    (endedText text).count ';' = text.count ';' + (unfinishedLines text).length := by
  have hlines : text.lines.map (fun line => (endStatement line).count ';') =
      text.lines.map fun line => line.count ';' + (isUnfinished line).toNat :=
    List.map_congr_left fun line _ => count_endStatement line
  rw [endedText, Text.count_rejoin (by decide), List.map_map, Function.comp_def, hlines,
    List.sum_map_add, Text.sum_count_lines (by decide) (by decide), length_unfinishedLines,
    Text.countP_eq_sum]

theorem getElem?_lines_endedText_of_mem {text : Text} {number : Nat}
    (h : number ∈ unfinishedLines text) : ∃ line, text.lines[number]? = some line ∧
      (endedText text).lines[number]? = some (line.trimEnd ++ [';']) := by
  obtain ⟨line, hline, hunfinished⟩ := mem_unfinishedLines_iff.mp h
  have hended : (text.lines.map endStatement)[number]? = some (line.trimEnd ++ [';']) := by
    rw [List.getElem?_map, hline, Option.map_some, endStatement_of_isUnfinished hunfinished]
  have hend : Text.dropReturn (line.trimEnd ++ [';']) = line.trimEnd ++ [';'] :=
    Text.dropReturn_concat _ _
  exact ⟨line, hline, Text.getElem?_lines_rejoin (fun _ => not_mem_of_mem_map_endStatement)
    map_endStatement_ne_nil getLast?_map_endStatement_ne hended hend⟩

theorem getElem?_lines_endedText_of_not_mem {text : Text} {number : Nat}
    (h : number ∉ unfinishedLines text) :
    (endedText text).lines[number]?.map Text.trimEnd = text.lines[number]?.map Text.trimEnd := by
  have hreturn : ∀ line, Text.trimEnd (line ++ ['\r']) = Text.trimEnd line :=
    trimEnd_concat_of_isBlank rfl
  have hplace := congrArg (·[number]?) (map_lines_endedText hreturn text)
  simp only [List.getElem?_map] at hplace
  rw [hplace]
  cases hline : text.lines[number]? with
  | none => rfl
  | some line =>
      have hfinished : isUnfinished line = false := Bool.eq_false_iff.mpr fun hunfinished =>
        h (mem_unfinishedLines_iff.mpr ⟨line, hline, hunfinished⟩)
      rw [Option.map_some, Option.map_some, endStatement_of_finished hfinished]

/-! ## The repair -/

/-- What ending the statements on some lines of a text makes of it. -/
structure EndsStatements (text content : Text) (numbers : List Nat) : Prop where
  again : ∀ language budget, semicolonFix content language budget = none
  length_eq : content.lines.length = text.lines.length
  ended : ∀ number ∈ numbers, ∃ line, text.lines[number]? = some line ∧
    content.lines[number]? = some (line.trimEnd ++ [';'])
  kept : ∀ number ∉ numbers,
    content.lines[number]?.map Text.trimEnd = text.lines[number]?.map Text.trimEnd
  count_eq : content.count ';' = text.count ';' + numbers.length

theorem endsStatements_endedText (text : Text) :
    EndsStatements text (endedText text) (unfinishedLines text) where
  again language budget := by
    rw [semicolonFix_eq, if_pos (.inr (.inr (unfinishedLines_endedText text)))]
  length_eq := length_lines_endedText text
  ended _ := getElem?_lines_endedText_of_mem
  kept _ := getElem?_lines_endedText_of_not_mem
  count_eq := count_endedText text

/-- In the languages that end statements with a semicolon, repairing a text adds one semicolon to
each line that is reported, behind its last visible character, and leaves the other lines as they
are; nothing is left to be repaired then. In other languages nothing is ever repaired. -/
theorem semicolonFix_ends_statements (text : Text) (language : Language) (budget : Budget) :
    (∀ outcome, semicolonFix text language budget = some outcome →
        ∃ content numbers, outcome.output = .content content ∧
          outcome.changes = numbers.map endedNote ∧ EndsStatements text content numbers) ∧
      (language ∉ [.typeScript, .javaScript, .java, .cSharp, .php] →
        semicolonFix text language budget = none) := by
  refine ⟨fun outcome h => ?_, fun hlanguage => ?_⟩
  · rw [semicolonFix_eq, Option.ite_none_left_eq_some, Option.some.injEq] at h
    obtain ⟨-, rfl⟩ := h
    exact ⟨_, _, rfl, rfl, endsStatements_endedText text⟩
  · have hother : usesSemicolons language = false := by
      revert hlanguage
      cases language <;> decide
    rw [semicolonFix_eq, if_pos (.inl hother)]

/-- A text with comments, a block and blanks at the ends of its lines. -/
def unfinishedText : Text := "let x = 1 \r\n// y\nif (x) \x7b\n  f(x)\t\n\x7d\r\r\n@d\nelse\niffy".toList

theorem unfinishedText_ended :
    (∃ outcome, semicolonFix unfinishedText .javaScript .unlimited = some outcome ∧
        ∃ content numbers, outcome.output = .content content ∧
          outcome.changes = numbers.map endedNote ∧
          EndsStatements unfinishedText content numbers) ∧
      Language.python ∉ ([.typeScript, .javaScript, .java, .cSharp, .php] : List Language) ∧
      semicolonFix unfinishedText .python .unlimited = none := by
  have hsome : (semicolonFix unfinishedText .javaScript .unlimited).isSome = true := by
    decide +kernel
  have hother : Language.python ∉ ([.typeScript, .javaScript, .java, .cSharp, .php] : List Language) :=
    by decide
  obtain ⟨outcome, houtcome⟩ := Option.isSome_iff_exists.mp hsome
  exact ⟨⟨outcome, houtcome,
      (semicolonFix_ends_statements unfinishedText .javaScript .unlimited).1 outcome houtcome⟩,
    hother, (semicolonFix_ends_statements unfinishedText .python .unlimited).2 hother⟩

end CodeAtlas.Repair
