import CodeAtlas.Proofs.Text
import Mathlib.Algebra.BigOperators.Group.List.Basic
import Mathlib.Algebra.GroupWithZero.Nat

/-! Lines. Every text is made of lines that a newline ends and of a rest without one, and so its lines
can be joined again: the text that this gives has the same lines, up to a carriage return at their
ends. -/

namespace CodeAtlas.Text

/-! ## One line -/

theorem endsWith_concat (text : Text) (c d : Char) :
    (text ++ [c]).endsWith [d] = decide (c = d) := by
  simp [endsWith, List.isPrefixOf, beq_eq_decide, eq_comm]

/-- A line without a carriage return at its end. -/
def dropReturn (line : Text) : Text :=
  if line.endsWith ['\r'] then line.dropLast else line

theorem dropReturn_concat (line : Text) (c : Char) :
    dropReturn (line ++ [c]) = if c = '\r' then line else line ++ [c] := by
  rw [dropReturn, endsWith_concat, List.dropLast_concat]
  simp

/-- What takes no notice of a carriage return at the end of a line. -/
theorem apply_dropReturn {β : Type} {f : Text → β} (h : ∀ line, f (line ++ ['\r']) = f line)
    (line : Text) : f (dropReturn line) = f line := by
  rcases List.eq_nil_or_concat' line with rfl | ⟨front, c, rfl⟩
  · rfl
  · rw [dropReturn_concat]
    split
    · rename_i hc
      rw [hc, h]
    · rfl

theorem map_map_dropReturn {β : Type} {f : Text → β} (h : ∀ line, f (line ++ ['\r']) = f line)
    (lines : List Text) : (lines.map dropReturn).map f = lines.map f := by
  rw [List.map_map]
  exact List.map_congr_left fun line _ => apply_dropReturn h line

theorem dropReturn_sublist (line : Text) : (dropReturn line).Sublist line := by
  unfold dropReturn
  split
  · exact List.dropLast_sublist line
  · exact List.Sublist.refl line

theorem count_concat_return {c : Char} (hc : c ≠ '\r') (line : Text) :
    (line ++ ['\r']).count c = line.count c := by
  simp [hc.symm]

/-! ## Lines of a text -/

/-- A line grows to the left until a newline. -/
theorem foldr_lineStep_of_not_mem {front : Text} (h : '\n' ∉ front) (line : Text)
    (lines : List Text) :
    front.foldr lineStep (false, line :: lines) = (false, (front ++ line) :: lines) := by
  induction front with
  | nil => rfl
  | cons c front ih =>
      obtain ⟨hne, hrest⟩ := List.ne_and_not_mem_of_not_mem_cons h
      rw [List.foldr_cons, ih hrest]
      simp [lineStep, consHead, hne.symm]

theorem lines_append_newline {line : Text} (h : '\n' ∉ line) (rest : Text) :
    lines (line ++ '\n' :: rest) = dropReturn line :: lines rest := by
  have hnewline : ('\n' :: rest).foldr lineStep (false, []) = (true, [] :: lines rest) := by
    simp [lineStep, lines]
  rw [lines, List.foldr_append, hnewline]
  rcases List.eq_nil_or_concat' line with rfl | ⟨front, c, rfl⟩
  · rfl
  · have hc : c ≠ '\n' := by
      rintro rfl
      simp at h
    have hfront : '\n' ∉ front := fun hm => h (List.mem_append_left _ hm)
    rw [List.foldr_append, dropReturn_concat]
    by_cases hreturn : c = '\r'
    · simp [lineStep, hreturn, foldr_lineStep_of_not_mem hfront]
    · simp [lineStep, consHead, hc, hreturn, foldr_lineStep_of_not_mem hfront]

/-- A text without a newline is one line, if it is not empty. -/
theorem lines_of_not_mem {last : Text} (h : '\n' ∉ last) :
    lines last = if last = [] then [] else [last] := by
  rcases List.eq_nil_or_concat' last with rfl | ⟨front, c, rfl⟩
  · rfl
  · have hc : c ≠ '\n' := by
      rintro rfl
      simp at h
    have hfront : '\n' ∉ front := fun hm => h (List.mem_append_left _ hm)
    simp [lines, lineStep, consHead, hc, foldr_lineStep_of_not_mem hfront]

/-- The lines that a newline ends, one after the other. -/
def ended (lines : List Text) : Text :=
  lines.flatMap (· ++ ['\n'])

theorem count_ended {c : Char} (hnewline : c ≠ '\n') (lines : List Text) :
    (ended lines).count c = (lines.map (·.count c)).sum := by
  simp [ended, List.count_flatMap, Function.comp_def, hnewline.symm]

theorem ended_cons (line : Text) (front : List Text) :
    ended (line :: front) = line ++ ['\n'] ++ ended front := rfl

theorem ended_cons_append (line : Text) (front : List Text) (last : Text) :
    ended (line :: front) ++ last = line ++ '\n' :: (ended front ++ last) := by
  simp [ended_cons]

theorem ended_concat (front : List Text) (line : Text) :
    ended (front ++ [line]) = ended front ++ line ++ ['\n'] := by
  simp [ended]

/-- Lines that a newline ends are read apart from what follows them. -/
theorem lines_ended {front : List Text} (h : ∀ line ∈ front, '\n' ∉ line) (rest : Text) :
    lines (ended front ++ rest) = front.map dropReturn ++ lines rest := by
  induction front with
  | nil => rfl
  | cons line front ih =>
      obtain ⟨hline, hrest⟩ := List.forall_mem_cons.mp h
      rw [ended_cons_append, lines_append_newline hline, ih hrest]
      rfl

theorem lines_ended_append {front : List Text} {last : Text}
    (hfront : ∀ line ∈ front, '\n' ∉ line) (hlast : '\n' ∉ last) :
    lines (ended front ++ last) = front.map dropReturn ++ if last = [] then [] else [last] := by
  rw [lines_ended hfront, lines_of_not_mem hlast]

/-- Every text is made of lines that a newline ends, and of a rest without one. -/
theorem exists_eq_ended_append (text : Text) : ∃ front last,
    (∀ line ∈ front, '\n' ∉ line) ∧ '\n' ∉ last ∧ text = ended front ++ last := by
  induction text with
  | nil => exact ⟨[], [], by simp, by simp, rfl⟩
  | cons c text ih =>
      obtain ⟨front, last, hfront, hlast, rfl⟩ := ih
      by_cases hc : c = '\n'
      · refine ⟨[] :: front, last, by simpa using hfront, hlast, ?_⟩
        simp [ended, hc]
      · cases front with
        | nil => exact ⟨[], c :: last, by simp, by simpa [Ne.symm hc] using hlast, rfl⟩
        | cons line front =>
            refine ⟨(c :: line) :: front, last, ?_, hlast, rfl⟩
            obtain ⟨hline, hrest⟩ := List.forall_mem_cons.mp hfront
            exact List.forall_mem_cons.mpr ⟨by simpa [Ne.symm hc] using hline, hrest⟩

theorem not_mem_of_mem_lines {text line : Text} (h : line ∈ lines text) : '\n' ∉ line := by
  obtain ⟨front, last, hfront, hlast, rfl⟩ := exists_eq_ended_append text
  rw [lines_ended_append hfront hlast] at h
  rcases List.mem_append.mp h with h | h
  · obtain ⟨whole, hm, rfl⟩ := List.mem_map.mp h
    exact fun hnewline => hfront whole hm ((dropReturn_sublist whole).subset hnewline)
  · split at h
    · cases h
    · rwa [List.mem_singleton.mp h]

theorem endsWith_ended_append {front : List Text} {last : Text} (hlast : '\n' ∉ last) :
    (ended front ++ last).endsWith ['\n'] = true ↔ front ≠ [] ∧ last = [] := by
  rcases List.eq_nil_or_concat' last with rfl | ⟨rest, c, rfl⟩
  · rcases List.eq_nil_or_concat' front with rfl | ⟨front, line, rfl⟩
    · simp [ended, endsWith]
    · rw [List.append_nil, ended_concat, endsWith_concat]
      simp
  · have hc : c ≠ '\n' := by
      rintro rfl
      simp at hlast
    rw [← List.append_assoc, endsWith_concat]
    simp [hc]

/-- A text that is empty or ends in a newline is read apart from what follows it. -/
theorem lines_append {front : Text} (h : front = [] ∨ front.endsWith ['\n'] = true) (rest : Text) :
    lines (front ++ rest) = lines front ++ lines rest := by
  obtain ⟨before, last, hbefore, hlast, rfl⟩ := exists_eq_ended_append front
  have hnil : last = [] := by
    rcases h with hempty | hend
    · exact (List.append_eq_nil_iff.mp hempty).2
    · exact ((endsWith_ended_append hlast).mp hend).2
  have hlines := lines_ended hbefore []
  rw [hnil, hlines, List.append_nil, lines_ended hbefore]
  exact congrArg (· ++ lines rest) (List.append_nil _).symm

theorem lines_ne_nil {text : Text} (h : text.endsWith ['\n'] = true) : lines text ≠ [] := by
  obtain ⟨front, last, hfront, hlast, rfl⟩ := exists_eq_ended_append text
  obtain ⟨hne, -⟩ := (endsWith_ended_append hlast).mp h
  simp [lines_ended_append hfront hlast, hne]

/-- The last line is empty only in front of a newline. -/
theorem getLast?_lines_ne {text : Text} (h : text.endsWith ['\n'] = false) :
    (lines text).getLast? ≠ some [] := by
  obtain ⟨front, last, hfront, hlast, rfl⟩ := exists_eq_ended_append text
  rw [lines_ended_append hfront hlast]
  split
  · rename_i hnil
    have hempty : front = [] := by
      by_contra hne
      rw [(endsWith_ended_append hlast).mpr ⟨hne, hnil⟩] at h
      cases h
    simp [hempty]
  · rename_i hne
    simpa using hne

theorem countP_eq_sum {α : Type} (p : α → Bool) (items : List α) :
    items.countP p = (items.map fun item => (p item).toNat).sum := by
  induction items with
  | nil => rfl
  | cons item items ih => cases hitem : p item <;> simp [hitem, ih, Nat.add_comm]

/-- The lines hold the characters of the text, but for the ends of lines. -/
theorem sum_count_lines {c : Char} (hnewline : c ≠ '\n') (hreturn : c ≠ '\r') (text : Text) :
    ((lines text).map (·.count c)).sum = text.count c := by
  obtain ⟨front, last, hfront, hlast, rfl⟩ := exists_eq_ended_append text
  rw [lines_ended_append hfront hlast, List.map_append, List.sum_append,
    map_map_dropReturn (count_concat_return hreturn), List.count_append, count_ended hnewline]
  split
  · rename_i hnil
    simp [hnil]
  · simp

/-! ## Joining lines again -/

theorem rejoin_concat (front : List Text) (line source : Text) :
    rejoin (front ++ [line]) source =
      if source.endsWith ['\n'] then ended (front ++ [line]) else ended front ++ line := by
  rw [rejoin, join_concat]
  split <;> simp [ended]

theorem count_rejoin {c : Char} (hnewline : c ≠ '\n') (lines : List Text) (source : Text) :
    (rejoin lines source).count c = (lines.map (·.count c)).sum := by
  rcases List.eq_nil_or_concat' lines with rfl | ⟨front, line, rfl⟩
  · unfold rejoin
    split <;> simp [join, hnewline.symm]
  · rw [rejoin_concat]
    split
    · exact count_ended hnewline _
    · simp [count_ended hnewline]

/-- Joined again, lines lose a carriage return at their ends, except the last one if no newline
follows it. -/
theorem lines_rejoin {lines : List Text} {source : Text} (hlines : ∀ line ∈ lines, '\n' ∉ line)
    (hsome : source.endsWith ['\n'] = true → lines ≠ [])
    (hlast : source.endsWith ['\n'] = false → lines.getLast? ≠ some []) :
    Text.lines (rejoin lines source) = lines.map dropReturn ∨
      ∃ front last, lines = front ++ [last] ∧
        Text.lines (rejoin lines source) = front.map dropReturn ++ [last] := by
  cases hend : source.endsWith ['\n'] with
  | true =>
      obtain ⟨front, line, rfl⟩ := (List.eq_nil_or_concat' lines).resolve_left (hsome hend)
      have hread := lines_ended_append hlines (List.not_mem_nil (a := '\n'))
      rw [List.append_nil, if_pos rfl, List.append_nil] at hread
      rw [rejoin_concat, hend, if_pos rfl]
      exact .inl hread
  | false =>
      rcases List.eq_nil_or_concat' lines with rfl | ⟨front, line, rfl⟩
      · exact .inl (by simp [rejoin, hend, join, Text.lines])
      · have hline : line ≠ [] := by simpa using hlast hend
        have hread := lines_ended_append (fun l hl => hlines l (List.mem_append_left _ hl))
          (hlines line (by simp))
        rw [if_neg hline] at hread
        rw [rejoin_concat, hend, if_neg Bool.false_ne_true]
        exact .inr ⟨front, line, rfl, hread⟩

/-- Joined again, lines are read as they were, up to a carriage return at their ends. -/
theorem map_lines_rejoin {β : Type} {f : Text → β} (hf : ∀ line, f (line ++ ['\r']) = f line)
    {lines : List Text} {source : Text} (hlines : ∀ line ∈ lines, '\n' ∉ line)
    (hsome : source.endsWith ['\n'] = true → lines ≠ [])
    (hlast : source.endsWith ['\n'] = false → lines.getLast? ≠ some []) :
    (Text.lines (rejoin lines source)).map f = lines.map f := by
  rcases lines_rejoin hlines hsome hlast with hread | ⟨front, last, rfl, hread⟩
  · rw [hread, map_map_dropReturn hf]
  · rw [hread, List.map_append, map_map_dropReturn hf, List.map_append]

/-- A line without a carriage return at its end is read as it was. -/
theorem getElem?_lines_rejoin {lines : List Text} {source : Text}
    (hlines : ∀ line ∈ lines, '\n' ∉ line)
    (hsome : source.endsWith ['\n'] = true → lines ≠ [])
    (hlast : source.endsWith ['\n'] = false → lines.getLast? ≠ some []) {number : Nat} {line : Text}
    (hline : lines[number]? = some line) (hend : dropReturn line = line) :
    (Text.lines (rejoin lines source))[number]? = some line := by
  rcases lines_rejoin hlines hsome hlast with hread | ⟨front, last, rfl, hread⟩
  · rw [hread, List.getElem?_map, hline, Option.map_some, hend]
  · rw [hread]
    rw [List.getElem?_append] at hline ⊢
    rw [List.length_map, List.getElem?_map]
    split
    · rename_i hlt
      rw [if_pos hlt] at hline
      rw [hline, Option.map_some, hend]
    · rename_i hge
      rwa [if_neg hge] at hline

end CodeAtlas.Text
