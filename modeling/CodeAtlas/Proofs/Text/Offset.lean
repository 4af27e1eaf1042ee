import CodeAtlas.Proofs.Text.Pieces

/-! Offsets and the lines that hold them. A place between two characters is on the line whose number
is one more than the number of newlines in front of it, and that line is a piece of the text between
two offsets, with the place among them. -/

namespace CodeAtlas.Text

theorem takeBytes_append (front back : Text) : takeBytes front.size (front ++ back) = front := by
  have hgo : ∀ taken, takeBytes.go front.size (front ++ back) taken = taken.reverse ++ front := by
    induction front with
    | nil =>
        intro taken
        cases back with
        | nil => simp [takeBytes.go]
        | cons c back =>
            have hpos := c.utf8Size_pos
            simp [takeBytes.go, Nat.not_le.mpr hpos]
    | cons c front ih =>
        intro taken
        simp [takeBytes.go, ih]
  exact hgo []

/-! ## Starts of lines -/

theorem lineStartsFrom_eq (offset : Nat) (text : Text) (found : List Nat) :
    lineStartsFrom offset text found = found.reverse ++ lineStartsFrom offset text [] := by
  induction text generalizing offset found with
  | nil => simp [lineStartsFrom]
  | cons c text ih =>
      simp only [lineStartsFrom]
      split
      · rw [ih, ih _ [_]]
        simp
      · exact ih _ found

theorem lineStartsFrom_cons (offset : Nat) (c : Char) (text : Text) :
    lineStartsFrom offset (c :: text) [] =
      (if c = '\n' then [offset + c.utf8Size] else []) ++
        lineStartsFrom (offset + c.utf8Size) text [] := by
  rw [lineStartsFrom]
  split
  · rw [lineStartsFrom_eq]
    rfl
  · rfl

theorem lineStartsFrom_append (offset : Nat) (front rest : Text) :
    lineStartsFrom offset (front ++ rest) [] =
      lineStartsFrom offset front [] ++ lineStartsFrom (offset + front.size) rest [] := by
  induction front generalizing offset with
  | nil => rfl
  | cons c front ih =>
      rw [List.cons_append, lineStartsFrom_cons, lineStartsFrom_cons, ih, size_cons,
        List.append_assoc, Nat.add_assoc]

theorem length_lineStartsFrom (offset : Nat) (text : Text) :
    (lineStartsFrom offset text []).length = text.count '\n' := by
  induction text generalizing offset with
  | nil => rfl
  | cons c text ih =>
      rw [lineStartsFrom_cons, List.length_append, ih, List.count_cons]
      by_cases hc : c = '\n'
      · simp [hc, Nat.add_comm]
      · simp [hc]

/-- A line starts behind a newline of the text. -/
theorem bounds_of_mem_lineStartsFrom {offset start : Nat} {text : Text}
    (h : start ∈ lineStartsFrom offset text []) : offset < start ∧ start ≤ offset + text.size := by
  induction text generalizing offset with
  | nil => cases h
  | cons c text ih =>
      have hpos := c.utf8Size_pos
      rw [lineStartsFrom_cons, List.mem_append] at h
      rw [size_cons]
      rcases h with h | h
      · split at h
        · rw [List.mem_singleton.mp h]
          omega
        · cases h
      · have hlater := ih h
        omega

/-- The table for a text goes on with what the rest of the text adds. -/
theorem lineStarts_append (front rest : Text) :
    lineStarts (front ++ rest) = lineStarts front ++ lineStartsFrom front.size rest [] := by
  rw [lineStarts, lineStartsFrom_append, Nat.zero_add]
  rfl

@[simp] theorem length_lineStarts (text : Text) :
    (lineStarts text).length = text.count '\n' + 1 := by
  rw [lineStarts, List.length_cons, length_lineStartsFrom]

theorem le_of_mem_lineStarts {start : Nat} {text : Text} (h : start ∈ lineStarts text) :
    start ≤ text.size := by
  rcases List.mem_cons.mp h with rfl | h
  · exact Nat.zero_le _
  · simpa using (bounds_of_mem_lineStartsFrom h).2

/-- A newline starts a line behind it. -/
theorem getElem?_lineStarts (front rest : Text) :
    (lineStarts (front ++ '\n' :: rest))[front.count '\n' + 1]? = some (front.size + 1) := by
  rw [lineStarts_append, lineStartsFrom_cons, if_pos rfl,
    List.getElem?_append_right (by rw [length_lineStarts]), length_lineStarts, Nat.sub_self]
  rfl

/-! ## Lines -/

/-- The line of a place has as many newlines in front of it as the place. -/
theorem lineAt_size (front rest : Text) :
    lineAt (lineStarts (front ++ rest)) front.size = front.count '\n' + 1 := by
  have hfront : ∀ start ∈ lineStarts front, decide (start ≤ front.size) = true := fun start hm =>
    decide_eq_true (le_of_mem_lineStarts hm)
  have hrest : (lineStartsFrom front.size rest []).takeWhile (· ≤ front.size) = [] := by
    rw [List.takeWhile_eq_nil_iff]
    intro hpos hle
    have hbounds := bounds_of_mem_lineStartsFrom (List.get_mem _ ⟨0, hpos⟩)
    simp only [decide_eq_true_eq] at hle
    omega
  rw [lineAt, lineStarts_append, List.takeWhile_append_of_pos hfront, hrest, List.append_nil,
    length_lineStarts]

/-- The lines that start at a place or in front of it come first. -/
theorem le_size_iff_lt_lineAt {front rest : Text} {i start : Nat}
    (h : (lineStarts (front ++ rest))[i]? = some start) :
    start ≤ front.size ↔ i < lineAt (lineStarts (front ++ rest)) front.size := by
  rw [lineAt_size, ← length_lineStarts front]
  rw [lineStarts_append, List.getElem?_append] at h
  split at h
  · rename_i hlt
    exact iff_of_true (le_of_mem_lineStarts (List.mem_of_getElem? h)) hlt
  · rename_i hge
    have hbounds := bounds_of_mem_lineStartsFrom (List.mem_of_getElem? h)
    exact iff_of_false (by omega) hge

/-! ## Slices -/

theorem dropBytes_append (front rest : Text) : dropBytes front.size (front ++ rest) = rest := by
  induction front with
  | nil => cases rest <;> rfl
  | cons c front ih =>
      have hpos := c.utf8Size_pos
      obtain ⟨n, hn⟩ := Nat.exists_eq_add_one_of_ne_zero (Nat.pos_iff_ne_zero.mp hpos)
      have hcount : size (c :: front) = n + size front + 1 := by
        rw [size_cons]
        omega
      have hleft : n + size front + 1 - c.utf8Size = size front := by
        omega
      rw [hcount, List.cons_append, dropBytes, hleft, ih]

/-- `piece` stands between two offsets of a text, neither of which is inside a character. -/
def IsSlice (text : Text) (start stop : Nat) (piece : Text) : Prop :=
  ∃ front back, text = front ++ piece ++ back ∧ front.size = start ∧ (front ++ piece).size = stop

/-- What is cut out of a text between two offsets is what stands there. -/
theorem IsSlice.takeBytes_dropBytes {text piece : Text} {start stop : Nat}
    (h : IsSlice text start stop piece) :
    takeBytes (stop - start) (dropBytes start text) = piece := by
  obtain ⟨front, back, rfl, rfl, rfl⟩ := h
  rw [List.append_assoc, dropBytes_append, size_append, Nat.add_sub_cancel_left, takeBytes_append]

/-! ## The line of a place -/

theorem count_newline_ended {lines : List Text} (h : ∀ line ∈ lines, '\n' ∉ line) :
    (ended lines).count '\n' = lines.length := by
  induction lines with
  | nil => rfl
  | cons line lines ih =>
      obtain ⟨hline, hrest⟩ := List.forall_mem_cons.mp h
      rw [ended_cons, List.count_append, List.count_append, ih hrest,
        List.count_eq_zero_of_not_mem hline, List.length_cons]
      simp [Nat.add_comm]

theorem splitOn_ended_append {lines : List Text} (h : ∀ line ∈ lines, '\n' ∉ line) (rest : Text) :
    (ended lines ++ rest).splitOn '\n' = lines ++ rest.splitOn '\n' := by
  induction lines with
  | nil => rfl
  | cons line lines ih =>
      obtain ⟨hline, hrest⟩ := List.forall_mem_cons.mp h
      rw [ended_cons_append, List.splitOn_append_cons_self, ih hrest,
        List.splitOn_eq_singleton hline]
      rfl

/-- What follows a line up to the end of the text. -/
def EndsLine (rest : Text) : Prop :=
  rest = [] ∨ ∃ later, rest = '\n' :: later

theorem exists_eq_line_append (text : Text) :
    ∃ line rest, '\n' ∉ line ∧ EndsLine rest ∧ text = line ++ rest := by
  obtain ⟨lines, last, hlines, hlast, rfl⟩ := exists_eq_ended_append text
  cases lines with
  | nil => exact ⟨last, [], hlast, .inl rfl, by simp [ended]⟩
  | cons line lines =>
      exact ⟨line, '\n' :: (ended lines ++ last), hlines line List.mem_cons_self, .inr ⟨_, rfl⟩,
        ended_cons_append line lines last⟩

theorem splitOn_line_append {line rest : Text} (hline : '\n' ∉ line) (hrest : EndsLine rest) :
    ∃ later, (line ++ rest).splitOn '\n' = line :: later := by
  rcases hrest with rfl | ⟨later, rfl⟩
  · exact ⟨[], by rw [List.append_nil, List.splitOn_eq_singleton hline]⟩
  · rw [List.splitOn_append_cons_self, List.splitOn_eq_singleton hline]
    exact ⟨_, rfl⟩

/-- A line stands between the lines in front of it and what ends it. -/
theorem isSlice_line (before : List Text) (left right rest : Text) :
    IsSlice (ended before ++ left ++ (right ++ rest)) (ended before).size
      (ended before ++ (left ++ right)).size (left ++ right) :=
  ⟨ended before, rest, by simp, rfl, rfl⟩

section Around

variable {before : List Text} (hbefore : ∀ line ∈ before, '\n' ∉ line)
include hbefore

theorem count_ended_append {line : Text} (hline : '\n' ∉ line) :
    (ended before ++ line).count '\n' = before.length := by
  rw [List.count_append, count_newline_ended hbefore, List.count_eq_zero_of_not_mem hline,
    Nat.add_zero]

/-- A line starts behind the lines in front of it. -/
theorem getElem?_lineStarts_ended (rest : Text) :
    (lineStarts (ended before ++ rest))[before.length]? = some (ended before).size := by
  rcases List.eq_nil_or_concat' before with rfl | ⟨front, line, rfl⟩
  · rfl
  · have hfront : ∀ line ∈ front, '\n' ∉ line := fun l hl => hbefore l (List.mem_append_left _ hl)
    have hnumber : (front ++ [line]).length = (ended front ++ line).count '\n' + 1 := by
      rw [count_ended_append hfront (hbefore line (by simp)), List.length_append,
        List.length_singleton]
    have hsize : (ended front ++ line ++ ['\n']).size = (ended front ++ line).size + 1 :=
      size_append _ ['\n']
    rw [hnumber, ended_concat, hsize, List.append_assoc, List.singleton_append, getElem?_lineStarts]

/-- The next line starts behind the newline of the line, if that has one. -/
theorem getElem?_lineStarts_next {line rest : Text} (hline : '\n' ∉ line) (hrest : EndsLine rest) :
    (lineStarts (ended before ++ line ++ rest))[before.length + 1]? =
      if rest = [] then none else some ((ended before ++ line).size + 1) := by
  rcases hrest with rfl | ⟨later, rfl⟩
  · rw [if_pos rfl, List.append_nil, List.getElem?_eq_none_iff, length_lineStarts,
      count_ended_append hbefore hline]
  · rw [if_neg (List.cons_ne_nil _ _), ← count_ended_append hbefore hline, getElem?_lineStarts]

variable {left right : Text}

theorem lineStart_ended (hleft : '\n' ∉ left) (rest : Text) :
    lineStart (lineStarts (ended before ++ left ++ rest)) (ended before ++ left).size =
      (ended before).size := by
  rw [lineStart, lineAt_size, count_ended_append hbefore hleft, Nat.add_sub_cancel,
    List.append_assoc, List.getD_eq_getElem?_getD, getElem?_lineStarts_ended hbefore,
    Option.getD_some]

variable (hleft : '\n' ∉ left) (hright : '\n' ∉ right) {rest : Text} (hrest : EndsLine rest)
include hleft hright hrest

theorem lineStop_ended :
    lineStop (ended before ++ left ++ (right ++ rest))
        (lineStarts (ended before ++ left ++ (right ++ rest))) (ended before ++ left).size =
      (ended before ++ (left ++ right)).size := by
  have hline : '\n' ∉ left ++ right := by simp [hleft, hright]
  have htext : ended before ++ left ++ (right ++ rest) =
      ended before ++ (left ++ right) ++ rest := by
    simp
  rw [lineStop, lineAt_size, count_ended_append hbefore hleft, Nat.add_sub_cancel, htext,
    getElem?_lineStarts_next hbefore hline hrest]
  rcases hrest with rfl | ⟨later, rfl⟩
  · simp
  · simp

theorem lineText_ended :
    lineText (ended before ++ left ++ (right ++ rest))
      (lineStarts (ended before ++ left ++ (right ++ rest))) (ended before ++ left).size =
        left ++ right := by
  rw [lineText, lineStart_ended hbefore hleft, lineStop_ended hbefore hleft hright hrest]
  exact (isSlice_line before left right rest).takeBytes_dropBytes

theorem getElem?_splitOn_ended :
    ((ended before ++ left ++ (right ++ rest)).splitOn '\n')[before.length]? =
      some (left ++ right) := by
  have hline : '\n' ∉ left ++ right := by simp [hleft, hright]
  obtain ⟨later, hlater⟩ := splitOn_line_append hline hrest
  rw [List.append_assoc, ← List.append_assoc left, splitOn_ended_append hbefore, hlater]
  simp

end Around

/-- What the starts of the lines tell of the place behind `front` in a text. -/
structure ShowsLine (text front : Text) : Prop where
  /-- The starts are parted by the place, so a search that halves the table finds where. -/
  parted : ∀ i start, (lineStarts text)[i]? = some start →
    (start ≤ front.size ↔ i < lineAt (lineStarts text) front.size)
  number : lineAt (lineStarts text) front.size = front.count '\n' + 1
  fits : lineAt (lineStarts text) front.size < UInt32.size
  listed : (lineStarts text)[lineAt (lineStarts text) front.size - 1]? =
    some (lineStart (lineStarts text) front.size)
  around : lineStart (lineStarts text) front.size ≤ front.size ∧
    front.size ≤ lineStop text (lineStarts text) front.size
  slice : IsSlice text (lineStart (lineStarts text) front.size)
    (lineStop text (lineStarts text) front.size) (lineText text (lineStarts text) front.size)
  line : (text.splitOn '\n')[front.count '\n']? =
    some (lineText text (lineStarts text) front.size)

/-- At each place between two characters of a text, and at its ends, the line of the place is
found. -/
theorem showsLine_of_prefix {text front : Text} (hfront : front <+: text)
    (hfew : (lineStarts text).length < UInt32.size) : ShowsLine text front := by
  obtain ⟨back, rfl⟩ := hfront
  obtain ⟨before, left, hbefore, hleft, rfl⟩ := exists_eq_ended_append front
  obtain ⟨right, rest, hright, hrest, rfl⟩ := exists_eq_line_append back
  have hnumber := lineAt_size (ended before ++ left) (right ++ rest)
  have hcount := count_ended_append hbefore hleft
  have hstart := lineStart_ended hbefore hleft (right ++ rest)
  have hstop := lineStop_ended hbefore hleft hright hrest
  have hline := lineText_ended hbefore hleft hright hrest
  refine ⟨fun i start => le_size_iff_lt_lineAt, hnumber, ?_, ?_, ?_, ?_, ?_⟩
  · exact Nat.lt_of_le_of_lt (List.takeWhile_prefix _).length_le hfew
  · rw [hstart, hnumber, hcount, Nat.add_sub_cancel, List.append_assoc,
      getElem?_lineStarts_ended hbefore]
  · rw [hstart, hstop]
    simp only [size_append]
    omega
  · rw [hstart, hstop, hline]
    exact isSlice_line before left right rest
  · rw [hline, hcount]
    exact getElem?_splitOn_ended hbefore hleft hright hrest

/-- The place lies behind a wide character of the last line, which no newline ends. -/
theorem showsLine_last :
    "é = 1\r\n\n😀".toList <+: "é = 1\r\n\n😀 x".toList ∧
      (lineStarts "é = 1\r\n\n😀 x".toList).length < UInt32.size ∧
      ShowsLine "é = 1\r\n\n😀 x".toList "é = 1\r\n\n😀".toList := by
  have hfront : "é = 1\r\n\n😀".toList <+: "é = 1\r\n\n😀 x".toList := by decide
  have hfew : (lineStarts "é = 1\r\n\n😀 x".toList).length < UInt32.size := by decide
  exact ⟨hfront, hfew, showsLine_of_prefix hfront hfew⟩

end CodeAtlas.Text
