import CodeAtlas.Proofs.Text.Lines

/-! Pieces of a text that are joined and read off again. Joined lines lose nothing but the ends of
lines, joined sections are the text that they come from, and whatever pieces are kept, their lines
are lines of the whole. -/

namespace CodeAtlas.Text

/-! ## Sizes -/

theorem foldl_utf8Size (text : Text) (n : Nat) :
    text.foldl (fun n c => n + c.utf8Size) n = n + size text := by
  induction text generalizing n with
  | nil => rfl
  | cons c text ih =>
      rw [size, List.foldl_cons, List.foldl_cons, ih, ih]
      omega

@[simp] theorem size_nil : size [] = 0 := rfl

@[simp] theorem size_cons (c : Char) (text : Text) :
    size (c :: text) = c.utf8Size + size text := by
  rw [size, List.foldl_cons, foldl_utf8Size]
  omega

@[simp] theorem size_append (front back : Text) :
    size (front ++ back) = size front + size back := by
  induction front with
  | nil => simp
  | cons c front ih =>
      simp only [List.cons_append, size_cons, ih]
      omega

theorem size_le_of_sublist {short long : Text} (h : short.Sublist long) :
    short.size ≤ long.size := by
  induction h with
  | slnil => exact Nat.le_refl _
  | cons c _ ih =>
      rw [size_cons]
      omega
  | cons_cons c _ ih =>
      rw [size_cons, size_cons]
      omega

/-- A text from which something is left out is smaller. -/
theorem size_lt_iff_of_sublist {short long : Text} (h : short.Sublist long) :
    short.size < long.size ↔ short ≠ long := by
  constructor
  · rintro hlt rfl
    exact Nat.lt_irrefl _ hlt
  · intro hne
    induction h with
    | slnil => exact absurd rfl hne
    | cons c h _ =>
        have hle := size_le_of_sublist h
        have hpos := c.utf8Size_pos
        rw [size_cons]
        omega
    | cons_cons c _ ih =>
        have hlt := ih fun heq => hne (heq ▸ rfl)
        rw [size_cons, size_cons]
        omega

theorem takeBytes_go_spec (limit : Nat) (text taken : Text) : ∃ front back,
    text = front ++ back ∧ takeBytes.go limit text taken = taken.reverse ++ front ∧
      front.size ≤ limit := by
  induction text generalizing limit taken with
  | nil => exact ⟨[], [], rfl, by simp [takeBytes.go], by simp⟩
  | cons c text ih =>
      by_cases hfits : c.utf8Size ≤ limit
      · obtain ⟨front, back, rfl, hgo, hsize⟩ := ih (limit - c.utf8Size) (c :: taken)
        refine ⟨c :: front, back, rfl, by simp [takeBytes.go, hfits, hgo], ?_⟩
        rw [size_cons]
        omega
      · exact ⟨[], c :: text, rfl, by simp [takeBytes.go, hfits], by simp⟩

/-- What is taken is a beginning of the text that fits. -/
theorem takeBytes_spec (limit : Nat) (text : Text) :
    ∃ back, text = takeBytes limit text ++ back ∧ (takeBytes limit text).size ≤ limit := by
  obtain ⟨front, back, rfl, hgo, hsize⟩ := takeBytes_go_spec limit text []
  have htake : takeBytes limit (front ++ back) = front := hgo
  exact ⟨back, by rw [htake], by rwa [htake]⟩

/-! ## Joined lines -/

/-- A joined text holds nothing but its pieces and what separates them. -/
theorem mem_of_mem_join {separator : Text} {pieces : List Text} {c : Char}
    (h : c ∈ join separator pieces) : c ∈ separator ∨ ∃ piece ∈ pieces, c ∈ piece := by
  rcases List.eq_nil_or_concat' pieces with rfl | ⟨front, last, rfl⟩
  · simp [join] at h
  · rw [join_concat, List.mem_append, List.mem_flatMap] at h
    rcases h with ⟨piece, hpiece, hc⟩ | hc
    · rcases List.mem_append.mp hc with hc | hc
      · exact .inr ⟨piece, List.mem_append_left _ hpiece, hc⟩
      · exact .inl hc
    · exact .inr ⟨last, by simp, hc⟩

theorem join_append {separator : Text} {front back : List Text} (hfront : front ≠ [])
    (hback : back ≠ []) :
    join separator (front ++ back) = join separator front ++ separator ++ join separator back := by
  obtain ⟨back, last, rfl⟩ := (List.eq_nil_or_concat' back).resolve_left hback
  obtain ⟨front, middle, rfl⟩ := (List.eq_nil_or_concat' front).resolve_left hfront
  rw [← List.append_assoc, join_concat, join_concat, join_concat]
  simp

theorem join_append_singleton {separator : Char} {front : List Text} (hfront : front ≠ [])
    (last : Text) :
    join [separator] (front ++ [last]) = join [separator] front ++ separator :: last := by
  rw [join_append hfront (List.cons_ne_nil last [])]
  simp [join]

theorem subset_join {separator : Char} {pieces : List Text} {piece : Text} (h : piece ∈ pieces) :
    piece ⊆ join [separator] pieces := by
  induction pieces with
  | nil => cases h
  | cons first pieces ih =>
      cases pieces with
      | nil =>
          rw [List.mem_singleton.mp h]
          simp [join]
      | cons next pieces =>
          rw [join_cons_cons]
          rcases List.mem_cons.mp h with rfl | h
          · exact List.subset_append_left _ _
          · exact fun c hc => List.mem_append_right _ (List.mem_cons_of_mem _ (ih h hc))

theorem splitOn_join {pieces : List Text} (hne : pieces ≠ [])
    (h : ∀ piece ∈ pieces, '\n' ∉ piece) :
    (join ['\n'] pieces).splitOn '\n' = pieces :=
  List.splitOn_intercalate '\n' h hne

/-- What stands in front of a newline among joined lines is made of the first ones. -/
theorem eq_join_take {pieces : List Text} {front back : Text}
    (h : ∀ piece ∈ pieces, '\n' ∉ piece) (heq : join ['\n'] pieces = front ++ '\n' :: back) :
    front = join ['\n'] (pieces.take (front.splitOn '\n').length) := by
  have hne : pieces ≠ [] := by
    rintro rfl
    simp [join] at heq
  have hsplit := splitOn_join hne h
  rw [heq, List.splitOn_append_cons_self] at hsplit
  rw [← hsplit, List.take_left, join, List.intercalate_splitOn]

/-! ## Sections -/

theorem join_sectionsFrom (text current : Text) (done : List Text) :
    join ['\n', '\n'] (sectionsFrom text current done) =
      join ['\n', '\n'] (done.reverse ++ [current.reverse]) ++ text := by
  fun_induction sectionsFrom text current done with
  | case1 current done => simp
  | case2 rest current done ih =>
      rw [ih, List.reverse_cons, List.reverse_nil, join_concat, join_concat]
      simp
  | case3 c rest current done _ ih =>
      rw [ih, List.reverse_cons, join_concat, join_concat]
      simp

/-- A text is made of its sections. -/
theorem join_sections (text : Text) : join ['\n', '\n'] (sections text) = text := by
  rw [sections, join_sectionsFrom]
  simp [join]

theorem splitOn_join_cons_cons (piece next : Text) (pieces : List Text) :
    (join ['\n', '\n'] (piece :: next :: pieces)).splitOn '\n' =
      piece.splitOn '\n' ++ [] :: (join ['\n', '\n'] (next :: pieces)).splitOn '\n' := by
  have hjoin : join ['\n', '\n'] (piece :: next :: pieces) =
      piece ++ '\n' :: ([] ++ '\n' :: join ['\n', '\n'] (next :: pieces)) := by
    simp [join, List.intercalate_cons_cons]
  rw [hjoin, List.splitOn_append_cons_self, List.splitOn_append_cons_self, List.splitOn_nil,
    List.singleton_append]

/-- Where sections are left out, their lines and the gap behind them are. -/
theorem splitOn_join_sublist {kept pieces : List Text} (h : kept.Sublist pieces)
    (hne : kept ≠ []) :
    ((join ['\n', '\n'] kept).splitOn '\n').Sublist
      ((join ['\n', '\n'] pieces).splitOn '\n') := by
  induction h with
  | slnil => exact absurd rfl hne
  | @cons kept pieces piece h ih =>
      cases pieces with
      | nil => exact absurd (List.sublist_nil.mp h) hne
      | cons next pieces =>
          rw [splitOn_join_cons_cons]
          exact (List.sublist_cons_of_sublist _ (ih hne)).trans (List.sublist_append_right _ _)
  | @cons_cons kept pieces piece h ih =>
      cases pieces with
      | nil => rw [List.sublist_nil.mp h]
      | cons next pieces =>
          rw [splitOn_join_cons_cons]
          cases kept with
          | nil => simp [join]
          | cons first kept =>
              rw [splitOn_join_cons_cons]
              exact (List.Sublist.refl _).append ((ih (List.cons_ne_nil _ _)).cons_cons [])

/-! ## The lines of a text joined again -/

theorem lines_eq_nil_iff (text : Text) : lines text = [] ↔ text = [] := by
  constructor
  · intro h
    obtain ⟨front, last, hfront, hlast, rfl⟩ := exists_eq_ended_append text
    rw [lines_ended_append hfront hlast, List.append_eq_nil_iff, List.map_eq_nil_iff] at h
    obtain ⟨rfl, hnil⟩ := h
    simpa [ended] using hnil
  · rintro rfl
    rfl

theorem dropReturn_eq_iff (line : Text) :
    dropReturn line = line ↔ line.endsWith ['\r'] = false := by
  rcases List.eq_nil_or_concat' line with rfl | ⟨front, c, rfl⟩
  · simp [dropReturn, endsWith]
  · rw [dropReturn_concat, endsWith_concat]
    by_cases hc : c = '\r' <;> simp [hc]

/-- A carriage return in front of a newline is the end of a line. -/
theorem infix_lineEnd_append {line : Text} (h : '\n' ∉ line) (rest : Text) :
    ['\r', '\n'] <:+: line ++ '\n' :: rest ↔
      line.endsWith ['\r'] = true ∨ ['\r', '\n'] <:+: rest := by
  induction line with
  | nil => simp [List.infix_cons_iff, endsWith]
  | cons c line ih =>
      obtain ⟨hne, hrest⟩ := List.ne_and_not_mem_of_not_mem_cons h
      have hend : endsWith (c :: line) ['\r'] = true ↔
          ('\r' = c ∧ line = []) ∨ endsWith line ['\r'] = true := by
        simp [endsWith_iff_suffix, List.suffix_cons_iff, eq_comm (a := ([] : Text))]
      have hfirst : ['\n'] <+: line ++ '\n' :: rest ↔ line = [] := by
        cases line with
        | nil => simp
        | cons d line => simp [(List.ne_and_not_mem_of_not_mem_cons hrest).1]
      rw [List.cons_append, List.infix_cons_iff, ih hrest, hend, List.cons_prefix_cons, hfirst,
        or_assoc]

theorem infix_lineEnd_iff {front : List Text} {last : Text}
    (hfront : ∀ line ∈ front, '\n' ∉ line) (hlast : '\n' ∉ last) :
    ['\r', '\n'] <:+: ended front ++ last ↔ ∃ line ∈ front, line.endsWith ['\r'] = true := by
  induction front with
  | nil =>
      have hno : ¬['\r', '\n'] <:+: last := fun h => hlast (h.subset (by simp))
      simpa [ended] using hno
  | cons line front ih =>
      obtain ⟨hline, hrest⟩ := List.forall_mem_cons.mp hfront
      rw [ended_cons_append, infix_lineEnd_append hline, ih hrest]
      simp

theorem ended_map_dropReturn_sublist (front : List Text) :
    (ended (front.map dropReturn)).Sublist (ended front) := by
  induction front with
  | nil => exact List.Sublist.refl _
  | cons line front ih => exact ((dropReturn_sublist line).append_right ['\n']).append ih

/-- Parts of two texts make up both of them only if they are the texts. -/
theorem append_eq_append_iff_of_sublist {front back front' back' : Text}
    (hfront : front.Sublist front') (hback : back.Sublist back') :
    front ++ back = front' ++ back' ↔ front = front' ∧ back = back' := by
  constructor
  · intro h
    have hlength := congrArg List.length h
    rw [List.length_append, List.length_append] at hlength
    have hle := hfront.length_le
    have hle' := hback.length_le
    exact List.append_inj h (by omega)
  · rintro ⟨rfl, rfl⟩
    rfl

theorem ended_map_dropReturn_eq_iff (front : List Text) :
    ended (front.map dropReturn) = ended front ↔
      ∀ line ∈ front, line.endsWith ['\r'] = false := by
  induction front with
  | nil => simp [ended]
  | cons line front ih =>
      have hline := (dropReturn_sublist line).append_right ['\n']
      rw [List.map_cons, ended_cons, ended_cons,
        append_eq_append_iff_of_sublist hline (ended_map_dropReturn_sublist front), ih,
        List.append_cancel_right_eq, dropReturn_eq_iff, List.forall_mem_cons]

/-- Some line of the text has an end that its lines, joined with newlines, have not. -/
def LosesLineEnd (text : Text) : Prop :=
  text.endsWith ['\n'] = true ∨ ['\r', '\n'] <:+: text

theorem join_lines_of_rest (front : List Text) {last : Text}
    (hfront : ∀ line ∈ front, '\n' ∉ line) (hlast : '\n' ∉ last) (hne : last ≠ []) :
    join ['\n'] (lines (ended front ++ last)) = ended (front.map dropReturn) ++ last := by
  rw [lines_ended_append hfront hlast, if_neg hne, join_concat]
  rfl

theorem join_lines_ended (front : List Text) (last : Text)
    (hlines : ∀ line ∈ front ++ [last], '\n' ∉ line) :
    join ['\n'] (lines (ended (front ++ [last]))) =
      ended (front.map dropReturn) ++ dropReturn last := by
  have h := lines_ended_append hlines (List.not_mem_nil (a := '\n'))
  rw [List.append_nil, if_pos rfl, List.append_nil, List.map_append] at h
  rw [h, List.map_singleton, join_concat]
  rfl

/-- Joining the lines of a text takes nothing but ends of lines from it. -/
theorem join_lines_spec (text : Text) : (join ['\n'] (lines text)).Sublist text ∧
    (join ['\n'] (lines text) ≠ text ↔ LosesLineEnd text) := by
  obtain ⟨front, last, hfront, hlast, rfl⟩ := exists_eq_ended_append text
  rw [LosesLineEnd, endsWith_ended_append hlast, infix_lineEnd_iff hfront hlast]
  by_cases hne : last = []
  · subst hne
    rcases List.eq_nil_or_concat' front with rfl | ⟨front, line, rfl⟩
    · simp [ended, join, lines]
    · have hsublist : (ended (front.map dropReturn) ++ dropReturn line).Sublist
          (ended front ++ line) :=
        (ended_map_dropReturn_sublist front).append (dropReturn_sublist line)
      rw [List.append_nil, join_lines_ended front line hfront, ended_concat]
      refine ⟨hsublist.trans (List.sublist_append_left _ _), iff_of_true (fun heq => ?_) ?_⟩
      · have hlength := hsublist.length_le
        rw [heq] at hlength
        simp only [List.length_append, List.length_singleton] at hlength
        omega
      · exact .inl ⟨by simp, rfl⟩
  · rw [join_lines_of_rest front hfront hlast hne]
    refine ⟨(ended_map_dropReturn_sublist front).append_right last, ?_⟩
    rw [Ne, List.append_cancel_right_eq, ended_map_dropReturn_eq_iff]
    simp [hne]

theorem size_join_lines_lt_iff (text : Text) :
    (join ['\n'] (lines text)).size < text.size ↔ LosesLineEnd text := by
  obtain ⟨hsublist, hne⟩ := join_lines_spec text
  rw [size_lt_iff_of_sublist hsublist, hne]

end CodeAtlas.Text
