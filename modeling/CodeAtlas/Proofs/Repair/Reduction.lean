import CodeAtlas.Proofs.Text.Pieces
import CodeAtlas.Repair.Parts
import CodeAtlas.Repair.Reduction

/-! Repairs that leave something out. Whatever they keep, they keep as whole lines of the text and
in their order. -/

namespace CodeAtlas.Repair

/-! ## Cutting -/

theorem bne_newline_of_not_mem {text : Text} (h : '\n' ∉ text) :
    ∀ c ∈ text.reverse, (c != '\n') = true := by
  intro c hc
  rw [List.mem_reverse] at hc
  exact bne_iff_ne.mpr (ne_of_mem_of_not_mem hc h)

theorem beforeLastNewline_append (front : Text) {rest : Text} (h : '\n' ∉ rest) :
    beforeLastNewline (front ++ '\n' :: rest) = front := by
  rw [beforeLastNewline, List.reverse_append, List.reverse_cons, List.append_assoc,
    List.dropWhile_append_of_pos (bne_newline_of_not_mem h)]
  simp

/-- A text is cut behind one of its lines, or nothing is left of it. -/
theorem beforeLastNewline_cases (text : Text) : beforeLastNewline text = [] ∨
    ∃ rest, text = beforeLastNewline text ++ '\n' :: rest := by
  by_cases hm : '\n' ∈ text
  · obtain ⟨rest, front, hsplit, hrest⟩ := List.eq_append_cons_of_mem (List.mem_reverse.mpr hm)
    have htext : text = front.reverse ++ '\n' :: rest.reverse := by
      rw [← List.reverse_reverse text, hsplit]
      simp
    have hcut : beforeLastNewline text = front.reverse := by
      rw [htext, beforeLastNewline_append _ (mt List.mem_reverse.mp hrest)]
    exact .inr ⟨rest.reverse, by rw [hcut, htext]⟩
  · refine .inl ?_
    rw [beforeLastNewline, List.dropWhile_eq_nil_iff.mpr (bne_newline_of_not_mem hm)]
    rfl

/-- Joined lines that are cut to the size are some of the first lines, joined. -/
theorem cutToSize_join {pieces : List Text} (h : ∀ piece ∈ pieces, '\n' ∉ piece) :
    ∃ count, cutToSize (Text.join ['\n'] pieces) = Text.join ['\n'] (pieces.take count) ∧
      (cutToSize (Text.join ['\n'] pieces)).size ≤ maxReducedBytes := by
  by_cases hlarge : maxReducedBytes < (Text.join ['\n'] pieces).size
  · obtain ⟨back, htext, hsize⟩ := Text.takeBytes_spec maxReducedBytes (Text.join ['\n'] pieces)
    rw [cutToSize, if_pos hlarge]
    generalize Text.takeBytes maxReducedBytes (Text.join ['\n'] pieces) = taken at htext hsize ⊢
    rcases beforeLastNewline_cases taken with hnil | ⟨rest, hrest⟩
    · exact ⟨0, by rw [hnil]; rfl, by rw [hnil]; exact Nat.zero_le _⟩
    · rw [hrest, List.append_assoc, List.cons_append] at htext
      refine ⟨_, Text.eq_join_take h htext, ?_⟩
      rw [hrest, Text.size_append] at hsize
      exact Nat.le_of_add_right_le hsize
  · rw [cutToSize, if_neg hlarge]
    exact ⟨pieces.length, by rw [List.take_length], Nat.le_of_not_lt hlarge⟩

/-! ## Reduction -/

/-- The lines that reduction keeps. -/
def codeLines (text : Text) : List Text :=
  text.lines.filter isCodeLine

theorem not_mem_of_mem_codeLines {text line : Text} (h : line ∈ codeLines text) : '\n' ∉ line :=
  Text.not_mem_of_mem_lines (List.mem_of_mem_filter h)

/-- The content that reduction leaves of a text. -/
def reduced (text : Text) : Text :=
  cutToSize (Text.join ['\n'] (codeLines text))

/-- What is reported of a reduction. -/
def reductionNotes (text : Text) : List String :=
  let dropped := text.lines.length - (codeLines text).length
  (if 0 < dropped then ["dropped " ++ toString dropped ++ " comment or blank lines"] else []) ++
    (if maxReducedBytes < (Text.join ['\n'] (codeLines text)).size then
      ["truncated to " ++ toString (reduced text).size ++ " bytes"] else [])

theorem contentReduction_eq_some_iff (text : Text) (outcome : Outcome) :
    contentReduction text = some outcome ↔
      ((reduced text).size < text.size ∧ (reduced text).allBlank = false) ∧
        outcome = .ofContent .contentReduction (reduced text) (reductionNotes text) := by
  have hunfold : contentReduction text =
      if text.size ≤ (reduced text).size || (reduced text).allBlank then none
      else some (.ofContent .contentReduction (reduced text) (reductionNotes text)) := rfl
  rw [hunfold, Option.ite_none_left_eq_some, Bool.or_eq_true, not_or, decide_eq_true_eq,
    Nat.not_le, Bool.not_eq_true, Option.some.injEq]
  exact and_congr_right fun _ => eq_comm

/-- What a reduction makes of a text: the first lines of its code. -/
structure Reduces (text content : Text) : Prop where
  lines : (content.splitOn '\n').Sublist text.lines
  shorter : content.size < text.size
  fits : content.size ≤ maxReducedBytes
  leading : ∃ count, content = Text.join ['\n'] ((codeLines text).take count)
  whole : (Text.join ['\n'] (codeLines text)).size ≤ maxReducedBytes →
    content = Text.join ['\n'] (codeLines text)

theorem splitOn_join_sublist_lines {text : Text} {kept : List Text}
    (hkept : kept.Sublist text.lines) (hne : kept ≠ []) :
    ((Text.join ['\n'] kept).splitOn '\n').Sublist text.lines := by
  have hnewline : ∀ line ∈ kept, '\n' ∉ line := fun line hm =>
    Text.not_mem_of_mem_lines (hkept.subset hm)
  rwa [Text.splitOn_join hne hnewline]

theorem reduces_reduced {text : Text} (hsize : (reduced text).size < text.size)
    (hblank : (reduced text).allBlank = false) : Reduces text (reduced text) := by
  have hnewline : ∀ line ∈ codeLines text, '\n' ∉ line := fun _ => not_mem_of_mem_codeLines
  obtain ⟨count, htake, hfits⟩ := cutToSize_join hnewline
  rw [← reduced] at htake hfits
  refine ⟨?_, hsize, hfits, ⟨count, htake⟩, fun hwhole => ?_⟩
  · have hsublist : ((codeLines text).take count).Sublist text.lines :=
      (List.take_sublist _ _).trans List.filter_sublist
    rw [htake]
    refine splitOn_join_sublist_lines hsublist fun hnil => ?_
    rw [htake, hnil] at hblank
    cases hblank
  · rw [reduced, cutToSize, if_neg (Nat.not_lt.mpr hwhole)]

/-! ## Chunks -/

theorem chunk_ne_nil {lines : List Text} {number : Nat} (h : chunkLines * number < lines.length) :
    chunk lines number ≠ [] := by
  have hpos : 0 < chunkLines := by decide
  simp only [chunk, ne_eq, List.take_eq_nil_iff, List.drop_eq_nil_iff]
  omega

theorem take_chunks_ne_nil {lines : List Text} {count : Nat}
    (h : chunkLines * count < lines.length) : lines.take (chunkLines * (count + 1)) ≠ [] := by
  have hpos : 0 < chunkLines := by decide
  have hlines : lines ≠ [] := by
    rintro rfl
    exact Nat.not_lt_zero _ h
  simp [hlines, hpos.ne']

/-- Joined chunks are the lines that they hold, joined. -/
theorem join_chunks {lines : List Text} {count : Nat} (h : chunkLines * count < lines.length) :
    Text.join ['\n'] ((List.range (count + 1)).map fun n => Text.join ['\n'] (chunk lines n)) =
      Text.join ['\n'] (lines.take (chunkLines * (count + 1))) := by
  induction count with
  | zero => simp [chunk, Text.join]
  | succ count ih =>
      have hlast : chunkLines * count < lines.length :=
        (Nat.mul_le_mul_left chunkLines (Nat.le_succ count)).trans_lt h
      have hchunk : lines.take (chunkLines * (count + 1 + 1)) =
          lines.take (chunkLines * (count + 1)) ++ chunk lines (count + 1) := by
        rw [chunk, ← List.take_add, ← Nat.mul_succ]
      rw [List.range_succ, List.map_append, List.map_singleton,
        Text.join_append (by simp) (by simp), ih hlast, hchunk,
        Text.join_append (take_chunks_ne_nil hlast) (chunk_ne_nil h)]
      simp [Text.join]

theorem takeWhile_range (p : Nat → Bool) (total : Nat) : ∃ count ≤ total,
    (List.range total).takeWhile p = List.range count ∧
      ((∀ n, p n = true) → count = total) := by
  have hprefix := List.takeWhile_prefix p (l := List.range total)
  have hle : ((List.range total).takeWhile p).length ≤ total := by
    simpa using hprefix.length_le
  refine ⟨_, hle, ?_, fun hall => ?_⟩
  · conv => lhs; rw [List.prefix_iff_eq_take.mp hprefix, List.take_range, Nat.min_eq_left hle]
  · rw [List.takeWhile_eq_self_iff.mpr fun n _ => hall n, List.length_range]

/-- What is kept of a text in chunks: all lines of the first chunks. -/
theorem exists_of_chunking {text : Text} {budget : Budget} {outcome : Outcome}
    (h : chunking text budget = some outcome) : ∃ count,
      outcome.output = .content (Text.join ['\n'] (text.lines.take (chunkLines * (count + 1)))) ∧
        chunkLines * count < text.lines.length ∧
        ((∀ look, budget.expired look = false) →
          count + 1 = min ((text.lines.length + chunkLines - 1) / chunkLines) maxChunks) := by
  obtain ⟨count, hle, hnumbers, hall⟩ := takeWhile_range (fun look => !budget.expired look)
    (min ((text.lines.length + chunkLines - 1) / chunkLines) maxChunks)
  simp only [chunking, hnumbers, Option.ite_none_left_eq_some, Option.some.injEq] at h
  obtain ⟨-, hsome, rfl⟩ := h
  cases count with
  | zero => exact absurd rfl hsome
  | succ count =>
      have hlast : chunkLines * count < text.lines.length := by
        simp only [chunkLines] at hle ⊢
        omega
      exact ⟨count, by rw [Outcome.ofContent, join_chunks hlast], hlast, fun hnever =>
        hall fun look => by rw [hnever look, Bool.not_false]⟩

/-! ## Sound parts -/

theorem inTime_isPrefix (budget : Budget) (parts : List Text) : inTime budget parts <+: parts := by
  have h := (List.takeWhile_prefix (fun part => !budget.expired part.2) (l := parts.zipIdx)).map
    Prod.fst
  rwa [List.zipIdx_map_fst] at h

theorem kept_sublist (sound : Text → Bool) (budget : Budget) (parts : List Text) :
    (divide sound (inTime budget parts)).1.Sublist parts := by
  rw [divide, List.partition_eq_filter_filter]
  exact List.filter_sublist.trans (List.filter_sublist.trans (inTime_isPrefix budget parts).sublist)

theorem exists_of_partialLines {text : Text} {budget : Budget} {outcome : Outcome}
    (h : partialLines text budget = some outcome) : ∃ kept, kept ≠ [] ∧
      kept.Sublist text.lines ∧ outcome.output = .content (Text.join ['\n'] kept) := by
  simp only [partialLines, Option.ite_none_left_eq_some, Option.some.injEq, List.isEmpty_iff] at h
  obtain ⟨hne, rfl⟩ := h
  exact ⟨_, hne, kept_sublist isSoundLine budget text.lines, rfl⟩

theorem exists_of_partialSections {text : Text} {budget : Budget} {outcome : Outcome}
    (h : partialSections text budget = some outcome) : ∃ kept, kept ≠ [] ∧
      kept.Sublist text.sections ∧ outcome.output = .content (Text.join ['\n', '\n'] kept) := by
  simp only [partialSections, Option.ite_none_left_eq_some, Option.some.injEq,
    List.isEmpty_iff] at h
  obtain ⟨hne, rfl⟩ := h
  exact ⟨_, hne, kept_sublist isSound budget text.sections, rfl⟩

/-! ## What is kept -/

/-- Repairs that leave something out keep whole lines, in their order. What is reduced is smaller
than the text, fits into the allowed size and ends with a line; what is kept in chunks, as long as
there is time, are the leading lines. -/
theorem reductions_keep_lines (text : Text) (budget : Budget) :
    (∀ outcome, contentReduction text = some outcome →
        ∃ content, outcome.output = .content content ∧ Reduces text content) ∧
      (∀ outcome, chunking text budget = some outcome →
        ∃ content, outcome.output = .content content ∧ (content.splitOn '\n').Sublist text.lines ∧
          ((∀ look, budget.expired look = false) →
            content = Text.join ['\n'] (text.lines.take (chunkLines * maxChunks)))) ∧
      (∀ outcome, partialLines text budget = some outcome →
        ∃ content, outcome.output = .content content ∧ (content.splitOn '\n').Sublist text.lines) ∧
      ∀ outcome, partialSections text budget = some outcome →
        ∃ content, outcome.output = .content content ∧
          (content.splitOn '\n').Sublist (text.splitOn '\n') := by
  refine ⟨fun outcome h => ?_, fun outcome h => ?_, fun outcome h => ?_, fun outcome h => ?_⟩
  · obtain ⟨⟨hsize, hblank⟩, rfl⟩ := (contentReduction_eq_some_iff text outcome).mp h
    exact ⟨_, rfl, reduces_reduced hsize hblank⟩
  · obtain ⟨count, houtput, hlast, hall⟩ := exists_of_chunking h
    refine ⟨_, houtput, splitOn_join_sublist_lines (List.take_sublist _ _)
      (take_chunks_ne_nil hlast), fun hnever => ?_⟩
    -- as many chunks as there are, but no more than may be kept
    have hcount := hall hnever
    have htake : text.lines.take (chunkLines * (count + 1)) =
        text.lines.take (chunkLines * maxChunks) := by
      rw [List.take_eq_take_iff]
      simp only [chunkLines, maxChunks] at hcount ⊢
      omega
    rw [htake]
  · obtain ⟨kept, hne, hsublist, houtput⟩ := exists_of_partialLines h
    exact ⟨_, houtput, splitOn_join_sublist_lines hsublist hne⟩
  · obtain ⟨kept, hne, hsublist, houtput⟩ := exists_of_partialSections h
    refine ⟨_, houtput, ?_⟩
    have hsections := Text.splitOn_join_sublist hsublist hne
    rwa [Text.join_sections] at hsections

/-- A text of many lines with a comment, a gap and a stray closer at its start. -/
def longText : Text := "# a\n\n)\n".toList ++ (List.replicate 201 "x\n".toList).flatten

theorem longText_kept :
    (∃ outcome, contentReduction longText = some outcome ∧
        ∃ content, outcome.output = .content content ∧ Reduces longText content) ∧
      (∃ outcome, chunking longText .unlimited = some outcome ∧
        outcome.output =
          .content (Text.join ['\n'] (longText.lines.take (chunkLines * maxChunks)))) ∧
      (∃ outcome, partialLines longText .unlimited = some outcome ∧
        ∃ content, outcome.output = .content content ∧
          (content.splitOn '\n').Sublist longText.lines) ∧
      ∃ outcome, partialSections longText .unlimited = some outcome ∧
        ∃ content, outcome.output = .content content ∧
          (content.splitOn '\n').Sublist (longText.splitOn '\n') := by
  have hreduction : (contentReduction longText).isSome = true := by decide +kernel
  have hchunks : (chunking longText .unlimited).isSome = true := by decide +kernel
  have hlines : (partialLines longText .unlimited).isSome = true := by decide +kernel
  have hsections : (partialSections longText .unlimited).isSome = true := by decide +kernel
  obtain ⟨reduction, hreduction⟩ := Option.isSome_iff_exists.mp hreduction
  obtain ⟨chunks, hchunks⟩ := Option.isSome_iff_exists.mp hchunks
  obtain ⟨lines, hlines⟩ := Option.isSome_iff_exists.mp hlines
  obtain ⟨sections, hsections⟩ := Option.isSome_iff_exists.mp hsections
  have hkeep := reductions_keep_lines longText .unlimited
  obtain ⟨content, houtput, -, hleading⟩ := hkeep.2.1 chunks hchunks
  rw [hleading fun _ => rfl] at houtput
  exact ⟨⟨reduction, hreduction, hkeep.1 reduction hreduction⟩,
    ⟨chunks, hchunks, houtput⟩,
    ⟨lines, hlines, hkeep.2.2.1 lines hlines⟩,
    ⟨sections, hsections, hkeep.2.2.2 sections hsections⟩⟩

end CodeAtlas.Repair
