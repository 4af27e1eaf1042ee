import CodeAtlas.Proofs.Text.Lines
import CodeAtlas.Repair.Quotes

/-! Quote repair. A quote that is put behind an unclosed string closes it, unless a backslash escapes
the quote; all other characters stay, up to blanks. -/

namespace CodeAtlas.Repair

/-! ## Reading a line -/

/-- An odd number of backslashes stands at the end, so that what follows is escaped. -/
def endsEscaped (text : Text) : Bool :=
  (text.reverse.takeWhile (· == '\\')).length % 2 == 1

theorem endsEscaped_concat (text : Text) (c : Char) :
    endsEscaped (text ++ [c]) = (!endsEscaped text && c == '\\') := by
  unfold endsEscaped
  rw [List.reverse_append, List.reverse_singleton, List.singleton_append, List.takeWhile_cons]
  cases hc : c == '\\' with
  | false => simp
  | true =>
      rw [if_pos rfl, List.length_cons, Bool.and_true, Bool.eq_iff_iff, Bool.not_eq_true']
      simp only [beq_iff_eq, beq_eq_false_iff_ne]
      omega

theorem exists_concat_backslash {text : Text} (h : endsEscaped text = true) :
    ∃ front, text = front ++ ['\\'] := by
  rcases List.eq_nil_or_concat' text with rfl | ⟨front, c, rfl⟩
  · cases h
  · rw [endsEscaped_concat, Bool.and_eq_true, beq_iff_eq] at h
    exact ⟨front, by rw [h.2]⟩

theorem ne_backslash {quote : Char} (h : quote ∈ quotes) : quote ≠ '\\' :=
  ne_of_mem_of_not_mem h (by decide)

namespace QuoteScan

/-- In front of a line. -/
def start : QuoteScan := ⟨none, false, 0⟩

/-- Reads the characters of a text. -/
def run (scan : QuoteScan) (text : Text) : QuoteScan :=
  text.foldl step scan

theorem run_append (scan : QuoteScan) (front back : Text) :
    scan.run (front ++ back) = (scan.run front).run back :=
  List.foldl_append

theorem run_cons (scan : QuoteScan) (c : Char) (text : Text) :
    scan.run (c :: text) = (scan.step c).run text :=
  rfl

theorem run_concat (scan : QuoteScan) (text : Text) (c : Char) :
    scan.run (text ++ [c]) = (scan.run text).step c :=
  run_append scan text [c]

/-- What a quote that is not escaped does: it opens a string, or closes one of its own kind. -/
def turned (scan : QuoteScan) (c : Char) : Option (Char × Nat) :=
  match scan.opened with
  | none => some (c, scan.index)
  | some (quote, index) => if quote = c then none else some (quote, index)

theorem step_eq (scan : QuoteScan) (c : Char) :
    scan.step c = ⟨if !scan.escaped && quotes.contains c then scan.turned c else scan.opened,
      !scan.escaped && c == '\\', scan.index + 1⟩ := by
  obtain ⟨opened, escaped, index⟩ := scan
  cases escaped with
  | true => rfl
  | false =>
      by_cases hc : c = '\\'
      · subst hc
        rfl
      · cases hquote : quotes.contains c with
        | false => simp [step, hc, -List.contains_eq_mem, hquote]
        | true =>
            cases opened with
            | none => simp [step, turned, hc, -List.contains_eq_mem, hquote]
            | some opening =>
                by_cases hsame : opening.1 = c <;>
                  simp [step, turned, hc, -List.contains_eq_mem, hquote, hsame]

theorem index_run (scan : QuoteScan) (text : Text) :
    (scan.run text).index = scan.index + text.length := by
  induction text using List.reverseRecOn with
  | nil => rfl
  | append_singleton text c ih => simp [run_concat, step_eq, ih, Nat.add_assoc]

/-- The backslashes at the end of a text decide whether what follows is escaped. -/
theorem escaped_run {scan : QuoteScan} (h : scan.escaped = false) (text : Text) :
    (scan.run text).escaped = endsEscaped text := by
  induction text using List.reverseRecOn with
  | nil => exact h
  | append_singleton text c ih => rw [run_concat, step_eq, ih, endsEscaped_concat]

/-- Only quotes open and close strings. -/
theorem opened_run_of_not_quote {text : Text} (h : ∀ c ∈ text, c ∉ quotes) (scan : QuoteScan) :
    (scan.run text).opened = scan.opened := by
  induction text using List.reverseRecOn with
  | nil => rfl
  | append_singleton text c ih =>
      have hc : c ∉ quotes := h c (by simp)
      rw [run_concat, step_eq, ih fun d hd => h d (List.mem_append_left _ hd)]
      simp [hc]

/-- A string is open behind a character because it was open before, or because the character opens
it. -/
theorem opened_step {scan : QuoteScan} {c quote : Char} {index : Nat}
    (h : (scan.step c).opened = some (quote, index)) :
    scan.opened = some (quote, index) ∨
      c = quote ∧ quote ∈ quotes ∧ scan.index = index ∧
        scan.opened = none ∧ scan.escaped = false := by
  rw [step_eq] at h
  simp only at h
  split at h
  · rename_i hquote
    simp only [Bool.and_eq_true, Bool.not_eq_true', List.contains_iff_mem] at hquote
    unfold turned at h
    split at h
    · rename_i hopened
      obtain ⟨rfl, rfl⟩ := Prod.mk.inj (Option.some.inj h)
      exact .inr ⟨rfl, hquote.2, rfl, hopened, hquote.1⟩
    · rename_i opened hopened
      split at h
      · cases h
      · exact .inl (by rw [hopened, h])
  · exact .inl h

end QuoteScan

/-- A string that is open at the end of a line: the line in front of it, and its text. -/
structure Unclosed (line : Text) (quote : Char) (index : Nat) (front body : Text) : Prop where
  line_eq : line = front ++ quote :: body
  length_eq : front.length = index
  mem_quotes : quote ∈ quotes
  opened_front : (QuoteScan.start.run front).opened = none
  escaped_front : (QuoteScan.start.run front).escaped = false
  stays_open : ∀ inner, inner <+: body →
    (QuoteScan.start.run (front ++ quote :: inner)).opened = some (quote, index)

namespace Unclosed

variable {line front body : Text} {quote : Char} {index : Nat}

theorem take_eq (h : Unclosed line quote index front body) :
    line.take (index + 1) = front ++ [quote] := by
  have hline : line = front ++ [quote] ++ body := by simp [h.line_eq]
  have hlength : (front ++ [quote]).length = index + 1 := by simp [h.length_eq]
  rw [hline, ← hlength, List.take_left]

/-- The text of the string starts with nothing escaped. -/
theorem escaped_eq (h : Unclosed line quote index front body) :
    (QuoteScan.start.run (front ++ [quote])).escaped = false := by
  simp [QuoteScan.run_concat, QuoteScan.step_eq, ne_backslash h.mem_quotes]

end Unclosed

theorem exists_unclosed {line : Text} {quote : Char} {index : Nat}
    (h : openQuote? line = some (quote, index)) :
    ∃ front body, Unclosed line quote index front body := by
  change (QuoteScan.start.run line).opened = _ at h
  induction line using List.reverseRecOn with
  | nil => cases h
  | append_singleton line c ih =>
      have hopen := h
      rw [QuoteScan.run_concat] at h
      rcases QuoteScan.opened_step h with hbefore | ⟨rfl, hquote, hindex, hnone, hescaped⟩
      · obtain ⟨front, body, hunclosed⟩ := ih hbefore
        refine ⟨front, body ++ [c], by simp [hunclosed.line_eq], hunclosed.length_eq,
          hunclosed.mem_quotes, hunclosed.opened_front, hunclosed.escaped_front,
          fun inner hinner => ?_⟩
        rcases List.prefix_concat_iff.mp hinner with rfl | hinner
        · rw [← List.cons_append, ← List.append_assoc, ← hunclosed.line_eq]
          exact hopen
        · exact hunclosed.stays_open inner hinner
      · rw [QuoteScan.index_run, QuoteScan.start, Nat.zero_add] at hindex
        refine ⟨line, [], rfl, hindex, hquote, hnone, hescaped, fun inner hinner => ?_⟩
        rw [List.prefix_nil.mp hinner]
        exact hopen

/-! ## Closing a string -/

/-- The text of the string that the quote at `index` opens, without blanks and closers at its
end. -/
def stringText (index : Nat) (line : Text) : Text :=
  Text.dropTail trailingClosers.contains (Text.trimEnd (line.drop (index + 1)))

/-- What a closed line is made of: the quote stands between the string and the closers behind it. -/
theorem exists_closeQuote_eq (quote : Char) (index : Nat) (line : Text) : ∃ closers blanks,
    closeQuote quote index line =
      line.take (index + 1) ++ stringText index line ++ quote :: closers ∧
    line = line.take (index + 1) ++ stringText index line ++ (closers ++ blanks) ∧
    (∀ c ∈ closers, c ∈ trailingClosers) ∧ ∀ c ∈ blanks, Text.isBlank c = true := by
  obtain ⟨blanks, hbody, hblank⟩ :=
    Text.exists_eq_dropTail_append Text.isBlank (line.drop (index + 1))
  obtain ⟨closers, htrimmed, hcloser⟩ :=
    Text.exists_eq_dropTail_append trailingClosers.contains (Text.trimEnd (line.drop (index + 1)))
  rw [← Text.trimEnd] at hbody
  rw [← stringText] at htrimmed
  have hdrop : (Text.trimEnd (line.drop (index + 1))).drop (stringText index line).length =
      closers := by
    rw [htrimmed, List.drop_left]
  refine ⟨closers, blanks, ?_, ?_, fun c hc => by simpa using hcloser c hc, hblank⟩
  · rw [← hdrop]
    rfl
  · rw [List.append_assoc, ← List.append_assoc _ closers, ← htrimmed, ← hbody,
      List.take_append_drop]

theorem count_closeQuote {c : Char} (hc : Text.isBlank c = false) (quote : Char) (index : Nat)
    (line : Text) : (closeQuote quote index line).count c =
      line.count c + (quote == c).toNat := by
  obtain ⟨closers, blanks, hclosed, hline, -, hblanks⟩ := exists_closeQuote_eq quote index line
  have hnone : blanks.count c = 0 := by
    refine List.count_eq_zero_of_not_mem fun hm => ?_
    rw [hblanks c hm] at hc
    cases hc
  have hcount : line.count c = (line.take (index + 1) ++ stringText index line).count c +
      (closers.count c + blanks.count c) := by
    rw [← List.count_append, ← List.count_append, ← hline]
  rw [hclosed, hcount, hnone, List.count_append, List.count_cons]
  cases quote == c <;> simp [Nat.add_assoc]

theorem mem_closeQuote {c quote : Char} {index : Nat} {line : Text}
    (h : c ∈ closeQuote quote index line) : c ∈ line ∨ c = quote := by
  obtain ⟨closers, blanks, hclosed, hline, -, -⟩ := exists_closeQuote_eq quote index line
  rw [hclosed] at h
  rw [hline]
  simp only [List.mem_append, List.mem_cons] at h ⊢
  tauto

theorem closeQuote_ne_nil (quote : Char) (index : Nat) (line : Text) :
    closeQuote quote index line ≠ [] := by
  simp [closeQuote]

theorem not_quote_of_closer {c : Char} (h : c ∈ trailingClosers) : c ∉ quotes := by
  have hall : trailingClosers.all (fun c => !quotes.contains c) = true := by decide
  simpa using List.all_eq_true.mp hall c h

/-- A string is closed by the quote behind it, unless the quote is escaped. -/
theorem openQuote?_closeQuote {line : Text} {quote : Char} {index : Nat}
    (h : openQuote? line = some (quote, index)) :
    openQuote? (closeQuote quote index line) =
      if endsEscaped (stringText index line) then some (quote, index) else none := by
  obtain ⟨front, body, hunclosed⟩ := exists_unclosed h
  obtain ⟨closers, blanks, hclosed, hline, hclosers, -⟩ := exists_closeQuote_eq quote index line
  have hprefix : stringText index line <+: body := by
    rw [hunclosed.take_eq, List.append_assoc] at hline
    refine ⟨closers ++ blanks, List.append_cancel_left (hline.symm.trans ?_)⟩
    rw [hunclosed.line_eq, List.append_assoc, List.singleton_append]
  have hopened : (QuoteScan.start.run (front ++ [quote] ++ stringText index line)).opened =
      some (quote, index) := by
    rw [List.append_assoc]
    exact hunclosed.stays_open _ hprefix
  have hescaped : (QuoteScan.start.run (front ++ [quote] ++ stringText index line)).escaped =
      endsEscaped (stringText index line) := by
    rw [QuoteScan.run_append]
    exact QuoteScan.escaped_run hunclosed.escaped_eq _
  have hquote : quotes.contains quote = true := by simpa using hunclosed.mem_quotes
  change (QuoteScan.start.run (closeQuote quote index line)).opened = _
  rw [hclosed, hunclosed.take_eq, QuoteScan.run_append, QuoteScan.run_cons,
    QuoteScan.opened_run_of_not_quote fun c hc => not_quote_of_closer (hclosers c hc),
    QuoteScan.step_eq, hescaped, hquote, QuoteScan.turned, hopened]
  cases endsEscaped (stringText index line) <;> simp

/-! ## Lines that end inside a string -/

theorem isTripleQuoted_iff {line : Text} :
    isTripleQuoted line = true ↔ ∃ quote ∈ quotes, [quote, quote, quote] <:+: line := by
  simp [isTripleQuoted, quotes, Text.contains_iff_infix]

/-- An escaped quote stands in no row of three. -/
theorem isTripleQuoted_closeQuote {line : Text} {quote : Char} {index : Nat}
    (hescaped : endsEscaped (stringText index line) = true)
    (h : isTripleQuoted line = false) : isTripleQuoted (closeQuote quote index line) = false := by
  obtain ⟨closers, blanks, hclosed, hline, hclosers, -⟩ := exists_closeQuote_eq quote index line
  rw [Bool.eq_false_iff] at h ⊢
  refine fun htriple => h ?_
  obtain ⟨other, hother, hinfix⟩ := isTripleQuoted_iff.mp htriple
  obtain ⟨string, hstring⟩ := exists_concat_backslash hescaped
  -- The row stands in front of the backslash or behind it, where there is but one quote.
  have hbackslash : '\\' ∉ [other, other, other] := by
    simpa using (ne_backslash hother).symm
  rw [hclosed, hstring, ← List.append_assoc, List.append_assoc _ ['\\'],
    List.singleton_append] at hinfix
  rcases Text.infix_or_infix_of_append_cons hbackslash hinfix with hfront | hback
  · rw [hstring] at hline
    have hprefix : line.take (index + 1) ++ string <+: line :=
      ⟨'\\' :: (closers ++ blanks), Eq.trans (by simp) hline.symm⟩
    exact isTripleQuoted_iff.mpr ⟨other, hother, hfront.trans hprefix.isInfix⟩
  · have hcount := hback.sublist.count_le other
    have hnone : closers.count other = 0 :=
      List.count_eq_zero_of_not_mem fun hm => not_quote_of_closer (hclosers other hm) hother
    simp only [List.count_cons_self, List.count_nil, List.count_cons, hnone] at hcount
    split at hcount <;> omega

/-- The line ends inside a string that `quote` opens, and holds no three quotes in a row. -/
def leavesOpen (quote : Char) (line : Text) : Bool :=
  !isTripleQuoted line && (openQuote? line).any fun found => found.1 == quote

theorem leavesOpen_eq {line : Text} {quote : Char} {index : Nat}
    (htriple : isTripleQuoted line = false) (h : openQuote? line = some (quote, index))
    (other : Char) : leavesOpen other line = (quote == other) := by
  simp [leavesOpen, htriple, h]

theorem leavesOpen_closeQuote {line : Text} {quote : Char} {index : Nat}
    (htriple : isTripleQuoted line = false) (h : openQuote? line = some (quote, index))
    (other : Char) : leavesOpen other (closeQuote quote index line) =
      (quote == other && endsEscaped (stringText index line)) := by
  have hclosed := openQuote?_closeQuote h
  cases hescaped : endsEscaped (stringText index line) with
  | false =>
      rw [hescaped] at hclosed
      simp [leavesOpen, hclosed]
  | true =>
      rw [hescaped] at hclosed
      rw [Bool.and_true]
      exact leavesOpen_eq (isTripleQuoted_closeQuote hescaped htriple) hclosed other

theorem leavesOpen_concat_return (quote : Char) (line : Text) :
    leavesOpen quote (line ++ ['\r']) = leavesOpen quote line := by
  have hopen : openQuote? (line ++ ['\r']) = openQuote? line := by
    change (QuoteScan.start.run _).opened = (QuoteScan.start.run _).opened
    rw [QuoteScan.run_append]
    exact QuoteScan.opened_run_of_not_quote (by simp [quotes]) _
  have htriple : isTripleQuoted (line ++ ['\r']) = isTripleQuoted line := by
    rw [Bool.eq_iff_iff, isTripleQuoted_iff, isTripleQuoted_iff]
    refine exists_congr fun quote => and_congr_right fun hquote => ⟨fun h => ?_, fun h => ?_⟩
    · have hreturn : '\r' ∉ [quote, quote, quote] := by
        have hne : quote ≠ '\r' := ne_of_mem_of_not_mem hquote (by decide)
        simpa using hne.symm
      rcases Text.infix_or_infix_of_append_cons hreturn h with h | h
      · exact h
      · cases List.infix_nil.mp h
    · exact h.trans (List.prefix_append line _).isInfix
  rw [leavesOpen, leavesOpen, hopen, htriple]

theorem mem_openLines_iff {quote : Char} {lines : List Text} {number index : Nat} :
    (number, index) ∈ openLines quote lines ↔ ∃ line, lines[number]? = some line ∧
      isTripleQuoted line = false ∧ openQuote? line = some (quote, index) := by
  simp only [openLines, List.mem_filterMap, Prod.exists, List.mem_zipIdx_iff_getElem?]
  constructor
  · rintro ⟨line, place, hline, hfound⟩
    split at hfound
    · cases hfound
    · rename_i htriple
      split at hfound
      · rename_i found at_ hopen
        split at hfound
        · rename_i hquote
          obtain ⟨rfl, rfl⟩ := Prod.mk.inj (Option.some.inj hfound)
          exact ⟨line, hline, by simpa using htriple, by rw [hopen, hquote]⟩
        · cases hfound
      · cases hfound
  · rintro ⟨line, hline, htriple, hopen⟩
    exact ⟨line, number, hline, by simp [htriple, hopen]⟩

theorem length_openLines (quote : Char) (lines : List Text) :
    (openLines quote lines).length = lines.countP (leavesOpen quote) := by
  have hfirst : lines.countP (leavesOpen quote) =
      lines.zipIdx.countP (leavesOpen quote ∘ Prod.fst) := by
    rw [← List.countP_map, List.zipIdx_map_fst]
  rw [hfirst, openLines, List.length_filterMap_eq_countP]
  refine List.countP_congr fun ⟨line, number⟩ _ => ?_
  simp only [Function.comp_apply, leavesOpen]
  cases isTripleQuoted line with
  | true => simp
  | false =>
      cases openQuote? line with
      | none => simp
      | some found => by_cases hquote : found.1 = quote <;> simp [hquote]

theorem mem_unmatchedQuotes_iff {lines : List Text} {quote : Char} {place : Nat × Nat} :
    (quote, place) ∈ unmatchedQuotes lines ↔ quote ∈ quotes ∧
      (openLines quote lines).length % 2 = 1 ∧ (openLines quote lines).getLast? = some place := by
  simp only [unmatchedQuotes, List.mem_filterMap, Option.ite_none_right_eq_some,
    Option.map_eq_some_iff, Prod.mk.injEq]
  constructor
  · rintro ⟨other, hquote, hodd, other_place, hlast, rfl, rfl⟩
    exact ⟨hquote, hodd, hlast⟩
  · rintro ⟨hquote, hodd, hlast⟩
    exact ⟨quote, hquote, hodd, place, hlast, rfl, rfl⟩

/-- The quotes with a line to repair are those that leave an odd number of lines open. -/
theorem map_fst_unmatchedQuotes (lines : List Text) : (unmatchedQuotes lines).map (·.1) =
    quotes.filter fun quote => (openLines quote lines).length % 2 = 1 := by
  rw [unmatchedQuotes, List.map_filterMap, ← List.filterMap_eq_filter]
  refine List.filterMap_congr fun quote _ => ?_
  by_cases hodd : (openLines quote lines).length % 2 = 1
  · have hne : openLines quote lines ≠ [] := by
      intro hnil
      rw [hnil] at hodd
      cases hodd
    simp [hodd, Option.guard, List.getLast?_eq_some_getLast hne]
  · simp [hodd, Option.guard]

theorem unmatchedQuotes_eq_nil_iff (lines : List Text) : unmatchedQuotes lines = [] ↔
    ∀ quote ∈ quotes, (openLines quote lines).length % 2 ≠ 1 := by
  rw [← List.map_eq_nil_iff (f := Prod.fst), map_fst_unmatchedQuotes, List.filter_eq_nil_iff]
  simp only [decide_eq_true_eq]

/-- The line that a target names. -/
def lineOf (lines : List Text) (target : Char × Nat × Nat) : Text :=
  lines[target.2.1]?.getD []

theorem lineOf_of_mem_unmatchedQuotes {lines : List Text} {target : Char × Nat × Nat}
    (h : target ∈ unmatchedQuotes lines) :
    target.1 ∈ quotes ∧ lines[target.2.1]? = some (lineOf lines target) ∧
      isTripleQuoted (lineOf lines target) = false ∧
      openQuote? (lineOf lines target) = some (target.1, target.2.2) := by
  obtain ⟨quote, number, index⟩ := target
  obtain ⟨hquote, -, hlast⟩ := mem_unmatchedQuotes_iff.mp h
  obtain ⟨line, hline, htriple, hopen⟩ := mem_openLines_iff.mp (List.mem_of_getLast? hlast)
  have hname : lineOf lines (quote, number, index) = line := by simp [lineOf, hline]
  rw [hname]
  exact ⟨hquote, hline, htriple, hopen⟩

theorem nodup_map_fst_unmatchedQuotes (lines : List Text) :
    ((unmatchedQuotes lines).map (·.1)).Nodup := by
  have hquotes : quotes.Nodup := by decide
  rw [map_fst_unmatchedQuotes]
  exact hquotes.filter _

/-- Different targets are on different lines: a line is left open by one quote. -/
theorem nodup_numbers_unmatchedQuotes (lines : List Text) :
    ((unmatchedQuotes lines).map (·.2.1)).Nodup := by
  refine List.pairwise_map.mpr ?_
  refine (List.pairwise_map.mp (nodup_map_fst_unmatchedQuotes lines)).imp_of_mem ?_
  intro target other htarget hother hne hnumber
  obtain ⟨-, -, -, hopen⟩ := lineOf_of_mem_unmatchedQuotes htarget
  obtain ⟨-, -, -, hopen'⟩ := lineOf_of_mem_unmatchedQuotes hother
  have hline : lineOf lines target = lineOf lines other := by
    rw [lineOf, lineOf, hnumber]
  rw [hline, hopen'] at hopen
  exact hne (congrArg Prod.fst (Option.some.inj hopen)).symm

/-! ## Editing lines -/

/-- The lines, each changed where a target asks for it. -/
def editLines (edit : Char → Nat → Text → Text) (targets : List (Char × Nat × Nat))
    (lines : List Text) : List Text :=
  targets.foldl (fun lines target => lines.modify target.2.1 (edit target.1 target.2.2)) lines

section EditLines

variable (edit : Char → Nat → Text → Text)

theorem editLines_cons (target : Char × Nat × Nat) (targets : List (Char × Nat × Nat))
    (lines : List Text) : editLines edit (target :: targets) lines =
      editLines edit targets (lines.modify target.2.1 (edit target.1 target.2.2)) :=
  rfl

theorem length_editLines (targets : List (Char × Nat × Nat)) (lines : List Text) :
    (editLines edit targets lines).length = lines.length := by
  induction targets generalizing lines with
  | nil => rfl
  | cons target targets ih => rw [editLines_cons, ih, List.length_modify]

/-- What edits keep of a line holds of the line in its place. -/
theorem of_getElem?_editLines {p : Text → Prop} {targets : List (Char × Nat × Nat)}
    (hedit : ∀ target ∈ targets, ∀ line, p line → p (edit target.1 target.2.2 line))
    {lines : List Text} {number : Nat} (h : ∀ line, lines[number]? = some line → p line) :
    ∀ line, (editLines edit targets lines)[number]? = some line → p line := by
  induction targets generalizing lines with
  | nil => exact h
  | cons target targets ih =>
      obtain ⟨htarget, hrest⟩ := List.forall_mem_cons.mp hedit
      refine ih hrest fun line hline => ?_
      rw [List.getElem?_modify, Option.map_eq_map, Option.map_eq_some_iff] at hline
      obtain ⟨before, hbefore, rfl⟩ := hline
      split
      · exact htarget before (h before hbefore)
      · exact h before hbefore

theorem getElem?_editLines_of_not_mem {targets : List (Char × Nat × Nat)} {number : Nat}
    (h : ∀ target ∈ targets, target.2.1 ≠ number) (lines : List Text) :
    (editLines edit targets lines)[number]? = lines[number]? := by
  induction targets generalizing lines with
  | nil => rfl
  | cons target targets ih =>
      obtain ⟨htarget, hrest⟩ := List.forall_mem_cons.mp h
      rw [editLines_cons, ih hrest, List.getElem?_modify_ne _ _ htarget]

/-- Of edits on different lines, each finds its line as it was. -/
theorem getElem?_editLines_of_mem {targets : List (Char × Nat × Nat)}
    (hnumbers : (targets.map (·.2.1)).Nodup) {target : Char × Nat × Nat} (h : target ∈ targets)
    (lines : List Text) : (editLines edit targets lines)[target.2.1]? =
      lines[target.2.1]?.map (edit target.1 target.2.2) := by
  induction targets generalizing lines with
  | nil => cases h
  | cons first targets ih =>
      obtain ⟨hnew, hnodup⟩ := List.nodup_cons.mp hnumbers
      rw [editLines_cons]
      rcases List.mem_cons.mp h with rfl | hm
      · have hother : ∀ other ∈ targets, other.2.1 ≠ target.2.1 :=
          fun other hm hsame => hnew (List.mem_map.mpr ⟨other, hm, hsame⟩)
        rw [getElem?_editLines_of_not_mem edit hother, List.getElem?_modify_eq]
        rfl
      · have hother : first.2.1 ≠ target.2.1 :=
          fun hsame => hnew (List.mem_map.mpr ⟨target, hm, hsame.symm⟩)
        rw [ih hnodup hm, List.getElem?_modify_ne _ _ hother]

theorem sum_map_modify {lines : List Text} {number : Nat} {line : Text}
    (h : lines[number]? = some line) (change : Text → Text) (weight : Text → Nat) :
    ((lines.modify number change).map weight).sum + weight line =
      (lines.map weight).sum + weight (change line) := by
  induction lines generalizing number with
  | nil => cases h
  | cons first lines ih =>
      cases number with
      | zero =>
          obtain rfl : first = line := by simpa using h
          simp only [List.modify_zero_cons, List.map_cons, List.sum_cons]
          omega
      | succ number =>
          have hplace : lines[number]? = some line := by simpa using h
          have hrest := ih hplace
          simp only [List.modify_succ_cons, List.map_cons, List.sum_cons]
          omega

/-- What edits on different lines add up to. -/
theorem sum_map_editLines (weight : Text → Nat) {targets : List (Char × Nat × Nat)}
    (hnumbers : (targets.map (·.2.1)).Nodup) {lines : List Text}
    (h : ∀ target ∈ targets, lines[target.2.1]? = some (lineOf lines target)) :
    ((editLines edit targets lines).map weight).sum +
        (targets.map fun target => weight (lineOf lines target)).sum =
      (lines.map weight).sum +
        (targets.map fun target =>
          weight (edit target.1 target.2.2 (lineOf lines target))).sum := by
  induction targets generalizing lines with
  | nil => rfl
  | cons target targets ih =>
      obtain ⟨hline, hrest⟩ := List.forall_mem_cons.mp h
      obtain ⟨hnew, hnodup⟩ := List.nodup_cons.mp hnumbers
      have hother : ∀ other ∈ targets,
          (lines.modify target.2.1 (edit target.1 target.2.2))[other.2.1]? =
            lines[other.2.1]? := by
        intro other hm
        refine List.getElem?_modify_ne _ _ fun hsame => hnew (List.mem_map.mpr ?_)
        exact ⟨other, hm, hsame.symm⟩
      have hlines : ∀ other ∈ targets,
          lineOf (lines.modify target.2.1 (edit target.1 target.2.2)) other =
            lineOf lines other := by
        intro other hm
        rw [lineOf, hother other hm, lineOf]
      have hstep := sum_map_modify hline (edit target.1 target.2.2) weight
      have hrun := ih hnodup fun other hm => by
        rw [hother other hm, hlines other hm, hrest other hm]
      rw [List.map_congr_left fun other hm => congrArg weight (hlines other hm),
        List.map_congr_left fun other hm =>
          congrArg (fun line => weight (edit other.1 other.2.2 line)) (hlines other hm)] at hrun
      simp only [editLines_cons, List.map_cons, List.sum_cons]
      omega

/-- What edits of the unmatched strings change about the number of lines that a quote leaves
open. -/
theorem countP_leavesOpen_editLines (quote : Char) (lines : List Text) :
    (editLines edit (unmatchedQuotes lines) lines).countP (leavesOpen quote) +
        (unmatchedQuotes lines).countP (·.1 == quote) =
      lines.countP (leavesOpen quote) + (unmatchedQuotes lines).countP fun target =>
        leavesOpen quote (edit target.1 target.2.2 (lineOf lines target)) := by
  have hbefore : (unmatchedQuotes lines).countP (·.1 == quote) =
      (unmatchedQuotes lines).countP fun target => leavesOpen quote (lineOf lines target) := by
    refine List.countP_congr fun target hm => ?_
    obtain ⟨-, -, htriple, hopen⟩ := lineOf_of_mem_unmatchedQuotes hm
    rw [leavesOpen_eq htriple hopen]
  simp only [hbefore, Text.countP_eq_sum]
  exact sum_map_editLines edit (fun line => (leavesOpen quote line).toNat)
    (nodup_numbers_unmatchedQuotes lines) fun target hm => (lineOf_of_mem_unmatchedQuotes hm).2.1

/-- Joined again, edited lines are read as they are, up to a carriage return at their ends. -/
theorem map_lines_rejoin_editLines {β : Type} {f : Text → β}
    (hf : ∀ line, f (line ++ ['\r']) = f line) {targets : List (Char × Nat × Nat)}
    (hnewline : ∀ target ∈ targets, ∀ line, '\n' ∉ line → '\n' ∉ edit target.1 target.2.2 line)
    (hne : ∀ target ∈ targets, ∀ line, line ≠ [] → edit target.1 target.2.2 line ≠ [])
    (text : Text) : (Text.lines (Text.rejoin (editLines edit targets text.lines) text)).map f =
      (editLines edit targets text.lines).map f := by
  refine Text.map_lines_rejoin hf (fun line hm => ?_) (fun hend hnil => ?_) fun hend hlast => ?_
  · obtain ⟨number, hline⟩ := List.mem_iff_getElem?.mp hm
    refine of_getElem?_editLines edit hnewline (fun line hline => ?_) line hline
    exact Text.not_mem_of_mem_lines (List.mem_iff_getElem?.mpr ⟨number, hline⟩)
  · have hlength := length_editLines edit targets text.lines
    rw [hnil] at hlength
    exact Text.lines_ne_nil hend (List.eq_nil_of_length_eq_zero hlength.symm)
  · rw [List.getLast?_eq_getElem?, length_editLines] at hlast
    refine of_getElem?_editLines edit hne (fun line hline => ?_) [] hlast rfl
    rintro rfl
    exact Text.getLast?_lines_ne hend (List.getLast?_eq_getElem?.trans hline)

theorem length_openLines_rejoin {targets : List (Char × Nat × Nat)}
    (hnewline : ∀ target ∈ targets, ∀ line, '\n' ∉ line → '\n' ∉ edit target.1 target.2.2 line)
    (hne : ∀ target ∈ targets, ∀ line, line ≠ [] → edit target.1 target.2.2 line ≠ [])
    (quote : Char) (text : Text) :
    (openLines quote (Text.rejoin (editLines edit targets text.lines) text).lines).length =
      (editLines edit targets text.lines).countP (leavesOpen quote) := by
  have hreturn : ∀ line : Text, (leavesOpen quote (line ++ ['\r'])).toNat =
      (leavesOpen quote line).toNat :=
    fun line => congrArg Bool.toNat (leavesOpen_concat_return quote line)
  rw [length_openLines, Text.countP_eq_sum, Text.countP_eq_sum,
    map_lines_rejoin_editLines edit hreturn hnewline hne]

end EditLines

/-! ## Closing quotes -/

/-- The lines of a text with its unmatched strings closed. -/
def closedLines (text : Text) : List Text :=
  editLines closeQuote (unmatchedQuotes text.lines) text.lines

/-- What is reported of a closed string. -/
def closedNote (target : Char × Nat × Nat) : String :=
  "closed " ++ target.1.toString ++ " on line " ++ toString (target.2.1 + 1)

theorem quoteFix_eq (text : Text) : quoteFix text =
    if unmatchedQuotes text.lines = [] then none
    else some (.ofContent .quoteFix (Text.rejoin (closedLines text) text)
      ((unmatchedQuotes text.lines).map closedNote)) := by
  simp only [quoteFix, List.isEmpty_iff, List.map_eq_nil_iff]
  rfl

theorem quoteFix_eq_none_iff (text : Text) : quoteFix text = none ↔
    ∀ quote ∈ quotes, (openLines quote text.lines).length % 2 ≠ 1 := by
  rw [← unmatchedQuotes_eq_nil_iff]
  simp [quoteFix_eq]

/-- The string of a target ends in an odd number of backslashes, so that the quote put behind it is
escaped. -/
def isEscapedAt (lines : List Text) (target : Char × Nat × Nat) : Bool :=
  endsEscaped (stringText target.2.2 (lineOf lines target))

theorem count_closedLines {c : Char} (hc : Text.isBlank c = false) (text : Text) :
    ((closedLines text).map (·.count c)).sum =
      (text.lines.map (·.count c)).sum + (unmatchedQuotes text.lines).countP (·.1 == c) := by
  have hsum := sum_map_editLines closeQuote (·.count c) (nodup_numbers_unmatchedQuotes text.lines)
    fun target hm => (lineOf_of_mem_unmatchedQuotes hm).2.1
  simp only [count_closeQuote hc, List.sum_map_add, ← Text.countP_eq_sum] at hsum
  rw [closedLines]
  omega

/-- A string that is closed leaves no line open any more, unless the quote behind it is escaped. -/
theorem countP_closedLines (quote : Char) (text : Text) :
    (closedLines text).countP (leavesOpen quote) +
        (unmatchedQuotes text.lines).countP (·.1 == quote) =
      text.lines.countP (leavesOpen quote) + (unmatchedQuotes text.lines).countP fun target =>
        target.1 == quote && isEscapedAt text.lines target := by
  rw [closedLines, countP_leavesOpen_editLines, Nat.add_left_cancel_iff]
  refine List.countP_congr fun target hm => ?_
  obtain ⟨-, -, htriple, hopen⟩ := lineOf_of_mem_unmatchedQuotes hm
  rw [leavesOpen_closeQuote htriple hopen, isEscapedAt]

theorem countP_unmatchedQuotes {quote : Char} (h : quote ∈ quotes) (lines : List Text) :
    (unmatchedQuotes lines).countP (·.1 == quote) = (openLines quote lines).length % 2 := by
  have hone : ∀ quote ∈ quotes, quotes.count quote = 1 := by simp [quotes]
  have hmap : (unmatchedQuotes lines).countP (·.1 == quote) =
      ((unmatchedQuotes lines).map (·.1)).count quote := by
    rw [List.count_eq_countP, List.countP_map]
    rfl
  rw [hmap, map_fst_unmatchedQuotes]
  by_cases hodd : (openLines quote lines).length % 2 = 1
  · rw [List.count_filter (by simpa using hodd), hone quote h, hodd]
  · rw [List.count_eq_zero_of_not_mem fun hm => hodd (by simpa using (List.mem_filter.mp hm).2)]
    omega

theorem length_openLines_closed (quote : Char) (text : Text) :
    (openLines quote (Text.rejoin (closedLines text) text).lines).length =
      (closedLines text).countP (leavesOpen quote) := by
  have hnewline : ∀ target ∈ unmatchedQuotes text.lines, ∀ line : Text, '\n' ∉ line →
      '\n' ∉ closeQuote target.1 target.2.2 line := by
    intro target hm line hline hclosed
    have hquote := (lineOf_of_mem_unmatchedQuotes hm).1
    rcases mem_closeQuote hclosed with hmem | heq
    · exact hline hmem
    · exact ne_of_mem_of_not_mem hquote (by decide) heq.symm
  exact length_openLines_rejoin closeQuote hnewline (fun _ _ _ _ => closeQuote_ne_nil _ _ _)
    quote text

/-- What a repair of quotes makes of a text, by the strings that it closes. -/
structure ClosesQuotes (text content : Text) (targets : List (Char × Nat × Nat)) : Prop where
  count_eq : ∀ c, Text.isBlank c = false →
    content.count c = text.count c + targets.countP (·.1 == c)
  odd_iff : ∀ quote ∈ quotes, (openLines quote content.lines).length % 2 = 1 ↔
    ∃ target ∈ targets, target.1 = quote ∧ isEscapedAt text.lines target = true
  again_iff : quoteFix content = none ↔ ∀ target ∈ targets, isEscapedAt text.lines target = false

theorem odd_openLines_closed_iff {quote : Char} (h : quote ∈ quotes) (text : Text) :
    (openLines quote (Text.rejoin (closedLines text) text).lines).length % 2 = 1 ↔
      ∃ target ∈ unmatchedQuotes text.lines,
        target.1 = quote ∧ isEscapedAt text.lines target = true := by
  have hcount := countP_closedLines quote text
  have hclosed := countP_unmatchedQuotes h text.lines
  rw [← length_openLines_closed, ← length_openLines] at hcount
  have hle : (unmatchedQuotes text.lines).countP
      (fun target => target.1 == quote && isEscapedAt text.lines target) ≤
        (unmatchedQuotes text.lines).countP (·.1 == quote) :=
    List.countP_mono_left fun target _ hboth => (Bool.and_eq_true_iff.mp hboth).1
  have hpos : 0 < (unmatchedQuotes text.lines).countP
      (fun target => target.1 == quote && isEscapedAt text.lines target) ↔
        ∃ target ∈ unmatchedQuotes text.lines,
          target.1 = quote ∧ isEscapedAt text.lines target = true := by
    simp [List.countP_pos_iff]
  rw [← hpos]
  omega

/-- Repairing quotes adds one quote for each change that it reports, and changes nothing else but
blanks. The strings are closed then, so that nothing is left to be repaired, unless one of them ends
in an odd number of backslashes. -/
theorem closesQuotes_of_quoteFix {text : Text} {outcome : Outcome}
    (h : quoteFix text = some outcome) :
    ∃ content, outcome.output = .content content ∧
      outcome.changes = (unmatchedQuotes text.lines).map closedNote ∧
      ClosesQuotes text content (unmatchedQuotes text.lines) := by
  rw [quoteFix_eq] at h
  split at h
  · cases h
  · obtain rfl := Option.some.inj h
    refine ⟨_, rfl, rfl, ?_, fun _ hquote => odd_openLines_closed_iff hquote text, ?_⟩
    · intro c hc
      have hnewline : c ≠ '\n' := by
        rintro rfl
        cases hc
      have hreturn : c ≠ '\r' := by
        rintro rfl
        cases hc
      rw [Text.count_rejoin hnewline, count_closedLines hc, Text.sum_count_lines hnewline hreturn]
    · rw [quoteFix_eq_none_iff]
      constructor
      · intro heven target hm
        refine Bool.eq_false_iff.mpr fun hescaped => ?_
        have hquote := (lineOf_of_mem_unmatchedQuotes hm).1
        exact heven target.1 hquote
          ((odd_openLines_closed_iff hquote text).mpr ⟨target, hm, rfl, hescaped⟩)
      · intro hclosed quote hquote hodd
        obtain ⟨target, hm, -, hescaped⟩ := (odd_openLines_closed_iff hquote text).mp hodd
        exact Bool.eq_false_iff.mp (hclosed target hm) hescaped

/-- A text with a string of either kind, of which the second ends in a backslash. -/
def brokenText : Text := "f('a);\n\"b\\\n".toList

theorem brokenText_closed : ∃ outcome, quoteFix brokenText = some outcome ∧
    ∃ content, outcome.output = .content content ∧
      outcome.changes = (unmatchedQuotes brokenText.lines).map closedNote ∧
      ClosesQuotes brokenText content (unmatchedQuotes brokenText.lines) := by
  have hsome : (quoteFix brokenText).isSome = true := by decide +kernel
  obtain ⟨outcome, houtcome⟩ := Option.isSome_iff_exists.mp hsome
  exact ⟨outcome, houtcome, closesQuotes_of_quoteFix houtcome⟩

/-- A quote behind a backslash closes nothing, and the repair asks for another one. -/
theorem quoteFix_twice_of_backslash :
    (quoteFix "x = \"abc\\\n".toList).bind (fun outcome => outcome.output.content?) =
        some "x = \"abc\\\"\n".toList ∧
      (openLines '"' (Text.lines "x = \"abc\\\"\n".toList)).length % 2 = 1 ∧
      quoteFix "x = \"abc\\\"\n".toList ≠ none := by
  have hagain : (quoteFix "x = \"abc\\\"\n".toList).isSome = true := by decide +kernel
  refine ⟨by decide +kernel, by decide +kernel, fun hnone => ?_⟩
  rw [hnone] at hagain
  cases hagain

end CodeAtlas.Repair
