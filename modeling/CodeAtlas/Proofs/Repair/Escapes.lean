import CodeAtlas.Proofs.Repair.Quotes

/-! Quote escapes. A backslash in front of the quote that opens an unclosed string makes code of the
string's text. The line is closed then, unless that text holds an odd number of quotes of the other
kind. -/

namespace CodeAtlas.Repair

/-! ## Bare quotes -/

/-- How often a character stands in a text without a backslash that escapes it. -/
def bareCount (c : Char) : Text → Nat
  | [] => 0
  | ['\\'] => 0
  | '\\' :: _ :: text => bareCount c text
  | d :: text => (d == c).toNat + bareCount c text

/-- Induction over a text as it is read: a backslash goes together with what it escapes. -/
theorem escape_induction {motive : Text → Prop} (nil : motive []) (backslash : motive ['\\'])
    (escape : ∀ c text, motive text → motive ('\\' :: c :: text))
    (bare : ∀ c text, c ≠ '\\' → motive text → motive (c :: text)) (text : Text) :
    motive text := by
  induction text using bareCount.induct with
  | case1 => exact nil
  | case2 => exact backslash
  | case3 c text ih => exact escape c text ih
  | case4 c text hlone hpair ih =>
      refine bare c text (fun hc => ?_) ih
      cases text with
      | nil => exact hlone hc rfl
      | cons d text => exact hpair d text hc rfl

theorem bareCount_cons {d : Char} (h : d ≠ '\\') (c : Char) (text : Text) :
    bareCount c (d :: text) = (d == c).toNat + bareCount c text :=
  bareCount.eq_4 c d text (fun hd => absurd hd h) fun _ _ hd => absurd hd h

namespace QuoteScan

/-- A backslash and the character behind it change nothing about the open string. -/
theorem step_backslash {scan : QuoteScan} (h : scan.escaped = false) (c : Char) :
    (scan.step '\\').step c = ⟨scan.opened, false, scan.index + 2⟩ := by
  simp [step_eq, h, quotes]

theorem step_bare {scan : QuoteScan} (h : scan.escaped = false) {c : Char} (hc : c ≠ '\\') :
    scan.step c =
      ⟨if c ∈ quotes then scan.turned c else scan.opened, false, scan.index + 1⟩ := by
  simp [step_eq, h, hc]

/-- A string that stays open holds no bare quote of its own. -/
theorem bareCount_eq_zero {quote : Char} (hquote : quote ∈ quotes) {index : Nat} {text : Text}
    (scan : QuoteScan) (hescaped : scan.escaped = false)
    (h : ∀ inner, inner <+: text → (scan.run inner).opened = some (quote, index)) :
    bareCount quote text = 0 := by
  induction text using escape_induction generalizing scan with
  | nil => rfl
  | backslash => rfl
  | escape c text ih =>
      have hstep := step_backslash hescaped c
      rw [bareCount]
      refine ih ((scan.step '\\').step c) (by rw [hstep]) fun inner hinner => ?_
      exact h ('\\' :: c :: inner) (by simpa using hinner)
  | bare c text hc ih =>
      have hopened : scan.opened = some (quote, index) := h [] List.nil_prefix
      have hstep := step_bare hescaped hc
      have hne : c ≠ quote := by
        rintro rfl
        have hclosed : (scan.step c).opened = some (c, index) := h [c] (by simp)
        simp [hstep, hquote, turned, hopened] at hclosed
      rw [bareCount_cons hc, beq_eq_false_iff_ne.mpr hne, Bool.toNat_false, Nat.zero_add]
      refine ih (scan.step c) (by rw [hstep]) fun inner hinner => ?_
      exact h (c :: inner) (by simpa using hinner)

/-- The kind of the string that is open after `count` quotes of one kind and no others. -/
def openAfter (quote : Char) (count : Nat) : Option Char :=
  if count % 2 = 1 then some quote else none

/-- A quote of the only kind that was met so far opens a string or closes it. -/
theorem map_turned {quote : Char} {count : Nat} {scan : QuoteScan}
    (h : scan.opened.map Prod.fst = openAfter quote count) :
    (scan.turned quote).map Prod.fst = openAfter quote (count + 1) := by
  unfold openAfter at h ⊢
  unfold turned
  cases hopened : scan.opened with
  | none =>
      rw [hopened] at h
      by_cases hodd : count % 2 = 1
      · simp [hodd] at h
      · have hnext : (count + 1) % 2 = 1 := by omega
        simp [hnext]
  | some found =>
      rw [hopened] at h
      by_cases hodd : count % 2 = 1
      · have hnext : (count + 1) % 2 ≠ 1 := by omega
        have hsame : found.1 = quote := by simpa [hodd] using h
        simp [hnext, hsame]
      · simp [hodd] at h

/-- Where quotes of one kind alone are bare, they open and close strings in turn. -/
theorem map_opened_run {quote : Char} (hquote : quote ∈ quotes) {text : Text}
    (h : ∀ other ∈ quotes, other ≠ quote → bareCount other text = 0) (scan : QuoteScan)
    (hescaped : scan.escaped = false) {count : Nat}
    (hopened : scan.opened.map Prod.fst = openAfter quote count) :
    (scan.run text).opened.map Prod.fst = openAfter quote (count + bareCount quote text) := by
  induction text using escape_induction generalizing scan count with
  | nil => exact hopened
  | backslash =>
      rw [opened_run_of_not_quote (by simp [quotes])]
      exact hopened
  | escape c text ih =>
      rw [run_cons, run_cons, step_backslash hescaped, bareCount]
      exact ih h _ rfl hopened
  | bare c text hc ih =>
      have hrest : ∀ other ∈ quotes, other ≠ quote → bareCount other text = 0 := by
        intro other hother hne
        have hzero := h other hother hne
        rw [bareCount_cons hc] at hzero
        exact Nat.eq_zero_of_add_eq_zero_left hzero
      rw [run_cons, step_bare hescaped hc, bareCount_cons hc]
      by_cases hsame : c = quote
      · subst hsame
        rw [beq_self_eq_true, Bool.toNat_true, ← Nat.add_assoc]
        refine ih hrest _ rfl ?_
        rw [if_pos hquote]
        exact map_turned hopened
      · have hplain : c ∉ quotes := by
          intro hm
          have hzero := h c hm hsame
          simp [bareCount_cons hc] at hzero
        rw [beq_eq_false_iff_ne.mpr hsame, Bool.toNat_false, Nat.zero_add]
        refine ih hrest _ rfl ?_
        rw [if_neg hplain]
        exact hopened

end QuoteScan

/-! ## Escaping a quote -/

theorem exists_other {quote : Char} (h : quote ∈ quotes) :
    ∃ other ∈ quotes, other ≠ quote ∧ ∀ c ∈ quotes, c ≠ other → c = quote := by
  simp only [quotes, List.mem_cons, List.not_mem_nil, or_false] at h
  rcases h with rfl | rfl <;> simp [quotes]

namespace Unclosed

variable {line front body : Text} {quote : Char} {index : Nat}

theorem drop_eq (h : Unclosed line quote index front body) : line.drop (index + 1) = body := by
  rw [h.line_eq, ← h.length_eq, List.drop_length_add_append]
  rfl

theorem escapeQuote_eq (h : Unclosed line quote index front body) :
    escapeQuote index line = front ++ '\\' :: quote :: body := by
  rw [escapeQuote, h.line_eq, ← h.length_eq, List.take_left, List.drop_left]

theorem bareCount_eq_zero (h : Unclosed line quote index front body) :
    bareCount quote body = 0 := by
  have hopen : ∀ inner, inner <+: body →
      ((QuoteScan.start.run (front ++ [quote])).run inner).opened = some (quote, index) := by
    intro inner hinner
    rw [← QuoteScan.run_append, List.append_assoc]
    exact h.stays_open inner hinner
  exact QuoteScan.bareCount_eq_zero h.mem_quotes _ h.escaped_eq hopen

/-- The text of a string is read as code once the quote in front of it is escaped. -/
theorem map_openQuote?_escapeQuote (h : Unclosed line quote index front body) {other : Char}
    (hother : other ∈ quotes) (honly : ∀ c ∈ quotes, c ≠ other → c = quote) :
    (openQuote? (escapeQuote index line)).map Prod.fst =
      QuoteScan.openAfter other (bareCount other body) := by
  have hnone : ∀ c ∈ quotes, c ≠ other → bareCount c body = 0 := by
    intro c hc hne
    rw [honly c hc hne]
    exact h.bareCount_eq_zero
  change (QuoteScan.start.run (escapeQuote index line)).opened.map Prod.fst = _
  rw [h.escapeQuote_eq, QuoteScan.run_append, QuoteScan.run_cons, QuoteScan.run_cons,
    QuoteScan.step_backslash h.escaped_front, h.opened_front]
  have hstart : (none : Option (Char × Nat)).map Prod.fst = QuoteScan.openAfter other 0 := rfl
  simpa using QuoteScan.map_opened_run hother hnone ⟨none, false, _⟩ rfl hstart

theorem isTripleQuoted_escapeQuote (h : Unclosed line quote index front body)
    (htriple : isTripleQuoted line = false) : isTripleQuoted (escapeQuote index line) = false := by
  rw [Bool.eq_false_iff] at htriple ⊢
  refine fun hescaped => htriple ?_
  obtain ⟨other, hother, hinfix⟩ := isTripleQuoted_iff.mp hescaped
  have hbackslash : '\\' ∉ [other, other, other] := by
    simpa using (ne_backslash hother).symm
  rw [h.escapeQuote_eq] at hinfix
  refine isTripleQuoted_iff.mpr ⟨other, hother, ?_⟩
  rw [h.line_eq]
  rcases Text.infix_or_infix_of_append_cons hbackslash hinfix with hfront | hback
  · exact hfront.trans (List.prefix_append _ _).isInfix
  · exact hback.trans (List.suffix_append _ _).isInfix

end Unclosed

/-- A line is left open after the escape by the quotes that stand bare in its string an odd number
of times. -/
theorem leavesOpen_escapeQuote {line : Text} {quote : Char} {index : Nat}
    (htriple : isTripleQuoted line = false) (h : openQuote? line = some (quote, index))
    {c : Char} (hc : c ∈ quotes) : leavesOpen c (escapeQuote index line) =
      (bareCount c (line.drop (index + 1)) % 2 == 1) := by
  obtain ⟨front, body, hunclosed⟩ := exists_unclosed h
  obtain ⟨other, hother, hne, honly⟩ := exists_other hunclosed.mem_quotes
  have hopened := hunclosed.map_openQuote?_escapeQuote hother honly
  have hany : leavesOpen c (escapeQuote index line) =
      ((openQuote? (escapeQuote index line)).map Prod.fst == some c) := by
    rw [leavesOpen, hunclosed.isTripleQuoted_escapeQuote htriple]
    cases openQuote? (escapeQuote index line) <;> simp
  rw [hany, hopened, hunclosed.drop_eq, QuoteScan.openAfter]
  by_cases hsame : c = other
  · subst hsame
    by_cases hodd : bareCount c body % 2 = 1 <;> simp [hodd]
  · obtain rfl := honly c hc hsame
    rw [hunclosed.bareCount_eq_zero]
    by_cases hodd : bareCount other body % 2 = 1 <;> simp [hodd, hne]

/-! ## Escaping quotes -/

/-- The lines of a text with its unmatched quotes escaped. -/
def escapedLines (text : Text) : List Text :=
  editLines (fun _ => escapeQuote) (unmatchedQuotes text.lines) text.lines

/-- What is reported of an escaped quote. -/
def escapedNote (target : Char × Nat × Nat) : String :=
  "escaped " ++ target.1.toString ++ " on line " ++ toString (target.2.1 + 1)

theorem quoteEscape_eq (text : Text) : quoteEscape text =
    if unmatchedQuotes text.lines = [] then none
    else some (.ofContent .quoteEscape (Text.rejoin (escapedLines text) text)
      ((unmatchedQuotes text.lines).map escapedNote)) := by
  simp only [quoteEscape, List.isEmpty_iff, List.map_eq_nil_iff]
  rfl

theorem quoteEscape_eq_none_iff (text : Text) : quoteEscape text = none ↔
    ∀ quote ∈ quotes, (openLines quote text.lines).length % 2 ≠ 1 := by
  rw [← unmatchedQuotes_eq_nil_iff]
  simp [quoteEscape_eq]

/-- The string of a target holds an odd number of bare quotes of a kind, the last of which opens a
string when the text is read as code. -/
def exposes (lines : List Text) (target : Char × Nat × Nat) (quote : Char) : Bool :=
  bareCount quote ((lineOf lines target).drop (target.2.2 + 1)) % 2 == 1

/-- No string exposes a quote of its own kind. -/
theorem ne_of_exposes {lines : List Text} {target : Char × Nat × Nat} {quote : Char}
    (hm : target ∈ unmatchedQuotes lines) (h : exposes lines target quote = true) :
    target.1 ≠ quote := by
  rintro rfl
  obtain ⟨-, -, -, hopen⟩ := lineOf_of_mem_unmatchedQuotes hm
  obtain ⟨front, body, hunclosed⟩ := exists_unclosed hopen
  rw [exposes, hunclosed.drop_eq, hunclosed.bareCount_eq_zero] at h
  cases h

theorem countP_exposes_le_one {quote : Char} (h : quote ∈ quotes) (lines : List Text) :
    (unmatchedQuotes lines).countP (exposes lines · quote) ≤ 1 := by
  have hone : ∀ quote ∈ quotes, quotes.countP (· != quote) = 1 := by simp [quotes]
  have hfirst : ((unmatchedQuotes lines).map (·.1)).Sublist quotes := by
    rw [map_fst_unmatchedQuotes]
    exact List.filter_sublist
  calc (unmatchedQuotes lines).countP (exposes lines · quote)
    _ ≤ (unmatchedQuotes lines).countP (·.1 != quote) :=
        List.countP_mono_left fun target hm hexposed => by
          simpa using ne_of_exposes hm hexposed
    _ = ((unmatchedQuotes lines).map (·.1)).countP (· != quote) := by
        rw [List.countP_map]
        rfl
    _ ≤ quotes.countP (· != quote) := hfirst.countP_le
    _ = 1 := hone quote h

theorem length_openLines_escaped (quote : Char) (text : Text) :
    (openLines quote (Text.rejoin (escapedLines text) text).lines).length =
      (escapedLines text).countP (leavesOpen quote) := by
  refine length_openLines_rejoin (fun _ => escapeQuote) (fun target _ line hline hmem => ?_)
    (fun target _ line _ hnil => ?_) quote text
  · rw [escapeQuote, List.mem_append, List.mem_cons] at hmem
    rcases hmem with hmem | hmem | hmem
    · exact hline (List.mem_of_mem_take hmem)
    · cases hmem
    · exact hline (List.mem_of_mem_drop hmem)
  · simp [escapeQuote] at hnil

/-- After the escapes, a quote leaves an odd number of lines open when a string exposes it. -/
theorem odd_openLines_escaped_iff {quote : Char} (h : quote ∈ quotes) (text : Text) :
    (openLines quote (Text.rejoin (escapedLines text) text).lines).length % 2 = 1 ↔
      ∃ target ∈ unmatchedQuotes text.lines, exposes text.lines target quote = true := by
  have hexposes : (unmatchedQuotes text.lines).countP (fun target =>
        leavesOpen quote (escapeQuote target.2.2 (lineOf text.lines target))) =
      (unmatchedQuotes text.lines).countP (exposes text.lines · quote) := by
    refine List.countP_congr fun target hm => ?_
    obtain ⟨-, -, htriple, hopen⟩ := lineOf_of_mem_unmatchedQuotes hm
    rw [leavesOpen_escapeQuote htriple hopen h, exposes]
  have hcount := countP_leavesOpen_editLines (fun _ => escapeQuote) quote text.lines
  have hescaped := countP_unmatchedQuotes h text.lines
  rw [hexposes, ← escapedLines, ← length_openLines_escaped, ← length_openLines] at hcount
  have hle := countP_exposes_le_one h text.lines
  rw [← List.countP_pos_iff]
  omega

/-- The line `after` is the line `before` with a backslash in front of the quote that a target
names. -/
def Escaped (target : Char × Nat × Nat) (before after : Text) : Prop :=
  ∃ front back, front.length = target.2.2 ∧ before = front ++ target.1 :: back ∧
    after = front ++ '\\' :: target.1 :: back

/-- What escapes of quotes make of a text, by the quotes that they escape. -/
structure EscapesQuotes (text content : Text) (targets : List (Char × Nat × Nat)) : Prop where
  distinct : (targets.map (·.2.1)).Nodup
  lines_eq : ∃ lines, content = Text.rejoin lines text ∧ lines.length = text.lines.length ∧
    (∀ target ∈ targets, ∃ before after, text.lines[target.2.1]? = some before ∧
      lines[target.2.1]? = some after ∧ Escaped target before after) ∧
    ∀ number, (∀ target ∈ targets, target.2.1 ≠ number) → lines[number]? = text.lines[number]?
  of_other_kind : ∀ target ∈ targets, ∀ quote, exposes text.lines target quote = true →
    target.1 ≠ quote
  odd_iff : ∀ quote ∈ quotes, (openLines quote content.lines).length % 2 = 1 ↔
    ∃ target ∈ targets, exposes text.lines target quote = true
  again_iff : quoteEscape content = none ↔
    ∀ target ∈ targets, ∀ quote ∈ quotes, exposes text.lines target quote = false

theorem escaped_of_mem {text : Text} {target : Char × Nat × Nat}
    (hm : target ∈ unmatchedQuotes text.lines) :
    ∃ before after, text.lines[target.2.1]? = some before ∧
      (escapedLines text)[target.2.1]? = some after ∧ Escaped target before after := by
  obtain ⟨-, hline, -, hopen⟩ := lineOf_of_mem_unmatchedQuotes hm
  obtain ⟨front, body, hunclosed⟩ := exists_unclosed hopen
  refine ⟨_, _, hline, ?_, front, body, hunclosed.length_eq, hunclosed.line_eq,
    hunclosed.escapeQuote_eq⟩
  rw [escapedLines, getElem?_editLines_of_mem _ (nodup_numbers_unmatchedQuotes _) hm, hline]
  rfl

/-- Escaping quotes puts one backslash into the text for each change that it reports. No quote
leaves an odd number of lines open then, so that nothing is left to be escaped, unless the string
behind an escaped quote holds an odd number of bare quotes of the other kind. -/
theorem escapesQuotes_of_quoteEscape {text : Text} {outcome : Outcome}
    (h : quoteEscape text = some outcome) :
    ∃ content, outcome.output = .content content ∧
      outcome.changes = (unmatchedQuotes text.lines).map escapedNote ∧
      EscapesQuotes text content (unmatchedQuotes text.lines) := by
  rw [quoteEscape_eq] at h
  split at h
  · cases h
  · obtain rfl := Option.some.inj h
    refine ⟨_, rfl, rfl, nodup_numbers_unmatchedQuotes _, ?_, fun _ hm _ => ne_of_exposes hm,
      fun _ hquote => odd_openLines_escaped_iff hquote text, ?_⟩
    · refine ⟨escapedLines text, rfl, length_editLines _ _ _, fun _ => escaped_of_mem, ?_⟩
      intro number hother
      exact getElem?_editLines_of_not_mem _ hother _
    · rw [quoteEscape_eq_none_iff]
      constructor
      · intro heven target hm quote hquote
        refine Bool.eq_false_iff.mpr fun hexposed => ?_
        exact heven quote hquote ((odd_openLines_escaped_iff hquote text).mpr ⟨target, hm, hexposed⟩)
      · intro hnone quote hquote hodd
        obtain ⟨target, hm, hexposed⟩ := (odd_openLines_escaped_iff hquote text).mp hodd
        exact Bool.eq_false_iff.mp (hnone target hm quote hquote) hexposed

/-- A text with an unclosed string of either kind, of which the first holds two quotes of the other
kind. -/
def unquotedText : Text := "a = 'say \"hi\";\nb = \"c\n".toList

theorem unquotedText_escaped : ∃ outcome, quoteEscape unquotedText = some outcome ∧
    ∃ content, outcome.output = .content content ∧
      outcome.changes = (unmatchedQuotes unquotedText.lines).map escapedNote ∧
      EscapesQuotes unquotedText content (unmatchedQuotes unquotedText.lines) := by
  have hsome : (quoteEscape unquotedText).isSome = true := by decide +kernel
  obtain ⟨outcome, houtcome⟩ := Option.isSome_iff_exists.mp hsome
  exact ⟨outcome, houtcome, escapesQuotes_of_quoteEscape houtcome⟩

/-- The apostrophe in an unclosed string opens a string once the string is code, and is escaped in
its turn. -/
theorem quoteEscape_twice_of_apostrophe :
    (quoteEscape "x = \"it's\n".toList).bind (fun outcome => outcome.output.content?) =
        some "x = \\\"it's\n".toList ∧
      (openLines '\'' (Text.lines "x = \\\"it's\n".toList)).length % 2 = 1 ∧
      quoteEscape "x = \\\"it's\n".toList ≠ none := by
  have hagain : (quoteEscape "x = \\\"it's\n".toList).isSome = true := by decide +kernel
  refine ⟨by decide +kernel, by decide +kernel, fun hnone => ?_⟩
  rw [hnone] at hagain
  cases hagain

end CodeAtlas.Repair
