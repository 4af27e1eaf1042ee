import CodeAtlas.Proofs.Text

/-! Words between blanks, and tokens with any blanks around them. Two names in a row need a blank
between them; what a text spells does not depend on the other blanks. -/

namespace CodeAtlas.Text

/-! ## Words -/

theorem splitWhere_append_cons {p : Char → Bool} {c : Char} (hc : p c = true)
    (front back : Text) :
    splitWhere p (front ++ c :: back) = splitWhere p front ++ splitWhere p back := by
  induction front with
  | nil =>
      rw [List.nil_append, splitWhere_cons, if_pos hc]
      rfl
  | cons d front ih =>
      rw [List.cons_append, splitWhere_cons, splitWhere_cons, ih]
      split
      · rfl
      · obtain ⟨first, pieces, hpieces⟩ := List.exists_cons_of_ne_nil (splitWhere_ne_nil p front)
        rw [hpieces]
        rfl

theorem splitWhere_eq_singleton {p : Char → Bool} {text : Text} (h : ∀ c ∈ text, p c = false) :
    splitWhere p text = [text] := by
  induction text with
  | nil => rfl
  | cons c text ih =>
      obtain ⟨hc, hrest⟩ := List.forall_mem_cons.mp h
      rw [splitWhere_cons, ih hrest, hc]
      rfl

theorem splitWhere_join {c : Char} {pieces : List Text} (hne : pieces ≠ [])
    (h : ∀ piece ∈ pieces, c ∉ piece) : splitWhere (· == c) (join [c] pieces) = pieces := by
  induction pieces with
  | nil => exact absurd rfl hne
  | cons piece pieces ih =>
      obtain ⟨hpiece, hpieces⟩ := List.forall_mem_cons.mp h
      have hfirst : splitWhere (· == c) piece = [piece] := by
        refine splitWhere_eq_singleton fun d hd => beq_eq_false_iff_ne.mpr ?_
        rintro rfl
        exact hpiece hd
      cases pieces with
      | nil => simpa [join] using hfirst
      | cons next pieces =>
          have hcut : splitWhere (· == c) (piece ++ c :: join [c] (next :: pieces)) =
              splitWhere (· == c) piece ++ splitWhere (· == c) (join [c] (next :: pieces)) :=
            splitWhere_append_cons (p := (· == c)) (beq_self_eq_true c) _ _
          rw [join_cons_cons, hcut, hfirst, ih (List.cons_ne_nil next pieces) hpieces]
          rfl

/-- No character is lost between the pieces but the separators. -/
theorem exists_mem_splitWhere {p : Char → Bool} {text : Text} {c : Char} (hc : c ∈ text)
    (hp : p c = false) : ∃ piece ∈ splitWhere p text, c ∈ piece := by
  induction text with
  | nil => cases hc
  | cons d text ih =>
      obtain ⟨first, pieces, hpieces⟩ := List.exists_cons_of_ne_nil (splitWhere_ne_nil p text)
      rw [splitWhere_cons, hpieces]
      rcases List.mem_cons.mp hc with rfl | hc
      · rw [hp]
        exact ⟨c :: first, by simp [consHead], List.mem_cons_self⟩
      · obtain ⟨piece, hpiece, hmem⟩ := ih hc
        rw [hpieces] at hpiece
        split
        · exact ⟨piece, List.mem_cons_of_mem _ hpiece, hmem⟩
        · rcases List.mem_cons.mp hpiece with rfl | hpiece
          · exact ⟨d :: piece, by simp [consHead], List.mem_cons_of_mem _ hmem⟩
          · exact ⟨piece, by simp [consHead, hpiece], hmem⟩

theorem words_append_cons {c : Char} (hc : isBlank c = true) (front back : Text) :
    words (front ++ c :: back) = words front ++ words back := by
  rw [words, splitWhere_append_cons hc, List.filter_append]
  rfl

theorem words_of_allBlank {gap : Text} (h : gap.allBlank = true) : words gap = [] := by
  induction gap with
  | nil => rfl
  | cons c gap ih =>
      obtain ⟨hc, hgap⟩ := Bool.and_eq_true_iff.mp h
      rw [← List.nil_append (c :: gap), words_append_cons hc, ih hgap]
      rfl

/-- Blanks at the end belong to no word. -/
theorem words_append_gap {gap : Text} (h : gap.allBlank = true) (text : Text) :
    words (text ++ gap) = words text := by
  cases gap with
  | nil => rw [List.append_nil]
  | cons c gap =>
      obtain ⟨hc, hgap⟩ := Bool.and_eq_true_iff.mp h
      rw [words_append_cons hc, words_of_allBlank hgap, List.append_nil]

theorem words_eq_singleton {word : Text} (hne : word ≠ []) (h : ∀ c ∈ word, isBlank c = false) :
    words word = [word] := by
  rw [words, splitWhere_eq_singleton h]
  simp [hne]

/-- The last word begins behind the last blank. -/
theorem getLast?_words_append {word : Text} (hne : word ≠ []) (h : ∀ c ∈ word, isBlank c = false)
    {front : Text} (hfront : ∀ c ∈ front.getLast?, isBlank c = true) :
    (words (front ++ word)).getLast? = some word := by
  rcases List.eq_nil_or_concat' front with rfl | ⟨front, c, rfl⟩
  · rw [List.nil_append, words_eq_singleton hne h]
    rfl
  · have hc : isBlank c = true := hfront c (by simp)
    rw [List.append_assoc, List.singleton_append, words_append_cons hc, words_eq_singleton hne h]
    simp

theorem exists_last_blank {text : Text} (h : text.any isBlank = true) : ∃ front c back,
    text = front ++ c :: back ∧ isBlank c = true ∧ ∀ d ∈ back, isBlank d = false := by
  induction text with
  | nil => cases h
  | cons c text ih =>
      by_cases hrest : text.any isBlank = true
      · obtain ⟨front, d, back, rfl, hd, hback⟩ := ih hrest
        exact ⟨c :: front, d, back, rfl, hd, hback⟩
      · have hc : isBlank c = true := (Bool.or_eq_true_iff.mp h).resolve_right hrest
        refine ⟨[], c, text, rfl, hc, fun d hd => Bool.eq_false_iff.mpr fun hblank => ?_⟩
        exact hrest (List.any_eq_true.mpr ⟨d, hd, hblank⟩)

/-! ## Names -/

theorem eq_false_of_any {p : Char → Bool} {text : Text} (h : text.any p = false) {c : Char}
    (hc : c ∈ text) : p c = false :=
  Bool.eq_false_iff.mpr (List.any_eq_false.mp h c hc)

/-- A blank, or a mark that stands beside names and in none. -/
def isDelimiter (c : Char) : Bool :=
  isBlank c || "()[]\x7b\x7d<>*&:;,.".toList.contains c

/-- A name in a source. -/
structure Name where
  text : Text
  ne_nil : text ≠ []
  plain : text.any isDelimiter = false

namespace Name

variable (name : Name)

theorem isDelimiter_of_mem {c : Char} (hc : c ∈ name.text) : isDelimiter c = false :=
  eq_false_of_any name.plain hc

theorem not_mem {c : Char} (hc : isDelimiter c = true) : c ∉ name.text := by
  intro hm
  rw [name.isDelimiter_of_mem hm] at hc
  cases hc

theorem isBlank_of_mem {c : Char} (hc : c ∈ name.text) : isBlank c = false :=
  (Bool.or_eq_false_iff.mp (name.isDelimiter_of_mem hc)).1

end Name

/-! ## Tokens -/

/-- The text without its blanks. -/
def squeeze (text : Text) : Text :=
  text.filter fun c => !isBlank c

@[simp] theorem squeeze_append (front back : Text) :
    (front ++ back).squeeze = front.squeeze ++ back.squeeze :=
  List.filter_append front back

theorem squeeze_join (separator : Text) (pieces : List Text) :
    (join separator pieces).squeeze = join separator.squeeze (pieces.map squeeze) := by
  rcases List.eq_nil_or_concat' pieces with rfl | ⟨front, last, rfl⟩
  · rfl
  · have hfront : squeeze (front.flatMap (· ++ separator)) =
        (front.map squeeze).flatMap (· ++ separator.squeeze) := by
      rw [squeeze, List.filter_flatMap, List.flatMap_map]
      exact List.flatMap_congr fun piece _ => squeeze_append piece separator
    rw [List.map_append, List.map_singleton, join_concat, join_concat, squeeze_append, hfront]

theorem squeeze_of_allBlank {gap : Text} (h : gap.allBlank = true) : gap.squeeze = [] := by
  rw [squeeze, List.filter_eq_nil_iff]
  intro c hc
  simp [List.all_eq_true.mp h c hc]

theorem squeeze_eq_self {text : Text} (h : ∀ c ∈ text, isBlank c = false) :
    text.squeeze = text := by
  rw [squeeze, List.filter_eq_self]
  intro c hc
  rw [h c hc]
  rfl

theorem mem_squeeze {text : Text} {c : Char} (hc : isBlank c = false) :
    c ∈ text.squeeze ↔ c ∈ text := by
  simp [squeeze, hc]

theorem exists_eq_append_trimStart (text : Text) :
    ∃ gap, text = gap ++ text.trimStart ∧ gap.allBlank = true :=
  ⟨text.takeWhile isBlank, List.takeWhile_append_dropWhile.symm,
    List.all_eq_true.mpr fun _ hc => List.mem_takeWhile_imp hc⟩

theorem squeeze_trimStart (text : Text) : text.trimStart.squeeze = text.squeeze := by
  obtain ⟨gap, htext, hgap⟩ := exists_eq_append_trimStart text
  conv_rhs => rw [htext, squeeze_append, squeeze_of_allBlank hgap, List.nil_append]

theorem squeeze_trim (text : Text) : text.trim.squeeze = text.squeeze := by
  obtain ⟨gap, htext, hgap⟩ := exists_eq_dropTail_append isBlank text.trimStart
  have hblank : squeeze gap = [] := squeeze_of_allBlank (List.all_eq_true.mpr hgap)
  rw [← squeeze_trimStart text]
  conv_rhs => rw [htext, squeeze_append, hblank, List.append_nil]
  rfl

theorem trim_eq_self {text : Text} (h : ∀ c ∈ text, isBlank c = false) : text.trim = text := by
  have hstart : text.trimStart = text := by
    cases text with
    | nil => rfl
    | cons c text => rw [trimStart, List.dropWhile_cons_of_neg (by simp [h c])]
  have hend : dropTail isBlank (text ++ []) = text :=
    dropTail_append_of_forall h (List.forall_mem_nil _)
  rw [List.append_nil] at hend
  rw [trim, hstart, trimEnd, hend]

/-- A token does not run on in what follows it: no name is followed by a character of names. -/
def endsBefore (token rest : Text) : Bool :=
  match token.getLast?, rest.head? with
  | some c, some d => isDelimiter c || isDelimiter d
  | _, _ => true

/-- The text is made of these tokens, with any blanks around them. -/
def isSpaced : List Text → Text → Bool
  | [], text => text.allBlank
  | token :: tokens, text =>
    (text.trimStart.after? token).any fun rest => token.endsBefore rest && isSpaced tokens rest

/-- The first token stands behind some blanks. -/
theorem exists_of_isSpaced_cons {token : Text} {tokens : List Text} {text : Text}
    (h : isSpaced (token :: tokens) text = true) : ∃ gap rest, text = gap ++ token ++ rest ∧
      gap.allBlank = true ∧ token.endsBefore rest = true ∧ isSpaced tokens rest = true := by
  rw [isSpaced] at h
  cases hrest : text.trimStart.after? token with
  | none => simp [hrest] at h
  | some rest =>
      rw [hrest, Option.any_some] at h
      obtain ⟨hends, hspaced⟩ := Bool.and_eq_true_iff.mp h
      obtain ⟨gap, htext, hgap⟩ := exists_eq_append_trimStart text
      refine ⟨gap, rest, ?_, hgap, hends, hspaced⟩
      rw [htext, after?_eq_some_iff.mp hrest, List.append_assoc]

/-- Behind the last token stand blanks. -/
theorem exists_of_isSpaced_concat {tokens : List Text} {token text : Text}
    (h : isSpaced (tokens ++ [token]) text = true) :
    ∃ front gap, text = front ++ token ++ gap ∧ gap.allBlank = true := by
  induction tokens generalizing text with
  | nil =>
      obtain ⟨gap, rest, htext, -, -, hrest⟩ := exists_of_isSpaced_cons h
      exact ⟨gap, rest, htext, hrest⟩
  | cons first tokens ih =>
      obtain ⟨before, rest, htext, -, -, hrest⟩ := exists_of_isSpaced_cons h
      obtain ⟨front, gap, rfl, hgap⟩ := ih hrest
      exact ⟨before ++ first ++ front, gap, by rw [htext]; simp, hgap⟩

/-- What follows a name does not start like one. -/
theorem isDelimiter_of_endsBefore {name rest : Text} (hne : name ≠ [])
    (hplain : name.any isDelimiter = false) (h : name.endsBefore rest = true) :
    ∀ c ∈ rest.head?, isDelimiter c = true := by
  obtain ⟨front, last, rfl⟩ := (List.eq_nil_or_concat' name).resolve_left hne
  have hlast : isDelimiter last = false := eq_false_of_any hplain (by simp)
  intro c hc
  simpa [endsBefore, Option.mem_def.mp hc, hlast] using h

/-- What a text spells does not depend on its blanks. -/
theorem squeeze_of_isSpaced {tokens : List Text} {text : Text} (h : isSpaced tokens text = true)
    (htokens : ∀ token ∈ tokens, ∀ c ∈ token, isBlank c = false) :
    text.squeeze = tokens.flatten := by
  induction tokens generalizing text with
  | nil => exact squeeze_of_allBlank h
  | cons token tokens ih =>
      obtain ⟨hfirst, hlater⟩ := List.forall_mem_cons.mp htokens
      obtain ⟨gap, rest, rfl, hgap, -, hspaced⟩ := exists_of_isSpaced_cons h
      rw [squeeze_append, squeeze_append, squeeze_of_allBlank hgap, squeeze_eq_self hfirst,
        ih hspaced hlater]
      rfl

end CodeAtlas.Text
