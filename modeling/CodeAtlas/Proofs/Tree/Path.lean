import CodeAtlas.Proofs.Text.Pieces
import CodeAtlas.Proofs.Text.Spacing
import CodeAtlas.Tree.Import

/-! Texts that are cut at words, and the imports of paths: a path of names is read as itself, a star
or a group in braces behind it is told from it. -/

namespace CodeAtlas.Tree

/-! ## Cutting at a word -/

/-- A text is cut at the first occurrence of the word. -/
theorem cutAtFrom_append {word before : Text} (rest read : Text)
    (h : ∀ front back, before = front ++ back → back ≠ [] → ¬word <+: back ++ (word ++ rest)) :
    cutAtFrom word (before ++ (word ++ rest)) read = some (read.reverse ++ before, rest) := by
  induction before generalizing read with
  | nil =>
      rw [List.nil_append, List.append_nil]
      cases htext : word ++ rest with
      | nil =>
          obtain ⟨rfl, rfl⟩ := List.append_eq_nil_iff.mp htext
          rfl
      | cons c text =>
          rw [cutAtFrom, ← htext, if_pos (List.isPrefixOf_iff_prefix.mpr (List.prefix_append _ _)),
            List.drop_left]
  | cons c before ih =>
      have hhere : ¬word.isPrefixOf (c :: (before ++ (word ++ rest))) = true := by
        rw [List.isPrefixOf_iff_prefix]
        exact h [] (c :: before) rfl (List.cons_ne_nil c before)
      rw [List.cons_append, cutAtFrom, if_neg hhere, ih]
      · simp
      · rintro front back rfl
        exact h (c :: front) back rfl

/-- In front of the word its first character does not occur. -/
theorem cutAt?_append_of_first {c : Char} {before : Text} (h : c ∉ before) (word rest : Text) :
    cutAt? (c :: word) (before ++ (c :: word ++ rest)) = some (before, rest) := by
  refine cutAtFrom_append rest [] ?_
  rintro front back rfl hback hprefix
  obtain ⟨d, back, rfl⟩ := List.exists_cons_of_ne_nil hback
  obtain ⟨rfl, -⟩ := List.cons_prefix_cons.mp hprefix
  simp at h

/-- In front of the word and in its front part its last character does not occur. -/
theorem cutAt?_append_of_last {c : Char} {before word : Text} (hbefore : c ∉ before)
    (hword : c ∉ word) (rest : Text) :
    cutAt? (word ++ [c]) (before ++ (word ++ [c] ++ rest)) = some (before, rest) := by
  refine cutAtFrom_append rest [] ?_
  rintro front back rfl hback hprefix
  have hlength : (word ++ [c]).length ≤ (back ++ word).length := by
    have hpos := List.length_pos_iff.mpr hback
    simp only [List.length_append, List.length_singleton]
    omega
  have hback : back ++ word <+: back ++ (word ++ [c] ++ rest) := ⟨[c] ++ rest, by simp⟩
  have hin : c ∈ back ++ word :=
    (List.prefix_of_prefix_length_le hprefix hback hlength).subset (by simp)
  rcases List.mem_append.mp hin with hin | hin
  · exact hbefore (List.mem_append_right _ hin)
  · exact hword hin

theorem eq_of_cutAtFrom {word text read before rest : Text}
    (h : cutAtFrom word text read = some (before, rest)) :
    read.reverse ++ text = before ++ (word ++ rest) := by
  fun_induction cutAtFrom word text read with
  | case1 read hword =>
      cases h
      simp [List.isEmpty_iff.mp hword]
  | case2 => cases h
  | case3 read c text hprefix =>
      cases h
      obtain ⟨back, hback⟩ := List.isPrefixOf_iff_prefix.mp hprefix
      rw [← hback, List.drop_left]
  | case4 read c text _ ih => simpa using ih h

theorem eq_of_cutAt? {word text before rest : Text} (h : cutAt? word text = some (before, rest)) :
    text = before ++ (word ++ rest) :=
  eq_of_cutAtFrom h

theorem cutAt?_eq_none {c : Char} {word text : Text} (hword : c ∈ word) (htext : c ∉ text) :
    cutAt? word text = none := by
  cases hcut : cutAt? word text with
  | none => rfl
  | some pieces =>
      rw [eq_of_cutAt? hcut] at htext
      simp [hword] at htext

/-! ## The last piece -/

theorem lastPiece_of_not_mem {c : Char} {separator text : Text} (hseparator : c ∈ separator)
    (htext : c ∉ text) : lastPiece separator text = text := by
  rw [lastPiece, cutAt?_eq_none (List.mem_reverse.mpr hseparator) (by simpa using htext)]

theorem lastPiece_append {c : Char} {last : Text} (h : c ∉ last) (separator front : Text) :
    lastPiece (separator ++ [c]) (front ++ (separator ++ [c]) ++ last) = last := by
  have hreverse : (front ++ (separator ++ [c]) ++ last).reverse =
      last.reverse ++ (c :: separator.reverse ++ front.reverse) := by simp
  have hword : (separator ++ [c]).reverse = c :: separator.reverse := by simp
  rw [lastPiece, hreverse, hword, cutAt?_append_of_first (by simpa using h)]
  simp

theorem lastPiece_join {c : Char} {last : Text} (h : c ∉ last) (separator : Text)
    (front : List Text) :
    lastPiece (separator ++ [c]) (Text.join (separator ++ [c]) (front ++ [last])) = last := by
  rcases List.eq_nil_or_concat' front with rfl | ⟨front, next, rfl⟩
  · have hjoin : Text.join (separator ++ [c]) ([] ++ [last]) = last := by simp [Text.join]
    rw [hjoin]
    exact lastPiece_of_not_mem (by simp) h
  · have hlast : Text.join (separator ++ [c]) [last] = last := by simp [Text.join]
    rw [Text.join_append (by simp) (List.cons_ne_nil last []), hlast]
    exact lastPiece_append h separator _

/-! ## Repeated words -/

/-- Every repetition of a word at the start of a text is dropped. -/
theorem dropLeading_append {word rest : Text} (h : ¬word <+: rest) (count : Nat) {n : Nat}
    (hn : count ≤ n) : dropLeading word n ((List.replicate count word).flatten ++ rest) = rest := by
  induction count generalizing n with
  | zero =>
      have hafter : rest.after? word = none := by
        rw [Text.after?, Text.startsWith, if_neg (by rwa [List.isPrefixOf_iff_prefix])]
      cases n with
      | zero => rfl
      | succ n => simp [dropLeading, hafter]
  | succ count ih =>
      cases n with
      | zero => omega
      | succ n =>
          have hafter : Text.after? ((List.replicate (count + 1) word).flatten ++ rest) word =
              some ((List.replicate count word).flatten ++ rest) := by
            rw [Text.after?_eq_some_iff, List.replicate_succ, List.flatten_cons, List.append_assoc]
          rw [dropLeading, hafter]
          exact ih (Nat.le_of_succ_le_succ hn)

theorem exists_replicate_append {word : Text} (hword : word ≠ []) (text : Text) :
    ∃ count rest, text = (List.replicate count word).flatten ++ rest ∧ ¬word <+: rest := by
  by_cases h : word <+: text
  · obtain ⟨back, htext⟩ := h
    have hlt : back.length < text.length := by
      have hpos := List.length_pos_iff.mpr hword
      rw [← htext, List.length_append]
      omega
    obtain ⟨count, rest, hback, hrest⟩ := exists_replicate_append hword back
    refine ⟨count + 1, rest, ?_, hrest⟩
    rw [List.replicate_succ, List.flatten_cons, List.append_assoc, ← hback, htext]
  · exact ⟨0, text, rfl, h⟩
termination_by text.length

/-! ## Paths of names -/

theorem flatten_names (separator first : Text) (rest : List Text.Name) :
    (first :: rest.flatMap fun name => [separator, name.text]).flatten =
      Text.join separator (first :: rest.map (·.text)) := by
  induction rest generalizing first with
  | nil => simp [Text.join]
  | cons next rest ih =>
      have hjoin : Text.join separator (first :: next.text :: rest.map (·.text)) =
          first ++ (separator ++ Text.join separator (next.text :: rest.map (·.text))) := by
        simp [Text.join, List.intercalate_cons_cons]
      rw [List.map_cons, hjoin, ← ih next.text]
      simp

/-- A path of names, the outermost one first. -/
structure NamePath where
  first : Text.Name
  rest : List Text.Name

namespace NamePath

variable (path : NamePath)

def segments : List Text := path.first.text :: path.rest.map (·.text)

/-- The innermost name. -/
def last : Text.Name := (path.first :: path.rest).getLast (List.cons_ne_nil _ _)

theorem getLast?_segments : path.segments.getLast? = some path.last.text := by
  have hmap : path.segments = (path.first :: path.rest).map (·.text) := rfl
  rw [hmap, List.getLast?_map, List.getLast?_eq_some_getLast (List.cons_ne_nil _ _)]
  rfl

/-- The names of the path with a separator in front of each but the first. -/
def tokens (separator : Text) : List Text :=
  path.first.text :: path.rest.flatMap fun name => [separator, name.text]

theorem isDelimiter_of_mem {segment : Text} (h : segment ∈ path.segments) {c : Char}
    (hc : c ∈ segment) : Text.isDelimiter c = false := by
  rcases List.mem_cons.mp h with rfl | h
  · exact path.first.isDelimiter_of_mem hc
  · obtain ⟨name, -, rfl⟩ := List.mem_map.mp h
    exact name.isDelimiter_of_mem hc

theorem not_mem_segment {segment : Text} (h : segment ∈ path.segments) {c : Char}
    (hc : Text.isDelimiter c = true) : c ∉ segment := by
  intro hm
  rw [path.isDelimiter_of_mem h hm] at hc
  cases hc

theorem mem_tokens {separator token : Text} (h : token ∈ path.tokens separator) :
    token = separator ∨ token ∈ path.segments := by
  rcases List.mem_cons.mp h with rfl | h
  · exact .inr List.mem_cons_self
  · obtain ⟨name, hname, h⟩ := List.mem_flatMap.mp h
    rcases List.mem_cons.mp h with rfl | h
    · exact .inl rfl
    · rw [List.mem_singleton.mp h]
      exact .inr (List.mem_cons_of_mem _ (List.mem_map_of_mem hname))

end NamePath

theorem before?_append (front word : Text) : Text.before? (front ++ word) word = some front := by
  have hends : (front ++ word).endsWith word = true :=
    Text.endsWith_iff_suffix.mpr (List.suffix_append front word)
  simp [Text.before?, hends]

theorem before?_concat_eq_none {c d : Char} (h : c ≠ d) (word text : Text) :
    Text.before? (text ++ [d]) (word ++ [c]) = none := by
  have hends : ¬(text ++ [d]).endsWith (word ++ [c]) = true := by
    rw [Text.endsWith_iff_suffix]
    rintro ⟨front, hfront⟩
    have hlast := congrArg List.getLast? hfront
    simp [h] at hlast
  rw [Text.before?, if_neg hends]

/-- The import that a path of segments stands for; one with a star behind it takes all. -/
def pathImport (separator : Text) (segments : List Text) (wildcard : Bool) (line : Nat) :
    ImportDecl where
  source := String.ofList (Text.join separator segments)
  kind := if wildcard then .wildcard else .named
  names := if wildcard then [] else
    (segments.getLast?.toList.filter fun name => !name.isEmpty).map String.ofList
  line := line

theorem pathImport_segments (path : NamePath) (separator : Text) (line : Nat) :
    pathImport separator path.segments false line =
      ⟨String.ofList (Text.join separator path.segments), .named, [String.ofList path.last.text],
        line⟩ := by
  simp [pathImport, path.getLast?_segments, path.last.ne_nil]

section Split

variable {path : Text} {separator : Text}

/-- What a path stands for does not depend on its blanks. -/
theorem splitPath_congr {other : Text} (h : path.squeeze = other.squeeze) (line : Nat) :
    splitPath path separator line = splitPath other separator line := by
  have hfilter : (path.filter fun c => !Text.isBlank c) = other.filter fun c => !Text.isBlank c :=
    h
  simp only [splitPath, hfilter]

/-- A path with a star behind it stands for all names in it. -/
theorem splitPath_star {segments : List Text}
    (h : path.squeeze = Text.join separator segments ++ (separator ++ ['*'])) (line : Nat) :
    splitPath path separator line = pathImport separator segments true line := by
  have hfilter : (path.filter fun c => !Text.isBlank c) =
      Text.join separator segments ++ (separator ++ ['*']) := h
  simp only [splitPath, hfilter, before?_append]
  rfl

/-- A group in braces is told from the path in front of it. -/
theorem splitPath_group {source inner : Text} (hsource : '\x7b' ∉ source)
    (hseparator : '\x7b' ∉ separator)
    (h : path.squeeze = source ++ (separator ++ ['\x7b'] ++ (inner ++ ['\x7d']))) (line : Nat) :
    splitPath path separator line = ⟨String.ofList source, .named,
      ((Text.splitWhere (· == ',') (Text.dropTail (· == '\x7d') (inner ++ ['\x7d']))).filter
        fun name => !name.isEmpty).map String.ofList, line⟩ := by
  have hfilter : (path.filter fun c => !Text.isBlank c) =
      source ++ (separator ++ ['\x7b'] ++ (inner ++ ['\x7d'])) := h
  have hstar : Text.before? (source ++ (separator ++ ['\x7b'] ++ (inner ++ ['\x7d'])))
      (separator ++ ['*']) = none := by
    rw [← List.append_assoc, ← List.append_assoc]
    exact before?_concat_eq_none (by decide) _ _
  simp only [splitPath, hfilter, hstar, cutAt?_append_of_last hsource hseparator]

/-- A path of segments, each without the separator's last character, is named by its last one. -/
theorem splitPath_join {c : Char} {segments : List Text}
    (hplain : ∀ segment ∈ segments, c ∉ segment ∧ '*' ∉ segment ∧ '\x7b' ∉ segment)
    (hseparator : '*' ∉ separator ++ [c] ∧ '\x7b' ∉ separator ++ [c])
    (h : path.squeeze = Text.join (separator ++ [c]) segments) (line : Nat) :
    splitPath path (separator ++ [c]) line = pathImport (separator ++ [c]) segments false line := by
  have hfilter : (path.filter fun c => !Text.isBlank c) = Text.join (separator ++ [c]) segments :=
    h
  have hnot : ∀ d, d ∉ separator ++ [c] → (∀ segment ∈ segments, d ∉ segment) →
      d ∉ Text.join (separator ++ [c]) segments := by
    intro d hd hsegments hm
    rcases Text.mem_of_mem_join hm with hm | ⟨segment, hsegment, hm⟩
    · exact hd hm
    · exact hsegments segment hsegment hm
  have hstar : Text.before? (Text.join (separator ++ [c]) segments) (separator ++ [c] ++ ['*']) =
      none := by
    rw [Text.before?, if_neg]
    rw [Text.endsWith_iff_suffix]
    intro hsuffix
    exact hnot '*' hseparator.1 (fun segment hm => (hplain segment hm).2.1)
      (hsuffix.subset (by simp))
  have hgroup : cutAt? (separator ++ [c] ++ ['\x7b']) (Text.join (separator ++ [c]) segments) =
      none :=
    cutAt?_eq_none (c := '\x7b') (by simp)
      (hnot '\x7b' hseparator.2 fun segment hm => (hplain segment hm).2.2)
  simp only [splitPath, hfilter, hstar, hgroup]
  rcases List.eq_nil_or_concat' segments with rfl | ⟨front, last, rfl⟩
  · have hempty : lastPiece (separator ++ [c]) (Text.join (separator ++ [c]) []) = [] :=
      lastPiece_of_not_mem (c := c) (by simp) (by simp [Text.join])
    rw [hempty]
    rfl
  · rw [lastPiece_join (hplain last (by simp)).1]
    cases last <;> simp [pathImport]

end Split

end CodeAtlas.Tree
