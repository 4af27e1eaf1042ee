import CodeAtlas.Text.Basic
import Mathlib.Data.List.Infix
import Mathlib.Data.List.TakeWhile

/-! What is found in a text is made of its characters: pieces, and occurrences of a word. -/

namespace CodeAtlas.Text

/-! ## Pieces -/

section Pieces

variable {α : Type}

theorem splitWhere_cons (p : α → Bool) (c : α) (text : List α) :
    splitWhere p (c :: text) =
      if p c then [] :: splitWhere p text else consHead c (splitWhere p text) := rfl

theorem splitWhere_ne_nil (p : α → Bool) (text : List α) : splitWhere p text ≠ [] := by
  cases text with
  | nil => exact List.cons_ne_nil [] []
  | cons c text =>
      rw [splitWhere_cons]
      split
      · exact List.cons_ne_nil _ _
      · cases splitWhere p text <;> exact List.cons_ne_nil _ _

theorem mem_consHead {c : α} {pieces : List (List α)} {piece : List α}
    (h : piece ∈ consHead c pieces) :
    piece ∈ pieces ∨ ∃ rest, piece = c :: rest ∧ (rest = [] ∨ rest ∈ pieces) := by
  cases pieces with
  | nil => exact .inr ⟨[], List.mem_singleton.mp h, .inl rfl⟩
  | cons first pieces =>
      rcases List.mem_cons.mp h with rfl | h
      · exact .inr ⟨first, rfl, .inr List.mem_cons_self⟩
      · exact .inl (List.mem_cons_of_mem _ h)

/-- A piece holds characters of the text and no separators. -/
theorem mem_of_mem_splitWhere {p : α → Bool} {text piece : List α}
    (h : piece ∈ splitWhere p text) {c : α} (hc : c ∈ piece) : c ∈ text ∧ p c = false := by
  induction text generalizing piece with
  | nil =>
      rw [List.mem_singleton.mp h] at hc
      cases hc
  | cons d text ih =>
      have later : ∀ {other : List α}, other ∈ splitWhere p text → c ∈ other →
          c ∈ d :: text ∧ p c = false := fun hm hc =>
        (ih hm hc).imp_left (List.mem_cons_of_mem d)
      rw [splitWhere_cons] at h
      split at h
      · rcases List.mem_cons.mp h with rfl | h
        · cases hc
        · exact later h hc
      · rename_i hd
        rcases mem_consHead h with h | ⟨rest, rfl, hrest⟩
        · exact later h hc
        · rcases List.mem_cons.mp hc with rfl | hc
          · exact ⟨List.mem_cons_self, by simpa using hd⟩
          · rcases hrest with rfl | hrest
            · cases hc
            · exact later hrest hc

end Pieces

theorem join_cons_cons (separator : Char) (piece next : Text) (pieces : List Text) :
    join [separator] (piece :: next :: pieces) =
      piece ++ separator :: join [separator] (next :: pieces) := by
  simp [join, List.intercalate_cons_cons]

theorem join_concat (separator : Text) (pieces : List Text) (last : Text) :
    join separator (pieces ++ [last]) = pieces.flatMap (· ++ separator) ++ last := by
  induction pieces with
  | nil => simp [join]
  | cons piece pieces ih =>
      have hcons : join separator (piece :: (pieces ++ [last])) =
          piece ++ separator ++ join separator (pieces ++ [last]) := by
        cases pieces <;> simp [join, List.intercalate]
      rw [List.cons_append, hcons, ih]
      simp

/-! ## Blanks -/

/-- The code points of blanks. -/
def blankPoints : List Nat :=
  List.range' 9 5 ++ [0x20, 0x85, 0xA0, 0x1680] ++ List.range' 0x2000 11 ++
    [0x2028, 0x2029, 0x202F, 0x205F, 0x3000]

theorem toNat_mem_blankPoints {c : Char} (h : isBlank c = true) : c.toNat ∈ blankPoints := by
  have hspace : c = ' ' ↔ c.toNat = 0x20 := Char.toNat_inj.symm
  simp only [isBlank, Bool.or_eq_true, Bool.and_eq_true, decide_eq_true_eq, beq_iff_eq,
    hspace] at h
  simp only [blankPoints, List.mem_append, List.mem_range'_1, List.mem_cons, List.not_mem_nil,
    or_false]
  omega

/-- Characters of which one is of a kind and the other is not. -/
theorem ne_of_kind {p : Char → Bool} {c d : Char} (hc : p c = true) (hd : p d = false) :
    c ≠ d := by
  rintro rfl
  rw [hc] at hd
  cases hd

theorem cons_ne_of_kind {p : Char → Bool} {c d : Char} {text other : Text} (hc : p c = true)
    (hd : p d = false) : c :: text ≠ d :: other :=
  fun h => ne_of_kind hc hd (List.cons.inj h).1

/-! ## Beginnings -/

/-- What is taken from a text goes on as far as its characters are of one kind. -/
theorem takeWhile_append_of_head? {p : Char → Bool} {front rest : Text}
    (hfront : ∀ c ∈ front, p c = true) (hrest : ∀ c ∈ rest.head?, p c = false) :
    (front ++ rest).takeWhile p = front ∧ (front ++ rest).dropWhile p = rest := by
  have hnil : rest.takeWhile p = [] ∧ rest.dropWhile p = rest := by
    cases rest with
    | nil => exact ⟨rfl, rfl⟩
    | cons c rest => simp [hrest c rfl]
  rw [List.takeWhile_append_of_pos hfront, List.dropWhile_append_of_pos hfront, hnil.1, hnil.2,
    List.append_nil]
  exact ⟨rfl, rfl⟩

/-- What other characters stand around a text takes nothing from its end, and nothing more from its
beginning. -/
theorem dropWhile_isInfix {p : Char → Bool} {front : Text} (hfront : ∀ c ∈ front, p c = false)
    (text back : Text) : text.dropWhile p <:+: (front ++ text ++ back).dropWhile p := by
  cases front with
  | nil =>
      rw [List.nil_append, List.dropWhile_append]
      split
      · rename_i hnil
        rw [List.isEmpty_iff.mp hnil]
        exact List.nil_infix
      · exact (List.prefix_append _ back).isInfix
  | cons c front =>
      have hc : ¬p c = true := by
        simp [hfront c List.mem_cons_self]
      rw [List.append_assoc, List.cons_append, List.dropWhile_cons_of_neg hc]
      exact (List.dropWhile_suffix p).isInfix.trans ⟨c :: front, back, by simp⟩

/-! ## Tails -/

theorem exists_eq_dropTail_append (p : Char → Bool) (text : Text) :
    ∃ tail, text = dropTail p text ++ tail ∧ ∀ c ∈ tail, p c = true := by
  refine ⟨(text.reverse.takeWhile p).reverse, ?_, fun c hc => ?_⟩
  · rw [dropTail, ← List.reverse_append, List.takeWhile_append_dropWhile, List.reverse_reverse]
  · exact List.mem_takeWhile_imp (List.mem_reverse.mp hc)

theorem dropTail_isPrefix (p : Char → Bool) (text : Text) : dropTail p text <+: text := by
  obtain ⟨tail, htext, -⟩ := exists_eq_dropTail_append p text
  exact ⟨tail, htext.symm⟩

/-- Around a text that is taken from both ends there are only characters of the kind. -/
theorem exists_eq_append_dropTail (p : Char → Bool) (text : Text) : ∃ front back,
    text = front ++ dropTail p (text.dropWhile p) ++ back ∧ (∀ c ∈ front, p c = true) ∧
      ∀ c ∈ back, p c = true := by
  obtain ⟨back, hback, htail⟩ := exists_eq_dropTail_append p (text.dropWhile p)
  refine ⟨text.takeWhile p, back, ?_, fun c hc => List.mem_takeWhile_imp hc, htail⟩
  rw [List.append_assoc, ← hback, List.takeWhile_append_dropWhile]

theorem not_suffix_dropTail {p : Char → Bool} {c : Char} (hc : p c = true) (text : Text) :
    ¬[c] <:+ dropTail p text := by
  rintro ⟨front, hfront⟩
  have hlast := List.head?_dropWhile_not p text.reverse
  rw [dropTail, eq_comm, List.reverse_eq_iff] at hfront
  simp [hfront, hc] at hlast

theorem dropTail_append_cons {p : Char → Bool} (front : Text) {c : Char} (hc : p c = false)
    (back : Text) : dropTail p (front ++ c :: back) = front ++ c :: dropTail p back := by
  have hlast : (back.reverse ++ c :: front.reverse).dropWhile p =
      back.reverse.dropWhile p ++ c :: front.reverse := by
    rw [List.dropWhile_append]
    split
    · rename_i hnil
      rw [List.isEmpty_iff.mp hnil, List.dropWhile_cons_of_neg (by simp [hc]), List.nil_append]
    · rfl
  simp [dropTail, hlast]

/-- A text that ends otherwise keeps its tail. -/
theorem dropTail_concat {p : Char → Bool} (front : Text) {c : Char} (hc : p c = false) :
    dropTail p (front ++ [c]) = front ++ [c] :=
  dropTail_append_cons front hc []

theorem dropTail_append_of_forall {p : Char → Bool} {front tail : Text}
    (hfront : ∀ c ∈ front, p c = false) (htail : ∀ c ∈ tail, p c = true) :
    dropTail p (front ++ tail) = front := by
  have hnil : dropTail p tail = [] := by
    rw [dropTail, List.reverse_eq_nil_iff, List.dropWhile_eq_nil_iff]
    exact fun c hc => htail c (List.mem_reverse.mp hc)
  rcases List.eq_nil_or_concat' front with rfl | ⟨front, c, rfl⟩
  · exact hnil
  · rw [List.append_assoc, List.singleton_append,
      dropTail_append_cons front (hfront c (by simp)) tail, hnil]

theorem trimEnd_isPrefix (text : Text) : trimEnd text <+: text :=
  dropTail_isPrefix isBlank text

theorem trimEnd_append_cons (front : Text) {c : Char} (hc : isBlank c = false) (back : Text) :
    trimEnd (front ++ c :: back) = front ++ c :: trimEnd back :=
  dropTail_append_cons front hc back

/-- A text without blanks at its ends keeps its start when something follows it. -/
theorem trim_append_cons {front : Text} (hne : front ≠ []) (htrim : front.trim = front) {c : Char}
    (hc : isBlank c = false) (back : Text) :
    trim (front ++ c :: back) = front ++ c :: trimEnd back := by
  cases front with
  | nil => exact absurd rfl hne
  | cons d front =>
      have hd : ¬isBlank d = true := by
        intro hblank
        have hle : (trim (d :: front)).length ≤ front.length := by
          rw [trim, trimStart, List.dropWhile_cons_of_pos hblank]
          exact (trimEnd_isPrefix _).length_le.trans (List.dropWhile_suffix isBlank).length_le
        rw [htrim, List.length_cons] at hle
        omega
      rw [trim, trimStart, List.cons_append, List.dropWhile_cons_of_neg hd, ← List.cons_append,
        trimEnd_append_cons (d :: front) hc back]

/-! ## Occurrences -/

theorem contains_iff_infix {text word : Text} : text.contains word = true ↔ word <:+: text := by
  induction text with
  | nil => simp [contains, List.isPrefixOf_iff_prefix]
  | cons c text ih => simp [contains, List.infix_cons_iff, List.isPrefixOf_iff_prefix, ih]

theorem endsWith_iff_suffix {text word : Text} : text.endsWith word = true ↔ word <:+ text := by
  simp [endsWith, List.isPrefixOf_iff_prefix, List.reverse_prefix]

theorem after?_eq_some_iff {text word rest : Text} :
    after? text word = some rest ↔ text = word ++ rest := by
  unfold after? startsWith
  split
  · rename_i hword
    obtain ⟨back, rfl⟩ := List.isPrefixOf_iff_prefix.mp hword
    simp
  · rename_i hword
    rw [List.isPrefixOf_iff_prefix] at hword
    refine iff_of_false (by simp) ?_
    rintro rfl
    exact hword (List.prefix_append word rest)

theorem prefix_of_prefix_append_cons (front : Text) {word back : Text} {c : Char} (hc : c ∉ word)
    (h : word <+: front ++ c :: back) : word <+: front := by
  have hfront : front ++ [c] <+: front ++ c :: back := ⟨back, by simp⟩
  rcases List.prefix_or_prefix_of_prefix h hfront with hshort | hlong
  · rcases List.prefix_concat_iff.mp hshort with rfl | hshort
    · simp at hc
    · exact hshort
  · exact absurd (hlong.subset (by simp)) hc

/-- A word stands on one side of a character that it does not hold. -/
theorem infix_or_infix_of_append_cons {word front back : Text} {c : Char} (hc : c ∉ word)
    (h : word <:+: front ++ c :: back) : word <:+: front ∨ word <:+: back := by
  induction front with
  | nil =>
      rcases List.infix_cons_iff.mp h with hprefix | hinfix
      · exact .inl (prefix_of_prefix_append_cons [] hc hprefix).isInfix
      · exact .inr hinfix
  | cons d front ih =>
      rcases List.infix_cons_iff.mp h with hprefix | hinfix
      · exact .inl (prefix_of_prefix_append_cons (d :: front) hc hprefix).isInfix
      · exact (ih hinfix).imp_left List.infix_cons

/-- A word stands behind what holds none of its characters. -/
theorem infix_of_infix_append {word front rest : Text} (hne : word ≠ []) (h : ∀ c ∈ word, c ∉ front)
    (hword : word <:+: front ++ rest) : word <:+: rest := by
  induction front with
  | nil => exact hword
  | cons d front ih =>
      refine ih (fun c hc hm => h c hc (List.mem_cons_of_mem d hm)) ?_
      refine (List.infix_cons_iff.mp hword).resolve_left fun hprefix => ?_
      obtain ⟨c, word, rfl⟩ := List.exists_cons_of_ne_nil hne
      obtain ⟨rfl, -⟩ := List.cons_prefix_cons.mp hprefix
      exact h c List.mem_cons_self List.mem_cons_self

/-- A word does not occur where its first character is missing. -/
theorem occurrencesFrom_of_not_mem {c : Char} (word : Text) {text : Text} (hc : c ∉ text)
    (skip found : Nat) : occurrencesFrom (c :: word) skip text found = found := by
  induction text generalizing skip found with
  | nil => cases skip <;> rfl
  | cons d text ih =>
      obtain ⟨hne, hrest⟩ := List.ne_and_not_mem_of_not_mem_cons hc
      cases skip with
      | succ skip => exact ih hrest skip found
      | zero =>
          have hfirst : (c :: word).isPrefixOf (d :: text) = false := by
            simp [List.isPrefixOf, hne]
          simp only [occurrencesFrom, hfirst, Bool.false_eq_true, if_false]
          exact ih hrest 0 found

theorem occurrences_of_not_mem {c : Char} (word : Text) {text : Text} (hc : c ∉ text) :
    text.occurrences (c :: word) = 0 :=
  occurrencesFrom_of_not_mem word hc 0 0

end CodeAtlas.Text
