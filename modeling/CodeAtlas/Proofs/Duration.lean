import CodeAtlas.Duration
import CodeAtlas.Proofs.Text.Spacing
import Mathlib.Algebra.BigOperators.Group.List.Basic
import Mathlib.Algebra.GroupWithZero.Nat

/-! Written lengths of time. A text is read exactly if it is a number, which may stand behind a plus
sign, or a row of segments whose length fits. The segments may stand in any order, and their length
is the sum of their lengths, with nothing lost. -/

namespace CodeAtlas.Duration

/-! ## Numbers -/

/-- A written number that fits into a word. -/
structure Numeral where
  digits : Text
  ne_nil : digits ≠ []
  isDigit : digits.all Char.isDigit = true
  fits : digitsValue digits < wordLimit

theorem digitsValue_toDigits (n : Nat) : digitsValue (Nat.toDigits 10 n) = n := by
  have h : Nat.ofDigitChars 10 (Nat.toDigits 10 n) 0 = n :=
    Nat.ofDigitChars_toDigits (by decide) (by decide)
  rw [Nat.ofDigitChars_eq_foldl] at h
  simpa [digitsValue, Nat.mul_comm] using h

namespace Numeral

variable (number : Numeral)

def value : Nat := digitsValue number.digits

/-- The numeral of a number, with no zeros in front. -/
def ofNat (n : Nat) (h : n < wordLimit) : Numeral where
  digits := Nat.toDigits 10 n
  ne_nil := Nat.toDigits_ne_nil
  isDigit := List.all_eq_true.mpr fun _ hc => Nat.isDigit_of_mem_toDigits (by decide) (by decide) hc
  fits := by rwa [digitsValue_toDigits]

@[simp] theorem value_ofNat (n : Nat) (h : n < wordLimit) : (ofNat n h).value = n :=
  digitsValue_toDigits n

theorem exists_eq_cons : ∃ c rest, number.digits = c :: rest ∧ c.isDigit = true := by
  obtain ⟨c, rest, hdigits⟩ := List.exists_cons_of_ne_nil number.ne_nil
  have hall := number.isDigit
  rw [hdigits, List.all_cons, Bool.and_eq_true] at hall
  exact ⟨c, rest, hdigits, hall.1⟩

end Numeral

/-- A text of digits alone. -/
theorem word?_of_head?_ne {text : Text} (h : text.head? ≠ some '+') : word? text =
    if text.isEmpty || !text.all Char.isDigit then none
    else if digitsValue text < wordLimit then some (digitsValue text) else none := by
  unfold word?
  split
  · simp at h
  · rfl

theorem word?_plus (rest : Text) : word? ('+' :: rest) =
    if rest.isEmpty || !rest.all Char.isDigit then none
    else if digitsValue rest < wordLimit then some (digitsValue rest) else none := rfl

theorem digits_eq_some_iff {digits : Text} {n : Nat} :
    (if digits.isEmpty || !digits.all Char.isDigit then none
      else if digitsValue digits < wordLimit then some (digitsValue digits) else none) = some n ↔
    ∃ number : Numeral, digits = number.digits ∧ number.value = n := by
  constructor
  · intro h
    split at h
    · cases h
    · rename_i hdigits
      split at h
      · rename_i hfits
        simp only [Bool.or_eq_true, List.isEmpty_iff, Bool.not_eq_true', not_or,
          Bool.not_eq_false] at hdigits
        exact ⟨⟨digits, hdigits.1, hdigits.2, hfits⟩, rfl, Option.some.inj h⟩
      · cases h
  · rintro ⟨number, rfl, rfl⟩
    rw [if_neg (by simp [number.ne_nil, number.isDigit]), if_pos number.fits]
    rfl

theorem word?_eq_some_iff {text : Text} {n : Nat} : word? text = some n ↔
    ∃ number : Numeral, (text = number.digits ∨ text = '+' :: number.digits) ∧
      number.value = n := by
  by_cases hplus : text.head? = some '+'
  · obtain ⟨rest, rfl⟩ := List.head?_eq_some_iff.mp hplus
    rw [word?_plus, digits_eq_some_iff]
    refine exists_congr fun number => and_congr_left fun _ => ?_
    obtain ⟨c, digits, hdigits, hc⟩ := number.exists_eq_cons
    have hne : '+' :: rest ≠ number.digits := by
      rw [hdigits]
      rintro heq
      obtain ⟨rfl, -⟩ := List.cons.inj heq
      exact absurd hc (by decide)
    simp [hne]
  · rw [word?_of_head?_ne hplus, digits_eq_some_iff]
    refine exists_congr fun number => and_congr_left fun _ => ?_
    have hne : text ≠ '+' :: number.digits := by
      rintro rfl
      exact hplus rfl
    simp [hne]

/-! ## Units -/

theorem TimeUnit.ofSpelling?_eq_some_iff {word : String} {unit : TimeUnit} :
    TimeUnit.ofSpelling? word = some unit ↔ word ∈ unit.spellings := by
  have hspelled : ∀ word ∈ unit.spellings, TimeUnit.ofSpelling? word = some unit := by
    cases unit <;> decide
  refine ⟨fun h => ?_, hspelled word⟩
  simpa using List.find?_some h

theorem isLetter_of_toLower {c : Char} (h : isLetter c.toLower = true) : isLetter c = true := by
  by_cases hcapital : c.val ≥ 'A'.val ∧ c.val ≤ 'Z'.val
  · rw [isLetter, Bool.or_eq_true, Bool.and_eq_true, Bool.and_eq_true]
    exact .inr ⟨decide_eq_true hcapital.1, decide_eq_true hcapital.2⟩
  · have hsame : c.toLower = c := dif_neg hcapital
    rwa [hsame] at h

/-! ## Segments -/

/-- A number and a unit, which may be written in letters of either case. -/
structure Segment where
  number : Numeral
  unit : TimeUnit
  word : Text
  spells : String.ofList (word.map Char.toLower) ∈ unit.spellings

namespace Segment

variable (part : Segment)

def text : Text := part.number.digits ++ part.word

/-- The length of the segment in milliseconds. -/
def millis : Nat := part.number.value * part.unit.millis

theorem isLetter_of_mem {c : Char} (hc : c ∈ part.word) : isLetter c = true := by
  have hletters : ∀ unit : TimeUnit, ∀ spelling ∈ unit.spellings,
      spelling.toList.all isLetter = true := by
    intro unit
    cases unit <;> decide
  have hall := hletters part.unit _ part.spells
  rw [String.toList_ofList, List.all_map, List.all_eq_true] at hall
  exact isLetter_of_toLower (hall c hc)

theorem word_ne_nil : part.word ≠ [] := by
  intro hnil
  have hempty : ∀ unit : TimeUnit, "" ∉ unit.spellings := by
    intro unit
    cases unit <;> decide
  have hspells := part.spells
  rw [hnil] at hspells
  exact hempty part.unit hspells

theorem length_text_pos : 0 < part.text.length := by
  rw [text, List.length_append]
  exact Nat.add_pos_left (List.length_pos_iff.mpr part.number.ne_nil) _

end Segment

/-- The text of segments in a row. -/
def spelled (parts : List Segment) : Text := parts.flatMap Segment.text

/-- The length of segments in milliseconds. -/
def total (parts : List Segment) : Nat := (parts.map Segment.millis).sum

@[simp] theorem spelled_cons (part : Segment) (parts : List Segment) :
    spelled (part :: parts) = part.text ++ spelled parts := rfl

@[simp] theorem total_cons (part : Segment) (parts : List Segment) :
    total (part :: parts) = part.millis + total parts := rfl

theorem isDigit_eq_false_of_isLetter {c : Char} (h : isLetter c = true) : c.isDigit = false := by
  simp only [isLetter, Bool.or_eq_true, Bool.and_eq_true, decide_eq_true_eq, Char.le_def,
    UInt32.le_iff_toNat_le] at h
  simp only [Char.isDigit, Bool.and_eq_false_iff, decide_eq_false_iff_not, ge_iff_le,
    UInt32.le_iff_toNat_le]
  have ha : 'a'.val.toNat = 97 := rfl
  have hA : 'A'.val.toNat = 65 := rfl
  have h9 : '9'.val.toNat = 57 := rfl
  omega

/-- Segments start with a digit. -/
theorem isDigit_of_mem_head?_spelled {parts : List Segment} {c : Char}
    (hc : c ∈ (spelled parts).head?) : c.isDigit = true := by
  cases parts with
  | nil => cases hc
  | cons part parts =>
      obtain ⟨d, rest, hdigits, hd⟩ := part.number.exists_eq_cons
      simp only [spelled_cons, Segment.text, hdigits, List.cons_append, List.head?_cons,
        Option.mem_def, Option.some.injEq] at hc
      rwa [← hc]

/-! ## Reading segments -/

theorem addSegment_eq (sum value : Nat) (unit : TimeUnit) : addSegment sum value unit =
    if sum + value * unit.millis < wordLimit * 1000 then .ok (sum + value * unit.millis)
    else .error .outOfRange := by
  unfold addSegment
  split
  · rename_i hlarge
    rw [if_neg]
    omega
  · split
    · rename_i hlarge
      rw [if_neg (Nat.not_lt.mpr hlarge)]
    · rename_i hfits
      rw [if_pos (Nat.lt_of_not_le hfits)]

/-- A segment is read up to its last letter. -/
theorem segment_append (sum : Nat) (part : Segment) {rest : Text}
    (hrest : ∀ c ∈ rest.head?, isLetter c = false) : segment sum (part.text ++ rest) =
      if sum + part.millis < wordLimit * 1000 then .ok (sum + part.millis, rest)
      else .error .outOfRange := by
  have hword : ∀ c ∈ (part.word ++ rest).head?, c.isDigit = false := by
    intro c hc
    rw [List.head?_append_of_ne_nil _ part.word_ne_nil] at hc
    exact isDigit_eq_false_of_isLetter (part.isLetter_of_mem (List.mem_of_mem_head? hc))
  obtain ⟨hdigits, hletters⟩ :=
    Text.takeWhile_append_of_head? (List.all_eq_true.mp part.number.isDigit) hword
  obtain ⟨htake, hdrop⟩ :=
    Text.takeWhile_append_of_head? (fun c hc => part.isLetter_of_mem hc) hrest
  have hunit := TimeUnit.ofSpelling?_eq_some_iff.mpr part.spells
  rw [Segment.text, List.append_assoc, segment]
  simp only [hdigits, hletters, htake, hdrop, hunit, List.isEmpty_iff, part.number.ne_nil,
    if_false, Nat.not_le.mpr part.number.fits, addSegment_eq]
  rw [Segment.millis, Numeral.value]
  split <;> rfl

/-- What is read as a segment is one. -/
theorem exists_of_segment {sum next : Nat} {text rest : Text}
    (h : segment sum text = .ok (next, rest)) : ∃ part : Segment, text = part.text ++ rest ∧
      next = sum + part.millis ∧ next < wordLimit * 1000 := by
  simp only [segment] at h
  split at h
  · cases h
  · rename_i hne
    split at h
    · cases h
    · rename_i hfits
      split at h
      · cases h
      · rename_i unit hunit
        let part : Segment :=
          { number := ⟨text.takeWhile Char.isDigit, by simpa using hne, List.all_takeWhile,
              Nat.lt_of_not_le hfits⟩
            unit := unit
            word := (text.dropWhile Char.isDigit).takeWhile isLetter
            spells := TimeUnit.ofSpelling?_eq_some_iff.mp hunit }
        have htext : text = part.text ++ (text.dropWhile Char.isDigit).dropWhile isLetter := by
          rw [Segment.text, List.append_assoc, List.takeWhile_append_dropWhile,
            List.takeWhile_append_dropWhile]
        rw [addSegment_eq] at h
        split at h
        · rename_i hsum
          obtain ⟨rfl, rfl⟩ := Prod.mk.inj (Except.ok.inj h)
          exact ⟨part, htext, rfl, hsum⟩
        · cases h

theorem segments_succ (steps sum : Nat) {text : Text} (hne : text ≠ []) :
    segments (steps + 1) sum text =
      match segment sum text with
      | .error e => .error e
      | .ok (sum, rest) => segments steps sum rest := by
  obtain ⟨c, rest, rfl⟩ := List.exists_cons_of_ne_nil hne
  rfl

/-- Segments are read to the end of the text, unless their length grows too large on the way. -/
theorem segments_spelled (parts : List Segment) {steps sum : Nat}
    (hsteps : (spelled parts).length ≤ steps) (hsum : sum < wordLimit * 1000) :
    segments steps sum (spelled parts) =
      if sum + total parts < wordLimit * 1000 then .ok (sum + total parts)
      else .error .outOfRange := by
  induction parts generalizing steps sum with
  | nil =>
      have hnil : segments steps sum [] = .ok sum := by cases steps <;> rfl
      exact hnil.trans (if_pos hsum).symm
  | cons part parts ih =>
      have hpos := part.length_text_pos
      have hrest : ∀ c ∈ (spelled parts).head?, isLetter c = false := by
        intro c hc
        rw [Bool.eq_false_iff]
        intro hletter
        have hdigit := isDigit_of_mem_head?_spelled hc
        rw [isDigit_eq_false_of_isLetter hletter] at hdigit
        cases hdigit
      rw [spelled_cons, List.length_append] at hsteps
      cases steps with
      | zero => omega
      | succ steps =>
          have hne : part.text ++ spelled parts ≠ [] :=
            List.append_ne_nil_of_left_ne_nil (List.ne_nil_of_length_pos hpos) _
          rw [spelled_cons, total_cons, segments_succ steps sum hne, segment_append sum part hrest]
          by_cases hfits : sum + part.millis < wordLimit * 1000
          · rw [if_pos hfits, ← Nat.add_assoc]
            exact ih (by omega) hfits
          · rw [if_neg hfits, if_neg (by omega)]

/-- What is read as segments is some. -/
theorem exists_of_segments {steps sum length : Nat} {text : Text} (hsteps : text.length ≤ steps)
    (hsum : sum < wordLimit * 1000) (h : segments steps sum text = .ok length) :
    ∃ parts : List Segment, text = spelled parts ∧ length = sum + total parts ∧
      length < wordLimit * 1000 := by
  induction steps generalizing sum text with
  | zero =>
      obtain rfl := List.length_eq_zero_iff.mp (Nat.le_zero.mp hsteps)
      exact ⟨[], rfl, (Except.ok.inj h).symm, Except.ok.inj h ▸ hsum⟩
  | succ steps ih =>
      by_cases hne : text = []
      · subst hne
        exact ⟨[], rfl, (Except.ok.inj h).symm, Except.ok.inj h ▸ hsum⟩
      · rw [segments_succ steps sum hne] at h
        split at h
        · cases h
        · rename_i next rest hsegment
          obtain ⟨part, rfl, rfl, hnext⟩ := exists_of_segment hsegment
          have hpos := part.length_text_pos
          rw [List.length_append] at hsteps
          obtain ⟨parts, rfl, hlength, hfits⟩ := ih (by omega) hnext h
          exact ⟨part :: parts, rfl, by rw [hlength, total_cons, Nat.add_assoc], hfits⟩

/-! ## Reading -/

theorem isBlank_eq_false {c : Char} (h : c.isDigit = true ∨ isLetter c = true) :
    Text.isBlank c = false := by
  rw [Bool.eq_false_iff]
  intro hblank
  have hpoint := Text.toNat_mem_blankPoints hblank
  have hnone : ∀ point ∈ Text.blankPoints,
      (Char.ofNat point).isDigit = false ∧ isLetter (Char.ofNat point) = false := by
    decide
  obtain ⟨hdigit, hletter⟩ := hnone _ hpoint
  rw [Char.ofNat_toNat] at hdigit hletter
  rcases h with h | h
  · rw [hdigit] at h
    cases h
  · rw [hletter] at h
    cases h

theorem Segment.isBlank_of_mem (part : Segment) {c : Char} (hc : c ∈ part.text) :
    Text.isBlank c = false :=
  isBlank_eq_false ((List.mem_append.mp hc).imp (List.all_eq_true.mp part.number.isDigit c)
    part.isLetter_of_mem)

theorem trim_spelled (parts : List Segment) : Text.trim (spelled parts) = spelled parts := by
  refine Text.trim_eq_self fun c hc => ?_
  obtain ⟨part, -, hc⟩ := List.mem_flatMap.mp hc
  exact part.isBlank_of_mem hc

/-- Segments are not read as a number. -/
theorem word?_spelled {parts : List Segment} (hne : parts ≠ []) : word? (spelled parts) = none := by
  rw [Option.eq_none_iff_forall_ne_some]
  intro n hword
  obtain ⟨number, hnumber, -⟩ := word?_eq_some_iff.mp hword
  obtain ⟨part, parts, rfl⟩ := List.exists_cons_of_ne_nil hne
  rcases hnumber with hdigits | hplus
  · obtain ⟨c, hc⟩ := List.exists_mem_of_ne_nil _ part.word_ne_nil
    have hmem : c ∈ spelled (part :: parts) :=
      List.mem_append_left _ (List.mem_append_right _ hc)
    rw [hdigits] at hmem
    have hdigit := List.all_eq_true.mp number.isDigit c hmem
    rw [isDigit_eq_false_of_isLetter (part.isLetter_of_mem hc)] at hdigit
    cases hdigit
  · have hhead : '+' ∈ (spelled (part :: parts)).head? := by simp [hplus]
    exact absurd (isDigit_of_mem_head?_spelled hhead) (by decide)

theorem seconds_ofMillis_lt_iff {n : Nat} :
    (ofMillis n).seconds < wordLimit ↔ n < wordLimit * 1000 := by
  simp only [ofMillis, seconds]
  omega

/-- Segments are read as the length of all of them. -/
theorem read_spelled {parts : List Segment} (hne : parts ≠ []) :
    read (String.ofList (spelled parts)) =
      if (ofMillis (total parts)).seconds < wordLimit then .ok (ofMillis (total parts))
      else .error .outOfRange := by
  have hpos : spelled parts ≠ [] := by
    obtain ⟨part, parts, rfl⟩ := List.exists_cons_of_ne_nil hne
    exact List.append_ne_nil_of_left_ne_nil (List.ne_nil_of_length_pos part.length_text_pos) _
  simp only [read, String.toList_ofList, trim_spelled, List.isEmpty_iff, hpos, if_false,
    word?_spelled hne, segments_spelled parts (Nat.le_refl _) (by decide : 0 < wordLimit * 1000),
    Nat.zero_add, seconds_ofMillis_lt_iff]
  split <;> rfl

/-- Blanks around a text are passed over. -/
theorem read_congr {a b : String} (h : Text.trim a.toList = Text.trim b.toList) :
    read a = read b := by
  simp only [read, h]

/-- What is read is a number or some segments. -/
theorem read_eq_ok_iff {input : String} {d : Duration} : read input = .ok d ↔
    (∃ number : Numeral, (Text.trim input.toList = number.digits ∨
      Text.trim input.toList = '+' :: number.digits) ∧ d = ofSeconds number.value) ∨
    ∃ parts : List Segment, parts ≠ [] ∧ Text.trim input.toList = spelled parts ∧
      (ofMillis (total parts)).seconds < wordLimit ∧ d = ofMillis (total parts) := by
  constructor
  · intro h
    simp only [read] at h
    split at h
    · cases h
    · rename_i hne
      split at h
      · rename_i n hword
        obtain ⟨number, hnumber, rfl⟩ := word?_eq_some_iff.mp hword
        exact .inl ⟨number, hnumber, (Except.ok.inj h).symm⟩
      · cases hsegments : segments (Text.trim input.toList).length 0 (Text.trim input.toList) with
        | error e =>
            rw [hsegments] at h
            cases h
        | ok length =>
            rw [hsegments] at h
            obtain ⟨parts, hparts, rfl, hfits⟩ :=
              exists_of_segments (Nat.le_refl _) (by decide) hsegments
            rw [Nat.zero_add] at h hfits
            refine .inr ⟨parts, ?_, hparts, seconds_ofMillis_lt_iff.mpr hfits,
              (Except.ok.inj h).symm⟩
            rintro rfl
            exact hne (by rw [hparts]; rfl)
  · rintro (⟨number, hnumber, rfl⟩ | ⟨parts, hne, hparts, hfits, rfl⟩)
    · have hword := word?_eq_some_iff.mpr ⟨number, hnumber, rfl⟩
      have hpos : Text.trim input.toList ≠ [] := by
        rcases hnumber with hdigits | hplus
        · rw [hdigits]
          exact number.ne_nil
        · simp [hplus]
      simp [read, hword, hpos]
    · have hread : read input = read (String.ofList (spelled parts)) := by
        refine read_congr ?_
        rw [String.toList_ofList, trim_spelled, hparts]
      rw [hread, read_spelled hne, if_pos hfits]

/-- A number of seconds, or segments with units whose length fits. -/
def IsWritten (text : Text) : Prop :=
  (∃ number : Numeral, text = number.digits) ∨
    ∃ parts : List Segment, parts ≠ [] ∧ text = spelled parts ∧
      (ofMillis (total parts)).seconds < wordLimit

/-- A number of seconds behind a plus sign. -/
def IsSigned (text : Text) : Prop := ∃ number : Numeral, text = '+' :: number.digits

/-- Written lengths start with a digit. -/
theorem IsWritten.isDigit_of_mem_head? {text : Text} (h : IsWritten text) {c : Char}
    (hc : c ∈ text.head?) : c.isDigit = true := by
  rcases h with ⟨number, rfl⟩ | ⟨parts, -, rfl, -⟩
  · exact List.all_eq_true.mp number.isDigit c (List.mem_of_mem_head? hc)
  · exact isDigit_of_mem_head?_spelled hc

theorem IsWritten.not_isSigned {text : Text} (h : IsWritten text) : ¬IsSigned text := by
  rintro ⟨number, rfl⟩
  exact absurd (h.isDigit_of_mem_head? rfl) (by decide)

/-- A text is read exactly if it is written as a length, or is a number behind a plus sign, which is
no written length. -/
theorem exists_read_iff (input : String) :
    ((∃ d, read input = .ok d) ↔
      IsWritten (Text.trim input.toList) ∨ IsSigned (Text.trim input.toList)) ∧
    ¬(IsWritten (Text.trim input.toList) ∧ IsSigned (Text.trim input.toList)) := by
  refine ⟨?_, fun h => h.1.not_isSigned h.2⟩
  constructor
  · rintro ⟨d, hread⟩
    rcases read_eq_ok_iff.mp hread with ⟨number, hnumber, -⟩ | ⟨parts, hne, hparts, hfits, -⟩
    · rcases hnumber with hdigits | hplus
      · exact .inl (.inl ⟨number, hdigits⟩)
      · exact .inr ⟨number, hplus⟩
    · exact .inl (.inr ⟨parts, hne, hparts, hfits⟩)
  · rintro ((⟨number, hdigits⟩ | ⟨parts, hne, hparts, hfits⟩) | ⟨number, hplus⟩)
    · exact ⟨_, read_eq_ok_iff.mpr (.inl ⟨number, .inl hdigits, rfl⟩)⟩
    · exact ⟨_, read_eq_ok_iff.mpr (.inr ⟨parts, hne, hparts, hfits, rfl⟩)⟩
    · exact ⟨_, read_eq_ok_iff.mpr (.inl ⟨number, .inr hplus, rfl⟩)⟩

/-- A sign in front of a number is taken, though one in front of a segment is not. -/
theorem plus_five_read : read "+5" = .ok (ofSeconds 5) ∧
    ¬IsWritten (Text.trim "+5".toList) ∧ read "+5s" = .error .expectedNumber := by
  refine ⟨by decide +kernel, fun h => ?_, by decide +kernel⟩
  exact absurd (h.isDigit_of_mem_head? (c := '+') rfl) (by decide)

/-! ## Sums -/

/-- The sum of two lengths, if it fits. -/
def checkedAdd (d e : Duration) : Except ReadError Duration :=
  let sum : Duration := ⟨d.nanoseconds + e.nanoseconds⟩
  if sum.seconds < wordLimit then .ok sum else .error .outOfRange

/-- The sum of lengths that are read apart. -/
def checkedSum : List (Except ReadError Duration) → Except ReadError Duration
  | [] => .ok ⟨0⟩
  | first :: rest => do
    let d ← first
    let sum ← checkedSum rest
    checkedAdd d sum

theorem checkedSum_cons {first : Except ReadError Duration}
    {rest : List (Except ReadError Duration)} {d sum : Duration} (hfirst : first = .ok d)
    (hrest : checkedSum rest = .ok sum) :
    checkedSum (first :: rest) = checkedAdd d sum := by
  rw [checkedSum, hfirst, hrest]
  rfl

theorem checkedAdd_ofMillis (m n : Nat) : checkedAdd (ofMillis m) (ofMillis n) =
    if (ofMillis (m + n)).seconds < wordLimit then .ok (ofMillis (m + n))
    else .error .outOfRange := by
  have hsum : (⟨(ofMillis m).nanoseconds + (ofMillis n).nanoseconds⟩ : Duration) =
      ofMillis (m + n) := by
    simp only [ofMillis, Nat.add_mul]
  rw [checkedAdd, hsum]

/-- Segments that are read apart add up as long as their length fits. -/
theorem checkedSum_read (parts : List Segment) :
    checkedSum (parts.map fun part => read (String.ofList part.text)) =
      if (ofMillis (total parts)).seconds < wordLimit then .ok (ofMillis (total parts))
      else .error .outOfRange := by
  induction parts with
  | nil =>
      have hzero : (ofMillis (total [])).seconds < wordLimit := by decide
      rw [if_pos hzero]
      rfl
  | cons part parts ih =>
      have halone : read (String.ofList part.text) =
          if (ofMillis part.millis).seconds < wordLimit then .ok (ofMillis part.millis)
          else .error .outOfRange := by
        have hread := read_spelled (List.cons_ne_nil part [])
        simpa [spelled, total] using hread
      have hmono : ∀ {m n : Nat}, m ≤ n → (ofMillis n).seconds < wordLimit →
          (ofMillis m).seconds < wordLimit := by
        intro m n hle hn
        rw [seconds_ofMillis_lt_iff] at hn ⊢
        exact Nat.lt_of_le_of_lt hle hn
      rw [List.map_cons, total_cons]
      -- the whole is too long as soon as a part of it is
      by_cases hpart : (ofMillis part.millis).seconds < wordLimit
      · rw [if_pos hpart] at halone
        by_cases hparts : (ofMillis (total parts)).seconds < wordLimit
        · rw [if_pos hparts] at ih
          rw [checkedSum_cons halone ih, checkedAdd_ofMillis]
        · rw [if_neg hparts] at ih
          rw [checkedSum, halone, ih, if_neg fun h => hparts (hmono (Nat.le_add_left _ _) h)]
          rfl
      · rw [if_neg hpart] at halone
        rw [checkedSum, halone, if_neg fun h => hpart (hmono (Nat.le_add_right _ _) h)]
        rfl

/-- Segments are read as the length of all of them, or as too long, in whatever order they stand,
and the same as when each is read apart. -/
theorem read_segments {parts : List Segment} (hne : parts ≠ []) :
    read (String.ofList (spelled parts)) =
      (if (ofMillis (total parts)).seconds < wordLimit then .ok (ofMillis (total parts))
      else .error .outOfRange) ∧
    (∀ others : List Segment, parts.Perm others →
      read (String.ofList (spelled others)) = read (String.ofList (spelled parts))) ∧
    read (String.ofList (spelled parts)) =
      checkedSum (parts.map fun part => read (String.ofList part.text)) := by
  refine ⟨read_spelled hne, fun others hperm => ?_, ?_⟩
  · have hothers : others ≠ [] := by
      rintro rfl
      exact hne hperm.eq_nil
    have htotal : total others = total parts := (hperm.map Segment.millis).sum_eq.symm
    rw [read_spelled hne, read_spelled hothers, htotal]
  · rw [read_spelled hne, checkedSum_read]

/-- An hour, some minutes and half a second, in letters of either case. -/
def mixedParts : List Segment :=
  [⟨.ofNat 1 (by decide), .hour, "H".toList, by decide⟩,
    ⟨.ofNat 30 (by decide), .minute, "Mins".toList, by decide⟩,
    ⟨.ofNat 500 (by decide), .millisecond, "ms".toList, by decide⟩]

theorem mixedParts_read : mixedParts ≠ [] ∧ spelled mixedParts = "1H30Mins500ms".toList ∧
    read "1H30Mins500ms" = .ok ⟨5400500000000⟩ := by
  have hne : mixedParts ≠ [] := List.cons_ne_nil _ _
  have hspelled : spelled mixedParts = "1H30Mins500ms".toList := by decide +kernel
  have hread := (read_segments hne).1
  rw [hspelled, String.ofList_toList, if_pos (by decide +kernel)] at hread
  exact ⟨hne, hspelled, hread.trans (by decide +kernel)⟩

end CodeAtlas.Duration
