import CodeAtlas.Text.Utf8

/-! UTF-8. What is written is read again, and bytes without an error are those of a text. Bytes of
ASCII are characters of their own wherever they stand, also among bytes that hold errors. -/

namespace CodeAtlas.Utf8

/-! ## Bytes of one character -/

theorem isTail_iff (b : UInt8) : isTail b = true ↔ 0x80 ≤ b.toNat ∧ b.toNat ≤ 0xBF := by
  simp [isTail, UInt8.le_iff_toNat_le]

/-- A range of bytes that is narrowed from below after one first byte and from above after
another. -/
theorem narrowed_iff {low high least most : UInt8} (hne : low ≠ high) (hleast : 0x80 ≤ least)
    (hmost : most ≤ 0xBF) (first second : UInt8) :
    (if first = low then decide (least ≤ second) && decide (second ≤ 0xBF)
      else if first = high then decide (0x80 ≤ second) && decide (second ≤ most)
      else isTail second) = true ↔
    (0x80 ≤ second.toNat ∧ second.toNat ≤ 0xBF) ∧
      (first.toNat = low.toNat → least.toNat ≤ second.toNat) ∧
      (first.toNat = high.toNat → second.toNat ≤ most.toNat) := by
  simp only [UInt8.le_iff_toNat_le, UInt8.reduceToNat] at hleast hmost ⊢
  rw [UInt8.toNat_inj, UInt8.toNat_inj]
  by_cases hlow : first = low
  · subst hlow
    simp only [if_true, Bool.and_eq_true, decide_eq_true_eq, hne, false_implies, forall_const,
      and_true]
    omega
  · by_cases hhigh : first = high
    · subst hhigh
      simp only [hlow, if_false, if_true, Bool.and_eq_true, decide_eq_true_eq, false_implies,
        forall_const, true_and]
      omega
    · simp [isTail_iff, hlow, hhigh]

theorem secondOfThree_iff (first second : UInt8) : secondOfThree first second = true ↔
    (0x80 ≤ second.toNat ∧ second.toNat ≤ 0xBF) ∧
      (first.toNat = 0xE0 → 0xA0 ≤ second.toNat) ∧ (first.toNat = 0xED → second.toNat ≤ 0x9F) :=
  narrowed_iff (by decide) (by decide) (by decide) first second

theorem secondOfFour_iff (first second : UInt8) : secondOfFour first second = true ↔
    (0x80 ≤ second.toNat ∧ second.toNat ≤ 0xBF) ∧
      (first.toNat = 0xF0 → 0x90 ≤ second.toNat) ∧ (first.toNat = 0xF4 → second.toNat ≤ 0x8F) :=
  narrowed_iff (by decide) (by decide) (by decide) first second

/-- The ways in which bytes spell a code point. -/
inductive Spells : Bytes → Nat → Prop
  | one {a : UInt8} {n : Nat} (ha : a.toNat < 0x80) (hn : n = a.toNat) : Spells [a] n
  | two {a b : UInt8} {n : Nat} (ha : 0xC2 ≤ a.toNat ∧ a.toNat ≤ 0xDF) (hb : isTail b = true)
    (hn : n = (a.toNat - 0xC0) * 64 + payload b) : Spells [a, b] n
  | three {a b c : UInt8} {n : Nat} (ha : 0xE0 ≤ a.toNat ∧ a.toNat ≤ 0xEF)
    (hb : secondOfThree a b = true) (hc : isTail c = true)
    (hn : n = (a.toNat - 0xE0) * 4096 + payload b * 64 + payload c) : Spells [a, b, c] n
  | four {a b c d : UInt8} {n : Nat} (ha : 0xF0 ≤ a.toNat ∧ a.toNat ≤ 0xF4)
    (hb : secondOfFour a b = true) (hc : isTail c = true) (hd : isTail d = true)
    (hn : n = (a.toNat - 0xF0) * 262144 + payload b * 4096 + payload c * 64 + payload d) :
    Spells [a, b, c, d] n

/-- A character is read where bytes spell it. -/
theorem head_of_spells {b : UInt8} {tail : Bytes} {n : Nat} (h : Spells (b :: tail) n)
    (rest : Bytes) : head b (tail ++ rest) = .character (Char.ofNat n) (tail.length + 1) := by
  cases h with
  | one ha hn => simp [head, UInt8.lt_iff_toNat_lt, ha, hn]
  | two ha hb hn =>
      have hone : ¬b.toNat < 0x80 := by omega
      simp [head, UInt8.lt_iff_toNat_lt, UInt8.le_iff_toNat_le, ha, hb, hn, hone]
  | three ha hb hc hn =>
      have hone : ¬b.toNat < 0x80 := by omega
      have htwo : ¬b.toNat ≤ 0xDF := by omega
      simp [head, UInt8.lt_iff_toNat_lt, UInt8.le_iff_toNat_le, ha, hb, hc, hn, hone, htwo]
  | four ha hb hc hd hn =>
      have hone : ¬b.toNat < 0x80 := by omega
      have htwo : ¬b.toNat ≤ 0xDF := by omega
      have hthree : ¬b.toNat ≤ 0xEF := by omega
      simp [head, UInt8.lt_iff_toNat_lt, UInt8.le_iff_toNat_le, ha, hb, hc, hd, hn, hone, htwo,
        hthree]

theorem spells_of_head {b : UInt8} {rest : Bytes} {c : Char} {width : Nat}
    (h : head b rest = .character c width) : ∃ tail after n, rest = tail ++ after ∧
      Spells (b :: tail) n ∧ c = Char.ofNat n ∧ width = tail.length + 1 := by
  revert h
  fun_cases head b rest with
  | case1 rest ha =>
      intro h
      obtain ⟨rfl, rfl⟩ := Head.character.inj h
      exact ⟨[], rest, _, rfl, .one (by simpa [UInt8.lt_iff_toNat_lt] using ha) rfl, rfl, rfl⟩
  | case2 _ ha x after hx =>
      intro h
      obtain ⟨rfl, rfl⟩ := Head.character.inj h
      refine ⟨[x], after, _, rfl, .two ?_ hx rfl, rfl, rfl⟩
      simpa [UInt8.le_iff_toNat_le] using ha
  | case5 _ _ ha x hx y after hy =>
      intro h
      obtain ⟨rfl, rfl⟩ := Head.character.inj h
      refine ⟨[x, y], after, _, rfl, .three ?_ hx hy rfl, rfl, rfl⟩
      simpa [UInt8.le_iff_toNat_le] using ha
  | case10 _ _ _ ha x hx y hy z after hz =>
      intro h
      obtain ⟨rfl, rfl⟩ := Head.character.inj h
      refine ⟨[x, y, z], after, _, rfl, .four ?_ hx hy hz rfl, rfl, rfl⟩
      simpa [UInt8.le_iff_toNat_le] using ha
  | _ =>
      intro h
      cases h

theorem exists_byte {n : Nat} (h : n < 256) : ∃ b : UInt8, UInt8.ofNat n = b ∧ b.toNat = n :=
  ⟨_, rfl, by rw [UInt8.toNat_ofNat', Nat.mod_eq_of_lt h]⟩

/-- A character is written as bytes that spell it. -/
theorem spells_utf8EncodeChar (c : Char) : Spells (String.utf8EncodeChar c) c.toNat := by
  have hvalid : c.toNat < 0xD800 ∨ 0xDFFF < c.toNat ∧ c.toNat < 0x110000 := c.valid
  have hv : c.val.toNat = c.toNat := rfl
  unfold String.utf8EncodeChar
  simp only [hv]
  generalize c.toNat = v at hvalid
  -- The groups of bits are named, since comparing the sums themselves runs too deep.
  generalize hw : v / 262144 % 8 = w
  generalize hx : v / 4096 % 64 = x
  generalize hx' : v / 4096 % 16 = x'
  generalize hy : v / 64 % 64 = y
  generalize hy' : v / 64 % 32 = y'
  generalize hz : v % 64 = z
  split
  · obtain ⟨a, ha, hval⟩ := exists_byte (n := v) (by omega)
    rw [ha]
    exact .one (by omega) hval.symm
  split
  · obtain ⟨a, ha, haval⟩ := exists_byte (n := y' + 192) (by omega)
    obtain ⟨b, hb, hbval⟩ := exists_byte (n := z + 128) (by omega)
    rw [ha, hb]
    refine .two (by omega) (by rw [isTail_iff]; omega) ?_
    unfold payload
    omega
  split
  · obtain ⟨a, ha, haval⟩ := exists_byte (n := x' + 224) (by omega)
    obtain ⟨b, hb, hbval⟩ := exists_byte (n := y + 128) (by omega)
    obtain ⟨c, hc, hcval⟩ := exists_byte (n := z + 128) (by omega)
    rw [ha, hb, hc]
    refine .three (by omega) (by rw [secondOfThree_iff]; omega) (by rw [isTail_iff]; omega) ?_
    unfold payload
    omega
  · obtain ⟨a, ha, haval⟩ := exists_byte (n := w + 240) (by omega)
    obtain ⟨b, hb, hbval⟩ := exists_byte (n := x + 128) (by omega)
    obtain ⟨c, hc, hcval⟩ := exists_byte (n := y + 128) (by omega)
    obtain ⟨d, hd, hdval⟩ := exists_byte (n := z + 128) (by omega)
    rw [ha, hb, hc, hd]
    refine .four (by omega) (by rw [secondOfFour_iff]; omega) (by rw [isTail_iff]; omega)
      (by rw [isTail_iff]; omega) ?_
    unfold payload
    omega

theorem Spells.isValidChar {bytes : Bytes} {n : Nat} (h : Spells bytes n) : n.isValidChar := by
  unfold Nat.isValidChar
  cases h with
  | one ha hn => omega
  | two ha hb hn =>
      rw [isTail_iff] at hb
      unfold payload at hn
      omega
  | three ha hb hc hn =>
      rw [secondOfThree_iff] at hb
      rw [isTail_iff] at hc
      unfold payload at hn
      omega
  | four ha hb hc hd hn =>
      rw [secondOfFour_iff] at hb
      rw [isTail_iff] at hc hd
      unfold payload at hn
      omega

theorem ofNat_eq_of_eq_toNat {n : Nat} {b : UInt8} (h : n = b.toNat) : UInt8.ofNat n = b := by
  rw [h, UInt8.ofNat_toNat]

theorem utf8EncodeChar_of_spells {bytes : Bytes} {n : Nat} (h : Spells bytes n) :
    String.utf8EncodeChar (Char.ofNat n) = bytes := by
  have hval : (Char.ofNat n).val.toNat = n := by
    rw [Char.ofNat, dif_pos h.isValidChar]
    rfl
  unfold String.utf8EncodeChar
  simp only [hval]
  cases h with
  | one ha hn =>
      rw [if_pos (by omega), ofNat_eq_of_eq_toNat hn]
  | @two a b _ ha hb hn =>
      rw [isTail_iff] at hb
      unfold payload at hn
      have hfirst : UInt8.ofNat (n / 64 % 32 + 192) = a := ofNat_eq_of_eq_toNat (by omega)
      have hsecond : UInt8.ofNat (n % 64 + 128) = b := ofNat_eq_of_eq_toNat (by omega)
      rw [if_neg (by omega), if_pos (by omega), hfirst, hsecond]
  | @three a b c _ ha hb hc hn =>
      rw [secondOfThree_iff] at hb
      rw [isTail_iff] at hc
      unfold payload at hn
      have hfirst : UInt8.ofNat (n / 4096 % 16 + 224) = a := ofNat_eq_of_eq_toNat (by omega)
      have hsecond : UInt8.ofNat (n / 64 % 64 + 128) = b := ofNat_eq_of_eq_toNat (by omega)
      have hthird : UInt8.ofNat (n % 64 + 128) = c := ofNat_eq_of_eq_toNat (by omega)
      rw [if_neg (by omega), if_neg (by omega), if_pos (by omega), hfirst, hsecond, hthird]
  | @four a b c d _ ha hb hc hd hn =>
      rw [secondOfFour_iff] at hb
      rw [isTail_iff] at hc hd
      unfold payload at hn
      have hfirst : UInt8.ofNat (n / 262144 % 8 + 240) = a := ofNat_eq_of_eq_toNat (by omega)
      have hsecond : UInt8.ofNat (n / 4096 % 64 + 128) = b := ofNat_eq_of_eq_toNat (by omega)
      have hthird : UInt8.ofNat (n / 64 % 64 + 128) = c := ofNat_eq_of_eq_toNat (by omega)
      have hfourth : UInt8.ofNat (n % 64 + 128) = d := ofNat_eq_of_eq_toNat (by omega)
      rw [if_neg (by omega), if_neg (by omega), if_neg (by omega), hfirst, hsecond, hthird,
        hfourth]

/-- Where a text starts with a character, its bytes start with those that the character is read
from. -/
theorem exists_utf8EncodeChar_eq (c : Char) : ∃ b tail, String.utf8EncodeChar c = b :: tail ∧
    ∀ rest, head b (tail ++ rest) = .character c (tail.length + 1) := by
  have hspells := spells_utf8EncodeChar c
  cases hbytes : String.utf8EncodeChar c with
  | nil =>
      rw [hbytes] at hspells
      cases hspells
  | cons b tail =>
      rw [hbytes] at hspells
      refine ⟨b, tail, rfl, fun rest => ?_⟩
      rw [head_of_spells hspells, Char.ofNat_toNat]

/-- What is read as a character is what the character is written as. -/
theorem eq_utf8EncodeChar_of_head {b : UInt8} {rest : Bytes} {c : Char} {width : Nat}
    (h : head b rest = .character c width) : ∃ tail after, rest = tail ++ after ∧
      String.utf8EncodeChar c = b :: tail ∧ width = tail.length + 1 := by
  obtain ⟨tail, after, n, hrest, hspells, rfl, hwidth⟩ := spells_of_head h
  exact ⟨tail, after, hrest, utf8EncodeChar_of_spells hspells, hwidth⟩

/-! ## Texts -/

theorem encode_cons (c : Char) (text : Text) :
    encode (c :: text) = String.utf8EncodeChar c ++ encode text :=
  rfl

theorem decodeFrom_length (tail rest : Bytes) (read : Text) :
    decodeFrom tail.length (tail ++ rest) read = decodeFrom 0 rest read := by
  induction tail with
  | nil => rfl
  | cons b tail ih => exact ih

theorem errorFrom_length (tail : Bytes) (offset : Nat) (rest : Bytes) :
    errorFrom tail.length offset (tail ++ rest) = errorFrom 0 (offset + tail.length) rest := by
  induction tail generalizing offset with
  | nil => rfl
  | cons b tail ih =>
      rw [List.length_cons, Nat.add_comm tail.length 1, ← Nat.add_assoc, ← ih (offset + 1),
        Nat.add_comm 1]
      rfl

theorem decodeFrom_encode (text read : Text) :
    decodeFrom 0 (encode text) read = read.reverse ++ text := by
  induction text generalizing read with
  | nil => simp [encode, decodeFrom]
  | cons c text ih =>
      obtain ⟨b, tail, hbytes, hhead⟩ := exists_utf8EncodeChar_eq c
      rw [encode_cons, hbytes, List.cons_append, decodeFrom, hhead]
      simp only [Nat.add_sub_cancel]
      rw [decodeFrom_length, ih]
      simp

/-- What is written is read again. -/
theorem decode_encode (text : Text) : decode (encode text) = text :=
  decodeFrom_encode text []

theorem errorFrom_encode (offset : Nat) (text : Text) : errorFrom 0 offset (encode text) = none := by
  induction text generalizing offset with
  | nil => rfl
  | cons c text ih =>
      obtain ⟨b, tail, hbytes, hhead⟩ := exists_utf8EncodeChar_eq c
      rw [encode_cons, hbytes, List.cons_append, errorFrom, hhead]
      simp only [Nat.add_sub_cancel]
      rw [errorFrom_length, ih]

theorem exists_encode_eq {offset : Nat} {bytes : Bytes} (h : errorFrom 0 offset bytes = none) :
    ∃ text, encode text = bytes := by
  induction hlength : bytes.length using Nat.strongRecOn generalizing offset bytes with
  | ind length ih =>
      cases bytes with
      | nil => exact ⟨[], rfl⟩
      | cons b rest =>
          rw [errorFrom] at h
          split at h
          · rename_i c width hhead
            obtain ⟨tail, after, rfl, hbytes, rfl⟩ := eq_utf8EncodeChar_of_head hhead
            rw [Nat.add_sub_cancel, errorFrom_length] at h
            have hshort : after.length < length := by
              rw [← hlength, List.length_cons, List.length_append]
              omega
            obtain ⟨text, rfl⟩ := ih _ hshort h rfl
            exact ⟨c :: text, by rw [encode_cons, hbytes, List.cons_append]⟩
          · cases h

/-- Exactly the bytes of texts hold no error. -/
theorem firstError?_eq_none_iff (bytes : Bytes) :
    firstError? bytes = none ↔ ∃ text, encode text = bytes := by
  constructor
  · exact exists_encode_eq
  · rintro ⟨text, rfl⟩
    exact errorFrom_encode 0 text

theorem encode_append (front back : Text) :
    encode (front ++ back) = encode front ++ encode back :=
  List.flatMap_append

theorem encode_injective : Function.Injective encode := by
  intro text other h
  rw [← decode_encode text, h, decode_encode]

theorem encode_eq_nil_iff {text : Text} : encode text = [] ↔ text = [] :=
  ⟨fun h => encode_injective h, fun h => by rw [h]; rfl⟩

theorem decode?_eq_some_iff {bytes : Bytes} {text : Text} :
    decode? bytes = some text ↔ bytes = encode text := by
  constructor
  · intro h
    unfold decode? at h
    split at h
    · rename_i hnone
      obtain ⟨other, rfl⟩ := (firstError?_eq_none_iff bytes).mp hnone
      rw [← Option.some.inj h, decode_encode]
    · cases h
  · rintro rfl
    rw [decode?, (firstError?_eq_none_iff _).mpr ⟨text, rfl⟩, decode_encode]

/-! ## ASCII -/

/-- The character that one byte stands for. -/
def ascii (b : UInt8) : Char := Char.ofNat b.toNat

def Head.width : Head → Nat
  | character _ width => width
  | invalid width => width

/-- The character that is put for what stands at the start of some bytes. -/
def Head.shown : Head → Char
  | character c _ => c
  | invalid _ => Char.ofNat 0xFFFD

theorem width_head_le (x : UInt8) (rest : Bytes) : (head x rest).width ≤ rest.length + 1 := by
  fun_cases head x rest <;> simp [Head.width]

theorem decodeFrom_cons (x : UInt8) (rest : Bytes) (read : Text) :
    decodeFrom 0 (x :: rest) read =
      decodeFrom ((head x rest).width - 1) rest ((head x rest).shown :: read) := by
  rw [decodeFrom]
  cases head x rest <;> rfl

theorem decodeFrom_eq (skip : Nat) (bytes : Bytes) (read : Text) :
    decodeFrom skip bytes read = read.reverse ++ decodeFrom skip bytes [] := by
  induction bytes generalizing skip read with
  | nil => simp [decodeFrom]
  | cons x rest ih =>
      cases skip with
      | succ skip => exact ih skip read
      | zero =>
          rw [decodeFrom_cons, decodeFrom_cons, ih, ih _ [_]]
          simp

theorem decode_eq_nil_iff {bytes : Bytes} : decode bytes = [] ↔ bytes = [] := by
  cases bytes with
  | nil => simp [decode, decodeFrom]
  | cons x rest => simp [decode, decodeFrom_cons, decodeFrom_eq _ rest [_]]

section Ascii

variable {b : UInt8} (hb : b.toNat < 0x80)
include hb

/-- No character of several bytes goes on with a byte of ASCII. -/
theorem head_append (x : UInt8) (front back : Bytes) :
    head x (front ++ b :: back) = head x front := by
  have htail : isTail b = false := by
    rw [← Bool.not_eq_true, isTail_iff]
    omega
  have hthree : secondOfThree x b = false := by
    rw [← Bool.not_eq_true, secondOfThree_iff]
    omega
  have hfour : secondOfFour x b = false := by
    rw [← Bool.not_eq_true, secondOfFour_iff]
    omega
  rcases front with _ | ⟨c, _ | ⟨d, _ | ⟨e, front⟩⟩⟩ <;> simp [head, htail, hthree, hfour]

theorem decodeFrom_append {skip : Nat} {front : Bytes} (hskip : skip ≤ front.length)
    (back : Bytes) : decodeFrom skip (front ++ b :: back) [] =
      decodeFrom skip front [] ++ ascii b :: decode back := by
  induction front generalizing skip with
  | nil =>
      obtain rfl : skip = 0 := by simpa using hskip
      have hhead : head b back = .character (ascii b) 1 := by
        simp [head, UInt8.lt_iff_toNat_lt, hb, ascii]
      rw [List.nil_append, decodeFrom_cons, hhead, decodeFrom_eq]
      simp [Head.shown, Head.width, decode, decodeFrom]
  | cons x front ih =>
      cases skip with
      | succ skip => exact ih (Nat.le_of_succ_le_succ hskip)
      | zero =>
          have hwidth := width_head_le x front
          rw [List.cons_append, decodeFrom_cons, decodeFrom_cons, head_append hb,
            decodeFrom_eq _ (front ++ _), ih (by omega), decodeFrom_eq _ front [_],
            List.append_assoc]

/-- What stands in front of a byte of ASCII and what follows it are read apart. -/
theorem decode_append (front back : Bytes) :
    decode (front ++ b :: back) = decode front ++ ascii b :: decode back :=
  decodeFrom_append hb (Nat.zero_le _) back

theorem utf8EncodeChar_ascii : String.utf8EncodeChar (ascii b) = [b] :=
  utf8EncodeChar_of_spells (.one hb rfl)

/-- A byte of ASCII is a character of its own. -/
theorem Spells.eq_singleton {bytes : Bytes} {n : Nat} (h : Spells bytes n) (hm : b ∈ bytes) :
    bytes = [b] := by
  cases h with
  | one ha hn => rw [List.mem_singleton.mp hm]
  | two ha hx hn =>
      rw [isTail_iff] at hx
      simp only [List.mem_cons, List.not_mem_nil, or_false] at hm
      rcases hm with rfl | rfl <;> omega
  | three ha hx hy hn =>
      rw [secondOfThree_iff] at hx
      rw [isTail_iff] at hy
      simp only [List.mem_cons, List.not_mem_nil, or_false] at hm
      rcases hm with rfl | rfl | rfl <;> omega
  | four ha hx hy hz hn =>
      rw [secondOfFour_iff] at hx
      rw [isTail_iff] at hy hz
      simp only [List.mem_cons, List.not_mem_nil, or_false] at hm
      rcases hm with rfl | rfl | rfl | rfl <;> omega

theorem mem_encode_iff {text : Text} : b ∈ encode text ↔ ascii b ∈ text := by
  simp only [encode, List.mem_flatMap]
  constructor
  · rintro ⟨c, hc, hm⟩
    have hone := (spells_utf8EncodeChar c).eq_singleton hb hm
    rw [← utf8EncodeChar_ascii hb] at hone
    have hsame : encode [c] = encode [ascii b] := by simpa [encode] using hone
    rwa [← List.singleton_inj.mp (encode_injective hsame)]
  · intro h
    exact ⟨ascii b, h, by simp [utf8EncodeChar_ascii hb]⟩

/-- A character of ASCII is read from its byte only. -/
theorem mem_of_ascii_mem_decodeFrom {skip : Nat} {bytes : Bytes}
    (h : ascii b ∈ decodeFrom skip bytes []) : b ∈ bytes := by
  induction bytes generalizing skip with
  | nil => cases h
  | cons x rest ih =>
      cases skip with
      | succ skip => exact List.mem_cons_of_mem x (ih h)
      | zero =>
          rw [decodeFrom_cons, decodeFrom_eq] at h
          rcases List.mem_append.mp h with h | h
          · have hshown : ascii b = (head x rest).shown := by simpa using h
            have hbytes := congrArg String.utf8EncodeChar hshown
            rw [utf8EncodeChar_ascii hb] at hbytes
            cases hhead : head x rest with
            | character c width =>
                obtain ⟨tail, -, -, hc, -⟩ := eq_utf8EncodeChar_of_head hhead
                rw [hhead, Head.shown, hc] at hbytes
                rw [(List.cons.inj hbytes).1]
                exact List.mem_cons_self
            | invalid width =>
                rw [hhead] at hbytes
                have hlength := congrArg List.length hbytes
                cases hlength
          · exact List.mem_cons_of_mem x (ih h)

/-- A character of ASCII is read from its byte only. -/
theorem mem_of_ascii_mem_decode {bytes : Bytes} (h : ascii b ∈ decode bytes) : b ∈ bytes :=
  mem_of_ascii_mem_decodeFrom hb h

end Ascii

end CodeAtlas.Utf8
