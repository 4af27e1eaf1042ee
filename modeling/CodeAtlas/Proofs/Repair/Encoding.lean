import CodeAtlas.Proofs.Text
import CodeAtlas.Proofs.Text.Utf8
import CodeAtlas.Repair.Encoding

/-! Encoding repair. What it yields holds no control characters and no replacements, and bytes are
left alone exactly if they are those of a clean text. One mark is taken off the start, so that a
second one may stand there afterwards. -/

namespace CodeAtlas.Repair

/-! ## Plain characters -/

theorem isPlain_iff (c : Char) : isPlain c = true ↔
    c ≠ replacement ∧ (Text.isControl c = true → c = '\n' ∨ c = '\t') := by
  simp only [isPlain, Bool.and_eq_true, bne_iff_ne, Bool.or_eq_true, beq_iff_eq,
    Bool.not_eq_true']
  cases Text.isControl c <;> simp

/-- A text without control characters other than ends of lines and tabs, and without places where
bytes held no character. -/
structure IsPlainText (text : Text) : Prop where
  control : ∀ c ∈ text, Text.isControl c = true → c = '\n' ∨ c = '\t'
  replaced : replacement ∉ text

theorem isPlainText_iff (text : Text) : IsPlainText text ↔ ∀ c ∈ text, isPlain c = true := by
  constructor
  · intro h c hc
    exact (isPlain_iff c).mpr ⟨ne_of_mem_of_not_mem hc h.replaced, h.control c hc⟩
  · intro h
    refine ⟨fun c hc => ((isPlain_iff c).mp (h c hc)).2, fun hm => ?_⟩
    exact ((isPlain_iff replacement).mp (h replacement hm)).1 rfl

theorem isPlainText_filter (text : Text) : IsPlainText (text.filter isPlain) := by
  rw [isPlainText_iff]
  exact fun c hc => (List.mem_filter.mp hc).2

/-- A plain text without a mark at its start. -/
structure IsClean (text : Text) : Prop extends IsPlainText text where
  unmarked : text.head? ≠ some byteOrderMark

/-! ## Ends of lines -/

theorem filter_unifyNewlinesFrom (text read : Text) :
    (unifyNewlinesFrom text read).filter isPlain =
      read.reverse.filter isPlain ++ text.filter isPlain := by
  fun_induction unifyNewlinesFrom text read with
  | case1 read => simp
  | case2 rest read ih =>
      have hreturn : ¬isPlain '\r' = true := by decide
      rw [ih, List.filter_cons_of_neg hreturn, List.reverse_cons, List.filter_append,
        List.append_assoc, ← List.filter_append, List.singleton_append]
  | case3 c rest read hend ih =>
      rw [ih, List.reverse_cons, List.filter_append, List.append_assoc, ← List.filter_append,
        List.singleton_append]

/-- The carriage returns that are dropped are not plain anyway. -/
theorem filter_unifyNewlines (text : Text) :
    (unifyNewlines text).filter isPlain = text.filter isPlain :=
  filter_unifyNewlinesFrom text []

theorem unifyNewlinesFrom_eq {text : Text} (h : ¬['\r', '\n'] <:+: text) (read : Text) :
    unifyNewlinesFrom text read = read.reverse ++ text := by
  fun_induction unifyNewlinesFrom text read with
  | case1 read => simp
  | case2 rest read ih => exact absurd ⟨[], rest, rfl⟩ h
  | case3 c rest read hend ih =>
      rw [ih fun hm => h (List.infix_cons hm)]
      simp

theorem unifyNewlines_eq {text : Text} (h : ¬['\r', '\n'] <:+: text) : unifyNewlines text = text :=
  unifyNewlinesFrom_eq h []

/-! ## Repair -/

/-- The text that is left of some bytes. -/
def cleaned (bytes : Bytes) : Text :=
  (dropMark (Utf8.decode bytes)).filter isPlain

/-- Behind the mark at the start, if there is one, the first plain character is a mark too. -/
def RevealsMark (bytes : Bytes) : Prop :=
  (dropMark (Utf8.decode bytes)).find? isPlain = some byteOrderMark

theorem head?_cleaned_iff (bytes : Bytes) :
    (cleaned bytes).head? = some byteOrderMark ↔ RevealsMark bytes := by
  rw [cleaned, List.head?_filter, RevealsMark]

theorem output_encodingNormalization {bytes : Bytes} {outcome : Outcome}
    (h : encodingNormalization bytes = some outcome) : outcome.output = .content (cleaned bytes) := by
  simp only [encodingNormalization, filter_unifyNewlines, Option.ite_none_left_eq_some,
    Option.some.injEq] at h
  obtain ⟨-, rfl⟩ := h
  rfl

/-- Nothing is changed where no step has anything to change. -/
theorem encodingNormalization_keeps_iff (bytes : Bytes) : encodingNormalization bytes = none ↔
    Utf8.firstError? bytes = none ∧ (Utf8.decode bytes).head? ≠ some byteOrderMark ∧
      ¬['\r', '\n'] <:+: dropMark (Utf8.decode bytes) ∧
      ∀ c ∈ unifyNewlines (dropMark (Utf8.decode bytes)), isPlain c = true := by
  simp [encodingNormalization, List.isEmpty_iff, Text.contains_iff_infix]

theorem encodingNormalization_eq_none_iff (bytes : Bytes) : encodingNormalization bytes = none ↔
    Utf8.firstError? bytes = none ∧ IsClean (Utf8.decode bytes) := by
  rw [encodingNormalization_keeps_iff]
  refine and_congr_right fun _ => ?_
  constructor
  · rintro ⟨hmark, hend, hplain⟩
    rw [unifyNewlines_eq hend, dropMark, if_neg hmark, ← isPlainText_iff] at hplain
    exact ⟨hplain, hmark⟩
  · rintro ⟨hplain, hmark⟩
    have hend : ¬['\r', '\n'] <:+: Utf8.decode bytes := by
      intro hm
      have hreturn := hplain.control '\r' (hm.subset (by simp)) (by decide)
      simp at hreturn
    rw [dropMark, if_neg hmark, unifyNewlines_eq hend, ← isPlainText_iff]
    exact ⟨hmark, hend, hplain⟩

/-- What a repair of the encoding makes of some bytes. -/
structure CleansBytes (bytes : Bytes) (content : Text) : Prop extends IsPlainText content where
  kept : content = (dropMark (Utf8.decode bytes)).filter isPlain
  marked_iff : content.head? = some byteOrderMark ↔ RevealsMark bytes
  again_iff : encodingNormalization (Utf8.encode content) = none ↔ ¬RevealsMark bytes

theorem cleansBytes_cleaned (bytes : Bytes) : CleansBytes bytes (cleaned bytes) := by
  have hplain : IsPlainText (cleaned bytes) := isPlainText_filter _
  refine ⟨hplain, rfl, head?_cleaned_iff bytes, ?_⟩
  rw [encodingNormalization_eq_none_iff, Utf8.decode_encode, ← head?_cleaned_iff]
  have hvalid : Utf8.firstError? (Utf8.encode (cleaned bytes)) = none :=
    (Utf8.firstError?_eq_none_iff _).mpr ⟨_, rfl⟩
  exact ⟨fun h => h.2.unmarked, fun h => ⟨hvalid, hplain, h⟩⟩

/-- Bytes are left alone exactly if they are those of a clean text. All others are made into a text
without control characters and replacements, and a repeated repair would change nothing, unless a
mark has come to the start of the text. -/
theorem encodingNormalization_cleans (bytes : Bytes) :
    (encodingNormalization bytes = none ↔
        ∃ text, Utf8.encode text = bytes ∧ IsClean text) ∧
      ∀ outcome, encodingNormalization bytes = some outcome →
        ∃ content, outcome.output = .content content ∧ CleansBytes bytes content := by
  constructor
  · rw [encodingNormalization_eq_none_iff, Utf8.firstError?_eq_none_iff]
    constructor
    · rintro ⟨⟨text, rfl⟩, hclean⟩
      exact ⟨text, rfl, by rwa [Utf8.decode_encode] at hclean⟩
    · rintro ⟨text, rfl, hclean⟩
      exact ⟨⟨text, rfl⟩, by rwa [Utf8.decode_encode]⟩
  · intro outcome h
    exact ⟨cleaned bytes, output_encodingNormalization h, cleansBytes_cleaned bytes⟩

/-- A file with a mark, a broken character and both kinds of line ends. -/
def mixedBytes : Bytes := [0xEF, 0xBB, 0xBF, 0x78, 0xFF, 0x0D, 0x0A, 0x0A]

theorem mixedBytes_cleaned : ∃ outcome, encodingNormalization mixedBytes = some outcome ∧
    ∃ content, outcome.output = .content content ∧ CleansBytes mixedBytes content := by
  have hsome : (encodingNormalization mixedBytes).isSome = true := by decide +kernel
  obtain ⟨outcome, houtcome⟩ := Option.isSome_iff_exists.mp hsome
  exact ⟨outcome, houtcome, (encodingNormalization_cleans mixedBytes).2 outcome houtcome⟩

/-- Of two marks the second one is kept, and stands at the start then. -/
theorem encodingNormalization_of_two_marks :
    (encodingNormalization (Utf8.encode [byteOrderMark, byteOrderMark, 'x'])).bind
        (fun outcome => outcome.output.content?) = some [byteOrderMark, 'x'] ∧
      encodingNormalization (Utf8.encode [byteOrderMark, 'x']) ≠ none := by
  have hagain : (encodingNormalization (Utf8.encode [byteOrderMark, 'x'])).isSome = true := by
    decide +kernel
  refine ⟨by decide +kernel, fun hnone => ?_⟩
  rw [hnone] at hagain
  cases hagain

end CodeAtlas.Repair
