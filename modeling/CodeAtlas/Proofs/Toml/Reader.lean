import CodeAtlas.Proofs.Toml.Number
import CodeAtlas.Proofs.Toml.Quote
import CodeAtlas.Toml.Reader

/-! Documents with a statement on each line. What is written for a value is read back as that value,
a line extends the table that was opened last, and a header opens a new one. -/

namespace CodeAtlas.Toml

/-! ## Blanks -/

theorem skipSpace_of_head? {text : Text} (h : ∀ c ∈ text.head?, isSpace c = false) :
    skipSpace text = text := by
  cases text with
  | nil => rfl
  | cons c text => exact List.dropWhile_cons_of_neg (by simp [h c rfl])

/-- A character at which a statement or a value may begin. -/
def isStart (c : Char) : Bool :=
  !isSpace c && c != '#' && c != '\n' && c != '\r'

theorem skipLines_of_isStart {c : Char} (h : isStart c = true) (lines : Nat) (rest : Text) :
    skipLines lines (c :: rest) = c :: rest := by
  simp only [isStart, Bool.and_eq_true, Bool.not_eq_true', bne_iff_ne] at h
  obtain ⟨⟨⟨hspace, hmark⟩, hline⟩, hreturn⟩ := h
  cases lines with
  | zero => rfl
  | succ lines =>
      have hskip : skipSpace (c :: rest) = c :: rest := skipSpace_of_head? (by simpa using hspace)
      simp [skipLines, hskip, hmark, hline, hreturn]

@[simp] theorem afterLine?_newline (rest : Text) : afterLine? ('\n' :: rest) = some rest := rfl

theorem skipLines_newline (lines : Nat) (rest : Text) :
    skipLines (lines + 1) ('\n' :: rest) = skipLines lines rest := rfl

theorem skipLines_space (lines : Nat) (rest : Text) :
    skipLines (lines + 1) (' ' :: rest) = skipLines (lines + 1) rest := rfl

/-! ## Keys -/

/-- A key that needs no quotes. -/
def IsBareKey (key : String) : Prop :=
  key.toList ≠ [] ∧ key.toList.all isBare = true

instance (key : String) : Decidable (IsBareKey key) :=
  inferInstanceAs (Decidable (_ ∧ _))

theorem isStart_of_isBare {c : Char} (h : isBare c = true) : isStart c = true := by
  simp [isStart, isSpace, Text.ne_of_kind h (d := ' ') rfl, Text.ne_of_kind h (d := '\t') rfl,
    Text.ne_of_kind h (d := '#') rfl, Text.ne_of_kind h (d := '\n') rfl, Text.ne_of_kind h (d := '\r') rfl]

theorem IsBareKey.exists_eq_cons {key : String} (h : IsBareKey key) :
    ∃ c rest, key.toList = c :: rest ∧ isBare c = true := by
  obtain ⟨c, rest, heq⟩ := List.exists_cons_of_ne_nil h.1
  exact ⟨c, rest, heq, List.all_eq_true.mp h.2 c (by rw [heq]; exact List.mem_cons_self)⟩

theorem key?_bare {key : String} (hkey : IsBareKey key) {rest : Text}
    (hrest : ∀ c ∈ rest.head?, isBare c = false) (hdot : (skipSpace rest).head? ≠ some '.')
    (parts : Nat) :
    key? (parts + 1) (key.toList ++ rest) = some ([], key, skipSpace rest) := by
  obtain ⟨htake, hdrop⟩ := Text.takeWhile_append_of_head? (List.all_eq_true.mp hkey.2) hrest
  obtain ⟨c, front, heq, hc⟩ := hkey.exists_eq_cons
  have hskip : skipSpace (key.toList ++ rest) = key.toList ++ rest := by
    refine skipSpace_of_head? ?_
    simp [heq, isSpace, Text.ne_of_kind hc (d := ' ') rfl, Text.ne_of_kind hc (d := '\t') rfl]
  have hpart : part? (key.toList ++ rest) = some (key, rest) := by
    have hne : ∀ {d : Char} {back : Text}, isBare d = false → key.toList ++ rest ≠ d :: back := by
      intro d back hd
      rw [heq, List.cons_append]
      exact Text.cons_ne_of_kind hc hd
    rw [part?.eq_3 _ (fun _ => hne rfl) (fun _ => hne rfl), htake, hdrop]
    split
    · rename_i hnil
      exact absurd hnil hkey.1
    · rw [String.ofList_toList]
  rw [key?, hskip, hpart]
  dsimp only [Option.bind_eq_bind, Option.bind_some]
  split
  · rename_i hnext
    exact absurd (by rw [hnext]; rfl) hdot
  · rfl

/-! ## Values -/

/-- What is written for a value is read back at the end of a line. -/
structure IsWritten (written : Text) (value : Toml) : Prop where
  head : ∀ c ∈ written.head?, isSpace c = false
  read : ∀ steps depth rest, written.length < steps →
    value? steps (depth + 1) (written ++ '\n' :: rest) = some (value, '\n' :: rest)

theorem isWritten_bool (b : Bool) : IsWritten (if b then "true" else "false").toList (.bool b) := by
  constructor
  · cases b <;> simp [isSpace]
  · intro steps depth rest hsteps
    obtain ⟨steps, rfl⟩ := Nat.exists_eq_succ_of_ne_zero (Nat.ne_zero_of_lt hsteps)
    cases b <;> rfl

theorem isWritten_toDigits {n : Nat} (hn : n < Json.signedLimit) :
    IsWritten (Nat.toDigits 10 n) (.int n) := by
  obtain ⟨c, digits, heq, hc, hdigits⟩ := exists_toDigits_eq_cons n
  constructor
  · rw [heq]
    simp [isSpace, Text.ne_of_kind hc (d := ' ') rfl, Text.ne_of_kind hc (d := '\t') rfl]
  · intro steps depth rest hsteps
    obtain ⟨steps, rfl⟩ := Nat.exists_eq_succ_of_ne_zero (Nat.ne_zero_of_lt hsteps)
    have hne : ∀ {d : Char} {back : Text}, d.isDigit = false →
        Nat.toDigits 10 n ++ '\n' :: rest ≠ d :: back := by
      intro d back hd
      rw [heq, List.cons_append]
      exact Text.cons_ne_of_kind hc hd
    have hdate : date? (Nat.toDigits 10 n ++ '\n' :: rest) = none := by
      rw [heq]
      exact date?_eq_none (List.forall_mem_cons.mpr ⟨hc, hdigits⟩) rfl (by decide) (by decide)
    rw [value?.eq_10 _ _ _ (fun _ => hne rfl) (fun _ => hne rfl) (fun _ => hne rfl)
      (fun _ => hne rfl) (fun _ => hne rfl) (fun _ => hne rfl), hdate]
    exact number?_toDigits hn rest

theorem value?_quote (steps depth : Nat) (text : Text) {rest : Text}
    (hdouble : rest.head? ≠ some '"') (hsingle : rest.head? ≠ some '\'') :
    value? (steps + 1) depth (quote text ++ rest) = some (.str (String.ofList text), rest) := by
  have hstring := string?_quote text hdouble hsingle
  obtain ⟨mark, back, rfl | rfl, heq⟩ := exists_quote_eq text
  · rw [heq, List.cons_append] at hstring ⊢
    rw [value?.eq_8, hstring]
    rfl
  · rw [heq, List.cons_append] at hstring ⊢
    rw [value?.eq_9, hstring]
    rfl

theorem skipLines_quote (lines : Nat) (text rest : Text) :
    skipLines lines (quote text ++ rest) = quote text ++ rest := by
  obtain ⟨mark, back, rfl | rfl, heq⟩ := exists_quote_eq text <;>
  · rw [heq, List.cons_append]
    exact skipLines_of_isStart (by decide) _ _

theorem isWritten_quote (text : Text) : IsWritten (quote text) (.str (String.ofList text)) := by
  constructor
  · obtain ⟨mark, back, rfl | rfl, heq⟩ := exists_quote_eq text <;> simp [heq, isSpace]
  · intro steps depth rest hsteps
    obtain ⟨steps, rfl⟩ := Nat.exists_eq_succ_of_ne_zero (Nat.ne_zero_of_lt hsteps)
    exact value?_quote _ _ text (by simp) (by simp)

/-! ## Lists -/

theorem value?_bracket (steps depth : Nat) (rest : Text) :
    value? (steps + 1) (depth + 1) ('[' :: rest) = items? steps depth rest [] := by
  rw [value?]

/-- The step of a list over a string and the character behind it. -/
theorem items?_quote {text rest item : Text} {c : Char}
    (htext : skipLines (text.length + 1) text = quote item ++ c :: rest) (hc : isStart c = true)
    (hdouble : c ≠ '"') (hsingle : c ≠ '\'') (steps depth : Nat) (read : List Toml) :
    items? (steps + 2) depth text read =
      if c = ',' then items? (steps + 1) depth rest (.str (String.ofList item) :: read)
      else if c = ']' then some (.arr (.str (String.ofList item) :: read).reverse, rest)
      else none := by
  have hvalue : value? (steps + 1) depth (quote item ++ c :: rest) =
      some (.str (String.ofList item), c :: rest) :=
    value?_quote steps depth item (by simpa using hdouble) (by simpa using hsingle)
  rw [items?.eq_2, htext]
  obtain ⟨mark, back, rfl | rfl, heq⟩ := exists_quote_eq item <;>
  · rw [heq, List.cons_append] at hvalue ⊢
    split
    · rename_i h
      exact absurd (List.cons.inj h).1 (by decide)
    · simp only [hvalue, skipLines_of_isStart hc]
      split <;> simp_all

theorem skipLines_indented (text rest : Text) :
    let line := '\n' :: ' ' :: ' ' :: ' ' :: ' ' :: (quote text ++ rest)
    skipLines (line.length + 1) line = quote text ++ rest := by
  simp only [List.length_cons, skipLines_newline, skipLines_space, skipLines_quote]

/-- The items of a list, each on its own line. -/
def itemLines (items : List String) : Text :=
  items.flatMap fun item => "    ".toList ++ quote item.toList ++ ",\n".toList

theorem itemLines_cons (item : String) (items : List String) :
    itemLines (item :: items) =
      "    ".toList ++ (quote item.toList ++ ',' :: '\n' :: itemLines items) := by
  simp [itemLines]

theorem length_le_length_itemLines (items : List String) :
    items.length ≤ (itemLines items).length := by
  induction items with
  | nil => exact Nat.le_refl 0
  | cons item items ih =>
      rw [itemLines_cons]
      simp only [List.length_cons, List.length_append]
      omega

theorem items?_itemLines (items : List String) (steps depth : Nat) (rest : Text)
    (read : List Toml) :
    items? (items.length + steps + 1) depth ('\n' :: (itemLines items ++ ']' :: rest)) read =
      some (.arr (read.reverse ++ items.map .str), rest) := by
  induction items generalizing read with
  | nil =>
      simp [items?, itemLines, skipLines_newline, skipLines_of_isStart (c := ']') rfl]
  | cons item items ih =>
      have hsteps : (item :: items).length + steps + 1 = items.length + steps + 2 := by
        rw [List.length_cons]
        omega
      have htext : '\n' :: (itemLines (item :: items) ++ ']' :: rest) =
          '\n' :: ' ' :: ' ' :: ' ' :: ' ' :: (quote item.toList ++
            ',' :: '\n' :: (itemLines items ++ ']' :: rest)) := by
        simp [itemLines_cons]
      have hskip := skipLines_indented item.toList (',' :: '\n' :: (itemLines items ++ ']' :: rest))
      rw [hsteps, htext, items?_quote hskip (by decide) (by decide) (by decide), if_pos rfl,
        String.ofList_toList, ih]
      simp

/-! ## Tables -/

namespace Fields

theorem lookup_of_not_mem {key : String} {fields : Fields} (h : key ∉ fields.map Prod.fst) :
    fields.lookup key = none := by
  rw [List.lookup_eq_none_iff]
  rintro ⟨other, value⟩ hm
  have hne : other ≠ key := fun heq => h (heq ▸ List.mem_map_of_mem hm)
  simpa [bne_iff_ne] using hne.symm

theorem lookup_add {key : String} {fields : Fields} (h : key ∉ fields.map Prod.fst)
    (value : Toml) : (fields.add key value).lookup key = some value := by
  rw [add, List.lookup_append, lookup_of_not_mem h]
  simp

theorem replace_add {key : String} {fields : Fields} (h : key ∉ fields.map Prod.fst)
    (old new : Toml) : (fields.add key old).replace key new = fields.add key new := by
  have hfields : ∀ field ∈ fields, (if field.1 == key then (key, new) else field) = field := by
    intro field hm
    have hne : field.1 ≠ key := fun heq => h (heq ▸ List.mem_map_of_mem hm)
    rw [if_neg (by simpa using hne)]
  rw [replace, add, List.map_append, List.map_congr_left hfields, List.map_id'']
  · simp [add]
  · exact fun _ => rfl

end Fields

/-- The draft behind some fields and a header, with what was read since of its table. -/
def Draft.opened (name : String) (front inner : Fields) : Draft :=
  ⟨[name], front.add name (.table .header inner)⟩

section Statements

variable {name key : String} {front inner : Fields}

theorem changeAt_openTable (hname : name ∉ front.map Prod.fst) :
    changeAt (openTable name) [] front = some (front.add name (.table .header [])) := by
  simp [changeAt, openTable, Fields.lookup_of_not_mem hname]

theorem changeAt_insert (hname : name ∉ front.map Prod.fst) (hkey : key ∉ inner.map Prod.fst)
    (value : Toml) :
    changeAt (insert key value []) [name] (front.add name (.table .header inner)) =
      some (front.add name (.table .header (inner.add key value))) := by
  simp [changeAt, enter, insert, Fields.lookup_add hname, Fields.lookup_of_not_mem hkey,
    Fields.replace_add hname]

theorem setting?_line (hkey : IsBareKey key) {written : Text} {value : Toml}
    (hvalue : IsWritten written value) (hname : name ∉ front.map Prod.fst)
    (hfresh : key ∉ inner.map Prod.fst) (rest : Text) :
    setting? (.opened name front inner)
        (key.toList ++ ' ' :: '=' :: ' ' :: (written ++ '\n' :: rest)) =
      some (.opened name front (inner.add key value), rest) := by
  have hread : key? maxDepth (key.toList ++ ' ' :: '=' :: ' ' :: (written ++ '\n' :: rest)) =
      some ([], key, '=' :: ' ' :: (written ++ '\n' :: rest)) :=
    key?_bare hkey (by simp; decide) (by simp [skipSpace, isSpace]) _
  have hskip : skipSpace (' ' :: (written ++ '\n' :: rest)) = written ++ '\n' :: rest := by
    change skipSpace (written ++ '\n' :: rest) = written ++ '\n' :: rest
    refine skipSpace_of_head? fun c hc => ?_
    rw [List.head?_append, Option.mem_def, Option.or_eq_some_iff] at hc
    rcases hc with hc | ⟨-, hc⟩
    · exact hvalue.head c hc
    · rw [← Option.some.inj hc]
      rfl
  have hsteps : value? (2 * (key.toList ++ ' ' :: '=' :: ' ' :: (written ++ '\n' :: rest)).length + 2)
      maxDepth (written ++ '\n' :: rest) = some (value, '\n' :: rest) := by
    refine hvalue.read _ (maxDepth - 1) rest ?_
    simp only [List.length_append, List.length_cons]
    omega
  rw [setting?, hread]
  dsimp only [Option.bind_eq_bind, Option.bind_some]
  rw [skip?, if_pos rfl, Option.bind_some, hskip, hsteps]
  dsimp only [Option.bind_some]
  rw [afterLine?_newline, Option.bind_some, Draft.opened, changeAt_insert hname hfresh]
  rfl

theorem tableHeader?_line (hbare : IsBareKey name) (hname : name ∉ front.map Prod.fst)
    (header : List String) (rest : Text) :
    tableHeader? ⟨header, front⟩ (name.toList ++ ']' :: '\n' :: rest) =
      some (.opened name front [], rest) := by
  have hread : key? maxDepth (name.toList ++ ']' :: '\n' :: rest) =
      some ([], name, ']' :: '\n' :: rest) :=
    key?_bare hbare (by simp; decide) (by simp [skipSpace, isSpace]) _
  rw [tableHeader?, hread]
  dsimp only [Option.bind_eq_bind, Option.bind_some]
  rw [skip?, if_pos rfl, Option.bind_some, afterLine?_newline, Option.bind_some,
    changeAt_openTable hname]
  rfl

/-! ## Documents -/

/-- The statements of a text turn a draft into these fields. -/
def Reads (draft : Draft) (text : Text) (fields : Fields) : Prop :=
  ∀ steps, text.length < steps → statements? steps draft text = some fields

theorem reads_nil (draft : Draft) : Reads draft [] draft.fields := by
  intro steps hsteps
  obtain ⟨steps, rfl⟩ := Nat.exists_eq_succ_of_ne_zero (Nat.ne_zero_of_lt hsteps)
  rfl

variable {draft : Draft} {rest : Text} {fields : Fields}

theorem Reads.newline (h : Reads draft rest fields) : Reads draft ('\n' :: rest) fields := by
  intro steps hsteps
  obtain ⟨steps, rfl⟩ := Nat.exists_eq_succ_of_ne_zero (Nat.ne_zero_of_lt hsteps)
  rw [← h (steps + 1) (Nat.lt_of_succ_lt hsteps), statements?, statements?, List.length_cons,
    skipLines_newline]

theorem Reads.step {next : Draft} {c : Char} {text : Text} (hc : isStart c = true)
    (hstep : statement? draft (c :: text) = some (next, rest)) (hlength : rest.length ≤ text.length)
    (h : Reads next rest fields) : Reads draft (c :: text) fields := by
  intro steps hsteps
  obtain ⟨steps, rfl⟩ := Nat.exists_eq_succ_of_ne_zero (Nat.ne_zero_of_lt hsteps)
  rw [statements?, skipLines_of_isStart hc]
  dsimp only
  rw [hstep]
  refine h steps ?_
  rw [List.length_cons] at hsteps
  omega

theorem Reads.line (hkey : IsBareKey key) {written : Text} {value : Toml}
    (hvalue : IsWritten written value) (hname : name ∉ front.map Prod.fst)
    (hfresh : key ∉ inner.map Prod.fst)
    (h : Reads (.opened name front (inner.add key value)) rest fields) :
    Reads (.opened name front inner) (key.toList ++ ' ' :: '=' :: ' ' :: (written ++ '\n' :: rest))
      fields := by
  have hsetting := setting?_line hkey hvalue hname hfresh rest
  obtain ⟨c, back, heq, hc⟩ := hkey.exists_eq_cons
  rw [heq, List.cons_append] at hsetting ⊢
  refine h.step (isStart_of_isBare hc) ?_ (by simp; omega)
  rw [statement?.eq_3 _ _ (fun _ => Text.cons_ne_of_kind hc rfl)
    fun _ => Text.cons_ne_of_kind hc rfl, hsetting]

theorem Reads.header (hbare : IsBareKey name) (hname : name ∉ front.map Prod.fst)
    {header : List String} (h : Reads (.opened name front []) rest fields) :
    Reads ⟨header, front⟩ ('[' :: (name.toList ++ ']' :: '\n' :: rest)) fields := by
  have hheader := tableHeader?_line hbare hname header rest
  obtain ⟨c, back, heq, hc⟩ := hbare.exists_eq_cons
  rw [heq, List.cons_append] at hheader ⊢
  refine h.step rfl ?_ (by simp; omega)
  rw [statement?.eq_2 _ _ fun _ => Text.cons_ne_of_kind hc rfl, hheader]

theorem read?_of_reads {text : Text} (hmark : text.head? ≠ some '\uFEFF')
    (h : Reads ⟨[], []⟩ text fields) : read? text = some (.table .header fields) := by
  rw [read?, if_neg (by simpa using hmark), h _ (Nat.lt_succ_self _)]
  rfl

end Statements

end CodeAtlas.Toml
