import CodeAtlas.Proofs.Text
import CodeAtlas.Toml.Quote
import Mathlib.Data.List.Infix

/-! TOML strings. In whichever of the four forms a string is written, it is read back, and what
follows it is left. -/

namespace CodeAtlas.Toml

/-! ## Runs of a mark -/

/-- The length of the run that ends here, and of the longest one so far. -/
def runStep (mark : Char) (state : Nat × Nat) (c : Char) : Nat × Nat :=
  if c = mark then (state.1 + 1, max state.2 (state.1 + 1)) else (0, state.2)

theorem longestRun_eq (mark : Char) (text : Text) :
    longestRun mark text = (text.foldl (runStep mark) (0, 0)).2 := rfl

theorem foldl_runStep_mono (mark : Char) (text : Text) (state : Nat × Nat) :
    state.2 ≤ (text.foldl (runStep mark) state).2 := by
  induction text generalizing state with
  | nil => exact Nat.le_refl _
  | cons c text ih =>
      refine Nat.le_trans ?_ (ih _)
      unfold runStep
      split
      · exact Nat.le_max_left _ _
      · exact Nat.le_refl _

theorem foldl_runStep_replicate (mark : Char) (n : Nat) (state : Nat × Nat)
    (h : state.1 ≤ state.2) :
    state.1 + n ≤ ((List.replicate n mark).foldl (runStep mark) state).2 := by
  induction n generalizing state with
  | zero => exact h
  | succ n ih =>
      have hstep : runStep mark state mark = (state.1 + 1, max state.2 (state.1 + 1)) := if_pos rfl
      have hrest := ih (runStep mark state mark) (by rw [hstep]; exact Nat.le_max_right _ _)
      rw [hstep] at hrest
      rw [List.replicate_succ, List.foldl_cons, hstep]
      dsimp only at hrest
      omega

theorem le_longestRun (mark : Char) (n : Nat) (front back : Text) :
    n ≤ longestRun mark (front ++ List.replicate n mark ++ back) := by
  have hle : ∀ text : Text, (text.foldl (runStep mark) (0, 0)).1 ≤
      (text.foldl (runStep mark) (0, 0)).2 := by
    intro text
    rcases List.eq_nil_or_concat' text with rfl | ⟨text, c, rfl⟩
    · exact Nat.le_refl _
    · rw [List.foldl_append, List.foldl_cons, List.foldl_nil, runStep]
      split
      · exact Nat.le_max_right _ _
      · exact Nat.zero_le _
  rw [longestRun_eq, List.foldl_append, List.foldl_append]
  refine Nat.le_trans ?_ (foldl_runStep_mono mark back _)
  exact (Nat.le_add_left n _).trans (foldl_runStep_replicate mark n _ (hle front))

/-- A text whose runs are shorter does not hold that many marks in a row. -/
theorem not_infix_of_longestRun_lt {mark : Char} {n : Nat} {text : Text}
    (h : longestRun mark text < n) : ¬List.replicate n mark <:+: text := by
  rintro ⟨front, back, rfl⟩
  exact Nat.not_le_of_lt h (le_longestRun mark n front back)

theorem not_mem_of_longestRun_eq_zero {mark : Char} {text : Text} (h : longestRun mark text = 0) :
    mark ∉ text := by
  intro hm
  obtain ⟨front, back, rfl⟩ := List.append_of_mem hm
  have hrun := le_longestRun mark 1 front back
  rw [List.replicate_one, List.append_assoc, List.singleton_append, h] at hrun
  exact Nat.not_succ_le_zero 0 hrun

/-! ## Characters between double quotes -/

/-- A spelling of a character between double quotes. -/
inductive Spelled (c : Char) : Text → Prop
  | plain (hplain : isPlain c = true) (hquote : c ≠ '"') (hmark : c ≠ '\\') : Spelled c [c]
  | short (letter : Char) (h : shortEscape? letter = some c) : Spelled c ['\\', letter]
  | digits (w x y z : Char) (h : scalar? [w, x, y, z] = some c) :
      Spelled c ['\\', 'u', w, x, y, z]

theorem scalar?_padded : ∀ n < 128,
    (List.replicate (4 - ((Nat.toDigits 16 n).map Char.toUpper).length) '0' ++
        (Nat.toDigits 16 n).map Char.toUpper).length = 4 ∧
      scalar? (List.replicate (4 - ((Nat.toDigits 16 n).map Char.toUpper).length) '0' ++
        (Nat.toDigits 16 n).map Char.toUpper) = some (Char.ofNat n) := by
  decide +kernel

theorem spelled_escaped {c : Char} (hquote : c ≠ '"') : Spelled c (escaped c) := by
  unfold escaped
  split
  · rename_i h
    exact .short '\\' (by rw [h]; rfl)
  split
  · rename_i h
    exact .short 't' (by rw [h]; rfl)
  split
  · rename_i h
    exact .short 'r' (by rw [h]; rfl)
  split
  · rename_i h
    exact .short 'b' (by rw [h]; rfl)
  split
  · rename_i h
    exact .short 'f' (by rw [h]; rfl)
  split
  · rename_i hmark _ _ _ _ hplain
    exact .plain hplain hquote hmark
  · rename_i hplain
    have hsmall : c.toNat < 128 := by
      simp only [isPlain, Bool.or_eq_true, Bool.and_eq_true, decide_eq_true_eq, bne_iff_ne] at hplain
      omega
    obtain ⟨hlength, hscalar⟩ := scalar?_padded c.toNat hsmall
    rw [Char.ofNat_toNat] at hscalar
    dsimp only
    generalize List.replicate _ '0' ++ (Nat.toDigits 16 c.toNat).map Char.toUpper = digits at *
    match digits, hlength with
    | [w, x, y, z], _ => exact .digits w x y z hscalar

/-- A spelling begins neither with a quote nor with the end of a line. -/
theorem Spelled.head?_append {c : Char} {word : Text} (h : Spelled c word) (rest : Text) :
    ∃ d, (word ++ rest).head? = some d ∧ d ≠ '"' ∧ d ≠ '\n' ∧ d ≠ '\r' := by
  cases h with
  | plain hplain hquote _ =>
      refine ⟨c, rfl, hquote, ?_, ?_⟩ <;>
        (rintro rfl; cases hplain)
  | short letter _ => exact ⟨'\\', rfl, by decide⟩
  | digits w x y z _ => exact ⟨'\\', rfl, by decide⟩

theorem shortEscape?_ne {letter c : Char} (h : shortEscape? letter = some c) :
    letter ≠ 'u' ∧ letter ≠ 'U' := by
  constructor <;> rintro rfl <;> cases h

theorem basicFrom_spelled {c : Char} {word : Text} (h : Spelled c word) (rest read : Text) :
    basicFrom (word ++ rest) read = basicFrom rest (c :: read) := by
  cases h with
  | plain hplain hquote hmark =>
      rw [List.singleton_append, basicFrom.eq_5] <;> simp_all
  | short letter h =>
      obtain ⟨hu, hU⟩ := shortEscape?_ne h
      rw [List.cons_append, List.singleton_append, basicFrom.eq_4 _ _ _ (by simp [hu])
        (by simp [hU]), h]
  | digits w x y z h =>
      simp only [List.cons_append, List.nil_append]
      rw [basicFrom.eq_2, h]

theorem basicLinesFrom_spelled {c : Char} {word : Text} (h : Spelled c word) (hline : c ≠ '\n')
    (rest read : Text) :
    basicLinesFrom false (word ++ rest) read = basicLinesFrom false rest (c :: read) := by
  cases h with
  | plain hplain hquote hmark =>
      have hreturn : c ≠ '\r' := by
        rintro rfl
        cases hplain
      rw [List.singleton_append, basicLinesFrom.eq_9] <;> simp_all
  | short letter h =>
      obtain ⟨hu, hU⟩ := shortEscape?_ne h
      rw [List.cons_append, List.singleton_append, basicLinesFrom.eq_8 _ _ _ _ (by simp [hu])
        (by simp [hU]), h]
  | digits w x y z h =>
      simp only [List.cons_append, List.nil_append]
      rw [basicLinesFrom.eq_6, h]

/-! ## Strings on one line -/

theorem basicBody_cons (c : Char) (text : Text) :
    ∃ word, Spelled c word ∧ basicBody (c :: text) = word ++ basicBody text := by
  rw [basicBody, List.flatMap_cons]
  refine ⟨_, ?_, rfl⟩
  split
  · rename_i h
    exact .short '"' (by rw [h]; rfl)
  split
  · rename_i h
    exact .short 'n' (by rw [h]; rfl)
  · rename_i hquote _
    exact spelled_escaped hquote

theorem basicFrom_basicBody (text rest read : Text) :
    basicFrom (basicBody text ++ '"' :: rest) read =
      some (String.ofList (read.reverse ++ text), rest) := by
  induction text generalizing read with
  | nil => simp [basicBody, basicFrom]
  | cons c text ih =>
      obtain ⟨word, hword, hbody⟩ := basicBody_cons c text
      rw [hbody, List.append_assoc, basicFrom_spelled hword, ih]
      simp

theorem literalFrom_append {text : Text} (hplain : ∀ c ∈ text, isPlain c = true)
    (hquote : '\'' ∉ text) (rest read : Text) :
    literalFrom (text ++ '\'' :: rest) read =
      some (String.ofList (read.reverse ++ text), rest) := by
  induction text generalizing read with
  | nil => simp [literalFrom]
  | cons c text ih =>
      obtain ⟨hc, htext⟩ := List.forall_mem_cons.mp hplain
      obtain ⟨hne, hrest⟩ := List.ne_and_not_mem_of_not_mem_cons hquote
      rw [List.cons_append, literalFrom.eq_2 _ _ _ (fun h => hne h.symm), if_pos hc, ih htext hrest]
      simp

/-! ## Strings on several lines -/

/-- A quote that two others do not follow is a character of the string. -/
theorem basicLinesFrom_quote {rest : Text} (h : ¬['"', '"'] <+: rest) (read : Text) :
    basicLinesFrom false ('"' :: rest) read = basicLinesFrom false rest ('"' :: read) := by
  have hno : ∀ back, rest = '"' :: '"' :: back → False := fun back heq =>
    h ⟨back, heq.symm⟩
  rw [basicLinesFrom.eq_9 _ _ _ _ (fun back _ heq => hno _ heq) (fun back _ heq => hno _ heq)
    (fun back _ heq => hno _ heq)] <;> simp [isPlain, isSpace]

theorem basicLinesBody_cons_of_ne {c : Char} (hc : c ≠ '"') (run : Nat) (text : Text) :
    ∃ word, (c = '\n' ∧ word = ['\n'] ∨ c ≠ '\n' ∧ Spelled c word) ∧
      basicLinesBody run (c :: text) = word ++ basicLinesBody 0 text := by
  by_cases hline : c = '\n'
  · exact ⟨['\n'], .inl ⟨hline, rfl⟩, by simp [basicLinesBody, hline]⟩
  · exact ⟨escaped c, .inr ⟨hline, spelled_escaped hc⟩, by simp [basicLinesBody, hc, hline]⟩

theorem head?_basicLinesBody {run : Nat} {c : Char} (h : 2 ≤ run ∨ c ≠ '"') (text rest : Text) :
    (basicLinesBody run (c :: text) ++ rest).head? ≠ some '"' := by
  by_cases hc : c = '"'
  · have hrun : ¬run < 2 := Nat.not_lt.mpr (h.resolve_right fun hne => hne hc)
    simp [basicLinesBody, hc, hrun]
  · obtain ⟨word, hword, hbody⟩ := basicLinesBody_cons_of_ne hc run text
    rw [hbody, List.append_assoc]
    rcases hword with ⟨-, rfl⟩ | ⟨-, hword⟩
    · simp
    · obtain ⟨d, hhead, hd, -⟩ := hword.head?_append (basicLinesBody 0 text ++ rest)
      rw [hhead]
      exact fun heq => hd (Option.some.inj heq)

/-- Behind a quote the body does not go on with two more, unless it ends there. -/
theorem not_prefix_basicLinesBody {run : Nat} (hrun : 1 ≤ run) {text : Text} (hne : text ≠ [])
    (hlast : run = 1 → text ≠ ['"']) (rest : Text) :
    ¬['"', '"'] <+: basicLinesBody run text ++ rest := by
  rintro ⟨back, heq⟩
  obtain ⟨c, more, rfl⟩ := List.exists_cons_of_ne_nil hne
  by_cases hfirst : 2 ≤ run ∨ c ≠ '"'
  · exact head?_basicLinesBody hfirst more rest (by rw [← heq]; rfl)
  · obtain ⟨hlt, hc⟩ := not_or.mp hfirst
    obtain rfl : run = 1 := by omega
    obtain rfl : c = '"' := not_not.mp hc
    have hmore : more ≠ [] := by
      rintro rfl
      exact hlast rfl rfl
    obtain ⟨d, others, rfl⟩ := List.exists_cons_of_ne_nil hmore
    have hbody : basicLinesBody 1 ('"' :: d :: others) = '"' :: basicLinesBody 2 (d :: others) := by
      simp [basicLinesBody]
    rw [hbody] at heq
    have htail : '"' :: back = basicLinesBody 2 (d :: others) ++ rest := (List.cons.inj heq).2
    exact head?_basicLinesBody (.inl (Nat.le_refl 2)) others rest (by rw [← htail]; rfl)

theorem basicLinesFrom_close {rest : Text} (hrest : rest.head? ≠ some '"') (read : Text) :
    basicLinesFrom false ('"' :: '"' :: '"' :: rest) read =
        some (String.ofList read.reverse, rest) ∧
      basicLinesFrom false ('"' :: '"' :: '"' :: '"' :: rest) read =
        some (String.ofList ('"' :: read).reverse, rest) := by
  have hno : ∀ back, rest = '"' :: back → False := by
    rintro back rfl
    exact hrest rfl
  exact ⟨basicLinesFrom.eq_3 _ _ _ (fun _ => hno _) (fun _ => hno _),
    basicLinesFrom.eq_2 _ _ _ (fun _ => hno _)⟩

theorem basicLinesFrom_basicLinesBody {rest : Text} (hrest : rest.head? ≠ some '"') (text : Text)
    (run : Nat) (read : Text) :
    basicLinesFrom false (basicLinesBody run text ++ '"' :: '"' :: '"' :: rest) read =
      some (String.ofList (read.reverse ++ text), rest) := by
  induction text generalizing run read with
  | nil => simpa [basicLinesBody] using (basicLinesFrom_close hrest read).1
  | cons c text ih =>
      by_cases hc : c = '"'
      · subst hc
        by_cases hrun : run < 2
        · have hbody : basicLinesBody run ('"' :: text) = '"' :: basicLinesBody (run + 1) text := by
            simp [basicLinesBody, hrun]
          rw [hbody, List.cons_append]
          -- at the end of the body its quotes and the closing ones are read together
          by_cases hnil : text = []
          · subst hnil
            simpa [basicLinesBody] using (basicLinesFrom_close hrest read).2
          · by_cases hlast : run + 1 = 1 ∧ text = ['"']
            · obtain ⟨hzero, rfl⟩ := hlast
              obtain rfl : run = 0 := by omega
              simp [basicLinesBody, basicLinesFrom]
            · rw [basicLinesFrom_quote (not_prefix_basicLinesBody (by omega) hnil
                (fun hone heq => hlast ⟨hone, heq⟩) _), ih]
              simp
        · have hbody : basicLinesBody run ('"' :: text) =
              ['\\', '"'] ++ basicLinesBody 0 text := by
            simp [basicLinesBody, hrun]
          rw [hbody, List.append_assoc, basicLinesFrom_spelled (.short '"' rfl) (by decide), ih]
          simp
      · obtain ⟨word, hword, hbody⟩ := basicLinesBody_cons_of_ne hc run text
        rw [hbody, List.append_assoc]
        rcases hword with ⟨rfl, rfl⟩ | ⟨hline, hword⟩
        · rw [List.singleton_append, basicLinesFrom.eq_5, if_neg Bool.false_ne_true, ih]
          simp
        · rw [basicLinesFrom_spelled hword hline, ih]
          simp

theorem literalLinesFrom_cons {c : Char} (hplain : isPlain c = true ∨ c = '\n') {rest : Text}
    (h : c = '\'' → ¬['\'', '\''] <+: rest) (read : Text) :
    literalLinesFrom (c :: rest) read = literalLinesFrom rest (c :: read) := by
  have hno : c = '\'' → ∀ back, rest = '\'' :: '\'' :: back → False := fun hc back heq =>
    h hc ⟨back, heq.symm⟩
  have hreturn : c ≠ '\r' := by
    rintro rfl
    rcases hplain with hplain | hline
    · cases hplain
    · cases hline
  rw [literalLinesFrom.eq_5 _ _ _ (fun _ hc => hno hc _) (fun _ hc => hno hc _)
    (fun _ hc => hno hc _) (fun _ hc => absurd hc hreturn), if_pos]
  simpa using hplain

theorem literalLinesFrom_close {rest : Text} (hrest : rest.head? ≠ some '\'') (read : Text) :
    literalLinesFrom ('\'' :: '\'' :: '\'' :: rest) read =
        some (String.ofList read.reverse, rest) ∧
      literalLinesFrom ('\'' :: '\'' :: '\'' :: '\'' :: rest) read =
        some (String.ofList ('\'' :: read).reverse, rest) := by
  have hno : ∀ back, rest = '\'' :: back → False := by
    rintro back rfl
    exact hrest rfl
  exact ⟨literalLinesFrom.eq_3 _ _ (fun _ => hno _) (fun _ => hno _),
    literalLinesFrom.eq_2 _ _ (fun _ => hno _)⟩

theorem literalLinesFrom_append {rest : Text} (hrest : rest.head? ≠ some '\'') {text : Text}
    (hplain : ∀ c ∈ text, isPlain c = true ∨ c = '\n')
    (hruns : ¬['\'', '\'', '\''] <:+: text) (read : Text) :
    literalLinesFrom (text ++ '\'' :: '\'' :: '\'' :: rest) read =
      some (String.ofList (read.reverse ++ text), rest) := by
  induction text generalizing read with
  | nil => simpa using (literalLinesFrom_close hrest read).1
  | cons c text ih =>
      obtain ⟨hc, htext⟩ := List.forall_mem_cons.mp hplain
      have hlater := ih htext fun h => hruns (List.infix_cons h)
      rw [List.cons_append]
      by_cases hgo : c = '\'' ∧ (text = [] ∨ text = ['\''])
      · -- the last quotes of the string and the closing ones are read together
        obtain ⟨rfl, rfl | rfl⟩ := hgo
        · simpa using (literalLinesFrom_close hrest read).2
        · simp [literalLinesFrom]
      · rw [literalLinesFrom_cons hc, hlater]
        · simp
        · rintro rfl ⟨back, heq⟩
          match text with
          | [] => exact hgo ⟨rfl, .inl rfl⟩
          | [d] =>
              simp only [List.cons_append, List.nil_append, List.cons.injEq] at heq
              exact hgo ⟨rfl, .inr (by rw [← heq.1])⟩
          | d :: e :: more =>
              simp only [List.cons_append, List.nil_append, List.cons.injEq] at heq
              obtain ⟨rfl, rfl, -⟩ := heq
              exact hruns ⟨[], more, rfl⟩

/-! ## All forms -/

/-- A newline behind the opening mark is dropped; if there is none, nothing is. -/
theorem dropNewline_body {isMultiline : Bool} {body : Text}
    (h : isMultiline = true ∨ body.head? ≠ some '\n' ∧ body.head? ≠ some '\r') :
    dropNewline ((if isMultiline then ['\n'] else []) ++ body) = body := by
  cases isMultiline with
  | true => rfl
  | false =>
      obtain ⟨hline, hreturn⟩ := h.resolve_left Bool.false_ne_true
      have hnone : afterNewline? body = none := by
        rw [afterNewline?.eq_def]
        split
        · exact absurd rfl hline
        · exact absurd rfl hreturn
        · rfl
      simp [dropNewline, hnone]

section Forms

variable {text rest : Text}

theorem string?_basic (hrest : rest.head? ≠ some '"') :
    string? (between "\"" false (basicBody text) ++ rest) = some (String.ofList text, rest) := by
  have hbetween : between "\"" false (basicBody text) ++ rest =
      '"' :: (basicBody text ++ '"' :: rest) := by
    simp [between]
  have hno : ∀ back, basicBody text ++ '"' :: rest = '"' :: '"' :: back → False := by
    intro back heq
    cases text with
    | nil =>
        refine hrest ?_
        rw [(List.cons.inj heq).2]
        rfl
    | cons c text =>
        obtain ⟨word, hword, hbody⟩ := basicBody_cons c text
        obtain ⟨d, hhead, hd, -⟩ := hword.head?_append (basicBody text ++ '"' :: rest)
        rw [← List.append_assoc, ← hbody, heq] at hhead
        exact hd (Option.some.inj hhead).symm
  rw [hbetween, string?.eq_2 _ hno, basicFrom_basicBody]
  rfl

theorem string?_literal (hplain : ∀ c ∈ text, isPlain c = true) (hquote : '\'' ∉ text)
    (hrest : rest.head? ≠ some '\'') :
    string? (between "'" false text ++ rest) = some (String.ofList text, rest) := by
  have hbetween : between "'" false text ++ rest = '\'' :: (text ++ '\'' :: rest) := by
    simp [between]
  have hno : ∀ back, text ++ '\'' :: rest = '\'' :: '\'' :: back → False := by
    intro back heq
    cases text with
    | nil =>
        refine hrest ?_
        rw [(List.cons.inj heq).2]
        rfl
    | cons c text =>
        exact hquote (by rw [(List.cons.inj heq).1]; exact List.mem_cons_self)
  rw [hbetween, string?.eq_4 _ hno, literalFrom_append hplain hquote]
  rfl

/-- The first of several lines is not lost, whether or not a newline is written in front of it. -/
theorem string?_basicLines {isMultiline : Bool} (hlines : isMultiline = true ∨ '\n' ∉ text)
    (hrest : rest.head? ≠ some '"') :
    string? (between "\"\"\"" isMultiline (basicLinesBody 0 text) ++ rest) =
      some (String.ofList text, rest) := by
  have hbetween : between "\"\"\"" isMultiline (basicLinesBody 0 text) ++ rest =
      '"' :: '"' :: '"' :: ((if isMultiline then ['\n'] else []) ++
        (basicLinesBody 0 text ++ '"' :: '"' :: '"' :: rest)) := by
    simp [between]
  have hbody : isMultiline = true ∨
      (basicLinesBody 0 text ++ '"' :: '"' :: '"' :: rest).head? ≠ some '\n' ∧
        (basicLinesBody 0 text ++ '"' :: '"' :: '"' :: rest).head? ≠ some '\r' := by
    refine hlines.imp_right fun hline => ?_
    match text with
    | [] => simp [basicLinesBody]
    | c :: text =>
      by_cases hc : c = '"'
      · simp [basicLinesBody, hc]
      · obtain ⟨word, hword, hbody⟩ := basicLinesBody_cons_of_ne hc 0 text
        rw [hbody, List.append_assoc]
        rcases hword with ⟨rfl, -⟩ | ⟨-, hword⟩
        · exact absurd List.mem_cons_self hline
        · obtain ⟨d, hhead, -, hd⟩ := hword.head?_append
            (basicLinesBody 0 text ++ '"' :: '"' :: '"' :: rest)
          simpa [hhead] using hd
  rw [hbetween, string?.eq_1, dropNewline_body hbody, basicLinesFrom_basicLinesBody hrest]
  rfl

theorem string?_literalLines {isMultiline : Bool} (hlines : isMultiline = true ∨ '\n' ∉ text)
    (hplain : ∀ c ∈ text, isPlain c = true ∨ c = '\n') (hruns : ¬['\'', '\'', '\''] <:+: text)
    (hrest : rest.head? ≠ some '\'') :
    string? (between "'''" isMultiline text ++ rest) = some (String.ofList text, rest) := by
  have hbetween : between "'''" isMultiline text ++ rest =
      '\'' :: '\'' :: '\'' :: ((if isMultiline then ['\n'] else []) ++
        (text ++ '\'' :: '\'' :: '\'' :: rest)) := by
    simp [between]
  have hbody : isMultiline = true ∨ (text ++ '\'' :: '\'' :: '\'' :: rest).head? ≠ some '\n' ∧
      (text ++ '\'' :: '\'' :: '\'' :: rest).head? ≠ some '\r' := by
    refine hlines.imp_right fun hline => ?_
    match text with
    | [] => simp
    | c :: text =>
      have hne : c ≠ '\n' := fun hc => hline (by rw [hc]; exact List.mem_cons_self)
      have hreturn : c ≠ '\r' := by
        rintro rfl
        rcases hplain _ List.mem_cons_self with h | h <;> cases h
      simp [hne, hreturn]
  rw [hbetween, string?.eq_3, dropNewline_body hbody, literalLinesFrom_append hrest hplain hruns]
  rfl

/-- A string is read back from the form that is chosen for it. -/
theorem string?_quote (text : Text) (hdouble : rest.head? ≠ some '"')
    (hsingle : rest.head? ≠ some '\'') :
    string? (quote text ++ rest) = some (String.ofList text, rest) := by
  have hplain (h : text.any needsEscape = false) : ∀ c ∈ text, isPlain c = true ∨ c = '\n' := by
    intro c hc
    simpa [needsEscape, or_iff_not_imp_left] using List.any_eq_false.mp h c hc
  have hline (h : Text.contains text ['\n'] = false) : '\n' ∉ text := by
    intro hm
    rw [← List.singleton_infix_iff, ← Text.contains_iff_infix, h] at hm
    cases hm
  have hlines : Text.contains text ['\n'] = true ∨ '\n' ∉ text :=
    (Bool.eq_false_or_eq_true _).imp_right hline
  unfold quote
  dsimp only
  split
  · exact string?_basic hdouble
  split
  · rename_i h
    simp only [Bool.and_eq_true, Bool.not_eq_true', beq_iff_eq] at h
    obtain ⟨⟨hcontrols, hsingles⟩, hone⟩ := h
    refine string?_literal ?_ (not_mem_of_longestRun_eq_zero hsingles) hsingle
    exact fun c hc => (hplain hcontrols c hc).resolve_right fun heq => hline hone (heq ▸ hc)
  split
  · exact string?_basicLines hlines hdouble
  split
  · rename_i h
    simp only [Bool.and_eq_true, Bool.not_eq_true', decide_eq_true_eq] at h
    exact string?_literalLines hlines (hplain h.1)
      (not_infix_of_longestRun_lt (n := 3) (Nat.lt_succ_of_le h.2)) hsingle
  split
  · exact string?_basicLines (.inl rfl) hdouble
  · exact string?_basic hdouble

/-- A written string begins with a quote. -/
theorem exists_quote_eq (text : Text) :
    ∃ mark rest, (mark = '"' ∨ mark = '\'') ∧ quote text = mark :: rest := by
  unfold quote
  dsimp only
  repeat' split
  all_goals simp [between]

end Forms

end CodeAtlas.Toml
