import CodeAtlas.Proofs.Text
import CodeAtlas.Toml.Number

/-! TOML numbers. A whole number is read back from its decimal digits, which are not taken for
a date. -/

namespace CodeAtlas.Toml

/-! ## Decimal digits -/

theorem head?_toDigits {n : Nat} (hn : 0 < n) : (Nat.toDigits 10 n).head? ≠ some '0' := by
  induction n using Nat.strongRecOn with
  | ind n ih =>
      rcases Nat.lt_or_ge n 10 with hlt | hge
      · have hdigit : ∀ m < 10, 0 < m → m.digitChar ≠ '0' := by decide
        rw [Nat.toDigits_of_lt_base hlt, List.head?_cons]
        exact fun heq => hdigit n hlt hn (Option.some.inj heq)
      · rw [Nat.toDigits_of_base_le (by decide) hge, List.head?_append]
        have hfront := ih (n / 10) (by omega) (by omega)
        cases hhead : (Nat.toDigits 10 (n / 10)).head? with
        | none => exact absurd (List.head?_eq_none_iff.mp hhead) Nat.toDigits_ne_nil
        | some c => rwa [hhead] at hfront

theorem exists_toDigits_eq_cons (n : Nat) :
    ∃ c digits, Nat.toDigits 10 n = c :: digits ∧ c.isDigit = true ∧
      ∀ d ∈ digits, d.isDigit = true := by
  have hall : ∀ d ∈ Nat.toDigits 10 n, d.isDigit = true := fun d hd =>
    Nat.isDigit_of_mem_toDigits (by decide) (by decide) hd
  obtain ⟨c, digits, hdigits⟩ := List.exists_cons_of_ne_nil (Nat.toDigits_ne_nil (n := n) (b := 10))
  rw [hdigits] at hall
  exact ⟨c, digits, hdigits, List.forall_mem_cons.mp hall⟩

theorem hexValue?_of_isDigit {c : Char} (h : c.isDigit = true) :
    Json.hexValue? c = some (c.toNat - 48) := by
  simp only [Char.isDigit, ge_iff_le, Bool.and_eq_true, decide_eq_true_eq] at h
  exact if_pos (by simpa [Char.le_def] using h)

theorem valueOf_toDigits (n : Nat) : valueOf 10 (Nat.toDigits 10 n) = n := by
  have hdigits : ∀ m, ∀ c ∈ Nat.toDigits 10 n,
      10 * m + (Json.hexValue? c).getD 0 = 10 * m + (c.toNat - '0'.toNat) := by
    intro m c hc
    rw [hexValue?_of_isDigit (Nat.isDigit_of_mem_toDigits (by decide) (by decide) hc)]
    rfl
  rw [valueOf, List.foldl_ext _ _ _ hdigits]
  exact Nat.ofDigitChars_ten_toDigits

/-! ## Dates -/

theorem two?_eq_some {limit value : Nat} {text rest : Text}
    (h : two? limit text = some (value, rest)) :
    ∃ front, text = front ++ rest ∧ ∀ c ∈ front, c.isDigit = true := by
  match text with
  | [] | [_] => cases h
  | a :: b :: text =>
    simp only [two?, Bool.and_eq_true, decide_eq_true_eq, Option.ite_none_right_eq_some,
      Option.some.injEq, Prod.mk.injEq] at h
    obtain ⟨⟨⟨ha, hb⟩, -⟩, -, rfl⟩ := h
    exact ⟨[a, b], rfl, by simp [ha, hb]⟩

theorem skip?_eq_some {c : Char} {text rest : Text} (h : skip? c text = some rest) :
    text = c :: rest := by
  match text with
  | [] => cases h
  | d :: text =>
    simp only [skip?, Option.ite_none_right_eq_some, Option.some.injEq] at h
    obtain ⟨rfl, rfl⟩ := h
    rfl

/-- A date or a time has a mark behind its first digits. -/
theorem date?_eq_none {front rest : Text} {c : Char} (hfront : ∀ d ∈ front, d.isDigit = true)
    (hc : c.isDigit = false) (hday : c ≠ '-') (htime : c ≠ ':') :
    date? (front ++ c :: rest) = none := by
  have hmark : ∀ mark digits back, mark.isDigit = false → (∀ d ∈ digits, d.isDigit = true) →
      front ++ c :: rest = digits ++ mark :: back → c = mark := by
    intro mark digits back hmark hdigits heq
    have hleft : (front ++ c :: rest).dropWhile Char.isDigit = c :: rest :=
      (Text.takeWhile_append_of_head? hfront (by simpa using hc)).2
    have hright : (digits ++ mark :: back).dropWhile Char.isDigit = mark :: back :=
      (Text.takeWhile_append_of_head? hdigits (by simpa using hmark)).2
    rw [heq, hright] at hleft
    exact (List.cons.inj hleft).1.symm
  have hnoday : day? (front ++ c :: rest) = none := by
    rw [Option.eq_none_iff_forall_ne_some]
    intro read h
    simp only [day?, Option.bind_eq_bind, Option.bind_eq_some_iff, Prod.exists] at h
    obtain ⟨_, _, hcentury, _, _, hdecade, _, hskip, -⟩ := h
    obtain ⟨century, htext, hfirst⟩ := two?_eq_some hcentury
    obtain ⟨decade, rfl, hsecond⟩ := two?_eq_some hdecade
    obtain rfl := skip?_eq_some hskip
    refine hday (hmark _ (century ++ decade) _ rfl ?_ (by rw [htext, List.append_assoc]))
    exact List.forall_mem_append.mpr ⟨hfirst, hsecond⟩
  have hnotime : time? (front ++ c :: rest) = none := by
    rw [Option.eq_none_iff_forall_ne_some]
    intro read h
    simp only [time?, Option.bind_eq_bind, Option.bind_eq_some_iff, Prod.exists] at h
    obtain ⟨_, _, hhour, _, hskip, -⟩ := h
    obtain ⟨hour, htext, hfirst⟩ := two?_eq_some hhour
    obtain rfl := skip?_eq_some hskip
    exact htime (hmark _ _ _ rfl hfirst htext)
  rw [date?, hnoday]
  exact hnotime

/-! ## Whole numbers -/

theorem digitsFrom_append {front rest : Text} {c : Char} (hfront : ∀ d ∈ front, d.isDigit = true)
    (hc : c.isDigit = false) (hmark : c ≠ '_') (read : Text) :
    digitsFrom Char.isDigit (front ++ c :: rest) read = some (read.reverse ++ front, c :: rest) := by
  induction front generalizing read with
  | nil =>
      rw [List.nil_append, digitsFrom.eq_3 _ _ _ _ (fun _ _ h _ => hmark h) (fun h _ => hmark h),
        if_neg (by simp [hc]), List.append_nil]
  | cons d front ih =>
      obtain ⟨hd, hfront⟩ := List.forall_mem_cons.mp hfront
      have hne : d ≠ '_' := by
        rintro rfl
        cases hd
      rw [List.cons_append, digitsFrom.eq_3 _ _ _ _ (fun _ _ h _ => hne h) (fun h _ => hne h),
        if_pos hd, ih hfront]
      simp

theorem integer?_of_lt {n : Nat} (hn : n < Json.signedLimit) : integer? n = some (.int n) := by
  unfold integer?
  generalize Json.signedLimit = limit at hn
  simp only [Int.ofNat_eq_natCast]
  exact if_pos (by omega)

/-- A number without decimals. -/
theorem decimal?_whole {text digits rest : Text} (hwhole : whole? text = some (digits, rest))
    (hfraction : fraction? rest = some (none, rest))
    (hexponent : exponent? rest = some (none, rest)) :
    decimal? false text = (integer? (valueOf 10 digits)).map fun value => (value, rest) := by
  unfold decimal?
  simp only [Option.bind_eq_bind, hwhole, Option.bind_some, hfraction]
  rw [hexponent, Option.bind_some]
  refine (if_pos rfl).trans ?_
  rw [if_neg Bool.false_ne_true]
  cases integer? (valueOf 10 digits) <;> rfl

theorem whole?_toDigits (n : Nat) (rest : Text) :
    whole? (Nat.toDigits 10 n ++ '\n' :: rest) = some (Nat.toDigits 10 n, '\n' :: rest) := by
  rcases Nat.eq_zero_or_pos n with rfl | hn
  · rfl
  · obtain ⟨c, digits, heq, hc, hdigits⟩ := exists_toDigits_eq_cons n
    have hzero := head?_toDigits hn
    rw [heq] at hzero ⊢
    rw [List.cons_append, whole?.eq_2 _ fun _ h => hzero (by rw [(List.cons.inj h).1]; rfl),
      digits?, if_pos hc, digitsFrom_append hdigits rfl (by decide)]
    rfl

/-- The digits of a number, in front of the end of a line. -/
theorem number?_toDigits {n : Nat} (hn : n < Json.signedLimit) (rest : Text) :
    number? (Nat.toDigits 10 n ++ '\n' :: rest) = some (.int n, '\n' :: rest) := by
  have hdecimal := decimal?_whole (whole?_toDigits n rest) rfl rfl
  rw [valueOf_toDigits, integer?_of_lt hn] at hdecimal
  rcases Nat.eq_zero_or_pos n with rfl | hpos
  · exact hdecimal
  obtain ⟨c, digits, heq, hc, -⟩ := exists_toDigits_eq_cons n
  have hzero : c ≠ '0' := by
    have hhead := head?_toDigits hpos
    rw [heq] at hhead
    exact fun h => hhead (by rw [h]; rfl)
  rw [heq, List.cons_append] at hdecimal ⊢
  have hsign : sign (c :: (digits ++ '\n' :: rest)) = (false, c :: (digits ++ '\n' :: rest)) :=
    sign.eq_3 _ (fun _ => Text.cons_ne_of_kind hc rfl) fun _ => Text.cons_ne_of_kind hc rfl
  rw [number?.eq_4 _ (fun _ h => hzero (List.cons.inj h).1) (fun _ h => hzero (List.cons.inj h).1)
    fun _ h => hzero (List.cons.inj h).1, hsign]
  dsimp only
  split
  · rename_i h
    exact absurd h (Text.cons_ne_of_kind hc rfl)
  · rename_i h
    exact absurd h (Text.cons_ne_of_kind hc rfl)
  · exact hdecimal

end CodeAtlas.Toml
