import CodeAtlas.Proofs.Text
import CodeAtlas.Repair.Brackets

/-! Bracket repair. Each kind of bracket keeps its openers and as many of its first closers as it has
openers; the closers that are missing are put at the end. -/

namespace CodeAtlas.Repair

/-! ## Characters by what stands in front of them -/

/-- The characters that `keep` holds of, each asked for together with the text in front of it. -/
def filterAfter (keep : Text → Char → Bool) : Text → Text → Text
  | _, [] => []
  | front, c :: rest =>
    if keep front c then c :: filterAfter keep (front ++ [c]) rest
    else filterAfter keep (front ++ [c]) rest

section FilterAfter

variable {keep : Text → Char → Bool}

theorem filterAfter_concat (front text : Text) (c : Char) :
    filterAfter keep front (text ++ [c]) =
      filterAfter keep front text ++ if keep (front ++ text) c then [c] else [] := by
  induction text generalizing front with
  | nil => simp [filterAfter]
  | cons d text ih =>
      simp only [List.cons_append, filterAfter, ih, List.append_assoc, List.nil_append]
      split <;> simp

/-- Where all characters of some kinds are kept, the text holds them as before. -/
theorem filter_filterAfter {kind : Char → Bool}
    (h : ∀ c, kind c = true → ∀ front, keep front c = true) (text : Text) :
    (filterAfter keep [] text).filter kind = text.filter kind := by
  induction text using List.reverseRecOn with
  | nil => rfl
  | append_singleton text c ih =>
      rw [filterAfter_concat, List.filter_append, List.filter_append, ih]
      cases hkind : kind c with
      | true => simp [h c hkind, hkind]
      | false => split <;> simp [hkind]

theorem count_filterAfter {c : Char} (h : ∀ front, keep front c = true) (text : Text) :
    (filterAfter keep [] text).count c = text.count c := by
  have hkind : ∀ d, (d == c) = true → ∀ front, keep front d = true := by
    intro d hd
    rwa [beq_iff_eq.mp hd]
  have hfilter := congrArg List.length (filter_filterAfter hkind text)
  rwa [← List.countP_eq_length_filter, ← List.countP_eq_length_filter, ← List.count_eq_countP,
    ← List.count_eq_countP] at hfilter

/-- Where only the first `limit` characters `c` are kept, there are no more than these. -/
theorem count_filterAfter_of_limit {c : Char} {limit : Nat}
    (h : ∀ front, keep front c = decide (front.count c < limit)) (text : Text) :
    (filterAfter keep [] text).count c = min limit (text.count c) := by
  induction text using List.reverseRecOn with
  | nil => simp [filterAfter]
  | append_singleton text d ih =>
      rw [filterAfter_concat, List.count_append, List.count_append, ih, List.nil_append]
      by_cases hd : d = c
      · subst hd
        rw [h, List.count_singleton_self]
        by_cases hlimit : text.count d < limit
        · simp only [hlimit, decide_true, if_true, List.count_singleton_self]
          omega
        · simp only [hlimit, decide_false, Bool.false_eq_true, if_false, List.count_nil]
          omega
      · have hnone : List.count c [d] = 0 := List.count_eq_zero.mpr (by simpa using Ne.symm hd)
        split <;> simp [hnone]

end FilterAfter

/-! ## Removing closers -/

/-- The text with only the first `limit` characters `c`. -/
def keepFirst (c : Char) (limit : Nat) (text : Text) : Text :=
  filterAfter (fun front d => !(d == c && limit ≤ front.count c)) [] text

theorem keepFirst_concat (c : Char) (limit : Nat) (text : Text) (d : Char) :
    keepFirst c limit (text ++ [d]) =
      keepFirst c limit text ++ if d == c && limit ≤ text.count c then [] else [d] := by
  rw [keepFirst, filterAfter_concat, List.nil_append, ← keepFirst]
  cases d == c && decide (limit ≤ text.count c) <;> rfl

theorem keepFirst_of_count_le {c : Char} {limit : Nat} {text : Text} (h : text.count c ≤ limit) :
    keepFirst c limit text = text := by
  induction text using List.reverseRecOn with
  | nil => rfl
  | append_singleton text d ih =>
      rw [List.count_append] at h
      rw [keepFirst_concat, ih (by omega)]
      by_cases hd : d = c
      · subst hd
        have hroom : ¬limit ≤ text.count d := by
          rw [List.count_singleton_self] at h
          omega
        simp [hroom]
      · simp [hd]

theorem removeFirst_cons_of_ne {c d : Char} (h : d ≠ c) (n : Nat) (text : Text) :
    removeFirst c n (d :: text) = d :: removeFirst c n text := by
  induction n generalizing text with
  | zero => rfl
  | succ n ih =>
      have herase : (d :: text).erase c = d :: text.erase c := by simp [h]
      rw [removeFirst, herase, ih, removeFirst]

theorem removeLast_concat_self (c : Char) (n : Nat) (text : Text) :
    removeLast c (n + 1) (text ++ [c]) = removeLast c n text := by
  simp [removeLast, removeFirst]

theorem removeLast_concat_of_ne {c d : Char} (h : d ≠ c) (n : Nat) (text : Text) :
    removeLast c n (text ++ [d]) = removeLast c n text ++ [d] := by
  simp [removeLast, removeFirst_cons_of_ne h]

/-- To remove all but `limit` characters from the end is to keep the first `limit` ones. -/
theorem removeLast_eq_keepFirst (c : Char) (limit : Nat) (text : Text) :
    removeLast c (text.count c - limit) text = keepFirst c limit text := by
  induction text using List.reverseRecOn with
  | nil => simp [removeLast, removeFirst, keepFirst, filterAfter]
  | append_singleton text d ih =>
      rw [keepFirst_concat, List.count_append]
      by_cases hd : d = c
      · subst hd
        rw [List.count_singleton_self]
        by_cases hlimit : limit ≤ text.count d
        · rw [Nat.sub_add_comm hlimit, removeLast_concat_self, ih]
          simp [hlimit]
        · have hnone : text.count d + 1 - limit = 0 := by omega
          rw [hnone, keepFirst_of_count_le (Nat.le_of_not_le hlimit)]
          simp [removeLast, removeFirst, hlimit]
      · have hcount : List.count c [d] = 0 := List.count_eq_zero.mpr (by simpa using Ne.symm hd)
        rw [hcount, Nat.add_zero, removeLast_concat_of_ne hd, ih]
        simp [hd]

/-- Keeping the first characters `c` of a text from which other characters are gone. -/
theorem keepFirst_filterAfter {keep : Text → Char → Bool} {c : Char}
    (h : ∀ front, keep front c = true) (limit : Nat) (text : Text) :
    keepFirst c limit (filterAfter keep [] text) =
      filterAfter (fun front d => keep front d && !(d == c && limit ≤ front.count c)) [] text := by
  induction text using List.reverseRecOn with
  | nil => rfl
  | append_singleton text d ih =>
      rw [filterAfter_concat, filterAfter_concat, List.nil_append]
      cases hkeep : keep text d with
      | false => simpa using ih
      | true =>
          rw [if_pos rfl, keepFirst_concat, ih, count_filterAfter h]
          cases d == c && decide (limit ≤ text.count c) <;> rfl

/-! ## One kind of bracket after the other -/

/-- A closer with as many closers of its kind in front of it as the text has openers for them. -/
def isExcess (text : Text) (pairs : List (Char × Char)) (front : Text) (c : Char) : Bool :=
  pairs.any fun pair => c == pair.2 && text.count pair.1 ≤ front.count pair.2

/-- The closers that a kind of bracket lacks. -/
def missingOf (text : Text) (pair : Char × Char) : Text :=
  List.replicate (text.count pair.1 - text.count pair.2) pair.2

/-- What is known of a repair when the kinds of brackets in `pairs` have been balanced. -/
structure BracketRepair.Balanced (text : Text) (pairs : List (Char × Char))
    (repair : BracketRepair) : Prop where
  text_eq : repair.text = filterAfter (fun front c => !isExcess text pairs front c) [] text
  closers_eq : repair.closers = pairs.flatMap (missingOf text)
  changes_iff : repair.changes = [] ↔ ∀ pair ∈ pairs, text.count pair.1 = text.count pair.2

theorem isExcess_eq_false {pairs : List (Char × Char)} {c : Char} (h : c ∉ pairs.map (·.2))
    (text front : Text) : isExcess text pairs front c = false := by
  rw [isExcess, List.any_eq_false]
  intro pair hm
  have hc : c ≠ pair.2 := fun hc => h (List.mem_map.mpr ⟨pair, hm, hc.symm⟩)
  simp [hc]

theorem isExcess_concat (text : Text) (pairs : List (Char × Char)) (pair : Char × Char)
    (front : Text) (c : Char) : isExcess text (pairs ++ [pair]) front c =
      (isExcess text pairs front c ||
        (c == pair.2 && decide (text.count pair.1 ≤ front.count pair.2))) := by
  simp [isExcess]

/-- The closers on a line of their own, behind a gap that ends the line before it. -/
def closingLine (gap closers : Text) : Text :=
  if closers = [] then [] else gap ++ closers ++ ['\n']

theorem count_closingLine {c : Char} (hc : c ≠ '\n') {gap : Text} (h : gap = [] ∨ gap = ['\n'])
    (closers : Text) : (closingLine gap closers).count c = closers.count c := by
  have hgap : gap.count c = 0 := by
    rcases h with rfl | rfl <;> simp [hc.symm]
  unfold closingLine
  split
  · rename_i hnone
    rw [hnone]
  · simp [hgap, hc.symm]

namespace BracketRepair

/-- What is balanced for one kind of bracket, in all three cases. -/
theorem balance_eq (repair : BracketRepair) (pair : Char × Char) :
    (repair.balance pair).text = keepFirst pair.2 (repair.text.count pair.1) repair.text ∧
    (repair.balance pair).closers = repair.closers ++ missingOf repair.text pair ∧
    ((repair.balance pair).changes = [] ↔
      repair.changes = [] ∧ repair.text.count pair.1 = repair.text.count pair.2) := by
  unfold balance
  simp only
  split
  · rename_i hlack
    refine ⟨(keepFirst_of_count_le hlack.le).symm, rfl, ?_⟩
    simp [hlack.ne']
  · rename_i hfull
    have hnone : missingOf repair.text pair = [] := by
      simp [missingOf, Nat.sub_eq_zero_of_le (Nat.le_of_not_lt hfull)]
    rw [hnone, List.append_nil]
    split
    · rename_i hexcess
      refine ⟨removeLast_eq_keepFirst _ _ _, rfl, ?_⟩
      simp [hexcess.ne]
    · rename_i heven
      have hsame : repair.text.count pair.1 = repair.text.count pair.2 := by omega
      exact ⟨(keepFirst_of_count_le hsame.ge).symm, rfl, by simp [hsame]⟩

theorem balanced_start (text : Text) : Balanced text [] ⟨text, [], []⟩ := by
  have hkept : ∀ c, true = true → ∀ front, (!isExcess text [] front c) = true :=
    fun _ _ _ => rfl
  have hall := filter_filterAfter hkept text
  rw [List.filter_true, List.filter_true] at hall
  exact ⟨hall.symm, rfl, by simp⟩

/-- Balancing a further kind of bracket changes nothing about the others. -/
theorem Balanced.balance {text : Text} {pairs : List (Char × Char)} {repair : BracketRepair}
    (h : Balanced text pairs repair) (pair : Char × Char) (hopener : pair.1 ∉ pairs.map (·.2))
    (hcloser : pair.2 ∉ pairs.map (·.2)) :
    Balanced text (pairs ++ [pair]) (repair.balance pair) := by
  obtain ⟨htext, hclosers, hchanges⟩ := balance_eq repair pair
  have hkept : ∀ c, c ∉ pairs.map (·.2) → repair.text.count c = text.count c := by
    intro c hc
    rw [h.text_eq]
    exact count_filterAfter (fun front => by simp [isExcess_eq_false hc]) text
  have hcounts : missingOf repair.text pair = missingOf text pair := by
    rw [missingOf, missingOf, hkept _ hopener, hkept _ hcloser]
  refine ⟨?_, ?_, ?_⟩
  · have hall : ∀ front, (!isExcess text pairs front pair.2) = true := by
      intro front
      rw [isExcess_eq_false hcloser, Bool.not_false]
    rw [htext, hkept _ hopener, h.text_eq, keepFirst_filterAfter hall]
    simp only [isExcess_concat, Bool.not_or]
  · rw [hclosers, h.closers_eq, hcounts, List.flatMap_append, List.flatMap_singleton]
  · rw [hchanges, h.changes_iff, hkept _ hopener, hkept _ hcloser, List.forall_mem_append,
      List.forall_mem_singleton]

/-- The repair of a text, kind after kind. -/
def ofText (text : Text) : BracketRepair :=
  bracketPairs.foldl balance ⟨text, [], []⟩

theorem balanced_ofText (text : Text) : Balanced text bracketPairs (ofText text) := by
  -- No bracket of a kind is a closer of the kinds that are balanced before it.
  have hsquare := (balanced_start text).balance ('[', ']') (by decide) (by decide)
  have hround := hsquare.balance ('(', ')') (by decide) (by decide)
  exact hround.balance ('\x7b', '\x7d') (by decide) (by decide)

theorem exists_content_eq (repair : BracketRepair) : ∃ gap, (gap = [] ∨ gap = ['\n']) ∧
    repair.content = repair.text ++ closingLine gap repair.closers := by
  unfold content closingLine
  simp only [List.isEmpty_iff]
  split
  · exact ⟨[], .inl rfl, by simp⟩
  · split
    · exact ⟨[], .inl rfl, by simp⟩
    · exact ⟨['\n'], .inr rfl, by simp⟩

end BracketRepair

/-! ## All kinds of brackets -/

def isBracket (c : Char) : Bool :=
  bracketPairs.any fun pair => c == pair.1 || c == pair.2

/-- Each kind of bracket opens as often as it closes. -/
def IsBalanced (text : Text) : Prop :=
  ∀ pair ∈ bracketPairs, text.count pair.1 = text.count pair.2

/-- The text with no more closers of a kind than it has openers, the first ones being kept. -/
def withoutExcess (text : Text) : Text :=
  filterAfter (fun front c => !isExcess text bracketPairs front c) [] text

/-- The closers that the text lacks. -/
def missingClosers (text : Text) : Text :=
  bracketPairs.flatMap (missingOf text)

/-- What a repair of brackets makes of a text. -/
structure BalancesBrackets (text content : Text) : Prop where
  opens : ∀ pair ∈ bracketPairs, content.count pair.1 = text.count pair.1
  closes : ∀ pair ∈ bracketPairs, content.count pair.2 = content.count pair.1
  again : bracketFix content = none
  content_eq : ∃ gap, (gap = [] ∨ gap = ['\n']) ∧
    content = withoutExcess text ++ closingLine gap (missingClosers text)
  others_kept : ∃ newlines ≤ 2, content.filter (!isBracket ·) =
    text.filter (!isBracket ·) ++ List.replicate newlines '\n'

theorem not_closer_of_opener {pair : Char × Char} (h : pair ∈ bracketPairs) :
    pair.1 ∉ bracketPairs.map (·.2) := by
  have hall : ∀ pair ∈ bracketPairs, pair.1 ∉ bracketPairs.map (·.2) := by decide
  exact hall pair h

theorem isExcess_closer {pair : Char × Char} (h : pair ∈ bracketPairs) (text front : Text) :
    isExcess text bracketPairs front pair.2 =
      decide (text.count pair.1 ≤ front.count pair.2) := by
  simp only [bracketPairs, List.mem_cons, List.not_mem_nil, or_false] at h
  rcases h with rfl | rfl | rfl <;> simp [isExcess, bracketPairs]

theorem count_opener_withoutExcess {pair : Char × Char} (h : pair ∈ bracketPairs) (text : Text) :
    (withoutExcess text).count pair.1 = text.count pair.1 :=
  count_filterAfter (fun front => by simp [isExcess_eq_false (not_closer_of_opener h)]) text

theorem count_closer_withoutExcess {pair : Char × Char} (h : pair ∈ bracketPairs) (text : Text) :
    (withoutExcess text).count pair.2 = min (text.count pair.1) (text.count pair.2) := by
  refine count_filterAfter_of_limit (fun front => ?_) text
  rw [isExcess_closer h, ← decide_not, decide_eq_decide, Nat.not_le]

theorem count_opener_missingClosers {pair : Char × Char} (h : pair ∈ bracketPairs) (text : Text) :
    (missingClosers text).count pair.1 = 0 := by
  refine List.count_eq_zero.mpr fun hm => ?_
  obtain ⟨other, hother, hmissing⟩ := List.mem_flatMap.mp hm
  have hcloser := List.eq_of_mem_replicate hmissing
  exact not_closer_of_opener h (List.mem_map.mpr ⟨other, hother, hcloser.symm⟩)

theorem count_closer_missingClosers {pair : Char × Char} (h : pair ∈ bracketPairs) (text : Text) :
    (missingClosers text).count pair.2 = text.count pair.1 - text.count pair.2 := by
  simp only [bracketPairs, List.mem_cons, List.not_mem_nil, or_false] at h
  rcases h with rfl | rfl | rfl <;>
    simp [missingClosers, bracketPairs, missingOf, List.count_replicate]

theorem isBracket_closer {pair : Char × Char} (h : pair ∈ bracketPairs) :
    isBracket pair.2 = true :=
  List.any_eq_true.mpr ⟨pair, h, by simp⟩

/-- All that is no bracket on the last line is its ends. -/
theorem filter_closingLine {gap : Text} (h : gap = [] ∨ gap = ['\n']) (text : Text) :
    ∃ newlines ≤ 2, (closingLine gap (missingClosers text)).filter (!isBracket ·) =
      List.replicate newlines '\n' := by
  have hclosers : (missingClosers text).filter (!isBracket ·) = [] := by
    rw [List.filter_eq_nil_iff]
    intro c hc
    obtain ⟨pair, hpair, hmissing⟩ := List.mem_flatMap.mp hc
    rw [List.eq_of_mem_replicate hmissing, isBracket_closer hpair]
    decide
  have hnewline : isBracket '\n' = false := by decide
  unfold closingLine
  split
  · exact ⟨0, by decide, rfl⟩
  · rw [List.filter_append, List.filter_append, hclosers]
    rcases h with rfl | rfl
    · exact ⟨1, by decide, by simp [hnewline]⟩
    · exact ⟨2, by decide, by simp [hnewline]⟩

theorem filter_withoutExcess (text : Text) :
    (withoutExcess text).filter (!isBracket ·) = text.filter (!isBracket ·) := by
  refine filter_filterAfter (fun c hc front => ?_) text
  have hother : c ∉ bracketPairs.map (·.2) := by
    intro hm
    obtain ⟨pair, hpair, rfl⟩ := List.mem_map.mp hm
    rw [isBracket_closer hpair] at hc
    cases hc
  rw [isExcess_eq_false hother, Bool.not_false]

theorem bracketFix_eq (text : Text) : bracketFix text =
    if (BracketRepair.ofText text).changes = [] then none
    else some (.ofContent .bracketFix (BracketRepair.ofText text).content
      (BracketRepair.ofText text).changes) := by
  simp only [bracketFix, List.isEmpty_iff]
  rfl

theorem bracketFix_eq_none_iff (text : Text) : bracketFix text = none ↔ IsBalanced text := by
  have hchanges := (BracketRepair.balanced_ofText text).changes_iff
  rw [← IsBalanced] at hchanges
  rw [bracketFix_eq, ← hchanges]
  simp

theorem balancesBrackets_content (text : Text) :
    BalancesBrackets text (BracketRepair.ofText text).content := by
  have hrepair := BracketRepair.balanced_ofText text
  have hnewline : ∀ pair ∈ bracketPairs, pair.1 ≠ '\n' ∧ pair.2 ≠ '\n' := by decide
  obtain ⟨gap, hgap, hcontent⟩ := BracketRepair.exists_content_eq (BracketRepair.ofText text)
  rw [hrepair.closers_eq, hrepair.text_eq, ← missingClosers, ← withoutExcess] at hcontent
  generalize (BracketRepair.ofText text).content = content at hcontent
  have hopens : ∀ pair ∈ bracketPairs, content.count pair.1 = text.count pair.1 := by
    intro pair hpair
    rw [hcontent, List.count_append, count_opener_withoutExcess hpair,
      count_closingLine (hnewline pair hpair).1 hgap, count_opener_missingClosers hpair,
      Nat.add_zero]
  have hcloses : ∀ pair ∈ bracketPairs, content.count pair.2 = content.count pair.1 := by
    intro pair hpair
    rw [hopens pair hpair, hcontent, List.count_append, count_closer_withoutExcess hpair,
      count_closingLine (hnewline pair hpair).2 hgap, count_closer_missingClosers hpair]
    omega
  refine ⟨hopens, hcloses, ?_, ⟨gap, hgap, hcontent⟩, ?_⟩
  · rw [bracketFix_eq_none_iff]
    exact fun pair hpair => (hcloses pair hpair).symm
  · obtain ⟨newlines, hle, hline⟩ := filter_closingLine hgap text
    exact ⟨newlines, hle, by rw [hcontent, List.filter_append, filter_withoutExcess, hline]⟩

/-- A text is repaired unless its brackets balance. The repair keeps the openers and all that is no
bracket, of each kind of bracket the first closers up to the number of its openers, and puts the
missing closers at the end, so that nothing is left to be repaired. -/
theorem bracketFix_balances (text : Text) :
    (bracketFix text = none ↔ IsBalanced text) ∧
      ∀ outcome, bracketFix text = some outcome →
        ∃ content, outcome.output = .content content ∧ BalancesBrackets text content := by
  refine ⟨bracketFix_eq_none_iff text, fun outcome h => ?_⟩
  rw [bracketFix_eq] at h
  split at h
  · cases h
  · obtain rfl := Option.some.inj h
    exact ⟨_, rfl, balancesBrackets_content text⟩

/-- A text with a closer too many of one kind and one too few of another. -/
def crossedText : Text := "f(x))\n[".toList

theorem crossedText_balanced : ∃ outcome, bracketFix crossedText = some outcome ∧
    ∃ content, outcome.output = .content content ∧ BalancesBrackets crossedText content := by
  have hsome : (bracketFix crossedText).isSome = true := by decide +kernel
  obtain ⟨outcome, houtcome⟩ := Option.isSome_iff_exists.mp hsome
  exact ⟨outcome, houtcome, (bracketFix_balances crossedText).2 outcome houtcome⟩

end CodeAtlas.Repair
