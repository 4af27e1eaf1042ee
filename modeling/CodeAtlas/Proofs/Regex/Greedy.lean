import CodeAtlas.Proofs.Regex.Match

/-! What a pattern prefers. A repetition takes as many characters as there are, wherever what
follows it succeeds there, and so an optional part behind it that begins with such a character is
never taken. A pattern that begins at the start of a line is found at most once on one line. -/

namespace CodeAtlas

namespace Regex

open Cursor

section Run

variable {α : Type} {front rest text : Text} {captures : Captures} {next : Continuation α}
  {answer : α}

/-! ## Patterns one after the other -/

theorem run_all_cons (p : Pattern) (ps : List Pattern) (cursor : Cursor) :
    run (all (p :: ps)) cursor captures next =
      run p cursor captures fun cursor captures => run (all ps) cursor captures next := by
  cases ps <;> rfl

theorem run_all_append (ps qs : List Pattern) (cursor : Cursor) :
    run (all (ps ++ qs)) cursor captures next =
      run (all ps) cursor captures fun cursor captures => run (all qs) cursor captures next := by
  induction ps generalizing cursor captures with
  | nil => rfl
  | cons p ps ih =>
      simp only [List.cons_append, run_all_cons, ih]

/-! ## Characters of a text -/

theorem run_char {set : CharClass} {c : Char} (hc : set.has c = true) :
    run (.char set) (between front (c :: rest)) captures next =
      next (between (front ++ [c]) rest) captures := by
  rw [← step_between]
  exact if_pos hc

theorem run_lit (word : String) :
    run (lit word) (between front (word.toList ++ rest)) captures next =
      next (between (front ++ word.toList) rest) captures := by
  rw [lit]
  generalize word.toList = chars
  induction chars generalizing front with
  | nil => simp [run]
  | cons c chars ih =>
      have hc : CharClass.has ⟨false, [.one c]⟩ c = true := by simp [CharClass.has, ClassItem.has]
      rw [List.cons_append, List.foldr_cons, run, run_char hc, ih, List.append_assoc,
        List.singleton_append]

/-- An optional part is left out where its first character does not stand. -/
theorem run_opt_of_head? {word : String} {c : Char} {tail : Text} (hword : word.toList = c :: tail)
    {cursor : Cursor} (hc : cursor.rest.head? ≠ some c) (ps : List Pattern) :
    run (opt (all (lit word :: ps))) cursor captures next = next cursor captures := by
  have hnone : run (all (lit word :: ps)) cursor captures next = none := by
    rw [run_all_cons, lit, hword, List.foldr_cons, run, run]
    cases hrest : cursor.rest with
    | nil => rfl
    | cons d rest =>
        rw [hrest] at hc
        have hd : CharClass.has ⟨false, [.one c]⟩ d = false := by
          simpa [CharClass.has, ClassItem.has] using hc
        dsimp only
        rw [if_neg (Bool.eq_false_iff.mp hd)]
  rw [opt, run, hnone, run]

/-! ## Repetitions -/

/-- A repetition goes as far as it can where what follows it succeeds there. -/
theorem run_many_of_eq_some {set : CharClass}
    (h : next (between (front ++ text.takeWhile set.has) (text.dropWhile set.has)) captures =
      some answer) :
    run (.many set) (between front text) captures next = some answer := by
  obtain ⟨stops, hstops⟩ := List.head?_eq_some_iff.mp (head?_stops set front text)
  rw [run, hstops, List.findSome?_cons, h]

theorem run_many_of_head? {set : CharClass} (htext : ∀ c ∈ text.head?, set.has c = false)
    (h : next (between front text) captures = some answer) :
    run (.many set) (between front text) captures next = some answer := by
  have hfront : ∀ c ∈ ([] : Text), set.has c = true := List.forall_mem_nil _
  obtain ⟨htake, hdrop⟩ := Text.takeWhile_append_of_head? hfront htext
  rw [List.nil_append] at htake hdrop
  refine run_many_of_eq_some ?_
  rwa [htake, hdrop, List.append_nil]

/-- What a group of characters takes does not depend on an optional part behind it that begins with
such a character. -/
theorem run_named_many1 {set : CharClass} {word : String} {c : Char} {tail : Text}
    (hword : word.toList = c :: tail) (hc : set.has c = true) (name : String) (ps : List Pattern) :
    run (all [named name (many1 set), opt (all (lit word :: ps))]) (between front text) captures
        (fun cursor captures => some (cursor, captures)) =
      if text.takeWhile set.has = [] then none
      else some (between (front ++ text.takeWhile set.has) (text.dropWhile set.has),
        (name, ⟨front.size, text.takeWhile set.has⟩) :: captures) := by
  rw [run_all_cons, named, run, many1, run]
  cases text with
  | nil => rfl
  | cons d text =>
      by_cases hd : set.has d = true
      · have hhead : (text.dropWhile set.has).head? ≠ some c := by
          intro hhead
          have hnot := List.head?_dropWhile_not set.has text
          rw [hhead] at hnot
          simp [hc] at hnot
        rw [List.takeWhile_cons_of_pos hd, List.dropWhile_cons_of_pos hd,
          if_neg (List.cons_ne_nil _ _), run_char hd]
        refine run_many_of_eq_some ?_
        rw [all, run_opt_of_head? hword hhead]
        have htaken : front ++ [d] ++ text.takeWhile set.has =
            front ++ d :: text.takeWhile set.has := by simp
        have hrest : d :: text = d :: text.takeWhile set.has ++ text.dropWhile set.has := by
          simp
        rw [htaken]
        conv_lhs => rw [hrest, upTo_between]
        rfl
      · rw [List.takeWhile_cons_of_neg hd, if_pos rfl]
        simp only [run, between, if_neg hd]

end Run

/-! ## Starts of lines -/

variable {pattern : Pattern} {front rest text : Text}

/-- Behind another character than a newline no line starts. -/
theorem matchAt?_of_getLast? (ps : List Pattern)
    (h : front.getLast?.all (· == '\n') = false) :
    matchAt? (all (.lineStart :: ps)) (between front rest) = none := by
  rw [matchAt?, run_all_cons, run]
  exact if_neg (Bool.eq_false_iff.mp h)

theorem findFrom_of_none {resume : Nat} {found : List Captures}
    (h : ∀ passed later, rest = passed ++ later →
      matchAt? pattern (between (front ++ passed) later) = none) :
    findFrom pattern rest (between front rest) resume found = found.reverse := by
  have hhere : matchAt? pattern (between front rest) = none := by
    simpa using h [] rest rfl
  induction rest generalizing front resume with
  | nil => rw [findFrom, hhere, ite_self]
  | cons c rest ih =>
      have hlater : ∀ passed later, rest = passed ++ later →
          matchAt? pattern (between (front ++ [c] ++ passed) later) = none := by
        rintro passed later rfl
        simpa using h (c :: passed) later rfl
      rw [findFrom, hhere, ite_self, step_between]
      exact ih hlater (by simpa using hlater [] rest rfl)

/-- A pattern that begins at the start of a line is found on a single line where it matches at the
start of the text, and nowhere else. -/
theorem findAll_of_line {ps : List Pattern} (hp : (all (.lineStart :: ps)).isVisible = true)
    {line back : Text} (hne : line ≠ []) (hline : '\n' ∉ line) (hback : back.allBlank)
    {stop : Cursor} {captures : Captures}
    (h : matchAt? (all (.lineStart :: ps)) (between [] (line ++ back)) = some (stop, captures)) :
    findAll (all (.lineStart :: ps)) (line ++ back) = [captures] := by
  have hlater : ∀ front later, line ++ back = front ++ later → front ≠ [] →
      matchAt? (all (.lineStart :: ps)) (between front later) = none := by
    intro front later heq hfront
    by_cases hstart : front.getLast?.all (· == '\n') = true
    · -- the place stands behind a newline, hence behind the line
      rw [List.getLast?_eq_some_getLast hfront, Option.all_some, beq_iff_eq] at hstart
      have hmem : '\n' ∈ front := hstart ▸ List.getLast_mem hfront
      rcases List.append_eq_append_iff.mp heq with ⟨passed, -, rfl⟩ | ⟨passed, rfl, -⟩
      · have hlater : Text.allBlank later := List.all_eq_true.mpr fun c hc =>
          List.all_eq_true.mp hback c (List.mem_append_right passed hc)
        exact matchAt?_of_allBlank hp front hlater
      · exact absurd (List.mem_append_left _ hmem) hline
    · exact matchAt?_of_getLast? ps (Bool.eq_false_iff.mpr hstart)
  obtain ⟨c, line, rfl⟩ := List.exists_cons_of_ne_nil hne
  have hrest : findFrom (all (.lineStart :: ps)) (line ++ back) (between [c] (line ++ back))
      stop.offset [captures] = [captures] :=
    findFrom_of_none fun passed later heq =>
      hlater ([c] ++ passed) later (by rw [List.cons_append, heq]; rfl) (List.cons_ne_nil _ _)
  have hfirst : look (all (.lineStart :: ps)) (between [] (c :: (line ++ back))) 0 [] =
      (stop.offset, [captures]) := by
    rw [look, if_neg (Nat.not_lt_zero _)]
    rw [List.cons_append] at h
    rw [h]
  rw [findAll, start_eq_between, List.cons_append, findFrom_cons, hfirst, step_between]
  exact hrest

end Regex

end CodeAtlas
