import CodeAtlas.Proofs.Repair.Brackets
import CodeAtlas.Proofs.Repair.Reduction
import CodeAtlas.Proofs.Text.Sections
import Mathlib.Algebra.BigOperators.Ring.List
import Mathlib.Algebra.Group.Nat.Even
import Mathlib.Algebra.Ring.Parity

/-! Repairs that keep the sound parts of a text. What balances in every part balances in all of them
together, and the sections that are kept are the sections of the content: repairing it again keeps
them all. -/

namespace CodeAtlas.Repair

/-! ## Kept parts -/

/-- The sound parts that are reached in time. -/
def keptParts (sound : Text → Bool) (budget : Budget) (parts : List Text) : List Text :=
  (divide sound (inTime budget parts)).1

theorem of_mem_keptParts {sound : Text → Bool} {budget : Budget} {parts : List Text} {part : Text}
    (h : part ∈ keptParts sound budget parts) : sound part = true ∧ part.allBlank = false := by
  rw [keptParts, divide, List.partition_eq_filter_filter, List.mem_filter, List.mem_filter] at h
  exact ⟨h.2, Bool.not_eq_true' _ ▸ h.1.2⟩

theorem inTime_unlimited (parts : List Text) : inTime .unlimited parts = parts := by
  have hall : parts.zipIdx.takeWhile (fun part => !Budget.unlimited.expired part.2) =
      parts.zipIdx := List.takeWhile_eq_self_iff.mpr fun _ _ => rfl
  rw [inTime, hall, List.zipIdx_map_fst]

/-- Parts that are all sound and none of them blank are kept, and nothing is dropped. -/
theorem divide_of_forall {sound : Text → Bool} {parts : List Text}
    (h : ∀ part ∈ parts, sound part = true ∧ part.allBlank = false) :
    divide sound parts = (parts, []) := by
  have hfull : parts.filter (fun part => !part.allBlank) = parts :=
    List.filter_eq_self.mpr fun part hm => by rw [(h part hm).2, Bool.not_false]
  have hsound : parts.filter sound = parts := List.filter_eq_self.mpr fun part hm => (h part hm).1
  have hother : parts.filter (not ∘ sound) = [] :=
    List.filter_eq_nil_iff.mpr fun part hm => by simp [(h part hm).1]
  rw [divide, hfull, List.partition_eq_filter_filter, hsound, hother]

theorem partialSections_eq (text : Text) (budget : Budget) : partialSections text budget =
    if keptParts isSound budget text.sections = [] then none
    else some (.ofContent .partialSections
      (Text.join ['\n', '\n'] (keptParts isSound budget text.sections))
      [keptMessage "sections" (keptParts isSound budget text.sections).length
        (divide isSound (inTime budget text.sections)).2.length]) := by
  simp only [partialSections, List.isEmpty_iff]
  rfl

theorem partialLines_eq (text : Text) (budget : Budget) : partialLines text budget =
    if keptParts isSoundLine budget text.lines = [] then none
    else some (.ofContent .partialLines
      (Text.join ['\n'] (keptParts isSoundLine budget text.lines))
      [keptMessage "lines" (keptParts isSoundLine budget text.lines).length
        (divide isSoundLine (inTime budget text.lines)).2.length]) := by
  simp only [partialLines, List.isEmpty_iff]
  rfl

/-! ## Balance -/

/-- Each quote stands in the text an even number of times. -/
def PairsQuotes (text : Text) : Prop :=
  ∀ quote ∈ quotes, Even (text.count quote)

theorem hasUnbalancedBrackets_eq_false_iff (text : Text) :
    hasUnbalancedBrackets text = false ↔ IsBalanced text := by
  simp [hasUnbalancedBrackets, IsBalanced]

theorem hasOddQuotes_eq_false_iff (text : Text) :
    hasOddQuotes text = false ↔ PairsQuotes text := by
  simp [hasOddQuotes, PairsQuotes, Nat.even_iff]

theorem isSound_iff (part : Text) : isSound part = true ↔ IsBalanced part ∧ PairsQuotes part := by
  rw [isSound, Bool.and_eq_true, Bool.not_eq_true', Bool.not_eq_true',
    hasUnbalancedBrackets_eq_false_iff, hasOddQuotes_eq_false_iff]

/-- A bracket or a quote: what is counted in a part. -/
def isCounted (c : Char) : Bool :=
  quotes.contains c || isBracket c

theorem ne_newline_of_isCounted {c : Char} (h : isCounted c = true) : c ≠ '\n' := by
  rintro rfl
  exact absurd h (by decide)

theorem isBalanced_join {separator : Text} {parts : List Text}
    (hseparator : ∀ c ∈ separator, c = '\n') (h : ∀ part ∈ parts, IsBalanced part) :
    IsBalanced (Text.join separator parts) := by
  intro pair hpair
  have hcount : ∀ c, isCounted c = true →
      (Text.join separator parts).count c = (parts.map (·.count c)).sum := fun c hc =>
    Text.count_join (fun hm => ne_newline_of_isCounted hc (hseparator c hm)) parts
  have hcounted : isCounted pair.1 = true ∧ isCounted pair.2 = true := by
    revert pair
    decide
  rw [hcount _ hcounted.1, hcount _ hcounted.2]
  exact congrArg List.sum (List.map_congr_left fun part hm => h part hm pair hpair)

theorem pairsQuotes_join {separator : Text} {parts : List Text}
    (hseparator : ∀ c ∈ separator, c = '\n') (h : ∀ part ∈ parts, PairsQuotes part) :
    PairsQuotes (Text.join separator parts) := by
  intro quote hquote
  have hcounted : isCounted quote = true := List.all_eq_true.mp (by decide) quote hquote
  rw [Text.count_join fun hm => ne_newline_of_isCounted hcounted (hseparator quote hm),
    even_iff_two_dvd]
  refine List.dvd_sum fun n hn => ?_
  obtain ⟨part, hm, rfl⟩ := List.mem_map.mp hn
  exact even_iff_two_dvd.mp (h part hm quote hquote)

/-! ## Repairing again -/

/-- What the sound sections of a text make up: a content that balances as a whole, with these
sections, all of which are kept when it is repaired again. -/
structure KeepsSections (text content : Text) : Prop where
  brackets : IsBalanced content
  quotes : PairsQuotes content
  sections : content.sections.Sublist text.sections
  again : partialSections content .unlimited =
    some (.ofContent .partialSections content
      [keptMessage "sections" content.sections.length 0])

theorem keepsSections_join {text : Text} {budget : Budget}
    (hne : keptParts isSound budget text.sections ≠ []) :
    KeepsSections text (Text.join ['\n', '\n'] (keptParts isSound budget text.sections)) := by
  have hsublist : (keptParts isSound budget text.sections).Sublist text.sections :=
    kept_sublist isSound budget text.sections
  have hparts : ∀ part ∈ keptParts isSound budget text.sections,
      isSound part = true ∧ part.allBlank = false := fun _ => of_mem_keptParts
  generalize keptParts isSound budget text.sections = kept at hne hsublist hparts ⊢
  -- the kept sections can still be told apart, since they could be in the text
  have hread : (Text.join ['\n', '\n'] kept).sections = kept :=
    Text.sections_join hne ((Text.sectioned_sections text).sublist hsublist)
  have hagain : keptParts isSound .unlimited kept = kept := by
    rw [keptParts, inTime_unlimited, divide_of_forall hparts]
  refine ⟨?_, ?_, by rwa [hread], ?_⟩
  · exact isBalanced_join (by simp) fun part hm => ((isSound_iff part).mp (hparts part hm).1).1
  · exact pairsQuotes_join (by simp) fun part hm => ((isSound_iff part).mp (hparts part hm).1).2
  · rw [partialSections_eq, hread, hagain, if_neg hne, inTime_unlimited, divide_of_forall hparts]
    rfl

theorem pairsQuotes_of_isSoundLine {line : Text} (h : isSoundLine line = true) :
    PairsQuotes line := by
  rw [isSoundLine, Bool.and_eq_true, Bool.not_eq_true', hasOddQuotes_eq_false_iff] at h
  exact h.1

/-- Whenever the time runs out, the sections that are kept make up a text in which brackets and
quotes balance and which is repaired into itself, without a section being dropped; the lines that
are kept make up a text in which quotes balance. -/
theorem partialSections_keeps (text : Text) (budget : Budget) :
    (∀ outcome, partialSections text budget = some outcome →
        ∃ content, outcome.output = .content content ∧ KeepsSections text content) ∧
      ∀ outcome, partialLines text budget = some outcome →
        ∃ content, outcome.output = .content content ∧ PairsQuotes content := by
  refine ⟨fun outcome h => ?_, fun outcome h => ?_⟩
  · rw [partialSections_eq, Option.ite_none_left_eq_some, Option.some.injEq] at h
    obtain ⟨hne, rfl⟩ := h
    exact ⟨_, rfl, keepsSections_join hne⟩
  · rw [partialLines_eq, Option.ite_none_left_eq_some, Option.some.injEq] at h
    obtain ⟨-, rfl⟩ := h
    refine ⟨_, rfl, pairsQuotes_join (by simp) fun line hm => ?_⟩
    exact pairsQuotes_of_isSoundLine (of_mem_keptParts hm).1

/-- A text of sections with more newlines between them than a gap has, a blank one and an unsound
one. -/
def gappedText : Text := "f('a')\n\n\n\n\n g()\n\n(\n\n'\n".toList

theorem gappedText_kept :
    (∃ outcome, partialSections gappedText .unlimited = some outcome ∧
        ∃ content, outcome.output = .content content ∧ KeepsSections gappedText content) ∧
      ∃ outcome, partialLines gappedText .unlimited = some outcome ∧
        ∃ content, outcome.output = .content content ∧ PairsQuotes content := by
  have hsections : (partialSections gappedText .unlimited).isSome = true := by decide +kernel
  have hlines : (partialLines gappedText .unlimited).isSome = true := by decide +kernel
  obtain ⟨outcome, houtcome⟩ := Option.isSome_iff_exists.mp hsections
  obtain ⟨other, hother⟩ := Option.isSome_iff_exists.mp hlines
  have hkeep := partialSections_keeps gappedText .unlimited
  exact ⟨⟨outcome, houtcome, hkeep.1 outcome houtcome⟩, ⟨other, hother, hkeep.2 other hother⟩⟩

/-- A third newline belongs to the section behind the gap. -/
example : (partialSections "f()\n\n\ng()\n\n(\n".toList .unlimited).bind (·.output.content?) =
    some "f()\n\n\ng()".toList := by decide +kernel

end CodeAtlas.Repair
