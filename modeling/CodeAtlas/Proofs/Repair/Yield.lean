import CodeAtlas.Proofs.Json.Record
import CodeAtlas.Repair.Engine
import Mathlib.Data.List.Basic

/-! What a repair yields: a strategy for the kind of failure at hand, with its own confidence. -/

namespace CodeAtlas.Repair

/-! ## Names and confidences -/

@[simp] theorem Strategy.mem_all (strategy : Strategy) : strategy ∈ Strategy.all := by
  cases strategy <;> decide

@[simp] theorem Strategy.ofName?_name (strategy : Strategy) :
    Strategy.ofName? strategy.name = some strategy := by
  cases strategy <;> decide

/-- Exactly the names of strategies name a strategy. -/
theorem Strategy.ofName?_isSome (name : String) :
    (Strategy.ofName? name).isSome ↔ ∃ strategy : Strategy, name = strategy.name := by
  constructor
  · intro h
    obtain ⟨strategy, hs⟩ := Option.isSome_iff_exists.mp h
    have hname := List.find?_some hs
    exact ⟨strategy, (beq_iff_eq.mp hname).symm⟩
  · rintro ⟨strategy, rfl⟩
    simp

theorem Strategy.confidence_ne_one (strategy : Strategy) : strategy.confidence ≠ .one := by
  cases strategy <;> decide

theorem Strategy.unchanged_confidence (strategy : Strategy) : strategy.confidence.Unchanged := by
  cases strategy <;> decide +kernel

/-! ## Single strategies -/

/-- What is guarded by its list of changes comes with one. -/
private theorem yield_of_guarded {strategy : Strategy} {text : Text} {changes : List String}
    {outcome : Outcome} (h : (if changes.isEmpty then none
      else some (Outcome.ofContent strategy text changes)) = some outcome) :
    outcome.confidence = strategy.confidence ∧ outcome.changes ≠ [] := by
  rw [Option.ite_none_left_eq_some, List.isEmpty_iff] at h
  obtain ⟨hne, heq⟩ := h
  obtain rfl := Option.some.inj heq
  exact ⟨rfl, hne⟩

/-- What a strategy yields is trusted as far as the strategy is, and all strategies but reduction
report what they did. -/
theorem repairWith_yield {strategy : Strategy} {bytes : Bytes} {language : Language}
    {budget : Budget} {outcome : Outcome}
    (h : repairWith strategy bytes language budget = some outcome) :
    outcome.confidence = strategy.confidence ∧
      (outcome.changes ≠ [] ∨ strategy = .contentReduction) := by
  cases strategy with
  | bracketFix => exact (yield_of_guarded h).imp_right .inl
  | quoteFix => exact (yield_of_guarded h).imp_right .inl
  | quoteEscape => exact (yield_of_guarded h).imp_right .inl
  | encodingNormalization => exact (yield_of_guarded h).imp_right .inl
  | semicolonFix =>
      simp only [repairWith, semicolonFix] at h
      split at h
      · cases h
      · split at h
        · cases h
        · exact (yield_of_guarded h).imp_right .inl
  | contentReduction =>
      simp only [repairWith, contentReduction, Option.ite_none_left_eq_some, Option.some.injEq] at h
      obtain ⟨-, rfl⟩ := h
      exact ⟨rfl, .inr rfl⟩
  | chunking =>
      simp only [repairWith, chunking, Option.ite_none_left_eq_some, Option.some.injEq] at h
      obtain ⟨-, -, rfl⟩ := h
      exact ⟨rfl, .inl (List.cons_ne_nil _ _)⟩
  | structureGuess =>
      simp only [repairWith, structureGuess, Option.ite_none_left_eq_some, Option.some.injEq] at h
      obtain ⟨-, rfl⟩ := h
      exact ⟨rfl, .inl (List.cons_ne_nil _ _)⟩
  | partialSections =>
      simp only [repairWith, partialSections, Option.ite_none_left_eq_some, Option.some.injEq] at h
      obtain ⟨-, rfl⟩ := h
      exact ⟨rfl, .inl (List.cons_ne_nil _ _)⟩
  | partialLines =>
      simp only [repairWith, partialLines, Option.ite_none_left_eq_some, Option.some.injEq] at h
      obtain ⟨-, rfl⟩ := h
      exact ⟨rfl, .inl (List.cons_ne_nil _ _)⟩

/-! ## Strategies in order -/

/-- What is found comes from one of the strategies, which was done in its time. -/
theorem attempt_found {bytes : Bytes} {language : Language} {budget : Strategy → Budget}
    {strategies : List Strategy} {strategy : Strategy} {outcome : Outcome}
    (h : (attempt bytes language budget strategies).2 = some (strategy, outcome)) :
    strategy ∈ strategies ∧ (budget strategy).overrun = false ∧
      repairWith strategy bytes language (budget strategy) = some outcome := by
  induction strategies with
  | nil => cases h
  | cons first rest ih =>
      have hlater : (attempt bytes language budget rest).2 = some (strategy, outcome) →
          strategy ∈ first :: rest ∧ (budget strategy).overrun = false ∧
            repairWith strategy bytes language (budget strategy) = some outcome := by
        intro hrest
        exact ⟨List.mem_cons_of_mem _ (ih hrest).1, (ih hrest).2⟩
      rw [attempt] at h
      cases hyield : repairWith first bytes language (budget first) with
      | none => exact hlater (by simpa only [hyield] using h)
      | some found =>
          by_cases hover : (budget first).overrun = true
          · exact hlater (by simpa only [hyield, hover, if_true] using h)
          · simp only [hyield, hover, Bool.false_eq_true, if_false, Option.some.injEq,
              Prod.mk.injEq] at h
            obtain ⟨rfl, rfl⟩ := h
            exact ⟨List.mem_cons_self, by simpa using hover, hyield⟩

/-- A repair keeps the confidence of the strategy that succeeded. -/
theorem recover_confidence {fault : Fault} {bytes : Bytes} {language : Language}
    {budget : Strategy → Budget} {strategy : Strategy} {outcome : Outcome}
    (h : (recover fault bytes language budget).found = some (strategy, outcome)) :
    outcome.confidence = strategy.confidence :=
  (repairWith_yield (attempt_found h).2.2).1

end CodeAtlas.Repair
