import CodeAtlas.Proofs.Parse.Account
import CodeAtlas.Proofs.Sketch.Blank

/-! Which files get an empty result. In time that never runs out it is only a blank content of which
neither the parser nor a repair made anything, whatever has been sketched before. -/

namespace CodeAtlas

open Sketch (Hints Method)

namespace ParserOutcome

/-- Neither the parser nor a repair of the content made an outline. -/
def Nothing (orchestrator : Orchestrator) (job : Job) : ParserOutcome → Prop
  | none => True
  | some (.ok _) => False
  | some (.error error) =>
    (Repair.recover (faultOf error job.content) job.content job.language
      orchestrator.repairBudget).found = none

end ParserOutcome

namespace Orchestrator

theorem degrade_strategy_eq_empty_iff (orchestrator : Orchestrator) (hints : Hints) (job : Job)
    (hb : ∀ look, orchestrator.sketchBudget.expired look = false) (error : String) :
    (orchestrator.degrade hints job error).1.result.strategy = ParseResult.emptyStrategy ↔
      (Utf8.decode job.content).allBlank := by
  rw [← Sketch.attempt_eq_none_iff hints (Utf8.decode job.content) job.language hb]
  unfold degrade
  split
  · rename_i sketched _ hattempt
    rw [hattempt]
    exact iff_of_false sketched.method.name_ne_empty (Option.some_ne_none _)
  · rename_i _ hattempt
    rw [hattempt]
    exact iff_of_true rfl rfl

/-- A result is empty exactly if the content is blank and no stage before the sketch made anything
of it. -/
theorem parseWith_strategy_eq_empty_iff (orchestrator : Orchestrator) (hints : Hints) (job : Job)
    (hb : ∀ look, orchestrator.sketchBudget.expired look = false) (parser : Option Parser) :
    (orchestrator.parseWith hints job parser).1.result.strategy = ParseResult.emptyStrategy ↔
      (ParserOutcome.of orchestrator job parser).Nothing orchestrator job ∧
        (Utf8.decode job.content).allBlank := by
  cases parser with
  | none =>
      rw [← degrade_strategy_eq_empty_iff orchestrator hints job hb]
      exact (and_iff_right trivial).symm
  | some parser =>
      cases hrun : parser.run job.content job.file orchestrator.timeoutMillis with
      | ok outline =>
          simp only [parseWith, stages, ParserOutcome.of, Option.map_some, hrun]
          exact iff_of_false ParseResult.primaryStrategy_ne_empty fun h => h.1
      | error failure =>
          simp only [parseWith, stages, ParserOutcome.of, Option.map_some, hrun, mend,
            ParserOutcome.Nothing]
          cases hfound : (Repair.recover (faultOf failure job.content) job.content job.language
              orchestrator.repairBudget).found with
          | none =>
              rw [← degrade_strategy_eq_empty_iff orchestrator hints job hb]
              exact (and_iff_right rfl).symm
          | some found =>
              exact iff_of_false found.1.name_ne_empty fun h => Option.some_ne_none _ h.1

/-- Only a blank content gets an empty result, and where the language has no parser every blank
content does. -/
theorem parse_strategy_empty (orchestrator : Orchestrator) (hints : Hints) (job : Job)
    (hb : ∀ look, orchestrator.sketchBudget.expired look = false) :
    let result := (orchestrator.parse hints job).1.result
    (result.strategy = ParseResult.emptyStrategy → (Utf8.decode job.content).allBlank) ∧
      (orchestrator.registry.get? job.language = none →
        (result.strategy = ParseResult.emptyStrategy ↔ (Utf8.decode job.content).allBlank)) := by
  intro result
  have hiff := parseWith_strategy_eq_empty_iff orchestrator hints job hb
    (orchestrator.registry.get? job.language)
  refine ⟨fun hempty => (hiff.mp hempty).2, fun hnone => hiff.trans ?_⟩
  rw [hnone]
  exact and_iff_right trivial

/-- Without parsers, after a text of which there was no more than a bare module. -/
def withoutParsers : Orchestrator := ⟨.empty, 0, fun _ => .unlimited, .unlimited⟩

theorem blank_alone_is_empty :
    (∀ look, withoutParsers.sketchBudget.expired look = false) ∧
      withoutParsers.registry.get? .kotlin = none ∧
      (withoutParsers.parse (Hints.empty.remember .kotlin 2 .minimalStructure)
        ⟨"a.kt", .kotlin, [9, 10]⟩).1.result.strategy = ParseResult.emptyStrategy ∧
      (withoutParsers.parse (Hints.empty.remember .kotlin 2 .minimalStructure)
        ⟨"a.kt", .kotlin, [9, 97]⟩).1.result.strategy ≠ ParseResult.emptyStrategy := by
  have hb : ∀ look, withoutParsers.sketchBudget.expired look = false := fun _ => rfl
  have hnone : withoutParsers.registry.get? .kotlin = none := rfl
  let hints := Hints.empty.remember .kotlin 2 .minimalStructure
  have hblank := (parse_strategy_empty withoutParsers hints ⟨"a.kt", .kotlin, [9, 10]⟩ hb).2 hnone
  have hvisible := (parse_strategy_empty withoutParsers hints ⟨"a.kt", .kotlin, [9, 97]⟩ hb).1
  refine ⟨hb, hnone, hblank.mpr (by decide), fun hempty => ?_⟩
  exact absurd (hvisible hempty) (by decide)

end Orchestrator

end CodeAtlas
