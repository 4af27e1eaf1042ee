import CodeAtlas.Parse.Orchestrator
import CodeAtlas.Proofs.Repair.Yield
import CodeAtlas.Proofs.Sketch.Hint

/-! What a result says of a file, apart from how it was found out. The result of a job is about that
job, hints from earlier jobs change none of its facts, and its confidences are read as they were
written. -/

namespace CodeAtlas

open Sketch (Hints)

namespace ParseResult

/-- The facts that a result states, without the ways by which they were found. -/
structure Facts where
  file : String
  language : Language
  contentHash : Nat
  success : Bool
  error : Option String
  recovery : Option RecoveryInfo
  functions : List FunctionDecl
  classes : List ClassDecl
  imports : List ImportDecl
  deriving DecidableEq

def facts (r : ParseResult) : Facts :=
  ⟨r.file, r.language, r.contentHash, r.success, r.error, r.recovery, r.functions, r.classes,
    r.imports⟩

namespace Facts

/-- The facts are about a job. -/
structure Describes (job : Job) (facts : Facts) : Prop where
  file_eq : facts.file = job.file
  language_eq : facts.language = job.language
  contentHash_eq : facts.contentHash = job.contentHash
  success : facts.success = true

/-- The confidence of a repair is read as it was written. -/
def Steady (facts : Facts) : Prop :=
  ∀ info ∈ facts.recovery, info.confidence.Unchanged

end Facts

/-- The confidences are read as they were written. -/
structure Steady (r : ParseResult) : Prop where
  confidence : r.confidence.Unchanged
  facts : r.facts.Steady

end ParseResult

theorem Binary.unchanged_zero : zero.Unchanged := rfl

theorem Binary.unchanged_one : one.Unchanged := by
  decide +kernel

theorem ParseResult.steady_ofNothing (file : String) (language : Language) (contentHash : Nat)
    (error : Option String) : (ofNothing file language contentHash error).Steady :=
  ⟨Binary.unchanged_zero, fun _ h => by cases h⟩

theorem Sketch.Method.unchanged_confidence (method : Method) : method.confidence.Unchanged := by
  cases method <;> decide +kernel

namespace Orchestrator

open ParseResult

variable (orchestrator : Orchestrator)

theorem facts_parse (hints : Hints) (job : Job) :
    (orchestrator.parse hints job).1.result.facts =
      (orchestrator.stages hints job (orchestrator.registry.get? job.language)).1.result.facts :=
  rfl

/-! ## Results are about their jobs -/

theorem describes_degrade (hints : Hints) (job : Job) (error : String) :
    (orchestrator.degrade hints job error).1.result.facts.Describes job := by
  unfold degrade
  split
  · exact ⟨rfl, rfl, rfl, rfl⟩
  · exact ⟨rfl, rfl, rfl, rfl⟩

theorem describes_mend (hints : Hints) (job : Job) (error : ParseError) :
    (orchestrator.mend hints job error).1.result.facts.Describes job := by
  unfold mend
  dsimp only
  split
  · exact ⟨rfl, rfl, rfl, rfl⟩
  · exact orchestrator.describes_degrade hints job error.message

theorem describes_parse (hints : Hints) (job : Job) :
    (orchestrator.parse hints job).1.result.facts.Describes job := by
  rw [facts_parse]
  unfold stages
  cases orchestrator.registry.get? job.language with
  | none => exact orchestrator.describes_degrade hints job _
  | some parser =>
      dsimp only
      cases parser.run job.content job.file orchestrator.timeoutMillis with
      | ok outline => exact ⟨rfl, rfl, rfl, rfl⟩
      | error failure => exact orchestrator.describes_mend hints job failure

/-! ## Results have the confidences of their stages -/

theorem steady_degrade (hints : Hints) (job : Job) (error : String) :
    (orchestrator.degrade hints job error).1.result.Steady := by
  unfold degrade
  split
  · exact ⟨Sketch.Method.unchanged_confidence _, fun info h => by cases h⟩
  · exact steady_ofNothing _ _ _ _

theorem steady_mend (hints : Hints) (job : Job) (error : ParseError) :
    (orchestrator.mend hints job error).1.result.Steady := by
  unfold mend
  dsimp only
  split
  · rename_i strategy outcome hfound
    have hsteady : outcome.confidence.Unchanged := by
      rw [Repair.recover_confidence hfound]
      exact strategy.unchanged_confidence
    refine ⟨hsteady, ?_⟩
    rintro _ ⟨⟩
    exact hsteady
  · exact orchestrator.steady_degrade hints job error.message

theorem steady_parse (hints : Hints) (job : Job) :
    (orchestrator.parse hints job).1.result.Steady := by
  have hstages : (orchestrator.stages hints job
      (orchestrator.registry.get? job.language)).1.result.Steady := by
    unfold stages
    cases orchestrator.registry.get? job.language with
    | none => exact orchestrator.steady_degrade hints job _
    | some parser =>
        dsimp only
        cases parser.run job.content job.file orchestrator.timeoutMillis with
        | ok outline => exact ⟨Binary.unchanged_one, fun info h => by cases h⟩
        | error failure => exact orchestrator.steady_mend hints job failure
  exact hstages

/-! ## Hints change no facts -/

section Hints

variable {orchestrator} (hb : ∀ look, orchestrator.sketchBudget.expired look = false)
  (hints : Hints) (job : Job)
include hb

theorem facts_degrade (error : String) :
    (orchestrator.degrade hints job error).1.result.facts =
      (orchestrator.degrade .empty job error).1.result.facts := by
  have hagrees := Sketch.agrees_attempt hints (Utf8.decode job.content) job.language hb
  unfold degrade
  revert hagrees
  obtain ⟨used, -⟩ := Sketch.attempt hints (Utf8.decode job.content) job.language
    orchestrator.sketchBudget
  obtain ⟨fresh, -⟩ := Sketch.attempt .empty (Utf8.decode job.content) job.language
    orchestrator.sketchBudget
  intro hagrees
  cases used with
  | none =>
      cases fresh with
      | none => rfl
      | some b => simpa using hagrees.isSome_iff
  | some a =>
      cases fresh with
      | none => simpa using hagrees.isSome_iff
      | some b =>
          obtain ⟨hf, hc, hi⟩ := hagrees.names_eq a rfl b rfl
          simp only [facts, sketchedResult, hf, hc, hi]

theorem facts_mend (error : ParseError) :
    (orchestrator.mend hints job error).1.result.facts =
      (orchestrator.mend .empty job error).1.result.facts := by
  unfold mend
  dsimp only
  split
  · rfl
  · exact facts_degrade hb hints job error.message

/-- Whatever was parsed before, a job has the same facts. -/
theorem facts_parse_hints :
    (orchestrator.parse hints job).1.result.facts =
      (orchestrator.parse .empty job).1.result.facts := by
  rw [facts_parse, facts_parse]
  unfold stages
  cases orchestrator.registry.get? job.language with
  | none => exact facts_degrade hb hints job _
  | some parser =>
      dsimp only
      cases parser.run job.content job.file orchestrator.timeoutMillis with
      | ok outline => rfl
      | error failure => exact facts_mend hb hints job failure

end Hints

end Orchestrator

end CodeAtlas
