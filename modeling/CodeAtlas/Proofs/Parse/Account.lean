import CodeAtlas.Parse.Orchestrator
import CodeAtlas.Proofs.Repair.Yield

/-! What every parsing says of itself. The strategy of a result tells which stage made it, and the
other fields and the events agree with the strategy, whatever the parser, the hints and the times. -/

namespace CodeAtlas

open Repair (Fault)
open Sketch (Hints Method Sketched)

/-! ## Names and confidences -/

theorem Binary.zero_ne_one : zero ≠ one := by
  decide

@[simp] theorem Sketch.Method.ofName?_name (method : Method) :
    Method.ofName? method.name = some method := by
  cases method <;> decide

/-- No stage shares a name with another one. -/
@[simp] theorem Repair.Strategy.ofName?_method (method : Method) :
    Repair.Strategy.ofName? method.name = none := by
  cases method <;> decide

@[simp] theorem Repair.Strategy.ofName?_empty :
    Repair.Strategy.ofName? ParseResult.emptyStrategy = none := by
  decide

@[simp] theorem Repair.Strategy.ofName?_primary :
    Repair.Strategy.ofName? ParseResult.primaryStrategy = none := by
  decide

theorem ParseResult.primaryStrategy_ne_empty : primaryStrategy ≠ emptyStrategy := by
  decide

theorem Repair.Strategy.name_ne_primary (strategy : Repair.Strategy) :
    strategy.name ≠ ParseResult.primaryStrategy := by
  cases strategy <;> decide

theorem Repair.Strategy.name_ne_empty (strategy : Repair.Strategy) :
    strategy.name ≠ ParseResult.emptyStrategy := by
  cases strategy <;> decide

theorem Sketch.Method.name_ne_primary (method : Method) :
    method.name ≠ ParseResult.primaryStrategy := by
  cases method <;> decide

theorem Sketch.Method.name_ne_empty (method : Method) :
    method.name ≠ ParseResult.emptyStrategy := by
  cases method <;> decide

theorem Sketch.Method.confidence_ne_one (method : Method) : method.confidence ≠ .one := by
  cases method <;> decide

/-! ## The outcome of the parser -/

/-- What became of the parser of a job: there was none, it failed, or it made an outline. -/
abbrev ParserOutcome := Option (Except ParseError Outline)

namespace ParserOutcome

/-- What becomes of a parser that is run on a job. -/
def of (orchestrator : Orchestrator) (job : Job) (parser : Option Parser) : ParserOutcome :=
  parser.map fun parser => parser.run job.content job.file orchestrator.timeoutMillis

def Succeeded (outcome : ParserOutcome) : Prop := ∃ outline, outcome = some (.ok outline)

/-- The error that every result after the parser carries. A missing parser is an error too. -/
def error? (job : Job) : ParserOutcome → Option String
  | none => some (ParseError.unsupportedLanguage job.language.name).message
  | some (.error error) => some error.message
  | some (.ok _) => none

/-- The events of the first stage: only a parser that is there can fail. -/
def events (job : Job) : ParserOutcome → List Event
  | some (.error error) =>
    [.parseFailed job.file (faultOf error job.content).tag error.message]
  | _ => []

theorem not_succeeded_of_error? {job : Job} {outcome : ParserOutcome} {error : String}
    (h : outcome.error? job = some error) : ¬ outcome.Succeeded := by
  rintro ⟨outline, rfl⟩
  simp [error?] at h

end ParserOutcome

/-! ## The account of a parsing -/

/-- The event of the stage that a degraded result's strategy names. -/
def ParseResult.degradation (job : Job) (result : ParseResult) : Event :=
  if (Repair.Strategy.ofName? result.strategy).isSome then
    .errorRecovered job.file ((result.recovery.map (·.category)).getD "") result.strategy
      result.confidence
  else if (Method.ofName? result.strategy).isSome then
    .fallbackUsed job.file job.language.id result.strategy
  else .emptyResult job.file (result.error.getD "")

/-- The event that ends a parsing. -/
def ParseResult.completion (job : Job) (result : ParseResult) : Event :=
  .fileParsed job.file result.strategy result.fromFallback result.confidence

/-- A parsing gives a usable result whose fields and events all tell of the same stage. -/
structure Parsing.Accounted (job : Job) (outcome : ParserOutcome) (parsing : Parsing) : Prop where
  success : parsing.result.success = true
  complexity_pos : 1 ≤ parsing.result.complexity
  stage : parsing.result.strategy = ParseResult.primaryStrategy ∨
    (∃ strategy : Repair.Strategy, parsing.result.strategy = strategy.name) ∨
    (∃ method : Method, parsing.result.strategy = method.name) ∨
    parsing.result.strategy = ParseResult.emptyStrategy
  strategy_iff : parsing.result.strategy = ParseResult.primaryStrategy ↔ outcome.Succeeded
  fromFallback_iff : parsing.result.fromFallback = false ↔ outcome.Succeeded
  confidence_iff : parsing.result.confidence = .one ↔ outcome.Succeeded
  error_iff : parsing.result.error = none ↔ outcome.Succeeded
  error : parsing.result.error = outcome.error? job
  warning : parsing.result.isDegraded → parsing.result.warning.isSome
  recovery_iff : parsing.result.recovery.isSome ↔
    ∃ strategy : Repair.Strategy, parsing.result.strategy = strategy.name
  recovery_agrees : ∀ info, parsing.result.recovery = some info →
    info.strategy = parsing.result.strategy ∧ info.confidence = parsing.result.confidence ∧
      ∃ error, outcome = some (.error error) ∧ info.category = (faultOf error job.content).tag
  empty : parsing.result.strategy = ParseResult.emptyStrategy →
    parsing.result.functions = [] ∧ parsing.result.classes = [] ∧ parsing.result.imports = [] ∧
      parsing.result.complexity = 1
  events : parsing.events = outcome.events job ++
    (if parsing.result.isDegraded then [parsing.result.degradation job] else []) ++
    [parsing.result.completion job]

/-! ## The stages -/

section Stages

variable {job : Job} {outcome : ParserOutcome} {error : String}

/-- The account of a result that the parser made. -/
theorem accounted_primary {outline : Outline} (ho : outcome = some (.ok outline)) :
    Parsing.Accounted job outcome
      ⟨.ofPrimary job.file job.language job.contentHash outline,
        [.fileParsed job.file ParseResult.primaryStrategy false .one]⟩ := by
  have hs : outcome.Succeeded := ⟨outline, ho⟩
  refine
    { success := rfl
      complexity_pos := Nat.le_max_right _ _
      stage := .inl rfl
      strategy_iff := iff_of_true rfl hs
      fromFallback_iff := iff_of_true rfl hs
      confidence_iff := iff_of_true rfl hs
      error_iff := iff_of_true rfl hs
      error := ?_
      warning := ?_
      recovery_iff := ?_
      recovery_agrees := ?_
      empty := ?_
      events := ?_ }
  · rw [ho]
    rfl
  · intro hd
    simp [ParseResult.isDegraded, ParseResult.ofPrimary] at hd
  · refine iff_of_false (by simp [ParseResult.ofPrimary]) ?_
    rintro ⟨strategy, hname⟩
    exact strategy.name_ne_primary hname.symm
  · intro info hinfo
    cases hinfo
  · intro hempty
    exact absurd hempty ParseResult.primaryStrategy_ne_empty
  · rw [ho]
    rfl

/-- The account of a repaired result. -/
theorem accounted_repaired {failure : ParseError} {strategy : Repair.Strategy}
    {found : Repair.Outcome} (ho : outcome = some (.error failure))
    (hc : found.confidence = strategy.confidence) :
    Parsing.Accounted job outcome
      ⟨repairedResult job failure.message (faultOf failure job.content) strategy found,
        outcome.events job ++
          [.errorRecovered job.file (faultOf failure job.content).tag strategy.name
            found.confidence] ++
          [.fileParsed job.file strategy.name true found.confidence]⟩ := by
  have he : outcome.error? job = some failure.message := by rw [ho]; rfl
  have hs : ¬ outcome.Succeeded := ParserOutcome.not_succeeded_of_error? he
  have hd : strategy.name ≠ ParseResult.primaryStrategy := strategy.name_ne_primary
  refine
    { success := rfl
      complexity_pos := Nat.le_max_right _ _
      stage := .inr (.inl ⟨strategy, rfl⟩)
      strategy_iff := iff_of_false hd hs
      fromFallback_iff := iff_of_false Bool.noConfusion hs
      confidence_iff := iff_of_false ?_ hs
      error_iff := iff_of_false (Option.some_ne_none _) hs
      error := he.symm
      warning := fun _ => rfl
      recovery_iff := iff_of_true rfl ⟨strategy, rfl⟩
      recovery_agrees := ?_
      empty := fun hempty => absurd hempty strategy.name_ne_empty
      events := ?_ }
  · intro hone
    exact strategy.confidence_ne_one (hc.symm.trans hone)
  · intro info hinfo
    cases hinfo
    exact ⟨rfl, rfl, failure, ho, rfl⟩
  · simp [ParseResult.isDegraded, repairedResult, ParseResult.degradation,
      ParseResult.completion, hd]

/-- The account of a sketched result. -/
theorem accounted_sketched (sketched : Sketched) (he : outcome.error? job = some error) :
    Parsing.Accounted job outcome
      ⟨sketchedResult job (some error) sketched,
        outcome.events job ++
          [.fallbackUsed job.file job.language.id sketched.method.name] ++
          [.fileParsed job.file sketched.method.name true sketched.confidence]⟩ := by
  have hs : ¬ outcome.Succeeded := ParserOutcome.not_succeeded_of_error? he
  have hd : sketched.method.name ≠ ParseResult.primaryStrategy := sketched.method.name_ne_primary
  refine
    { success := rfl
      complexity_pos := Nat.le_max_right _ _
      stage := .inr (.inr (.inl ⟨sketched.method, rfl⟩))
      strategy_iff := iff_of_false hd hs
      fromFallback_iff := iff_of_false Bool.noConfusion hs
      confidence_iff := iff_of_false sketched.method.confidence_ne_one hs
      error_iff := iff_of_false (Option.some_ne_none _) hs
      error := he.symm
      warning := fun _ => rfl
      recovery_iff := ?_
      recovery_agrees := fun info hinfo => by cases hinfo
      empty := fun hempty => absurd hempty sketched.method.name_ne_empty
      events := ?_ }
  · rw [← Repair.Strategy.ofName?_isSome]
    simp [sketchedResult]
  · simp [ParseResult.isDegraded, sketchedResult, ParseResult.degradation,
      ParseResult.completion, hd]

/-- The account of an empty result. -/
theorem accounted_empty (he : outcome.error? job = some error) :
    Parsing.Accounted job outcome
      ⟨.ofNothing job.file job.language job.contentHash (some error),
        outcome.events job ++ [.emptyResult job.file error] ++
          [.fileParsed job.file ParseResult.emptyStrategy true .zero]⟩ := by
  have hs : ¬ outcome.Succeeded := ParserOutcome.not_succeeded_of_error? he
  refine
    { success := rfl
      complexity_pos := Nat.le_refl 1
      stage := .inr (.inr (.inr rfl))
      strategy_iff := iff_of_false ParseResult.primaryStrategy_ne_empty.symm hs
      fromFallback_iff := iff_of_false Bool.noConfusion hs
      confidence_iff := iff_of_false Binary.zero_ne_one hs
      error_iff := iff_of_false (Option.some_ne_none _) hs
      error := he.symm
      warning := fun _ => rfl
      recovery_iff := ?_
      recovery_agrees := fun info hinfo => by cases hinfo
      empty := fun _ => ⟨rfl, rfl, rfl, rfl⟩
      events := ?_ }
  · rw [← Repair.Strategy.ofName?_isSome]
    simp [ParseResult.ofNothing]
  · rfl

end Stages

/-! ## Whole parsings -/

namespace Orchestrator

/-- A parsing with the event that ends it. -/
def completed (job : Job) (parsing : Parsing) : Parsing :=
  ⟨parsing.result, parsing.events ++ [parsing.result.completion job]⟩

/-- The last two stages leave an account, behind the events of the stages before them. -/
theorem degrade_accounted (orchestrator : Orchestrator) (hints : Hints) {job : Job}
    {outcome : ParserOutcome} {error : String} (he : outcome.error? job = some error) :
    let parsing := (orchestrator.degrade hints job error).1
    Parsing.Accounted job outcome
      (completed job ⟨parsing.result, outcome.events job ++ parsing.events⟩) := by
  unfold degrade
  split
  · exact accounted_sketched _ he
  · exact accounted_empty he

/-- Every parsing leaves an account that agrees with what became of the parser. -/
theorem parseWith_accounted (orchestrator : Orchestrator) (hints : Hints) (job : Job)
    (parser : Option Parser) :
    Parsing.Accounted job (.of orchestrator job parser)
      (orchestrator.parseWith hints job parser).1 := by
  cases parser with
  | none => exact orchestrator.degrade_accounted hints rfl
  | some parser =>
      cases hrun : parser.run job.content job.file orchestrator.timeoutMillis with
      | ok outline =>
          simp only [parseWith, stages, ParserOutcome.of, Option.map_some, hrun]
          exact accounted_primary rfl
      | error failure =>
          simp only [parseWith, stages, ParserOutcome.of, Option.map_some, hrun, mend]
          cases hfound : (Repair.recover (faultOf failure job.content) job.content job.language
              orchestrator.repairBudget).found with
          | none => exact orchestrator.degrade_accounted hints rfl
          | some found =>
              exact accounted_repaired rfl (Repair.recover_confidence hfound)

end Orchestrator

end CodeAtlas
