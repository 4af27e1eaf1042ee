import CodeAtlas.Analysis.Run
import CodeAtlas.Proofs.Cache.Upkeep
import CodeAtlas.Proofs.Parse.Account
import CodeAtlas.Proofs.Parse.Facts

/-! The steps in which a file is parsed through the cache. What holds of all stored results and of a
fresh one holds of the result at every stage, whatever other files do in between; and steps that
nothing comes between parse the file as it is parsed alone. -/

namespace CodeAtlas

open ParseResult (Facts)
open Sketch (Hints Method)

/-! ## What a result teaches -/

namespace Orchestrator

theorem ofName?_repair (strategy : Repair.Strategy) : Method.ofName? strategy.name = none := by
  cases strategy <;> decide

variable (orchestrator : Orchestrator) (hints : Hints) (job : Job)

theorem learn_degrade (error : String) :
    learn job (orchestrator.degrade hints job error).1.result hints =
      (orchestrator.degrade hints job error).2 := by
  unfold degrade Sketch.attempt
  cases Sketch.firstSketch (Utf8.decode job.content) job.language orchestrator.sketchBudget 0
      (hints.order job.language (Utf8.decode job.content).size) with
  | none => rfl
  | some sketched =>
      have hname : Method.ofName? (sketchedResult job (some error) sketched).strategy =
          some sketched.method := Method.ofName?_name _
      simp only [learn, hname]

theorem learn_mend (error : ParseError) :
    learn job (orchestrator.mend hints job error).1.result hints =
      (orchestrator.mend hints job error).2 := by
  unfold mend
  dsimp only
  split
  · rename_i strategy outcome _
    have hname : Method.ofName? (repairedResult job error.message (faultOf error job.content)
        strategy outcome).strategy = none := ofName?_repair strategy
    simp only [learn, hname]
  · exact orchestrator.learn_degrade hints job error.message

/-- The hints after a parse are read off its result. -/
theorem learn_parse :
    learn job (orchestrator.parse hints job).1.result hints = (orchestrator.parse hints job).2 := by
  change learn job (orchestrator.stages hints job _).1.result hints =
    (orchestrator.stages hints job _).2
  unfold stages
  cases orchestrator.registry.get? job.language with
  | none => exact orchestrator.learn_degrade hints job _
  | some parser =>
      dsimp only
      cases parser.run job.content job.file orchestrator.timeoutMillis with
      | ok outline => rfl
      | error failure => exact orchestrator.learn_mend hints job failure

end Orchestrator

/-! ## What holds at every stage -/

/-- The facts at a stage satisfy `P`, and an entry that was read is that of the key. -/
def Progress.Holds (P : Facts → Prop) (key : String) : Progress → Prop
  | asked | expired | missed => True
  | found entry => entry.key = key ∧ entry.result.facts.Steady ∧ P entry.result.facts
  | parsed result | learned result => result.facts.Steady ∧ P result.facts
  | answered result => P result.facts

namespace Analyzer

variable {σ : Type} {analyzer : Analyzer σ} {s : Session σ}

section Holds

variable {P : String → Facts → Prop} (hf : analyzer.cache.Faithful)
  (h : analyzer.cache.Holds P s.cache) (lookedUp stored : Nat) {file : SourceFile} {content : Bytes}
include hf h

/-- The step lemma: what holds of the stored results, of a fresh one and at a stage holds at the next
stage, and then again of the stored results. -/
theorem holds_parseStep {progress : Progress}
    (hprogress : progress.Holds (P (analyzer.scope.key file.relativePath content))
      (analyzer.scope.key file.relativePath content))
    (hfresh : ∀ hints, P (analyzer.scope.key file.relativePath content)
      (analyzer.orchestrator.parse hints
        ⟨file.relativePath, file.language, content⟩).1.result.facts) :
    let next := analyzer.parseStep lookedUp stored file content progress s
    next.1.1.Holds (P (analyzer.scope.key file.relativePath content))
        (analyzer.scope.key file.relativePath content) ∧
      analyzer.cache.Holds P next.2.cache := by
  unfold parseStep
  cases progress with
  | asked =>
      have hread := Cache.holds_find hf h (analyzer.scope.key file.relativePath content)
      dsimp only
      cases hfound : (analyzer.cache.find (analyzer.scope.key file.relativePath content)
          s.cache).1 with
      | none => exact ⟨trivial, hread⟩
      | some entry =>
          refine ⟨?_, hread⟩
          dsimp only
          split
          · trivial
          · exact Cache.of_find hf h hfound
  | found entry =>
      obtain ⟨hkey, hsteady, hfacts⟩ := hprogress
      refine ⟨hfacts, Cache.holds_touch hf h _ _ _ hsteady ?_⟩
      rwa [hkey]
  | expired => exact ⟨trivial, Cache.holds_discard hf h _⟩
  | missed => exact ⟨⟨(analyzer.orchestrator.steady_parse _ _).facts, hfresh s.hints⟩, h⟩
  | parsed result => exact ⟨hprogress, h⟩
  | learned result =>
      exact ⟨hprogress.2, Cache.holds_set hf h stored hprogress.1 hprogress.2⟩
  | answered result => exact ⟨hprogress, h⟩

end Holds

/-! ## Steps that nothing comes between -/

/-- Analyses the file at a position of a run while nothing else is done. -/
def processFile (analyzer : Analyzer σ) (run : Circumstances) (position : Nat) (file : SourceFile)
    (s : Session σ) : (FileOutcome × List Event) × Session σ :=
  if run.cancelled position then ((.skipped, []), s)
  else
    match run.disk.readFile file.path with
    | .error message => ((.failed (.fileRead file.relativePath message), []), s)
    | .ok content =>
      let (parsing, s) := analyzer.parseFile (run.clock (2 * position))
        (run.clock (2 * position + 1)) file content s
      ((.done ⟨file, parsing.result, analyzer.interfacesOf file content parsing.result⟩,
        parsing.events), s)

/-- So many steps of the work on a file, one after the other. -/
def workTimes (analyzer : Analyzer σ) (run : Circumstances) (position : Nat) (file : SourceFile) :
    Nat → TaskState → Session σ → (TaskState × List Event) × Session σ
  | 0, state, s => ((state, []), s)
  | n + 1, state, s =>
    let ((state, events), s) := analyzer.workOn run position file state s
    let ((state, later), s) := analyzer.workTimes run position file n state s
    ((state, events ++ later), s)

section Alone

variable (run : Circumstances) (position : Nat) (file : SourceFile)

theorem workTimes_over (n : Nat) (outcome : FileOutcome) (s : Session σ) :
    analyzer.workTimes run position file n (.ended outcome) s = ((.ended outcome, []), s) := by
  induction n with
  | zero => rfl
  | succ n ih => simp only [workTimes, workOn, ih, List.append_nil]

theorem workTimes_answered (n : Nat) (content : Bytes) (result : ParseResult) (s : Session σ) :
    analyzer.workTimes run position file (n + 1) (.reading content (.answered result)) s =
      ((.ended (.done ⟨file, result, analyzer.interfacesOf file content result⟩), []), s) := by
  simp only [workTimes, workOn, workTimes_over, List.append_nil]

theorem workTimes_missed (n : Nat) (content : Bytes) (s : Session σ) :
    analyzer.workTimes run position file (n + 4) (.reading content .missed) s =
      let job : Job := ⟨file.relativePath, file.language, content⟩
      let (parsing, hints) := analyzer.orchestrator.parse s.hints job
      let (_, cache) := analyzer.cache.set (run.clock (2 * position + 1)) analyzer.scope
        file.relativePath content parsing.result s.cache
      ((.ended (.done ⟨file, parsing.result, analyzer.interfacesOf file content parsing.result⟩),
        parsing.events), ⟨cache, hints⟩) := by
  rw [workTimes]
  simp only [workOn, parseStep, workTimes, workTimes_over, Orchestrator.learn_parse,
    List.append_nil]

/-- The parse of a file is made of its steps. -/
theorem workTimes_asked (n : Nat) (content : Bytes) (s : Session σ) :
    analyzer.workTimes run position file (n + 6) (.reading content .asked) s =
      let (parsing, s) := analyzer.parseFile (run.clock (2 * position))
        (run.clock (2 * position + 1)) file content s
      ((.ended (.done ⟨file, parsing.result, analyzer.interfacesOf file content parsing.result⟩),
        parsing.events), s) := by
  rw [workTimes]
  simp only [workOn, parseStep, parseFile, Cache.get_eq, missOn]
  cases (analyzer.cache.find (analyzer.scope.key file.relativePath content) s.cache).1 with
  | none =>
      dsimp only
      rw [workTimes_missed run position file (n + 1)]
      rfl
  | some entry =>
      dsimp only
      split
      · rw [workTimes]
        simp only [workOn, parseStep, missOn, List.nil_append]
        rw [workTimes_missed run position file n]
        rfl
      · rw [workTimes]
        simp only [workOn, parseStep, Cache.result_touch, workTimes_answered, List.nil_append]
        rfl

theorem workTimes_waiting (s : Session σ) :
    analyzer.workTimes run position file turnsPerFile .waiting s =
      let ((outcome, events), s) := analyzer.processFile run position file s
      ((.ended outcome, events), s) := by
  rw [turnsPerFile, workTimes]
  by_cases hcancelled : run.cancelled position = true
  · simp only [workOn, processFile, hcancelled, if_true, workTimes_over, List.append_nil]
  · cases hread : run.disk.readFile file.path with
    | error message =>
        simp only [workOn, processFile, hcancelled, Bool.false_eq_true, if_false, hread,
          workTimes_over, List.append_nil]
    | ok content =>
        simp only [workOn, processFile, hcancelled, Bool.false_eq_true, if_false, hread,
          workTimes_asked run position file 0, List.nil_append]

end Alone

end Analyzer

end CodeAtlas
