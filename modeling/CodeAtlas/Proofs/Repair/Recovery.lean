import CodeAtlas.Proofs.Repair.Yield
import CodeAtlas.Proofs.Text.Utf8

/-! A repair tries the strategies for a kind of failure one after the other. The first that yields
something in its time settles the repair; those in front of it are recorded as failed, and those
behind it are not tried. -/

namespace CodeAtlas.Repair

/-! ## Strategies one after the other -/

/-- How trying strategies in order ends: after some that yield nothing one yields an outcome, or all
of them yield nothing. -/
inductive Ends (yields : Strategy → Option Outcome) :
    List Strategy → List Attempt → Option (Strategy × Outcome) → Prop
  | found {failed : List Strategy} {strategy : Strategy} (rest : List Strategy) {outcome : Outcome}
      (hfailed : ∀ other ∈ failed, yields other = none)
      (hyield : yields strategy = some outcome) :
      Ends yields (failed ++ strategy :: rest)
        (failed.map (⟨·, false⟩) ++ [⟨strategy, true⟩]) (some (strategy, outcome))
  | failed {strategies : List Strategy} (hfailed : ∀ strategy ∈ strategies, yields strategy = none) :
      Ends yields strategies (strategies.map (⟨·, false⟩)) none

namespace Ends

variable {yields : Strategy → Option Outcome} {strategies : List Strategy}
  {attempts : List Attempt} {found : Option (Strategy × Outcome)}

theorem cons {strategy : Strategy} (hnone : yields strategy = none)
    (h : Ends yields strategies attempts found) :
    Ends yields (strategy :: strategies) (⟨strategy, false⟩ :: attempts) found := by
  cases h with
  | found rest hfailed hyield =>
      exact .found rest (List.forall_mem_cons.mpr ⟨hnone, hfailed⟩) hyield
  | failed hfailed => exact .failed (List.forall_mem_cons.mpr ⟨hnone, hfailed⟩)

/-- Something is found exactly if some strategy yields something. -/
theorem isSome_iff (h : Ends yields strategies attempts found) :
    found.isSome = true ↔ ∃ strategy ∈ strategies, (yields strategy).isSome = true := by
  cases h with
  | @found failed strategy rest outcome hfailed hyield =>
      refine iff_of_true rfl ⟨strategy, by simp, ?_⟩
      rw [hyield]
      rfl
  | failed hfailed =>
      refine iff_of_false Bool.false_ne_true ?_
      rintro ⟨strategy, hm, hsome⟩
      rw [hfailed strategy hm] at hsome
      cases hsome

theorem of_forall_eq_none (h : Ends yields strategies attempts found)
    (hnone : ∀ strategy ∈ strategies, yields strategy = none) :
    attempts = strategies.map (⟨·, false⟩) ∧ found = none := by
  cases h with
  | @found failed strategy rest outcome hfailed hyield =>
      rw [hnone strategy (by simp)] at hyield
      cases hyield
  | failed _ => exact ⟨rfl, rfl⟩

end Ends

/-- What a strategy yields if it is done in its time. -/
def timely? (bytes : Bytes) (language : Language) (budget : Strategy → Budget)
    (strategy : Strategy) : Option Outcome :=
  if (budget strategy).overrun then none
  else repairWith strategy bytes language (budget strategy)

/-- One turn: a strategy that yields something in its time is the last one. -/
theorem attempt_cons (bytes : Bytes) (language : Language) (budget : Strategy → Budget)
    (strategy : Strategy) (rest : List Strategy) :
    attempt bytes language budget (strategy :: rest) =
      match timely? bytes language budget strategy with
      | some outcome => ([⟨strategy, true⟩], some (strategy, outcome))
      | none =>
        (⟨strategy, false⟩ :: (attempt bytes language budget rest).1,
          (attempt bytes language budget rest).2) := by
  rw [attempt, timely?]
  cases hyield : repairWith strategy bytes language (budget strategy) <;>
    cases hover : (budget strategy).overrun <;> rfl

theorem ends_attempt (bytes : Bytes) (language : Language) (budget : Strategy → Budget)
    (strategies : List Strategy) :
    Ends (timely? bytes language budget) strategies
      (attempt bytes language budget strategies).1
      (attempt bytes language budget strategies).2 := by
  induction strategies with
  | nil => exact .failed (by simp)
  | cons strategy rest ih =>
      rw [attempt_cons]
      cases hyield : timely? bytes language budget strategy with
      | some outcome =>
          have hfound := Ends.found rest (List.forall_mem_nil _) hyield
          exact hfound
      | none => exact ih.cons hyield

/-! ## What a strategy works on -/

/-- What a strategy with time enough yields on a file of that text and these bytes. Only the repair
of the encoding looks at the bytes; to all others the bytes that spell the text would do. -/
def yieldOf (text : Text) (bytes : Bytes) (language : Language) : Strategy → Option Outcome
  | .encodingNormalization => encodingNormalization bytes
  | strategy => repairWith strategy (Utf8.encode text) language .unlimited

theorem timely?_unlimited (bytes : Bytes) (language : Language) :
    timely? bytes language (fun _ => .unlimited) = yieldOf (Utf8.decode bytes) bytes language := by
  funext strategy
  have htime : timely? bytes language (fun _ => .unlimited) strategy =
      repairWith strategy bytes language .unlimited := rfl
  rw [htime]
  cases strategy <;> simp only [yieldOf, repairWith, Utf8.decode_encode]

theorem timely?_of_overrun {budget : Strategy → Budget}
    (h : ∀ strategy, (budget strategy).overrun = true) (bytes : Bytes) (language : Language)
    (strategy : Strategy) : timely? bytes language budget strategy = none := by
  rw [timely?, if_pos (h strategy)]

/-! ## The result of a repair -/

theorem advice_ne_nil (fault : Fault) : advice fault ≠ [] := by
  cases fault <;> exact List.cons_ne_nil _ _

theorem Recovery.suggestions_ne_nil_iff (recovery : Recovery) :
    recovery.suggestions ≠ [] ↔ recovery.success = false := by
  cases hsuccess : recovery.success <;>
    simp [Recovery.suggestions, hsuccess, advice_ne_nil]

/-- The result of a repair is that of the first strategy for the failure that yields something. -/
structure TakesFirst (fault : Fault) (yields : Strategy → Option Outcome)
    (recovery : Recovery) : Prop where
  fault_eq : recovery.fault = fault
  success_iff : recovery.success = true ↔
    ∃ strategy ∈ strategiesFor fault, (yields strategy).isSome = true
  ends : Ends yields (strategiesFor fault) recovery.attempts recovery.found
  reported : ∀ strategy outcome, recovery.found = some (strategy, outcome) →
    recovery.changes = outcome.changes ∧ recovery.confidence = outcome.confidence
  suggestions_iff : recovery.suggestions ≠ [] ↔ recovery.success = false

theorem takesFirst_recover (fault : Fault) (bytes : Bytes) (language : Language)
    (budget : Strategy → Budget) :
    TakesFirst fault (timely? bytes language budget) (recover fault bytes language budget) := by
  have hends := ends_attempt bytes language budget (strategiesFor fault)
  refine ⟨rfl, hends.isSome_iff, hends, ?_, Recovery.suggestions_ne_nil_iff _⟩
  intro strategy outcome hfound
  rw [Recovery.changes, Recovery.confidence, hfound]
  exact ⟨rfl, rfl⟩

/-- With time enough a repair is settled by the first strategy that yields something on the decoded
text, or on the bytes where the encoding is repaired. With no time at all it fails, whatever the
file, and all strategies for the failure are recorded as tried. -/
theorem recover_takes_first (fault : Fault) (bytes : Bytes) (language : Language) :
    TakesFirst fault (yieldOf (Utf8.decode bytes) bytes language)
        (recover fault bytes language fun _ => .unlimited) ∧
      ∀ budget : Strategy → Budget, (∀ strategy, (budget strategy).overrun = true) →
        (recover fault bytes language budget).success = false ∧
          (recover fault bytes language budget).attempts =
            (strategiesFor fault).map (⟨·, false⟩) ∧
          (recover fault bytes language budget).suggestions = advice fault := by
  refine ⟨?_, fun budget hover => ?_⟩
  · rw [← timely?_unlimited]
    exact takesFirst_recover fault bytes language fun _ => .unlimited
  · obtain ⟨hattempts, hfound⟩ := (ends_attempt bytes language budget
      (strategiesFor fault)).of_forall_eq_none fun strategy _ =>
        timely?_of_overrun hover bytes language strategy
    have hfailed : (recover fault bytes language budget).success = false :=
      congrArg Option.isSome hfound
    refine ⟨hfailed, hattempts, ?_⟩
    rw [Recovery.suggestions, hfailed]
    rfl

/-- A balanced text, on which the second strategy for brackets is the first to yield something. -/
theorem balanced_takes_second :
    TakesFirst .bracketMismatch
        (yieldOf "f()\n".toList (Utf8.encode "f()\n".toList) .python)
        (recover .bracketMismatch (Utf8.encode "f()\n".toList) .python fun _ => .unlimited) ∧
      (∀ strategy : Strategy, ((fun _ => .spent : Strategy → Budget) strategy).overrun = true) ∧
      (recover .bracketMismatch (Utf8.encode "f()\n".toList) .python
        fun _ => .unlimited).attempts = [⟨.bracketFix, false⟩, ⟨.partialSections, true⟩] ∧
      (recover .bracketMismatch (Utf8.encode "f()\n".toList) .python fun _ => .spent).attempts =
        [⟨.bracketFix, false⟩, ⟨.partialSections, false⟩] := by
  have htake := recover_takes_first .bracketMismatch (Utf8.encode "f()\n".toList) .python
  have hspent : ∀ strategy : Strategy,
      ((fun _ => .spent : Strategy → Budget) strategy).overrun = true := fun _ => rfl
  refine ⟨?_, hspent, by decide +kernel, (htake.2 (fun _ => .spent) hspent).2.1⟩
  have hfirst := htake.1
  rwa [Utf8.decode_encode] at hfirst

end CodeAtlas.Repair
