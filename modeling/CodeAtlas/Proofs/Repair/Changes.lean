import CodeAtlas.Proofs.Repair.Reduction
import CodeAtlas.Proofs.Repair.Yield

/-! What a repair reports. Every strategy says what it changed, but for one case: a text from which
reduction has nothing to drop still loses the ends of lines that joining them does not bring
back. -/

namespace CodeAtlas.Repair

/-! ## Nothing to reduce -/

/-- No line of the text is blank or a comment, and the lines fit into the allowed size. -/
structure HasNothingToReduce (text : Text) : Prop where
  code : ∀ line ∈ text.lines, isCodeLine line = true
  fits : (Text.join ['\n'] text.lines).size ≤ maxReducedBytes

theorem codeLines_eq_iff (text : Text) :
    codeLines text = text.lines ↔ ∀ line ∈ text.lines, isCodeLine line = true := by
  rw [codeLines, List.filter_eq_self]

/-- Reduction reports nothing exactly if it has nothing to do. -/
theorem reductionNotes_eq_nil_iff (text : Text) :
    reductionNotes text = [] ↔ HasNothingToReduce text := by
  have hle : (codeLines text).length ≤ text.lines.length := List.length_filter_le _ _
  have hdropped : ¬0 < text.lines.length - (codeLines text).length ↔
      codeLines text = text.lines := by
    constructor
    · intro hzero
      exact List.filter_sublist.eq_of_length (by rw [← codeLines]; omega)
    · intro heq
      rw [heq, Nat.sub_self]
      exact Nat.lt_irrefl 0
  have hnotes : reductionNotes text = [] ↔
      ¬0 < text.lines.length - (codeLines text).length ∧
        ¬maxReducedBytes < (Text.join ['\n'] (codeLines text)).size := by
    simp [reductionNotes]
  rw [hnotes, hdropped, Nat.not_lt]
  constructor
  · rintro ⟨hlines, hfits⟩
    rw [hlines] at hfits
    exact ⟨(codeLines_eq_iff text).mp hlines, hfits⟩
  · rintro ⟨hcode, hfits⟩
    have hlines := (codeLines_eq_iff text).mpr hcode
    exact ⟨hlines, by rwa [hlines]⟩

theorem HasNothingToReduce.reduced_eq {text : Text} (h : HasNothingToReduce text) :
    reduced text = Text.join ['\n'] text.lines := by
  rw [reduced, (codeLines_eq_iff text).mpr h.code, cutToSize, if_neg (Nat.not_lt.mpr h.fits)]

/-- A line of code is not blank, and neither is what it is joined to. -/
theorem allBlank_join_eq_false {pieces : List Text} {line : Text} (hline : line ∈ pieces)
    (hcode : isCodeLine line = true) : (Text.join ['\n'] pieces).allBlank = false := by
  by_contra hblank
  have hall : ∀ c ∈ line, Text.isBlank c = true := by
    intro c hc
    rw [Bool.not_eq_false, Text.allBlank, List.all_eq_true] at hblank
    exact hblank c (Text.subset_join hline hc)
  have htrim : line.trim = [] := by
    rw [Text.trim, Text.trimStart, List.dropWhile_eq_nil_iff.mpr hall]
    rfl
  simp [isCodeLine, htrim] at hcode

/-- Where there is nothing to reduce, the ends of lines are all that reduction can take. -/
theorem HasNothingToReduce.isSome_iff {text : Text} (h : HasNothingToReduce text) :
    (contentReduction text).isSome = true ↔ Text.LosesLineEnd text := by
  have hsome : (contentReduction text).isSome = true ↔
      (reduced text).size < text.size ∧ (reduced text).allBlank = false := by
    simp [Option.isSome_iff_exists, contentReduction_eq_some_iff]
  rw [hsome, h.reduced_eq, Text.size_join_lines_lt_iff]
  refine ⟨And.left, fun hloses => ⟨hloses, ?_⟩⟩
  have hne : text.lines ≠ [] := by
    intro hnil
    obtain rfl := (Text.lines_eq_nil_iff text).mp hnil
    exact (Text.join_lines_spec []).2.mpr hloses rfl
  obtain ⟨line, hline⟩ := List.exists_mem_of_ne_nil _ hne
  exact allBlank_join_eq_false hline (h.code line hline)

/-! ## Single strategies -/

theorem repairWith_changes_eq_nil_iff {strategy : Strategy} {bytes : Bytes} {language : Language}
    {budget : Budget} {outcome : Outcome}
    (h : repairWith strategy bytes language budget = some outcome) :
    outcome.changes = [] ↔
      strategy = .contentReduction ∧ HasNothingToReduce (Utf8.decode bytes) := by
  rcases (repairWith_yield h).2 with hchanges | hstrategy
  · refine iff_of_false hchanges ?_
    rintro ⟨rfl, hnothing⟩
    obtain ⟨-, rfl⟩ := (contentReduction_eq_some_iff _ outcome).mp h
    exact hchanges ((reductionNotes_eq_nil_iff _).mpr hnothing)
  · subst hstrategy
    obtain ⟨-, rfl⟩ := (contentReduction_eq_some_iff _ outcome).mp h
    exact (reductionNotes_eq_nil_iff _).trans ⟨fun hnothing => ⟨rfl, hnothing⟩, And.right⟩

/-! ## Falling through -/

/-- Where the first strategy has nothing to offer, the next ones are tried. -/
theorem attempt_cons_of_none {bytes : Bytes} {language : Language} {budget : Strategy → Budget}
    {strategy : Strategy} (h : repairWith strategy bytes language (budget strategy) = none)
    (rest : List Strategy) : attempt bytes language budget (strategy :: rest) =
      (⟨strategy, false⟩ :: (attempt bytes language budget rest).1,
        (attempt bytes language budget rest).2) := by
  rw [attempt, h]

/-- Every strategy that yields something reports what it changed. Only reduction reports nothing
where it has nothing to reduce; it yields something all the same exactly if joining the lines loses
the end of one, and otherwise leaves the failure to the next strategy. -/
theorem repairs_report_changes (bytes : Bytes) (language : Language) :
    (∀ strategy budget outcome, repairWith strategy bytes language budget = some outcome →
        (outcome.changes = [] ↔
          strategy = .contentReduction ∧ HasNothingToReduce (Utf8.decode bytes))) ∧
      (HasNothingToReduce (Utf8.decode bytes) →
        ∀ budget, (repairWith .contentReduction bytes language budget = none ↔
          ¬Text.LosesLineEnd (Utf8.decode bytes))) ∧
      (HasNothingToReduce (Utf8.decode bytes) → ¬Text.LosesLineEnd (Utf8.decode bytes) →
        ∀ budget, recover .resourceError bytes language budget =
          ⟨.resourceError, (attempt bytes language budget [.chunking]).2,
            ⟨.contentReduction, false⟩ :: (attempt bytes language budget [.chunking]).1⟩) := by
  have hnone : HasNothingToReduce (Utf8.decode bytes) →
      ∀ budget, (repairWith .contentReduction bytes language budget = none ↔
        ¬Text.LosesLineEnd (Utf8.decode bytes)) := by
    intro hnothing budget
    rw [← hnothing.isSome_iff, Bool.not_eq_true, Option.isSome_eq_false_iff,
      Option.isNone_iff_eq_none]
    rfl
  refine ⟨fun strategy budget outcome h => repairWith_changes_eq_nil_iff h, hnone,
    fun hnothing hloses budget => ?_⟩
  have hfirst := (hnone hnothing (budget .contentReduction)).mpr hloses
  rw [recover, strategiesFor, attempt_cons_of_none hfirst]

/-- A file of one statement, with and without a newline at its end. -/
def statementBytes (ends : Text) : Bytes :=
  Utf8.encode ("x = 1".toList ++ ends)

theorem statementBytes_reported :
    (∃ outcome, repairWith .semicolonFix (statementBytes []) .javaScript .unlimited = some outcome ∧
        outcome.changes ≠ []) ∧
      repairWith .contentReduction (statementBytes []) .javaScript .unlimited = none ∧
      recover .resourceError (statementBytes []) .javaScript (fun _ => .unlimited) =
        ⟨.resourceError,
          (attempt (statementBytes []) .javaScript (fun _ => .unlimited) [.chunking]).2,
          ⟨.contentReduction, false⟩ ::
            (attempt (statementBytes []) .javaScript (fun _ => .unlimited) [.chunking]).1⟩ := by
  have hnothing : HasNothingToReduce (Utf8.decode (statementBytes [])) :=
    ⟨by decide +kernel, by decide +kernel⟩
  have hloses : ¬Text.LosesLineEnd (Utf8.decode (statementBytes [])) := by
    rw [Text.LosesLineEnd]
    decide +kernel
  have hsome :
      (repairWith .semicolonFix (statementBytes []) .javaScript .unlimited).isSome = true := by
    decide +kernel
  obtain ⟨outcome, houtcome⟩ := Option.isSome_iff_exists.mp hsome
  obtain ⟨hreports, hyields, hfalls⟩ := repairs_report_changes (statementBytes []) .javaScript
  refine ⟨⟨outcome, houtcome, fun hnil => ?_⟩, (hyields hnothing _).mpr hloses,
    hfalls hnothing hloses _⟩
  have hreduction := ((hreports _ _ _ houtcome).mp hnil).1
  cases hreduction

/-- A newline at the end is dropped without a word, and that counts as a repair. -/
theorem contentReduction_of_final_newline :
    (repairWith .contentReduction (statementBytes ['\n']) .javaScript .unlimited).map
        (fun outcome => (outcome.output.content?, outcome.changes)) =
          some (some "x = 1".toList, []) ∧
      (recover .resourceError (statementBytes ['\n']) .javaScript fun _ => .unlimited).found.map
        (fun found => (found.1, found.2.changes)) = some (.contentReduction, []) := by
  exact ⟨by decide +kernel, by decide +kernel⟩

end CodeAtlas.Repair
