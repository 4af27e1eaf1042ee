import CodeAtlas.Proofs.Keyed
import CodeAtlas.Proofs.Text
import CodeAtlas.Sketch.Attempt

/-! What hints change in sketches. A hint leaves out the estimate at most, an estimate names nothing,
and where there is something to estimate there is a bare module: whatever was sketched before, a
sketch succeeds with hints exactly where it succeeds without them, and it names the same. -/

namespace CodeAtlas.Sketch

open Repair (Budget)

/-! ## Texts with nothing but blanks -/

theorem exists_visible {word : String} (h : word ∈ functionWords ++ classWords) :
    ∃ c ∈ word.toList, Text.isBlank c = false := by
  have hall : (functionWords ++ classWords).all
      (fun word => word.toList.any fun c => !Text.isBlank c) = true := by
    decide
  simpa using List.all_eq_true.mp hall word h

/-- Nothing seems to be declared in a blank text. -/
theorem estimates_of_allBlank {text : Text} (h : text.allBlank) (language : Language) :
    estimatedFunctions text language = 0 ∧ estimatedClasses text = 0 := by
  have hblank : ∀ c ∈ text, Text.isBlank c = true := List.all_eq_true.mp h
  have hnone : ∀ words ⊆ functionWords ++ classWords,
      (tokens text).countP words.contains = 0 := by
    intro words hwords
    refine List.countP_eq_zero.mpr ?_
    intro token hm hword
    obtain ⟨piece, hpiece, rfl⟩ := List.mem_map.mp hm
    obtain ⟨c, hc, hvisible⟩ := exists_visible (hwords (List.contains_iff_mem.mp hword))
    rw [String.toList_ofList] at hc
    rw [hblank c (Text.mem_of_mem_splitWhere hpiece hc).1] at hvisible
    cases hvisible
  have harrow : text.occurrences ['=', '>'] = 0 := by
    refine Text.occurrences_of_not_mem _ ?_
    intro hm
    exact absurd (hblank _ hm) (by decide)
  refine ⟨?_, hnone classWords (List.subset_append_right _ _)⟩
  rw [estimatedFunctions, hnone functionWords (List.subset_append_left _ _), harrow, ite_self]

/-- Where an estimate can be made, a bare module can. -/
theorem minimal_isSome_of_statistics {text : Text} {language : Language}
    (h : (statistics text language).isSome) : (minimal text).isSome := by
  by_cases hb : text.allBlank
  · obtain ⟨hfunctions, hclasses⟩ := estimates_of_allBlank hb language
    simp [statistics, hfunctions, hclasses] at h
  · simp [minimal, hb]

/-! ## What the methods name -/

/-- The outline names nothing: it has no functions, no classes and no imports. -/
def NamesNothing (outline : Outline) : Prop :=
  outline.functions = [] ∧ outline.classes = [] ∧ outline.imports = []

theorem namesNothing_of_statistics {text : Text} {language : Language} {outline : Outline}
    (h : statistics text language = some outline) : NamesNothing outline := by
  unfold statistics at h
  dsimp only at h
  split at h
  · cases h
  · cases h
    exact ⟨rfl, rfl, rfl⟩

theorem namesNothing_of_minimal {text : Text} {outline : Outline}
    (h : minimal text = some outline) : NamesNothing outline := by
  unfold minimal at h
  dsimp only at h
  split at h
  · cases h
  · cases h
    exact ⟨rfl, rfl, rfl⟩

/-! ## Methods in order -/

/-- The first success of some methods, in time that never runs out. -/
theorem firstSketch_of_unlimited {budget : Budget} (hb : ∀ look, budget.expired look = false)
    (text : Text) (language : Language) (look : Nat) (methods : List Method) :
    firstSketch text language budget look methods =
      methods.findSome? fun method => (method.sketch? text language).map (⟨method, ·⟩) := by
  induction methods generalizing look with
  | nil => rfl
  | cons method methods ih =>
      rw [firstSketch, hb look, List.findSome?_cons]
      cases method.sketch? text language with
      | none => exact ih (look + 1)
      | some outline => rfl

/-- What is found in some time is what is found in time that never runs out. -/
theorem firstSketch_eq_some {text : Text} {language : Language} {budget : Budget} {look : Nat}
    {methods : List Method} {sketched : Sketched}
    (h : firstSketch text language budget look methods = some sketched) :
    firstSketch text language .unlimited 0 methods = some sketched := by
  rw [firstSketch_of_unlimited (fun _ => rfl)]
  induction methods generalizing look with
  | nil => cases h
  | cons method methods ih =>
      rw [firstSketch] at h
      split at h
      · cases h
      · rw [List.findSome?_cons]
        cases hsketch : method.sketch? text language with
        | none =>
            rw [hsketch] at h
            exact ih h
        | some outline =>
            rw [hsketch] at h
            exact h

theorem attempt_fst (hints : Hints) (text : Text) (language : Language) (budget : Budget) :
    (attempt hints text language budget).1 =
      firstSketch text language budget 0 (hints.order language text.size) := by
  unfold attempt
  cases firstSketch text language budget 0 (hints.order language text.size) <;> rfl

/-! ## One sketch with hints and one without -/

/-- A sketch that was made with hints against one that was made without any: either both fail or
both succeed, they name the same, and they are the same unless a bare module stands in for an
estimate. -/
structure Agrees (text : Text) (used fresh : Option Sketched) : Prop where
  isSome_iff : used.isSome ↔ fresh.isSome
  names_eq : ∀ a ∈ used, ∀ b ∈ fresh, a.outline.functions = b.outline.functions ∧
    a.outline.classes = b.outline.classes ∧ a.outline.imports = b.outline.imports
  eq_or_bare : used = fresh ∨
    ∃ module estimate, used = some ⟨.minimalStructure, module⟩ ∧ minimal text = some module ∧
      fresh = some ⟨.contentStatistics, estimate⟩

theorem Agrees.refl (text : Text) (found : Option Sketched) : Agrees text found found := by
  refine ⟨Iff.rfl, ?_, .inl rfl⟩
  rintro a ha b hb
  rw [Option.mem_unique ha hb]
  exact ⟨rfl, rfl, rfl⟩

theorem order_empty (language : Language) (size : Nat) :
    Hints.empty.order language size = Method.all := rfl

/-- Whatever the hints are, a sketch agrees with the one that is made without them. -/
theorem agrees_attempt (hints : Hints) (text : Text) (language : Language) {budget : Budget}
    (hb : ∀ look, budget.expired look = false) :
    Agrees text (attempt hints text language budget).1
      (attempt .empty text language budget).1 := by
  rw [attempt_fst, attempt_fst, order_empty, Hints.order]
  split
  · rw [firstSketch_of_unlimited hb, firstSketch_of_unlimited hb]
    simp only [Method.all, List.findSome?_cons]
    cases hpatterns : Method.regexExtraction.sketch? text language with
    | some outline => exact .refl text _
    | none =>
        cases hestimate : Method.contentStatistics.sketch? text language with
        | none => exact .refl text _
        | some estimate =>
            -- The hint costs the estimate; the bare module is there, and neither names anything.
            have hsome : (minimal text).isSome :=
              minimal_isSome_of_statistics (Option.isSome_iff_exists.mpr ⟨estimate, hestimate⟩)
            obtain ⟨module, hmodule⟩ := Option.isSome_iff_exists.mp hsome
            obtain ⟨hf, hc, hi⟩ := namesNothing_of_statistics hestimate
            obtain ⟨hf', hc', hi'⟩ := namesNothing_of_minimal hmodule
            have hused : Method.minimalStructure.sketch? text language = some module := hmodule
            simp only [hused, Option.map_none, Option.map_some]
            refine ⟨Iff.rfl, ?_, .inr ⟨module, estimate, rfl, hmodule, rfl⟩⟩
            rintro a ⟨⟩ b ⟨⟩
            exact ⟨hf'.trans hf.symm, hc'.trans hc.symm, hi'.trans hi.symm⟩
  · exact .refl text _

/-! ## Histories -/

/-- A sketch that was made with some hints in some time. -/
structure Trial where
  hints : Hints
  text : Text
  language : Language
  budget : Budget

namespace Trial

def found (trial : Trial) : Option Sketched :=
  (attempt trial.hints trial.text trial.language trial.budget).1

def key (trial : Trial) : HintKey := .of trial.language trial.text.size

end Trial

/-- Hints that may be there after some trials: for each key a method that succeeded under that key
in one of them, or none. -/
def Hints.From (past : List Trial) (hints : Hints) : Prop :=
  ∀ key method, hints.entries.lookup key = some method →
    ∃ trial ∈ past, trial.key = key ∧ ∃ outline, trial.found = some ⟨method, outline⟩

/-- Trials one after the other, each with hints that may be there after the ones before it. -/
inductive History : List Trial → Prop where
  | start : History []
  | next {past : List Trial} {trial : Trial} :
      History past → trial.hints.From past → History (past ++ [trial])

/-- Without hints there would be no more than a bare module. -/
def Trial.IsBare (trial : Trial) : Prop :=
  ∃ module, (attempt .empty trial.text trial.language .unlimited).1 =
    some ⟨.minimalStructure, module⟩

/-- The first bare module under a key was found without a hint. -/
theorem History.exists_isBare {past : List Trial} (h : History past) {trial : Trial}
    (hm : trial ∈ past) {module : Outline}
    (hfound : trial.found = some ⟨.minimalStructure, module⟩) :
    ∃ origin ∈ past, origin.key = trial.key ∧ origin.IsBare := by
  induction h generalizing trial module with
  | start => cases hm
  | @next past last _ hfrom ih =>
      rcases List.mem_append.mp hm with hm | hm
      · obtain ⟨origin, ho, hkey, hbare⟩ := ih hm hfound
        exact ⟨origin, List.mem_append_left _ ho, hkey, hbare⟩
      · rw [List.mem_singleton.mp hm] at hfound ⊢
        by_cases hhint : last.hints.get? last.language last.text.size = some .minimalStructure
        · obtain ⟨earlier, he, hsame, found, hearlier⟩ := hfrom last.key .minimalStructure hhint
          obtain ⟨origin, ho, hkey, hbare⟩ := ih he hearlier
          exact ⟨origin, List.mem_append_left _ ho, hkey.trans hsame, hbare⟩
        · refine ⟨last, by simp, rfl, module, ?_⟩
          rw [Trial.found, attempt_fst, Hints.order, if_neg hhint] at hfound
          rw [attempt_fst, order_empty]
          exact firstSketch_eq_some hfound

theorem lookup_remember (hints : Hints) (language : Language) (size : Nat) (method : Method)
    (key : HintKey) :
    (hints.remember language size method).entries.lookup key =
      if key = .of language size then some method else hints.entries.lookup key := by
  have herase : (hints.entries.filter fun entry => entry.1 ≠ HintKey.of language size) =
      ((Keyed.mk hints.entries).erase (.of language size)).items :=
    List.filter_congr fun entry _ => by rw [decide_not, beq_eq_decide]
  have hrest := (Keyed.mk hints.entries).get?_erase (.of language size) key
  simp only [Hints.remember, herase, List.lookup_cons]
  by_cases hk : key = .of language size
  · simp [hk]
  · rw [if_neg hk] at hrest ⊢
    rw [beq_eq_false_iff_ne.mpr hk]
    exact hrest

/-- The hints that a trial leaves may be there after it. -/
theorem from_attempt {past : List Trial} (trial : Trial) (h : trial.hints.From past) :
    (attempt trial.hints trial.text trial.language trial.budget).2.From (past ++ [trial]) := by
  have earlier : trial.hints.From (past ++ [trial]) := by
    intro key method hlookup
    obtain ⟨other, hm, hother⟩ := h key method hlookup
    exact ⟨other, List.mem_append_left _ hm, hother⟩
  have hfound := attempt_fst trial.hints trial.text trial.language trial.budget
  cases hfirst : firstSketch trial.text trial.language trial.budget 0
      (trial.hints.order trial.language trial.text.size) with
  | none =>
      simp only [attempt, hfirst]
      exact earlier
  | some sketched =>
      simp only [attempt, hfirst]
      intro key method hlookup
      rw [lookup_remember] at hlookup
      split at hlookup
      · rename_i hk
        obtain rfl := Option.some.inj hlookup
        exact ⟨trial, by simp, hk.symm, sketched.outline, hfound.trans hfirst⟩
      · exact earlier key method hlookup

/-- After any history a sketch succeeds exactly where it succeeds without hints, and it names the
same. The two differ only where an earlier text of the same language and of about the same size had
no more than a bare module, and then a bare module stands in for an estimate. The hints that are left
are again such as may be there after the history. -/
theorem attempt_after_history {past : List Trial} (hp : History past) {hints : Hints}
    (hh : hints.From past) (text : Text) (language : Language) {budget : Budget}
    (hb : ∀ look, budget.expired look = false) :
    Agrees text (attempt hints text language budget).1 (attempt .empty text language budget).1 ∧
      ((attempt hints text language budget).1 ≠ (attempt .empty text language budget).1 →
        ∃ origin ∈ past, origin.key = .of language text.size ∧ origin.IsBare) ∧
      (attempt hints text language budget).2.From (past ++ [⟨hints, text, language, budget⟩]) := by
  refine ⟨agrees_attempt hints text language hb, ?_, from_attempt ⟨hints, _, _, _⟩ hh⟩
  intro hne
  by_cases hhint : hints.get? language text.size = some .minimalStructure
  · obtain ⟨earlier, hm, hkey, module, hfound⟩ := hh _ _ hhint
    obtain ⟨origin, ho, hsame, hbare⟩ := hp.exists_isBare hm hfound
    exact ⟨origin, ho, hsame.trans hkey, hbare⟩
  · refine absurd ?_ hne
    rw [attempt_fst, attempt_fst, order_empty, Hints.order, if_neg hhint]

/-- A text in which nothing can be found. -/
def plainTrial : Trial := ⟨.empty, "ab".toList, .kotlin, .unlimited⟩

/-- After a text in which nothing can be found, one of the same size with a word of a declaration
gets a bare module instead of an estimate. -/
theorem bare_module_after_plainTrial :
    History [plainTrial] ∧
      (attempt .empty plainTrial.text .kotlin .unlimited).2.From [plainTrial] ∧
      ∃ module estimate,
        (attempt (attempt .empty plainTrial.text .kotlin .unlimited).2 "fn".toList .kotlin
          .unlimited).1 = some ⟨.minimalStructure, module⟩ ∧
        (attempt .empty "fn".toList .kotlin .unlimited).1 = some ⟨.contentStatistics, estimate⟩ ∧
        ∃ origin ∈ [plainTrial], origin.key = .of .kotlin 2 ∧ origin.IsBare := by
  have hnone : Hints.empty.From [] := by
    intro key method hlookup
    cases hlookup
  have hpast : History [plainTrial] := .next .start hnone
  have hfrom : (attempt .empty plainTrial.text .kotlin .unlimited).2.From [plainTrial] :=
    from_attempt plainTrial hnone
  have hused : ((attempt (attempt .empty plainTrial.text .kotlin .unlimited).2 "fn".toList .kotlin
      .unlimited).1.map (·.method)) = some .minimalStructure := by
    decide +kernel
  have hfresh : ((attempt .empty "fn".toList .kotlin .unlimited).1.map (·.method)) =
      some .contentStatistics := by
    decide +kernel
  have hlimit : ∀ look, Budget.unlimited.expired look = false := fun _ => rfl
  obtain ⟨hagrees, horigin, -⟩ :=
    attempt_after_history hpast hfrom "fn".toList .kotlin hlimit
  have hne : (attempt (attempt .empty plainTrial.text .kotlin .unlimited).2 "fn".toList .kotlin
      .unlimited).1 ≠ (attempt .empty "fn".toList .kotlin .unlimited).1 := by
    intro heq
    rw [heq, hfresh] at hused
    cases hused
  rcases hagrees.eq_or_bare with heq | ⟨module, estimate, hmodule, -, hestimate⟩
  · exact absurd heq hne
  · exact ⟨hpast, hfrom, module, estimate, hmodule, hestimate, horigin hne⟩

end CodeAtlas.Sketch
