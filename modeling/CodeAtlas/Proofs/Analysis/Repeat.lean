import CodeAtlas.Proofs.Analysis.Recall

/-! Analyses of unchanged files, one after the other. Where the first one leaves in memory what says the
same as it reported, the second one finds it there and reports it again. -/

namespace CodeAtlas

open Cache (Unexpired)

/-- The report with other counters of the cache. -/
def Report.counting (report : Report) (counters : CacheCounters) : Report :=
  { report with stats := { report.stats with cache := counters } }

/-- In a run of so many files no look at the clock, which has 64 bits, comes later than the age after
a look in an earlier run. -/
def Circumstances.Within (maxAge : Duration) (files : Nat) (earlier later : Circumstances) : Prop :=
  ∀ look < 2 * files, later.clock look < UInt64.size ∧
    ∀ before < 2 * files, later.clock look - earlier.clock before ≤ maxAge.millis

namespace Analyzer

/-- One analysis repeats another one: it reports the same, but for the use of the cache, and it parses
nothing, so that other parsers make no difference. It finds each file that can be read in the cache,
in the order in which their turns come. -/
structure Repeats (analyzer : Analyzer Memory) (run : Circumstances) (files : List SourceFile)
    (before after : Answer × Session Memory) : Prop where
  report_eq : after.1.report.counting before.1.report.stats.cache = before.1.report
  unparsed : ∀ orchestrator,
    (analyzer.withParsers orchestrator).analyzeFiles run files before.2 = after
  events_eq : ∃ hits, hits.Perm (files.filterMap (analyzer.hit? run.disk)) ∧ after.1.events =
    .analysisStarted (some analyzer.root.path) files.length :: hits ++ after.1.report.events
  counters_eq : after.2.cache.counters = { before.2.cache.counters with
    hits := before.2.cache.counters.hits + (files.filterMap (analyzer.hit? run.disk)).length }

variable {analyzer : Analyzer Memory} {maxAge : Duration} {run : Circumstances}
  {files : List SourceFile} {P : Nat → Prop} {memory : Memory} {outcomes : List FileOutcome}

theorem unexpired_of_within {files : Nat} {first run : Circumstances}
    (h : first.Within maxAge files run) {look : Nat} (hlook : look < 2 * files) :
    Unexpired maxAge (fun created => ∃ before < 2 * files, first.clock before = created)
      (run.clock look) := by
  rintro entry ⟨before, hbefore, hcreated⟩
  rw [Cache.isExpired_eq_false_iff entry (h look hlook).1, ← hcreated]
  exact (h look hlook).2 before hbefore

/-! ## From memory to the second run -/

/-- What a run leaves is shown as its outcomes are. -/
theorem Leaves.map_view (h : analyzer.Leaves run files P memory outcomes)
    (hcancelled : ∀ position, run.cancelled position = false) :
    outcomes.map FileOutcome.view =
      files.map fun file => (analyzer.recalled run.disk memory file).view := by
  refine map_eq_of_forall₂ (fun entry outcome hend => ?_) h.ends
  cases hend with
  | skipped hskipped => exact absurd ((hcancelled entry.2).symm.trans hskipped) Bool.false_ne_true
  | failed _ hread => simp only [recalled, hread]
  | done _ hread hresult =>
      obtain ⟨found, hg, hfacts, hstage⟩ := hresult
      simp only [recalled, hread, hg]
      exact (view_done hfacts hstage).symm

/-- Under the key of each file that can be read there stands an entry. -/
theorem Leaves.recalls (h : analyzer.Leaves run files P memory outcomes)
    (hcancelled : ∀ position, run.cancelled position = false) {position : Nat} {file : SourceFile}
    {content : Bytes} (hfile : files[position]? = some file)
    (hread : run.disk.readFile file.path = .ok content) :
    analyzer.Recalls memory file content .asked := by
  obtain ⟨outcome, hend⟩ := exists_of_forall₂ h.ends hfile
  cases hend with
  | skipped hskipped => exact absurd ((hcancelled position).symm.trans hskipped) Bool.false_ne_true
  | failed _ hfailed => exact absurd (hread.symm.trans hfailed) nofun
  | done _ hread' hresult =>
      obtain rfl := Except.ok.inj (hread.symm.trans hread')
      obtain ⟨entry, hg, -⟩ := hresult
      exact ⟨entry, hg, trivial⟩

/-! ## Room -/

/-- The answer on the files that were worked on. -/
def answerOn (analyzer : Analyzer Memory) (files : List SourceFile) (work : Work Memory) : Answer :=
  let report := Report.ofOutcomes analyzer.resolver work.outcomes work.session.cache.counters
  ⟨report, .analysisStarted (some analyzer.root.path) files.length :: work.events ++ report.events⟩

/-- An analysis after which the cache has room for all that it holds. -/
theorem analyzeFiles_of_room (henabled : analyzer.config.analysis.isEnabled = true)
    (hcache : analyzer.cache = .inMemory maxAge) {s : Session Memory} {work : Work Memory}
    (hwork : analyzer.processFiles run files s = work) (hsound : work.session.cache.place.Sound)
    (hroom : work.session.cache.place.keys.length ≤ analyzer.config.cache.capacity) :
    analyzer.analyzeFiles run files s = (analyzer.answerOn files work, work.session) := by
  simp only [analyzeFiles, henabled, Bool.not_true, Bool.false_eq_true, if_false, hwork, hcache,
    Cache.enforceCapacity_of_length_le hsound hroom, answerOn]

/-! ## The second run -/

/-- A run repeats the one that left in memory what says the same as its outcomes. -/
theorem Leaves.repeats {first second : Circumstances} {work : Work Memory}
    (h : analyzer.Leaves first files P work.session.cache.place work.outcomes)
    (henabled : analyzer.config.analysis.isEnabled = true) (hcache : analyzer.cache = .inMemory maxAge)
    (hdisk : second.disk = first.disk) (hfirst : ∀ position, first.cancelled position = false)
    (hsecond : ∀ position, second.cancelled position = false)
    (hcapacity : (files.filterMap (analyzer.keyOf? first.disk)).dedup.length ≤
      analyzer.config.cache.capacity)
    (hage : ∀ look < 2 * files.length, Unexpired maxAge P (second.clock look)) :
    analyzer.Repeats second files (analyzer.answerOn files work, work.session)
      (analyzer.analyzeFiles second files work.session) := by
  have hasked : ∀ {position : Nat} {file content}, files[position]? = some file →
      second.disk.readFile file.path = .ok content →
      analyzer.Recalls work.session.cache.place file content .asked := by
    rw [hdisk]
    exact h.recalls hfirst
  have hgrows := grows_processFiles hcache hage h.dated hasked
  have houtcomes := outcomes_processFiles hcache hage h.dated hasked hsecond
  obtain ⟨hevents, hcounters⟩ := tells_processFiles hcache hage h.dated hasked hsecond
  have hroom := (hgrows.dated.sound.length_keys_le
    (List.Subset.trans hgrows.keys_subset h.keys_subset)).trans hcapacity
  have hafter : ∀ orchestrator,
      (analyzer.withParsers orchestrator).analyzeFiles second files work.session =
        (analyzer.answerOn files (analyzer.processFiles second files work.session),
          (analyzer.processFiles second files work.session).session) := by
    intro orchestrator
    have henabled' : (analyzer.withParsers orchestrator).config.analysis.isEnabled = true := henabled
    have hprocess := processFiles_withParsers hcache hage h.dated hasked orchestrator
    exact analyzeFiles_of_room henabled' hcache hprocess hgrows.dated.sound hroom
  have hviews : (analyzer.processFiles second files work.session).outcomes.map FileOutcome.view =
      work.outcomes.map FileOutcome.view := by
    rw [houtcomes, List.map_map, hdisk, h.map_view hfirst]
    rfl
  have hself : analyzer.analyzeFiles second files work.session = _ := hafter analyzer.orchestrator
  rw [hself]
  refine ⟨?_, hafter, ⟨_, hevents, rfl⟩, hcounters⟩
  exact Report.ofOutcomes_congr analyzer.resolver hviews work.session.cache.counters

/-- An analyzer without parsers that keeps its results in memory. -/
def remembering : Analyzer Memory where
  root := small.root
  config := .unset
  orchestrator := small.orchestrator
  cache := .inMemory Cache.defaultMaxAge
  scope := small.scope
  interfaces := .empty
  resolver := .substring

/-- A run at a time in which nothing is cancelled. -/
def mixedRunAt (time : Nat) (turns : List Nat) : Circumstances where
  disk := mixedRun.disk
  clock look := time + look
  cancelled _ := false
  turns := turns

theorem within_mixedRunAt {time files : Nat} (hfiles : files ≤ 4) (h : time ≤ 7199993)
    (turns turns' : List Nat) :
    (mixedRunAt 0 turns).Within Cache.defaultMaxAge files (mixedRunAt time turns') := by
  intro look hlook
  have hage : Cache.defaultMaxAge.millis = 7200000 := by decide
  have hsize : UInt64.size = 18446744073709551616 := rfl
  simp only [mixedRunAt, hage, hsize]
  refine ⟨by omega, fun before _ => by omega⟩

/-- Those of the mixed files that can be read are the same. -/
theorem keysAgree_mixed : remembering.KeysAgree mixedRun.disk mixed := by
  have hsame : ∀ file ∈ mixed, ∀ content, mixedRun.disk.readFile file.path = .ok content →
      file.relativePath = "a.py" ∧ file.language = .python ∧ content = [] := by
    have hfiles : ∀ file ∈ mixed, file = ⟨"/repo/a.py", "a.py", .python, "py"⟩ ∨
        (mixedRun.disk.readFile file.path).isOk = false := by decide +kernel
    intro file hm content hread
    rcases hfiles file hm with rfl | hmissing
    · have hempty : mixedRun.disk.readFile "/repo/a.py" = .ok [] := rfl
      exact ⟨rfl, rfl, Except.ok.inj (hread.symm.trans hempty)⟩
    · rw [hread] at hmissing
      cases hmissing
  refine List.pairwise_of_forall_mem_list fun a ha b hb content content' hread hread' _ => ?_
  obtain ⟨hpath, hlanguage, rfl⟩ := hsame a ha content hread
  obtain ⟨hpath', hlanguage', rfl⟩ := hsame b hb content' hread'
  exact ⟨hpath.trans hpath'.symm, hlanguage.trans hlanguage'.symm, rfl, fun _ => rfl⟩

/-- An analyzer that is told to do nothing. -/
def idle : Analyzer Memory :=
  { remembering with config := { Config.unset with
      analysis := { Config.unset.analysis with enabled := some false } } }

/-- One file that is taken for Python and for Ruby. -/
def takenTwice : List SourceFile :=
  [⟨"/repo/a.py", "a.py", .python, "py"⟩, ⟨"/repo/a.py", "a.py", .ruby, "py"⟩]

/-- The nodes of the two, in the order in which they are listed. -/
def takenTwiceNodes (run : Circumstances) (s : Session Memory) : List Node :=
  Report.nodesShown (Report.showings (remembering.processFiles run takenTwice s).outcomes)

end Analyzer

end CodeAtlas
