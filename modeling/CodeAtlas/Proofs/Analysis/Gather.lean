import CodeAtlas.Proofs.Analysis.Order
import CodeAtlas.Proofs.Cache.Retain

/-! A run from an empty memory. In the end there stands under the key of each file what says the same
of it as the outcome: without interruptions it is the very result, and where files that share a key
are the same, it is a result of a parse of the same. -/

namespace CodeAtlas

open Cache (Unexpired)

namespace Analyzer

/-- What stands under the key of a file says the same of it as the result. -/
def Stands (analyzer : Analyzer Memory) (memory : Memory) (file : SourceFile) (content : Bytes)
    (result : ParseResult) : Prop :=
  ∃ entry, memory.get? (analyzer.scope.key file.relativePath content) = some entry ∧
    entry.result.facts = result.facts ∧ entry.result.stage = result.stage

/-- Files with one key have the same path, language and content, and the sketches of such files do not
run out of time. -/
def KeysAgree {σ : Type} (analyzer : Analyzer σ) (disk : Disk) (files : List SourceFile) : Prop :=
  files.Pairwise fun a b => ∀ content content', disk.readFile a.path = .ok content →
    disk.readFile b.path = .ok content' →
    analyzer.scope.key a.relativePath content = analyzer.scope.key b.relativePath content' →
      a.relativePath = b.relativePath ∧ a.language = b.language ∧ content = content' ∧
        ∀ look, analyzer.orchestrator.sketchBudget.expired look = false

variable {analyzer : Analyzer Memory} {run : Circumstances} {files : List SourceFile}
  {P : Nat → Prop}

theorem Stands.of_retains {before after : Memory} (hretains : before.Retains after)
    {file : SourceFile} {content : Bytes} {result : ParseResult}
    (h : analyzer.Stands before file content result) :
    analyzer.Stands after file content result := by
  obtain ⟨entry, hg, hfacts, hstage⟩ := h
  obtain ⟨later, hlater, hresult, -⟩ := hretains _ entry hg
  exact ⟨later, hlater, by rw [hresult, hfacts], by rw [hresult, hstage]⟩

/-- What a run leaves in memory: results under the keys of the files, and for each outcome one that
says the same. -/
structure Leaves (analyzer : Analyzer Memory) (run : Circumstances) (files : List SourceFile)
    (P : Nat → Prop) (memory : Memory) (outcomes : List FileOutcome) : Prop where
  dated : memory.Dated P
  keys_subset : memory.keys ⊆ files.filterMap (analyzer.keyOf? run.disk)
  ends : List.Forall₂
    (fun entry => analyzer.Ends run entry.2 entry.1 (analyzer.Stands memory entry.1))
    files.zipIdx outcomes

/-! ## Without interruptions -/

section Alone

variable {maxAge : Duration} (hcache : analyzer.cache = .inMemory maxAge) {s : Session Memory}
  (hdated : s.cache.place.Dated P)
include hcache hdated

/-- The result of a parse stands in memory afterwards, and nothing that stood there is replaced. -/
theorem grows_parseFile {lookedUp stored : Nat} (hage : Unexpired maxAge P lookedUp)
    (hstored : P stored) (file : SourceFile) (content : Bytes) :
    let answer := analyzer.parseFile lookedUp stored file content s
    Memory.Grows P [analyzer.scope.key file.relativePath content] s.cache.place
        answer.2.cache.place ∧
      analyzer.Stands answer.2.cache.place file content answer.1.result := by
  cases hg : s.cache.place.get? (analyzer.scope.key file.relativePath content) with
  | some entry =>
      have hget := Cache.get_of_get? hg (hage entry (hdated.created _ entry hg))
      have hgrows := hdated.grows_touched hg lookedUp
      simp only [parseFile, hcache, hget]
      refine ⟨⟨hgrows.dated, hgrows.retains, ?_⟩, entry.touched lookedUp, ?_, rfl, rfl⟩
      · exact List.subset_cons_of_subset _ hgrows.keys_subset
      · exact (Keyed.get?_put _ _ _ _).trans (if_pos (hdated.sound.key_of_get? hg).symm)
  | none =>
      have hget : (Cache.inMemory maxAge).get lookedUp analyzer.scope file.relativePath content
          s.cache = _ := Cache.get_of_get?_eq_none hg
      let parsed := (analyzer.orchestrator.parse s.hints
        ⟨file.relativePath, file.language, content⟩).1.result
      let entry := Cache.entryOf stored analyzer.scope file.relativePath content parsed
      have hgrows : Memory.Grows P [entry.key] s.cache.place (s.cache.place.put entry.key entry) :=
        hdated.grows_put hg hstored
      simp only [parseFile, hcache, hget, Cache.set_place]
      exact ⟨hgrows, entry, (Keyed.get?_put _ _ _ _).trans (if_pos rfl), rfl, rfl⟩

/-- The step lemma: what says the same as the outcome of a file stands in the memory that it leaves. -/
theorem grows_processFile {position : Nat} (hage : Unexpired maxAge P (run.clock (2 * position)))
    (hstored : P (run.clock (2 * position + 1))) (file : SourceFile) :
    let answer := analyzer.processFile run position file s
    Memory.Grows P (analyzer.keyOf? run.disk file).toList s.cache.place answer.2.cache.place ∧
      analyzer.Ends run position file (analyzer.Stands answer.2.cache.place file) answer.1.1 := by
  unfold processFile
  by_cases hcancelled : run.cancelled position = true
  · simp only [hcancelled, if_true]
    have hgrows := hdated.grows_refl (analyzer.keyOf? run.disk file).toList
    exact ⟨hgrows, .skipped hcancelled⟩
  · have hnot : run.cancelled position = false := by simpa using hcancelled
    cases hread : run.disk.readFile file.path with
    | error message =>
        simp only [hnot, Bool.false_eq_true, if_false]
        exact ⟨hdated.grows_refl _, .failed hnot hread⟩
    | ok content =>
        obtain ⟨hgrows, hstands⟩ := grows_parseFile hcache hdated hage hstored file content
        rw [key_of_read hread]
        simp only [hnot, Bool.false_eq_true, if_false]
        exact ⟨hgrows, .done hnot hread hstands⟩

/-- The run lemma. -/
theorem grows_processEach {position limit : Nat} {files : List SourceFile}
    (hlimit : 2 * (position + files.length) ≤ limit)
    (hage : ∀ look < limit, Unexpired maxAge P (run.clock look))
    (hstored : ∀ look < limit, P (run.clock look)) :
    let answer := analyzer.processEach run position files s
    Memory.Grows P (files.filterMap (analyzer.keyOf? run.disk)) s.cache.place
        answer.2.cache.place ∧
      List.Forall₂ (fun entry => analyzer.Ends run entry.2 entry.1
          (analyzer.Stands answer.2.cache.place entry.1))
        (files.zipIdx position) (answer.1.map (·.1)) := by
  induction files generalizing position s with
  | nil => exact ⟨hdated.grows_refl [], .nil⟩
  | cons file files ih =>
      rw [List.length_cons] at hlimit
      obtain ⟨hfirst, hend⟩ := grows_processFile hcache hdated
        (hage (2 * position) (by omega)) (hstored (2 * position + 1) (by omega)) file
      have hlater : 2 * (position + 1 + files.length) ≤ limit := by omega
      obtain ⟨hrest, hends⟩ := ih hfirst.dated hlater
      have hkeys : (analyzer.keyOf? run.disk file).toList ++
          files.filterMap (analyzer.keyOf? run.disk) =
            (file :: files).filterMap (analyzer.keyOf? run.disk) := by
        rw [List.filterMap_cons]
        cases analyzer.keyOf? run.disk file <;> rfl
      refine ⟨hkeys ▸ hfirst.trans hrest, .cons ?_ hends⟩
      exact hend.imp fun _ _ _ hstands => hstands.of_retains hrest.retains

end Alone

/-! ## Side by side -/

/-- The entry stands for a file: it has the key of the file, it was stored at a time that satisfies `P`,
and its result is that of a parse of the file. -/
structure Suits (analyzer : Analyzer Memory) (P : Nat → Prop) (file : SourceFile) (content : Bytes)
    (entry : CacheEntry) : Prop where
  key_eq : entry.key = analyzer.scope.key file.relativePath content
  created : P entry.created
  fresh : analyzer.IsFresh file content entry.result

/-- What is known of the parse of a file while entries come into memory. -/
def Gathered (analyzer : Analyzer Memory) (P : Nat → Prop) (memory : Memory) (file : SourceFile)
    (content : Bytes) : Progress → Prop
  | .asked | .missed => True
  | .expired => False
  | .found entry => analyzer.Suits P file content entry
  | .parsed result | .learned result => analyzer.IsFresh file content result
  | .answered result =>
    analyzer.IsFresh file content result ∧ analyzer.Stands memory file content result

/-- A memory that holds entries for the files, and nothing else. -/
structure Gathers (analyzer : Analyzer Memory) (disk : Disk) (files : List SourceFile)
    (P : Nat → Prop) (memory : Memory) : Prop where
  dated : memory.Dated P
  keys_subset : memory.keys ⊆ files.filterMap (analyzer.keyOf? disk)
  suits : ∀ {position : Nat} {file content entry}, files[position]? = some file →
    disk.readFile file.path = .ok content →
    memory.get? (analyzer.scope.key file.relativePath content) = some entry →
      analyzer.Suits P file content entry

theorem gathers_empty (disk : Disk) (files : List SourceFile) :
    analyzer.Gathers disk files P Keyed.empty :=
  ⟨Memory.dated_empty P, List.nil_subset _, fun _ _ h => nomatch h⟩

section Pairs

variable (hagree : analyzer.KeysAgree run.disk files) {i j : Nat} {file file' : SourceFile}
  (hfile : files[i]? = some file) (hfile' : files[j]? = some file') {content content' : Bytes}
  (hread : run.disk.readFile file.path = .ok content)
  (hread' : run.disk.readFile file'.path = .ok content')
  (hkey : analyzer.scope.key file.relativePath content =
    analyzer.scope.key file'.relativePath content')
include hagree hfile hfile' hread hread' hkey

theorem KeysAgree.of_ne (hne : i ≠ j) :
    file.relativePath = file'.relativePath ∧ file.language = file'.language ∧ content = content' ∧
      ∀ look, analyzer.orchestrator.sketchBudget.expired look = false := by
  refine rel_of_getElem?_ne hagree ?_ hfile hfile' hne content content' hread hread' hkey
  intro a b hab content content' ha hb hkey
  obtain ⟨hpath, hlanguage, hcontent, hbudget⟩ := hab _ _ hb ha hkey.symm
  exact ⟨hpath.symm, hlanguage.symm, hcontent.symm, hbudget⟩

/-- Files with one key have the same results. -/
theorem IsFresh.of_key_eq {result : ParseResult} (h : analyzer.IsFresh file content result) :
    analyzer.IsFresh file' content' result := by
  by_cases hsame : i = j
  · subst hsame
    obtain rfl := Option.some.inj (hfile.symm.trans hfile')
    obtain rfl := Except.ok.inj (hread.symm.trans hread')
    exact h
  · obtain ⟨hpath, hlanguage, rfl, -⟩ :=
      KeysAgree.of_ne hagree hfile hfile' hread hread' hkey hsame
    unfold IsFresh at h ⊢
    rwa [← hpath, ← hlanguage]

end Pairs

section Put

variable (hagree : analyzer.KeysAgree run.disk files) {memory : Memory} {position : Nat}
  {file : SourceFile} {content : Bytes} {entry : CacheEntry} (hfile : files[position]? = some file)
  (hread : run.disk.readFile file.path = .ok content)
  (hsuits : analyzer.Suits P file content entry)
include hagree hfile hread hsuits

theorem Gathers.put (h : analyzer.Gathers run.disk files P memory) :
    analyzer.Gathers run.disk files P (Keyed.put memory entry.key entry) where
  dated := h.dated.put hsuits.created
  keys_subset := by
    intro key hm
    rw [Keyed.keys_put, Keyed.keys_erase] at hm
    rcases List.mem_append.mp hm with hm | hm
    · exact h.keys_subset (List.mem_filter.mp hm).1
    · rw [List.mem_singleton.mp hm, hsuits.key_eq]
      exact List.mem_filterMap.mpr ⟨file, List.mem_of_getElem? hfile, key_of_read hread⟩
  suits := by
    intro other file' content' found hfile' hread' hg
    rw [Keyed.get?_put] at hg
    split at hg
    · rename_i hkey
      obtain rfl := Option.some.inj hg
      refine ⟨hkey.symm, hsuits.created, ?_⟩
      exact hsuits.fresh.of_key_eq hagree hfile hfile' hread hread' (hsuits.key_eq.symm.trans hkey.symm)
    · exact h.suits hfile' hread' hg

/-- An entry for one file is as good for another one. -/
theorem Stands.put {other : Nat} {file' : SourceFile} {content' : Bytes} {result : ParseResult}
    (hne : other ≠ position) (hfile' : files[other]? = some file')
    (hread' : run.disk.readFile file'.path = .ok content')
    (hresult : analyzer.IsFresh file' content' result)
    (h : analyzer.Stands memory file' content' result) :
    analyzer.Stands (Keyed.put memory entry.key entry) file' content' result := by
  unfold Stands
  rw [Keyed.get?_put]
  split
  · rename_i hkey
    have hsame := hsuits.key_eq.symm.trans hkey.symm
    obtain ⟨-, -, -, hb⟩ := hagree.of_ne hfile hfile' hread hread' hsame hne.symm
    obtain ⟨hints, hentry⟩ := hsuits.fresh.of_key_eq hagree hfile hfile' hread hread' hsame
    obtain ⟨hints', rfl⟩ := hresult
    refine ⟨entry, rfl, ?_, ?_⟩
    · rw [hentry, Orchestrator.facts_parse_hints hb hints, Orchestrator.facts_parse_hints hb hints']
    · rw [hentry, Orchestrator.stage_parse_hints hb hints, Orchestrator.stage_parse_hints hb hints']
  · exact h

end Put

section Steps

variable {maxAge : Duration} (hcache : analyzer.cache = .inMemory maxAge) (position : Nat)
  (file : SourceFile) (content : Bytes) (s : Session Memory)
include hcache

theorem stepAt_asked_of_get? {entry : CacheEntry}
    (hg : s.cache.place.get? (analyzer.scope.key file.relativePath content) = some entry)
    (hage : entry.isExpired (run.clock (2 * position)) maxAge = false) :
    analyzer.stepAt run position file content .asked s = ((.found entry, []), s) := by
  have hunexpired : entry.isExpired (run.clock (2 * position)) (Cache.inMemory maxAge).maxAge =
      false := hage
  simp only [stepAt, parseStep, hcache, Cache.find_inMemory, hg, hunexpired, Bool.false_eq_true,
    if_false]

theorem stepAt_asked_of_get?_eq_none
    (hg : s.cache.place.get? (analyzer.scope.key file.relativePath content) = none) :
    analyzer.stepAt run position file content .asked s = analyzer.missOn file s := by
  simp only [stepAt, parseStep, hcache, Cache.find_inMemory, hg]

theorem stepAt_found (entry : CacheEntry) :
    let touched := entry.touched (run.clock (2 * position))
    analyzer.stepAt run position file content (.found entry) s =
      ((.answered entry.result, [.cacheHit file.relativePath analyzer.scope.branch]),
        ⟨⟨s.cache.place.put touched.key touched,
          { s.cache.counters with hits := s.cache.counters.hits + 1 }⟩, s.hints⟩) := by
  simp only [stepAt, parseStep, hcache, Cache.touch_inMemory]

theorem place_stepAt_learned (result : ParseResult) :
    let entry := Cache.entryOf (run.clock (2 * position + 1)) analyzer.scope file.relativePath
      content result
    (analyzer.stepAt run position file content (.learned result) s).2.cache.place =
      s.cache.place.put entry.key entry := by
  simp only [stepAt, parseStep, hcache, Cache.set_place, Cache.entryOf]

end Steps

/-- A step for a file puts at most one entry into memory, one that stands for the file. -/
theorem gathered_stepAt {maxAge : Duration} (hcache : analyzer.cache = .inMemory maxAge)
    {s : Session Memory} (h : analyzer.Gathers run.disk files P s.cache.place) {position : Nat}
    (hage : Unexpired maxAge P (run.clock (2 * position)))
    (hstored : P (run.clock (2 * position + 1))) {file : SourceFile} {content : Bytes}
    (hfile : files[position]? = some file) (hread : run.disk.readFile file.path = .ok content)
    {progress : Progress}
    (hprogress : analyzer.Gathered P s.cache.place file content progress) :
    let next := analyzer.stepAt run position file content progress s
    (next.2.cache.place = s.cache.place ∨ ∃ entry, analyzer.Suits P file content entry ∧
      next.2.cache.place = s.cache.place.put entry.key entry) ∧
    analyzer.Gathered P next.2.cache.place file content next.1.1 := by
  have hput : ∀ {entry result}, analyzer.Suits P file content entry → entry.result = result →
      analyzer.Stands (s.cache.place.put entry.key entry) file content result := by
    rintro entry _ hsuits rfl
    exact ⟨entry, (Keyed.get?_put _ _ _ _).trans (if_pos hsuits.key_eq.symm), rfl, rfl⟩
  cases progress with
  | asked =>
      cases hg : s.cache.place.get? (analyzer.scope.key file.relativePath content) with
      | none =>
          rw [stepAt_asked_of_get?_eq_none hcache position file content s hg]
          exact ⟨.inl rfl, trivial⟩
      | some entry =>
          have hsuits := h.suits hfile hread hg
          rw [stepAt_asked_of_get? hcache position file content s hg (hage entry hsuits.created)]
          exact ⟨.inl rfl, hsuits⟩
  | found entry =>
      have hsuits : analyzer.Suits P file content (entry.touched (run.clock (2 * position))) :=
        ⟨hprogress.key_eq, hprogress.created, hprogress.fresh⟩
      rw [stepAt_found hcache]
      exact ⟨.inr ⟨_, hsuits, rfl⟩, hprogress.fresh, hput hsuits rfl⟩
  | expired => exact hprogress.elim
  | missed => exact ⟨.inl rfl, s.hints, rfl⟩
  | parsed result => exact ⟨.inl rfl, hprogress⟩
  | learned result =>
      have hplace : (analyzer.stepAt run position file content (.learned result) s).2.cache.place =
        _ := place_stepAt_learned hcache position file content s result
      have hsuits : analyzer.Suits P file content (Cache.entryOf (run.clock (2 * position + 1))
          analyzer.scope file.relativePath content result) := ⟨rfl, hstored, hprogress⟩
      refine ⟨.inr ⟨_, hsuits, hplace⟩, hprogress, ?_⟩
      rw [hplace]
      exact hput hsuits rfl
  | answered result => exact ⟨.inl rfl, hprogress⟩

section Together

variable {maxAge : Duration} (hcache : analyzer.cache = .inMemory maxAge)
  (hagree : analyzer.KeysAgree run.disk files)
  (hage : ∀ look < 2 * files.length, Unexpired maxAge P (run.clock look))
  (hstored : ∀ look < 2 * files.length, P (run.clock look))
include hcache hagree hage hstored

/-- The step lemma: each file leaves an entry that stands for it, and an entry for another one does no
harm. -/
theorem keeps_gathered : analyzer.Keeps run files
    (fun s => analyzer.Gathers run.disk files P s.cache.place)
    fun s _ file content progress => analyzer.Gathered P s.cache.place file content progress where
  step := by
    intro s position file content progress hfile hread h hprogress
    have hlength := (List.getElem?_eq_some_iff.mp hfile).1
    obtain ⟨hplace, hnext⟩ := gathered_stepAt hcache h (hage (2 * position) (by omega))
      (hstored (2 * position + 1) (by omega)) hfile hread hprogress
    refine ⟨?_, hnext⟩
    rcases hplace with hplace | ⟨entry, hsuits, hplace⟩
    · rwa [hplace]
    · rw [hplace]
      exact h.put hagree hfile hread hsuits
  frame := by
    intro s position file content progress hfile hread h hprogress other file' content' progress'
      hne hfile' hread' hother
    have hlength := (List.getElem?_eq_some_iff.mp hfile).1
    obtain ⟨hplace, -⟩ := gathered_stepAt hcache h (hage (2 * position) (by omega))
      (hstored (2 * position + 1) (by omega)) hfile hread hprogress
    rcases hplace with hplace | ⟨entry, hsuits, hplace⟩
    · rwa [hplace]
    · rw [hplace]
      cases progress' with
      | answered result =>
          exact ⟨hother.1, hother.2.put hagree hfile hread hsuits hne hfile' hread' hother.1⟩
      | asked | found _ | expired | missed | parsed _ | learned _ => exact hother

end Together

/-! ## Either way -/

/-- A run from an empty memory leaves what says the same as its outcomes. -/
theorem leaves_processFiles {maxAge : Duration} (hcache : analyzer.cache = .inMemory maxAge)
    (hshared : run.turns = [] ∨ analyzer.KeysAgree run.disk files)
    (hage : ∀ look < 2 * files.length, Unexpired maxAge P (run.clock look))
    (hstored : ∀ look < 2 * files.length, P (run.clock look)) {s : Session Memory}
    (hempty : s.cache.place = .empty) :
    let work := analyzer.processFiles run files s
    analyzer.Leaves run files P work.session.cache.place work.outcomes := by
  rcases hshared with halone | hagree
  · obtain ⟨houtcomes, -, hsession⟩ := processFiles_of_turns_eq_nil analyzer halone files s
    have hdated : s.cache.place.Dated P := hempty ▸ Memory.dated_empty P
    have hlimit : 2 * (0 + files.length) ≤ 2 * files.length := by omega
    obtain ⟨hgrows, hends⟩ := grows_processEach hcache hdated hlimit hage hstored
    rw [← hsession, ← houtcomes] at hends
    rw [← hsession, hempty] at hgrows
    exact ⟨hgrows.dated, fun key hm => by simpa [Keyed.keys, Keyed.empty] using hgrows.keys_subset hm,
      hends⟩
  · have hgathers : analyzer.Gathers run.disk files P s.cache.place :=
      hempty ▸ gathers_empty run.disk files
    obtain ⟨hlast, hends⟩ :=
      ends_processFiles (keeps_gathered hcache hagree hage hstored) hgathers fun _ _ => trivial
    exact ⟨hlast.dated, hlast.keys_subset,
      hends.imp fun _ _ hend => hend.imp fun _ _ _ hresult => hresult.2⟩

end Analyzer

end CodeAtlas
