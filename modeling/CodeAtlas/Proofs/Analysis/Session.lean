import CodeAtlas.Proofs.Cache.Key
import CodeAtlas.Proofs.Cache.Upkeep
import CodeAtlas.Proofs.Parse.Facts
import CodeAtlas.Proofs.Source.File
import Mathlib.Data.List.Forall2

/-! Files parsed one after another through one cache. Every result was made of a file with the same
path and the same content as the one asked for; where the path fixes the language, the cache changes
no facts. -/

namespace CodeAtlas

open ParseResult (Facts)

namespace Analyzer

/-! ## Calls -/

/-- A file to parse, and its content. -/
structure Ask where
  file : SourceFile
  content : Bytes

namespace Ask

def job (ask : Ask) : Job := ⟨ask.file.relativePath, ask.file.language, ask.content⟩

/-- What the result is kept for. -/
def request (ask : Ask) : Scope.Request := (ask.file.relativePath, ask.content)

end Ask

/-- A call on an analyzer: a file is parsed, or the cache is tended without storing anything. -/
inductive Call where
  | parse (lookedUp stored : Nat) (ask : Ask)
  | upkeep (call : CacheCall) (bringsNothing : ∀ key, ¬ call.op.Sets key)

def Call.ask? : Call → Option Ask
  | parse _ _ ask => some ask
  | upkeep .. => none

/-- What some calls ask for. -/
def asked (calls : List Call) : List Ask :=
  calls.filterMap Call.ask?

variable {σ : Type}

/-- Carries out a call. A parse has a result. -/
def step (analyzer : Analyzer σ) (s : Session σ) : Call → Option ParseResult × Session σ
  | .parse lookedUp stored ask =>
    let (parsing, s) := analyzer.parseFile lookedUp stored ask.file ask.content s
    (some parsing.result, s)
  | .upkeep call _ => (none, { s with cache := analyzer.cache.step s.cache call })

/-- Carries out calls one after the other. The results are those of the parses. -/
def run (analyzer : Analyzer σ) : List Call → Session σ → List ParseResult × Session σ
  | [], s => ([], s)
  | call :: calls, s =>
    let (result, s) := analyzer.step s call
    let (results, s) := analyzer.run calls s
    (result.toList ++ results, s)

/-- The same analyzer with caching disabled. -/
def uncached (analyzer : Analyzer σ) : Analyzer σ :=
  { analyzer with cache := .disabled }

/-! ## Where results come from -/

/-- The facts are those of one of the asks, kept under a key. Hints of any kind may have been there
when it was parsed. -/
def Parsed (analyzer : Analyzer σ) (asks : List Ask) (key : String) (facts : Facts) : Prop :=
  ∃ ask ∈ asks, analyzer.scope.key ask.file.relativePath ask.content = key ∧
    ∃ hints, facts = (analyzer.orchestrator.parse hints ask.job).1.result.facts

variable {analyzer : Analyzer σ} {s : Session σ}

/-- What holds of the stored results and of a fresh one holds of the answer, and then again of the
stored results. -/
theorem holds_parseFile {P : String → Facts → Prop} (hf : analyzer.cache.Faithful)
    (h : analyzer.cache.Holds P s.cache) (lookedUp stored : Nat) {file : SourceFile}
    {content : Bytes}
    (hfresh : ∀ hints, P (analyzer.scope.key file.relativePath content)
      (analyzer.orchestrator.parse hints
        ⟨file.relativePath, file.language, content⟩).1.result.facts) :
    P (analyzer.scope.key file.relativePath content)
        (analyzer.parseFile lookedUp stored file content s).1.result.facts ∧
      analyzer.cache.Holds P (analyzer.parseFile lookedUp stored file content s).2.cache := by
  have hget := Cache.holds_get hf h lookedUp analyzer.scope file.relativePath content
  simp only [parseFile]
  cases hfound : (analyzer.cache.get lookedUp analyzer.scope file.relativePath content
      s.cache).1.result with
  | some result => exact ⟨Cache.facts_of_get hf h hfound, hget⟩
  | none =>
      have hsteady := analyzer.orchestrator.steady_parse s.hints
        ⟨file.relativePath, file.language, content⟩
      exact ⟨hfresh s.hints, Cache.holds_set hf hget stored hsteady.facts (hfresh s.hints)⟩

theorem parsed_parseFile {asks : List Ask} (hf : analyzer.cache.Faithful)
    (h : analyzer.cache.Holds (analyzer.Parsed asks) s.cache) (lookedUp stored : Nat) {ask : Ask}
    (hm : ask ∈ asks) :
    analyzer.Parsed asks (analyzer.scope.key ask.file.relativePath ask.content)
        (analyzer.parseFile lookedUp stored ask.file ask.content s).1.result.facts ∧
      analyzer.cache.Holds (analyzer.Parsed asks)
        (analyzer.parseFile lookedUp stored ask.file ask.content s).2.cache :=
  holds_parseFile hf h lookedUp stored fun hints => ⟨ask, hm, rfl, hints, rfl⟩

/-- The run lemma: each result comes from one of the asks, under the key of the one that it answers. -/
theorem parsed_run {asks : List Ask} (hf : analyzer.cache.Faithful)
    (h : analyzer.cache.Holds (analyzer.Parsed asks) s.cache) {calls : List Call}
    (hsub : asked calls ⊆ asks) :
    List.Forall₂ (fun ask result => ask ∈ asks ∧
        analyzer.Parsed asks (analyzer.scope.key ask.file.relativePath ask.content) result.facts)
      (asked calls) (analyzer.run calls s).1 ∧
    analyzer.cache.Holds (analyzer.Parsed asks) (analyzer.run calls s).2.cache := by
  induction calls generalizing s with
  | nil => exact ⟨.nil, h⟩
  | cons call calls ih =>
      cases call with
      | parse lookedUp stored ask =>
          have hsub : ask :: asked calls ⊆ asks := hsub
          obtain ⟨hm, hsub⟩ := List.cons_subset.mp hsub
          obtain ⟨hresult, hafter⟩ := parsed_parseFile hf h lookedUp stored hm
          obtain ⟨hresults, hend⟩ := ih hafter hsub
          exact ⟨.cons ⟨hm, hresult⟩ hresults, hend⟩
      | upkeep call bringsNothing =>
          exact ih (Cache.holds_step hf h call bringsNothing) hsub

theorem holds_start {place : σ} (hempty : analyzer.cache.ShowsNothing place) (asks : List Ask) :
    analyzer.cache.Holds (analyzer.Parsed asks) (start place).cache :=
  hempty.holds _

/-- Without collisions the facts under the key of an ask are those of one with the same path and the
same content. -/
theorem Parsed.exists_request_eq {asks : List Ask} {ask : Ask} {facts : Facts}
    (hdigest : analyzer.scope.CollisionFree (asks.map Ask.request)) (hm : ask ∈ asks)
    (h : analyzer.Parsed asks (analyzer.scope.key ask.file.relativePath ask.content) facts) :
    ∃ other ∈ asks, other.request = ask.request ∧
      ∃ hints, facts = (analyzer.orchestrator.parse hints other.job).1.result.facts := by
  obtain ⟨other, ho, hkey, hints, hfacts⟩ := h
  have hrequest : other.request = ask.request :=
    hdigest.eq_of_key_eq (List.mem_map_of_mem ho) (List.mem_map_of_mem hm) hkey
  exact ⟨other, ho, hrequest, hints, hfacts⟩

/-! ## What a result says of its file -/

/-- After any calls a result is for the path and the content that were asked for. Its language is
that of some file with the same path and content, which need not be the one asked for, since the
language is no part of the key. -/
theorem describes_parseFile_after_run {analyzer : Analyzer σ} {place : σ}
    (hf : analyzer.cache.Faithful) (hempty : analyzer.cache.ShowsNothing place)
    (calls : List Call) (ask : Ask) (lookedUp stored : Nat)
    (hdigest : analyzer.scope.CollisionFree ((asked calls ++ [ask]).map Ask.request)) :
    let result := (analyzer.parseFile lookedUp stored ask.file ask.content
      (analyzer.run calls (start place)).2).1.result
    result.file = ask.file.relativePath ∧
      result.contentHash = (Digest.narrow ask.content).toNat ∧
      ∃ other ∈ asked calls ++ [ask], other.request = ask.request ∧
        result.language = other.file.language := by
  have hm : ask ∈ asked calls ++ [ask] := by simp
  have hrun := parsed_run hf (holds_start hempty (asked calls ++ [ask]))
    (List.subset_append_left (asked calls) [ask])
  obtain ⟨hresult, -⟩ := parsed_parseFile hf hrun.2 lookedUp stored hm
  obtain ⟨other, ho, hrequest, hints, hfacts⟩ := hresult.exists_request_eq hdigest hm
  have hdescribes := analyzer.orchestrator.describes_parse hints other.job
  rw [← hfacts] at hdescribes
  obtain ⟨hfile, hcontent⟩ := Prod.mk.inj hrequest
  have hhash : other.job.contentHash = (Digest.narrow ask.content).toNat :=
    congrArg (fun content => (Digest.narrow content).toNat) hcontent
  exact ⟨hdescribes.file_eq.trans hfile, hdescribes.contentHash_eq.trans hhash, other, ho, hrequest,
    hdescribes.language_eq⟩

def cacheFolder : Steps := ["repo", ".polyglot", "cache"]

/-- An analyzer without parsers that keeps its results in a folder. -/
def small : Analyzer Storage where
  root := ⟨"/repo", ["repo"]⟩
  config := .unset
  orchestrator := ⟨.empty, 5000, fun _ => .unlimited, .unlimited⟩
  cache := ⟨some (Storage.inFolder cacheFolder), Cache.defaultMaxAge⟩
  scope := ⟨"/repo", "main", none⟩
  interfaces := .empty
  resolver := .substring

/-- The folder is there, and nothing is in it. -/
def emptied : Storage := Storage.empty.putFolder cacheFolder .empty

def asPython : Ask := ⟨.inMemory "a.py" .python, []⟩

/-- The same path and content, said to be of another language. -/
def asRuby : Ask := ⟨.inMemory "a.py" .ruby, []⟩

theorem faithful_small : small.cache.Faithful := by
  rintro _ ⟨⟩
  exact Store.faithful_inFolder cacheFolder

theorem showsNothing_small : small.cache.ShowsNothing emptied := by
  rintro _ ⟨⟩ key entry hshows
  cases hshows

theorem collisionFree_same : small.scope.CollisionFree ([asPython, asRuby].map Ask.request) := by
  have hsame : ∀ request ∈ [asPython, asRuby].map Ask.request, request = asPython.request := by
    decide
  constructor
  · intro a ha b hb _
    rw [hsame a ha, hsame b hb]
  · intro a ha b hb _
    rw [hsame a ha, hsame b hb]

theorem described_after_other_language :
    let result := (small.parseFile 2 3 asRuby.file asRuby.content
      (small.run [.parse 0 1 asPython] (start emptied)).2).1.result
    result.file = "a.py" ∧ result.contentHash = (Digest.narrow []).toNat ∧
      ∃ other ∈ [asPython, asRuby], other.request = asRuby.request ∧
        result.language = other.file.language :=
  describes_parseFile_after_run faithful_small showsNothing_small [.parse 0 1 asPython] asRuby 2 3
    collisionFree_same

/-- A file that was parsed as Python is found again when it is asked for as Ruby. -/
theorem other_language_found :
    small.cache.isEnabled = true ∧
      small.scope.CollisionFree ([asPython, asRuby].map Ask.request) ∧
      (small.run [.parse 0 1 asPython, .parse 2 3 asRuby] (start emptied)).1.map (·.language) ≠
        [asPython, asRuby].map (·.file.language) :=
  ⟨rfl, collisionFree_same, by decide +kernel⟩

/-! ## Caching changes no facts -/

/-- The facts of an ask that is parsed without cache and hints. -/
def factsOf (analyzer : Analyzer σ) (ask : Ask) : Facts :=
  (analyzer.orchestrator.parse .empty ask.job).1.result.facts

section Transparency

variable {calls : List Call}
  (hpaths : ∀ ask ∈ asked calls,
    ∃ path, SourceFile.ofPath? analyzer.root.path path = some ask.file)
  (hdigest : analyzer.scope.CollisionFree ((asked calls).map Ask.request))
  (hb : ∀ look, analyzer.orchestrator.sketchBudget.expired look = false)
include hpaths hdigest hb

theorem Parsed.eq_factsOf {ask : Ask} {facts : Facts} (hm : ask ∈ asked calls)
    (h : analyzer.Parsed (asked calls)
      (analyzer.scope.key ask.file.relativePath ask.content) facts) :
    facts = analyzer.factsOf ask := by
  obtain ⟨other, ho, hrequest, hints, rfl⟩ := h.exists_request_eq hdigest hm
  obtain ⟨hpath, hcontent⟩ := Prod.mk.inj hrequest
  obtain ⟨path, hask⟩ := hpaths ask hm
  obtain ⟨path', hother⟩ := hpaths other ho
  have hlanguage := SourceFile.language_eq_of_relativePath_eq hother hask hpath
  have hjob : other.job = ask.job := by
    simp only [Ask.job, hpath, hcontent, hlanguage]
  rw [Orchestrator.facts_parse_hints hb hints other.job, hjob, factsOf]

theorem map_facts_run {place : σ} (hf : analyzer.cache.Faithful)
    (hempty : analyzer.cache.ShowsNothing place) :
    (analyzer.run calls (start place)).1.map ParseResult.facts =
      (asked calls).map analyzer.factsOf := by
  obtain ⟨hresults, -⟩ := parsed_run hf (holds_start hempty (asked calls)) (List.Subset.refl _)
  have hequal : List.Forall₂ (· = ·) ((asked calls).map analyzer.factsOf)
      ((analyzer.run calls (start place)).1.map ParseResult.facts) := by
    rw [List.forall₂_map_left_iff, List.forall₂_map_right_iff]
    exact hresults.imp fun ask result h => (h.2.eq_factsOf hpaths hdigest hb h.1).symm
  rw [List.forall₂_eq_eq_eq] at hequal
  exact hequal.symm

end Transparency

/-- With a cache every parse has the facts that it has without one, whatever is asked for, removed or
expired in between, if the files are taken from below the root of the project, no digests collide
and no sketch runs out of time. -/
theorem facts_run_eq_uncached {analyzer : Analyzer σ} {place : σ} (hf : analyzer.cache.Faithful)
    (hempty : analyzer.cache.ShowsNothing place) (calls : List Call)
    (hpaths : ∀ ask ∈ asked calls,
      ∃ path, SourceFile.ofPath? analyzer.root.path path = some ask.file)
    (hdigest : analyzer.scope.CollisionFree ((asked calls).map Ask.request))
    (hb : ∀ look, analyzer.orchestrator.sketchBudget.expired look = false) :
    (analyzer.run calls (start place)).1.map ParseResult.facts =
      (analyzer.uncached.run calls (start place)).1.map ParseResult.facts := by
  have hcached := map_facts_run hpaths hdigest hb hf hempty
  -- A disabled cache has no store, so it is faithful and shows nothing.
  have huncached : (analyzer.uncached.run calls (start place)).1.map ParseResult.facts =
      (asked calls).map analyzer.uncached.factsOf := by
    apply map_facts_run
    · exact hpaths
    · exact hdigest
    · exact hb
    · rintro _ ⟨⟩
    · rintro _ ⟨⟩
  exact hcached.trans huncached.symm

def tended : List Call :=
  [.parse 0 1 ⟨⟨"/repo/a.py", "a.py", .python, "py"⟩, []⟩,
    .upkeep ⟨2, .invalidateFile "a.py" "/repo"⟩ fun _ => id,
    .parse 3 4 ⟨⟨"/repo/b.rb", "b.rb", .ruby, "rb"⟩, []⟩,
    .upkeep ⟨5, .enforceCapacity 1⟩ fun _ => id,
    .parse 6 7 ⟨⟨"/repo/a.py", "a.py", .python, "py"⟩, []⟩,
    .parse 8 9 ⟨⟨"/repo/a.py", "a.py", .python, "py"⟩, []⟩]

theorem facts_run_tended :
    (small.run tended (start emptied)).1.map ParseResult.facts =
      (small.uncached.run tended (start emptied)).1.map ParseResult.facts := by
  apply facts_run_eq_uncached faithful_small showsNothing_small
  · intro ask hm
    refine ⟨ask.file.path, ?_⟩
    revert ask
    decide +kernel
  · constructor
    · decide +kernel
    · decide +kernel
  · intro look
    rfl

end Analyzer

end CodeAtlas
