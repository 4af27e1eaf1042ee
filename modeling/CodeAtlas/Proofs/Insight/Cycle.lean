import CodeAtlas.Insight.Detect
import CodeAtlas.Proofs.Graph.Build
import CodeAtlas.Proofs.Graph.Component
import Mathlib

/-! The cycles that are reported are the components with files of several languages. -/

namespace CodeAtlas.Insight

open CodeAtlas.Graph

/-- The reports name the components with several languages, each once and in order: files of
different languages that can reach each other stand in exactly one report, and no report is about
one language. -/
structure ReportsCycles (graph : DependencyGraph) (reports : List AntiPattern) : Prop where
  in_order : (reports.map (·.pattern.nodes)).Pairwise (· < ·)
  nodes_iff : ∀ ids, ids ∈ reports.map (·.pattern.nodes) ↔
    ids.Pairwise (· < ·) ∧ graph.IsComponent {id | id ∈ ids} ∧ graph.Mixed ids
  together : ∀ a ∈ graph.nodes, ∀ b ∈ graph.nodes, a.language ≠ b.language →
    graph.Linked a.id b.id →
      ∃! report, report ∈ reports ∧ a.id ∈ report.pattern.nodes ∧ b.id ∈ report.pattern.nodes
  several : ∀ report ∈ reports, ∀ language,
    ¬ ∀ node ∈ graph.nodes, node.id ∈ report.pattern.nodes → node.language = language

section Reports

variable {graph : DependencyGraph} {components : List (List String)}

theorem mem_antiPatternsAmong_iff (h : graph.Consistent) (hc : graph.AreComponents components)
    {report : AntiPattern} :
    report ∈ antiPatternsAmong graph components ↔
      ∃ ids ∈ components, graph.Mixed ids ∧ cyclePattern graph ids = report := by
  simp only [antiPatternsAmong, mem_sortedBy, List.mem_map, h.mem_mixedCycles_iff hc, and_assoc]

@[simp] theorem mem_cyclePattern_nodes {ids : List String} {id : String} :
    id ∈ (cyclePattern graph ids).pattern.nodes ↔ id ∈ ids :=
  mem_sortedBy _ ids

theorem pairwise_cyclePattern_nodes (graph : DependencyGraph) {ids : List String} (hn : ids.Nodup) :
    (cyclePattern graph ids).pattern.nodes.Pairwise (· < ·) :=
  pairwise_lt_sortedBy id ids (by simpa using hn)

/-- The order of the files makes no difference to a report. -/
theorem cyclePattern_congr {ids others : List String} (hn : ids.Nodup) (ho : others.Nodup)
    (h : ∀ id, id ∈ ids ↔ id ∈ others) : cyclePattern graph ids = cyclePattern graph others := by
  have hnodes : sortedBy id ids = sortedBy id others := by
    refine eq_of_pairwise_lt id (pairwise_cyclePattern_nodes graph hn)
      (pairwise_cyclePattern_nodes graph ho) ?_
    simpa using h
  have hlanguages : sortedTexts (ids.filterMap fun id => (graph.node? id).map (·.language.name)) =
      sortedTexts (others.filterMap fun id => (graph.node? id).map (·.language.name)) := by
    refine sortedTexts_congr ?_
    intro text
    simp only [List.mem_filterMap, h]
  simp only [cyclePattern, hnodes, hlanguages]

theorem nodup_nodes (h : graph.Consistent) (hc : graph.AreComponents components) :
    (((graph.mixedCycles components).map (cyclePattern graph)).map (·.pattern.nodes)).Nodup := by
  rw [List.map_map, List.Nodup, List.pairwise_map]
  refine (hc.disjoint.filter _).imp_of_mem ?_
  intro ids others hi _ hdisjoint heq
  have hnodes : (cyclePattern graph ids).pattern.nodes =
      (cyclePattern graph others).pattern.nodes := heq
  obtain ⟨-, a, -, -, -, ha, -⟩ := (h.mem_mixedCycles_iff hc).mp hi
  have hother : a.id ∈ (cyclePattern graph others).pattern.nodes := by
    rw [← hnodes]
    exact mem_cyclePattern_nodes.mpr ha
  exact hdisjoint ha (mem_cyclePattern_nodes.mp hother)

theorem pairwise_antiPatternsAmong (h : graph.Consistent) (hc : graph.AreComponents components) :
    (antiPatternsAmong graph components).Pairwise fun a b => a.pattern.nodes < b.pattern.nodes :=
  pairwise_lt_sortedBy _ _ (nodup_nodes h hc)

/-- The order in which the components are found makes no difference to the reports. -/
theorem antiPatternsAmong_congr (h : graph.Consistent) (hc : graph.AreComponents components)
    {others : List (List String)} (ho : graph.AreComponents others) :
    antiPatternsAmong graph components = antiPatternsAmong graph others := by
  have hsubset : ∀ {found sought : List (List String)}, graph.AreComponents found →
      graph.AreComponents sought → ∀ report, report ∈ antiPatternsAmong graph found →
        report ∈ antiPatternsAmong graph sought := by
    intro found sought hf hs report hm
    obtain ⟨ids, hids, hmixed, rfl⟩ := (mem_antiPatternsAmong_iff h hf).mp hm
    obtain ⟨a, -, b, hb, ha, hbid, hne⟩ := id hmixed
    have hcomponent := hf.maximal ids hids
    obtain ⟨same, hsame, hasame⟩ := hs.covers a.id (hcomponent.mem_ids ha)
    have heq := hcomponent.eq_of_mem (hs.maximal same hsame) ha hasame
    have hmem : ∀ id, id ∈ ids ↔ id ∈ same := fun id => Set.ext_iff.mp heq id
    refine (mem_antiPatternsAmong_iff h hs).mpr ⟨same, hsame, ?_, ?_⟩
    · exact hmixed.congr hmem
    · exact (cyclePattern_congr (hf.nodup ids hids) (hs.nodup same hsame) hmem).symm
  refine eq_of_pairwise_lt _ (pairwise_antiPatternsAmong h hc) (pairwise_antiPatternsAmong h ho) ?_
  intro report
  exact ⟨hsubset hc ho report, hsubset ho hc report⟩

/-- Of every way to list the components the reports name those with several languages. -/
theorem reportsCycles_antiPatternsAmong (h : graph.Consistent)
    (hc : graph.AreComponents components) :
    ReportsCycles graph (antiPatternsAmong graph components) where
  in_order := List.pairwise_map.mpr (pairwise_antiPatternsAmong h hc)
  nodes_iff := by
    intro ids
    constructor
    · intro hm
      obtain ⟨report, hreport, rfl⟩ := List.mem_map.mp hm
      obtain ⟨found, hfound, hmixed, rfl⟩ := (mem_antiPatternsAmong_iff h hc).mp hreport
      have hmem : ∀ id, id ∈ found ↔ id ∈ (cyclePattern graph found).pattern.nodes :=
        fun id => mem_cyclePattern_nodes.symm
      refine ⟨pairwise_cyclePattern_nodes graph (hc.nodup found hfound), ?_, hmixed.congr hmem⟩
      simpa using hc.maximal found hfound
    · rintro ⟨hsorted, hcomponent, hmixed⟩
      obtain ⟨a, ham, b, hbm, ha, hb, hne⟩ := id hmixed
      obtain ⟨found, hfound, hafound⟩ := hc.covers a.id (List.mem_map_of_mem ham)
      have heq := hcomponent.eq_of_mem (hc.maximal found hfound) ha hafound
      have hmem : ∀ id, id ∈ ids ↔ id ∈ found := fun id => Set.ext_iff.mp heq id
      refine List.mem_map.mpr ⟨cyclePattern graph found, ?_, ?_⟩
      · exact (mem_antiPatternsAmong_iff h hc).mpr ⟨found, hfound, hmixed.congr hmem, rfl⟩
      · refine eq_of_pairwise_lt id (pairwise_cyclePattern_nodes graph (hc.nodup found hfound))
          hsorted ?_
        intro id
        rw [mem_cyclePattern_nodes, hmem]
  together := by
    intro a ham b hbm hne hlinked
    obtain ⟨found, hfound, ha⟩ := hc.covers a.id (List.mem_map_of_mem ham)
    have hb : b.id ∈ found :=
      (hc.maximal found hfound).mem_of_linked ha (List.mem_map_of_mem hbm) hlinked
    refine ⟨cyclePattern graph found, ⟨?_, ?_, ?_⟩, ?_⟩
    · exact (mem_antiPatternsAmong_iff h hc).mpr
        ⟨found, hfound, ⟨a, ham, b, hbm, ha, hb, hne⟩, rfl⟩
    · exact mem_cyclePattern_nodes.mpr ha
    · exact mem_cyclePattern_nodes.mpr hb
    · rintro report ⟨hreport, hareport, -⟩
      obtain ⟨other, hother, -, rfl⟩ := (mem_antiPatternsAmong_iff h hc).mp hreport
      rw [hc.eq_of_mem hother hfound (mem_cyclePattern_nodes.mp hareport) ha]
  several := by
    intro report hreport language hsame
    obtain ⟨found, hfound, hmixed, rfl⟩ := (mem_antiPatternsAmong_iff h hc).mp hreport
    obtain ⟨a, ham, b, hbm, ha, hb, hne⟩ := hmixed
    refine hne ?_
    rw [hsame a ham (mem_cyclePattern_nodes.mpr ha), hsame b hbm (mem_cyclePattern_nodes.mpr hb)]

end Reports

/-- Of every graph that is built the components with several languages are reported, in whatever
order the components are found. -/
theorem reportsCycles_build (resolver : Resolver) (files : List ParsedFile)
    (descriptors : List InterfaceDescriptor) {components : List (List String)}
    (hc : (build resolver files descriptors).AreComponents components) :
    ReportsCycles (build resolver files descriptors)
        (antiPatternsAmong (build resolver files descriptors) components) ∧
      antiPatternsAmong (build resolver files descriptors) components =
        antiPatterns (build resolver files descriptors) := by
  have h := consistent_build resolver files descriptors
  exact ⟨reportsCycles_antiPatternsAmong h hc,
    antiPatternsAmong_congr h hc h.areComponents_components⟩

/-- A file that imports another one. -/
def importing (path : String) (language : Language) (source : String) : ParsedFile :=
  (⟨path, path, language, ""⟩,
    .ofPrimary path language 0 ⟨[], [], [⟨source, .whole, [], 1⟩], 1, none⟩)

/-- A file of one language and one of another that import each other. -/
def importingEachOther : List ParsedFile :=
  [importing "b.js" .javaScript "a.py", importing "a.py" .python "b.js"]

/-- Two files that import each other are the only component of their graph, and it is reported. -/
theorem two_files_reported :
    (build .exact importingEachOther []).AreComponents [["a.py", "b.js"]] ∧
      ["a.py", "b.js"] ∈ (antiPatternsAmong (build .exact importingEachOther [])
        [["a.py", "b.js"]]).map (·.pattern.nodes) := by
  have hgraph := consistent_build .exact importingEachOther []
  have hfound := hgraph.areComponents_components
  have hcomponents : (build .exact importingEachOther []).components = [["a.py", "b.js"]] := by
    cbv
  rw [hcomponents] at hfound
  have hcomponent := hfound.maximal ["a.py", "b.js"] List.mem_cons_self
  have hcrosses : (build .exact importingEachOther []).crossesLanguages ["a.py", "b.js"] = true := by
    cbv
  have hspec := (reportsCycles_build .exact importingEachOther [] hfound).1
  exact ⟨hfound, (hspec.nodes_iff ["a.py", "b.js"]).mpr
    ⟨by decide, hcomponent, (hgraph.crossesLanguages_iff hcomponent).mp hcrosses⟩⟩

end CodeAtlas.Insight
