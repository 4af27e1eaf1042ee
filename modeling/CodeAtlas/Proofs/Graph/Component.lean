import CodeAtlas.Proofs.Graph.Consistent
import CodeAtlas.Proofs.Graph.Reach
import Mathlib.Order.Minimal

/-! The components of a graph are its largest sets of files that can all reach each other, and a
component with files of two languages holds an edge between languages. -/

namespace CodeAtlas.DependencyGraph

open CodeAtlas.Graph (reach groups)

/-- An edge leads from one file to another. -/
def Leads (graph : DependencyGraph) (a b : String) : Prop :=
  ∃ e ∈ graph.edges, e.source = a ∧ e.target = b

/-- One file can be reached from another along edges. -/
def Reaches (graph : DependencyGraph) : String → String → Prop :=
  Relation.ReflTransGen graph.Leads

/-- Two files can reach each other. -/
def Linked (graph : DependencyGraph) (a b : String) : Prop :=
  graph.Reaches a b ∧ graph.Reaches b a

/-- Files of the graph that can all reach each other, and that no other files could join. -/
def IsComponent (graph : DependencyGraph) : Set String → Prop :=
  Maximal fun files => (∀ id ∈ files, id ∈ graph.ids) ∧
    ∀ a ∈ files, ∀ b ∈ files, graph.Reaches a b

/-- Some of the files are written in different languages. -/
def Mixed (graph : DependencyGraph) (ids : List String) : Prop :=
  ∃ a ∈ graph.nodes, ∃ b ∈ graph.nodes, a.id ∈ ids ∧ b.id ∈ ids ∧ a.language ≠ b.language

/-- The sets are the components of the graph, each once, in any order. -/
structure AreComponents (graph : DependencyGraph) (components : List (List String)) : Prop where
  nodup : ∀ ids ∈ components, ids.Nodup
  disjoint : components.Pairwise List.Disjoint
  maximal : ∀ ids ∈ components, graph.IsComponent {id | id ∈ ids}
  covers : ∀ id ∈ graph.ids, ∃ ids ∈ components, id ∈ ids

/-! ## Files that reach each other -/

section Linked

variable {graph : DependencyGraph} {a b c : String}

theorem Linked.refl (a : String) : graph.Linked a a :=
  ⟨.refl, .refl⟩

theorem Linked.symm (h : graph.Linked a b) : graph.Linked b a :=
  ⟨h.2, h.1⟩

theorem Linked.trans (hab : graph.Linked a b) (hbc : graph.Linked b c) : graph.Linked a c :=
  ⟨hab.1.trans hbc.1, hbc.2.trans hab.2⟩

/-- A component is made of the files that are linked to any one of its files. -/
theorem isComponent_iff {files : Set String} (ha : a ∈ files) :
    graph.IsComponent files ↔
      a ∈ graph.ids ∧ ∀ id, id ∈ files ↔ id ∈ graph.ids ∧ graph.Linked a id := by
  constructor
  · rintro ⟨⟨hids, hreach⟩, hmax⟩
    refine ⟨hids a ha, ?_⟩
    intro id
    refine ⟨fun hid => ⟨hids id hid, hreach a ha id hid, hreach id hid a ha⟩, ?_⟩
    rintro ⟨hid, hlinked⟩
    have hcentre : ∀ other ∈ insert id files, other ∈ graph.ids ∧ graph.Linked a other := by
      intro other ho
      rcases Set.mem_insert_iff.mp ho with rfl | ho
      · exact ⟨hid, hlinked⟩
      · exact ⟨hids other ho, hreach a ha other ho, hreach other ho a ha⟩
    have hlarger := hmax ⟨fun other ho => (hcentre other ho).1, fun x hx y hy =>
      (hcentre x hx).2.2.trans (hcentre y hy).2.1⟩ (Set.subset_insert id files)
    exact hlarger (Set.mem_insert id files)
  · rintro ⟨-, hmem⟩
    refine ⟨⟨fun id hid => ((hmem id).mp hid).1, ?_⟩, ?_⟩
    · intro x hx y hy
      exact ((hmem x).mp hx).2.2.trans ((hmem y).mp hy).2.1
    · rintro larger ⟨hids, hreach⟩ hle id hid
      exact (hmem id).mpr ⟨hids id hid, hreach a (hle ha) id hid, hreach id hid a (hle ha)⟩

theorem IsComponent.mem_ids {files : Set String} (h : graph.IsComponent files) (ha : a ∈ files) :
    a ∈ graph.ids :=
  ((isComponent_iff ha).mp h).1

theorem IsComponent.linked {files : Set String} (h : graph.IsComponent files) (ha : a ∈ files)
    (hb : b ∈ files) : graph.Linked a b :=
  ((((isComponent_iff ha).mp h).2 b).mp hb).2

theorem IsComponent.mem_of_linked {files : Set String} (h : graph.IsComponent files)
    (ha : a ∈ files) (hb : b ∈ graph.ids) (hab : graph.Linked a b) : b ∈ files :=
  (((isComponent_iff ha).mp h).2 b).mpr ⟨hb, hab⟩

/-- Components with a file in common are equal. -/
theorem IsComponent.eq_of_mem {files others : Set String} (hf : graph.IsComponent files)
    (ho : graph.IsComponent others) (haf : a ∈ files) (hao : a ∈ others) : files = others := by
  ext id
  rw [((isComponent_iff haf).mp hf).2, ((isComponent_iff hao).mp ho).2]

theorem Mixed.congr {ids others : List String} (hm : graph.Mixed ids)
    (h : ∀ id, id ∈ ids ↔ id ∈ others) : graph.Mixed others := by
  obtain ⟨x, hx, y, hy, hxid, hyid, hne⟩ := hm
  exact ⟨x, hx, y, hy, (h x.id).mp hxid, (h y.id).mp hyid, hne⟩

theorem AreComponents.eq_of_mem {components : List (List String)}
    (hc : graph.AreComponents components) {ids others : List String} (hi : ids ∈ components)
    (ho : others ∈ components) (hai : a ∈ ids) (hao : a ∈ others) : ids = others := by
  have hsymm : Std.Symm (@List.Disjoint String) := ⟨fun _ _ hd => hd.symm⟩
  by_contra hne
  exact hc.disjoint.forall hi ho hne hai hao

end Linked
/-! ## Finding the components -/

namespace Consistent

variable {graph : DependencyGraph} {a b : String}

theorem mem_ids_of_ends (h : graph.Consistent) {e : Edge} (hm : e ∈ graph.edges) :
    e.source ∈ graph.ids ∧ e.target ∈ graph.ids := by
  obtain ⟨source, target, hs, ht, -⟩ := h.ends_of_mem_edges hm
  obtain ⟨hsource, hsid⟩ := h.node?_iff.mp hs
  obtain ⟨htarget, htid⟩ := h.node?_iff.mp ht
  exact ⟨List.mem_map.mpr ⟨source, hsource, hsid⟩, List.mem_map.mpr ⟨target, htarget, htid⟩⟩

theorem mem_ids_of_leads (h : graph.Consistent) (hl : graph.Leads a b) :
    a ∈ graph.ids ∧ b ∈ graph.ids := by
  obtain ⟨e, he, rfl, rfl⟩ := hl
  exact h.mem_ids_of_ends he

theorem mem_reachable_iff (h : graph.Consistent) (ha : a ∈ graph.ids) :
    b ∈ graph.reachable a ↔ graph.Reaches a b := by
  refine Graph.mem_reach_iff ?_ (fun x y hl => (h.mem_ids_of_leads hl).2) ha
  intro x y
  simp only [List.mem_map, h.mem_outgoing, Leads, and_assoc]

theorem mem_reaching_iff (h : graph.Consistent) (ha : a ∈ graph.ids) :
    b ∈ graph.reaching a ↔ graph.Reaches b a := by
  refine (Graph.mem_reach_iff ?_ (fun x y hl => (h.mem_ids_of_leads hl).1) ha).trans
    Relation.reflTransGen_swap
  intro x y
  simp only [List.mem_map, h.mem_incoming, Leads, and_assoc, and_comm]

theorem mem_componentOf_iff (h : graph.Consistent) (ha : a ∈ graph.ids) :
    b ∈ graph.componentOf a ↔ b ∈ graph.ids ∧ graph.Linked a b := by
  have hids : b ∈ graph.reachable a → b ∈ graph.ids := Graph.subset_of_mem_reach
  rw [h.mem_reachable_iff ha] at hids
  rw [componentOf, List.mem_filter, List.elem_iff, h.mem_reachable_iff ha,
    h.mem_reaching_iff ha]
  exact ⟨fun hlinked => ⟨hids hlinked.1, hlinked⟩, fun hm => hm.2⟩

theorem isComponent_componentOf (h : graph.Consistent) (ha : a ∈ graph.ids) :
    graph.IsComponent {id | id ∈ graph.componentOf a} := by
  have hself : a ∈ graph.componentOf a := (h.mem_componentOf_iff ha).mpr ⟨ha, .refl a⟩
  exact (isComponent_iff hself).mpr ⟨ha, fun id => h.mem_componentOf_iff ha⟩

/-- The sets that are found are the components. -/
theorem areComponents_components (h : graph.Consistent) :
    graph.AreComponents graph.components := by
  have hself : ∀ id ∈ graph.ids, id ∈ graph.componentOf id :=
    fun id hid => (h.mem_componentOf_iff hid).mpr ⟨hid, .refl id⟩
  refine ⟨?_, ?_, ?_, ?_⟩
  · intro ids hm
    obtain ⟨id, -, rfl⟩ := Graph.exists_of_mem_groups hm
    exact (Graph.nodup_reach h.nodup_ids).filter _
  · refine Graph.disjoint_groups hself ?_
    intro x hx y hy id hxid hyid
    have hlx := ((h.mem_componentOf_iff hx).mp hxid).2
    have hly := ((h.mem_componentOf_iff hy).mp hyid).2
    exact (h.mem_componentOf_iff hx).mpr ⟨hy, hlx.trans hly.symm⟩
  · intro ids hm
    obtain ⟨id, hid, rfl⟩ := Graph.exists_of_mem_groups hm
    exact h.isComponent_componentOf hid
  · intro id hid
    exact Graph.exists_group_of_mem hself hid

/-! ## Edges between languages -/

theorem node?_of_mem (h : graph.Consistent) {node : Node} (hm : node ∈ graph.nodes) :
    graph.node? node.id = some node :=
  h.node?_iff.mpr ⟨hm, rfl⟩

/-- Between two files of different languages that can reach each other there is an edge between
languages that leads from one file to another of those that are linked to them. -/
theorem exists_crossing (h : graph.Consistent) {x y : Node} (hx : graph.node? a = some x)
    (hy : graph.node? b = some y) (hab : graph.Linked a b) (hne : x.language ≠ y.language) :
    ∃ e ∈ graph.edges, e.crossLanguage ∧ graph.Linked a e.source ∧ graph.Linked a e.target := by
  obtain ⟨hto, hback⟩ := hab
  induction hto generalizing y with
  | refl =>
      rw [hx] at hy
      exact absurd (congrArg Node.language (Option.some.inj hy)) hne
  | @tail c d hac hcd ih =>
      obtain ⟨e, he, rfl, rfl⟩ := hcd
      -- The way back leads through the edge, so its source is linked to the start as well.
      have hsource : graph.Linked a e.source := ⟨hac, .head ⟨e, he, rfl, rfl⟩ hback⟩
      have htarget : graph.Linked a e.target := ⟨hac.tail ⟨e, he, rfl, rfl⟩, hback⟩
      obtain ⟨source, target, hs, ht, hcross⟩ := h.ends_of_mem_edges he
      rw [ht] at hy
      obtain rfl := Option.some.inj hy
      by_cases hsame : x.language = source.language
      · refine ⟨e, he, ?_, hsource, htarget⟩
        rw [hcross, bne_iff_ne, ← hsame]
        exact hne
      · exact ih hs hsame hsource.2

/-- A component holds an edge between languages exactly if its languages differ. -/
theorem crossesLanguages_iff (h : graph.Consistent) {ids : List String}
    (hc : graph.IsComponent {id | id ∈ ids}) :
    graph.crossesLanguages ids ↔ graph.Mixed ids := by
  simp only [crossesLanguages, List.any_eq_true, Bool.and_eq_true, List.elem_iff]
  constructor
  · rintro ⟨id, hid, e, he, htarget, hcross⟩
    obtain ⟨hedge, rfl⟩ := h.mem_outgoing.mp he
    obtain ⟨x, y, hx, hy, hxy⟩ := h.ends_of_mem_edges hedge
    obtain ⟨hxm, hxid⟩ := h.node?_iff.mp hx
    obtain ⟨hym, hyid⟩ := h.node?_iff.mp hy
    refine ⟨x, hxm, y, hym, hxid ▸ hid, hyid ▸ htarget, ?_⟩
    rw [hxy, bne_iff_ne] at hcross
    exact hcross
  · rintro ⟨x, hxm, y, hym, hxid, hyid, hne⟩
    have hlinked : graph.Linked x.id y.id := hc.linked hxid hyid
    obtain ⟨e, he, hcross, hsource, htarget⟩ :=
      h.exists_crossing (h.node?_of_mem hxm) (h.node?_of_mem hym) hlinked hne
    obtain ⟨hsids, htids⟩ := h.mem_ids_of_ends he
    exact ⟨e.source, hc.mem_of_linked hxid hsids hsource, e, h.mem_outgoing.mpr ⟨he, rfl⟩,
      hc.mem_of_linked hxid htids htarget, hcross⟩

/-- Files of different languages are different files. -/
theorem one_lt_length_of_mixed (h : graph.Consistent) {ids : List String}
    (hm : graph.Mixed ids) : 1 < ids.length := by
  obtain ⟨x, hxm, y, hym, hxid, hyid, hne⟩ := hm
  have hid : x.id ≠ y.id := by
    intro hid
    have hx := h.node?_of_mem hxm
    rw [hid, h.node?_of_mem hym] at hx
    exact hne (congrArg Node.language (Option.some.inj hx)).symm
  cases ids with
  | nil => cases hxid
  | cons first rest =>
      cases rest with
      | nil =>
          have hx := List.mem_singleton.mp hxid
          have hy := List.mem_singleton.mp hyid
          exact absurd (hx.trans hy.symm) hid
      | cons second rest => simp

theorem mem_mixedCycles_iff (h : graph.Consistent) {components : List (List String)}
    (hc : graph.AreComponents components) {ids : List String} :
    ids ∈ graph.mixedCycles components ↔ ids ∈ components ∧ graph.Mixed ids := by
  simp only [mixedCycles, List.mem_filter, Bool.and_eq_true, decide_eq_true_eq]
  constructor
  · rintro ⟨hm, -, hcross⟩
    exact ⟨hm, (h.crossesLanguages_iff (hc.maximal ids hm)).mp hcross⟩
  · rintro ⟨hm, hmixed⟩
    exact ⟨hm, h.one_lt_length_of_mixed hmixed,
      (h.crossesLanguages_iff (hc.maximal ids hm)).mpr hmixed⟩

end Consistent

end CodeAtlas.DependencyGraph
