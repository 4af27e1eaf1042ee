import CodeAtlas.Graph.Basic
import CodeAtlas.Proofs.Keyed
import Mathlib.Data.List.Induction
import Mathlib.Data.String.Basic
import Mathlib.Data.Sym.Sym2

/-! Consistent dependency graphs: the nodes are found by their ids, the edges agree with the nodes
that they join, and no edge is there twice. -/

namespace CodeAtlas

/-- A link joins two different nodes, and its edge says of them what holds. -/
def Link.Joins (nodes : List Node) (link : Link) : Prop :=
  ∃ source target, nodes[link.source]? = some source ∧ nodes[link.target]? = some target ∧
    source.id ≠ target.id ∧ link.edge.source = source.id ∧ link.edge.target = target.id ∧
    link.edge.crossLanguage = (source.language != target.language) ∧
    (link.edge.interfaceType.isSome ↔ link.edge.type = .interface)

namespace Link

theorem joins_ofImport {nodes : List Node} {source target : Placed}
    (hs : nodes[source.2]? = some source.1) (ht : nodes[target.2]? = some target.1)
    (hne : source.1.id ≠ target.1.id) : (ofImport source target).Joins nodes :=
  ⟨source.1, target.1, hs, ht, hne, rfl, rfl, rfl, by simp [ofImport, Edge.ofImport]⟩

theorem joins_ofInterface {nodes : List Node} {source target : Placed} (type : InterfaceType)
    (hs : nodes[source.2]? = some source.1) (ht : nodes[target.2]? = some target.1)
    (hne : source.1.id ≠ target.1.id) : (ofInterface source target type).Joins nodes :=
  ⟨source.1, target.1, hs, ht, hne, rfl, rfl, rfl, by simp [ofInterface, Edge.ofInterface]⟩

end Link

namespace DependencyGraph

/-- The nodes stand in the order of their ids and are found by them, each edge joins two different
nodes and agrees with them, two nodes are joined by at most one import in each direction and by at
most one edge for each family of interfaces, and the edges between languages are kept in order. -/
structure Consistent (graph : DependencyGraph) : Prop where
  ids_sorted : graph.ids.Pairwise (· < ·)
  position_iff : ∀ id position, graph.positions.get? id = some position ↔
    ∃ node, graph.nodes[position]? = some node ∧ node.id = id
  joins : ∀ link ∈ graph.links, link.Joins graph.nodes
  imports_once : graph.links.Pairwise fun a b => a.edge.type = .imports →
    b.edge.type = .imports → (a.source, a.target) ≠ (b.source, b.target)
  interfaces_once : graph.links.Pairwise fun a b => a.edge.type = .interface →
    b.edge.type = .interface → a.edge.interfaceType = b.edge.interfaceType →
      s(a.source, a.target) ≠ s(b.source, b.target)
  crossLanguageEdges_eq : graph.crossLanguageEdges = graph.edges.filter (·.crossLanguage)

/-! ## Growing graphs -/

@[simp] theorem addNode_nodes (graph : DependencyGraph) (node : Node) :
    (graph.addNode node).nodes = graph.nodes ++ [node] := rfl

@[simp] theorem addLink_links (graph : DependencyGraph) (link : Link) :
    (graph.addLink link).links = graph.links ++ [link] := rfl

/-- Adding nodes changes nothing but the nodes and the positions where they are found. -/
theorem foldl_addNode_eq (nodes : List Node) :
    nodes.foldl addNode empty =
      ⟨nodes, (nodes.foldl addNode empty).positions, [], [], []⟩ := by
  induction nodes using List.reverseRecOn with
  | nil => rfl
  | append_singleton nodes node ih =>
      rw [List.foldl_append, List.foldl_cons, List.foldl_nil, ih]
      rfl

theorem foldl_addNode_nodes (nodes : List Node) : (nodes.foldl addNode empty).nodes = nodes :=
  congrArg DependencyGraph.nodes (foldl_addNode_eq nodes)

theorem foldl_addNode_links (nodes : List Node) : (nodes.foldl addNode empty).links = [] :=
  congrArg DependencyGraph.links (foldl_addNode_eq nodes)

theorem foldl_addNode_crossLanguageEdges (nodes : List Node) :
    (nodes.foldl addNode empty).crossLanguageEdges = [] :=
  congrArg DependencyGraph.crossLanguageEdges (foldl_addNode_eq nodes)

theorem foldl_addNode_ambiguousImports (nodes : List Node) :
    (nodes.foldl addNode empty).ambiguousImports = [] :=
  congrArg DependencyGraph.ambiguousImports (foldl_addNode_eq nodes)

private theorem getElem?_concat_iff {nodes : List Node} {node other : Node} {position : Nat} :
    (nodes ++ [node])[position]? = some other ↔
      nodes[position]? = some other ∨ position = nodes.length ∧ node = other := by
  rw [List.getElem?_append]
  by_cases h : position < nodes.length
  · rw [if_pos h]
    exact ⟨.inl, fun hor => hor.elim id fun hlast => absurd hlast.1 (by omega)⟩
  · rw [if_neg h, List.getElem?_singleton, List.getElem?_eq_none (by omega)]
    by_cases hz : position - nodes.length = 0
    · have hlast : position = nodes.length := by omega
      simp [hlast]
    · have hlast : position ≠ nodes.length := by omega
      simp [hz, hlast]

/-- Nodes that are added one by one are found by their ids. -/
theorem position_foldl_addNode {nodes : List Node} (hn : (nodes.map (·.id)).Nodup) (id : String)
    (position : Nat) :
    (nodes.foldl addNode empty).positions.get? id = some position ↔
      ∃ node, nodes[position]? = some node ∧ node.id = id := by
  induction nodes using List.reverseRecOn with
  | nil => simp [empty]
  | append_singleton nodes node ih =>
      rw [List.map_append] at hn
      obtain ⟨hfront, -, hlast⟩ := List.nodup_append.mp hn
      have hput : ((nodes ++ [node]).foldl addNode empty).positions =
          (nodes.foldl addNode empty).positions.put node.id nodes.length := by
        rw [List.foldl_append, List.foldl_cons, List.foldl_nil, addNode, foldl_addNode_nodes]
      have hnew : ∀ other ∈ nodes, other.id ≠ node.id := by
        intro other hm
        exact hlast _ (List.mem_map_of_mem hm) _ (by simp)
      rw [hput, Keyed.get?_put]
      by_cases hid : id = node.id
      · rw [if_pos hid, Option.some.injEq]
        constructor
        · rintro rfl
          exact ⟨node, getElem?_concat_iff.mpr (.inr ⟨rfl, rfl⟩), hid.symm⟩
        · rintro ⟨other, hg, ho⟩
          rcases getElem?_concat_iff.mp hg with h | ⟨h, -⟩
          · exact absurd (ho.trans hid) (hnew other (List.mem_of_getElem? h))
          · exact h.symm
      · rw [if_neg hid, ih hfront]
        constructor
        · rintro ⟨other, hg, ho⟩
          exact ⟨other, getElem?_concat_iff.mpr (.inl hg), ho⟩
        · rintro ⟨other, hg, ho⟩
          rcases getElem?_concat_iff.mp hg with h | ⟨-, rfl⟩
          · exact ⟨other, h, ho⟩
          · exact absurd ho.symm hid

/-- Nodes without edges are consistent if their ids are in order. -/
theorem consistent_foldl_addNode {nodes : List Node}
    (h : (nodes.map (·.id)).Pairwise (· < ·)) : (nodes.foldl addNode empty).Consistent := by
  refine ⟨?_, ?_, ?_, ?_, ?_, ?_⟩
  · rw [ids, foldl_addNode_nodes]
    exact h
  · intro id position
    rw [foldl_addNode_nodes]
    exact position_foldl_addNode (h.imp ne_of_lt) id position
  · simp [foldl_addNode_links]
  · simp [foldl_addNode_links]
  · simp [foldl_addNode_links]
  · simp [edges, foldl_addNode_links, foldl_addNode_crossLanguageEdges]

namespace Consistent

variable {graph : DependencyGraph}

theorem noteAmbiguous (h : graph.Consistent) (ambiguous : Option AmbiguousImport) :
    (graph.noteAmbiguous ambiguous).Consistent :=
  ⟨h.ids_sorted, h.position_iff, h.joins, h.imports_once, h.interfaces_once,
    h.crossLanguageEdges_eq⟩

/-- A graph stays consistent with one more edge, if its nodes are joined and the edge is new. -/
theorem addLink (h : graph.Consistent) {link : Link} (hj : link.Joins graph.nodes)
    (himport : link.edge.type = .imports → ∀ other ∈ graph.links, other.edge.type = .imports →
      (other.source, other.target) ≠ (link.source, link.target))
    (hinterface : link.edge.type = .interface → ∀ other ∈ graph.links,
      other.edge.type = .interface → other.edge.interfaceType = link.edge.interfaceType →
        s(other.source, other.target) ≠ s(link.source, link.target)) :
    (graph.addLink link).Consistent where
  ids_sorted := h.ids_sorted
  position_iff := h.position_iff
  joins := by
    intro other hm
    rcases List.mem_append.mp hm with hm | hm
    · exact h.joins other hm
    · rw [List.mem_singleton.mp hm]
      exact hj
  imports_once := by
    refine List.pairwise_append.mpr ⟨h.imports_once, List.pairwise_singleton _ _, ?_⟩
    intro other hm last hl
    rw [List.mem_singleton.mp hl]
    exact fun hother hlink => himport hlink other hm hother
  interfaces_once := by
    refine List.pairwise_append.mpr ⟨h.interfaces_once, List.pairwise_singleton _ _, ?_⟩
    intro other hm last hl
    rw [List.mem_singleton.mp hl]
    exact fun hother hlink => hinterface hlink other hm hother
  crossLanguageEdges_eq := by
    have hedges : (graph.addLink link).edges = graph.edges ++ [link.edge] := by
      simp [edges]
    rw [hedges, List.filter_append, ← h.crossLanguageEdges_eq]
    by_cases hc : link.edge.crossLanguage
    · simp [DependencyGraph.addLink, hc]
    · simp [DependencyGraph.addLink, hc]

/-! ## Looking up -/

theorem eq_of_id_eq (h : graph.Consistent) {p q : Nat} {node other : Node}
    (hp : graph.nodes[p]? = some node) (hq : graph.nodes[q]? = some other)
    (hid : node.id = other.id) : p = q := by
  have hn := (h.position_iff other.id p).mpr ⟨node, hp, hid⟩
  have ho := (h.position_iff other.id q).mpr ⟨other, hq, rfl⟩
  rw [hn] at ho
  exact Option.some.inj ho

theorem position_eq_iff (h : graph.Consistent) {p q : Nat} {node other : Node}
    (hp : graph.nodes[p]? = some node) (hq : graph.nodes[q]? = some other) :
    p = q ↔ node.id = other.id := by
  refine ⟨?_, h.eq_of_id_eq hp hq⟩
  rintro rfl
  rw [hp] at hq
  exact congrArg Node.id (Option.some.inj hq)

theorem placed?_iff (h : graph.Consistent) {id : String} {placed : Placed} :
    graph.placed? id = some placed ↔
      graph.nodes[placed.2]? = some placed.1 ∧ placed.1.id = id := by
  obtain ⟨node, position⟩ := placed
  simp only [placed?, Option.bind_eq_some_iff, Option.map_eq_some_iff, Prod.mk.injEq]
  constructor
  · rintro ⟨p, hp, other, hother, rfl, rfl⟩
    obtain ⟨found, hfound, hid⟩ := (h.position_iff id p).mp hp
    rw [hother] at hfound
    exact ⟨hother, Option.some.inj hfound ▸ hid⟩
  · rintro ⟨hg, hid⟩
    exact ⟨position, (h.position_iff id position).mpr ⟨node, hg, hid⟩, node, hg, rfl, rfl⟩

theorem placed?_eq_none_iff (h : graph.Consistent) {id : String} :
    graph.placed? id = none ↔ id ∉ graph.ids := by
  rw [Option.eq_none_iff_forall_ne_some, ids, List.mem_map, not_exists]
  constructor
  · rintro hnone node ⟨hm, hid⟩
    obtain ⟨position, hg⟩ := List.mem_iff_getElem?.mp hm
    exact hnone (node, position) (h.placed?_iff.mpr ⟨hg, hid⟩)
  · intro hnone placed hplaced
    obtain ⟨hg, hid⟩ := h.placed?_iff.mp hplaced
    exact hnone placed.1 ⟨List.mem_of_getElem? hg, hid⟩

/-- The nodes stand in the order of their ids. -/
theorem position_le (h : graph.Consistent) {p q : Nat} {node other : Node}
    (hp : graph.nodes[p]? = some node) (hq : graph.nodes[q]? = some other)
    (hle : node.id ≤ other.id) : p ≤ q := by
  by_contra hlt
  obtain ⟨hpn, hpe⟩ := List.getElem?_eq_some_iff.mp hp
  obtain ⟨hqn, hqe⟩ := List.getElem?_eq_some_iff.mp hq
  have hsorted : graph.nodes.Pairwise fun a b => a.id < b.id := List.pairwise_map.mp h.ids_sorted
  have hless := List.pairwise_iff_getElem.mp hsorted q p hqn hpn (Nat.lt_of_not_le hlt)
  rw [hpe, hqe] at hless
  exact absurd hle (not_le_of_gt hless)

theorem id_le (h : graph.Consistent) {p q : Nat} {node other : Node}
    (hp : graph.nodes[p]? = some node) (hq : graph.nodes[q]? = some other) (hle : p ≤ q) :
    node.id ≤ other.id := by
  refine le_of_not_gt fun hlt => ?_
  have hsame : p = q := le_antisymm hle (h.position_le hq hp hlt.le)
  exact hlt.ne' ((h.position_eq_iff hp hq).mp hsame)

/-- A node is found by its id, and by nothing else. -/
theorem node?_iff (h : graph.Consistent) {id : String} {node : Node} :
    graph.node? id = some node ↔ node ∈ graph.nodes ∧ node.id = id := by
  rw [node?, Option.map_eq_some_iff, List.mem_iff_getElem?]
  constructor
  · rintro ⟨placed, hplaced, rfl⟩
    obtain ⟨hg, hid⟩ := h.placed?_iff.mp hplaced
    exact ⟨⟨placed.2, hg⟩, hid⟩
  · rintro ⟨⟨position, hg⟩, hid⟩
    exact ⟨(node, position), h.placed?_iff.mpr ⟨hg, hid⟩, rfl⟩

theorem nodup_ids (h : graph.Consistent) : graph.ids.Nodup :=
  h.ids_sorted.imp ne_of_lt

/-- The edges with a file at one end are the edges that name it there. -/
theorem mem_edgesAt (h : graph.Consistent) {endOf : Link → Nat} {name : Edge → String}
    (hname : ∀ link ∈ graph.links, ∃ node, graph.nodes[endOf link]? = some node ∧
      name link.edge = node.id) {id : String} {e : Edge} :
    e ∈ graph.edgesAt endOf id ↔ e ∈ graph.edges ∧ name e = id := by
  rw [edgesAt, edges, List.mem_map]
  cases hp : graph.positions.get? id with
  | none =>
      refine ⟨fun hm => absurd hm List.not_mem_nil, ?_⟩
      rintro ⟨⟨link, hm, rfl⟩, rfl⟩
      obtain ⟨node, hn, hid⟩ := hname link hm
      have hfound := (h.position_iff (name link.edge) (endOf link)).mpr ⟨node, hn, hid.symm⟩
      rw [hp] at hfound
      cases hfound
  | some position =>
      obtain ⟨node, hn, hid⟩ := (h.position_iff id position).mp hp
      simp only [List.mem_reverse, List.mem_map, List.mem_filter, beq_iff_eq]
      constructor
      · rintro ⟨link, ⟨hm, hat⟩, rfl⟩
        obtain ⟨other, ho, hother⟩ := hname link hm
        rw [hat, hn] at ho
        exact ⟨⟨link, hm, rfl⟩, by rw [hother, ← Option.some.inj ho, hid]⟩
      · rintro ⟨⟨link, hm, rfl⟩, hlink⟩
        obtain ⟨other, ho, hother⟩ := hname link hm
        have hat := h.eq_of_id_eq ho hn (by rw [← hother, hlink, hid])
        exact ⟨link, ⟨hm, hat⟩, rfl⟩

theorem mem_outgoing (h : graph.Consistent) {id : String} {e : Edge} :
    e ∈ graph.outgoing id ↔ e ∈ graph.edges ∧ e.source = id := by
  refine h.mem_edgesAt fun link hm => ?_
  obtain ⟨source, -, hs, -, -, hsource, -⟩ := h.joins link hm
  exact ⟨source, hs, hsource⟩

theorem mem_incoming (h : graph.Consistent) {id : String} {e : Edge} :
    e ∈ graph.incoming id ↔ e ∈ graph.edges ∧ e.target = id := by
  refine h.mem_edgesAt fun link hm => ?_
  obtain ⟨-, target, -, ht, -, -, htarget, -⟩ := h.joins link hm
  exact ⟨target, ht, htarget⟩

/-- An edge crosses a language boundary if the languages of its ends differ. -/
theorem ends_of_mem_edges (h : graph.Consistent) {e : Edge} (hm : e ∈ graph.edges) :
    ∃ source target, graph.node? e.source = some source ∧ graph.node? e.target = some target ∧
      e.crossLanguage = (source.language != target.language) := by
  obtain ⟨link, hlink, rfl⟩ := List.mem_map.mp hm
  obtain ⟨source, target, hs, ht, -, hsource, htarget, hcross, -⟩ := h.joins link hlink
  refine ⟨source, target, h.node?_iff.mpr ⟨List.mem_of_getElem? hs, hsource.symm⟩,
    h.node?_iff.mpr ⟨List.mem_of_getElem? ht, htarget.symm⟩, hcross⟩

end Consistent

end DependencyGraph

end CodeAtlas
