import CodeAtlas.Graph.Basic

/-! Clusters of the dependency graph: files that are joined by edges within one language, in either
direction. A file that belongs to no cluster yet starts one, and a search along the edges numbers
the other files of it. -/

namespace CodeAtlas.Graph

/-- A search for the nodes of a cluster: the number of each node that was met, by position, and the
nodes whose edges are still to be followed, the latest first. -/
structure Search where
  numbers : List (Option Nat)
  pending : List Nat
  deriving Repr, DecidableEq

namespace Search

/-- Numbers a node that was not met before, and keeps it to follow its edges. -/
def visit (number : Nat) (search : Search) (position : Nat) : Search :=
  if search.numbers[position]? = some none then
    ⟨search.numbers.set position (some number), position :: search.pending⟩
  else search

/-- What is still to be done: nodes to be met, and nodes whose edges are to be followed. -/
def size (search : Search) : Nat :=
  search.numbers.count none + search.pending.length

@[simp] theorem size_visit (number : Nat) (search : Search) (position : Nat) :
    (search.visit number position).size = search.size := by
  unfold visit
  split
  · rename_i hfresh
    obtain ⟨hlt, hnone⟩ := List.getElem?_eq_some_iff.mp hfresh
    have hpos : 0 < search.numbers.count none :=
      List.count_pos_iff.mpr (List.mem_of_getElem? hfresh)
    simp only [size, List.length_cons, List.count_set hlt, hnone]
    simp
    omega
  · rfl

theorem size_foldl_visit (number : Nat) (positions : List Nat) (search : Search) :
    (positions.foldl (visit number) search).size = search.size := by
  induction positions generalizing search with
  | nil => rfl
  | cons position positions ih => rw [List.foldl_cons, ih, size_visit]

/-- Follows the edges of pending nodes until there are none. Nodes are numbered when they are met,
so that each is kept only once and every step leaves less to be done. -/
def run (next : Nat → List Nat) (number : Nat) : Search → List (Option Nat)
  | ⟨numbers, []⟩ => numbers
  | ⟨numbers, position :: pending⟩ =>
    run next number ((next position).foldl (visit number) ⟨numbers, pending⟩)
termination_by search => search.size
decreasing_by
  rw [size_foldl_visit]
  simp [size]

end Search

/-- Clusters: the number of the cluster of each node, by position, and how many there are. A node
that belongs to none yet has no number. -/
structure Clustering where
  numbers : List (Option Nat)
  count : Nat
  deriving Repr, DecidableEq

namespace Clustering

/-- No node belongs to a cluster yet. -/
def start (size : Nat) : Clustering := ⟨List.replicate size none, 0⟩

/-- The cluster of a node, if it belongs to none yet. -/
def extend (next : Nat → List Nat) (clustering : Clustering) (position : Nat) : Clustering :=
  if clustering.numbers[position]? = some none then
    ⟨Search.run next clustering.count
        ⟨clustering.numbers.set position (some clustering.count), [position]⟩,
      clustering.count + 1⟩
  else clustering

end Clustering

end CodeAtlas.Graph

namespace CodeAtlas.DependencyGraph

open CodeAtlas.Graph (Clustering)

/-- The nodes at the other ends of a node's edges within its language: those that it uses, then
those that use it, the latest edge first. -/
def peers (graph : DependencyGraph) (position : Nat) : List Nat :=
  let links := (graph.links.filter fun l => !l.edge.crossLanguage).reverse
  (links.filter fun l => l.source == position).map (·.target) ++
    (links.filter fun l => l.target == position).map (·.source)

/-- The clusters of the graph, numbered in the order of their first files. -/
def clustering (graph : DependencyGraph) : Clustering :=
  (List.range graph.nodes.length).foldl (Clustering.extend graph.peers)
    (.start graph.nodes.length)

end CodeAtlas.DependencyGraph
