import CodeAtlas.Graph.Basic

/-! Components of the dependency graph: sets of files that can all reach each other. -/

namespace CodeAtlas.Graph

variable {α : Type} [DecidableEq α]

/-- The items of `domain` that can be reached from the pending ones inside `domain`. Every item that
is found leaves the domain. -/
def reach (next : α → List α) : (domain pending : List α) → List α
  | _, [] => []
  | domain, item :: pending =>
    if _h : item ∈ domain then item :: reach next (domain.erase item) (next item ++ pending)
    else reach next domain pending
termination_by domain pending => (domain.length, pending.length)
decreasing_by
  · have hlen := List.length_erase_of_mem _h
    have hpos := List.length_pos_of_mem _h
    exact Prod.Lex.left _ _ (by omega)
  · exact Prod.Lex.right _ (by simp)

/-- The groups of the items: each item that is in no group yet brings its own. -/
def groups (groupOf : α → List α) (items : List α) : List (List α) :=
  items.foldl
    (fun found item => if found.any (List.elem item) then found else found ++ [groupOf item]) []

end CodeAtlas.Graph

namespace CodeAtlas.DependencyGraph

open CodeAtlas.Graph (reach groups)

/-- The files that a file can reach along edges. -/
def reachable (graph : DependencyGraph) (id : String) : List String :=
  reach (fun id => (graph.outgoing id).map (·.target)) graph.ids [id]

def reaching (graph : DependencyGraph) (id : String) : List String :=
  reach (fun id => (graph.incoming id).map (·.source)) graph.ids [id]

/-- The files that a file can reach and that can reach it. -/
def componentOf (graph : DependencyGraph) (id : String) : List String :=
  let back := graph.reaching id
  (graph.reachable id).filter fun other => List.elem other back

/-- The sets of files that can reach each other. -/
def components (graph : DependencyGraph) : List (List String) :=
  groups graph.componentOf graph.ids

/-- An edge between languages joins two of the files. -/
def crossesLanguages (graph : DependencyGraph) (ids : List String) : Bool :=
  ids.any fun id => (graph.outgoing id).any fun e => List.elem e.target ids && e.crossLanguage

/-- Of some sets of files that can reach each other those with several files, across a language
boundary. -/
def mixedCycles (graph : DependencyGraph) (components : List (List String)) :
    List (List String) :=
  components.filter fun ids => 1 < ids.length && graph.crossesLanguages ids

end CodeAtlas.DependencyGraph
