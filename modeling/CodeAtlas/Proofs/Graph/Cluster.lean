import CodeAtlas.Graph.Cluster
import CodeAtlas.Proofs.Graph.Build
import Mathlib.Logic.Relation

/-! Clusters are what edges within a language join: two files have the same number exactly if a path
of such edges leads from one to the other, in whatever directions. A search numbers only what it can
reach, and leaves nothing out once no edges are left to be followed. -/

namespace CodeAtlas.Graph

/-- Steps lead from one node to another. -/
abbrev Walk (next : Nat → List Nat) : Nat → Nat → Prop :=
  Relation.ReflTransGen fun p q => q ∈ next p

/-! ## One search -/

namespace Search

variable {next : Nat → List Nat} {number : Nat} {search : Search} {p : Nat}

theorem getElem?_visit (position : Nat) : (search.visit number position).numbers[p]? =
    if p = position ∧ search.numbers[p]? = some none then some (some number)
    else search.numbers[p]? := by
  unfold visit
  by_cases hfresh : search.numbers[position]? = some none
  · rw [if_pos hfresh, List.getElem?_set]
    have hlt := (List.getElem?_eq_some_iff.mp hfresh).1
    by_cases hp : p = position
    · subst hp
      rw [if_pos rfl, if_pos hlt, if_pos ⟨rfl, hfresh⟩]
    · rw [if_neg (Ne.symm hp), if_neg fun h => hp h.1]
  · rw [if_neg hfresh, if_neg]
    rintro ⟨rfl, hp⟩
    exact hfresh hp

theorem mem_pending_visit (position : Nat) : p ∈ (search.visit number position).pending ↔
    p ∈ search.pending ∨ p = position ∧ search.numbers[p]? = some none := by
  unfold visit
  by_cases hfresh : search.numbers[position]? = some none
  · rw [if_pos hfresh, List.mem_cons, or_comm]
    refine or_congr_right ⟨?_, fun h => h.1⟩
    rintro rfl
    exact ⟨rfl, hfresh⟩
  · rw [if_neg hfresh, or_iff_left]
    rintro ⟨rfl, hp⟩
    exact hfresh hp

/-- Of the nodes at the ends of edges those are numbered that were not met before. -/
theorem getElem?_foldl_visit (positions : List Nat) :
    (positions.foldl (visit number) search).numbers[p]? =
      if p ∈ positions ∧ search.numbers[p]? = some none then some (some number)
      else search.numbers[p]? := by
  induction positions generalizing search with
  | nil => simp
  | cons position positions ih =>
      rw [List.foldl_cons, ih, getElem?_visit]
      by_cases hp : p = position
      · by_cases hfresh : search.numbers[p]? = some none <;> simp [hp.symm, hfresh]
      · simp [hp]

theorem mem_pending_foldl_visit (positions : List Nat) :
    p ∈ (positions.foldl (visit number) search).pending ↔
      p ∈ search.pending ∨ p ∈ positions ∧ search.numbers[p]? = some none := by
  induction positions generalizing search with
  | nil => simp
  | cons position positions ih =>
      rw [List.foldl_cons, ih, mem_pending_visit, getElem?_visit]
      by_cases hp : p = position
      · by_cases hfresh : search.numbers[p]? = some none <;> simp [hp.symm, hfresh]
      · simp [hp]

theorem length_foldl_visit (positions : List Nat) :
    (positions.foldl (visit number) search).numbers.length = search.numbers.length := by
  induction positions generalizing search with
  | nil => rfl
  | cons position positions ih =>
      rw [List.foldl_cons, ih, visit]
      split
      · exact List.length_set
      · rfl

theorem length_run (next : Nat → List Nat) (number : Nat) (search : Search) :
    (run next number search).length = search.numbers.length := by
  fun_induction run next number search with
  | case1 numbers => rfl
  | case2 numbers position pending ih => rw [ih, length_foldl_visit]

/-- A search changes nothing but the numbers of nodes that it meets for the first time, on a path
from a pending node. -/
theorem getElem?_run (next : Nat → List Nat) (number : Nat) (search : Search) (p : Nat) :
    (run next number search)[p]? = search.numbers[p]? ∨
      search.numbers[p]? = some none ∧ (run next number search)[p]? = some (some number) ∧
        ∃ start ∈ search.pending, Walk next start p := by
  fun_induction run next number search with
  | case1 numbers => exact .inl rfl
  | case2 numbers position pending ih =>
      rw [getElem?_foldl_visit] at ih
      by_cases hmet : p ∈ next position ∧ numbers[p]? = some none
      · rw [if_pos hmet] at ih
        have hrun := ih.resolve_right fun h => by cases h.1
        exact .inr ⟨hmet.2, hrun, position, List.mem_cons_self, .single hmet.1⟩
      · rw [if_neg hmet] at ih
        refine ih.imp_right ?_
        rintro ⟨hfresh, hrun, start, hstart, hpath⟩
        refine ⟨hfresh, hrun, ?_⟩
        rcases (mem_pending_foldl_visit _).mp hstart with hold | ⟨hnext, -⟩
        · exact ⟨start, List.mem_cons_of_mem position hold, hpath⟩
        · exact ⟨position, List.mem_cons_self, .head hnext hpath⟩

theorem getElem?_run_of_met {number' : Nat} (h : search.numbers[p]? = some (some number')) :
    (run next number search)[p]? = some (some number') := by
  rcases getElem?_run next number search p with hsame | ⟨hfresh, -⟩
  · rw [hsame, h]
  · rw [h] at hfresh
    cases hfresh

/-- The nodes with a number that are not pending have all their edges followed. -/
def Followed (next : Nat → List Nat) (number : Nat) (search : Search) : Prop :=
  ∀ p, search.numbers[p]? = some (some number) → p ∉ search.pending →
    ∀ q ∈ next p, search.numbers[q]? ≠ some none

/-- Following the edges of one node keeps what is followed. -/
theorem Followed.step {numbers : List (Option Nat)} {position : Nat} {pending : List Nat}
    (h : Followed next number ⟨numbers, position :: pending⟩) :
    Followed next number ((next position).foldl (visit number) ⟨numbers, pending⟩) := by
  intro p hp hpending q hq
  rw [mem_pending_foldl_visit, not_or] at hpending
  rw [getElem?_foldl_visit, if_neg hpending.2] at hp
  rw [getElem?_foldl_visit]
  split
  · simp
  · rename_i hmet
    by_cases hposition : p = position
    · subst hposition
      exact fun hfresh => hmet ⟨hq, hfresh⟩
    · refine h p hp ?_ q hq
      simp [hposition, hpending.1]

/-- At the end the edges of all nodes with the number are followed. -/
theorem Followed.run (h : Followed next number search) :
    Followed next number ⟨run next number search, []⟩ := by
  fun_induction Search.run next number search with
  | case1 numbers => exact h
  | case2 numbers position pending ih => exact ih h.step

end Search

/-! ## One cluster after the other -/

namespace Clustering

variable {next : Nat → List Nat} {size : Nat} {clustering : Clustering} {position p j : Nat}

theorem extend_of_met (h : clustering.numbers[position]? ≠ some none) :
    clustering.extend next position = clustering := by
  rw [extend, if_neg h]

section Extend

variable (hfresh : clustering.numbers[position]? = some none)
include hfresh

theorem count_extend : (clustering.extend next position).count = clustering.count + 1 := by
  rw [extend, if_pos hfresh]

theorem numbers_extend : (clustering.extend next position).numbers =
    Search.run next clustering.count
      ⟨clustering.numbers.set position (some clustering.count), [position]⟩ := by
  rw [extend, if_pos hfresh]

theorem length_extend :
    (clustering.extend next position).numbers.length = clustering.numbers.length := by
  rw [numbers_extend hfresh, Search.length_run, List.length_set]

theorem getElem?_set_fresh : (clustering.numbers.set position (some clustering.count))[p]? =
    if p = position then some (some clustering.count) else clustering.numbers[p]? := by
  have hlt := (List.getElem?_eq_some_iff.mp hfresh).1
  rw [List.getElem?_set]
  by_cases hp : p = position
  · rw [if_pos hp.symm, if_pos hlt, if_pos hp]
  · rw [if_neg (Ne.symm hp), if_neg hp]

theorem getElem?_extend_self :
    (clustering.extend next position).numbers[position]? = some (some clustering.count) := by
  rw [numbers_extend hfresh]
  exact Search.getElem?_run_of_met (by rw [getElem?_set_fresh hfresh, if_pos rfl])

/-- The clusters that were found before stay. -/
theorem getElem?_extend_of_met (h : clustering.numbers[p]? = some (some j)) :
    (clustering.extend next position).numbers[p]? = some (some j) := by
  rw [numbers_extend hfresh]
  refine Search.getElem?_run_of_met ?_
  rw [getElem?_set_fresh hfresh, if_neg, h]
  rintro rfl
  rw [h] at hfresh
  cases hfresh

/-- The new cluster is made of nodes that belonged to none and that the first one leads to. -/
theorem getElem?_extend (h : (clustering.extend next position).numbers[p]? = some (some j)) :
    clustering.numbers[p]? = some (some j) ∨
      j = clustering.count ∧ clustering.numbers[p]? = some none ∧
        Walk next position p := by
  rw [numbers_extend hfresh] at h
  by_cases hp : p = position
  · subst hp
    have hself : (Search.run next clustering.count
        ⟨clustering.numbers.set p (some clustering.count), [p]⟩)[p]? =
          some (some clustering.count) :=
      Search.getElem?_run_of_met (by rw [getElem?_set_fresh hfresh, if_pos rfl])
    rw [h] at hself
    exact .inr ⟨by simpa using hself, hfresh, .refl⟩
  · rcases Search.getElem?_run next clustering.count
      ⟨clustering.numbers.set position (some clustering.count), [position]⟩ p with
      hsame | ⟨hnone, hnew, start, hstart, hpath⟩
    · rw [h, getElem?_set_fresh hfresh, if_neg hp] at hsame
      exact .inl hsame.symm
    · rw [getElem?_set_fresh hfresh, if_neg hp] at hnone
      rw [h] at hnew
      rw [List.mem_singleton.mp hstart] at hpath
      exact .inr ⟨by simpa using hnew, hnone, hpath⟩

/-- From the new cluster edges lead to nodes of clusters only. -/
theorem followed_extend (hnew : ∀ p : Nat, clustering.numbers[p]? ≠ some (some clustering.count))
    (hp : (clustering.extend next position).numbers[p]? = some (some clustering.count)) {q : Nat}
    (hq : q ∈ next p) : (clustering.extend next position).numbers[q]? ≠ some none := by
  have hstart : Search.Followed next clustering.count
      ⟨clustering.numbers.set position (some clustering.count), [position]⟩ := by
    intro p hp hpending
    rw [getElem?_set_fresh hfresh, if_neg fun h => hpending (List.mem_singleton.mpr h)] at hp
    exact absurd hp (hnew p)
  rw [numbers_extend hfresh] at hp ⊢
  exact hstart.run p hp List.not_mem_nil q hq

end Extend

theorem exists_number {numbers : List (Option Nat)} (hlt : p < numbers.length)
    (h : numbers[p]? ≠ some none) : ∃ number, numbers[p]? = some (some number) := by
  rw [List.getElem?_eq_getElem hlt] at h ⊢
  cases hnumber : numbers[p] with
  | none => exact absurd (congrArg some hnumber) h
  | some number => exact ⟨number, rfl⟩

/-- The first nodes are divided into clusters, which no edge leaves. They are numbered in the order
in which they start: in front of each node of a cluster there is one of every cluster with a
smaller number. -/
structure Divides (next : Nat → List Nat) (size met : Nat) (clustering : Clustering) : Prop where
  length_eq : clustering.numbers.length = size
  ne_none : ∀ p : Nat, p < met → clustering.numbers[p]? ≠ some none
  lt_count : ∀ p k : Nat, clustering.numbers[p]? = some (some k) → k < clustering.count
  exists_met : ∀ k < clustering.count, ∃ p < met, clustering.numbers[p]? = some (some k)
  exists_lt : ∀ j k q : Nat, j < k → clustering.numbers[q]? = some (some k) →
    ∃ p < q, clustering.numbers[p]? = some (some j)
  closed : ∀ p k : Nat, clustering.numbers[p]? = some (some k) →
    ∀ q ∈ next p, clustering.numbers[q]? = some (some k)
  joined : ∀ p q k : Nat, clustering.numbers[p]? = some (some k) →
    clustering.numbers[q]? = some (some k) → Walk next p q

theorem divides_start (next : Nat → List Nat) (size : Nat) : (start size).Divides next size 0 := by
  have hnone : ∀ p k : Nat, (start size).numbers[p]? ≠ some (some k) := by
    intro p k h
    cases List.eq_of_mem_replicate (List.mem_of_getElem? h)
  exact {
    length_eq := List.length_replicate
    ne_none := fun p hp => absurd hp (Nat.not_lt_zero p)
    lt_count := fun p k h => absurd h (hnone p k)
    exists_met := fun k hk => absurd hk (Nat.not_lt_zero k)
    exists_lt := fun _ k q _ h => absurd h (hnone q k)
    closed := fun p k h => absurd h (hnone p k)
    joined := fun p _ k h => absurd h (hnone p k) }

namespace Divides

variable {met : Nat} (h : clustering.Divides next size met)
include h

/-- A node that belongs to a cluster already starts none. -/
theorem extend_of_met (hmet : clustering.numbers[met]? ≠ some none) :
    (clustering.extend next met).Divides next size (met + 1) := by
  rw [Clustering.extend_of_met hmet]
  refine { h with ne_none := ?_, exists_met := ?_ }
  · intro p hp
    rcases Nat.lt_succ_iff_lt_or_eq.mp hp with hp | rfl
    · exact h.ne_none p hp
    · exact hmet
  · intro k hk
    obtain ⟨p, hp, hnumber⟩ := h.exists_met k hk
    exact ⟨p, Nat.lt_succ_of_lt hp, hnumber⟩

theorem ne_count (p : Nat) : clustering.numbers[p]? ≠ some (some clustering.count) :=
  fun hp => Nat.lt_irrefl _ (h.lt_count p _ hp)

variable (hsymm : ∀ p q, q ∈ next p → p ∈ next q) (hlt : ∀ p q, q ∈ next p → q < size)
include hsymm hlt

/-- The new cluster is made of all nodes that its first one leads to. -/
theorem getElem?_extend_iff (hfresh : clustering.numbers[met]? = some none) :
    (clustering.extend next met).numbers[p]? = some (some j) ↔
      clustering.numbers[p]? = some (some j) ∨
        j = clustering.count ∧ Walk next met p := by
  refine ⟨fun hp => (getElem?_extend hfresh hp).imp_right fun hnew => ⟨hnew.1, hnew.2.2⟩, ?_⟩
  rintro (hold | ⟨rfl, hpath⟩)
  · exact getElem?_extend_of_met hfresh hold
  · induction hpath with
    | refl => exact getElem?_extend_self hfresh
    | @tail p q _ hq ih =>
        have hdefined : q < (clustering.extend next met).numbers.length := by
          rw [length_extend hfresh, h.length_eq]
          exact hlt p q hq
        obtain ⟨number, hnumber⟩ :=
          exists_number hdefined (followed_extend hfresh h.ne_count ih hq)
        rcases getElem?_extend hfresh hnumber with hold | ⟨rfl, -⟩
        · -- The edge back would have led from the older cluster to the node before.
          have hback : (clustering.extend next met).numbers[p]? = some (some number) :=
            getElem?_extend_of_met hfresh (h.closed q number hold p (hsymm p q hq))
          rw [ih] at hback
          obtain rfl : clustering.count = number := by simpa using hback
          exact absurd hold (h.ne_count q)
        · exact hnumber

/-- A node that belongs to no cluster yet starts the next one. -/
theorem extend_of_fresh (hfresh : clustering.numbers[met]? = some none) :
    (clustering.extend next met).Divides next size (met + 1) := by
  have hiff : ∀ {p j : Nat}, (clustering.extend next met).numbers[p]? = some (some j) ↔
      clustering.numbers[p]? = some (some j) ∨
        j = clustering.count ∧ Walk next met p :=
    h.getElem?_extend_iff hsymm hlt hfresh
  have hsteps : Std.Symm fun p q => q ∈ next p := ⟨hsymm⟩
  have hreverse : Std.Symm (Walk next) := inferInstance
  refine {
    length_eq := (length_extend hfresh).trans h.length_eq, ne_none := ?ne_none,
    lt_count := ?lt_count, exists_met := ?exists_met, exists_lt := ?exists_lt,
    closed := ?closed, joined := ?joined }
  case ne_none =>
    intro p hp
    rcases Nat.lt_succ_iff_lt_or_eq.mp hp with hp | rfl
    · intro hnone
      have hin := (List.getElem?_eq_some_iff.mp hnone).1
      rw [length_extend hfresh] at hin
      obtain ⟨number, hnumber⟩ := exists_number hin (h.ne_none p hp)
      rw [hiff.mpr (.inl hnumber)] at hnone
      cases hnone
    · rw [hiff.mpr (.inr ⟨rfl, .refl⟩)]
      simp
  case lt_count =>
    intro p k hp
    rw [count_extend hfresh]
    rcases hiff.mp hp with hold | ⟨rfl, -⟩
    · exact Nat.lt_succ_of_lt (h.lt_count p k hold)
    · exact Nat.lt_succ_self _
  case exists_met =>
    intro k hk
    rw [count_extend hfresh] at hk
    rcases Nat.lt_succ_iff_lt_or_eq.mp hk with hk | rfl
    · obtain ⟨p, hp, hnumber⟩ := h.exists_met k hk
      exact ⟨p, Nat.lt_succ_of_lt hp, hiff.mpr (.inl hnumber)⟩
    · exact ⟨met, Nat.lt_succ_self met, hiff.mpr (.inr ⟨rfl, .refl⟩)⟩
  case exists_lt =>
    intro j k q hjk hq
    rcases getElem?_extend hfresh hq with hold | ⟨rfl, hnone, -⟩
    · obtain ⟨p, hp, hnumber⟩ := h.exists_lt j k q hjk hold
      exact ⟨p, hp, hiff.mpr (.inl hnumber)⟩
    · obtain ⟨p, hp, hnumber⟩ := h.exists_met j hjk
      -- A node without a number stands behind all nodes that were looked at.
      have hle : met ≤ q := Nat.le_of_not_lt fun hq => h.ne_none q hq hnone
      exact ⟨p, hp.trans_le hle, hiff.mpr (.inl hnumber)⟩
  case closed =>
    intro p k hp q hq
    rcases hiff.mp hp with hold | ⟨rfl, hpath⟩
    · exact hiff.mpr (.inl (h.closed p k hold q hq))
    · exact hiff.mpr (.inr ⟨rfl, hpath.tail hq⟩)
  case joined =>
    intro p q k hp hq
    rcases hiff.mp hp with hpold | ⟨rfl, hppath⟩
    · rcases hiff.mp hq with hqold | ⟨rfl, -⟩
      · exact h.joined p q k hpold hqold
      · exact absurd hpold (h.ne_count p)
    · rcases hiff.mp hq with hqold | ⟨-, hqpath⟩
      · exact absurd hqold (h.ne_count q)
      · exact (hreverse.symm _ _ hppath).trans hqpath

/-- The clusters are kept where one more node is looked at. -/
theorem extend : (clustering.extend next met).Divides next size (met + 1) := by
  by_cases hfresh : clustering.numbers[met]? = some none
  · exact h.extend_of_fresh hsymm hlt hfresh
  · exact h.extend_of_met hfresh

end Divides

theorem divides_foldl_range (hsymm : ∀ p q, q ∈ next p → p ∈ next q)
    (hlt : ∀ p q, q ∈ next p → q < size) (met : Nat) :
    ((List.range met).foldl (Clustering.extend next) (start size)).Divides next size met := by
  induction met with
  | zero => exact divides_start next size
  | succ met ih =>
      rw [List.range_succ, List.foldl_append]
      exact ih.extend hsymm hlt

end Clustering

end CodeAtlas.Graph

namespace CodeAtlas.DependencyGraph

open CodeAtlas.Graph (Clustering Walk)

/-- An edge joins two files of one language, in either direction. -/
def Adjoins (graph : DependencyGraph) (a b : Node) : Prop :=
  a ∈ graph.nodes ∧ b ∈ graph.nodes ∧ a.language = b.language ∧
    ∃ e ∈ graph.edges, s(e.source, e.target) = s(a.id, b.id)

/-- A path of edges within one language leads from a file to another, whatever their directions. -/
def Connects (graph : DependencyGraph) : Node → Node → Prop :=
  Relation.ReflTransGen graph.Adjoins

/-- Every node has a number, and the numbers are those below the number of clusters. Two nodes have
the same one exactly if edges within one language connect them, so that their language is the same.
Clusters are numbered in the order of their first nodes. -/
structure ClustersByLanguage (graph : DependencyGraph) (clustering : Clustering) : Prop where
  length_eq : clustering.numbers.length = graph.nodes.length
  mem_numbers_iff : ∀ number, number ∈ clustering.numbers ↔
    ∃ k < clustering.count, number = some k
  same_iff : ∀ (p q : Nat) (a b : Node), graph.nodes[p]? = some a → graph.nodes[q]? = some b →
    (clustering.numbers[p]? = clustering.numbers[q]? ↔ graph.Connects a b)
  first_lt : ∀ j k : Nat, j < k → k < clustering.count →
    clustering.numbers.idxOf (some j) < clustering.numbers.idxOf (some k)
  language_eq : ∀ (p q : Nat) (a b : Node), graph.nodes[p]? = some a → graph.nodes[q]? = some b →
    clustering.numbers[p]? = clustering.numbers[q]? → a.language = b.language

variable {graph : DependencyGraph} {a b : Node} {p q : Nat}

theorem Adjoins.symm (h : graph.Adjoins a b) : graph.Adjoins b a := by
  obtain ⟨ha, hb, hlanguage, e, he, hends⟩ := h
  exact ⟨hb, ha, hlanguage.symm, e, he, hends.trans Sym2.eq_swap⟩

/-- Files that are connected are written in one language. -/
theorem Connects.language_eq (h : graph.Connects a b) : a.language = b.language := by
  induction h with
  | refl => rfl
  | tail _ hstep ih => exact ih.trans hstep.2.2.1

theorem mem_peers : q ∈ graph.peers p ↔ ∃ link ∈ graph.links, link.edge.crossLanguage = false ∧
    (link.source = p ∧ link.target = q ∨ link.target = p ∧ link.source = q) := by
  simp only [peers, List.mem_append, List.mem_map, List.mem_filter, List.mem_reverse, beq_iff_eq,
    Bool.not_eq_true', ← exists_or]
  refine exists_congr fun link => ?_
  tauto

namespace Consistent

/-- The peers of a node are the nodes of its language that an edge joins it with. -/
theorem mem_peers_iff (h : graph.Consistent) : q ∈ graph.peers p ↔
    ∃ a b, graph.nodes[p]? = some a ∧ graph.nodes[q]? = some b ∧ graph.Adjoins a b := by
  rw [mem_peers]
  constructor
  · rintro ⟨link, hlink, hsame, hends⟩
    obtain ⟨source, target, hs, ht, -, hsource, htarget, hcross, -⟩ := h.joins link hlink
    rw [hsame, eq_comm, bne_eq_false_iff_eq] at hcross
    have hadjoins : graph.Adjoins source target :=
      ⟨List.mem_of_getElem? hs, List.mem_of_getElem? ht, hcross, link.edge,
        List.mem_map_of_mem hlink, by rw [hsource, htarget]⟩
    rcases hends with ⟨rfl, rfl⟩ | ⟨rfl, rfl⟩
    · exact ⟨source, target, hs, ht, hadjoins⟩
    · exact ⟨target, source, ht, hs, hadjoins.symm⟩
  · rintro ⟨a, b, ha, hb, ham, hbm, hlanguage, e, he, hends⟩
    obtain ⟨link, hlink, rfl⟩ := List.mem_map.mp he
    obtain ⟨source, target, hs, ht, -, hsource, htarget, hcross, -⟩ := h.joins link hlink
    have hsm := List.mem_of_getElem? hs
    have htm := List.mem_of_getElem? ht
    rw [hsource, htarget, Sym2.eq_iff] at hends
    refine ⟨link, hlink, ?_, ?_⟩
    · rw [hcross, bne_eq_false_iff_eq]
      rcases hends with ⟨hsa, htb⟩ | ⟨hsb, hta⟩
      · rw [List.inj_on_of_nodup_map h.nodup_ids hsm ham hsa,
          List.inj_on_of_nodup_map h.nodup_ids htm hbm htb, hlanguage]
      · rw [List.inj_on_of_nodup_map h.nodup_ids hsm hbm hsb,
          List.inj_on_of_nodup_map h.nodup_ids htm ham hta, hlanguage]
    · exact hends.imp (fun hids => ⟨h.eq_of_id_eq hs ha hids.1, h.eq_of_id_eq ht hb hids.2⟩)
        fun hids => ⟨h.eq_of_id_eq ht ha hids.2, h.eq_of_id_eq hs hb hids.1⟩

theorem peers_symm (h : graph.Consistent) (hq : q ∈ graph.peers p) : p ∈ graph.peers q := by
  obtain ⟨a, b, ha, hb, hadjoins⟩ := h.mem_peers_iff.mp hq
  exact h.mem_peers_iff.mpr ⟨b, a, hb, ha, hadjoins.symm⟩

theorem lt_of_mem_peers (h : graph.Consistent) (hq : q ∈ graph.peers p) :
    q < graph.nodes.length := by
  obtain ⟨-, b, -, hb, -⟩ := h.mem_peers_iff.mp hq
  exact (List.getElem?_eq_some_iff.mp hb).1

/-- Walks along peers are the paths between the nodes at their ends. -/
theorem walk_peers_iff (h : graph.Consistent) (ha : graph.nodes[p]? = some a)
    (hb : graph.nodes[q]? = some b) : Walk graph.peers p q ↔ graph.Connects a b := by
  constructor
  · intro hwalk
    induction hwalk generalizing b with
    | refl =>
        rw [ha] at hb
        obtain rfl := Option.some.inj hb
        exact .refl
    | tail _ hstep ih =>
        obtain ⟨c, d, hc, hd, hadjoins⟩ := h.mem_peers_iff.mp hstep
        rw [hd] at hb
        obtain rfl := Option.some.inj hb
        exact (ih hc).tail hadjoins
  · intro hpath
    induction hpath generalizing q with
    | refl =>
        obtain rfl := h.eq_of_id_eq ha hb rfl
        exact .refl
    | @tail c d _ hadjoins ih =>
        obtain ⟨r, hr⟩ := List.mem_iff_getElem?.mp hadjoins.1
        exact (ih hr).tail (h.mem_peers_iff.mpr ⟨c, d, hr, hb, hadjoins⟩)

theorem divides_clustering (h : graph.Consistent) :
    graph.clustering.Divides graph.peers graph.nodes.length graph.nodes.length :=
  Clustering.divides_foldl_range (fun _ _ hq => h.peers_symm hq)
    (fun _ _ hq => h.lt_of_mem_peers hq) _

theorem exists_number (h : graph.Consistent) (ha : graph.nodes[p]? = some a) :
    ∃ k < graph.clustering.count, graph.clustering.numbers[p]? = some (some k) := by
  have hd := h.divides_clustering
  have hlt := (List.getElem?_eq_some_iff.mp ha).1
  have hdefined := hlt
  rw [← hd.length_eq] at hdefined
  obtain ⟨k, hk⟩ := Clustering.exists_number hdefined (hd.ne_none p hlt)
  exact ⟨k, hd.lt_count p k hk, hk⟩

theorem number_eq_iff (h : graph.Consistent) (ha : graph.nodes[p]? = some a)
    (hb : graph.nodes[q]? = some b) :
    graph.clustering.numbers[p]? = graph.clustering.numbers[q]? ↔ graph.Connects a b := by
  have hd := h.divides_clustering
  obtain ⟨k, -, hk⟩ := h.exists_number ha
  rw [← h.walk_peers_iff ha hb]
  constructor
  · intro hsame
    exact hd.joined p q k hk (hsame.symm.trans hk)
  · intro hwalk
    rw [hk]
    induction hwalk generalizing b with
    | refl => exact hk.symm
    | tail _ hstep ih =>
        obtain ⟨c, -, hc, -⟩ := h.mem_peers_iff.mp hstep
        exact (hd.closed _ k (ih hc).symm _ hstep).symm

/-- A cluster starts behind the first nodes of all clusters with smaller numbers. -/
theorem first_lt (h : graph.Consistent) {j k : Nat} (hjk : j < k)
    (hk : k < graph.clustering.count) :
    graph.clustering.numbers.idxOf (some j) < graph.clustering.numbers.idxOf (some k) := by
  have hd := h.divides_clustering
  obtain ⟨q, -, hq⟩ := hd.exists_met k hk
  have hmem := List.mem_of_getElem? hq
  obtain ⟨p, hp, hnumber⟩ := hd.exists_lt j k _ hjk (List.getElem?_idxOf hmem)
  refine (List.mem_take_iff_idxOf_lt (List.mem_of_getElem? hnumber)).mp ?_
  rw [← List.getElem?_take_of_lt hp] at hnumber
  exact List.mem_of_getElem? hnumber

theorem clustersByLanguage_clustering (h : graph.Consistent) :
    graph.ClustersByLanguage graph.clustering := by
  have hd := h.divides_clustering
  refine ⟨hd.length_eq, ?_, fun p q a b => h.number_eq_iff, fun j k => h.first_lt, ?_⟩
  · intro number
    constructor
    · intro hm
      obtain ⟨p, hp⟩ := List.mem_iff_getElem?.mp hm
      have hlt := (List.getElem?_eq_some_iff.mp hp).1
      rw [hd.length_eq] at hlt
      obtain ⟨k, hk, hnumber⟩ := h.exists_number (List.getElem?_eq_getElem hlt)
      rw [hp] at hnumber
      exact ⟨k, hk, Option.some.inj hnumber⟩
    · rintro ⟨k, hk, rfl⟩
      obtain ⟨p, -, hp⟩ := hd.exists_met k hk
      exact List.mem_of_getElem? hp
  · intro p q a b ha hb hsame
    exact ((h.number_eq_iff ha hb).mp hsame).language_eq

end Consistent

end CodeAtlas.DependencyGraph

namespace CodeAtlas.Graph

/-- In every graph that is built the clusters are found. -/
theorem clustersByLanguage_build (resolver : Resolver) (files : List ParsedFile)
    (descriptors : List InterfaceDescriptor) :
    (build resolver files descriptors).ClustersByLanguage
      (build resolver files descriptors).clustering :=
  (consistent_build resolver files descriptors).clustersByLanguage_clustering

end CodeAtlas.Graph
