import CodeAtlas.Insight.Detect
import CodeAtlas.Proofs.Graph.Cluster
import CodeAtlas.Proofs.Sorted

/-! The report of services takes all edges between languages into account: their ends are written in
different languages and so belong to different clusters, of which there are at least two. -/

namespace CodeAtlas.Insight

open CodeAtlas.Graph

section Services

variable {graph : DependencyGraph}

/-- An edge between languages leads from one cluster to another. -/
theorem number_ne_of_crossLanguage (h : graph.Consistent) {link : Link} (hm : link ∈ graph.links)
    (hcross : link.edge.crossLanguage = true) :
    graph.clustering.numbers[link.source]? ≠ graph.clustering.numbers[link.target]? := by
  obtain ⟨source, target, hs, ht, -, -, -, hlanguages, -⟩ := h.joins link hm
  rw [hcross, eq_comm, bne_iff_ne] at hlanguages
  intro hsame
  exact hlanguages (h.clustersByLanguage_clustering.language_eq _ _ _ _ hs ht hsame)

/-- No edge between languages is passed over. -/
theorem linksBetweenClusters_eq (h : graph.Consistent) :
    linksBetweenClusters graph = graph.links.filter (·.edge.crossLanguage) := by
  refine List.filter_congr fun link hm => ?_
  cases hcross : link.edge.crossLanguage with
  | false => rfl
  | true =>
      rw [Bool.true_and, bne_iff_ne]
      exact number_ne_of_crossLanguage h hm hcross

theorem map_edge_linksBetweenClusters (h : graph.Consistent) :
    (linksBetweenClusters graph).map (·.edge) = graph.crossLanguageEdges := by
  rw [linksBetweenClusters_eq h, h.crossLanguageEdges_eq, DependencyGraph.edges, List.filter_map]
  rfl

/-- Where an edge leads from one language to another there are two clusters. -/
theorem one_lt_count (h : graph.Consistent) {link : Link} (hm : link ∈ graph.links)
    (hcross : link.edge.crossLanguage = true) : 1 < graph.clustering.count := by
  obtain ⟨source, target, hs, ht, -⟩ := h.joins link hm
  obtain ⟨j, hj, hsource⟩ := h.exists_number hs
  obtain ⟨k, hk, htarget⟩ := h.exists_number ht
  have hne : j ≠ k := by
    rintro rfl
    exact number_ne_of_crossLanguage h hm hcross (hsource.trans htarget.symm)
  omega

/-- The ends of edges are the files that the edges name. -/
theorem ids_of_ends (h : graph.Consistent) {links : List Link} (hl : links ⊆ graph.links) :
    (links.flatMap fun l => [l.source, l.target]).filterMap (graph.ids[·]?) =
      (links.map (·.edge)).flatMap fun e => [e.source, e.target] := by
  induction links with
  | nil => rfl
  | cons link links ih =>
      obtain ⟨hlink, hrest⟩ := List.cons_subset.mp hl
      obtain ⟨source, target, hs, ht, -, hsource, htarget, -⟩ := h.joins link hlink
      have hids : [link.source, link.target].filterMap (graph.ids[·]?) =
          [link.edge.source, link.edge.target] := by
        simp [DependencyGraph.ids, hs, ht, hsource, htarget]
      rw [List.flatMap_cons, List.filterMap_append, hids, ih hrest, List.map_cons,
        List.flatMap_cons]

theorem microservices?_eq (h : graph.Consistent) : microservices? graph =
    if graph.crossLanguageEdges = [] then none
    else some (servicePattern graph.clustering.count graph.crossLanguageEdges.length
      (endpointsOf graph.crossLanguageEdges)) := by
  have hlinks := map_edge_linksBetweenClusters h
  have hsub : linksBetweenClusters graph ⊆ graph.links := List.filter_subset_self _
  have hends := ids_of_ends h hsub
  have hcount := congrArg List.length hlinks
  rw [List.length_map] at hcount
  rw [hlinks] at hends
  simp only [microservices?, hends, hcount]
  cases hfound : linksBetweenClusters graph with
  | nil =>
      rw [hfound, List.map_nil] at hlinks
      rw [if_pos hlinks.symm]
      simp
  | cons link links =>
      have hmem : link ∈ graph.links.filter (·.edge.crossLanguage) := by
        rw [← linksBetweenClusters_eq h, hfound]
        exact List.mem_cons_self
      obtain ⟨hm, hcross⟩ := List.mem_filter.mp hmem
      have htwo : ¬graph.clustering.count ≤ 1 := Nat.not_le.mpr (one_lt_count h hm hcross)
      rw [hfound] at hlinks
      simp [htwo, ← hlinks, endpointsOf]

/-- Services are reported exactly if there are edges between languages. The report counts all of
them, and it names the files at their ends in order, each once. -/
structure ReportsServices (graph : DependencyGraph) (found : Option Pattern) : Prop where
  isSome_iff : found.isSome ↔ graph.crossLanguageEdges ≠ []
  pattern_eq : ∀ pattern ∈ found, pattern =
    servicePattern graph.clustering.count graph.crossLanguageEdges.length pattern.nodes
  nodes_sorted : ∀ pattern ∈ found, pattern.nodes.Pairwise (· < ·)
  mem_nodes_iff : ∀ pattern ∈ found, ∀ id, id ∈ pattern.nodes ↔
    ∃ e ∈ graph.crossLanguageEdges, id = e.source ∨ id = e.target

theorem reportsServices_microservices? (h : graph.Consistent) :
    ReportsServices graph (microservices? graph) := by
  rw [microservices?_eq h]
  by_cases hnone : graph.crossLanguageEdges = []
  · rw [if_pos hnone]
    refine ⟨by simp [hnone], ?_, ?_, ?_⟩ <;> exact fun _ hm => absurd hm (Option.not_mem_none _)
  · rw [if_neg hnone]
    refine ⟨by simp [hnone], ?_, ?_, ?_⟩
    · rintro _ ⟨⟩
      rfl
    · rintro _ ⟨⟩
      exact pairwise_sortedTexts _
    · rintro _ ⟨⟩ id
      exact mem_sortedTexts.trans (by simp)

end Services

end CodeAtlas.Insight
