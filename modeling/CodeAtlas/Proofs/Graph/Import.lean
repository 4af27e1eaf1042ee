import CodeAtlas.Proofs.Graph.Contact
import Mathlib.Data.List.Range

/-! Edges for imports: each leads to the first of the files that the source of an import may mean. If
there are several such files, all of them are recorded. -/

namespace CodeAtlas.Graph

/-! ## Resolvers -/

/-- A resolver that names candidates in the order of their positions. -/
def Resolver.InOrder (resolver : Resolver) : Prop :=
  ∀ source candidates, (resolver.resolve source candidates).Pairwise (· ≤ ·)

theorem pairwise_positionsWhere (p : String → Bool) (candidates : List String) :
    (positionsWhere p candidates).Pairwise (· ≤ ·) := by
  have hall : (candidates.zipIdx.map (·.2)).Pairwise (· ≤ ·) := by
    rw [List.zipIdx_map_snd]
    exact List.pairwise_le_range'
  exact hall.sublist (List.filter_sublist.map _)

theorem Resolver.inOrder_substring : substring.InOrder := by
  intro source candidates
  unfold substring
  dsimp only
  split
  · exact .nil
  · exact pairwise_positionsWhere _ _

theorem Resolver.inOrder_exact : exact.InOrder :=
  fun source candidates => pairwise_positionsWhere (· == source) candidates

theorem Resolver.inOrder_never : never.InOrder :=
  fun _ _ => .nil

/-! ## Matches -/

/-- The files that an import of the file `self` may mean, in the order of their ids: those that the
resolver names, but for the file itself. -/
def matchesOf (resolver : Resolver) (ids : List String) (self source : String) : List String :=
  sortedBy id (((resolver.resolve source ids).filterMap (ids[·]?)).filter (· ≠ self))

/-- The record of an import that may mean several files. -/
def ambiguity? (resolver : Resolver) (ids : List String) (self source : String) :
    Option AmbiguousImport :=
  match matchesOf resolver ids self source with
  | chosen :: second :: rest => some ⟨self, source, chosen, chosen :: second :: rest⟩
  | _ => none

section Matches

variable {resolver : Resolver} (hr : resolver.InOrder) {base : DependencyGraph}
  (h : base.Consistent) {source : Placed} (hs : base.nodes[source.2]? = some source.1)
  (text : String)
include hr h hs

/-- The candidates of an import stand in the order of their ids. -/
theorem ids_candidates :
    (candidates resolver base.nodes source.2 text).map (·.1.id) =
      matchesOf resolver base.ids source.1.id text := by
  have hfound : (candidates resolver base.nodes source.2 text).map (·.1.id) =
      ((resolver.resolve text base.ids).filterMap (base.ids[·]?)).filter (· ≠ source.1.id) := by
    rw [candidates, List.map_filterMap, List.filterMap_filter, List.filter_filterMap]
    refine List.filterMap_congr fun position _ => ?_
    rw [DependencyGraph.ids, List.getElem?_map]
    cases hn : base.nodes[position]? with
    | none => simp
    | some node =>
        have hself := h.position_eq_iff hn hs
        by_cases hid : node.id = source.1.id
        · simp [hself.mpr hid, hid, Option.filter_some]
        · simp [mt hself.mp hid, hid, Option.filter_some]
  have hsorted : (((resolver.resolve text base.ids).filterMap (base.ids[·]?)).filter
      (· ≠ source.1.id)).Pairwise (· ≤ ·) := by
    refine List.Pairwise.filter _ (List.pairwise_filterMap.mpr ?_)
    refine (hr text base.ids).imp ?_
    intro p q hle a ha b hb
    rw [DependencyGraph.ids, List.getElem?_map, Option.map_eq_some_iff] at ha hb
    obtain ⟨node, hp, rfl⟩ := ha
    obtain ⟨other, hq, rfl⟩ := hb
    exact h.id_le hp hq hle
  rw [hfound, matchesOf, sortedBy_eq_self id hsorted]

theorem ambiguous?_candidates :
    ambiguous? source.1 text (candidates resolver base.nodes source.2 text) =
      ambiguity? resolver base.ids source.1.id text := by
  rw [ambiguity?, ← ids_candidates hr h hs text]
  match candidates resolver base.nodes source.2 text with
  | [] => rfl
  | [_] => rfl
  | _ :: _ :: _ => rfl

end Matches

/-! ## The links on offer -/

/-- The link that an import of a node offers, with its key. -/
def importOffer? (resolver : Resolver) (nodes : List Node) (source : Placed)
    (declared : ImportDecl) : Option (ImportKey × Link) :=
  (candidates resolver nodes source.2 declared.source).head?.map fun target =>
    ((source.2, target.2), .ofImport source target)

/-- The links that the imports of all nodes offer, in the order in which they are met. -/
def importOffers (resolver : Resolver) (nodes : List Node) : List (ImportKey × Link) :=
  nodes.zipIdx.flatMap fun source => source.1.imports.filterMap (importOffer? resolver nodes source)

section Offers

variable (resolver : Resolver) (nodes : List Node) {base : DependencyGraph}
  {drawing : Drawing ImportKey}

theorem draws_addImport {offers : List (ImportKey × Link)} (h : drawing.Draws offers base)
    (source : Placed) (declared : ImportDecl) :
    (addImport resolver nodes source drawing declared).Draws
      (offers ++ (importOffer? resolver nodes source declared).toList) base := by
  unfold addImport importOffer?
  cases candidates resolver nodes source.2 declared.source with
  | nil => simpa using h
  | cons target rest => exact (h.note _).join (source.2, target.2) (.ofImport source target)

variable (base) in
theorem draws_addImports :
    (nodes.zipIdx.foldl (addImportsOf resolver nodes) (.start base)).Draws
      (importOffers resolver nodes) base := by
  refine Drawing.draws_start.foldl ?_ nodes.zipIdx
  intro offers drawing source hdrawing
  rw [List.filterMap_eq_flatMap_toList]
  refine hdrawing.foldl ?_ source.1.imports
  intro offers drawing declared hdrawing
  exact draws_addImport resolver nodes hdrawing source declared

theorem ambiguousImports_addImport (source : Placed) (declared : ImportDecl) :
    (addImport resolver nodes source drawing declared).graph.ambiguousImports =
      drawing.graph.ambiguousImports ++
        (ambiguous? source.1 declared.source
          (candidates resolver nodes source.2 declared.source)).toList := by
  unfold addImport
  cases candidates resolver nodes source.2 declared.source with
  | nil => simp [ambiguous?]
  | cons target rest => rw [Drawing.ambiguousImports_join]; rfl

theorem ambiguousImports_addImportsOf (drawing : Drawing ImportKey) (source : Placed) :
    (addImportsOf resolver nodes drawing source).graph.ambiguousImports =
      drawing.graph.ambiguousImports ++ source.1.imports.flatMap fun declared =>
        (ambiguous? source.1 declared.source
          (candidates resolver nodes source.2 declared.source)).toList :=
  Drawing.ambiguousImports_foldl
    (fun _ declared => ambiguousImports_addImport resolver nodes source declared)
    drawing source.1.imports

end Offers

theorem mem_importOffers {resolver : Resolver} {nodes : List Node} {key : ImportKey}
    {link : Link} :
    (key, link) ∈ importOffers resolver nodes ↔
      ∃ source : Placed, nodes[source.2]? = some source.1 ∧ ∃ declared ∈ source.1.imports,
        ∃ target, (candidates resolver nodes source.2 declared.source).head? = some target ∧
          (source.2, target.2) = key ∧ .ofImport source target = link := by
  simp only [importOffers, importOffer?, List.mem_flatMap, List.mem_filterMap,
    List.mem_zipIdx_iff_getElem?, Option.map_eq_some_iff, Prod.mk.injEq]

/-- A key has one link on offer. -/
theorem eq_of_mem_importOffers {resolver : Resolver} {nodes : List Node} {key : ImportKey}
    {link other : Link} (hm : (key, link) ∈ importOffers resolver nodes)
    (ho : (key, other) ∈ importOffers resolver nodes) : link = other := by
  obtain ⟨⟨a, p⟩, ha, _, _, ⟨b, q⟩, htarget, rfl, rfl⟩ := mem_importOffers.mp hm
  obtain ⟨⟨c, i⟩, hc, _, _, ⟨d, j⟩, hother, hkey, rfl⟩ := mem_importOffers.mp ho
  have hb := (mem_candidates (List.mem_of_head? htarget)).1
  have hd := (mem_candidates (List.mem_of_head? hother)).1
  -- A position has one node.
  cases hkey
  cases ha.symm.trans hc
  cases hb.symm.trans hd
  rfl

/-- A link is drawn for the first candidate of each import. -/
theorem mem_links_addImports {resolver : Resolver} {base : DependencyGraph}
    (hbase : base.links = []) {link : Link} :
    link ∈ (addImports resolver base).links ↔
      ∃ source : Placed, base.nodes[source.2]? = some source.1 ∧ ∃ declared ∈ source.1.imports,
        ∃ target, (candidates resolver base.nodes source.2 declared.source).head? = some target ∧
          .ofImport source target = link := by
  have hdraws := draws_addImports resolver base.nodes base
  rw [addImports, hdraws.mem_links_iff, hbase]
  constructor
  · rintro (hold | ⟨key, hkey⟩)
    · cases hold
    · obtain ⟨source, hs, declared, hd, target, htarget, -, hlink⟩ :=
        mem_importOffers.mp (Drawing.mem_of_firstOffer? hkey)
      exact ⟨source, hs, declared, hd, target, htarget, hlink⟩
  · rintro ⟨source, hs, declared, hd, target, htarget, hlink⟩
    have hm := mem_importOffers.mpr ⟨source, hs, declared, hd, target, htarget, rfl, hlink⟩
    exact .inr ⟨_, (Drawing.firstOffer?_eq_some_iff fun other ho =>
      eq_of_mem_importOffers ho hm).mpr hm⟩

/-! ## Resolved imports -/

/-- The imports of a graph are resolved: each leads to the first of the files that its source may
mean. If there are several such files, all of them are recorded, in the order in which the nodes and
their imports come, and an edge leads to the first one. -/
structure ResolvesImports (resolver : Resolver) (graph : DependencyGraph) : Prop where
  imports_iff : ∀ s d, (∃ e ∈ graph.edges, e.type = .imports ∧ e.source = s ∧ e.target = d) ↔
    ∃ node ∈ graph.nodes, node.id = s ∧ ∃ declared ∈ node.imports,
      (matchesOf resolver graph.ids s declared.source).head? = some d
  ambiguousImports_eq : graph.ambiguousImports = graph.nodes.flatMap fun node =>
    node.imports.filterMap fun declared => ambiguity? resolver graph.ids node.id declared.source
  chosen_joined : ∀ record ∈ graph.ambiguousImports,
    ∃ e ∈ graph.edges, e.type = .imports ∧ e.source = record.file ∧ e.target = record.chosen

theorem head?_of_ambiguity? {resolver : Resolver} {ids : List String} {self source : String}
    {record : AmbiguousImport} (h : ambiguity? resolver ids self source = some record) :
    record.file = self ∧ (matchesOf resolver ids self source).head? = some record.chosen := by
  unfold ambiguity? at h
  split at h
  · next hmatches =>
      cases h
      exact ⟨rfl, by rw [hmatches]; rfl⟩
  · cases h

/-- Where the edges and the records are right the edges of the records are there. -/
theorem resolvesImports_of {resolver : Resolver} {graph : DependencyGraph}
    (himports : ∀ s d, (∃ e ∈ graph.edges, e.type = .imports ∧ e.source = s ∧ e.target = d) ↔
      ∃ node ∈ graph.nodes, node.id = s ∧ ∃ declared ∈ node.imports,
        (matchesOf resolver graph.ids s declared.source).head? = some d)
    (hambiguous : graph.ambiguousImports = graph.nodes.flatMap fun node =>
      node.imports.filterMap fun declared =>
        ambiguity? resolver graph.ids node.id declared.source) :
    ResolvesImports resolver graph where
  imports_iff := himports
  ambiguousImports_eq := hambiguous
  chosen_joined := by
    intro record hrecord
    rw [hambiguous, List.mem_flatMap] at hrecord
    obtain ⟨node, hnode, hrecord⟩ := hrecord
    obtain ⟨declared, hdeclared, hrecord⟩ := List.mem_filterMap.mp hrecord
    obtain ⟨hfile, hchosen⟩ := head?_of_ambiguity? hrecord
    rw [hfile]
    exact (himports node.id record.chosen).mpr ⟨node, hnode, rfl, declared, hdeclared, hchosen⟩

section Resolved

variable {resolver : Resolver} (hr : resolver.InOrder) {base : DependencyGraph}
  (h : base.Consistent)
include hr h

/-- The edges for imports lead to the first matches. -/
theorem imports_addImports_iff (hbase : base.links = []) (s d : String) :
    (∃ e ∈ (addImports resolver base).edges, e.type = .imports ∧ e.source = s ∧ e.target = d) ↔
      ∃ node ∈ base.nodes, node.id = s ∧ ∃ declared ∈ node.imports,
        (matchesOf resolver base.ids s declared.source).head? = some d := by
  constructor
  · rintro ⟨e, he, -, rfl, rfl⟩
    obtain ⟨link, hlink, rfl⟩ := List.mem_map.mp he
    obtain ⟨source, hs, declared, hd, target, htarget, rfl⟩ :=
      (mem_links_addImports hbase).mp hlink
    refine ⟨source.1, List.mem_of_getElem? hs, rfl, declared, hd, ?_⟩
    change (matchesOf resolver base.ids source.1.id declared.source).head? = some target.1.id
    rw [← ids_candidates hr h hs, List.head?_map, htarget, Option.map_some]
  · rintro ⟨node, hm, rfl, declared, hd, hfirst⟩
    obtain ⟨position, hs⟩ := List.mem_iff_getElem?.mp hm
    have hplaced : base.nodes[(node, position).2]? = some (node, position).1 := hs
    rw [← ids_candidates hr h hplaced, List.head?_map, Option.map_eq_some_iff] at hfirst
    obtain ⟨target, htarget, rfl⟩ := hfirst
    have hlink := (mem_links_addImports hbase).mpr
      ⟨(node, position), hs, declared, hd, target, htarget, rfl⟩
    exact ⟨_, List.mem_map_of_mem hlink, rfl, rfl, rfl⟩

/-- The ambiguous imports are recorded node by node. -/
theorem ambiguousImports_addImports (hnone : base.ambiguousImports = []) :
    (addImports resolver base).ambiguousImports = base.nodes.flatMap fun node =>
      node.imports.filterMap fun declared =>
        ambiguity? resolver base.ids node.id declared.source := by
  have hrecords : ∀ source ∈ base.nodes.zipIdx,
      (source.1.imports.flatMap fun declared => (ambiguous? source.1 declared.source
        (candidates resolver base.nodes source.2 declared.source)).toList) =
      source.1.imports.filterMap fun declared =>
        ambiguity? resolver base.ids source.1.id declared.source := by
    intro source hm
    have hs := List.mem_zipIdx_iff_getElem?.mp hm
    simp only [ambiguous?_candidates hr h hs, ← List.filterMap_eq_flatMap_toList]
  have hstart : (Drawing.start (κ := ImportKey) base).graph.ambiguousImports = [] := hnone
  rw [addImports, Drawing.ambiguousImports_foldl (ambiguousImports_addImportsOf resolver base.nodes),
    List.flatMap_congr hrecords, hstart, List.nil_append]
  -- The positions of the nodes are not in the records.
  conv_rhs => rw [← List.zipIdx_map_fst 0 base.nodes, List.flatMap_map]

end Resolved

/-- The imports of every graph that is built are resolved, if the resolver names the files in
order. -/
theorem resolvesImports_build {resolver : Resolver} (hr : resolver.InOrder)
    (files : List ParsedFile) (descriptors : List InterfaceDescriptor) :
    ResolvesImports resolver (build resolver files descriptors) := by
  have h := consistent_ofNodes files
  have hbase := links_ofNodes (nodesOf files)
  have hnone : (ofNodes (nodesOf files)).ambiguousImports = [] :=
    DependencyGraph.foldl_addNode_ambiguousImports (nodesOf files)
  have hnodes : (build resolver files descriptors).nodes = (ofNodes (nodesOf files)).nodes := by
    rw [nodes_build, nodes_ofNodes]
  have hids : (build resolver files descriptors).ids = (ofNodes (nodesOf files)).ids := by
    rw [DependencyGraph.ids, hnodes, DependencyGraph.ids]
  refine resolvesImports_of ?_ ?_
  · intro s d
    rw [hnodes, hids, ← imports_addImports_iff hr h hbase]
    exact exists_congr fun e => and_congr_left fun hends =>
      mem_edges_addInterfaces descriptors hends.1
  · rw [hnodes, hids, ← ambiguousImports_addImports hr h hnone]
    exact ambiguousImports_addInterfaces _ descriptors

/-- The file `main.ts` imports itself and, twice, a source that two other files match. -/
def users : List ParsedFile :=
  [parsedFile "api/users.py" .python [], parsedFile "main.ts" .typeScript ["users", "./main", "users"],
    parsedFile "web/users.ts" .typeScript []]

def usersRecord : AmbiguousImport :=
  ⟨"main.ts", "users", "api/users.py", ["api/users.py", "web/users.ts"]⟩

/-- Both imports that two files match are recorded, and an edge leads to the first of these. -/
theorem users_resolved :
    Resolver.substring.InOrder ∧
      (build .substring users []).ambiguousImports = [usersRecord, usersRecord] ∧
      ∃ e ∈ (build .substring users []).edges,
        e.type = .imports ∧ e.source = "main.ts" ∧ e.target = "api/users.py" := by
  have hresolved := resolvesImports_build Resolver.inOrder_substring users []
  have hnodes : (build .substring users []).nodes = users.map nodeOf :=
    (nodes_build .substring users []).trans (nodesOf_eq_map (by decide) (by decide))
  have hids : (build .substring users []).ids = ["api/users.py", "main.ts", "web/users.ts"] := by
    rw [DependencyGraph.ids, hnodes]
    rfl
  have hmatches : matchesOf .substring ["api/users.py", "main.ts", "web/users.ts"] "main.ts"
      "users" = ["api/users.py", "web/users.ts"] :=
    (congrArg (sortedBy id) (by decide +kernel)).trans (sortedBy_eq_self id (by decide))
  have hself : matchesOf .substring ["api/users.py", "main.ts", "web/users.ts"] "main.ts"
      "./main" = [] :=
    (congrArg (sortedBy id) (by decide +kernel)).trans (sortedBy_eq_self id (by decide))
  have hrecords : (build .substring users []).ambiguousImports = [usersRecord, usersRecord] := by
    rw [hresolved.ambiguousImports_eq, hnodes, hids]
    simp [users, parsedFile, nodeOf, ParseResult.ofPrimary, ambiguity?, hmatches, hself, usersRecord]
  refine ⟨Resolver.inOrder_substring, hrecords, ?_⟩
  exact hresolved.chosen_joined usersRecord (by simp [hrecords])

end CodeAtlas.Graph
