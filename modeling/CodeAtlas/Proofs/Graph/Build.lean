import CodeAtlas.Graph.Build
import CodeAtlas.Proofs.Graph.Consistent
import CodeAtlas.Proofs.Sorted

/-! The graphs that are built from parsed files are consistent. -/

namespace CodeAtlas.Graph

/-! ## Nodes -/

theorem ids_nodesOf (files : List ParsedFile) :
    (nodesOf files).map (·.id) = (distinctBy (fun f => f.1.relativePath)
      (files.filter fun f => f.2.success)).map fun f => f.1.relativePath := by
  rw [nodesOf, List.map_map]
  rfl

theorem pairwise_ids_nodesOf (files : List ParsedFile) :
    ((nodesOf files).map (·.id)).Pairwise (· < ·) := by
  rw [ids_nodesOf, List.pairwise_map]
  exact pairwise_distinctBy _ _

theorem mem_ids_nodesOf {files : List ParsedFile} {id : String} :
    id ∈ (nodesOf files).map (·.id) ↔
      ∃ file ∈ files, file.2.success ∧ file.1.relativePath = id := by
  rw [ids_nodesOf, mem_map_distinctBy]
  simp [and_assoc]

/-- Files in the order of their paths have their nodes in that order. -/
theorem nodesOf_eq_map {files : List ParsedFile} (hparsed : ∀ file ∈ files, file.2.success)
    (h : files.Pairwise fun a b => a.1.relativePath < b.1.relativePath) :
    nodesOf files = files.map nodeOf := by
  rw [nodesOf, List.filter_eq_self.mpr hparsed,
    distinctBy_eq_self (fun f : ParsedFile => f.1.relativePath) h]

/-- A file that was parsed and holds nothing but imports. -/
def parsedFile (path : String) (language : Language) (sources : List String) : ParsedFile :=
  (⟨path, path, language, ""⟩,
    .ofPrimary path language 0 ⟨[], [], sources.map (⟨·, .whole, [], 1⟩), 1, none⟩)

/-- An interface that a file provides or consumes under a path. -/
def endpoint (file : String) (language : Language) (type : InterfaceType) (role : InterfaceRole)
    (path : String) : InterfaceDescriptor :=
  ⟨language, file, type, "http", role, none, some path, []⟩

theorem consistent_ofNodes (files : List ParsedFile) : (ofNodes (nodesOf files)).Consistent :=
  DependencyGraph.consistent_foldl_addNode (pairwise_ids_nodesOf files)

@[simp] theorem nodes_ofNodes (nodes : List Node) : (ofNodes nodes).nodes = nodes :=
  DependencyGraph.foldl_addNode_nodes nodes

@[simp] theorem links_ofNodes (nodes : List Node) : (ofNodes nodes).links = [] :=
  DependencyGraph.foldl_addNode_links nodes

/-! ## Drawing edges -/

namespace Drawing

variable {κ : Type} {key? : Link → Option κ} {base : DependencyGraph} {drawing : Drawing κ}

/-- The graph that is drawn is consistent, and it is `base` with edges whose keys were noted. -/
structure Tracks (key? : Link → Option κ) (base : DependencyGraph) (drawing : Drawing κ) :
    Prop where
  consistent : drawing.graph.Consistent
  nodes_eq : drawing.graph.nodes = base.nodes
  noted : ∀ link ∈ drawing.graph.links,
    link ∈ base.links ∨ ∃ key ∈ drawing.seen, key? link = some key

theorem tracks_start (h : base.Consistent) : (start base).Tracks key? base :=
  ⟨h, rfl, fun _ hm => .inl hm⟩

theorem Tracks.note (h : drawing.Tracks key? base) (ambiguous : Option AmbiguousImport) :
    (drawing.note ambiguous).Tracks key? base :=
  ⟨h.consistent.noteAmbiguous ambiguous, h.nodes_eq, h.noted⟩

/-- An edge may be added when no edge with its key is there. -/
theorem Tracks.join [DecidableEq κ] (h : drawing.Tracks key? base) {key : κ} {link : Link}
    (hkey : key? link = some key)
    (hadd : (∀ other ∈ drawing.graph.links, other ∈ base.links ∨ key? other ≠ some key) →
      (drawing.graph.addLink link).Consistent) : (drawing.join key link).Tracks key? base := by
  unfold Drawing.join
  by_cases hseen : key ∈ drawing.seen
  · rw [if_pos hseen]
    exact h
  · rw [if_neg hseen]
    refine ⟨hadd ?_, h.nodes_eq, ?_⟩
    · intro other hm
      refine (h.noted other hm).imp_right ?_
      rintro ⟨noted, hnoted, hother⟩ hsame
      rw [hother, Option.some.injEq] at hsame
      exact hseen (hsame ▸ hnoted)
    · intro other hm
      rcases List.mem_append.mp hm with hm | hm
      · refine (h.noted other hm).imp_right ?_
        rintro ⟨noted, hnoted, hother⟩
        exact ⟨noted, List.mem_cons_of_mem key hnoted, hother⟩
      · rw [List.mem_singleton.mp hm]
        exact .inr ⟨key, List.mem_cons_self, hkey⟩

end Drawing

/-! ## Imports -/

/-- The key of an import. -/
def importKey? (link : Link) : Option ImportKey :=
  if link.edge.type = .imports then some (link.source, link.target) else none

theorem importKey?_eq_some {link : Link} {key : ImportKey} :
    importKey? link = some key ↔ link.edge.type = .imports ∧ (link.source, link.target) = key := by
  unfold importKey?
  by_cases h : link.edge.type = .imports
  · simp [h]
  · simp [h]

theorem mem_candidates {resolver : Resolver} {nodes : List Node} {position : Nat}
    {source : String} {target : Placed} (hm : target ∈ candidates resolver nodes position source) :
    nodes[target.2]? = some target.1 ∧ target.2 ≠ position := by
  obtain ⟨p, hp, htarget⟩ := List.mem_filterMap.mp hm
  obtain ⟨node, hn, rfl⟩ := Option.map_eq_some_iff.mp htarget
  exact ⟨hn, by simpa using (List.mem_filter.mp hp).2⟩

section Imports

variable (resolver : Resolver) {base : DependencyGraph} {drawing : Drawing ImportKey}

theorem tracks_addImport (h : drawing.Tracks importKey? base) (hbase : base.links = [])
    {source : Placed} (hs : base.nodes[source.2]? = some source.1) (declared : ImportDecl) :
    (addImport resolver base.nodes source drawing declared).Tracks importKey? base := by
  unfold addImport
  cases hfound : candidates resolver base.nodes source.2 declared.source with
  | nil => exact h
  | cons target rest =>
      have hm : target ∈ candidates resolver base.nodes source.2 declared.source := by
        simp [hfound]
      obtain ⟨ht, hne⟩ := mem_candidates hm
      have hnoted := h.note (ambiguous? source.1 declared.source (target :: rest))
      rw [← hnoted.nodes_eq] at hs ht
      have hid : source.1.id ≠ target.1.id :=
        fun hid => hne (hnoted.consistent.eq_of_id_eq hs ht hid).symm
      refine hnoted.join (importKey?_eq_some.mpr ⟨rfl, rfl⟩) ?_
      intro hfresh
      refine hnoted.consistent.addLink (Link.joins_ofImport hs ht hid) ?_ ?_
      · intro _ other hother htype hsame
        rcases hfresh other hother with hold | hkey
        · rw [hbase] at hold
          cases hold
        · exact hkey (importKey?_eq_some.mpr ⟨htype, hsame⟩)
      · intro htype
        cases htype

theorem tracks_addImports (h : base.Consistent) (hbase : base.links = []) :
    (base.nodes.zipIdx.foldl (addImportsOf resolver base.nodes) (.start base)).Tracks
      importKey? base := by
  refine List.foldlRecOn _ _ (Drawing.tracks_start h) ?_
  intro drawing hdrawing source hm
  refine List.foldlRecOn _ _ hdrawing ?_
  intro drawing hdrawing declared _
  refine tracks_addImport resolver hdrawing hbase ?_ declared
  simpa using List.mem_zipIdx_iff_getElem?.mp hm

theorem consistent_addImports (h : base.Consistent) (hbase : base.links = []) :
    (addImports resolver base).Consistent :=
  (tracks_addImports resolver h hbase).consistent

theorem nodes_addImports (h : base.Consistent) (hbase : base.links = []) :
    (addImports resolver base).nodes = base.nodes :=
  (tracks_addImports resolver h hbase).nodes_eq

theorem type_addImports (h : base.Consistent) (hbase : base.links = []) :
    ∀ link ∈ (addImports resolver base).links, link.edge.type = .imports := by
  intro link hm
  rcases (tracks_addImports resolver h hbase).noted link hm with hold | ⟨key, -, hkey⟩
  · rw [hbase] at hold
    cases hold
  · exact (importKey?_eq_some.mp hkey).1

end Imports

/-! ## Interfaces -/

/-- The key of an edge for an interface. -/
def contactKey? (link : Link) : Option ContactKey :=
  link.edge.interfaceType.map (contactKey link)

/-- The direction of a link makes no difference to its key. -/
theorem contactKey_congr {a b : Link} (h : s(a.source, a.target) = s(b.source, b.target))
    (type : InterfaceType) : contactKey a type = contactKey b type := by
  rcases Sym2.eq_iff.mp h with ⟨hs, ht⟩ | ⟨hs, ht⟩
  · simp [contactKey, hs, ht]
  · simp [contactKey, hs, ht, min_comm, max_comm]

theorem mem_located_iff {graph : DependencyGraph} (h : graph.Consistent)
    {descriptors : List InterfaceDescriptor} {found : Located} :
    found ∈ located graph descriptors ↔ found.1 ∈ descriptors ∧
      graph.nodes[found.2.2]? = some found.2.1 ∧ found.2.1.id = found.1.file := by
  obtain ⟨descriptor, placed⟩ := found
  simp only [located, mem_sortedBy, List.mem_filterMap, Option.map_eq_some_iff, Prod.mk.injEq]
  constructor
  · rintro ⟨d, hd, other, hother, rfl, rfl⟩
    exact ⟨hd, h.placed?_iff.mp hother⟩
  · rintro ⟨hd, hplaced⟩
    exact ⟨descriptor, hd, placed, h.placed?_iff.mpr hplaced, rfl, rfl⟩

/-- The interfaces of a file are located in the order in which they came. -/
theorem filter_located (graph : DependencyGraph) (descriptors : List InterfaceDescriptor)
    (file : String) :
    (located graph descriptors).filter (·.1.file = file) =
      (descriptors.filter (·.file = file)).filterMap fun d =>
        (graph.placed? d.file).map (d, ·) := by
  rw [located, filter_sortedBy (fun d : Located => d.1.file), List.filter_filterMap,
    List.filterMap_filter]
  refine List.filterMap_congr fun d _ => ?_
  by_cases hfile : d.file = file <;> cases graph.placed? d.file <;> simp [hfile]

theorem pairwise_located (graph : DependencyGraph) (descriptors : List InterfaceDescriptor) :
    (located graph descriptors).Pairwise fun a b => a.1.file ≤ b.1.file :=
  pairwise_sortedBy _ _

/-- It makes no difference how interfaces of different files stand to each other. -/
theorem located_congr (graph : DependencyGraph) {descriptors others : List InterfaceDescriptor}
    (h : ∀ file, descriptors.filter (·.file = file) = others.filter (·.file = file)) :
    located graph descriptors = located graph others := by
  refine eq_of_pairwise_le (fun d => d.1.file) (pairwise_located graph descriptors)
    (pairwise_located graph others) fun file => ?_
  rw [filter_located, filter_located, h]

/-- The interfaces of files that are not in the graph are left out. -/
theorem located_filter {graph : DependencyGraph} (h : graph.Consistent)
    (descriptors : List InterfaceDescriptor) :
    located graph (descriptors.filter (·.file ∈ graph.ids)) = located graph descriptors := by
  rw [located, located, List.filterMap_filter]
  refine congrArg (sortedBy _) (List.filterMap_congr fun d _ => ?_)
  by_cases hfile : d.file ∈ graph.ids
  · rw [if_pos (decide_eq_true hfile)]
  · rw [if_neg (by simpa using hfile), h.placed?_eq_none_iff.mpr hfile, Option.map_none]

theorem contactLink_type (a b : Located) (type : InterfaceType) :
    (contactLink a b type).edge.type = .interface ∧
      (contactLink a b type).edge.interfaceType = some type := by
  unfold contactLink
  split
  · exact ⟨rfl, rfl⟩
  · exact ⟨rfl, rfl⟩

theorem contactLink_joins {nodes : List Node} {a b : Located} (type : InterfaceType)
    (ha : nodes[a.2.2]? = some a.2.1) (hb : nodes[b.2.2]? = some b.2.1)
    (hne : a.2.1.id ≠ b.2.1.id) : (contactLink a b type).Joins nodes := by
  unfold contactLink
  split
  · exact Link.joins_ofInterface type hb ha hne.symm
  · exact Link.joins_ofInterface type ha hb hne

section Interfaces

variable {base : DependencyGraph} {drawing : Drawing ContactKey}

theorem tracks_addContact (h : drawing.Tracks contactKey? base)
    (hbase : ∀ link ∈ base.links, link.edge.type = .imports) {a b : Located}
    (ha : base.nodes[a.2.2]? = some a.2.1) (hb : base.nodes[b.2.2]? = some b.2.1) :
    (addContact drawing (a, b)).Tracks contactKey? base := by
  unfold addContact
  by_cases hsame : a.2.2 = b.2.2
  · rw [if_pos hsame]
    exact h
  · rw [if_neg hsame]
    cases sharedType? a.1 b.1 with
    | none => exact h
    | some type =>
        obtain ⟨htype, hinterface⟩ := contactLink_type a b type
        rw [← h.nodes_eq] at ha hb
        have hid : a.2.1.id ≠ b.2.1.id :=
          fun hid => hsame (h.consistent.eq_of_id_eq ha hb hid)
        refine h.join (by rw [contactKey?, hinterface, Option.map_some]) ?_
        intro hfresh
        refine h.consistent.addLink (contactLink_joins type ha hb hid) ?_ ?_
        · intro himport
          rw [htype] at himport
          cases himport
        · intro _ other hother hotype hshared hends
          rcases hfresh other hother with hold | hkey
          · rw [hbase other hold] at hotype
            cases hotype
          · rw [hinterface] at hshared
            refine hkey ?_
            rw [contactKey?, hshared, Option.map_some, contactKey_congr hends]

theorem tracks_addInterfaces (h : base.Consistent)
    (hbase : ∀ link ∈ base.links, link.edge.type = .imports)
    (descriptors : List InterfaceDescriptor) :
    ((pairsInOrder (located base descriptors)).foldl addContact (.start base)).Tracks
      contactKey? base := by
  refine List.foldlRecOn _ _ (Drawing.tracks_start h) ?_
  intro drawing hdrawing pair hm
  obtain ⟨ha, hb⟩ := mem_of_mem_pairsInOrder hm
  exact tracks_addContact hdrawing hbase ((mem_located_iff h).mp ha).2.1
    ((mem_located_iff h).mp hb).2.1

end Interfaces

/-! ## The graph -/

section Build

variable (resolver : Resolver) (files : List ParsedFile) (descriptors : List InterfaceDescriptor)

theorem tracks_build :
    ((pairsInOrder (located (addImports resolver (ofNodes (nodesOf files))) descriptors)).foldl
      addContact (.start (addImports resolver (ofNodes (nodesOf files))))).Tracks contactKey?
        (addImports resolver (ofNodes (nodesOf files))) := by
  have hnodes := consistent_ofNodes files
  have hlinks := links_ofNodes (nodesOf files)
  exact tracks_addInterfaces (consistent_addImports resolver hnodes hlinks)
    (type_addImports resolver hnodes hlinks) descriptors

theorem consistent_build : (build resolver files descriptors).Consistent :=
  (tracks_build resolver files descriptors).consistent

theorem nodes_build : (build resolver files descriptors).nodes = nodesOf files := by
  have h := nodes_addImports resolver (consistent_ofNodes files) (links_ofNodes (nodesOf files))
  rw [nodes_ofNodes] at h
  exact (tracks_build resolver files descriptors).nodes_eq.trans h

/-- Every graph that is built is consistent, a node is found by its id alone, and the ids are the
paths of the files that were parsed. -/
theorem consistent_build_and_mem_ids_iff :
    (build resolver files descriptors).Consistent ∧
      (∀ id node, (build resolver files descriptors).node? id = some node ↔
        node ∈ (build resolver files descriptors).nodes ∧ node.id = id) ∧
      ∀ id, id ∈ (build resolver files descriptors).ids ↔
        ∃ file ∈ files, file.2.success ∧ file.1.relativePath = id := by
  refine ⟨consistent_build resolver files descriptors, ?_, ?_⟩
  · intro id node
    exact (consistent_build resolver files descriptors).node?_iff
  · intro id
    rw [DependencyGraph.ids, nodes_build]
    exact mem_ids_nodesOf

end Build

/-! ## Other orders -/

/-- The order of files with different paths makes no difference to the graph, and neither does that
of the interfaces, as long as those of each file keep theirs. -/
theorem build_eq_of_perm (resolver : Resolver) {files others : List ParsedFile}
    (hfiles : files.Perm others) (hpaths : (files.map (·.1.relativePath)).Nodup)
    {descriptors rearranged : List InterfaceDescriptor}
    (hdescriptors : ∀ file, descriptors.filter (·.file = file) =
      rearranged.filter (·.file = file)) :
    build resolver files descriptors = build resolver others rearranged := by
  have hparsed : ((files.filter (·.2.success)).map (·.1.relativePath)).Nodup :=
    hpaths.sublist (List.filter_sublist.map _)
  have hnodes : nodesOf files = nodesOf others :=
    congrArg (List.map nodeOf) (distinctBy_eq_of_perm _ (hfiles.filter _) hparsed)
  rw [build, build, hnodes, addInterfaces, addInterfaces, located_congr _ hdescriptors]

/-- Two files that were parsed and one that was not. -/
def mixedFiles : List ParsedFile :=
  [parsedFile "a.py" .python ["b"], parsedFile "b.go" .go [],
    (⟨"c.rs", "c.rs", .rust, ""⟩, { (parsedFile "c.rs" .rust []).2 with success := false })]

def mixedEndpoints : List InterfaceDescriptor :=
  [endpoint "a.py" .python .rest .consumer "/x", endpoint "a.py" .python .rest .provider "/y",
    endpoint "b.go" .go .rest .provider "/x", endpoint "c.rs" .rust .rest .consumer "/y"]

/-- The same interfaces with those of other files between those of the first file. -/
def shuffledEndpoints : List InterfaceDescriptor :=
  [endpoint "c.rs" .rust .rest .consumer "/y", endpoint "a.py" .python .rest .consumer "/x",
    endpoint "b.go" .go .rest .provider "/x", endpoint "a.py" .python .rest .provider "/y"]

theorem build_mixedFiles_reverse :
    build .substring mixedFiles mixedEndpoints =
      build .substring mixedFiles.reverse shuffledEndpoints := by
  apply build_eq_of_perm
  · exact mixedFiles.reverse_perm.symm
  · decide
  · intro file
    by_cases ha : file = "a.py"
    · subst ha
      rfl
    · by_cases hb : file = "b.go"
      · subst hb
        rfl
      · simp [mixedEndpoints, shuffledEndpoints, endpoint, List.filter_cons, eq_comm, ha, hb]

end CodeAtlas.Graph
