import CodeAtlas.Proofs.Graph.Drawing

/-! Edges for interfaces: two files are joined by one edge for each family through which interfaces
of theirs correspond, and the first two that correspond decide where the edge leads. -/

namespace CodeAtlas

namespace DependencyGraph

/-- The edges that join two files for a family of interfaces, whichever way they lead. -/
def contacts (graph : DependencyGraph) (x y : String) (type : InterfaceType) : List Edge :=
  graph.edges.filter fun e => e.type = .interface ∧ e.interfaceType = some type ∧
    (e.source = x ∧ e.target = y ∨ e.source = y ∧ e.target = x)

theorem mem_contacts {graph : DependencyGraph} {x y : String} {type : InterfaceType} {e : Edge} :
    e ∈ graph.contacts x y type ↔ e ∈ graph.edges ∧ e.type = .interface ∧
      e.interfaceType = some type ∧
        (e.source = x ∧ e.target = y ∨ e.source = y ∧ e.target = x) := by
  simp [contacts]

namespace Consistent

variable {graph : DependencyGraph}

/-- An edge for an interface joins two files, one of which comes first. -/
theorem exists_mem_contacts (h : graph.Consistent) {e : Edge} (he : e ∈ graph.edges)
    {type : InterfaceType} (htype : e.interfaceType = some type) :
    ∃ x ∈ graph.nodes, ∃ y ∈ graph.nodes, x.id < y.id ∧ e ∈ graph.contacts x.id y.id type := by
  obtain ⟨link, hlink, rfl⟩ := List.mem_map.mp he
  obtain ⟨u, v, hu, hv, hne, hsource, htarget, -, hkind⟩ := h.joins link hlink
  have hinterface : link.edge.type = .interface := hkind.mp (by rw [htype]; rfl)
  have hmu := List.mem_of_getElem? hu
  have hmv := List.mem_of_getElem? hv
  rcases lt_or_gt_of_ne hne with hlt | hlt
  · exact ⟨u, hmu, v, hmv, hlt, mem_contacts.mpr
      ⟨he, hinterface, htype, .inl ⟨hsource, htarget⟩⟩⟩
  · exact ⟨v, hmv, u, hmu, hlt, mem_contacts.mpr
      ⟨he, hinterface, htype, .inr ⟨hsource, htarget⟩⟩⟩

/-- A link joins the positions of the files that its edge names. -/
theorem ends_eq (h : graph.Consistent) {link : Link} (hlink : link ∈ graph.links) {p q : Nat}
    {x y : Node} (hp : graph.nodes[p]? = some x) (hq : graph.nodes[q]? = some y)
    (hends : link.edge.source = x.id ∧ link.edge.target = y.id ∨
      link.edge.source = y.id ∧ link.edge.target = x.id) :
    s(link.source, link.target) = s(p, q) := by
  obtain ⟨source, target, hs, ht, -, hsource, htarget, -⟩ := h.joins link hlink
  rw [hsource, htarget] at hends
  rcases hends with ⟨hx, hy⟩ | ⟨hy, hx⟩
  · rw [h.eq_of_id_eq hs hp hx, h.eq_of_id_eq ht hq hy]
  · rw [h.eq_of_id_eq hs hq hy, h.eq_of_id_eq ht hp hx, Sym2.eq_swap]

/-- At most one edge joins two files for a family of interfaces. -/
theorem length_contacts_le_one (h : graph.Consistent) {x y : Node} (hx : x ∈ graph.nodes)
    (hy : y ∈ graph.nodes) (type : InterfaceType) : (graph.contacts x.id y.id type).length ≤ 1 := by
  obtain ⟨p, hp⟩ := List.mem_iff_getElem?.mp hx
  obtain ⟨q, hq⟩ := List.mem_iff_getElem?.mp hy
  have hnever : (graph.contacts x.id y.id type).Pairwise fun _ _ => False := by
    rw [contacts, edges, List.filter_map, List.pairwise_map, List.pairwise_filter]
    refine h.interfaces_once.imp_of_mem ?_
    intro a b ha hb honce hatest hbtest
    simp only [Function.comp_apply, decide_eq_true_eq] at hatest hbtest
    obtain ⟨hatype, hafamily, haends⟩ := hatest
    obtain ⟨hbtype, hbfamily, hbends⟩ := hbtest
    refine honce hatype hbtype (hafamily.trans hbfamily.symm) ?_
    rw [h.ends_eq ha hp hq haends, h.ends_eq hb hp hq hbends]
  cases hcontacts : graph.contacts x.id y.id type with
  | nil => exact Nat.zero_le 1
  | cons first rest =>
      cases rest with
      | nil => exact le_rfl
      | cons second rest =>
          rw [hcontacts] at hnever
          exact (List.rel_of_pairwise_cons hnever List.mem_cons_self).elim

end Consistent

end DependencyGraph

namespace Graph

/-! ## Corresponding interfaces -/

/-- The interfaces of two files that correspond through a family, in the order in which they are
compared. -/
def correspondences (descriptors : List InterfaceDescriptor) (x y : String)
    (type : InterfaceType) : List (InterfaceDescriptor × InterfaceDescriptor) :=
  (descriptors.filter (·.file = x) ×ˢ descriptors.filter (·.file = y)).filter fun pair =>
    sharedType? pair.1 pair.2 = some type

theorem mem_correspondences {descriptors : List InterfaceDescriptor} {x y : String}
    {type : InterfaceType} {a b : InterfaceDescriptor} :
    (a, b) ∈ correspondences descriptors x y type ↔
      (a ∈ descriptors ∧ a.file = x) ∧ (b ∈ descriptors ∧ b.file = y) ∧
        sharedType? a b = some type := by
  simp [correspondences, List.mem_product, and_assoc]

private theorem map_product_map {α β γ δ : Type} (f : α → γ) (g : β → δ) (xs : List α)
    (ys : List β) : xs.map f ×ˢ ys.map g = (xs ×ˢ ys).map (Prod.map f g) := by
  induction xs with
  | nil => rfl
  | cons x xs ih => simp [ih, Function.comp_def]

private theorem eq_toList_of_mem_iff {α : Type} {items : List α} {found : Option α}
    (honce : items.length ≤ 1) (h : ∀ item, item ∈ items ↔ found = some item) :
    items = found.toList := by
  cases found with
  | none => exact List.eq_nil_iff_forall_not_mem.mpr fun item hm => nomatch (h item).mp hm
  | some item =>
      have hm : item ∈ items := (h item).mpr rfl
      have hlength : items.length = 1 := le_antisymm honce (List.length_pos_of_mem hm)
      obtain ⟨only, rfl⟩ := List.length_eq_one_iff.mp hlength
      rw [List.mem_singleton.mp hm]
      rfl

/-- The edge for two interfaces that correspond, the first one of the file `x` and the second one of
the file `y`. -/
def contactEdge (x y : Node) (pair : InterfaceDescriptor × InterfaceDescriptor)
    (type : InterfaceType) : Edge :=
  if pair.1.role = .provider ∧ pair.2.role = .consumer then .ofInterface y x type
  else .ofInterface x y type

theorem contactEdge_ends (x y : Node) (pair : InterfaceDescriptor × InterfaceDescriptor)
    (type : InterfaceType) :
    (contactEdge x y pair type).source = x.id ∧ (contactEdge x y pair type).target = y.id ∨
      (contactEdge x y pair type).source = y.id ∧ (contactEdge x y pair type).target = x.id := by
  unfold contactEdge
  split
  · exact .inr ⟨rfl, rfl⟩
  · exact .inl ⟨rfl, rfl⟩

theorem contactLink_edge (x y : Placed) (pair : InterfaceDescriptor × InterfaceDescriptor)
    (type : InterfaceType) :
    (contactLink (pair.1, x) (pair.2, y) type).edge = contactEdge x.1 y.1 pair type := by
  unfold contactLink contactEdge
  split
  · rfl
  · rfl

/-! ## The links on offer -/

/-- The link that two located interfaces offer, with its key. -/
def contactOffer? (pair : Located × Located) : Option (ContactKey × Link) :=
  if pair.1.2.2 = pair.2.2.2 then none
  else (sharedType? pair.1.1 pair.2.1).map fun type =>
    (contactKey (contactLink pair.1 pair.2 type) type, contactLink pair.1 pair.2 type)

theorem addContact_eq (drawing : Drawing ContactKey) (pair : Located × Located) :
    addContact drawing pair = match contactOffer? pair with
      | none => drawing
      | some (key, link) => drawing.join key link := by
  unfold addContact contactOffer?
  split
  · rfl
  · cases sharedType? pair.1.1 pair.2.1 <;> rfl

/-- The links that interfaces offer, in the order in which they are compared. -/
def contactOffers (base : DependencyGraph) (descriptors : List InterfaceDescriptor) :
    List (ContactKey × Link) :=
  (pairsInOrder (located base descriptors)).filterMap contactOffer?

theorem contactKey_of_ends {link : Link} {p q : Nat} (h : s(link.source, link.target) = s(p, q))
    (hle : p ≤ q) (type : InterfaceType) : contactKey link type = (p, q, type) := by
  have hsame := contactKey_congr (b := ⟨p, q, link.edge⟩) h type
  rw [hsame, contactKey, min_eq_left hle, max_eq_right hle]

theorem key_of_mem_contactOffers {base : DependencyGraph} {descriptors : List InterfaceDescriptor}
    {key : ContactKey} {link : Link} (hm : (key, link) ∈ contactOffers base descriptors) :
    ∃ type, link.edge.type = .interface ∧ link.edge.interfaceType = some type ∧
      key = contactKey link type := by
  obtain ⟨pair, -, hoffer⟩ := List.mem_filterMap.mp hm
  unfold contactOffer? at hoffer
  split at hoffer
  · cases hoffer
  · obtain ⟨type, -, hlink⟩ := Option.map_eq_some_iff.mp hoffer
    cases hlink
    obtain ⟨htype, hfamily⟩ := contactLink_type pair.1 pair.2 type
    exact ⟨type, htype, hfamily, rfl⟩

theorem draws_addContacts (base : DependencyGraph) (descriptors : List InterfaceDescriptor) :
    ((pairsInOrder (located base descriptors)).foldl addContact (.start base)).Draws
      (contactOffers base descriptors) base := by
  rw [contactOffers, List.filterMap_eq_flatMap_toList]
  refine Drawing.draws_start.foldl ?_ (pairsInOrder (located base descriptors))
  intro offers drawing pair hdrawing
  rw [addContact_eq]
  cases contactOffer? pair with
  | none => simpa using hdrawing
  | some offer => exact hdrawing.join offer.1 offer.2

/-- Imports are not touched when the edges for interfaces are added. -/
theorem mem_edges_addInterfaces {base : DependencyGraph}
    (descriptors : List InterfaceDescriptor) {e : Edge} (htype : e.type = .imports) :
    e ∈ (addInterfaces base descriptors).edges ↔ e ∈ base.edges := by
  have hdraws := draws_addContacts base descriptors
  rw [DependencyGraph.edges, DependencyGraph.edges, List.mem_map, List.mem_map]
  constructor
  · rintro ⟨link, hlink, rfl⟩
    rcases (hdraws.mem_links_iff link).mp hlink with hold | ⟨key, hkey⟩
    · exact ⟨link, hold, rfl⟩
    · obtain ⟨-, hinterface, -⟩ := key_of_mem_contactOffers (Drawing.mem_of_firstOffer? hkey)
      rw [htype] at hinterface
      cases hinterface
  · rintro ⟨link, hlink, rfl⟩
    exact ⟨link, (hdraws.mem_links_iff link).mpr (.inl hlink), rfl⟩

theorem ambiguousImports_addInterfaces (base : DependencyGraph)
    (descriptors : List InterfaceDescriptor) :
    (addInterfaces base descriptors).ambiguousImports = base.ambiguousImports := by
  have hstart : (Drawing.start (κ := ContactKey) base).graph.ambiguousImports =
      base.ambiguousImports := rfl
  refine List.foldlRecOn (pairsInOrder (located base descriptors)) addContact
    (motive := fun drawing => drawing.graph.ambiguousImports = base.ambiguousImports) hstart ?_
  intro drawing hdrawing pair _
  rw [addContact_eq]
  cases contactOffer? pair with
  | none => exact hdrawing
  | some offer => exact (Drawing.ambiguousImports_join drawing offer.1 offer.2).trans hdrawing

/-- The key of a link lists the positions in order. -/
theorem contactKey_contactLink {a b : Located} (hle : a.2.2 ≤ b.2.2) (type : InterfaceType) :
    contactKey (contactLink a b type) type = (a.2.2, b.2.2, type) := by
  unfold contactLink
  split
  · simp [contactKey, Link.ofInterface, hle]
  · simp [contactKey, Link.ofInterface, hle]

/-- Of two located interfaces in order the link on offer has their positions in its key. -/
theorem filter_contactOffer? {a b : Located} (hle : a.2.2 ≤ b.2.2) {p q : Nat} (hne : p ≠ q)
    (type : InterfaceType) :
    (contactOffer? (a, b)).filter (·.1 = (p, q, type)) =
      if a.2.2 = p ∧ b.2.2 = q then
        if sharedType? a.1 b.1 = some type then some ((p, q, type), contactLink a b type) else none
      else none := by
  unfold contactOffer?
  by_cases hsame : a.2.2 = b.2.2
  · have hother : ¬ (a.2.2 = p ∧ b.2.2 = q) :=
      fun hends => hne (hends.1.symm.trans (hsame.trans hends.2))
    rw [if_pos hsame, if_neg hother, Option.filter_none]
  · rw [if_neg hsame]
    cases hshared : sharedType? a.1 b.1 with
    | none => simp
    | some found =>
        rw [Option.map_some, contactKey_contactLink hle]
        by_cases hends : a.2.2 = p ∧ b.2.2 = q
        · obtain ⟨rfl, rfl⟩ := hends
          by_cases hfound : found = type
          · simp [hfound]
          · simp [hfound]
        · simp [hends, ← and_assoc]

section Interfaces

variable {base : DependencyGraph} (h : base.Consistent) (descriptors : List InterfaceDescriptor)
include h

/-- The interfaces of a file of the graph are located at its node. -/
theorem filter_located_of_mem {node : Node} {position : Nat}
    (hnode : base.nodes[position]? = some node) :
    (located base descriptors).filter (·.1.file = node.id) =
      (descriptors.filter (·.file = node.id)).map (·, node, position) := by
  rw [filter_located, ← List.filterMap_eq_map]
  refine List.filterMap_congr fun d hd => ?_
  have hfile : d.file = node.id := of_decide_eq_true (List.mem_filter.mp hd).2
  have hplaced : base.placed? node.id = some (node, position) := h.placed?_iff.mpr ⟨hnode, rfl⟩
  rw [hfile, hplaced]
  rfl

/-- The links on offer for two files and a family are those of the interfaces that correspond. -/
theorem filter_contactOffers {x y : Node} {p q : Nat} (hx : base.nodes[p]? = some x)
    (hy : base.nodes[q]? = some y) (hlt : x.id < y.id) (type : InterfaceType) :
    (contactOffers base descriptors).filter (·.1 = (p, q, type)) =
      (correspondences descriptors x.id y.id type).map fun pair =>
        ((p, q, type), contactLink (pair.1, x, p) (pair.2, y, q) type) := by
  have hne : p ≠ q := mt (h.position_eq_iff hx hy).mp hlt.ne
  have hsorted := pairwise_located base descriptors
  have hoffer : ∀ pair ∈ pairsInOrder (located base descriptors),
      (contactOffer? pair).filter (·.1 = (p, q, type)) =
        if decide (pair.1.1.file = x.id ∧ pair.2.1.file = y.id) then
          if sharedType? pair.1.1 pair.2.1 = some type then
            some ((p, q, type), contactLink pair.1 pair.2 type)
          else none
        else none := by
    rintro ⟨a, b⟩ hpair
    obtain ⟨ha, hb⟩ := mem_of_mem_pairsInOrder hpair
    obtain ⟨-, hu, ha⟩ := (mem_located_iff h).mp ha
    obtain ⟨-, hv, hb⟩ := (mem_located_iff h).mp hb
    have hle : a.2.2 ≤ b.2.2 := by
      refine h.position_le hu hv ?_
      rw [ha, hb]
      exact le_of_mem_pairsInOrder _ hsorted hpair
    have hends : (a.2.2 = p ∧ b.2.2 = q) ↔ (a.1.file = x.id ∧ b.1.file = y.id) := by
      rw [h.position_eq_iff hu hx, h.position_eq_iff hv hy, ha, hb]
    simp only [filter_contactOffer? hle hne, hends, decide_eq_true_eq]
  rw [contactOffers, List.filter_filterMap, List.filterMap_congr hoffer, ← List.filterMap_filter,
    filter_pairsInOrder _ hsorted hlt, filter_located_of_mem h descriptors hx,
    filter_located_of_mem h descriptors hy, map_product_map, List.filterMap_map, correspondences,
    ← List.filterMap_eq_map, List.filterMap_filter]
  simp

/-- The link that is drawn for two files and a family is that of the first interfaces that
correspond. -/
theorem firstOffer?_contactOffers {x y : Node} {p q : Nat} (hx : base.nodes[p]? = some x)
    (hy : base.nodes[q]? = some y) (hlt : x.id < y.id) (type : InterfaceType) :
    Drawing.firstOffer? (contactOffers base descriptors) (p, q, type) =
      (correspondences descriptors x.id y.id type).head?.map fun pair =>
        contactLink (pair.1, x, p) (pair.2, y, q) type := by
  rw [Drawing.firstOffer?, ← List.head?_filter, filter_contactOffers h descriptors hx hy hlt,
    List.head?_map, Option.map_map]
  rfl

/-- The first interfaces that correspond get an edge. -/
theorem contactEdge_mem_contacts {x y : Node} (hx : x ∈ base.nodes) (hy : y ∈ base.nodes)
    (hlt : x.id < y.id) {type : InterfaceType} {pair : InterfaceDescriptor × InterfaceDescriptor}
    (hpair : (correspondences descriptors x.id y.id type).head? = some pair) :
    contactEdge x y pair type ∈ (addInterfaces base descriptors).contacts x.id y.id type := by
  obtain ⟨p, hp⟩ := List.mem_iff_getElem?.mp hx
  obtain ⟨q, hq⟩ := List.mem_iff_getElem?.mp hy
  have hfirst := firstOffer?_contactOffers h descriptors hp hq hlt type
  rw [hpair, Option.map_some] at hfirst
  have hlink := ((draws_addContacts base descriptors).mem_links_iff _).mpr
    (.inr ⟨(p, q, type), hfirst⟩)
  have hkind := contactLink_type (pair.1, x, p) (pair.2, y, q) type
  rw [contactLink_edge] at hkind
  refine DependencyGraph.mem_contacts.mpr ⟨?_, hkind.1, hkind.2, contactEdge_ends x y pair type⟩
  rw [← contactLink_edge (x, p) (y, q)]
  exact List.mem_map_of_mem hlink

variable (hbase : ∀ link ∈ base.links, link.edge.type = .imports)
include hbase

/-- An edge for interfaces is that of the first ones that correspond. -/
theorem exists_of_mem_contacts {x y : Node} (hx : x ∈ base.nodes) (hy : y ∈ base.nodes)
    (hlt : x.id < y.id) {type : InterfaceType} {e : Edge}
    (he : e ∈ (addInterfaces base descriptors).contacts x.id y.id type) :
    ∃ pair, (correspondences descriptors x.id y.id type).head? = some pair ∧
      contactEdge x y pair type = e := by
  obtain ⟨p, hp⟩ := List.mem_iff_getElem?.mp hx
  obtain ⟨q, hq⟩ := List.mem_iff_getElem?.mp hy
  have hfirst := firstOffer?_contactOffers h descriptors hp hq hlt type
  have htracks := tracks_addInterfaces h hbase descriptors
  obtain ⟨hm, htype, hfamily, hends⟩ := DependencyGraph.mem_contacts.mp he
  obtain ⟨link, hlink, rfl⟩ := List.mem_map.mp hm
  rcases ((draws_addContacts base descriptors).mem_links_iff link).mp hlink with
    hold | ⟨key, hkey⟩
  · rw [hbase link hold] at htype
    cases htype
  · obtain ⟨found, -, hfound, rfl⟩ := key_of_mem_contactOffers (Drawing.mem_of_firstOffer? hkey)
    rw [hfamily, Option.some.injEq] at hfound
    subst hfound
    rw [← htracks.nodes_eq] at hp hq
    have hjoined := htracks.consistent.ends_eq hlink hp hq hends
    rw [contactKey_of_ends hjoined (htracks.consistent.position_le hp hq hlt.le), hfirst,
      Option.map_eq_some_iff] at hkey
    obtain ⟨pair, hpair, rfl⟩ := hkey
    exact ⟨pair, hpair, (contactLink_edge (x, p) (y, q) pair type).symm⟩

/-- Two files are joined for a family as the first interfaces that correspond tell. -/
theorem contacts_addInterfaces {x y : Node} (hx : x ∈ base.nodes) (hy : y ∈ base.nodes)
    (hlt : x.id < y.id) (type : InterfaceType) :
    (addInterfaces base descriptors).contacts x.id y.id type =
      ((correspondences descriptors x.id y.id type).head?.map
        (contactEdge x y · type)).toList := by
  have htracks := tracks_addInterfaces h hbase descriptors
  have honce := htracks.consistent.length_contacts_le_one (htracks.nodes_eq ▸ hx)
    (htracks.nodes_eq ▸ hy) type
  refine eq_toList_of_mem_iff honce fun e => ?_
  rw [Option.map_eq_some_iff]
  constructor
  · exact exists_of_mem_contacts h descriptors hbase hx hy hlt
  · rintro ⟨pair, hpair, rfl⟩
    exact contactEdge_mem_contacts h descriptors hx hy hlt hpair

end Interfaces

/-! ## The graph -/

section Build

variable (resolver : Resolver) (files : List ParsedFile) (descriptors : List InterfaceDescriptor)

theorem contacts_build {x y : Node} (hx : x ∈ nodesOf files) (hy : y ∈ nodesOf files)
    (hlt : x.id < y.id) (type : InterfaceType) :
    (build resolver files descriptors).contacts x.id y.id type =
      ((correspondences descriptors x.id y.id type).head?.map
        (contactEdge x y · type)).toList := by
  have hbase := consistent_ofNodes files
  have hlinks := links_ofNodes (nodesOf files)
  refine contacts_addInterfaces (consistent_addImports resolver hbase hlinks) descriptors
    (type_addImports resolver hbase hlinks) ?_ ?_ hlt type
  · rwa [nodes_addImports resolver hbase hlinks, nodes_ofNodes]
  · rwa [nodes_addImports resolver hbase hlinks, nodes_ofNodes]

/-- Interfaces of files that are not in the graph make no difference to it. -/
theorem build_filter :
    build resolver files
        (descriptors.filter (·.file ∈ (build resolver files descriptors).ids)) =
      build resolver files descriptors := by
  have hbase := consistent_ofNodes files
  have hlinks := links_ofNodes (nodesOf files)
  have hids : (build resolver files descriptors).ids =
      (addImports resolver (ofNodes (nodesOf files))).ids := by
    rw [DependencyGraph.ids, DependencyGraph.ids, nodes_build,
      nodes_addImports resolver hbase hlinks, nodes_ofNodes]
  have hlocated := located_filter (consistent_addImports resolver hbase hlinks) descriptors
  rw [← hids] at hlocated
  rw [build, addInterfaces, hlocated]
  rfl

/-- Two files of a graph are joined by one edge for each family through which interfaces of theirs
correspond, and by none for any other. Interfaces of other files make no difference. -/
theorem length_contacts_build :
    (∀ x ∈ (build resolver files descriptors).ids, ∀ y ∈ (build resolver files descriptors).ids,
      x < y → ∀ type, ((build resolver files descriptors).contacts x y type).length =
        if ∃ a ∈ descriptors, ∃ b ∈ descriptors,
          a.file = x ∧ b.file = y ∧ sharedType? a b = some type then 1 else 0) ∧
      build resolver files
          (descriptors.filter (·.file ∈ (build resolver files descriptors).ids)) =
        build resolver files descriptors := by
  refine ⟨?_, build_filter resolver files descriptors⟩
  intro x hx y hy hlt type
  rw [DependencyGraph.ids, nodes_build] at hx hy
  obtain ⟨u, hu, rfl⟩ := List.mem_map.mp hx
  obtain ⟨v, hv, rfl⟩ := List.mem_map.mp hy
  rw [contacts_build resolver files descriptors hu hv hlt]
  cases hfirst : (correspondences descriptors u.id v.id type).head? with
  | none =>
      rw [if_neg]
      · rfl
      · rintro ⟨a, ha, b, hb, hax, hby, hshared⟩
        have hm := mem_correspondences.mpr ⟨⟨ha, hax⟩, ⟨hb, hby⟩, hshared⟩
        rw [List.head?_eq_none_iff.mp hfirst] at hm
        cases hm
  | some pair =>
      obtain ⟨⟨ha, hax⟩, ⟨hb, hby⟩, hshared⟩ :=
        mem_correspondences.mp (List.mem_of_head? hfirst)
      rw [if_pos ⟨pair.1, ha, pair.2, hb, hax, hby, hshared⟩]
      rfl

end Build

/-- A server and a client. -/
def shop : List ParsedFile :=
  [parsedFile "server.py" .python [], parsedFile "client.ts" .typeScript []]

def shopEndpoints : List InterfaceDescriptor :=
  [endpoint "server.py" .python .rest .provider "/users/<id>",
    endpoint "server.py" .python .graphql .provider "/health",
    endpoint "client.ts" .typeScript .rest .consumer "/users/42",
    endpoint "worker.go" .go .grpc .consumer "/users/7"]

theorem mem_ids_shop : "client.ts" ∈ (nodesOf shop).map (·.id) ∧
    "server.py" ∈ (nodesOf shop).map (·.id) :=
  ⟨mem_ids_nodesOf.mpr ⟨parsedFile "client.ts" .typeScript [], by simp [shop], rfl, rfl⟩,
    mem_ids_nodesOf.mpr ⟨parsedFile "server.py" .python [], by simp [shop], rfl, rfl⟩⟩

theorem contacts_shop :
    ((build .substring shop shopEndpoints).contacts "client.ts" "server.py" .rest).length = 1 ∧
      ((build .substring shop shopEndpoints).contacts "client.ts" "server.py" .graphql).length =
        0 := by
  obtain ⟨hclient, hserver⟩ := mem_ids_shop
  rw [← nodes_build .substring shop shopEndpoints] at hclient hserver
  have hlength := (length_contacts_build .substring shop shopEndpoints).1 "client.ts" hclient
    "server.py" hserver (by decide)
  exact ⟨(hlength .rest).trans (by decide +kernel), (hlength .graphql).trans (by decide +kernel)⟩

end Graph

end CodeAtlas
