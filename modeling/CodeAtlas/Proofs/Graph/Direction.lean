import CodeAtlas.Proofs.Graph.Contact

/-! Where edges for interfaces lead: of two files the first interfaces that correspond decide it, even
if they have the same role and later ones do not. -/

namespace CodeAtlas.Graph

/-- The family through which interfaces of two files correspond. That of the lesser file is compared
first, as in the graph. -/
def familyOf? (a b : InterfaceDescriptor) : Option InterfaceType :=
  if a.file < b.file then sharedType? a b else sharedType? b a

/-- An interface that the file `s` consumes corresponds to one that the file `d` provides. -/
def Calls (descriptors : List InterfaceDescriptor) (s d : String) (type : InterfaceType) : Prop :=
  ∃ a ∈ descriptors, ∃ b ∈ descriptors, a.file = s ∧ b.file = d ∧ familyOf? a b = some type ∧
    a.role = .consumer ∧ b.role = .provider

instance (descriptors : List InterfaceDescriptor) (s d : String) (type : InterfaceType) :
    Decidable (Calls descriptors s d type) :=
  inferInstanceAs (Decidable (∃ a ∈ descriptors, ∃ b ∈ descriptors, _))

/-- Some interfaces of the two files correspond and have different roles. -/
def RolesDiffer (descriptors : List InterfaceDescriptor) (s d : String) (type : InterfaceType) :
    Prop :=
  ∃ a ∈ descriptors, ∃ b ∈ descriptors, a.file = s ∧ b.file = d ∧ familyOf? a b = some type ∧
    a.role ≠ b.role

instance (descriptors : List InterfaceDescriptor) (s d : String) (type : InterfaceType) :
    Decidable (RolesDiffer descriptors s d type) :=
  inferInstanceAs (Decidable (∃ a ∈ descriptors, ∃ b ∈ descriptors, _))

theorem familyOf?_comm {a b : InterfaceDescriptor} (h : a.file ≠ b.file) :
    familyOf? a b = familyOf? b a := by
  rcases lt_or_gt_of_ne h with hlt | hlt
  · rw [familyOf?, familyOf?, if_pos hlt, if_neg hlt.not_gt]
  · rw [familyOf?, familyOf?, if_pos hlt, if_neg hlt.not_gt]

theorem roles_of_ne {a b : InterfaceDescriptor} (h : a.role ≠ b.role) :
    a.role = .consumer ∧ b.role = .provider ∨ a.role = .provider ∧ b.role = .consumer := by
  cases ha : a.role <;> cases hb : b.role <;> simp [ha, hb] at h ⊢

/-- Where roles differ one of the files calls the other one. -/
theorem rolesDiffer_iff {descriptors : List InterfaceDescriptor} {s d : String} (hne : s ≠ d)
    {type : InterfaceType} :
    RolesDiffer descriptors s d type ↔
      Calls descriptors s d type ∨ Calls descriptors d s type := by
  constructor
  · rintro ⟨a, ha, b, hb, rfl, rfl, hfamily, hroles⟩
    rcases roles_of_ne hroles with hcalls | hcalled
    · exact .inl ⟨a, ha, b, hb, rfl, rfl, hfamily, hcalls⟩
    · exact .inr ⟨b, hb, a, ha, rfl, rfl, (familyOf?_comm hne).symm.trans hfamily, hcalled.symm⟩
  · rintro (⟨a, ha, b, hb, rfl, rfl, hfamily, hconsumer, hprovider⟩ |
      ⟨a, ha, b, hb, rfl, rfl, hfamily, hconsumer, hprovider⟩)
    · exact ⟨a, ha, b, hb, rfl, rfl, hfamily, by simp [hconsumer, hprovider]⟩
    · exact ⟨b, hb, a, ha, rfl, rfl, (familyOf?_comm hne).trans hfamily,
        by simp [hconsumer, hprovider]⟩

theorem familyOf?_of_mem_correspondences {descriptors : List InterfaceDescriptor} {x y : String}
    (hlt : x < y) {type : InterfaceType} {a b : InterfaceDescriptor}
    (hm : (a, b) ∈ correspondences descriptors x y type) : familyOf? a b = some type := by
  obtain ⟨⟨-, rfl⟩, ⟨-, rfl⟩, hshared⟩ := mem_correspondences.mp hm
  rwa [familyOf?, if_pos hlt]

/-- The edge for interfaces with different roles leads to the provider. -/
theorem calls_of_role_ne {descriptors : List InterfaceDescriptor} {x y : Node} (hlt : x.id < y.id)
    {type : InterfaceType} {a b : InterfaceDescriptor}
    (hm : (a, b) ∈ correspondences descriptors x.id y.id type) (hne : a.role ≠ b.role) :
    Calls descriptors (contactEdge x y (a, b) type).source (contactEdge x y (a, b) type).target
      type := by
  have hfamily := familyOf?_of_mem_correspondences hlt hm
  obtain ⟨⟨ha, hax⟩, ⟨hb, hby⟩, -⟩ := mem_correspondences.mp hm
  rcases roles_of_ne hne with hcalls | hcalled
  · rw [contactEdge, if_neg (by simp [hcalls.1])]
    exact ⟨a, ha, b, hb, hax, hby, hfamily, hcalls⟩
  · have hfiles : b.file ≠ a.file := by rw [hax, hby]; exact hlt.ne'
    rw [contactEdge, if_pos hcalled]
    exact ⟨b, hb, a, ha, hby, hax, (familyOf?_comm hfiles).trans hfamily, hcalled.symm⟩

/-- An edge leads from a consumer to a provider, if interfaces of its files have different roles. -/
def LeadsToProvider (descriptors : List InterfaceDescriptor) (e : Edge) (type : InterfaceType) :
    Prop :=
  RolesDiffer descriptors e.source e.target type → Calls descriptors e.source e.target type

/-- The interfaces `a` of the file `x` and `b` of the file `y` are the first ones of their files that
correspond, and they decide where an edge leads: from the consumer to the provider if their roles
differ, and else from the lesser file to the greater one. -/
structure Decides (descriptors : List InterfaceDescriptor) (e : Edge) (type : InterfaceType)
    (x y : String) (a b : InterfaceDescriptor) : Prop where
  lt : x < y
  first : (correspondences descriptors x y type).head? = some (a, b)
  ends : (e.source, e.target) =
    if a.role = .provider ∧ b.role = .consumer then (y, x) else (x, y)
  leads_iff : LeadsToProvider descriptors e type ↔
    (a.role = b.role → Calls descriptors y x type → Calls descriptors x y type)

theorem decides_contactEdge {descriptors : List InterfaceDescriptor} {x y : Node}
    (hlt : x.id < y.id) {type : InterfaceType} {a b : InterfaceDescriptor}
    (hfirst : (correspondences descriptors x.id y.id type).head? = some (a, b)) :
    Decides descriptors (contactEdge x y (a, b) type) type x.id y.id a b where
  lt := hlt
  first := hfirst
  ends := by
    unfold contactEdge
    split
    · rfl
    · rfl
  leads_iff := by
    by_cases hsame : a.role = b.role
    · have hedge : contactEdge x y (a, b) type = .ofInterface x y type := by
        refine if_neg fun hroles => ?_
        rw [hroles.1, hroles.2] at hsame
        cases hsame
      rw [hedge, LeadsToProvider, imp_iff_right hsame]
      change (RolesDiffer descriptors x.id y.id type → Calls descriptors x.id y.id type) ↔ _
      rw [rolesDiffer_iff hlt.ne, or_imp, and_iff_right id]
    · exact iff_of_true (fun _ => calls_of_role_ne hlt (List.mem_of_head? hfirst) hsame)
        fun hequal => absurd hequal hsame

section Build

variable {resolver : Resolver} {files : List ParsedFile} {descriptors : List InterfaceDescriptor}
  {type : InterfaceType}

/-- An edge between files with corresponding interfaces of different roles leads from a consumer to
a provider, unless the first interfaces that correspond have the same role and only the greater file
calls the lesser one. -/
theorem exists_decides {e : Edge} (he : e ∈ (build resolver files descriptors).edges)
    (htype : e.interfaceType = some type) :
    ∃ x y a b, Decides descriptors e type x y a b := by
  obtain ⟨x, hx, y, hy, hlt, hm⟩ :=
    (consistent_build resolver files descriptors).exists_mem_contacts he htype
  rw [nodes_build] at hx hy
  rw [contacts_build resolver files descriptors hx hy hlt, Option.mem_toList,
    Option.map_eq_some_iff] at hm
  obtain ⟨⟨a, b⟩, hfirst, rfl⟩ := hm
  exact ⟨x.id, y.id, a, b, decides_contactEdge hlt hfirst⟩

variable (resolver) in
/-- Files of the graph with interfaces that correspond are joined as the first of these tell. -/
theorem exists_edge {x y : String} (hx : x ∈ (nodesOf files).map (·.id))
    (hy : y ∈ (nodesOf files).map (·.id)) (hlt : x < y) {a b : InterfaceDescriptor}
    (hfirst : (correspondences descriptors x y type).head? = some (a, b)) :
    ∃ e ∈ (build resolver files descriptors).edges, e.interfaceType = some type ∧
      (e.source, e.target) =
        if a.role = .provider ∧ b.role = .consumer then (y, x) else (x, y) := by
  obtain ⟨u, hu, rfl⟩ := List.mem_map.mp hx
  obtain ⟨v, hv, rfl⟩ := List.mem_map.mp hy
  have hm : contactEdge u v (a, b) type ∈
      (build resolver files descriptors).contacts u.id v.id type := by
    rw [contacts_build resolver files descriptors hu hv hlt, hfirst]
    exact List.mem_singleton_self _
  obtain ⟨he, -, hfamily, -⟩ := DependencyGraph.mem_contacts.mp hm
  exact ⟨_, he, hfamily, (decides_contactEdge hlt hfirst).ends⟩

end Build

/-- In the shop the edge leads from the client to the server. -/
theorem decides_shop :
    ∃ e ∈ (build .substring shop shopEndpoints).edges, e.interfaceType = some .rest ∧
      e.source = "client.ts" ∧ e.target = "server.py" ∧
        ∃ x y a b, Decides shopEndpoints e .rest x y a b := by
  obtain ⟨hclient, hserver⟩ := mem_ids_shop
  have hfirst : (correspondences shopEndpoints "client.ts" "server.py" .rest).head? =
      some (endpoint "client.ts" .typeScript .rest .consumer "/users/42",
        endpoint "server.py" .python .rest .provider "/users/<id>") := by
    decide +kernel
  obtain ⟨e, he, htype, hends⟩ :=
    exists_edge .substring hclient hserver (by decide) hfirst
  obtain ⟨hsource, htarget⟩ := Prod.mk.inj hends
  exact ⟨e, he, htype, hsource, htarget, exists_decides he htype⟩

/-- A server, and a gateway that serves the same endpoint and calls it as well. -/
def relayed : List ParsedFile :=
  [parsedFile "api.py" .python [], parsedFile "gateway.py" .python []]

def relayedEndpoints : List InterfaceDescriptor :=
  [endpoint "api.py" .python .rest .provider "/users",
    endpoint "gateway.py" .python .rest .provider "/users",
    endpoint "gateway.py" .python .rest .consumer "/users"]

/-- The edge between a server and its gateway leads from the provider to the consumer, because the
first interfaces that correspond are both served. -/
theorem relayed_not_leadsToProvider :
    ∃ e ∈ (build .substring relayed relayedEndpoints).edges, e.interfaceType = some .rest ∧
      ¬ LeadsToProvider relayedEndpoints e .rest := by
  have hapi : "api.py" ∈ (nodesOf relayed).map (·.id) :=
    mem_ids_nodesOf.mpr ⟨parsedFile "api.py" .python [], by simp [relayed], rfl, rfl⟩
  have hgateway : "gateway.py" ∈ (nodesOf relayed).map (·.id) :=
    mem_ids_nodesOf.mpr ⟨parsedFile "gateway.py" .python [], by simp [relayed], rfl, rfl⟩
  have hfirst : (correspondences relayedEndpoints "api.py" "gateway.py" .rest).head? =
      some (endpoint "api.py" .python .rest .provider "/users",
        endpoint "gateway.py" .python .rest .provider "/users") := by
    decide +kernel
  obtain ⟨e, he, htype, hends⟩ :=
    exists_edge .substring hapi hgateway (by decide) hfirst
  obtain ⟨hsource, htarget⟩ := Prod.mk.inj hends
  refine ⟨e, he, htype, ?_⟩
  rw [LeadsToProvider, hsource, htarget]
  decide +kernel

end CodeAtlas.Graph
