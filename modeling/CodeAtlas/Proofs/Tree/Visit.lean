import CodeAtlas.Proofs.Tree.Site

/-! What one visit of a tree finds. The owner that a visit is given agrees with the nearest scope
around a node, and so every function and class below the node is found once and put where it
belongs. -/

namespace CodeAtlas.Tree

/-! ## Classes with more methods -/

theorem modify_append_of_lt {α : Type} (f : α → α) {front : List α} (back : List α) {index : Nat}
    (h : index < front.length) :
    (front ++ back).modify index f = front.modify index f ++ back := by
  induction front generalizing index with
  | nil => cases h
  | cons first front ih =>
      cases index with
      | zero => rfl
      | succ index =>
          rw [List.cons_append, List.modify_succ_cons, List.modify_succ_cons,
            ih (Nat.lt_of_succ_lt_succ h), List.cons_append]

theorem modify_length_concat {α : Type} (f : α → α) (front : List α) (last : α) :
    (front ++ [last]).modify front.length f = front ++ [f last] := by
  induction front with
  | nil => rfl
  | cons first front ih =>
      rw [List.cons_append, List.length_cons, List.modify_succ_cons, ih, List.cons_append]

/-- The class with more methods. -/
def joined (methods : List String) (c : ClassDecl) : ClassDecl :=
  { c with methods := c.methods ++ methods }

theorem joined_nil : joined [] = id := by
  funext c
  simp [joined]

namespace Owner

/-- The classes with more methods for the one that the functions belong to. -/
def extend (owner : Owner) (methods : List String) (classes : List ClassDecl) : List ClassDecl :=
  match owner with
  | classAt index => classes.modify index (joined methods)
  | _ => classes

/-- The class that the functions belong to is one of the first `count`. -/
def Below (owner : Owner) (count : Nat) : Prop := ∀ index, owner = classAt index → index < count

theorem Below.mono {owner : Owner} {count more : Nat} (h : owner.Below count) (hle : count ≤ more) :
    owner.Below more := fun index howner => Nat.lt_of_lt_of_le (h index howner) hle

@[simp] theorem length_extend (owner : Owner) (methods : List String) (classes : List ClassDecl) :
    (owner.extend methods classes).length = classes.length := by
  cases owner <;> simp [extend]

@[simp] theorem extend_nil (owner : Owner) (classes : List ClassDecl) :
    owner.extend [] classes = classes := by
  cases owner <;> simp [extend, joined_nil]

theorem extend_extend (owner : Owner) (methods more : List String) (classes : List ClassDecl) :
    owner.extend more (owner.extend methods classes) = owner.extend (methods ++ more) classes := by
  cases owner with
  | classAt index =>
      have hcomp : joined more ∘ joined methods = joined (methods ++ more) := by
        funext c
        simp [joined]
      simp only [extend, List.modify_modify_eq, hcomp]
  | _ => rfl

theorem extend_append {owner : Owner} {classes : List ClassDecl} (h : owner.Below classes.length)
    (methods : List String) (later : List ClassDecl) :
    owner.extend methods (classes ++ later) = owner.extend methods classes ++ later := by
  cases owner with
  | classAt index => exact modify_append_of_lt _ later (h index rfl)
  | _ => rfl

end Owner

/-! ## One visit -/

namespace Reading

variable {reading : Reading} {owner : Owner} {found : Found}

/-- What is found grows by what some sites declare. The functions `members` become methods of the
class that they belong to. -/
structure Adds (reading : Reading) (owner : Owner) (all : List Site) (members : List String)
    (found after : Found) : Prop where
  functions : after.functions = found.functions ++ (reading.entries all).filterMap Entry.free?
  detached : after.detached = found.detached ++ (reading.entries all).filterMap Entry.detached?
  classes : after.classes = owner.extend members found.classes ++ reading.classes all

theorem Adds.refl (reading : Reading) (owner : Owner) (found : Found) :
    reading.Adds owner [] [] found found := by
  constructor <;> simp [entries, Reading.classes]

theorem Adds.length_le {all : List Site} {members : List String} {after : Found}
    (h : reading.Adds owner all members found after) :
    found.classes.length ≤ after.classes.length := by
  rw [h.classes, List.length_append, Owner.length_extend]
  exact Nat.le_add_right _ _

theorem Adds.append {all more : List Site} {members later : List String} {after last : Found}
    (ho : owner.Below found.classes.length) (h : reading.Adds owner all members found after)
    (hl : reading.Adds owner more later after last) :
    reading.Adds owner (all ++ more) (members ++ later) found last := by
  have hbelow : owner.Below (owner.extend members found.classes).length := by
    rwa [Owner.length_extend]
  refine ⟨?_, ?_, ?_⟩
  · simp [hl.functions, h.functions, entries, List.filterMap_append]
  · simp [hl.detached, h.detached, entries, List.filterMap_append]
  · rw [hl.classes, h.classes, Owner.extend_append hbelow, Owner.extend_extend]
    simp [Reading.classes, List.filterMap_append]

/-- What is found in a scope of its own leaves the classes that were there as they are. -/
theorem Adds.append_scope {all more : List Site} {members later : List String} {after last : Found}
    {inner : Owner} (h : reading.Adds owner all members found after)
    (hl : reading.Adds inner more later after last)
    (hi : inner.extend later after.classes = after.classes) :
    reading.Adds owner (all ++ more) members found last := by
  refine ⟨?_, ?_, ?_⟩
  · simp [hl.functions, h.functions, entries, List.filterMap_append]
  · simp [hl.detached, h.detached, entries, List.filterMap_append]
  · rw [hl.classes, hi, h.classes]
    simp [Reading.classes, List.filterMap_append]

/-- The owner of the functions below some ancestors is told by the nearest scope among these. -/
def Stands (reading : Reading) (ancestors : List Node) (owner : Owner) (inFunction : Bool) : Prop :=
  match reading.enclosing? ancestors with
  | none => owner = .nothing ∧ inFunction = false
  | some scope =>
    match reading.classAt? scope, reading.typeAt? scope with
    | some _, _ => (∃ index, owner = .classAt index) ∧ inFunction = false
    | none, some type => owner = .typeNamed type ∧ inFunction = false
    | none, none => owner = .nothing ∧ inFunction = true

theorem role_eq (reading : Reading) (ancestors : List Node) (inFunction : Bool) (node : Node) :
    reading.role ancestors inFunction node =
      match reading.classAt? ⟨ancestors, node⟩, reading.typeAt? ⟨ancestors, node⟩,
        reading.functionAt? ⟨ancestors, node⟩ with
      | some name, _, _ => .declaresClass name
      | none, some type, _ => .extendsType type
      | none, none, some name => if inFunction then .other else .declaresFunction name
      | none, none, none => .other := by
  have htype : reading.typeAt? ⟨ancestors, node⟩ =
      (if reading.kinds.impls.contains node.kind then node.child? "type" else none).map
        fun type => baseTypeName (type.text reading.source) := by
    rw [typeAt?]
    split <;> rfl
  have hfunction : (if reading.kinds.functions.contains node.kind && !inFunction then
      reading.functionName? ancestors.head? node else none) =
        if inFunction then none else reading.functionAt? ⟨ancestors, node⟩ := by
    cases inFunction <;> simp [functionAt?]
  have hclass : (if reading.kinds.classes.contains node.kind then reading.className? node
      else none) = reading.classAt? ⟨ancestors, node⟩ := rfl
  unfold role
  dsimp only
  rw [htype, hfunction, hclass]
  generalize reading.classAt? ⟨ancestors, node⟩ = asClass
  generalize (if reading.kinds.impls.contains node.kind then node.child? "type" else none) = asImpl
  generalize reading.functionAt? ⟨ancestors, node⟩ = asFunction
  cases asClass <;> cases asImpl <;> cases asFunction <;> cases inFunction <;> rfl

/-! ### Owners and scopes -/

section Stands

variable {ancestors : List Node} {node : Node}

theorem stands_nil (reading : Reading) : reading.Stands [] .nothing false :=
  ⟨rfl, rfl⟩

theorem stands_of_classAt? {name : String} (h : reading.classAt? ⟨ancestors, node⟩ = some name)
    (index : Nat) : reading.Stands (node :: ancestors) (.classAt index) false := by
  rw [Stands, enclosing?_cons_of_isScope (by simp [isScope, h])]
  simp [h]

theorem stands_of_typeAt? {type : String} (hc : reading.classAt? ⟨ancestors, node⟩ = none)
    (h : reading.typeAt? ⟨ancestors, node⟩ = some type) :
    reading.Stands (node :: ancestors) (.typeNamed type) false := by
  rw [Stands, enclosing?_cons_of_isScope (by simp [isScope, h])]
  simp [hc, h]

theorem stands_of_functionAt? {name : String} (hc : reading.classAt? ⟨ancestors, node⟩ = none)
    (ht : reading.typeAt? ⟨ancestors, node⟩ = none)
    (h : reading.functionAt? ⟨ancestors, node⟩ = some name) :
    reading.Stands (node :: ancestors) .nothing true := by
  rw [Stands, enclosing?_cons_of_isScope (by simp [isScope, h])]
  simp [hc, ht]

theorem stands_of_not_isScope {inFunction : Bool}
    (h : reading.isScope ⟨ancestors, node⟩ = false)
    (hs : reading.Stands ancestors owner inFunction) :
    reading.Stands (node :: ancestors) owner inFunction := by
  rwa [Stands, enclosing?_cons_of_not_isScope h]

/-- Inside a function no owner is left. -/
theorem Stands.of_inFunction (hs : reading.Stands ancestors owner true) :
    owner = .nothing ∧ reading.insideFunction ancestors = true := by
  unfold Stands at hs
  cases hscope : reading.enclosing? ancestors with
  | none => simp [hscope] at hs
  | some scope =>
      simp only [hscope] at hs
      cases hclass : reading.classAt? scope with
      | some name => simp [hclass] at hs
      | none =>
          cases htype : reading.typeAt? scope with
          | some type => simp [hclass, htype] at hs
          | none =>
              simp only [hclass, htype, and_true] at hs
              have hfunction := isScope_of_enclosing? hscope
              simp only [isScope, hclass, htype, Option.isSome_none, Bool.false_or] at hfunction
              exact ⟨hs, by rw [insideFunction, hscope, Option.any_some, hfunction]⟩

/-- Outside of functions the owner tells where a function belongs. -/
theorem Stands.home_eq (hk : reading.kinds.Apart) (hs : reading.Stands ancestors owner false)
    (node : Node) :
    reading.insideFunction ancestors = false ∧
      reading.home ⟨ancestors, node⟩ =
        match owner with
        | .nothing => ((reading.receiverType? node).map .typeNamed).getD .functions
        | .classAt _ => .classAround
        | .typeNamed name => .typeNamed name := by
  unfold Stands at hs
  unfold insideFunction home
  cases hscope : reading.enclosing? ancestors with
  | none =>
      simp only [hscope, and_true] at hs
      subst hs
      exact ⟨rfl, rfl⟩
  | some scope =>
      simp only [hscope] at hs
      cases hclass : reading.classAt? scope with
      | some name =>
          simp only [hclass, and_true] at hs
          obtain ⟨index, rfl⟩ := hs
          simp [hclass, functionAt?_of_classAt? hk hclass]
      | none =>
          cases htype : reading.typeAt? scope with
          | some type =>
              simp only [hclass, htype, and_true] at hs
              subst hs
              simp [hclass, htype, functionAt?_of_typeAt? hk htype]
          | none => simp [hclass, htype] at hs

end Stands

/-! ### Single nodes -/

section Node

variable {ancestors : List Node} {node : Node}

theorem classDecl?_eq_none {site : Site} (h : reading.classAt? site = none) :
    reading.classDecl? site = none := by
  rw [classDecl?, h, Option.map_none]

/-- A function that is put where it belongs. -/
theorem adds_place (hk : reading.kinds.Apart) (hs : reading.Stands ancestors owner false)
    (hc : reading.classAt? ⟨ancestors, node⟩ = none) {name : String}
    (h : reading.functionAt? ⟨ancestors, node⟩ = some name) (found : Found) :
    reading.Adds owner [⟨ancestors, node⟩] [name] found
      (reading.place owner node (reading.functionDecl ancestors node name) found) := by
  obtain ⟨hinside, hhome⟩ := hs.home_eq hk node
  have hentry : reading.entries [⟨ancestors, node⟩] =
      [⟨reading.home ⟨ancestors, node⟩, reading.functionDecl ancestors node name⟩] := by
    simp [entries, entryAt?, hinside, h]
  have hclasses : reading.classes [⟨ancestors, node⟩] = [] := by
    simp [Reading.classes, classDecl?_eq_none hc]
  cases owner with
  | classAt index =>
      constructor <;> simp [hentry, hclasses, hhome, Entry.free?, Entry.detached?, place]
      rfl
  | typeNamed type =>
      constructor <;> simp [hentry, hclasses, hhome, Entry.free?, Entry.detached?, place,
        Owner.extend]
  | nothing =>
      cases hreceiver : reading.receiverType? node with
      | some type =>
          constructor <;> simp [hentry, hclasses, hhome, hreceiver, Entry.free?, Entry.detached?,
            place, Owner.extend]
      | none =>
          constructor <;> simp [hentry, hclasses, hhome, hreceiver, Entry.free?, Entry.detached?,
            place, Owner.extend]

/-- A node that declares neither a function nor a class. -/
theorem Adds.of_eq {members : List String} {after : Found}
    (hc : reading.classAt? ⟨ancestors, node⟩ = none)
    (he : reading.entryAt? ⟨ancestors, node⟩ = none)
    (hm : owner.extend members found.classes = found.classes)
    (hfunctions : after.functions = found.functions) (hdetached : after.detached = found.detached)
    (hclasses : after.classes = found.classes) :
    reading.Adds owner [⟨ancestors, node⟩] members found after := by
  constructor <;> simp [entries, Reading.classes, he, classDecl?_eq_none hc, hfunctions, hdetached,
    hclasses, hm]

theorem adds_addImports {members : List String} (hc : reading.classAt? ⟨ancestors, node⟩ = none)
    (he : reading.entryAt? ⟨ancestors, node⟩ = none) (found : Found)
    (hm : owner.extend members found.classes = found.classes) :
    reading.Adds owner [⟨ancestors, node⟩] members found (reading.addImports node found) := by
  unfold addImports
  split <;> exact .of_eq hc he hm rfl rfl rfl

/-- A class gets the functions in it as its methods. -/
theorem Adds.of_class (hk : reading.kinds.Apart) {name : String}
    (h : reading.classAt? ⟨ancestors, node⟩ = some name) {below : List Site} {after : Found}
    (hb : reading.Adds (.classAt found.classes.length) below
      (reading.membersAll (node :: ancestors) node.children)
      { found with
        classes := found.classes ++
          [⟨name, [], node.line, reading.isExported ancestors node name⟩] }
      after) :
    reading.Adds owner (⟨ancestors, node⟩ :: below) [] found after := by
  have hentry := entryAt?_of_functionAt?_eq_none (functionAt?_of_classAt? hk h)
  refine ⟨?_, ?_, ?_⟩
  · simp [hb.functions, entries, hentry]
  · simp [hb.detached, entries, hentry]
  · rw [hb.classes, Owner.extend, modify_length_concat, Owner.extend_nil]
    simp [Reading.classes, classDecl?, h, joined]

end Node

/-! ### Whole trees -/

mutual

/-- A visit adds what the nodes of the tree declare. -/
theorem adds_visit (hk : reading.kinds.Apart) {ancestors : List Node} {owner : Owner}
    {inFunction : Bool} (hs : reading.Stands ancestors owner inFunction) :
    ∀ (node : Node) {found : Found}, owner.Below found.classes.length →
      reading.Adds owner (sites ancestors node) (reading.members ancestors node) found
        (reading.visit ancestors owner inFunction node found)
  -- The recursion is that of the visit: a scope hands its own owner down, any other node the one it
  -- was given, and `Stands` holds of either.
  | .mk kind named field status span children, found, hb => by
    rw [visit, sites, members]
    dsimp only
    generalize hnode : Node.mk kind named field status span children = node
    have hchildren : node.children = children := by rw [← hnode]; rfl
    rw [role_eq]
    cases hclass : reading.classAt? ⟨ancestors, node⟩ with
    | some name =>
        have hfunction := functionAt?_of_classAt? hk hclass
        have hscope : reading.isScope ⟨ancestors, node⟩ = true := by simp [isScope, hclass]
        rw [if_pos hscope, hfunction]
        dsimp only
        refine .of_class hk hclass ?_
        rw [hchildren]
        exact adds_visitAll hk (stands_of_classAt? hclass _) children (by rintro _ ⟨⟩; simp)
    | none =>
        cases htype : reading.typeAt? ⟨ancestors, node⟩ with
        | some type =>
            have hfunction := functionAt?_of_typeAt? hk htype
            have hentry := entryAt?_of_functionAt?_eq_none hfunction
            have hscope : reading.isScope ⟨ancestors, node⟩ = true := by simp [isScope, htype]
            rw [if_pos hscope, hfunction]
            have hfirst : reading.Adds owner [⟨ancestors, node⟩] [] found found :=
              .of_eq hclass hentry (owner.extend_nil _) rfl rfl rfl
            exact .append_scope hfirst
              (adds_visitAll hk (stands_of_typeAt? hclass htype) children (by rintro _ ⟨⟩)) rfl
        | none =>
            cases hfunction : reading.functionAt? ⟨ancestors, node⟩ with
            | some name =>
                have hscope : reading.isScope ⟨ancestors, node⟩ = true := by
                  simp [isScope, hfunction]
                have hinner := stands_of_functionAt? hclass htype hfunction
                rw [if_pos hscope]
                cases inFunction with
                | false =>
                    exact .append_scope (adds_place hk hs hclass hfunction found)
                      (adds_visitAll hk hinner children (by rintro _ ⟨⟩)) rfl
                | true =>
                    obtain ⟨rfl, hinside⟩ := hs.of_inFunction
                    have hentry : reading.entryAt? ⟨ancestors, node⟩ = none := by
                      rw [entryAt?, if_pos hinside]
                    exact .append_scope (adds_addImports hclass hentry found rfl)
                      (adds_visitAll hk hinner children (by rintro _ ⟨⟩)) rfl
            | none =>
                have hscope : reading.isScope ⟨ancestors, node⟩ = false := by
                  simp [isScope, hclass, htype, hfunction]
                have hentry := entryAt?_of_functionAt?_eq_none hfunction
                have hfirst := adds_addImports hclass hentry found (owner.extend_nil _)
                rw [hscope, if_neg Bool.false_ne_true]
                exact .append hb hfirst (adds_visitAll hk (stands_of_not_isScope hscope hs) children
                  (hb.mono hfirst.length_le))

/-- A visit of several trees adds what their nodes declare. -/
theorem adds_visitAll (hk : reading.kinds.Apart) {ancestors : List Node} {owner : Owner}
    {inFunction : Bool} (hs : reading.Stands ancestors owner inFunction) :
    ∀ (nodes : List Node) {found : Found}, owner.Below found.classes.length →
      reading.Adds owner (sitesAll ancestors nodes) (reading.membersAll ancestors nodes) found
        (reading.visitAll ancestors owner inFunction nodes found)
  | [], found, _ => by
    rw [visitAll, sitesAll, membersAll]
    exact .refl reading owner found
  | node :: rest, found, hb => by
    rw [visitAll, sitesAll, membersAll]
    have hfirst := adds_visit hk hs node hb
    exact .append hb hfirst (adds_visitAll hk hs rest (hb.mono hfirst.length_le))

end

end Reading

end CodeAtlas.Tree
