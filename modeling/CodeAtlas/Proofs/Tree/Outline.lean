import CodeAtlas.Proofs.Sorted
import CodeAtlas.Proofs.Tree.Visit
import Mathlib.Data.List.Perm.Basic

/-! What the outline of a tree holds. Every declared function is in it once, among the functions or
as a method of one class, and every class in the order of the text. Methods that are declared apart
from their type are joined to the first class of its name. -/

namespace CodeAtlas.Tree

namespace Reading

variable {reading : Reading}

/-! ## Methods of classes -/

section Members

variable {ancestors : List Node} {node : Node}

/-- The nearest scope among ancestors is a class. -/
def insideClass (reading : Reading) (ancestors : List Node) : Bool :=
  (reading.enclosing? ancestors).any fun scope => (reading.classAt? scope).isSome

/-- The functions of some sites that are methods of the classes around them. -/
def methodsAround (reading : Reading) (all : List Site) : List String :=
  (reading.entries all).filterMap Entry.member?

theorem methodsAround_cons (reading : Reading) (site : Site) (all : List Site) :
    reading.methodsAround (site :: all) =
      ((reading.entryAt? site).bind Entry.member?).toList ++ reading.methodsAround all := by
  rw [methodsAround, entries, List.filterMap_cons]
  cases hentry : reading.entryAt? site with
  | none => rfl
  | some entry =>
      rw [List.filterMap_cons, Option.bind_some]
      cases entry.member? <;> rfl

theorem member?_entryAt? (hk : reading.kinds.Apart) (site : Site) :
    (reading.entryAt? site).bind Entry.member? =
      if reading.insideClass site.ancestors then reading.functionAt? site else none := by
  unfold entryAt? insideFunction insideClass home
  cases hscope : reading.enclosing? site.ancestors with
  | none =>
      cases reading.functionAt? site <;> cases reading.receiverType? site.node <;>
        simp [Entry.member?]
  | some scope =>
      cases hclass : reading.classAt? scope with
      | some name =>
          have hfunction := functionAt?_of_classAt? hk hclass
          cases reading.functionAt? site <;> simp [hclass, hfunction, Entry.member?, functionDecl]
      | none =>
          simp only [Option.any_some, hclass]
          cases reading.functionAt? scope <;> cases reading.functionAt? site <;>
            cases reading.typeAt? scope <;> simp [Entry.member?]

theorem classes_cons (reading : Reading) (site : Site) (all : List Site) :
    reading.classes (site :: all) = (reading.classDecl? site).toList ++ reading.classes all := by
  rw [Reading.classes, List.filterMap_cons]
  cases reading.classDecl? site <;> rfl

theorem insideClass_cons (reading : Reading) (ancestors : List Node) (node : Node) :
    reading.insideClass (node :: ancestors) =
      if reading.isScope ⟨ancestors, node⟩ then (reading.classAt? ⟨ancestors, node⟩).isSome
      else reading.insideClass ancestors := by
  rw [insideClass, enclosing?]
  split <;> rfl

mutual

/-- The methods of the classes around them are those of the class around the tree and those of the
classes in it. -/
theorem methodsAround_perm (hk : reading.kinds.Apart) (ancestors : List Node) :
    ∀ node : Node, (reading.methodsAround (sites ancestors node)).Perm
      ((if reading.insideClass ancestors then reading.members ancestors node else []) ++
        (reading.classes (sites ancestors node)).flatMap (·.methods))
  | .mk kind named field status span children => by
    rw [sites, members]
    generalize hnode : Node.mk kind named field status span children = node
    have hchildren : node.children = children := by rw [← hnode]; rfl
    have hbelow := methodsAroundAll_perm hk (node :: ancestors) children
    rw [insideClass_cons] at hbelow
    rw [methodsAround_cons, member?_entryAt? hk, classes_cons, classDecl?, hchildren]
    cases hclass : reading.classAt? ⟨ancestors, node⟩ with
    | some name =>
        have hfunction := functionAt?_of_classAt? hk hclass
        have hscope : reading.isScope ⟨ancestors, node⟩ = true := by simp [isScope, hclass]
        simpa [hscope, hclass, hfunction] using hbelow
    | none =>
        cases hscope : reading.isScope ⟨ancestors, node⟩ with
        | true =>
            simp only [hscope, hclass, Option.isSome_none] at hbelow
            cases reading.insideClass ancestors with
            | true => simpa using hbelow.append_left _
            | false => simpa using hbelow
        | false =>
            have hfunction : reading.functionAt? ⟨ancestors, node⟩ = none := by
              simpa [isScope, hclass] using (Bool.or_eq_false_iff.mp hscope).2
            simpa [hscope, hfunction] using hbelow

theorem methodsAroundAll_perm (hk : reading.kinds.Apart) (ancestors : List Node) :
    ∀ nodes : List Node, (reading.methodsAround (sitesAll ancestors nodes)).Perm
      ((if reading.insideClass ancestors then reading.membersAll ancestors nodes else []) ++
        (reading.classes (sitesAll ancestors nodes)).flatMap (·.methods))
  | [] => by
    simp [sitesAll, membersAll, methodsAround, entries, Reading.classes]
  | node :: rest => by
    have hfirst := methodsAround_perm hk ancestors node
    have hrest := methodsAroundAll_perm hk ancestors rest
    have happend : ∀ front back, reading.methodsAround (front ++ back) =
        reading.methodsAround front ++ reading.methodsAround back := by
      simp [methodsAround, entries, List.filterMap_append]
    have hmembers : (if reading.insideClass ancestors then
        reading.membersAll ancestors (node :: rest) else []) =
        (if reading.insideClass ancestors then reading.members ancestors node else []) ++
          (if reading.insideClass ancestors then reading.membersAll ancestors rest else []) := by
      split
      · rw [membersAll]
      · rfl
    rw [sitesAll, happend, hmembers, Reading.classes, List.filterMap_append, List.flatMap_append]
    refine (hfirst.append hrest).trans ?_
    rw [List.append_assoc, List.append_assoc]
    exact (List.perm_append_comm_assoc _ _ _).append_left _

end

end Members

end Reading

/-- A declared function is free, or detached from its type, or a method of the class around it. -/
theorem perm_names_entries (all : List Entry) :
    (all.map (·.decl.name)).Perm
      ((all.filterMap Entry.free?).map (·.name) ++ (all.filterMap Entry.detached?).map (·.2.name) ++
        all.filterMap Entry.member?) := by
  induction all with
  | nil => rfl
  | cons entry all ih =>
      obtain ⟨home, decl⟩ := entry
      cases home with
      | functions =>
          simp only [Entry.free?, Entry.detached?, Entry.member?, List.filterMap_cons,
            List.map_cons]
          exact ih.cons _
      | typeNamed name =>
          simp only [Entry.free?, Entry.detached?, Entry.member?, List.filterMap_cons,
            List.map_cons]
          refine (ih.cons _).trans ?_
          rw [List.append_assoc, List.append_assoc]
          exact List.perm_middle.symm
      | classAround =>
          simp only [Entry.free?, Entry.detached?, Entry.member?, List.filterMap_cons,
            List.map_cons]
          exact (ih.cons _).trans List.perm_middle.symm

/-! ## Methods that are declared apart -/

/-- The place of the first class of a name. -/
def firstNamed (classes : List ClassDecl) (name : String) : Option Nat :=
  classes.findIdx? fun c => c.name == name

/-- The methods that join the class at an index. -/
def joining (classes : List ClassDecl) (detached : List (String × FunctionDecl)) (index : Nat) :
    List String :=
  (detached.filter fun method => firstNamed classes method.1 == some index).map (·.2.name)

/-- The methods of which no class has the type's name. -/
def unclaimed (classes : List ClassDecl) (detached : List (String × FunctionDecl)) :
    List FunctionDecl :=
  (detached.filter fun method => (firstNamed classes method.1).isNone).map (·.2)

theorem firstNamed_modify (classes : List ClassDecl) (index : Nat) (methods : List String)
    (name : String) :
    firstNamed (classes.modify index (joined methods)) name = firstNamed classes name := by
  induction classes generalizing index with
  | nil => simp [firstNamed]
  | cons c classes ih =>
      cases index with
      | zero => rfl
      | succ index =>
          simp only [firstNamed] at ih ⊢
          rw [List.modify_succ_cons, List.findIdx?_cons, List.findIdx?_cons, ih]

theorem joining_cons (classes : List ClassDecl) (method : String × FunctionDecl)
    (detached : List (String × FunctionDecl)) (index : Nat) :
    joining classes (method :: detached) index =
      (if firstNamed classes method.1 = some index then [method.2.name] else []) ++
        joining classes detached index := by
  rw [joining, List.filter_cons]
  by_cases h : firstNamed classes method.1 = some index <;> simp [h, joining]

theorem mapIdx_joining_modify (classes : List ClassDecl) (method : String × FunctionDecl)
    (detached : List (String × FunctionDecl)) {place : Nat}
    (h : firstNamed classes method.1 = some place) :
    ((classes.modify place (joined [method.2.name])).mapIdx fun index =>
        joined (joining classes detached index)) =
      classes.mapIdx fun index => joined (joining classes (method :: detached) index) := by
  refine List.ext_getElem? fun index => ?_
  rw [List.getElem?_mapIdx, List.getElem?_mapIdx, List.getElem?_modify, joining_cons, h]
  by_cases hplace : place = index
  · cases classes[index]? <;> simp [hplace, joined]
  · cases classes[index]? <;> simp [hplace]

/-- Methods that are joined one after the other. -/
theorem foldl_attach (detached : List (String × FunctionDecl)) (found : Found) :
    (detached.foldl Found.attach found).functions =
        found.functions ++ unclaimed found.classes detached ∧
      (detached.foldl Found.attach found).classes =
        found.classes.mapIdx fun index => joined (joining found.classes detached index) := by
  induction detached generalizing found with
  | nil =>
      have hsame : (found.classes.mapIdx fun _ => id) = found.classes :=
        List.ext_getElem? fun index => by simp
      simp [unclaimed, joining, joined_nil, hsame]
  | cons method detached ih =>
      obtain ⟨hfunctions, hclasses⟩ := ih (found.attach method)
      rw [List.foldl_cons, hfunctions, hclasses]
      cases hplace : firstNamed found.classes method.1 with
      | none =>
          have hattach : found.attach method =
              { found with functions := found.functions ++ [method.2] } := by
            simp only [firstNamed] at hplace
            simp only [Found.attach, hplace]
          rw [hattach]
          simp [unclaimed, joining_cons, hplace]
      | some place =>
          have hattach : found.attach method =
              { found with classes := found.classes.modify place (joined [method.2.name]) } := by
            simp only [firstNamed] at hplace
            simp only [Found.attach, hplace]
            rfl
          have hjoining : ∀ index,
              joining (found.classes.modify place (joined [method.2.name])) detached index =
                joining found.classes detached index := by
            simp [joining, firstNamed_modify]
          rw [hattach]
          refine ⟨?_, ?_⟩
          · simp [unclaimed, firstNamed_modify, hplace]
          · simp only [hjoining]
            exact mapIdx_joining_modify found.classes method detached hplace

/-! ## Outlines -/

open scoped List

theorem flatMap_modify_perm {classes : List ClassDecl} {index : Nat} (h : index < classes.length)
    (methods : List String) :
    ((classes.modify index (joined methods)).flatMap (·.methods)).Perm
      (methods ++ classes.flatMap (·.methods)) := by
  induction classes generalizing index with
  | nil => cases h
  | cons c classes ih =>
      cases index with
      | zero =>
          rw [List.modify_zero_cons, List.flatMap_cons, List.flatMap_cons, joined,
            ← List.append_assoc]
          exact List.perm_append_comm.append_right _
      | succ index =>
          rw [List.modify_succ_cons, List.flatMap_cons, List.flatMap_cons]
          refine ((ih (Nat.lt_of_succ_lt_succ h)).append_left _).trans ?_
          exact List.perm_append_comm_assoc _ _ _

/-- The names of the functions and of the methods. -/
def Found.names (found : Found) : List String :=
  found.functions.map (·.name) ++ found.classes.flatMap (·.methods)

theorem Found.names_attach_perm (found : Found) (method : String × FunctionDecl) :
    (found.attach method).names.Perm (method.2.name :: found.names) := by
  unfold attach
  split
  · rename_i place hplace
    obtain ⟨hlt, -, -⟩ := List.findIdx?_eq_some_iff_getElem.mp hplace
    refine ((flatMap_modify_perm hlt [method.2.name]).append_left _).trans ?_
    exact List.perm_middle
  · simp only [names, List.map_append, List.map_cons, List.map_nil]
    rw [List.append_assoc]
    exact List.perm_middle

theorem Found.names_foldl_attach_perm (detached : List (String × FunctionDecl)) (found : Found) :
    (detached.foldl Found.attach found).names.Perm (detached.map (·.2.name) ++ found.names) := by
  induction detached generalizing found with
  | nil => rfl
  | cons method detached ih =>
      refine (ih (found.attach method)).trans ?_
      refine ((found.names_attach_perm method).append_left _).trans ?_
      exact List.perm_middle

/-- When the methods of types have joined their classes, each declared function is there once. -/
theorem names_foldl_attach_visit {reading : Reading} (hk : reading.kinds.Apart) (root : Node) :
    let found := reading.visit [] .nothing false root ⟨[], [], [], []⟩
    (found.detached.foldl Found.attach found).names ~
      (reading.entries (sites [] root)).map (·.decl.name) := by
  intro found
  have hvisit : reading.Adds .nothing (sites [] root) (reading.members [] root)
      ⟨[], [], [], []⟩ found :=
    Reading.adds_visit hk (Reading.stands_nil reading) root (by rintro _ ⟨⟩)
  have hmethods : reading.methodsAround (sites [] root) ~ found.classes.flatMap (·.methods) := by
    rw [hvisit.classes]
    exact Reading.methodsAround_perm hk [] root
  calc (found.detached.foldl Found.attach found).names
    _ ~ found.detached.map (·.2.name) ++
        (found.functions.map (·.name) ++ found.classes.flatMap (·.methods)) :=
      found.names_foldl_attach_perm found.detached
    _ ~ found.functions.map (·.name) ++
        (found.detached.map (·.2.name) ++ found.classes.flatMap (·.methods)) :=
      List.perm_append_comm_assoc _ _ _
    _ ~ found.functions.map (·.name) ++
        (found.detached.map (·.2.name) ++ reading.methodsAround (sites [] root)) :=
      (hmethods.symm.append_left _).append_left _
    _ ~ (reading.entries (sites [] root)).map (·.decl.name) := by
      rw [hvisit.functions, hvisit.detached, ← List.append_assoc]
      exact (perm_names_entries _).symm

section Parts

variable {reading : Reading} (hk : reading.kinds.Apart) (root : Node)

include hk

/-- The functions and classes when the methods of types have joined their classes. -/
theorem foldl_attach_visit :
    let found := reading.visit [] .nothing false root ⟨[], [], [], []⟩
    let classes := reading.classes (sites [] root)
    let detached := (reading.entries (sites [] root)).filterMap Entry.detached?
    (found.detached.foldl Found.attach found).functions =
        (reading.entries (sites [] root)).filterMap Entry.free? ++ unclaimed classes detached ∧
      (found.detached.foldl Found.attach found).classes =
        classes.mapIdx fun index => joined (joining classes detached index) := by
  intro found classes detached
  have hvisit : reading.Adds .nothing (sites [] root) (reading.members [] root)
      ⟨[], [], [], []⟩ found :=
    Reading.adds_visit hk (Reading.stands_nil reading) root (by rintro _ ⟨⟩)
  have hfree : found.functions = (reading.entries (sites [] root)).filterMap Entry.free? :=
    hvisit.functions
  have hdetached : found.detached = detached := hvisit.detached
  have hclasses : found.classes = classes := hvisit.classes
  rw [← hfree, ← hclasses, ← hdetached]
  exact foldl_attach found.detached found

theorem functions_outline_perm : (outline root reading).functions.Perm
    ((reading.entries (sites [] root)).filterMap Entry.free? ++
      unclaimed (reading.classes (sites [] root))
        ((reading.entries (sites [] root)).filterMap Entry.detached?)) := by
  rw [← (foldl_attach_visit hk root).1]
  exact sortedBy_perm FunctionDecl.line _

theorem classes_outline : (outline root reading).classes =
    (reading.classes (sites [] root)).mapIdx fun index =>
      joined (joining (reading.classes (sites [] root))
        ((reading.entries (sites [] root)).filterMap Entry.detached?) index) :=
  (foldl_attach_visit hk root).2

end Parts

end CodeAtlas.Tree
