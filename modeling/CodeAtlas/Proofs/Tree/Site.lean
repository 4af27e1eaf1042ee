import CodeAtlas.Tree.Outline

/-! What a syntax tree declares, node by node. A named class, the body of a type and a named
function are scopes; where a function belongs is told by the nearest scope around it. -/

namespace CodeAtlas.Tree

/-! ## Nodes and their ancestors -/

/-- A node with its ancestors, the parent first. -/
structure Site where
  ancestors : List Node
  node : Node

mutual

/-- The nodes of a tree in the order of the text. -/
def sites (ancestors : List Node) : Node → List Site
  | .mk kind named field status span children =>
    let node := Node.mk kind named field status span children
    ⟨ancestors, node⟩ :: sitesAll (node :: ancestors) children

/-- The nodes of several trees. -/
def sitesAll (ancestors : List Node) : List Node → List Site
  | [] => []
  | node :: rest => sites ancestors node ++ sitesAll ancestors rest

end

/-! ## Kinds -/

/-- A node is of one kind only: no function is a class or the body of a type. -/
structure Kinds.Apart (kinds : Kinds) : Prop where
  not_class : ∀ kind ∈ kinds.functions, kind ∉ kinds.classes
  not_impl : ∀ kind ∈ kinds.functions, kind ∉ kinds.impls

theorem Kinds.apart_of_ofLanguage? {language : Language} {kinds : Kinds}
    (h : Kinds.ofLanguage? language = some kinds) : kinds.Apart := by
  cases language with
  | kotlin | ruby | php | cSharp => cases h
  | typeScript | javaScript | python | go | rust | java =>
      cases h
      constructor <;> decide

/-! ## Scopes -/

/-- Where the function at a node belongs: among the functions, to the class around it, or to a type
that is declared elsewhere. -/
inductive Home where
  | functions
  | classAround
  | typeNamed (name : String)
  deriving DecidableEq

/-- A declared function with the place where it belongs. -/
structure Entry where
  home : Home
  decl : FunctionDecl

namespace Entry

def free? (entry : Entry) : Option FunctionDecl :=
  match entry.home with
  | .functions => some entry.decl
  | _ => none

def member? (entry : Entry) : Option String :=
  match entry.home with
  | .classAround => some entry.decl.name
  | _ => none

def detached? (entry : Entry) : Option (String × FunctionDecl) :=
  match entry.home with
  | .typeNamed name => some (name, entry.decl)
  | _ => none

end Entry

namespace Reading

variable (reading : Reading)

/-- The name of the class that is declared at a site. -/
def classAt? (site : Site) : Option String :=
  if reading.kinds.classes.contains site.node.kind then reading.className? site.node else none

/-- The name of the type whose body stands at a site. -/
def typeAt? (site : Site) : Option String :=
  if reading.kinds.impls.contains site.node.kind then
    (site.node.child? "type").map fun type => baseTypeName (type.text reading.source)
  else none

/-- The name of the function at a site. -/
def functionAt? (site : Site) : Option String :=
  if reading.kinds.functions.contains site.node.kind then
    reading.functionName? site.ancestors.head? site.node
  else none

def isScope (site : Site) : Bool :=
  (reading.classAt? site).isSome || (reading.typeAt? site).isSome ||
    (reading.functionAt? site).isSome

/-- The nearest scope among ancestors, of which the first one is the parent. -/
def enclosing? : List Node → Option Site
  | [] => none
  | node :: rest => if reading.isScope ⟨rest, node⟩ then some ⟨rest, node⟩ else enclosing? rest

/-- Where the function at a site belongs. A receiver counts where there is no scope around it. -/
def home (site : Site) : Home :=
  match reading.enclosing? site.ancestors with
  | none => ((reading.receiverType? site.node).map .typeNamed).getD .functions
  | some scope =>
    if (reading.classAt? scope).isSome then .classAround
    else ((reading.typeAt? scope).map .typeNamed).getD .functions

/-- The nearest scope among ancestors is a function. -/
def insideFunction (ancestors : List Node) : Bool :=
  (reading.enclosing? ancestors).any fun scope => (reading.functionAt? scope).isSome

/-- The function that is declared at a site. Inside another function none is. -/
def entryAt? (site : Site) : Option Entry :=
  if reading.insideFunction site.ancestors then none
  else
    (reading.functionAt? site).map fun name =>
      ⟨reading.home site, reading.functionDecl site.ancestors site.node name⟩

/-- The declared functions of some sites. -/
def entries (all : List Site) : List Entry := all.filterMap reading.entryAt?

mutual

/-- The functions at and below a node with no scope in between. -/
def members (ancestors : List Node) : Node → List String
  | .mk kind named field status span children =>
    let node := Node.mk kind named field status span children
    if reading.isScope ⟨ancestors, node⟩ then (reading.functionAt? ⟨ancestors, node⟩).toList
    else membersAll (node :: ancestors) children

/-- The functions at and below several nodes with no scope in between. -/
def membersAll (ancestors : List Node) : List Node → List String
  | [] => []
  | node :: rest => members ancestors node ++ membersAll ancestors rest

end

/-- The class that is declared at a site, with the functions in it as its methods. -/
def classDecl? (site : Site) : Option ClassDecl :=
  (reading.classAt? site).map fun name =>
    ⟨name, reading.membersAll (site.node :: site.ancestors) site.node.children, site.node.line,
      reading.isExported site.ancestors site.node name⟩

/-- The declared classes of some sites. -/
def classes (all : List Site) : List ClassDecl := all.filterMap reading.classDecl?

/-! ## Sites of one kind -/

section Sites

variable {reading} {site : Site}

theorem functionAt?_of_classAt? (hk : reading.kinds.Apart) {name : String}
    (h : reading.classAt? site = some name) : reading.functionAt? site = none := by
  rw [functionAt?, if_neg]
  intro hfunction
  rw [classAt?] at h
  split at h
  · rename_i hclass
    exact hk.not_class _ (List.contains_iff_mem.mp hfunction) (List.contains_iff_mem.mp hclass)
  · cases h

theorem functionAt?_of_typeAt? (hk : reading.kinds.Apart) {name : String}
    (h : reading.typeAt? site = some name) : reading.functionAt? site = none := by
  rw [functionAt?, if_neg]
  intro hfunction
  rw [typeAt?] at h
  split at h
  · rename_i himpl
    exact hk.not_impl _ (List.contains_iff_mem.mp hfunction) (List.contains_iff_mem.mp himpl)
  · cases h

theorem enclosing?_cons_of_isScope {ancestors : List Node} {node : Node}
    (h : reading.isScope ⟨ancestors, node⟩ = true) :
    reading.enclosing? (node :: ancestors) = some ⟨ancestors, node⟩ := by
  rw [enclosing?, if_pos h]

theorem enclosing?_cons_of_not_isScope {ancestors : List Node} {node : Node}
    (h : reading.isScope ⟨ancestors, node⟩ = false) :
    reading.enclosing? (node :: ancestors) = reading.enclosing? ancestors := by
  rw [enclosing?, h, if_neg Bool.false_ne_true]

theorem isScope_of_enclosing? {ancestors : List Node}
    (h : reading.enclosing? ancestors = some site) :
    reading.isScope site = true := by
  induction ancestors with
  | nil => cases h
  | cons node rest ih =>
      rw [enclosing?] at h
      split at h
      · rename_i hscope
        cases h
        exact hscope
      · exact ih h

theorem entryAt?_of_functionAt?_eq_none (h : reading.functionAt? site = none) :
    reading.entryAt? site = none := by
  rw [entryAt?, h, Option.map_none, ite_self]

end Sites

end Reading

end CodeAtlas.Tree
