import CodeAtlas.Proofs.Tree.Receiver

/-! The whole outline of a tree. Where a declared function belongs is told by the form of what is
written: by the class around it, by the path in front of the body of a type, or by a receiver, whose
type is missed where it is glued or stretched. -/

namespace CodeAtlas.Tree

/-! ## Types of bodies -/

/-- The type that a body is written for, with what follows its name from `<` on. -/
structure BodyType where
  path : NamePath
  parameters : Option Text

namespace BodyType

variable (type : BodyType)

def name : String := String.ofList type.path.last.text

def text : Text :=
  Text.join "::".toList type.path.segments ++ (type.parameters.map ('<' :: ·)).getD []

theorem baseTypeName_text : baseTypeName type.text = type.name := by
  obtain ⟨front, hsegments⟩ := List.getLast?_eq_some_iff.mp type.path.getLast?_segments
  have hplain : ∀ c ∈ Text.join "::".toList type.path.segments, c ∉ "<[".toList := by
    intro c hc hm
    have hmarks : "<[".toList.all Text.isDelimiter = true := by decide
    rcases Text.mem_of_mem_join hc with hc | ⟨segment, hsegment, hc⟩
    · obtain rfl : c = ':' := by simpa using hc
      exact absurd hm (by decide)
    · exact type.path.not_mem_segment hsegment (List.all_eq_true.mp hmarks c hm) hc
  have hlast : lastPiece [':', ':'] (Text.join "::".toList type.path.segments) =
      [] ++ type.path.last.text := by
    rw [hsegments]
    exact lastPiece_join (type.path.last.not_mem (by decide)) [':'] front
  refine Receiver.baseTypeName_of_lastPiece _ hplain hlast (List.forall_mem_nil _)
    (fun _ => type.path.last.isBlank_of_mem) (fun c hc => ?_) fun c hc => ?_
  · exact Receiver.not_mem_head?_name type.path.last [] c (by simpa using hc)
  · cases hparameters : type.parameters with
    | none => simp [hparameters] at hc
    | some list =>
        obtain rfl : '<' = c := by simpa [hparameters] using hc
        decide

end BodyType

/-! ## Homes -/

/-- Where functions belong: a function in a class to this, one in the body of a type to the name of
the type, a method to the type of its receiver, and any other one among the functions. -/
structure Belongs (reading : Reading) (home : Site → Home) : Prop where
  inClass : ∀ site scope, reading.enclosing? site.ancestors = some scope →
    (reading.classAt? scope).isSome = true → home site = .classAround
  inBody : ∀ site scope child (type : BodyType), reading.enclosing? site.ancestors = some scope →
    reading.classAt? scope = none → scope.node.kind ∈ reading.kinds.impls →
    scope.node.child? "type" = some child → child.text reading.source = type.text →
      home site = .typeNamed type.name
  withReceiver : ∀ site r, reading.language = .go → reading.enclosing? site.ancestors = none →
    HasReceiver reading site.node r → ∃ type, home site = .typeNamed type ∧
      (type = String.ofList r.type.text ↔ r.isGlued = false ∧ r.isStretched = false)
  alone : ∀ site, reading.enclosing? site.ancestors = none → (reading.language ≠ .go ∨
      site.node.kind ≠ "method_declaration" ∨ site.node.child? "receiver" = none) →
    home site = .functions

theorem belongs_home (reading : Reading) : Belongs reading reading.home where
  inClass := by
    intro site scope hscope hclass
    simp only [Reading.home, hscope, hclass, if_true]
  inBody := by
    intro site scope child type hscope hclass hkind hchild htext
    have htype : reading.typeAt? scope = some type.name := by
      rw [Reading.typeAt?, if_pos (List.contains_iff_mem.mpr hkind), hchild, Option.map_some, htext,
        type.baseTypeName_text]
    simp only [Reading.home, hscope, hclass, htype, Option.isSome_none, Bool.false_eq_true, if_false,
      Option.map_some, Option.getD_some]
  withReceiver := by
    intro site r hlanguage hscope hreceiver
    obtain ⟨type, hread, hiff⟩ := hreceiver.receiverType? hlanguage
    refine ⟨type, ?_, hiff⟩
    simp only [Reading.home, hscope, hread, Option.map_some, Option.getD_some]
  alone := by
    intro site hscope hother
    have hread : reading.receiverType? site.node = none := by
      unfold Reading.receiverType?
      rcases hother with hlanguage | hkind | hreceiver
      · simp [hlanguage, failure]
      · simp [hkind, failure]
      · simp [hreceiver, failure]
    simp only [Reading.home, hscope, hread, Option.map_none, Option.getD_none]

/-! ## Outlines -/

/-- What an outline holds of a tree. Each declared function is there once, as a function or as a
method. The functions are those that belong to no type, and the methods of types that are not
declared. The classes stand in the order of the text, each with the functions in it and with those
that join it. -/
structure Outlines (reading : Reading) (root : Node) (outline : Outline) : Prop where
  names : (outline.functions.map (·.name) ++ outline.classes.flatMap (·.methods)).Perm
    ((reading.entries (sites [] root)).map (·.decl.name))
  sorted : outline.functions.Pairwise fun a b => a.line ≤ b.line
  functions : outline.functions.Perm
    ((reading.entries (sites [] root)).filterMap Entry.free? ++
      unclaimed (reading.classes (sites [] root))
        ((reading.entries (sites [] root)).filterMap Entry.detached?))
  classes : outline.classes = (reading.classes (sites [] root)).mapIdx fun index =>
    joined (joining (reading.classes (sites [] root))
      ((reading.entries (sites [] root)).filterMap Entry.detached?) index)

/-- The outline of a tree loses and repeats nothing, and each declared function goes where it belongs.
Only a receiver that is glued or stretched is taken for one of another type. -/
theorem outlines_outline {reading : Reading}
    (h : Kinds.ofLanguage? reading.language = some reading.kinds) (root : Node) :
    Belongs reading reading.home ∧ Outlines reading root (outline root reading) := by
  have hk := Kinds.apart_of_ofLanguage? h
  have hsorted : (outline root reading).functions = sortedBy (·.line) _ := rfl
  refine ⟨belongs_home reading, ?_, ?_, functions_outline_perm hk root, classes_outline hk root⟩
  · refine List.Perm.trans ?_ (names_foldl_attach_visit hk root)
    rw [hsorted]
    exact ((sortedBy_perm _ _).map _).append_right _
  · rw [hsorted]
    exact pairwise_sortedBy _ _

/-- A type whose body stands in front of it, with a method and a function inside that. -/
def bodyInFront : Node :=
  let name (field : String) (start : Nat) : Node :=
    .mk "identifier" true (some field) .normal ⟨start, start + 1, 0, start, 0⟩ []
  let inner (kind : String) (row : Nat) (children : List Node) : Node :=
    .mk kind true none .normal ⟨0, 0, row, 0, row⟩ children
  inner "source_file" 0
    [inner "impl_item" 0 [name "type" 0, inner "function_item" 1 [name "name" 1,
      inner "function_item" 2 [name "name" 2]]], inner "struct_item" 3 [name "name" 0]]

/-- Read from `Sfg`: the type `S` gets the method `f`. -/
def readBody : Reading := ⟨.rust, [83, 102, 103], (Kinds.ofLanguage? .rust).get rfl⟩

theorem method_joins_type :
    (Kinds.ofLanguage? readBody.language = some readBody.kinds ∧
      (outline bodyInFront readBody).functions = [] ∧
      (outline bodyInFront readBody).classes = [⟨"S", ["f"], 4, false⟩]) ∧
    (Kinds.ofLanguage? (readPair "(p *Pair[K,V])").language =
        some (readPair "(p *Pair[K,V])").kinds ∧
      HasReceiver (readPair "(p *Pair[K,V])") (swapMethod 14)
        (pairReceiver "K,V".toList (by decide)) ∧
      (readPair "(p *Pair[K,V])").home ⟨[pairTree 14], swapMethod 14⟩ = .typeNamed "Pair" ∧
      (outline (pairTree 14) (readPair "(p *Pair[K,V])")).functions = [] ∧
      (outline (pairTree 14) (readPair "(p *Pair[K,V])")).classes =
        [⟨"Pair", ["Swap"], 1, true⟩]) := by
  have hbody : Kinds.ofLanguage? readBody.language = some readBody.kinds := rfl
  have hpair : Kinds.ofLanguage? (readPair "(p *Pair[K,V])").language =
      some (readPair "(p *Pair[K,V])").kinds := rfl
  have hrust := (outlines_outline hbody bodyInFront).2
  obtain ⟨hbelongs, hgo⟩ := outlines_outline hpair (pairTree 14)
  have hreceiver : HasReceiver (readPair "(p *Pair[K,V])") (swapMethod 14)
      (pairReceiver "K,V".toList (by decide)) := ⟨rfl, _, rfl, by decide +kernel⟩
  have hhome : (readPair "(p *Pair[K,V])").home ⟨[pairTree 14], swapMethod 14⟩ =
      .typeNamed "Pair" := by
    obtain ⟨type, hhome, hiff⟩ := hbelongs.withReceiver ⟨[pairTree 14], swapMethod 14⟩ _ rfl
      (by decide +kernel) hreceiver
    rw [hhome, hiff.mpr (by decide)]
    rfl
  have hnone : ∀ {reading : Reading} {root : Node}, Outlines reading root (outline root reading) →
      (reading.entries (sites [] root)).filterMap Entry.free? ++
        unclaimed (reading.classes (sites [] root))
          ((reading.entries (sites [] root)).filterMap Entry.detached?) = [] →
      (outline root reading).functions = [] := fun h hnil => (hnil ▸ h.functions).eq_nil
  refine ⟨⟨hbody, hnone hrust (by decide +kernel), ?_⟩, hpair, hreceiver, hhome,
    hnone hgo (by decide +kernel), ?_⟩
  · rw [hrust.classes]
    decide +kernel
  · rw [hgo.classes]
    decide +kernel

/-- The receiver `(p*Pair)`. -/
def gluedReceiver : Receiver :=
  { pairReceiver [] rfl with
    nameGap := (pairReceiver [] rfl).before
    parameters := none
    apart := fun _ h => absurd h.symm Bool.false_ne_true
    listed := rfl }

/-- A method stays among the functions, though a class has the name of its receiver's type. -/
theorem swap_stays_function :
    HasReceiver (readPair "(p*Pair)") (swapMethod 8) gluedReceiver ∧
      DeclaresType (readPair "(p*Pair)") ⟨[pairTree 8], pairType 8⟩
        (String.ofList gluedReceiver.type.text) ∧
      (outline (pairTree 8) (readPair "(p*Pair)")).classes = [⟨"Pair", [], 1, true⟩] ∧
      (outline (pairTree 8) (readPair "(p*Pair)")).functions = [⟨"Swap", 1, 1, true⟩] :=
  ⟨⟨rfl, _, rfl, by decide +kernel⟩,
    ⟨rfl, ⟨_, rfl, .inl rfl⟩, ⟨_, rfl, by decide +kernel⟩⟩, by decide +kernel, by decide +kernel⟩

end CodeAtlas.Tree
