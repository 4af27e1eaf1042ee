import CodeAtlas.Proofs.Tree.Outline

/-! Which declarations of a script are marked as exported. What stands between a declaration and its
nearest export is counted and not looked at, and so a class in an exported function can be marked as
well. -/

namespace CodeAtlas.Tree

/-! ## Ancestors of a declaration -/

/-- The ancestors below the nearest export, of which the first one is the parent. -/
def belowExport? : List Node → Option (List Node)
  | [] => none
  | node :: rest =>
    if node.kind == "export_statement" then some [] else (belowExport? rest).map (node :: ·)

namespace Site

/-- Less than five ancestors lie below the nearest export, and no program among them. -/
def reachesExport (site : Site) : Bool :=
  (belowExport? site.ancestors).any fun between =>
    between.length < 5 && between.all fun node => node.kind != "program"

/-- A class or a function lies below the nearest export, around the site. -/
def isNested (kinds : Kinds) (site : Site) : Bool :=
  (belowExport? site.ancestors).any fun between =>
    between.any fun node => kinds.classes.contains node.kind || kinds.functions.contains node.kind

end Site

/-- The first `n` ancestors up to the program hold an export if it is reached within them. -/
theorem any_take_takeWhile (ancestors : List Node) (n : Nat) :
    (((ancestors.take n).takeWhile fun a => a.kind != "program").any
        fun a => a.kind == "export_statement") =
      (belowExport? ancestors).any fun between =>
        between.length < n && between.all fun node => node.kind != "program" := by
  induction ancestors generalizing n with
  | nil => simp [belowExport?]
  | cons node rest ih =>
      cases n with
      | zero => simp
      | succ n =>
          rw [List.take_succ_cons, List.takeWhile_cons, belowExport?]
          cases hexport : node.kind == "export_statement" with
          | true => simp [beq_iff_eq.mp hexport]
          | false =>
              rw [if_neg Bool.false_ne_true, Option.any_map]
              cases hprogram : node.kind != "program" with
              | true => simp [hexport, hprogram, ih n]
              | false => simp [hprogram]

/-! ## Marks -/

/-- What an outline tells of the visibility of a function or class. -/
structure Mark where
  isClass : Bool
  name : String
  line : Nat
  exported : Bool
  deriving DecidableEq

namespace Mark

def ofFunction (decl : FunctionDecl) : Mark := ⟨false, decl.name, decl.line, decl.exported⟩

def ofClass (decl : ClassDecl) : Mark := ⟨true, decl.name, decl.line, decl.exported⟩

end Mark

/-- The marks of an outline, those of its classes first. -/
def marks (outline : Outline) : List Mark :=
  outline.classes.map .ofClass ++ outline.functions.map .ofFunction

namespace Reading

variable {reading : Reading} {site : Site}

/-- The mark of the class or function that is recorded for a site. -/
def mark? (reading : Reading) (site : Site) : Option Mark :=
  match reading.classDecl? site with
  | some decl => some (.ofClass decl)
  | none => ((reading.entryAt? site).bind Entry.free?).map .ofFunction

theorem exported_of_mark? {mark : Mark} (h : reading.mark? site = some mark) :
    mark.exported = reading.isExported site.ancestors site.node mark.name := by
  unfold mark? at h
  split at h
  · rename_i decl hclass
    obtain ⟨name, -, rfl⟩ := Option.map_eq_some_iff.mp hclass
    cases h
    rfl
  · obtain ⟨decl, hfree, rfl⟩ := Option.map_eq_some_iff.mp h
    obtain ⟨entry, hentry, hfree⟩ := Option.bind_eq_some_iff.mp hfree
    rw [entryAt?] at hentry
    split at hentry
    · cases hentry
    · obtain ⟨name, -, rfl⟩ := Option.map_eq_some_iff.mp hentry
      unfold Entry.free? at hfree
      split at hfree
      · cases hfree
        rfl
      · cases hfree

/-- The recorded classes and functions of some sites. -/
theorem perm_filterMap_mark? (hk : reading.kinds.Apart) (all : List Site) :
    ((reading.classes all).map Mark.ofClass ++
        ((reading.entries all).filterMap Entry.free?).map Mark.ofFunction).Perm
      (all.filterMap reading.mark?) := by
  -- a site is recorded once, since no function is a class
  induction all with
  | nil => rfl
  | cons site all ih =>
      rw [Reading.classes, entries, List.filterMap_cons, List.filterMap_cons, List.filterMap_cons]
      cases hclass : reading.classDecl? site with
      | some decl =>
          obtain ⟨name, hname, -⟩ := Option.map_eq_some_iff.mp hclass
          have hentry := entryAt?_of_functionAt?_eq_none (functionAt?_of_classAt? hk hname)
          have hmark : reading.mark? site = some (.ofClass decl) := by simp only [mark?, hclass]
          simp only [hentry, hmark]
          exact ih.cons _
      | none =>
          have hmark : reading.mark? site =
              ((reading.entryAt? site).bind Entry.free?).map .ofFunction := by
            simp only [mark?, hclass]
          cases hentry : reading.entryAt? site with
          | none =>
              simp only [hmark, hentry]
              exact ih
          | some entry =>
              rw [List.filterMap_cons]
              cases hfree : entry.free? with
              | none =>
                  simp only [hmark, hentry, hfree, Option.bind_some]
                  exact ih
              | some decl =>
                  simp only [hmark, hentry, hfree, Option.bind_some]
                  exact List.perm_middle.trans (ih.cons _)

/-! ## Scripts -/

/-- The source is a script that is read by its grammar. -/
structure IsScript (reading : Reading) : Prop where
  language : reading.language = .typeScript ∨ reading.language = .javaScript
  kinds : Kinds.ofLanguage? reading.language = some reading.kinds

namespace IsScript

theorem impls_eq_nil (h : reading.IsScript) : reading.kinds.impls = [] := by
  have hkinds := h.kinds
  rcases h.language with hlanguage | hlanguage <;>
  · rw [hlanguage] at hkinds
    rw [← Option.some_inj.mp hkinds]

/-- No method of a script is declared apart from its class. -/
theorem detached?_eq_none (h : reading.IsScript) (site : Site) :
    (reading.entryAt? site).bind Entry.detached? = none := by
  have htype : ∀ scope, reading.typeAt? scope = none := by
    intro scope
    rw [typeAt?, h.impls_eq_nil]
    rfl
  have hreceiver : reading.receiverType? site.node = none := by
    rw [receiverType?, if_pos]
    · rfl
    · rcases h.language with hlanguage | hlanguage <;> simp [hlanguage]
  have hhome : reading.home site = .functions ∨ reading.home site = .classAround := by
    rw [home, hreceiver]
    split
    · exact .inl rfl
    · split
      · exact .inr rfl
      · rw [htype]
        exact .inl rfl
  rw [entryAt?]
  split
  · rfl
  · cases reading.functionAt? site with
    | none => rfl
    | some name => rcases hhome with hhome | hhome <;> simp [Entry.detached?, hhome]

theorem isExported_eq (h : reading.IsScript) (site : Site) (name : String) :
    reading.isExported site.ancestors site.node name = site.reachesExport := by
  rw [Site.reachesExport, ← any_take_takeWhile]
  rcases h.language with hlanguage | hlanguage <;> rw [isExported, hlanguage]

end IsScript

/-- What is recorded for a class or function in an exported one is not marked as exported. -/
def HidesNested (reading : Reading) (root : Node) : Prop :=
  ∀ site ∈ sites [] root, ∀ mark, reading.mark? site = some mark →
    site.isNested reading.kinds = true → mark.exported = false

end Reading

/-- What an outline tells of a script's exports. Each recorded class and function is marked as
exported if an export is reached from it. One in another class or function is hidden only by its
distance from the export. -/
structure MarksExports (reading : Reading) (root : Node) (outline : Outline) : Prop where
  marks : (marks outline).Perm ((sites [] root).filterMap reading.mark?)
  exported : ∀ site ∈ sites [] root, ∀ mark, reading.mark? site = some mark →
    mark.exported = site.reachesExport
  nested : reading.HidesNested root ↔ ∀ site ∈ sites [] root, (reading.mark? site).isSome = true →
    site.isNested reading.kinds = true → site.reachesExport = false

theorem marksExports_outline {reading : Reading} (h : reading.IsScript) (root : Node) :
    MarksExports reading root (outline root reading) := by
  have hk := Kinds.apart_of_ofLanguage? h.kinds
  have hdetached : (reading.entries (sites [] root)).filterMap Entry.detached? = [] := by
    rw [Reading.entries, List.filterMap_filterMap, List.filterMap_eq_nil_iff]
    exact fun site _ => h.detached?_eq_none site
  have hexported : ∀ site mark, reading.mark? site = some mark →
      mark.exported = site.reachesExport := by
    intro site mark hmark
    rw [Reading.exported_of_mark? hmark, h.isExported_eq]
  refine ⟨?_, fun site _ => hexported site, ?_⟩
  · have hclasses : (outline root reading).classes.map Mark.ofClass =
        (reading.classes (sites [] root)).map Mark.ofClass := by
      rw [classes_outline hk]
      refine List.ext_getElem? fun index => ?_
      rw [List.getElem?_map, List.getElem?_map, List.getElem?_mapIdx, Option.map_map]
      rfl
    have hfunctions := (functions_outline_perm hk root).map Mark.ofFunction
    rw [hdetached] at hfunctions
    rw [marks, hclasses]
    refine List.Perm.trans (hfunctions.append_left _) ?_
    simpa [unclaimed] using Reading.perm_filterMap_mark? hk (sites [] root)
  · constructor
    · intro hhides site hsite hsome hnested
      obtain ⟨mark, hmark⟩ := Option.isSome_iff_exists.mp hsome
      rw [← hexported site mark hmark]
      exact hhides site hsite mark hmark hnested
    · intro hreaches site hsite mark hmark hnested
      rw [hexported site mark hmark]
      exact hreaches site hsite (by simp [hmark]) hnested

/-- A class in so many blocks of an exported function. -/
def localClass (blocks : Nat) : Node :=
  let inner (kind : String) (children : List Node) : Node :=
    .mk kind true none .normal ⟨0, 9, 0, 0, 0⟩ children
  let name (start stop : Nat) : Node :=
    .mk "identifier" true (some "name") .normal ⟨start, stop, 0, start, 0⟩ []
  let body := blocks.repeat (fun node => inner "statement_block" [node])
    (inner "class_declaration" [name 4 9])
  inner "program" [inner "export_statement" [inner "function_declaration" [name 0 4, body]]]

/-- Read from `makeLocal`: the function `make` with the class `Local` in it. -/
def readMake : Reading :=
  ⟨.javaScript, [109, 97, 107, 101, 76, 111, 99, 97, 108], (Kinds.ofLanguage? .javaScript).get rfl⟩

/-- In four blocks the class is too far away from the export. -/
theorem localClass_hidden : readMake.IsScript ∧ readMake.HidesNested (localClass 4) ∧
    (marks (outline (localClass 4) readMake)).Perm
      [⟨false, "make", 1, true⟩, ⟨true, "Local", 1, false⟩] := by
  have hscript : readMake.IsScript := ⟨.inr rfl, rfl⟩
  have h := marksExports_outline hscript (localClass 4)
  have hmarks : (sites [] (localClass 4)).filterMap readMake.mark? =
      [⟨false, "make", 1, true⟩, ⟨true, "Local", 1, false⟩] := by decide +kernel
  have hall : (sites [] (localClass 4)).all fun site => !(readMake.mark? site).isSome ||
      !site.isNested readMake.kinds || !site.reachesExport := by decide +kernel
  refine ⟨hscript, h.nested.mpr fun site hsite hsome hnested => ?_, hmarks ▸ h.marks⟩
  simpa [hsome, hnested] using List.all_eq_true.mp hall site hsite

/-- In the function's own block it is marked as exported. -/
theorem localClass_marked : ¬readMake.HidesNested (localClass 1) ∧
    (outline (localClass 1) readMake).classes = [⟨"Local", [], 1, true⟩] := by
  have hany : (sites [] (localClass 1)).any fun site =>
      site.isNested readMake.kinds && (readMake.mark? site).any (·.exported) := by decide +kernel
  obtain ⟨site, hsite, h⟩ := List.any_eq_true.mp hany
  obtain ⟨hnested, hmarked⟩ := Bool.and_eq_true_iff.mp h
  obtain ⟨mark, hmark, hexported⟩ := (Option.any_eq_true _ _).mp hmarked
  refine ⟨fun hhides => ?_, by decide +kernel⟩
  rw [hhides site hsite mark hmark hnested] at hexported
  cases hexported

end CodeAtlas.Tree
