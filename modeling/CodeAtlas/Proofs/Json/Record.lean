import CodeAtlas.Outline.Record
import Mathlib.Data.List.Basic

/-! What is read from a record that was written for a value is that value, if anything can be read:
a number may be too large for its field. Only binary numbers may change when they are written. -/

namespace CodeAtlas

open Json (Fields)

namespace Json

def Restores {α : Type} (read : Json → Option α) (write : α → Json) : Prop :=
  ∀ ⦃x y⦄, read (write x) = some y → y = x

/-! ## Values -/

theorem restores_str : Restores str? .str := by
  intro x y h
  exact (Option.some.inj h).symm

theorem restores_bool : Restores bool? .bool := by
  intro x y h
  exact (Option.some.inj h).symm

theorem restores_below (limit : Nat) : Restores (below? limit) ofNat := by
  intro x y h
  exact (Option.some.inj (Option.filter_eq_some_iff.mp h).1).symm

theorem restores_binary : Restores binary? .binary := by
  intro x y h
  exact (Option.some.inj h).symm

theorem restores_tagged {α : Type} {ofTag? : String → Option α} {tag : α → String}
    (htag : ∀ x, ofTag? (tag x) = some x) : Restores (tagged? ofTag?) fun x => .str (tag x) := by
  intro x y h
  exact Option.some.inj (h.symm.trans (htag x))

theorem language?_ofLanguage (language : Language) :
    language? (ofLanguage language) = some language := by
  cases language <;> decide

theorem restores_language : Restores language? ofLanguage := by
  intro language other h
  exact Option.some.inj (h.symm.trans (language?_ofLanguage language))

section Lists

variable {α : Type} {read : Json → Option α} {write : α → Json}

theorem Restores.mapM (h : Restores read write) {xs ys : List α}
    (hread : (xs.map write).mapM read = some ys) : ys = xs := by
  induction xs generalizing ys with
  | nil => exact (Option.some.inj hread).symm
  | cons x xs ih =>
      simp only [List.map_cons, List.mapM_cons, Option.bind_eq_bind, Option.bind_eq_some_iff,
        Option.pure_def, Option.some.injEq] at hread
      obtain ⟨y, hy, rest, hrest, rfl⟩ := hread
      rw [h hy, ih hrest]

theorem Restores.list (h : Restores read write) :
    Restores (list? read) fun xs => .arr (xs.map write) := by
  intro xs ys hread
  exact h.mapM hread

theorem restores_strings : Restores strings? strs := restores_str.list

end Lists

/-! ## Fields -/

section Fields

variable {α : Type} {read : Json → Option α} {write : α → Json} {fields : Fields} {name : String}

theorem Restores.get (h : Restores read write) {x y : α} (hfield : fields name = some (write x))
    (hread : fields.get name read = some y) : y = x := by
  rw [Fields.get, hfield] at hread
  exact h hread

theorem Fields.opt_of_ne_null {value : Json} (hnull : value ≠ .null)
    (hfield : fields name = some value) : fields.opt name read = (read value).map some := by
  rw [Fields.opt, hfield]
  cases value <;> first | rfl | contradiction

/-- A field that may be missing is restored if no value is written as null. -/
theorem Restores.opt (h : Restores read write) (hnull : ∀ x, write x ≠ .null) {x y : Option α}
    (hfield : fields name = some (ofOption write x)) (hread : fields.opt name read = some y) :
    y = x := by
  cases x with
  | none =>
      rw [Fields.opt, hfield] at hread
      exact (Option.some.inj hread).symm
  | some x =>
      rw [Fields.opt_of_ne_null (hnull x) hfield] at hread
      obtain ⟨value, hvalue, rfl⟩ := Option.map_eq_some_iff.mp hread
      rw [h hvalue]

end Fields

end Json

/-! ## What writing leaves as it is -/

/-- The number is read as it was written. -/
def Binary.Unchanged (x : Binary) : Prop := x.reread? = some x

instance (x : Binary) : Decidable x.Unchanged :=
  inferInstanceAs (Decidable (x.reread? = some x))

namespace Json

/-- The value is read as it was written. -/
def Unchanged (value : Json) : Prop := value.reread? = some value

section Unchanged

variable {α : Type} {write : α → Json}

@[simp] theorem unchanged_null : null.Unchanged := rfl

@[simp] theorem unchanged_bool (b : Bool) : (bool b).Unchanged := rfl

@[simp] theorem unchanged_ofNat (n : Nat) : (ofNat n).Unchanged := rfl

@[simp] theorem unchanged_str (s : String) : (str s).Unchanged := rfl

@[simp] theorem unchanged_binary_iff (x : Binary) : (binary x).Unchanged ↔ x.Unchanged := by
  rw [Unchanged, Binary.Unchanged, reread?]
  cases x.reread? with
  | none => simp
  | some y => simp

theorem unchanged_ofOption (h : ∀ x, (write x).Unchanged) (x : Option α) :
    (ofOption write x).Unchanged := by
  cases x with
  | none => rfl
  | some x => exact h x

theorem unchanged_list (h : ∀ x, (write x).Unchanged) (xs : List α) :
    (arr (xs.map write)).Unchanged := by
  have hitems : rereadItems? (xs.map write) = some (xs.map write) := by
    induction xs with
    | nil => rfl
    | cons x xs ih =>
        have hx : (write x).reread? = some (write x) := h x
        rw [List.map_cons, rereadItems?, hx, ih]
        rfl
  rw [Unchanged, reread?, hitems, Option.map_some]

@[simp] theorem unchanged_strs (items : List String) : (strs items).Unchanged :=
  unchanged_list unchanged_str items

variable {fields : List (String × Json)}

theorem rereadFields?_of_unchanged (h : ∀ field ∈ fields, field.2.Unchanged) :
    rereadFields? fields = some fields := by
  induction fields with
  | nil => rfl
  | cons field fields ih =>
      obtain ⟨hfirst, hrest⟩ := List.forall_mem_cons.mp h
      have hvalue : field.2.reread? = some field.2 := hfirst
      rw [rereadFields?, hvalue, ih hrest]
      rfl

theorem unchanged_obj (h : ∀ field ∈ fields, field.2.Unchanged) : (obj fields).Unchanged := by
  rw [Unchanged, reread?, rereadFields?_of_unchanged h, Option.map_some]

/-- Of several members only one may change. -/
theorem rereadFields?_around (front back : List (String × Json))
    (hfront : ∀ field ∈ front, field.2.Unchanged) (hback : ∀ field ∈ back, field.2.Unchanged)
    (name : String) (value : Json) :
    rereadFields? (front ++ (name, value) :: back) =
      value.reread?.map fun value => front ++ (name, value) :: back := by
  induction front with
  | nil =>
      rw [List.nil_append, rereadFields?, rereadFields?_of_unchanged hback]
      cases value.reread? <;> rfl
  | cons field front ih =>
      obtain ⟨hfirst, hrest⟩ := List.forall_mem_cons.mp hfront
      have hvalue : field.2.reread? = some field.2 := hfirst
      rw [List.cons_append, rereadFields?, hvalue, ih hrest]
      cases value.reread? <;> rfl

end Unchanged

/-! ### Values without binary numbers -/

mutual

/-- No binary number stands in the value. -/
def isExact : Json → Bool
  | .binary _ => false
  | .arr items => itemsExact items
  | .obj fields => fieldsExact fields
  | _ => true

def itemsExact : List Json → Bool
  | [] => true
  | item :: items => item.isExact && itemsExact items

def fieldsExact : List (String × Json) → Bool
  | [] => true
  | (_, value) :: fields => value.isExact && fieldsExact fields

end

mutual

theorem unchanged_of_isExact : (value : Json) → value.isExact → value.Unchanged
  | .null, _ | .bool _, _ | .int _, _ | .real _, _ | .str _, _ => rfl
  | .arr items, h => by
      rw [Unchanged, reread?, rereadItems?_of_itemsExact items h, Option.map_some]
  | .obj fields, h => by
      rw [Unchanged, reread?, rereadFields?_of_fieldsExact fields h, Option.map_some]

theorem rereadItems?_of_itemsExact :
    (items : List Json) → itemsExact items → rereadItems? items = some items
  | [], _ => rfl
  | item :: items, h => by
      obtain ⟨hitem, hitems⟩ := Bool.and_eq_true_iff.mp h
      have hfirst : item.reread? = some item := unchanged_of_isExact item hitem
      rw [rereadItems?, hfirst, rereadItems?_of_itemsExact items hitems]
      rfl

theorem rereadFields?_of_fieldsExact :
    (fields : List (String × Json)) → fieldsExact fields → rereadFields? fields = some fields
  | [], _ => rfl
  | (name, value) :: fields, h => by
      obtain ⟨hvalue, hfields⟩ := Bool.and_eq_true_iff.mp h
      have hfirst : value.reread? = some value := unchanged_of_isExact value hvalue
      rw [rereadFields?, hfirst, rereadFields?_of_fieldsExact fields hfields]
      rfl

end

/-! ## Reading back -/

section ReadingBack

variable {α : Type} {read : Json → Option α} {write : α → Json} {fields : Fields} {name : String}

theorem below?_ofNat {limit n : Nat} (h : n < limit) : below? limit (ofNat n) = some n :=
  Option.filter_eq_some_iff.mpr ⟨rfl, decide_eq_true h⟩

theorem list?_map {xs : List α} (h : ∀ x ∈ xs, read (write x) = some x) :
    list? read (.arr (xs.map write)) = some xs := by
  show (xs.map write).mapM read = some xs
  induction xs with
  | nil => rfl
  | cons x xs ih =>
      obtain ⟨hfirst, hrest⟩ := List.forall_mem_cons.mp h
      rw [List.map_cons, List.mapM_cons, hfirst, ih hrest]
      rfl

theorem strings?_strs (items : List String) : strings? (strs items) = some items :=
  list?_map fun _ _ => rfl

theorem Fields.opt_ofOption (hnull : ∀ x, write x ≠ .null) (hread : ∀ x, read (write x) = some x)
    {x : Option α} (hfield : fields name = some (ofOption write x)) :
    fields.opt name read = some x := by
  cases x with
  | none =>
      rw [Fields.opt, hfield]
      rfl
  | some x => rw [Fields.opt_of_ne_null (hnull x) hfield, hread, Option.map_some]

theorem Fields.opt_str {x : Option String} (hfield : fields name = some (ofOption .str x)) :
    fields.opt name str? = some x := by
  refine Fields.opt_ofOption ?_ ?_ hfield
  · intro text h
    cases h
  · intro text
    rfl

/-- A value as it is read where it may be missing. -/
def unlessNull : Json → Option Json
  | .null => none
  | value => some value

theorem unlessNull_eq_some_iff {value other : Json} :
    value.unlessNull = some other ↔ value = other ∧ other ≠ .null := by
  cases value <;> simp [unlessNull] <;> rintro rfl <;> simp

theorem Fields.opt_some {value : Json} (hfield : fields name = some value) :
    fields.opt name some = some value.unlessNull := by
  rw [Fields.opt, hfield]
  cases value <;> rfl

end ReadingBack

/-! ## Depth -/

section Depth

variable {α : Type} {write : α → Json} {n : Nat}

@[simp] theorem depth_bool (b : Bool) : (bool b).depth = 0 := rfl

@[simp] theorem depth_ofNat (n : Nat) : (ofNat n).depth = 0 := rfl

@[simp] theorem depth_binary (x : Binary) : (binary x).depth = 0 := rfl

@[simp] theorem depth_str (s : String) : (str s).depth = 0 := rfl

@[simp] theorem depth_ofOption_str (x : Option String) : (ofOption str x).depth = 0 := by
  cases x <;> rfl

theorem depth_arr_le_iff {items : List Json} :
    (arr items).depth ≤ n + 1 ↔ ∀ item ∈ items, item.depth ≤ n := by
  rw [depth, Nat.add_le_add_iff_right]
  induction items with
  | nil => simp [depthOfItems]
  | cons item items ih => rw [depthOfItems, Nat.max_le, ih, List.forall_mem_cons]

theorem depth_obj_le_iff {fields : List (String × Json)} :
    (obj fields).depth ≤ n + 1 ↔ ∀ field ∈ fields, field.2.depth ≤ n := by
  rw [depth, Nat.add_le_add_iff_right]
  induction fields with
  | nil => simp [depthOfFields]
  | cons field fields ih => rw [depthOfFields, Nat.max_le, ih, List.forall_mem_cons]

theorem depth_list_le (h : ∀ x, (write x).depth ≤ n) (xs : List α) :
    (arr (xs.map write)).depth ≤ n + 1 := by
  apply depth_arr_le_iff.mpr
  intro item hitem
  obtain ⟨x, -, rfl⟩ := List.mem_map.mp hitem
  exact h x

theorem depth_strs_le (items : List String) : (strs items).depth ≤ 1 :=
  depth_list_le (fun _ => Nat.le_refl 0) items

theorem depth_ofOption_le (h : ∀ x, (write x).depth ≤ n) (x : Option α) :
    (ofOption write x).depth ≤ n := by
  cases x with
  | none => exact Nat.zero_le n
  | some x => exact h x

end Depth

end Json

/-! ## Declarations -/

open Json

theorem FunctionDecl.restores : Restores ofJson? toJson := by
  intro f g h
  simp only [ofJson?, toJson, record?, Option.bind_eq_bind, Option.bind_some,
    Option.bind_eq_some_iff, Option.pure_def, Option.some.injEq] at h
  obtain ⟨name, hname, line, hline, complexity, hcomplexity, exported, hexported, rfl⟩ := h
  rw [restores_str.get rfl hname, (restores_below _).get rfl hline,
    (restores_below _).get rfl hcomplexity, restores_bool.get rfl hexported]

theorem ClassDecl.restores : Restores ofJson? toJson := by
  intro c d h
  simp only [ofJson?, toJson, record?, Option.bind_eq_bind, Option.bind_some,
    Option.bind_eq_some_iff, Option.pure_def, Option.some.injEq] at h
  obtain ⟨name, hname, methods, hmethods, line, hline, exported, hexported, rfl⟩ := h
  rw [restores_str.get rfl hname, restores_strings.get rfl hmethods,
    (restores_below _).get rfl hline, restores_bool.get rfl hexported]

theorem ImportKind.ofTag?_tag (kind : ImportKind) : ofTag? kind.tag = some kind := by
  cases kind <;> decide

theorem ImportDecl.restores : Restores ofJson? toJson := by
  intro i j h
  simp only [ofJson?, toJson, record?, Option.bind_eq_bind, Option.bind_some,
    Option.bind_eq_some_iff, Option.pure_def, Option.some.injEq] at h
  obtain ⟨source, hsource, kind, hkind, names, hnames, line, hline, rfl⟩ := h
  rw [restores_str.get rfl hsource, (restores_tagged ImportKind.ofTag?_tag).get rfl hkind,
    restores_strings.get rfl hnames, (restores_below _).get rfl hline]

theorem FunctionDecl.unchanged_toJson (f : FunctionDecl) : f.toJson.Unchanged := by
  apply unchanged_obj
  simp

theorem ClassDecl.unchanged_toJson (c : ClassDecl) : c.toJson.Unchanged := by
  apply unchanged_obj
  simp

theorem ImportDecl.unchanged_toJson (i : ImportDecl) : i.toJson.Unchanged := by
  apply unchanged_obj
  simp

/-- The numbers fit into the words that they are read as. -/
structure FunctionDecl.Fits (f : FunctionDecl) : Prop where
  line : f.line < UInt32.size
  complexity : f.complexity < UInt32.size

theorem FunctionDecl.ofJson?_toJson {f : FunctionDecl} (h : f.Fits) :
    ofJson? f.toJson = some f := by
  unfold ofJson?
  refine Option.bind_eq_some_iff.mpr ⟨_, rfl, ?_⟩
  refine Option.bind_eq_some_iff.mpr ⟨f.name, rfl, ?_⟩
  refine Option.bind_eq_some_iff.mpr ⟨f.line, below?_ofNat h.line, ?_⟩
  refine Option.bind_eq_some_iff.mpr ⟨f.complexity, below?_ofNat h.complexity, ?_⟩
  exact Option.bind_eq_some_iff.mpr ⟨f.exported, rfl, rfl⟩

theorem ClassDecl.ofJson?_toJson {c : ClassDecl} (h : c.line < UInt32.size) :
    ofJson? c.toJson = some c := by
  unfold ofJson?
  refine Option.bind_eq_some_iff.mpr ⟨_, rfl, ?_⟩
  refine Option.bind_eq_some_iff.mpr ⟨c.name, rfl, ?_⟩
  refine Option.bind_eq_some_iff.mpr ⟨c.methods, strings?_strs c.methods, ?_⟩
  refine Option.bind_eq_some_iff.mpr ⟨c.line, below?_ofNat h, ?_⟩
  exact Option.bind_eq_some_iff.mpr ⟨c.exported, rfl, rfl⟩

theorem ImportDecl.ofJson?_toJson {i : ImportDecl} (h : i.line < UInt32.size) :
    ofJson? i.toJson = some i := by
  unfold ofJson?
  refine Option.bind_eq_some_iff.mpr ⟨_, rfl, ?_⟩
  refine Option.bind_eq_some_iff.mpr ⟨i.source, rfl, ?_⟩
  refine Option.bind_eq_some_iff.mpr ⟨i.kind, ImportKind.ofTag?_tag i.kind, ?_⟩
  refine Option.bind_eq_some_iff.mpr ⟨i.names, strings?_strs i.names, ?_⟩
  exact Option.bind_eq_some_iff.mpr ⟨i.line, below?_ofNat h, rfl⟩

theorem FunctionDecl.depth_toJson_le (f : FunctionDecl) : f.toJson.depth ≤ 2 := by
  apply depth_obj_le_iff.mpr
  simp

theorem ClassDecl.depth_toJson_le (c : ClassDecl) : c.toJson.depth ≤ 2 := by
  apply depth_obj_le_iff.mpr
  simp [depth_strs_le]

theorem ImportDecl.depth_toJson_le (i : ImportDecl) : i.toJson.depth ≤ 2 := by
  apply depth_obj_le_iff.mpr
  simp [depth_strs_le]

end CodeAtlas
