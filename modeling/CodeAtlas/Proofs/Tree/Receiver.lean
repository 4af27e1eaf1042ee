import CodeAtlas.Proofs.Tree.Outline
import CodeAtlas.Proofs.Tree.Path

/-! Receivers of methods. The type of one is looked for in its last word, and so it is found unless
a blank stands in the type's parameters or none stands behind the receiver's name. -/

namespace CodeAtlas.Tree

/-! ## Receivers -/

/-- Blanks, or nothing. -/
structure Gap where
  text : Text
  blank : text.allBlank = true

namespace Gap

theorem isBlank_of_mem (gap : Gap) {c : Char} (hc : c ∈ gap.text) : Text.isBlank c = true :=
  List.all_eq_true.mp gap.blank c hc

theorem isBlank_of_mem_getLast? (gap : Gap) (hne : gap.text ≠ []) (front : Text) :
    ∀ c ∈ (front ++ gap.text).getLast?, Text.isBlank c = true := by
  intro c hc
  rw [List.getLast?_append_of_ne_nil _ hne] at hc
  exact gap.isBlank_of_mem (List.mem_of_getLast? hc)

end Gap

/-- A part of a list of names: blanks, commas and what names are made of. -/
def isListed (c : Char) : Bool :=
  c == ',' || Text.isBlank c || !Text.isDelimiter c

/-- A receiver, with the blanks between its parts. `parameters` is what stands in brackets behind
its type. -/
structure Receiver where
  before : Gap
  name : Option Text.Name
  nameGap : Gap
  pointer : Bool
  pointerGap : Gap
  type : Text.Name
  typeGap : Gap
  parameters : Option Text
  after : Gap
  apart : name.isSome = true → pointer = false → nameGap.text ++ pointerGap.text ≠ []
  listed : parameters.all (·.all isListed) = true

namespace Receiver

variable (r : Receiver)

/-- What stands in front of the type. -/
def lead : Text :=
  r.before.text ++ ((r.name.map (·.text)).getD [] ++ (r.nameGap.text ++
    ((if r.pointer then ['*'] else []) ++ r.pointerGap.text)))

def brackets : Text :=
  match r.parameters with
  | none => []
  | some list => '[' :: (list ++ [']'])

def body : Text := r.lead ++ (r.type.text ++ (r.typeGap.text ++ (r.brackets ++ r.after.text)))

def text : Text := '(' :: (r.body ++ [')'])

/-- Nothing but a star stands between the name and the type. -/
def isGlued : Bool := r.name.isSome && (r.nameGap.text ++ r.pointerGap.text).isEmpty

/-- A blank stands between the type and the end of its parameters. -/
def isStretched : Bool := r.parameters.any fun list => (r.typeGap.text ++ list).any Text.isBlank

variable {r}

/-- What stands right in front of the type. -/
theorem exists_lead (r : Receiver) : ∃ front stuck, r.lead = front ++ stuck ∧
    (∀ c ∈ front.getLast?, Text.isBlank c = true) ∧
    if r.isGlued then ∃ name : Text.Name, stuck = name.text ++ ['*']
    else stuck = [] ∨ stuck = ['*'] := by
  obtain ⟨before, name, nameGap, pointer, pointerGap, type, typeGap, parameters, after, apart, -⟩ :=
    r
  have hbefore : ∀ c ∈ before.text.getLast?, Text.isBlank c = true := fun c hc =>
    before.isBlank_of_mem (List.mem_of_getLast? hc)
  -- the last gap that is not empty ends what stands apart from the type
  by_cases hpointerGap : pointerGap.text = []
  · by_cases hnameGap : nameGap.text = []
    · cases name with
      | none =>
          refine ⟨before.text, if pointer then ['*'] else [], ?_, hbefore, ?_⟩
          · simp [lead, hnameGap, hpointerGap]
          · cases pointer <;> simp [isGlued]
      | some name =>
          have hpointer : pointer = true := by
            refine Bool.eq_true_of_not_eq_false fun h => apart rfl h ?_
            rw [hnameGap, hpointerGap]
            rfl
          refine ⟨before.text, name.text ++ ['*'], ?_, hbefore, ?_⟩
          · simp [lead, hnameGap, hpointerGap, hpointer]
          · simp [isGlued, hnameGap, hpointerGap]
    · refine ⟨before.text ++ (name.map (·.text)).getD [] ++ nameGap.text,
        if pointer then ['*'] else [], ?_, nameGap.isBlank_of_mem_getLast? hnameGap _, ?_⟩
      · simp [lead, hpointerGap]
      · cases pointer <;> simp [isGlued, hnameGap]
  · refine ⟨before.text ++ (name.map (·.text)).getD [] ++ nameGap.text ++
      (if pointer then ['*'] else []) ++ pointerGap.text, [], ?_,
      pointerGap.isBlank_of_mem_getLast? hpointerGap _, ?_⟩
    · simp [lead]
    · simp [isGlued, hpointerGap]

/-! ## Names of types -/

theorem plain_of_mem_name (name : Text.Name) {c : Char} (hc : c ∈ name.text) :
    Text.isBlank c = false ∧ c ∉ "<[:".toList := by
  have hmarks : "<[:".toList.all Text.isDelimiter = true := by decide
  exact ⟨name.isBlank_of_mem hc, fun hm => name.not_mem (List.all_eq_true.mp hmarks c hm) hc⟩

theorem not_mem_head?_name (name : Text.Name) (rest : Text) :
    ∀ c ∈ (name.text ++ rest).head?, c ∉ "&*".toList := by
  intro c hc hm
  have hmarks : "&*".toList.all Text.isDelimiter = true := by decide
  rw [List.head?_append_of_ne_nil _ name.ne_nil] at hc
  exact name.not_mem (List.all_eq_true.mp hmarks c hm) (List.mem_of_mem_head? hc)

/-- A type is named by the last piece of what stands in front of its parameters, without its stars. -/
theorem baseTypeName_of_lastPiece {head marks stem : Text} (rest : Text)
    (hplain : ∀ c ∈ head, c ∉ "<[".toList) (hlast : lastPiece [':', ':'] head = marks ++ stem)
    (hmarks : ∀ c ∈ marks, c = '*') (hstem : ∀ c ∈ stem, Text.isBlank c = false)
    (hhead : ∀ c ∈ stem.head?, c ∉ "&*".toList) (hrest : ∀ c ∈ rest.head?, c ∈ "<[".toList) :
    baseTypeName (head ++ rest) = String.ofList stem := by
  have htake : (head ++ rest).takeWhile (fun c => c != '<' && c != '[') = head := by
    rw [List.takeWhile_append_of_pos fun c hc => ?_]
    · cases rest with
      | nil => simp
      | cons c rest =>
          have hc := hrest c rfl
          simp at hc
          rcases hc with rfl | rfl <;> simp
    · have hne := hplain c hc
      simp at hne
      simp [hne]
  have hdrop : (marks ++ stem).dropWhile (fun c => c == '&' || c == '*') = stem := by
    rw [List.dropWhile_append_of_pos fun c hc => by simp [hmarks c hc]]
    cases stem with
    | nil => rfl
    | cons c stem =>
        have hne := hhead c rfl
        simp at hne
        simp [hne]
  have hmut : dropLeading "mut ".toList stem.length stem = stem := by
    refine dropLeading_append (fun hstart => ?_) 0 (Nat.zero_le _)
    exact absurd (hstem ' ' (hstart.subset (by simp))) (by decide)
  have htrim : stem.trim = stem := Text.trim_eq_self hstem
  rw [baseTypeName]
  simp only [htake, hlast, hdrop, hmut, htrim]

/-- A type is named by what stands between its stars and its parameters. -/
theorem baseTypeName_append (marks stem rest : Text) (hmarks : ∀ c ∈ marks, c = '*')
    (hstem : ∀ c ∈ stem, Text.isBlank c = false ∧ c ∉ "<[:".toList)
    (hhead : ∀ c ∈ stem.head?, c ∉ "&*".toList) (hrest : ∀ c ∈ rest.head?, c = '[') :
    baseTypeName (marks ++ stem ++ rest) = String.ofList stem := by
  have hplain : ∀ c ∈ marks ++ stem, c ∉ "<[:".toList := by
    intro c hc
    rcases List.mem_append.mp hc with hc | hc
    · rw [hmarks c hc]
      decide
    · exact (hstem c hc).2
  have hlast : lastPiece [':', ':'] (marks ++ stem) = marks ++ stem :=
    lastPiece_of_not_mem (c := ':') (by simp) fun hm => hplain ':' hm (by decide)
  refine baseTypeName_of_lastPiece rest (fun c hc hm => hplain c hc ?_) hlast hmarks
    (fun c hc => (hstem c hc).1) hhead fun c hc => by simp [hrest c hc]
  exact (by decide : "<[".toList ⊆ "<[:".toList) hm

/-! ## Last words -/

theorem isBlank_of_mem_concat {list : Text} (h : ∀ c ∈ list, Text.isBlank c = false) :
    ∀ c ∈ list ++ [']'], Text.isBlank c = false := by
  intro c hc
  rcases List.mem_append.mp hc with hc | hc
  · exact h c hc
  · rw [List.mem_singleton.mp hc]
    decide

/-- Where no blank stands behind the type, its parameters belong to its word. -/
theorem exists_gap_of_not_isStretched (h : r.isStretched = false) :
    (∀ c ∈ r.brackets, Text.isBlank c = false) ∧ ∃ gap : Gap,
      r.typeGap.text ++ (r.brackets ++ r.after.text) = r.brackets ++ gap.text := by
  cases hparameters : r.parameters with
  | none =>
      have hnil : r.brackets = [] := by rw [brackets, hparameters]
      have hgap : (r.typeGap.text ++ r.after.text).allBlank = true := by
        rw [Text.allBlank, List.all_append, Bool.and_eq_true]
        exact ⟨r.typeGap.blank, r.after.blank⟩
      rw [hnil]
      exact ⟨List.forall_mem_nil _, ⟨_, hgap⟩, rfl⟩
  | some list =>
      have hbrackets : r.brackets = '[' :: (list ++ [']']) := by rw [brackets, hparameters]
      rw [isStretched, hparameters, Option.any_some, List.any_append, Bool.or_eq_false_iff] at h
      have hlist : ∀ c ∈ list, Text.isBlank c = false := fun _ => Text.eq_false_of_any h.2
      have hgap : r.typeGap.text = [] := by
        refine List.eq_nil_iff_forall_not_mem.mpr fun c hc => ?_
        exact List.any_eq_false.mp h.1 c hc (r.typeGap.isBlank_of_mem hc)
      refine ⟨?_, r.after, by rw [hgap, List.nil_append]⟩
      rw [hbrackets]
      exact List.forall_mem_cons.mpr ⟨by decide, isBlank_of_mem_concat hlist⟩

theorem getLast?_words_of_not_isStretched (h : r.isStretched = false) {front stuck : Text}
    (hlead : r.lead = front ++ stuck) (hfront : ∀ c ∈ front.getLast?, Text.isBlank c = true)
    (hstuck : ∀ c ∈ stuck, Text.isBlank c = false) :
    (Text.words r.body).getLast? = some (stuck ++ r.type.text ++ r.brackets) := by
  obtain ⟨hbrackets, gap, hgap⟩ := exists_gap_of_not_isStretched h
  have hbody : r.body = front ++ (stuck ++ r.type.text ++ r.brackets) ++ gap.text := by
    rw [body, hlead, hgap]
    simp
  have hne : stuck ++ r.type.text ++ r.brackets ≠ [] := by simp [r.type.ne_nil]
  have hword : ∀ c ∈ stuck ++ r.type.text ++ r.brackets, Text.isBlank c = false := by
    intro c hc
    rcases List.mem_append.mp hc with hc | hc
    · rcases List.mem_append.mp hc with hc | hc
      · exact hstuck c hc
      · exact r.type.isBlank_of_mem hc
    · exact hbrackets c hc
  rw [hbody, Text.words_append_gap gap.blank, Text.getLast?_words_append hne hword hfront]

/-- Behind a blank in the parameters no brackets are open. -/
theorem baseTypeName_of_listed {piece : Text}
    (h : ∀ c ∈ piece, Text.isBlank c = false ∧ isListed c = true) :
    baseTypeName (piece ++ [']']) = String.ofList (piece ++ [']']) := by
  have hmark : ("<[:".toList ++ "&*".toList).any isListed = false := by decide
  have hplain : ∀ c ∈ piece ++ [']'], Text.isBlank c = false ∧ c ∉ "<[:".toList ++ "&*".toList := by
    intro c hc
    rcases List.mem_append.mp hc with hc | hc
    · refine ⟨(h c hc).1, fun hm => ?_⟩
      have hlisted := (h c hc).2
      rw [Text.eq_false_of_any hmark hm] at hlisted
      cases hlisted
    · rw [List.mem_singleton.mp hc]
      decide
  have hstem := baseTypeName_append [] (piece ++ [']']) [] (by simp)
    (fun c hc => ⟨(hplain c hc).1, fun hm => (hplain c hc).2 (List.mem_append_left _ hm)⟩)
    (fun c hc hm => (hplain c (List.mem_of_mem_head? hc)).2 (List.mem_append_right _ hm)) (by simp)
  simpa using hstem

section Brackets

variable {list : Text} (hparameters : r.parameters = some list)

include hparameters

/-- The last word begins behind the last blank between the brackets. -/
theorem exists_last_of_blank_list (hblank : list.any Text.isBlank = true) : ∃ word,
    (Text.words r.body).getLast? = some word ∧ baseTypeName word ≠ String.ofList r.type.text := by
  obtain ⟨front, c, piece, rfl, hc, hpiece⟩ := Text.exists_last_blank hblank
  have hlisted : ∀ d ∈ piece, isListed d = true := by
    have hall := r.listed
    rw [hparameters] at hall
    exact fun d hd => List.all_eq_true.mp hall d (by simp [hd])
  have hbody : r.body = r.lead ++ r.type.text ++ r.typeGap.text ++ '[' :: front ++ [c] ++
      (piece ++ [']']) ++ r.after.text := by
    rw [body, brackets, hparameters]
    simp
  refine ⟨piece ++ [']'], ?_, ?_⟩
  · rw [hbody, Text.words_append_gap r.after.blank]
    refine Text.getLast?_words_append (by simp) (isBlank_of_mem_concat hpiece) fun d hd => ?_
    rw [List.getLast?_concat] at hd
    rwa [← Option.some_inj.mp hd]
  · rw [baseTypeName_of_listed fun d hd => ⟨hpiece d hd, hlisted d hd⟩]
    intro heq
    exact r.type.not_mem (c := ']') (by decide) (String.ofList_injective heq ▸ by simp)

/-- Where there is none, it begins with the brackets that a blank stands in front of. -/
theorem exists_last_of_blank_gap (hgap : r.typeGap.text ≠ [])
    (hlist : ∀ c ∈ list, Text.isBlank c = false) : ∃ word,
    (Text.words r.body).getLast? = some word ∧ baseTypeName word ≠ String.ofList r.type.text := by
  have hbody : r.body = r.lead ++ r.type.text ++ r.typeGap.text ++ '[' :: (list ++ [']']) ++
      r.after.text := by
    rw [body, brackets, hparameters]
    simp
  have hword : ∀ c ∈ '[' :: (list ++ [']']), Text.isBlank c = false :=
    List.forall_mem_cons.mpr ⟨by decide, isBlank_of_mem_concat hlist⟩
  have hname := baseTypeName_append [] [] ('[' :: (list ++ [']'])) (by simp) (by simp) (by simp)
    (by simp)
  refine ⟨'[' :: (list ++ [']']), ?_, fun heq => ?_⟩
  · rw [hbody, Text.words_append_gap r.after.blank]
    exact Text.getLast?_words_append (by simp) hword (r.typeGap.isBlank_of_mem_getLast? hgap _)
  · exact r.type.ne_nil (String.ofList_injective (hname.symm.trans heq)).symm

end Brackets

theorem exists_last_of_isStretched (h : r.isStretched = true) : ∃ word,
    (Text.words r.body).getLast? = some word ∧ baseTypeName word ≠ String.ofList r.type.text := by
  obtain ⟨list, hparameters, hblank⟩ := (Option.any_eq_true _ _).mp h
  cases hlist : list.any Text.isBlank with
  | true => exact exists_last_of_blank_list hparameters hlist
  | false =>
      refine exists_last_of_blank_gap hparameters (fun hnil => ?_) fun _ =>
        Text.eq_false_of_any hlist
      rw [hnil, List.nil_append, hlist] at hblank
      cases hblank

/-- A name that the type is glued to is taken for a part of it. -/
theorem baseTypeName_stuck_iff {stuck : Text}
    (h : if r.isGlued then ∃ name : Text.Name, stuck = name.text ++ ['*']
      else stuck = [] ∨ stuck = ['*']) :
    (∀ c ∈ stuck, Text.isBlank c = false) ∧
      (baseTypeName (stuck ++ r.type.text ++ r.brackets) = String.ofList r.type.text ↔
        r.isGlued = false) := by
  have hrest : ∀ c ∈ r.brackets.head?, c = '[' := by
    unfold brackets
    cases r.parameters <;> simp
  split at h
  · rename_i hglued
    obtain ⟨name, rfl⟩ := h
    have hname : ∀ c ∈ name.text ++ ['*'], Text.isBlank c = false ∧ c ∉ "<[:".toList := by
      intro c hc
      rcases List.mem_append.mp hc with hc | hc
      · exact plain_of_mem_name name hc
      · rw [List.mem_singleton.mp hc]
        decide
    have hstem : ∀ c ∈ name.text ++ ['*'] ++ r.type.text,
        Text.isBlank c = false ∧ c ∉ "<[:".toList := by
      intro c hc
      exact (List.mem_append.mp hc).elim (hname c) (plain_of_mem_name r.type)
    have hhead : ∀ c ∈ (name.text ++ ['*'] ++ r.type.text).head?, c ∉ "&*".toList := by
      rw [List.append_assoc]
      exact not_mem_head?_name name _
    have hread := baseTypeName_append [] (name.text ++ ['*'] ++ r.type.text) r.brackets
      (List.forall_mem_nil _) hstem hhead hrest
    refine ⟨fun c hc => (hname c hc).1, iff_of_false (fun heq => ?_) (by simp [hglued])⟩
    have hlength := congrArg List.length (String.ofList_injective (hread.symm.trans heq))
    simp only [List.length_append, List.length_singleton] at hlength
    omega
  · rename_i hglued
    have hmarks : ∀ c ∈ stuck, c = '*' := by
      rcases h with rfl | rfl <;> simp
    have hhead : ∀ c ∈ r.type.text.head?, c ∉ "&*".toList := by
      simpa using not_mem_head?_name r.type []
    have hread := baseTypeName_append stuck r.type.text r.brackets hmarks
      (fun _ => plain_of_mem_name r.type) hhead hrest
    refine ⟨fun c hc => ?_, iff_of_true hread (by simpa using hglued)⟩
    rw [hmarks c hc]
    decide

/-- The last word of a receiver names its type unless the type is glued or stretched. -/
theorem baseTypeName_last_iff (r : Receiver) : ∃ word,
    (Text.words r.body).getLast? = some word ∧
      (baseTypeName word = String.ofList r.type.text ↔
        r.isGlued = false ∧ r.isStretched = false) := by
  cases hstretched : r.isStretched with
  | true =>
      obtain ⟨word, hlast, hne⟩ := exists_last_of_isStretched hstretched
      exact ⟨word, hlast, iff_of_false hne (by simp)⟩
  | false =>
      obtain ⟨front, stuck, hlead, hfront, hstuck⟩ := exists_lead r
      obtain ⟨hblank, hiff⟩ := baseTypeName_stuck_iff hstuck
      refine ⟨stuck ++ r.type.text ++ r.brackets, ?_, by simpa using hiff⟩
      exact getLast?_words_of_not_isStretched hstretched hlead hfront hblank

/-! ## Methods -/

/-- No parenthesis stands between the outer ones. -/
theorem isListed_of_mem_body (r : Receiver) :
    ∀ c ∈ r.body, isListed c = true ∨ c ∈ "*[]".toList := by
  have hgap : ∀ (gap : Gap), ∀ c ∈ gap.text, isListed c = true := by
    intro gap c hc
    simp [isListed, gap.isBlank_of_mem hc]
  have hname : ∀ (name : Text.Name), ∀ c ∈ name.text, isListed c = true := by
    intro name c hc
    simp [isListed, name.isDelimiter_of_mem hc]
  have hlead : ∀ c ∈ r.lead, isListed c = true ∨ c ∈ "*[]".toList := by
    intro c hc
    simp only [lead, List.mem_append] at hc
    rcases hc with hc | hc | hc | hc | hc
    · exact .inl (hgap r.before c hc)
    · cases hoption : r.name with
      | none => simp [hoption] at hc
      | some name => exact .inl (hname name c (by simpa [hoption] using hc))
    · exact .inl (hgap r.nameGap c hc)
    · cases hpointer : r.pointer <;> simp_all
    · exact .inl (hgap r.pointerGap c hc)
  have hbrackets : ∀ c ∈ r.brackets, isListed c = true ∨ c ∈ "*[]".toList := by
    have hlisted := r.listed
    unfold brackets
    cases hoption : r.parameters with
    | none => exact List.forall_mem_nil _
    | some list =>
        rw [hoption] at hlisted
        intro c hc
        rcases List.mem_cons.mp hc with rfl | hc
        · exact .inr (by decide)
        · rcases List.mem_append.mp hc with hc | hc
          · exact .inl (List.all_eq_true.mp hlisted c hc)
          · rw [List.mem_singleton.mp hc]
            exact .inr (by decide)
  intro c hc
  simp only [body, List.mem_append] at hc
  rcases hc with hc | hc | hc | hc | hc
  · exact hlead c hc
  · exact .inl (hname r.type c hc)
  · exact .inl (hgap r.typeGap c hc)
  · exact hbrackets c hc
  · exact .inl (hgap r.after c hc)

theorem trimWhere_text (r : Receiver) :
    trimWhere (fun c => c == '(' || c == ')') r.text = r.body := by
  have hplain : ∀ c ∈ r.body, (c == '(' || c == ')') = false := by
    intro c hc
    rcases isListed_of_mem_body r c hc with h | h
    · have hparens : "()".toList.any isListed = false := by decide
      refine Bool.eq_false_iff.mpr fun hparen => ?_
      rw [Text.eq_false_of_any hparens (by simpa using hparen)] at h
      cases h
    · have hmarks : "*[]".toList.any (fun c => c == '(' || c == ')') = false := by decide
      exact Text.eq_false_of_any hmarks h
  have hdrop : r.text.dropWhile (fun c => c == '(' || c == ')') = r.body ++ [')'] := by
    have hne : r.body ≠ [] := by simp [body, r.type.ne_nil]
    obtain ⟨c, rest, hbody⟩ := List.exists_cons_of_ne_nil hne
    have hc := hplain c (by simp [hbody])
    rw [text, List.dropWhile_cons_of_pos (by decide), hbody, List.cons_append,
      List.dropWhile_cons_of_neg (by simp [hc])]
  rw [trimWhere, hdrop]
  exact Text.dropTail_append_of_forall hplain (by simp)

end Receiver

/-- A method at a site, with its receiver and its name. -/
structure IsMethod (reading : Reading) (site : Site) (r : Receiver) (name : String) : Prop where
  kind : site.node.kind = "method_declaration"
  receiver : ∃ node, site.node.child? "receiver" = some node ∧ node.text reading.source = r.text
  name : ∃ node, site.node.child? "name" = some node ∧ reading.textOf node = name

/-- A struct or an interface of that name is declared at a site. -/
structure DeclaresType (reading : Reading) (site : Site) (name : String) : Prop where
  kind : site.node.kind = "type_spec"
  type : ∃ node, site.node.child? "type" = some node ∧
    (node.kind = "struct_type" ∨ node.kind = "interface_type")
  name : ∃ node, site.node.child? "name" = some node ∧ reading.textOf node = name

/-- A node is a method with that receiver. -/
structure HasReceiver (reading : Reading) (node : Node) (r : Receiver) : Prop where
  kind : node.kind = "method_declaration"
  receiver : ∃ child, node.child? "receiver" = some child ∧ child.text reading.source = r.text

section Go

variable {reading : Reading} {site : Site} {r : Receiver} {name : String}

/-- The last word of a receiver is read, which names its type unless this is glued or stretched. -/
theorem HasReceiver.receiverType? {node : Node} (h : HasReceiver reading node r)
    (hlanguage : reading.language = .go) : ∃ type, reading.receiverType? node = some type ∧
      (type = String.ofList r.type.text ↔ r.isGlued = false ∧ r.isStretched = false) := by
  obtain ⟨child, hchild, htext⟩ := h.receiver
  obtain ⟨word, hlast, hiff⟩ := Receiver.baseTypeName_last_iff r
  refine ⟨baseTypeName word, ?_, hiff⟩
  simp [Reading.receiverType?, hlanguage, h.kind, hchild, htext, Receiver.trimWhere_text, hlast]

/-- The type of a method is read unless it is glued or stretched. -/
theorem IsMethod.receiverType?_iff (hm : IsMethod reading site r name)
    (hlanguage : reading.language = .go) :
    reading.receiverType? site.node = some (String.ofList r.type.text) ↔
      r.isGlued = false ∧ r.isStretched = false := by
  have hreceiver : HasReceiver reading site.node r := ⟨hm.kind, hm.receiver⟩
  obtain ⟨type, hread, hiff⟩ := hreceiver.receiverType? hlanguage
  rw [hread, Option.some_inj, hiff]

/-- A method in no other declaration is detached to its type. -/
theorem IsMethod.detached (hm : IsMethod reading site r name)
    (hkinds : "method_declaration" ∈ reading.kinds.functions)
    (houtside : reading.enclosing? site.ancestors = none) {type : String}
    (htype : reading.receiverType? site.node = some type) :
    ∃ decl, (reading.entryAt? site).bind Entry.detached? = some (type, decl) ∧
      decl.name = name := by
  obtain ⟨node, hnode, hname⟩ := hm.name
  have hfunction : reading.functionAt? site = some name := by
    rw [Reading.functionAt?, hm.kind, if_pos (List.contains_iff_mem.mpr hkinds),
      Reading.functionName?]
    simp only [hnode, hname]
  have hinside : reading.insideFunction site.ancestors = false := by
    rw [Reading.insideFunction, houtside]
    rfl
  have hhome : reading.home site = .typeNamed type := by
    simp [Reading.home, houtside, htype]
  refine ⟨reading.functionDecl site.ancestors site.node name, ?_, rfl⟩
  simp [Reading.entryAt?, hinside, hfunction, hhome, Entry.detached?]

theorem DeclaresType.classAt?_eq (hd : DeclaresType reading site name)
    (hkinds : "type_spec" ∈ reading.kinds.classes) : reading.classAt? site = some name := by
  obtain ⟨type, htype, hstruct⟩ := hd.type
  obtain ⟨node, hnode, hname⟩ := hd.name
  rw [Reading.classAt?, hd.kind, if_pos (List.contains_iff_mem.mpr hkinds)]
  rcases hstruct with hstruct | hstruct <;>
    simp [Reading.className?, htype, hstruct, hnode, hname]

theorem exists_class_of_classAt? {all : List Site} (hsite : site ∈ all)
    (h : reading.classAt? site = some name) : ∃ c ∈ reading.classes all, c.name = name := by
  cases hdecl : reading.classDecl? site with
  | none => simp [Reading.classDecl?, h] at hdecl
  | some c =>
      refine ⟨c, List.mem_filterMap.mpr ⟨site, hsite, hdecl⟩, ?_⟩
      rw [Reading.classDecl?, h, Option.map_some] at hdecl
      rw [← Option.some_inj.mp hdecl]

end Go

/-- A method that is declared apart joins the first class of its type's name. -/
theorem find?_joined {classes : List ClassDecl} {detached : List (String × FunctionDecl)}
    {type : String} {decl : FunctionDecl} (hclass : ∃ c ∈ classes, c.name = type)
    (hmethod : (type, decl) ∈ detached) :
    ∃ c, (classes.mapIdx fun index => joined (joining classes detached index)).find?
      (fun c => c.name == type) = some c ∧ decl.name ∈ c.methods := by
  obtain ⟨c, hc, hname⟩ := hclass
  have hsome : (firstNamed classes type).isSome = true := by
    rw [firstNamed, List.findIdx?_isSome]
    exact List.any_eq_true.mpr ⟨c, hc, beq_iff_eq.mpr hname⟩
  obtain ⟨index, hfirst⟩ := Option.isSome_iff_exists.mp hsome
  obtain ⟨hlt, hhere, hbefore⟩ := List.findIdx?_eq_some_iff_getElem.mp hfirst
  have hjoins : decl.name ∈ joining classes detached index := by
    refine List.mem_map.mpr ⟨(type, decl), List.mem_filter.mpr ⟨hmethod, ?_⟩, rfl⟩
    exact beq_iff_eq.mpr hfirst
  refine ⟨joined (joining classes detached index) classes[index], ?_,
    List.mem_append_right _ hjoins⟩
  rw [List.find?_eq_some_iff_getElem]
  refine ⟨hhere, index, by simpa using hlt, by simp, fun j hj => ?_⟩
  simpa [joined] using hbefore j hj

/-- A method in no other declaration is listed under its type, if this is declared anywhere in the
tree, unless the type is glued to the receiver's name or stretched by blanks. -/
theorem methods_outline {reading : Reading} (hlanguage : reading.language = .go)
    (hkinds : Kinds.ofLanguage? reading.language = some reading.kinds) {root : Node} {site : Site}
    (hsite : site ∈ sites [] root) {r : Receiver} {name : String}
    (hm : IsMethod reading site r name) :
    (reading.receiverType? site.node = some (String.ofList r.type.text) ↔
        r.isGlued = false ∧ r.isStretched = false) ∧
      (r.isGlued = false → r.isStretched = false → reading.enclosing? site.ancestors = none →
        (∃ other ∈ sites [] root, DeclaresType reading other (String.ofList r.type.text)) →
        ∃ c, (outline root reading).classes.find?
          (fun c => c.name == String.ofList r.type.text) = some c ∧ name ∈ c.methods) := by
  have hread := hm.receiverType?_iff hlanguage
  refine ⟨hread, fun hglued hstretched houtside ⟨other, hother, hdeclares⟩ => ?_⟩
  have hk := Kinds.apart_of_ofLanguage? hkinds
  rw [hlanguage] at hkinds
  obtain ⟨decl, hdetached, rfl⟩ := hm.detached (Option.some_inj.mp hkinds ▸ by decide) houtside
    (hread.mpr ⟨hglued, hstretched⟩)
  have hclass := hdeclares.classAt?_eq (Option.some_inj.mp hkinds ▸ by decide)
  obtain ⟨entry, hentry, hjoins⟩ := Option.bind_eq_some_iff.mp hdetached
  rw [classes_outline hk]
  refine find?_joined (exists_class_of_classAt? hother hclass) ?_
  exact List.mem_filterMap.mpr ⟨entry, List.mem_filterMap.mpr ⟨site, hsite, hentry⟩, hjoins⟩

/-- A node of a tree on one line. -/
def onLine (kind : String) (field : Option String) (start stop : Nat) (children : List Node) :
    Node :=
  .mk kind true field .normal ⟨start, stop, 0, start, 0⟩ children

/-- A method `Swap` behind a receiver of that length. -/
def swapMethod (size : Nat) : Node :=
  onLine "method_declaration" none 0 (size + 4)
    [onLine "parameter_list" (some "receiver") 0 size [],
      onLine "field_identifier" (some "name") size (size + 4) []]

/-- A type `Pair` behind the method. -/
def pairType (size : Nat) : Node :=
  onLine "type_spec" none (size + 4) (size + 8)
    [onLine "type_identifier" (some "name") (size + 4) (size + 8) [],
      onLine "struct_type" (some "type") (size + 8) (size + 8) []]

def pairTree (size : Nat) : Node :=
  onLine "source_file" none 0 (size + 8) [swapMethod size, pairType size]

/-- Read from the receiver and both names. -/
def readPair (receiver : String) : Reading :=
  ⟨.go, Utf8.encode (receiver ++ "SwapPair").toList, (Kinds.ofLanguage? .go).get rfl⟩

/-- The receiver `(p *Pair[..])` with such parameters. -/
def pairReceiver (list : Text) (h : list.all isListed = true) : Receiver where
  before := ⟨[], rfl⟩
  name := some ⟨['p'], by decide, by decide⟩
  nameGap := ⟨[' '], rfl⟩
  pointer := true
  pointerGap := ⟨[], rfl⟩
  type := ⟨"Pair".toList, by decide, by decide⟩
  typeGap := ⟨[], rfl⟩
  parameters := some list
  after := ⟨[], rfl⟩
  apart := by decide
  listed := h

theorem swap_joins_pair :
    IsMethod (readPair "(p *Pair[K,V])") ⟨[pairTree 14], swapMethod 14⟩
        (pairReceiver "K,V".toList (by decide)) "Swap" ∧
      DeclaresType (readPair "(p *Pair[K,V])") ⟨[pairTree 14], pairType 14⟩ "Pair" ∧
      ∃ c, (outline (pairTree 14) (readPair "(p *Pair[K,V])")).classes.find?
        (fun c => c.name == "Pair") = some c ∧ "Swap" ∈ c.methods := by
  have hmethod : IsMethod (readPair "(p *Pair[K,V])") ⟨[pairTree 14], swapMethod 14⟩
      (pairReceiver "K,V".toList (by decide)) "Swap" :=
    ⟨rfl, ⟨_, rfl, by decide +kernel⟩, ⟨_, rfl, by decide +kernel⟩⟩
  have hpair : DeclaresType (readPair "(p *Pair[K,V])") ⟨[pairTree 14], pairType 14⟩ "Pair" :=
    ⟨rfl, ⟨_, rfl, .inl rfl⟩, ⟨_, rfl, by decide +kernel⟩⟩
  have hswap : ⟨[pairTree 14], swapMethod 14⟩ ∈ sites [] (pairTree 14) :=
    List.mem_cons_of_mem _ List.mem_cons_self
  have htype : ⟨[pairTree 14], pairType 14⟩ ∈ sites [] (pairTree 14) :=
    List.mem_append_right (⟨[], pairTree 14⟩ :: sites [pairTree 14] (swapMethod 14))
      List.mem_cons_self
  refine ⟨hmethod, hpair, (methods_outline rfl rfl hswap hmethod).2 ?_ ?_ ?_ ⟨_, htype, hpair⟩⟩
  · decide +kernel
  · decide +kernel
  · decide +kernel

/-- Behind the blank in its parameters the type is not found. -/
theorem swap_not_joins_pair :
    IsMethod (readPair "(p *Pair[K, V])") ⟨[pairTree 15], swapMethod 15⟩
        (pairReceiver "K, V".toList (by decide)) "Swap" ∧
      (readPair "(p *Pair[K, V])").receiverType? (swapMethod 15) = some "V]" ∧
      (outline (pairTree 15) (readPair "(p *Pair[K, V])")).classes = [⟨"Pair", [], 1, true⟩] ∧
      (outline (pairTree 15) (readPair "(p *Pair[K, V])")).functions = [⟨"Swap", 1, 1, true⟩] :=
  ⟨⟨rfl, ⟨_, rfl, by decide +kernel⟩, ⟨_, rfl, by decide +kernel⟩⟩, by decide +kernel,
    by decide +kernel, by decide +kernel⟩

end CodeAtlas.Tree
