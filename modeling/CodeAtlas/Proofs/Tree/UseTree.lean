import CodeAtlas.Proofs.Tree.Path
import Mathlib.Data.List.Forall2

/-! Trees of used paths, with renamed names, stars and groups in braces. One is read right where
nothing in it is renamed and where its only group stands at the end of its path. -/

namespace CodeAtlas.Tree

def colons : Text := [':', ':']

/-- A path that may start at the outermost place. -/
structure UsePath extends NamePath where
  rooted : Bool

namespace UsePath

/-- The names of the path; in front of the outermost place stands an empty one. -/
def segments (path : UsePath) : List Text :=
  if path.rooted then [] :: path.toNamePath.segments else path.toNamePath.segments

def tokens (path : UsePath) : List Text :=
  if path.rooted then colons :: path.toNamePath.tokens colons else path.toNamePath.tokens colons

variable (path : UsePath)

theorem isDelimiter_of_mem {segment : Text} (h : segment ∈ path.segments) {c : Char}
    (hc : c ∈ segment) : Text.isDelimiter c = false := by
  rw [segments] at h
  split at h
  · rcases List.mem_cons.mp h with rfl | h
    · cases hc
    · exact path.toNamePath.isDelimiter_of_mem h hc
  · exact path.toNamePath.isDelimiter_of_mem h hc

theorem not_mem_segment {segment : Text} (h : segment ∈ path.segments) {c : Char}
    (hc : Text.isDelimiter c = true) : c ∉ segment := by
  intro hm
  rw [path.isDelimiter_of_mem h hm] at hc
  cases hc

theorem mem_tokens {token : Text} (h : token ∈ path.tokens) :
    token = colons ∨ token ∈ path.segments := by
  unfold tokens at h
  unfold segments
  split at h
  · rename_i hrooted
    rw [if_pos hrooted]
    rcases List.mem_cons.mp h with rfl | h
    · exact .inl rfl
    · exact (path.toNamePath.mem_tokens h).imp_right (List.mem_cons_of_mem [])
  · rename_i hrooted
    rw [if_neg hrooted]
    exact path.toNamePath.mem_tokens h

theorem flatten_tokens : path.tokens.flatten = Text.join colons path.segments := by
  have hplain : (path.toNamePath.tokens colons).flatten =
      Text.join colons path.toNamePath.segments := flatten_names _ _ _
  unfold tokens segments
  split
  · rw [List.flatten_cons, hplain]
    simp [NamePath.segments, Text.join, List.intercalate_cons_cons]
  · exact hplain

theorem segments_eq_concat : ∃ front, path.segments = front ++ [path.last.text] := by
  have hlast : path.segments.getLast? = some path.last.text := by
    unfold segments
    split
    · rw [List.getLast?_cons, path.toNamePath.getLast?_segments]
      rfl
    · exact path.toNamePath.getLast?_segments
  exact ⟨_, (List.dropLast_append_getLast? _ hlast).symm⟩

end UsePath

/-- What is used: the name at the end of a path, also under another name, all names of a path, or
those of a group, which may end in a comma. -/
inductive UseTree where
  | name (path : UsePath)
  | renamed (path : UsePath) (other : Text.Name)
  | star (path : Option UsePath)
  | group (path : Option UsePath) (items : List UseTree) (comma : Bool)

/-- The names of a path in front of a star or of a group. -/
def frontSegments : Option UsePath → List Text
  | some path => path.segments
  | none => []

def frontTokens : Option UsePath → List Text
  | some path => path.tokens ++ [colons]
  | none => []

namespace UseTree

mutual

def tokens : UseTree → List Text
  | name path => path.tokens
  | renamed path other => path.tokens ++ ["as".toList, other.text]
  | star path => frontTokens path ++ [['*']]
  | group path items comma =>
    frontTokens path ++ ['\x7b'] ::
      ((laterTokens items).tail ++ ((if comma then [[',']] else []) ++ [['\x7d']]))

/-- The items of a group with a comma in front of each. -/
def laterTokens : List UseTree → List Text
  | [] => []
  | item :: rest => [','] :: (item.tokens ++ laterTokens rest)

end

mutual

/-- The names that are imported, each with the path to it. -/
def leaves : UseTree → List (List Text)
  | name path => [path.segments]
  | renamed path _ => [path.segments]
  | star path => [frontSegments path ++ [['*']]]
  | group path items _ => (leavesAll items).map (frontSegments path ++ ·)

def leavesAll : List UseTree → List (List Text)
  | [] => []
  | item :: rest => leaves item ++ leavesAll rest

end

/-- The end of the path to a leaf, which may be all of it. -/
def Names (leaf : List Text) (name : String) : Prop :=
  ∃ segments, segments ≠ [] ∧ segments <:+ leaf ∧ name = String.ofList (Text.join colons segments)

/-- The import tells what is used, whatever it is renamed to. -/
def Reads (tree : UseTree) (decl : ImportDecl) : Prop :=
  match tree with
  | name path | renamed path _ =>
    decl.source = String.ofList (Text.join colons path.segments) ∧ decl.kind = .named ∧
      decl.names = [String.ofList path.last.text]
  | star path =>
    decl.source = String.ofList (Text.join colons (frontSegments path)) ∧ decl.kind = .wildcard ∧
      decl.names = []
  | group path items _ =>
    decl.source = String.ofList (Text.join colons (frontSegments path)) ∧ decl.kind = .named ∧
      List.Forall₂ Names (leavesAll items) decl.names

/-- A name or a star, under no other name. -/
def isLeaf : UseTree → Bool
  | name _ | star _ => true
  | renamed _ _ | group _ _ _ => false

def isGroup : UseTree → Bool
  | group _ _ _ => true
  | name _ | renamed _ _ | star _ => false

/-- Nothing is renamed, and a star or a group has a path in front of it, and no group in it. -/
def isPlain : UseTree → Bool
  | name _ => true
  | renamed _ _ => false
  | star path => path.isSome
  | group path items _ => path.isSome && items.all isLeaf

/-! ## Tokens -/

/-- No blank stands in the tokens. -/
def Solid (tokens : List Text) : Prop := ∀ token ∈ tokens, ∀ c ∈ token, Text.isBlank c = false

theorem solid_append {front back : List Text} :
    Solid (front ++ back) ↔ Solid front ∧ Solid back := by
  simp only [Solid, List.mem_append, or_imp, forall_and]

theorem solid_cons {token : Text} {tokens : List Text} :
    Solid (token :: tokens) ↔ (∀ c ∈ token, Text.isBlank c = false) ∧ Solid tokens :=
  List.forall_mem_cons

theorem solid_words {tokens : List Text} (h : tokens.all (·.all fun c => !Text.isBlank c) = true) :
    Solid tokens := by
  intro token htoken c hc
  simpa using List.all_eq_true.mp (List.all_eq_true.mp h token htoken) c hc

theorem solid_path (path : UsePath) : Solid path.tokens := by
  intro token htoken c hc
  rcases path.mem_tokens htoken with rfl | htoken
  · exact Text.eq_false_of_any (by decide) hc
  · exact (Bool.or_eq_false_iff.mp (path.isDelimiter_of_mem htoken hc)).1

theorem solid_front (path : Option UsePath) : Solid (frontTokens path) := by
  cases path with
  | none => exact solid_words rfl
  | some path => exact solid_append.mpr ⟨solid_path path, solid_words (by decide)⟩

mutual

theorem solid_tokens : ∀ tree : UseTree, Solid tree.tokens
  | name path => by
    rw [tokens]
    exact solid_path path
  | renamed path other => by
    rw [tokens, solid_append, solid_cons]
    exact ⟨solid_path path, solid_words (by decide) _ (List.mem_singleton_self _),
      solid_cons.mpr ⟨fun c => other.isBlank_of_mem, solid_words rfl⟩⟩
  | star path => by
    rw [tokens, solid_append]
    exact ⟨solid_front path, solid_words (by decide)⟩
  | group path items comma => by
    rw [tokens, solid_append, solid_cons, solid_append]
    refine ⟨solid_front path, fun _ => Text.eq_false_of_any (by decide), fun token htoken => ?_, ?_⟩
    · exact solid_laterTokens items token (List.mem_of_mem_tail htoken)
    · cases comma <;> exact solid_words (by decide)

theorem solid_laterTokens : ∀ items : List UseTree, Solid (laterTokens items)
  | [] => solid_words rfl
  | item :: rest => by
    rw [laterTokens, solid_cons, solid_append]
    exact ⟨fun _ => Text.eq_false_of_any (by decide), solid_tokens item, solid_laterTokens rest⟩

end

/-! ## Spelling -/

/-- The text of a tree without blanks. -/
def spelling (tree : UseTree) : Text :=
  tree.tokens.flatten

theorem squeeze_eq_spelling {tree : UseTree} {text : Text}
    (h : Text.isSpaced tree.tokens text = true) : text.squeeze = tree.spelling :=
  Text.squeeze_of_isSpaced h (solid_tokens tree)

theorem flatten_frontTokens (path : UsePath) :
    (frontTokens (some path)).flatten = Text.join colons path.segments ++ colons := by
  simp [frontTokens, path.flatten_tokens]

theorem spelling_name (path : UsePath) :
    (name path).spelling = Text.join colons path.segments := by
  rw [spelling, tokens, path.flatten_tokens]

theorem spelling_renamed (path : UsePath) (other : Text.Name) :
    (renamed path other).spelling =
      Text.join colons path.segments ++ ("as".toList ++ other.text) := by
  simp [spelling, tokens, path.flatten_tokens]

theorem spelling_star (path : UsePath) :
    (star (some path)).spelling = Text.join colons path.segments ++ (colons ++ ['*']) := by
  simp [spelling, tokens, flatten_frontTokens]

theorem flatten_laterTokens (items : List UseTree) :
    (laterTokens items).tail.flatten = Text.join [','] (items.map spelling) := by
  induction items with
  | nil => rfl
  | cons item rest ih =>
      cases rest with
      | nil => simp [laterTokens, Text.join, spelling]
      | cons next rest =>
          have hlater : (laterTokens (next :: rest)).flatten =
              ',' :: (laterTokens (next :: rest)).tail.flatten := rfl
          rw [List.map_cons, List.map_cons, Text.join_cons_cons, ← List.map_cons, ← ih, ← hlater,
            laterTokens, List.tail_cons, List.flatten_append]
          rfl

/-- What stands between the braces of a group. -/
def inner (items : List UseTree) (comma : Bool) : Text :=
  Text.join [','] (items.map spelling) ++ if comma then [','] else []

theorem spelling_group (path : Option UsePath) (items : List UseTree) (comma : Bool) :
    (group path items comma).spelling =
      (frontTokens path).flatten ++ ('\x7b' :: (inner items comma ++ ['\x7d'])) := by
  rw [spelling, tokens, List.flatten_append, List.flatten_cons, List.flatten_append,
    flatten_laterTokens, inner]
  cases comma <;> simp

/-! ## Names of a group -/

theorem brace_not_mem_front : ∀ path : Option UsePath, ∀ segment ∈ frontSegments path,
    '\x7b' ∉ segment
  | some path, _, hsegment => path.not_mem_segment hsegment (by decide)
  | none, _, hsegment => by cases hsegment

mutual

theorem brace_not_mem_leaves : ∀ tree : UseTree, ∀ leaf ∈ tree.leaves, ∀ segment ∈ leaf,
    '\x7b' ∉ segment
  | name path, leaf, hleaf, segment, hsegment => by
    rw [leaves, List.mem_singleton] at hleaf
    exact path.not_mem_segment (hleaf ▸ hsegment) (by decide)
  | renamed path other, leaf, hleaf, segment, hsegment => by
    rw [leaves, List.mem_singleton] at hleaf
    exact path.not_mem_segment (hleaf ▸ hsegment) (by decide)
  | star path, leaf, hleaf, segment, hsegment => by
    rw [leaves, List.mem_singleton] at hleaf
    rcases List.mem_append.mp (hleaf ▸ hsegment) with hsegment | hsegment
    · exact brace_not_mem_front path segment hsegment
    · rw [List.mem_singleton.mp hsegment]
      decide
  | group path items comma, leaf, hleaf, segment, hsegment => by
    rw [leaves] at hleaf
    obtain ⟨leaf, hinner, rfl⟩ := List.mem_map.mp hleaf
    rcases List.mem_append.mp hsegment with hsegment | hsegment
    · exact brace_not_mem_front path segment hsegment
    · exact brace_not_mem_leavesAll items leaf hinner segment hsegment

theorem brace_not_mem_leavesAll : ∀ items : List UseTree, ∀ leaf ∈ leavesAll items,
    ∀ segment ∈ leaf, '\x7b' ∉ segment
  | [], leaf, hleaf, _, _ => by cases hleaf
  | item :: rest, leaf, hleaf, segment, hsegment => by
    rw [leavesAll] at hleaf
    rcases List.mem_append.mp hleaf with hleaf | hleaf
    · exact brace_not_mem_leaves item leaf hleaf segment hsegment
    · exact brace_not_mem_leavesAll rest leaf hleaf segment hsegment

end

theorem join_segments_ne_nil (path : UsePath) : Text.join colons path.segments ≠ [] := by
  obtain ⟨front, hsegments⟩ := path.segments_eq_concat
  rw [hsegments, Text.join_concat]
  exact List.append_ne_nil_of_right_ne_nil _ path.last.ne_nil

theorem isDelimiter_of_mem_as {c : Char} (h : c ∈ "as".toList) : Text.isDelimiter c = false :=
  Text.eq_false_of_any (by decide) h

section Item

variable {item : UseTree}

theorem spelling_ne_nil (h : item.isGroup = false) : item.spelling ≠ [] := by
  cases item with
  | name path =>
      rw [spelling_name]
      exact join_segments_ne_nil path
  | renamed path other =>
      rw [spelling_renamed]
      exact List.append_ne_nil_of_left_ne_nil (join_segments_ne_nil path) _
  | star path => cases path <;> simp [spelling, tokens]
  | group path items comma => cases h

/-- Beside names, only colons and stars are spelled. -/
theorem not_mem_spelling (h : item.isGroup = false) {c : Char} (hc : Text.isDelimiter c = true)
    (hcolon : c ∉ colons) (hstar : c ∉ ['*']) : c ∉ item.spelling := by
  have hpath : ∀ path : UsePath, c ∉ Text.join colons path.segments := by
    intro path hm
    rcases Text.mem_of_mem_join hm with hm | ⟨segment, hsegment, hm⟩
    · exact hcolon hm
    · exact path.not_mem_segment hsegment hc hm
  have has : c ∉ "as".toList := by
    intro hm
    rw [isDelimiter_of_mem_as hm] at hc
    cases hc
  cases item with
  | name path =>
      rw [spelling_name]
      exact hpath path
  | renamed path other =>
      rw [spelling_renamed, List.mem_append, List.mem_append]
      exact not_or.mpr ⟨hpath path, not_or.mpr ⟨has, other.not_mem hc⟩⟩
  | star path =>
      cases path with
      | none => exact hstar
      | some path =>
          rw [spelling_star, List.mem_append, List.mem_append]
          exact not_or.mpr ⟨hpath path, not_or.mpr ⟨hcolon, hstar⟩⟩
  | group path items comma => cases h

end Item

/-- The names that are read off the text behind the brace of a group. -/
def groupNames (rest : Text) : List Text :=
  (Text.splitWhere (· == ',') (Text.dropTail (· == '\x7d') rest)).filter fun name => !name.isEmpty

section Items

variable {items : List UseTree}

/-- Items that are no groups are read as they are spelled. -/
theorem groupNames_inner (h : ∀ item ∈ items, item.isGroup = false) (comma : Bool) :
    groupNames (inner items comma ++ ['\x7d']) = items.map spelling := by
  have hnot : ∀ {c : Char}, Text.isDelimiter c = true → c ∉ colons → c ∉ ['*'] →
      ∀ text ∈ items.map spelling, c ∉ text := by
    intro c hc hcolon hstar text htext
    obtain ⟨item, hitem, rfl⟩ := List.mem_map.mp htext
    exact not_mem_spelling (h item hitem) hc hcolon hstar
  have hpieces : (Text.splitWhere (· == ',') (Text.join [','] (items.map spelling))).filter
      (fun name => !name.isEmpty) = items.map spelling := by
    rcases List.eq_nil_or_concat' items with rfl | ⟨front, last, rfl⟩
    · rfl
    · rw [Text.splitWhere_join (by simp) (hnot (by decide) (by decide) (by decide)),
        List.filter_eq_self]
      intro text htext
      obtain ⟨item, hitem, rfl⟩ := List.mem_map.mp htext
      simpa using spelling_ne_nil (h item hitem)
  have hbrace : '\x7d' ∉ inner items comma := by
    rw [inner, List.mem_append]
    refine not_or.mpr ⟨fun hm => ?_, by cases comma <;> decide⟩
    rcases Text.mem_of_mem_join hm with hm | ⟨text, htext, hm⟩
    · simp at hm
    · exact hnot (by decide) (by decide) (by decide) text htext hm
  have hdrop : Text.dropTail (· == '\x7d') (inner items comma ++ ['\x7d']) = inner items comma := by
    refine Text.dropTail_append_of_forall (fun c hc => beq_eq_false_iff_ne.mpr ?_) (by simp)
    rintro rfl
    exact hbrace hc
  rw [groupNames, hdrop, inner]
  cases comma with
  | false => rw [if_neg Bool.false_ne_true, List.append_nil, hpieces]
  | true =>
      have hcut := Text.splitWhere_append_cons (p := (· == ',')) (beq_self_eq_true ',')
        (Text.join [','] (items.map spelling)) []
      rw [if_pos rfl, hcut, List.filter_append, hpieces]
      exact List.append_nil _

/-- The brace of a group in the group is taken for a part of a name. -/
theorem exists_brace_mem_groupNames {item : UseTree} (hitem : item ∈ items)
    (hgroup : item.isGroup = true) (comma : Bool) :
    ∃ name ∈ groupNames (inner items comma ++ ['\x7d']), '\x7b' ∈ name := by
  have hspelling : '\x7b' ∈ item.spelling := by
    cases item with
    | group path items comma => simp [spelling_group]
    | name _ | renamed _ _ | star _ => cases hgroup
  have hinner : '\x7b' ∈ inner items comma :=
    List.mem_append_left _ (Text.subset_join (List.mem_map_of_mem hitem) hspelling)
  obtain ⟨tail, hrest, htail⟩ :=
    Text.exists_eq_dropTail_append (· == '\x7d') (inner items comma ++ ['\x7d'])
  have hkept : '\x7b' ∈ Text.dropTail (· == '\x7d') (inner items comma ++ ['\x7d']) := by
    have hm : '\x7b' ∈ inner items comma ++ ['\x7d'] := List.mem_append_left _ hinner
    rw [hrest] at hm
    exact (List.mem_append.mp hm).resolve_right fun hm => absurd (htail _ hm) (by decide)
  obtain ⟨name, hname, hm⟩ := Text.exists_mem_splitWhere (p := (· == ',')) hkept (by decide)
  refine ⟨name, List.mem_filter.mpr ⟨hname, ?_⟩, hm⟩
  simpa using List.ne_nil_of_mem hm

theorem Names.brace_not_mem {leaf : List Text} {name : Text}
    (h : Names leaf (String.ofList name)) (hleaf : ∀ segment ∈ leaf, '\x7b' ∉ segment) :
    '\x7b' ∉ name := by
  obtain ⟨segments, -, hsuffix, heq⟩ := h
  rw [String.ofList_injective heq]
  intro hm
  rcases Text.mem_of_mem_join hm with hm | ⟨segment, hsegment, hm⟩
  · exact absurd hm (by decide)
  · exact hleaf segment (hsuffix.subset hsegment) hm

theorem length_join_le_of_suffix (separator : Text) {segments leaf : List Text}
    (hne : segments ≠ []) (h : segments <:+ leaf) :
    (Text.join separator segments).length ≤ (Text.join separator leaf).length := by
  obtain ⟨front, rfl⟩ := h
  rcases List.eq_nil_or_concat' front with rfl | ⟨front, next, rfl⟩
  · rfl
  · rw [Text.join_append (by simp) hne, List.length_append]
    exact Nat.le_add_left _ _

/-- One item of a group is one leaf, which its text names unless it is renamed. -/
theorem names_spelling_iff {item : UseTree} (h : item.isGroup = false) : ∃ leaf,
    item.leaves = [leaf] ∧ (Names leaf (String.ofList item.spelling) ↔ item.isLeaf = true) := by
  cases item with
  | name path =>
      refine ⟨path.segments, rfl, iff_of_true ⟨path.segments, ?_, List.suffix_refl _, ?_⟩ rfl⟩
      · obtain ⟨front, hsegments⟩ := path.segments_eq_concat
        simp [hsegments]
      · rw [spelling_name]
  | renamed path other =>
      refine ⟨path.segments, rfl, iff_of_false ?_ Bool.false_ne_true⟩
      rintro ⟨segments, hne, hsuffix, heq⟩
      have hle := length_join_le_of_suffix colons hne hsuffix
      have hlength := congrArg List.length (String.ofList_injective heq)
      rw [spelling_renamed] at hlength
      simp only [List.length_append, String.length_toList] at hlength
      have has : "as".length = 2 := rfl
      omega
  | star path =>
      refine ⟨frontSegments path ++ [['*']], rfl, iff_of_true ?_ rfl⟩
      refine ⟨frontSegments path ++ [['*']], by simp, List.suffix_refl _, ?_⟩
      cases path with
      | none => rfl
      | some path =>
          obtain ⟨front, hsegments⟩ := path.segments_eq_concat
          have hne : path.segments ≠ [] := by simp [hsegments]
          rw [spelling_star, frontSegments, Text.join_append hne (List.cons_ne_nil _ _)]
          simp [Text.join]
  | group path items comma => cases h

theorem forall₂_names_iff (h : ∀ item ∈ items, item.isGroup = false) :
    List.Forall₂ Names (leavesAll items) ((items.map spelling).map String.ofList) ↔
      items.all isLeaf = true := by
  induction items with
  | nil => simp [leavesAll]
  | cons item items ih =>
      obtain ⟨hitem, hitems⟩ := List.forall_mem_cons.mp h
      obtain ⟨leaf, hleaf, hnames⟩ := names_spelling_iff hitem
      rw [leavesAll, hleaf, List.singleton_append, List.map_cons, List.map_cons,
        List.forall₂_cons, hnames, ih hitems, List.all_cons, Bool.and_eq_true]

/-- The names of a group are its leaves exactly if its items are. -/
theorem forall₂_groupNames_iff (items : List UseTree) (comma : Bool) :
    List.Forall₂ Names (leavesAll items)
        ((groupNames (inner items comma ++ ['\x7d'])).map String.ofList) ↔
      items.all isLeaf = true := by
  by_cases hgroup : ∃ item ∈ items, item.isGroup = true
  -- no leaf holds the brace that some name does
  · obtain ⟨item, hitem, hgroup⟩ := hgroup
    refine iff_of_false (fun hall => ?_) (fun hall => ?_)
    · obtain ⟨name, hname, hbrace⟩ := exists_brace_mem_groupNames hitem hgroup comma
      rw [List.forall₂_map_right_iff] at hall
      obtain ⟨i, hi, rfl⟩ := List.mem_iff_getElem.mp hname
      have hnames := hall.get (hall.length_eq ▸ hi) hi
      exact hnames.brace_not_mem (brace_not_mem_leavesAll items _ (List.get_mem _ _)) hbrace
    · have hleaf := List.all_eq_true.mp hall item hitem
      cases item <;> simp_all [isLeaf, isGroup]
  · have hitems : ∀ item ∈ items, item.isGroup = false := by
      intro item hitem
      exact Bool.eq_false_iff.mpr fun h => hgroup ⟨item, hitem, h⟩
    rw [groupNames_inner hitems, forall₂_names_iff hitems]

end Items

/-! ## Imports -/

section Split

variable {text : Text} (line : Nat)

theorem splitPath_path {segments : List Text}
    (hplain : ∀ segment ∈ segments, ∀ c ∈ segment, Text.isDelimiter c = false)
    (h : text.squeeze = Text.join colons segments) :
    splitPath text colons line = pathImport colons segments false line := by
  have hnot : ∀ segment ∈ segments, ∀ {c : Char}, Text.isDelimiter c = true → c ∉ segment := by
    intro segment hsegment c hc hm
    rw [hplain segment hsegment c hm] at hc
    cases hc
  have hsplit : splitPath text ([':'] ++ [':']) line =
      pathImport ([':'] ++ [':']) segments false line :=
    splitPath_join (fun segment hsegment => ⟨hnot segment hsegment (by decide),
      hnot segment hsegment (by decide), hnot segment hsegment (by decide)⟩) (by decide) h line
  exact hsplit

theorem reads_name (path : UsePath) (h : text.squeeze = (name path).spelling) :
    (name path).Reads (splitPath text colons line) := by
  rw [spelling_name] at h
  obtain ⟨front, hsegments⟩ := path.segments_eq_concat
  rw [splitPath_path line (fun _ hs _ => path.isDelimiter_of_mem hs) h, pathImport, hsegments]
  simp [Reads, hsegments, path.last.ne_nil]

/-- A renamed path is read with the other name as a part of its last segment. -/
theorem splitPath_renamed {path : UsePath} {other : Text.Name}
    (h : text.squeeze = (renamed path other).spelling) :
    (splitPath text colons line).source =
      String.ofList (Text.join colons path.segments ++ ("as".toList ++ other.text)) := by
  obtain ⟨front, hsegments⟩ := path.segments_eq_concat
  have hjoin : text.squeeze =
      Text.join colons (front ++ [path.last.text ++ ("as".toList ++ other.text)]) := by
    rw [h, spelling_renamed, hsegments, Text.join_concat, Text.join_concat, List.append_assoc]
  have hplain : ∀ segment ∈ front ++ [path.last.text ++ ("as".toList ++ other.text)],
      ∀ c ∈ segment, Text.isDelimiter c = false := by
    intro segment hsegment c hc
    rcases List.mem_append.mp hsegment with hsegment | hsegment
    · exact path.isDelimiter_of_mem (hsegments ▸ List.mem_append_left _ hsegment) hc
    · rw [List.mem_singleton.mp hsegment] at hc
      rcases List.mem_append.mp hc with hc | hc
      · exact path.last.isDelimiter_of_mem hc
      · rcases List.mem_append.mp hc with hc | hc
        · exact isDelimiter_of_mem_as hc
        · exact other.isDelimiter_of_mem hc
  rw [splitPath_path line hplain hjoin, ← spelling_renamed, ← h, hjoin]
  rfl

/-- A group with no path in front of it is not told from the path. -/
theorem splitPath_bare {items : List UseTree} {comma : Bool}
    (h : text.squeeze = (group none items comma).spelling) :
    (splitPath text colons line).source ≠ "" := by
  have hsqueeze : (text.filter fun c => !Text.isBlank c) =
      '\x7b' :: inner items comma ++ ['\x7d'] := by
    rw [spelling_group] at h
    exact h
  have hstar : Text.before? ('\x7b' :: inner items comma ++ ['\x7d']) (colons ++ ['*']) = none :=
    before?_concat_eq_none (by decide) colons _
  simp only [splitPath, hsqueeze, hstar]
  cases hcut : cutAt? (colons ++ ['\x7b']) ('\x7b' :: inner items comma ++ ['\x7d']) with
  | none => simp
  | some pieces =>
      -- what stands in front of a brace with colons starts with the first brace
      have hpieces := eq_of_cutAt? hcut
      cases hsource : pieces.1 with
      | nil => simp [hsource, colons] at hpieces
      | cons c source => simp [hsource]

end Split

/-- A tree is read right exactly if it is plain. -/
theorem reads_splitPath_iff {tree : UseTree} {text : Text}
    (h : Text.isSpaced tree.tokens text = true) (line : Nat) :
    tree.Reads (splitPath text colons line) ↔ tree.isPlain = true := by
  have hspelling := squeeze_eq_spelling h
  cases tree with
  | name path => exact iff_of_true (reads_name line path hspelling) rfl
  | renamed path other =>
      -- the source that is read is longer than the path, by the keyword and the other name
      refine iff_of_false (fun hreads => ?_) Bool.false_ne_true
      have hlength := congrArg List.length
        (String.ofList_injective ((splitPath_renamed line hspelling).symm.trans hreads.1))
      simp only [List.length_append, String.length_toList] at hlength
      have has : "as".length = 2 := rfl
      omega
  | star path =>
      cases path with
      | none =>
          have hstar : text.squeeze = Text.squeeze ['*'] := hspelling
          refine iff_of_false (fun hreads => ?_) Bool.false_ne_true
          rw [splitPath_congr hstar] at hreads
          exact ImportKind.noConfusion hreads.2.1
      | some path =>
          rw [spelling_star] at hspelling
          rw [splitPath_star hspelling]
          exact iff_of_true ⟨rfl, rfl, rfl⟩ rfl
  | group path items comma =>
      cases path with
      | none =>
          refine iff_of_false (fun hreads => ?_) Bool.false_ne_true
          exact splitPath_bare line hspelling hreads.1
      | some path =>
          have hsource : '\x7b' ∉ Text.join colons path.segments := by
            intro hm
            rcases Text.mem_of_mem_join hm with hm | ⟨segment, hsegment, hm⟩
            · exact absurd hm (by decide)
            · exact path.not_mem_segment hsegment (by decide) hm
          have hgroup : text.squeeze = Text.join colons path.segments ++
              (colons ++ ['\x7b'] ++ (inner items comma ++ ['\x7d'])) := by
            rw [hspelling, spelling_group, flatten_frontTokens]
            simp
          rw [splitPath_group hsource (by decide) hgroup]
          have hnames := forall₂_groupNames_iff items comma
          exact ⟨fun hreads => hnames.mp hreads.2.2, fun hplain => ⟨rfl, rfl, hnames.mpr hplain⟩⟩

/-- A group with a name, a path, a star and a comma at its end. -/
def groupedTree : UseTree :=
  group (some ⟨⟨⟨"std".toList, by decide, by decide⟩, [⟨"io".toList, by decide, by decide⟩]⟩, true⟩)
    [name ⟨⟨⟨"self".toList, by decide, by decide⟩, []⟩, false⟩,
      name ⟨⟨⟨"fmt".toList, by decide, by decide⟩, [⟨"Debug".toList, by decide, by decide⟩]⟩,
        false⟩,
      star (some ⟨⟨⟨"error".toList, by decide, by decide⟩, []⟩, false⟩)] true

def groupedText : Text :=
  "::std :: io::\x7bself , fmt::Debug,\n  error ::* , \x7d".toList

theorem groupedTree_reads : Text.isSpaced groupedTree.tokens groupedText = true ∧
    splitPath groupedText colons 4 =
      ⟨"::std::io", .named, ["self", "fmt::Debug", "error::*"], 4⟩ ∧
    groupedTree.Reads (splitPath groupedText colons 4) := by
  have hspaced : Text.isSpaced groupedTree.tokens groupedText = true := by decide +kernel
  exact ⟨hspaced, by decide +kernel, (reads_splitPath_iff hspaced 4).mpr rfl⟩

/-- A path under another name. -/
def renamedTree : UseTree :=
  renamed ⟨⟨⟨"e".toList, by decide, by decide⟩, [⟨"f".toList, by decide, by decide⟩]⟩, false⟩
    ⟨"g".toList, by decide, by decide⟩

theorem renamedTree_not_reads : Text.isSpaced renamedTree.tokens "e::f as g".toList = true ∧
    splitPath "e::f as g".toList colons 1 = ⟨"e::fasg", .named, ["fasg"], 1⟩ ∧
    ¬renamedTree.Reads ⟨"e::fasg", .named, ["fasg"], 1⟩ := by
  refine ⟨by decide +kernel, by decide +kernel, fun hreads => ?_⟩
  have hsource : ("e::fasg" : String) = String.ofList (Text.join colons [['e'], ['f']]) := hreads.1
  exact absurd hsource (by decide)

end UseTree

end CodeAtlas.Tree
