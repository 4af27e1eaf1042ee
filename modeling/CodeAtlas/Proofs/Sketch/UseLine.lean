import CodeAtlas.Proofs.Regex.Greedy
import CodeAtlas.Proofs.Sketch.Extract
import CodeAtlas.Proofs.Tree.UseTree

/-! Lines with the keyword `use`, as patterns find them. What the pattern takes for the source
includes the colons in front of a group or a star, and so the group is never found and the star
never belongs to the source: every import is one of a whole module. -/

namespace CodeAtlas.Sketch

open Regex Regex.Cursor
open CodeAtlas.Tree (colons)

/-! ## Single imports -/

theorem before?_eq_none_of_not_mem {c : Char} {text word : Text} (hword : c ∈ word)
    (htext : c ∉ text) : text.before? word = none := by
  refine if_neg fun hends => htext ?_
  exact (Text.endsWith_iff_suffix.mp hends).subset hword

theorem dropColons_of_before? (n : Nat) {text : Text} (h : text.before? [':', ':'] = none) :
    dropColons n text = text := by
  cases n with
  | zero => rfl
  | succ n => rw [dropColons, h]

/-- Without a star and without names everything is imported as a whole. -/
theorem importOf_of_not_mem {raw : Text} (h : '*' ∉ raw) (line : Nat) :
    importOf raw none line = ⟨String.ofList (dropColons raw.length raw), .whole, [], line⟩ := by
  have hdot : raw.before? ['.', '*'] = none := before?_eq_none_of_not_mem (by decide) h
  have hcolons : raw.before? [':', ':', '*'] = none := before?_eq_none_of_not_mem (by decide) h
  simp [importOf, hdot, hcolons]

/-! ## Imports of outlines -/

/-- Where the patterns of the language find an import, those of any language add none. -/
theorem imports_extract (text : Text) (language : Language) :
    let source : Source := ⟨language, text, text.lineStarts⟩
    let own := source.imports (Family.ofLanguage language).imports
    (extract text language).imports = own ∨
      own = [] ∧ (extract text language).imports = source.imports Family.generic.imports := by
  intro source own
  simp only [extract]
  split
  · by_cases hown : own = []
    · refine .inr ⟨hown, ?_⟩
      simp only [Findings.outline]
      exact if_pos (List.isEmpty_iff.mpr hown)
    · refine .inl ?_
      simp only [Findings.outline]
      exact if_neg fun hempty => hown (List.isEmpty_iff.mp hempty)
  · exact .inl rfl

theorem exists_of_mem_imports_extract {text : Text} {language : Language} {decl : ImportDecl}
    (h : decl ∈ (extract text language).imports) :
    ∃ family ∈ [Family.ofLanguage language, .generic], ∃ pattern ∈ family.imports,
      ∃ captures ∈ findAll pattern text, ∃ capture, captures.get? "source" = some capture ∧
        ∃ line, decl = importOf capture.text ((captures.get? "names").map (·.text)) line := by
  have hfamily : ∃ family ∈ [Family.ofLanguage language, .generic],
      decl ∈ (Source.mk language text text.lineStarts).imports family.imports := by
    rcases imports_extract text language with heq | ⟨-, heq⟩
    · exact ⟨_, List.mem_cons_self, heq ▸ h⟩
    · exact ⟨_, List.mem_cons_of_mem _ List.mem_cons_self, heq ▸ h⟩
  obtain ⟨family, hfamily, h⟩ := hfamily
  obtain ⟨pattern, hpattern, captures, hm, capture, hcapture, hdecl⟩ := exists_of_mem_imports h
  exact ⟨family, hfamily, pattern, hpattern, captures, hm, capture, hcapture, _, hdecl⟩

/-- An import of one match. -/
theorem imports_of_findAll {source : Source} {pattern : Regex.Pattern} {captures : Captures}
    (h : findAll pattern source.text = [captures]) {capture : Capture}
    (hcapture : captures.get? "source" = some capture) :
    source.imports [pattern] = [importOf capture.text ((captures.get? "names").map (·.text))
      (Text.lineAt source.starts capture.offset)] := by
  simp [Source.imports, h, Source.gatherImport, hcapture]

/-! ## The pattern of used paths -/

/-- What the pattern of imports asks for in front of the source. -/
def useFront : List Regex.Pattern :=
  [.lineStart, gap, opt (all [lit "pub", gap1]), lit "use", gap1]

/-- The characters of a source. -/
def sourceClass : CharClass := wordOr ":"

/-- The source, and the group that may follow. -/
def useBack : List Regex.Pattern :=
  [named "source" (many1 sourceClass), opt (all [lit "::\x7b",
    named "names" (.many (noneOf "\x7d\n")), lit "\x7d"])]

theorem imports_rust : Family.rust.imports = [all (useFront ++ useBack)] := rfl

/-- No blank belongs to a source. -/
theorem has_gapClass_of_source {c : Char} (h : sourceClass.has c = true) :
    gapClass.has c = false := by
  rw [Bool.eq_false_iff]
  intro hgap
  have hc : c = ' ' ∨ c = '\t' := by
    simpa [gapClass, oneOf, CharClass.has, ClassItem.has] using hgap
  revert h
  rcases hc with rfl | rfl <;> decide

/-- The keyword at the start of a text leads to what stands behind it and a blank. -/
theorem run_useFront {α : Type} {rest : Text} {next : Continuation α} {answer : α}
    (hrest : ∀ c ∈ rest.head?, gapClass.has c = false)
    (h : next (between "use ".toList rest) [] = some answer) :
    run (all useFront) (between [] ("use ".toList ++ rest)) [] next = some answer := by
  have hgap : run gap1 (between "use".toList (' ' :: rest)) [] next = some answer := by
    rw [gap1, many1, run, run_char (by decide)]
    exact run_many_of_head? hrest h
  have huse : run (all [lit "use", gap1]) (between [] ("use".toList ++ ' ' :: rest)) [] next =
      some answer := by
    rw [run_all_cons, run_lit]
    exact hgap
  have hpub : run (all [opt (all [lit "pub", gap1]), lit "use", gap1])
      (between [] ("use".toList ++ ' ' :: rest)) [] next = some answer := by
    rw [run_all_cons, run_opt_of_head? (c := 'p') rfl (by simp [between])]
    exact huse
  have hstart : run (all [gap, opt (all [lit "pub", gap1]), lit "use", gap1])
      (between [] ("use".toList ++ ' ' :: rest)) [] next = some answer := by
    rw [run_all_cons]
    exact run_many_of_head? (by simp; decide) hpub
  exact hstart

/-- Behind the keyword the source is taken up to its last character, and nothing else is. -/
theorem run_useBack {front text : Text} {captures : Captures} :
    run (all useBack) (between front text) captures
        (fun cursor captures => some (cursor, captures)) =
      if text.takeWhile sourceClass.has = [] then none
      else some (between (front ++ text.takeWhile sourceClass.has)
        (text.dropWhile sourceClass.has),
        ("source", ⟨front.size, text.takeWhile sourceClass.has⟩) :: captures) :=
  run_named_many1 (c := ':') rfl (by decide) "source" _

/-- No match of the pattern keeps more than the source. -/
theorem exists_of_mem_findAll_use {text : Text} {captures : Captures}
    (h : captures ∈ findAll (all (useFront ++ useBack)) text) :
    ∃ capture : Capture, captures = [("source", capture)] := by
  obtain ⟨front, rest, stop, rfl, hfirst⟩ := exists_matchAt?_of_mem_findAll h
  rw [matchAt?, run_all_append] at hfirst
  obtain ⟨taken, rest, found, rfl, hmatch, hback⟩ := leads_of_run hfirst
  obtain rfl := hmatch.found_eq_nil rfl
  replace hback := run_useBack.symm.trans hback
  split at hback
  · cases hback
  · obtain ⟨-, hcaptures⟩ := Prod.mk.inj (Option.some.inj hback)
    exact ⟨_, hcaptures.symm⟩

theorem avoids_of_mem_groups : ∀ pattern ∈ Family.rust.imports ++ Family.generic.imports,
    ∀ group ∈ pattern.groups, group.1 = "source" → group.2.avoids '*' = true := by
  decide +kernel

theorem ne_of_mem_groups : ∀ pattern ∈ Family.generic.imports,
    ∀ group ∈ pattern.groups, group.1 ≠ "names" := by
  decide +kernel

/-- Whatever the text is, patterns find no names and no star in what it uses. -/
theorem whole_of_mem_imports_extract {text : Text} {decl : ImportDecl}
    (h : decl ∈ (extract text .rust).imports) : decl.kind = .whole ∧ decl.names = [] := by
  obtain ⟨family, hfamily, pattern, hpattern, captures, hm, capture, hcapture, line, rfl⟩ :=
    exists_of_mem_imports_extract h
  have hnames : captures.get? "names" = none := by
    rcases List.mem_cons.mp hfamily with rfl | hfamily
    · rw [Family.ofLanguage, imports_rust, List.mem_singleton] at hpattern
      subst hpattern
      obtain ⟨_, rfl⟩ := exists_of_mem_findAll_use hm
      rfl
    · rw [List.mem_singleton.mp hfamily] at hpattern
      rw [Option.eq_none_iff_forall_ne_some]
      intro other hother
      obtain ⟨body, hbody, -⟩ := stands_of_get? hm hother
      exact ne_of_mem_groups pattern hpattern _ hbody rfl
  have hstar : '*' ∉ capture.text := by
    obtain ⟨body, hbody, _, _, _, -, -, hmatch⟩ := stands_of_get? hm hcapture
    refine hmatch.not_mem_of_avoids (avoids_of_mem_groups pattern ?_ _ hbody rfl)
    rcases List.mem_cons.mp hfamily with rfl | hfamily
    · exact List.mem_append_left _ hpattern
    · exact List.mem_append_right _ (List.mem_singleton.mp hfamily ▸ hpattern)
  rw [hnames, Option.map_none, importOf_of_not_mem hstar]
  exact ⟨rfl, rfl⟩

/-! ## Lines that use a path -/

/-- A line that brings in names of a path, or all of them where no list is given. -/
structure UseLine where
  path : Tree.NamePath
  names : Option (List Text.Name)
  word : (path.segments.all fun segment => segment.all Text.isWord) = true

namespace UseLine

variable (line : UseLine)

def source : Text := Text.join colons line.path.segments

/-- The group or the star. -/
def ending : Text :=
  match line.names with
  | some names => ['\x7b'] ++ Text.join ", ".toList (names.map (·.text)) ++ ['\x7d']
  | none => ['*']

/-- What is used, as it is written. -/
def argument : Text := line.source ++ colons ++ line.ending

def text : Text := "use ".toList ++ line.argument ++ [';']

/-- The import that the line declares. -/
def declared : ImportDecl :=
  match line.names with
  | some names =>
      ⟨String.ofList line.source, .named, names.map fun name => String.ofList name.text, 1⟩
  | none => ⟨String.ofList line.source, .wildcard, [], 1⟩

theorem has_of_mem_colons {c : Char} (h : c ∈ colons) : sourceClass.has c = true := by
  have hall : colons.all sourceClass.has = true := by decide
  exact List.all_eq_true.mp hall c h

theorem has_source_append {c : Char} (h : c ∈ line.source ++ colons) :
    sourceClass.has c = true := by
  rcases List.mem_append.mp h with h | h
  · rcases Text.mem_of_mem_join h with hc | ⟨segment, hsegment, hc⟩
    · exact has_of_mem_colons hc
    · have hword := List.all_eq_true.mp (List.all_eq_true.mp line.word segment hsegment) c hc
      simp [sourceClass, wordOr, CharClass.has, ClassItem.has, hword]
  · exact has_of_mem_colons h

theorem not_mem_source {c : Char} (hc : sourceClass.has c = false) : c ∉ line.source ++ colons := by
  intro hm
  rw [line.has_source_append hm] at hc
  cases hc

theorem exists_source_eq : ∃ front c, line.source = front ++ [c] ∧ Text.isDelimiter c = false := by
  have hlast := line.path.getLast?_segments
  obtain ⟨segments, hsegments⟩ := List.getLast?_eq_some_iff.mp hlast
  obtain ⟨front, c, hname⟩ := (List.eq_nil_or_concat' _).resolve_left line.path.last.ne_nil
  refine ⟨segments.flatMap (· ++ colons) ++ front, c, ?_,
    line.path.last.isDelimiter_of_mem (by simp [hname])⟩
  rw [source, hsegments, Text.join_concat, hname, List.append_assoc]

theorem newline_not_mem_text : '\n' ∉ line.text := by
  have hsource : '\n' ∉ line.source ++ colons := line.not_mem_source (by decide)
  have hending : '\n' ∉ line.ending := by
    unfold ending
    split
    · rename_i names hnames
      have hjoin : '\n' ∉ Text.join ", ".toList (names.map (·.text)) := by
        intro hm
        rcases Text.mem_of_mem_join hm with hm | ⟨_, hname, hm⟩
        · revert hm
          decide
        · obtain ⟨name, -, rfl⟩ := List.mem_map.mp hname
          exact name.not_mem (by decide) hm
      simpa using hjoin
    · decide
  simp only [text, argument, List.mem_append, not_or] at hsource ⊢
  exact ⟨⟨by decide, hsource, hending⟩, by decide⟩

/-- Patterns find the path with the colons behind it. -/
theorem findAll_text {back : Text} (hback : back.allBlank) :
    findAll (all (useFront ++ useBack)) (line.text ++ back) =
      [[("source", ⟨Text.size "use ".toList, line.source ++ colons⟩)]] := by
  have htext : line.text ++ back =
      "use ".toList ++ (line.source ++ colons ++ (line.ending ++ [';'] ++ back)) := by
    simp only [text, argument, List.append_assoc]
  have hending : ∀ c ∈ (line.ending ++ [';'] ++ back).head?, sourceClass.has c = false := by
    unfold ending
    split <;> simp <;> decide
  obtain ⟨htake, hdrop⟩ :=
    Text.takeWhile_append_of_head? (fun _ hc => line.has_source_append hc) hending
  have hgap : ∀ c ∈ (line.source ++ colons ++ (line.ending ++ [';'] ++ back)).head?,
      gapClass.has c = false := by
    intro c hc
    rw [List.head?_append_of_ne_nil _ (by simp [colons])] at hc
    exact has_gapClass_of_source (line.has_source_append (List.mem_of_mem_head? hc))
  have hfirst : matchAt? (all (useFront ++ useBack)) (between [] (line.text ++ back)) = some
      (between ("use ".toList ++ (line.source ++ colons)) (line.ending ++ [';'] ++ back),
        [("source", ⟨Text.size "use ".toList, line.source ++ colons⟩)]) := by
    rw [matchAt?, run_all_append, htext]
    refine run_useFront hgap ?_
    rw [run_useBack, htake, hdrop, if_neg (by simp [colons])]
  exact findAll_of_line rfl (by simp [text]) line.newline_not_mem_text hback hfirst

/-- The colons behind the source are dropped again. -/
theorem importOf_source (n : Nat) : importOf (line.source ++ colons) none n =
    ⟨String.ofList line.source, .whole, [], n⟩ := by
  obtain ⟨front, c, hsource, hc⟩ := line.exists_source_eq
  have hcolon : ':' ≠ c := by
    rintro rfl
    revert hc
    decide
  have hbare : Text.before? line.source colons = none := by
    rw [hsource]
    exact Tree.before?_concat_eq_none hcolon [':'] front
  have hbefore : Text.before? (line.source ++ colons) [':', ':'] = some line.source :=
    Tree.before?_append line.source colons
  have hdrop : dropColons (line.source ++ colons).length (line.source ++ colons) = line.source := by
    have hlength : (line.source ++ colons).length = line.source.length + 1 + 1 := by
      simp [colons]
    rw [hlength, dropColons, hbefore]
    exact dropColons_of_before? _ hbare
  rw [importOf_of_not_mem (line.not_mem_source (by decide)), hdrop]

/-! ### The path as a parser reads it -/

theorem squeeze_source : Text.squeeze line.source = line.source := by
  refine Text.squeeze_eq_self fun c hc => ?_
  rcases Text.mem_of_mem_join hc with hc | ⟨segment, hsegment, hc⟩
  · have hall : colons.any Text.isBlank = false := by decide
    exact Text.eq_false_of_any hall hc
  · exact (Bool.or_eq_false_iff.mp (line.path.isDelimiter_of_mem hsegment hc)).1

/-- The items of a group that are names alone. -/
def items (names : List Text.Name) : List Tree.UseTree :=
  names.map fun name => .name ⟨⟨name, []⟩, false⟩

theorem spelling_items (names : List Text.Name) :
    (items names).map Tree.UseTree.spelling = names.map (·.text) := by
  rw [items, List.map_map]
  refine List.map_congr_left fun name _ => ?_
  rw [Function.comp_apply, Tree.UseTree.spelling_name]
  simp [Tree.UsePath.segments, Tree.NamePath.segments, Text.join]

theorem groupNames_items (names : List Text.Name) :
    Tree.UseTree.groupNames (Tree.UseTree.inner (items names) false ++ ['\x7d']) =
      names.map (·.text) := by
  have hplain : ∀ item ∈ items names, item.isGroup = false := by
    intro item hitem
    obtain ⟨name, -, rfl⟩ := List.mem_map.mp hitem
    rfl
  rw [Tree.UseTree.groupNames_inner hplain, spelling_items]

theorem squeeze_list (names : List Text.Name) :
    Text.squeeze (Text.join ", ".toList (names.map (·.text))) =
      Tree.UseTree.inner (items names) false := by
  have hnames : (names.map (·.text)).map Text.squeeze = names.map (·.text) := by
    rw [List.map_map]
    exact List.map_congr_left fun name _ =>
      Text.squeeze_eq_self fun _ hc => name.isBlank_of_mem hc
  rw [Text.squeeze_join, hnames, Tree.UseTree.inner, spelling_items]
  exact (List.append_nil _).symm

/-- In the path of a syntax tree the group and the star are told from the source. -/
theorem splitPath_argument : Tree.splitPath line.argument colons 1 = line.declared := by
  cases hnames : line.names with
  | none =>
      have hsqueeze : Text.squeeze line.argument =
          Text.join colons line.path.segments ++ (colons ++ ['*']) := by
        rw [argument, ending, hnames, Text.squeeze_append, Text.squeeze_append, squeeze_source,
          List.append_assoc]
        rfl
      rw [Tree.splitPath_star hsqueeze, declared, hnames]
      rfl
  | some names =>
      have hending : Text.squeeze line.ending =
          ['\x7b'] ++ Tree.UseTree.inner (items names) false ++ ['\x7d'] := by
        rw [← squeeze_list, ending, hnames, Text.squeeze_append, Text.squeeze_append]
        rfl
      have hsqueeze : Text.squeeze line.argument = line.source ++
          (colons ++ ['\x7b'] ++ (Tree.UseTree.inner (items names) false ++ ['\x7d'])) := by
        rw [argument, Text.squeeze_append, Text.squeeze_append, squeeze_source, hending]
        simp only [List.append_assoc]
        rfl
      have hbrace : '\x7b' ∉ line.source := fun hm =>
        line.not_mem_source (by decide) (List.mem_append_left colons hm)
      have hread := groupNames_items names
      rw [Tree.UseTree.groupNames] at hread
      rw [Tree.splitPath_group hbrace (by decide) hsqueeze, hread, declared, hnames, List.map_map]
      rfl

end UseLine

/-- A line that uses names of a path, or all of them, is found as one import of that path as a
whole, whereas the path of a syntax tree is read as what the line declares. -/
theorem imports_extract_useLine (line : UseLine) {back : Text} (hback : back.allBlank) :
    (extract (line.text ++ back) .rust).imports =
      [⟨String.ofList line.source, .whole, [], 1⟩] ∧
    Tree.splitPath line.argument colons 1 = line.declared := by
  refine ⟨?_, line.splitPath_argument⟩
  let source : Source := ⟨.rust, line.text ++ back, Text.lineStarts (line.text ++ back)⟩
  have hline : Text.lineAt source.starts (Text.size "use ".toList) = 1 := by
    have htext : line.text ++ back = "use ".toList ++ (line.argument ++ [';'] ++ back) := by
      simp only [UseLine.text, List.append_assoc]
    have hstarts : source.starts =
        Text.lineStarts ("use ".toList ++ (line.argument ++ [';'] ++ back)) :=
      congrArg Text.lineStarts htext
    rw [hstarts, Text.lineAt_size]
    rfl
  have hown : source.imports Family.rust.imports =
      [⟨String.ofList line.source, .whole, [], 1⟩] := by
    rw [imports_rust, imports_of_findAll (line.findAll_text hback) rfl, hline]
    exact congrArg (fun decl => [decl]) (line.importOf_source 1)
  rcases imports_extract (line.text ++ back) .rust with heq | ⟨hnone, -⟩
  · exact heq.trans hown
  · exact absurd (hown.symm.trans hnone) (List.cons_ne_nil _ _)

/-- A line that uses two names of a path. -/
def groupLine : UseLine where
  path := ⟨⟨"a".toList, by decide, by decide⟩, [⟨"b".toList, by decide, by decide⟩]⟩
  names := some [⟨"c".toList, by decide, by decide⟩, ⟨"d".toList, by decide, by decide⟩]
  word := by decide

theorem groupLine_imports : groupLine.text ++ ['\n'] = "use a::b::\x7bc, d\x7d;\n".toList ∧
    (extract "use a::b::\x7bc, d\x7d;\n".toList .rust).imports = [⟨"a::b", .whole, [], 1⟩] ∧
    Tree.splitPath "a::b::\x7bc, d\x7d".toList colons 1 = ⟨"a::b", .named, ["c", "d"], 1⟩ := by
  have hback : Text.allBlank ['\n'] = true := by decide
  exact ⟨by decide, imports_extract_useLine groupLine hback⟩

/-- What the line declares is not found. -/
theorem groupLine_declared_not_mem : groupLine.text = "use a::b::\x7bc, d\x7d;".toList ∧
    groupLine.declared = ⟨"a::b", .named, ["c", "d"], 1⟩ ∧
    groupLine.declared ∉ (extract "use a::b::\x7bc, d\x7d;".toList .rust).imports := by
  refine ⟨by decide, by decide, fun hm => ?_⟩
  have hwhole := (whole_of_mem_imports_extract hm).1
  revert hwhole
  decide

end CodeAtlas.Sketch
