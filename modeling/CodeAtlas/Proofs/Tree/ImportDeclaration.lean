import CodeAtlas.Proofs.Text.Utf8
import CodeAtlas.Proofs.Tree.Path

/-! Import declarations of qualified names. Their keywords are dropped as texts and not as words,
and so a name that begins like one loses its beginning. -/

namespace CodeAtlas.Tree

/-- An import of a qualified name, or with a star of all names in it. -/
structure ImportDeclaration where
  isStatic : Bool
  path : NamePath
  star : Bool

namespace ImportDeclaration

def staticWord : Text := "static".toList

variable (declaration : ImportDeclaration)

/-- What stands behind the first name. -/
def laterTokens : List Text :=
  (declaration.path.rest.flatMap fun name => [['.'], name.text]) ++
    if declaration.star then [['.'], ['*']] else []

def tokens : List Text :=
  "import".toList :: ((if declaration.isStatic then [staticWord] else []) ++
    declaration.path.first.text :: (declaration.laterTokens ++ [[';']]))

/-- The import that is declared. -/
def imported (line : Nat) : ImportDecl where
  source := String.ofList (Text.join ['.'] declaration.path.segments)
  kind := if declaration.star then .wildcard else .named
  names := if declaration.star then [] else [String.ofList declaration.path.last.text]
  line := line

/-- The names that are read. Where no keyword stands in front of it, the first name loses each
`static` at its beginning. -/
def Reads (segments : List Text) : Prop :=
  if declaration.isStatic then segments = declaration.path.segments
  else ∃ count stem,
    declaration.path.first.text = (List.replicate count staticWord).flatten ++ stem ∧
      ¬staticWord <+: stem ∧ segments = stem :: declaration.path.rest.map (·.text)

end ImportDeclaration

/-! ## Statements -/

theorem trim_append_semicolon (text : Text) :
    Text.trim (text ++ [';']) = text.trimStart ++ [';'] := by
  have hstart : Text.trimStart (text ++ [';']) = text.trimStart ++ [';'] := by
    rw [Text.trimStart, List.dropWhile_append]
    split
    · rename_i h
      rw [Text.trimStart, List.isEmpty_iff.mp h]
      rfl
    · rfl
  rw [Text.trim, hstart]
  exact Text.dropTail_concat text.trimStart (by decide)

/-- A statement without the semicolon at its end. -/
theorem squeeze_trim_dropTail {text : Text} (h : ';' ∉ text) :
    (Text.dropTail (· == ';') (Text.trim (text ++ [';']))).trim.squeeze = text.squeeze := by
  obtain ⟨gap, htext, -⟩ := Text.exists_eq_append_trimStart text
  have hnot : ';' ∉ text.trimStart := by
    intro hm
    rw [htext] at h
    exact h (List.mem_append_right _ hm)
  have hdrop : Text.dropTail (· == ';') (text.trimStart ++ [';']) = text.trimStart := by
    refine Text.dropTail_append_of_forall (fun c hc => beq_eq_false_iff_ne.mpr ?_) (by simp)
    rintro rfl
    exact hnot hc
  rw [trim_append_semicolon, hdrop, Text.squeeze_trim, Text.squeeze_trimStart]

/-- Blanks around a statement. -/
theorem trim_append {gap back : Text} (hgap : gap.allBlank = true) (hback : back.allBlank = true)
    {c : Char} (hc : Text.isBlank c = false) (text : Text) :
    Text.trim (gap ++ (c :: text ++ [';']) ++ back) = c :: text ++ [';'] := by
  have hstart : Text.trimStart (gap ++ (c :: text ++ [';']) ++ back) =
      c :: text ++ [';'] ++ back := by
    rw [Text.trimStart, List.append_assoc, List.dropWhile_append,
      List.dropWhile_eq_nil_iff.mpr (List.all_eq_true.mp hgap)]
    simp [hc]
  have hend : Text.trimEnd (c :: text ++ ';' :: back) = c :: text ++ ';' :: Text.trimEnd back :=
    Text.trimEnd_append_cons (c :: text) (by decide) back
  have hnil : Text.trimEnd back = [] :=
    Text.dropTail_append_of_forall (List.forall_mem_nil _) (List.all_eq_true.mp hback)
  rw [Text.trim, hstart, List.append_assoc, List.singleton_append, hend, hnil]

/-! ## Keywords -/

/-- A word is not followed by itself. -/
theorem not_prefix_of_endsBefore {word rest text : Text} (hne : word ≠ [])
    (hplain : word.any Text.isDelimiter = false) (h : word.endsBefore rest = true)
    (htext : text <+: rest) : ¬word <+: text := by
  intro hprefix
  obtain ⟨back, rfl⟩ := hprefix.trans htext
  have hhead := Text.isDelimiter_of_endsBefore hne hplain h
  obtain ⟨c, word, rfl⟩ := List.exists_cons_of_ne_nil hne
  exact List.any_eq_false.mp hplain c List.mem_cons_self (hhead c rfl)

/-- The text of a declaration behind the keyword `import`. -/
theorem declaredPath_append {gap body back : Text} (hgap : gap.allBlank = true)
    (hback : back.allBlank = true) (hnot : ¬"import".toList <+: body ++ [';']) :
    declaredPath (gap ++ ("import".toList ++ (body ++ [';'])) ++ back) =
      (Text.dropTail (· == ';')
        (dropLeading ImportDeclaration.staticWord (Text.trim (body ++ [';'])).length
          (Text.trim (body ++ [';']))).trim).trim := by
  have htrim : Text.trim (gap ++ ("import".toList ++ (body ++ [';'])) ++ back) =
      "import".toList ++ (body ++ [';']) :=
    trim_append hgap hback (by decide) ("mport".toList ++ body)
  have hdrop : dropLeading "import".toList ("import".toList ++ (body ++ [';'])).length
      ("import".toList ++ (body ++ [';'])) = body ++ [';'] :=
    dropLeading_append hnot 1 (by simp)
  unfold declaredPath
  simp only [htrim, hdrop]
  rfl

namespace ImportDeclaration

variable {declaration : ImportDeclaration}

theorem append_flatten_laterTokens (stem : Text) :
    stem ++ declaration.laterTokens.flatten =
      Text.join ['.'] (stem :: declaration.path.rest.map (·.text)) ++
        if declaration.star then ['.', '*'] else [] := by
  rw [← flatten_names, laterTokens]
  cases declaration.star <;> simp

/-- The later tokens are followed by a semicolon. -/
theorem exists_of_isSpaced_later {text : Text}
    (h : Text.isSpaced (declaration.laterTokens ++ [[';']]) text = true) :
    ∃ body back, text = body ++ [';'] ++ back ∧ back.allBlank = true ∧
      body.squeeze = declaration.laterTokens.flatten := by
  obtain ⟨body, back, htext, hback⟩ := Text.exists_of_isSpaced_concat h
  refine ⟨body, back, htext, hback, ?_⟩
  have hblank : ∀ token ∈ declaration.laterTokens ++ [[';']], ∀ c ∈ token,
      Text.isBlank c = false := by
    intro token htoken c hc
    simp only [laterTokens, List.mem_append, List.mem_flatMap, List.mem_ite_nil_right] at htoken
    rcases htoken with (⟨name, -, htoken⟩ | ⟨-, htoken⟩) | htoken
    · rcases List.mem_cons.mp htoken with rfl | htoken
      · rw [List.mem_singleton.mp hc]
        decide
      · rw [List.mem_singleton.mp htoken] at hc
        exact name.isBlank_of_mem hc
    · have hstar : ([['.'], ['*']] : List Text).flatten.any Text.isBlank = false := by decide
      exact Text.eq_false_of_any hstar (List.mem_flatten.mpr ⟨token, htoken, hc⟩)
    · rw [List.mem_singleton.mp htoken, List.mem_singleton] at hc
      rw [hc]
      decide
  have hsqueeze := Text.squeeze_of_isSpaced h hblank
  rw [htext, Text.squeeze_append, Text.squeeze_append, Text.squeeze_of_allBlank hback] at hsqueeze
  simpa [Text.squeeze, Text.isBlank] using hsqueeze

/-- What stands behind the keywords. -/
theorem exists_of_isSpaced_path {text : Text}
    (h : Text.isSpaced (declaration.path.first.text :: (declaration.laterTokens ++ [[';']])) text =
      true) :
    ∃ gap body back, text = gap ++ (declaration.path.first.text ++ body ++ [';']) ++ back ∧
      gap.allBlank = true ∧ back.allBlank = true ∧
      (∀ c ∈ (body ++ [';']).head?, Text.isDelimiter c = true) ∧
      body.squeeze = declaration.laterTokens.flatten := by
  obtain ⟨gap, rest, rfl, hgap, hends, hrest⟩ := Text.exists_of_isSpaced_cons h
  obtain ⟨body, back, rfl, hback, hbody⟩ := exists_of_isSpaced_later hrest
  refine ⟨gap, body, back, by simp, hgap, hback, ?_, hbody⟩
  have hhead := Text.isDelimiter_of_endsBefore declaration.path.first.ne_nil
    declaration.path.first.plain hends
  cases body with
  | nil => simpa using hhead
  | cons c body => simpa using hhead

/-- A path spells no semicolon. -/
theorem semicolon_not_mem {path stem : Text} (hstem : ∀ c ∈ stem, Text.isDelimiter c = false)
    (h : path.squeeze = stem ++ declaration.laterTokens.flatten) : ';' ∉ path := by
  rw [← Text.mem_squeeze (by decide), h, laterTokens, List.flatten_append, List.mem_append,
    List.mem_append, List.mem_flatten, not_or, not_or]
  refine ⟨?_, ?_, by cases declaration.star <;> simp⟩
  · intro hm
    exact absurd (hstem ';' hm) (by decide)
  · rintro ⟨token, htoken, hc⟩
    obtain ⟨name, -, htoken⟩ := List.mem_flatMap.mp htoken
    rcases List.mem_cons.mp htoken with rfl | htoken
    · simp at hc
    · rw [List.mem_singleton.mp htoken] at hc
      exact name.not_mem (by decide) hc

/-- The path behind `static` keeps all its names. -/
theorem squeeze_declaredPath_static {text : Text} (h : Text.isSpaced declaration.tokens text = true)
    (hstatic : declaration.isStatic = true) : (declaredPath text).squeeze =
      declaration.path.first.text ++ declaration.laterTokens.flatten := by
  obtain ⟨before, rest, rfl, hbefore, himport, hrest⟩ := Text.exists_of_isSpaced_cons h
  rw [hstatic, if_pos rfl, List.singleton_append] at hrest
  obtain ⟨gap, rest, rfl, hgap, hends, hrest⟩ := Text.exists_of_isSpaced_cons hrest
  obtain ⟨inner, body, back, rfl, hinner, hback, -, hbody⟩ := exists_of_isSpaced_path hrest
  let path := inner ++ (declaration.path.first.text ++ body)
  have hpath : path.squeeze = declaration.path.first.text ++ declaration.laterTokens.flatten := by
    rw [Text.squeeze_append, Text.squeeze_of_allBlank hinner, Text.squeeze_append, hbody,
      Text.squeeze_eq_self fun c => declaration.path.first.isBlank_of_mem]
    rfl
  have hsplit : before ++ "import".toList ++
      (gap ++ staticWord ++ (inner ++ (declaration.path.first.text ++ body ++ [';']) ++ back)) =
      before ++ ("import".toList ++ (gap ++ (staticWord ++ path) ++ [';'])) ++ back := by
    simp [path]
  have hnot : ¬"import".toList <+: gap ++ (staticWord ++ path) ++ [';'] :=
    not_prefix_of_endsBefore (by decide) (by decide) himport ⟨back, by simp [path]⟩
  have htrim : Text.trim (gap ++ (staticWord ++ path) ++ [';']) =
      staticWord ++ (path ++ [';']) := by
    have hend : Text.allBlank [] = true := rfl
    simpa [staticWord] using trim_append hgap hend (c := 's') (by decide) ("tatic".toList ++ path)
  have hdrop : dropLeading staticWord (staticWord ++ (path ++ [';'])).length
      (staticWord ++ (path ++ [';'])) = path ++ [';'] := by
    have hnext : ¬staticWord <+: path ++ [';'] :=
      not_prefix_of_endsBefore (by decide) (by decide) hends ⟨back, by simp [path]⟩
    exact dropLeading_append hnext 1 (by simp [staticWord])
  rw [hsplit, declaredPath_append hbefore hback hnot, htrim, hdrop, ← hpath]
  exact squeeze_trim_dropTail
    (semicolon_not_mem (fun c => declaration.path.first.isDelimiter_of_mem) hpath)

/-- In a path that follows the keyword `import` the first name loses each `static` at its start. -/
theorem squeeze_declaredPath_plain {text : Text} (h : Text.isSpaced declaration.tokens text = true)
    (hplain : declaration.isStatic = false) {count : Nat} {stem : Text}
    (hfirst : declaration.path.first.text = (List.replicate count staticWord).flatten ++ stem)
    (hstem : ¬staticWord <+: stem) :
    (declaredPath text).squeeze = stem ++ declaration.laterTokens.flatten := by
  obtain ⟨before, rest, rfl, hbefore, himport, hrest⟩ := Text.exists_of_isSpaced_cons h
  rw [hplain, if_neg Bool.false_ne_true, List.nil_append] at hrest
  obtain ⟨gap, body, back, rfl, hgap, hback, hhead, hbody⟩ := exists_of_isSpaced_path hrest
  have hmem : ∀ c ∈ stem, c ∈ declaration.path.first.text := by
    intro c hc
    rw [hfirst]
    exact List.mem_append_right _ hc
  have hpath : (stem ++ body).squeeze = stem ++ declaration.laterTokens.flatten := by
    rw [Text.squeeze_append, hbody,
      Text.squeeze_eq_self fun c hc => declaration.path.first.isBlank_of_mem (hmem c hc)]
  have hsplit : before ++ "import".toList ++
      (gap ++ (declaration.path.first.text ++ body ++ [';']) ++ back) =
      before ++ ("import".toList ++ (gap ++ (declaration.path.first.text ++ body) ++ [';'])) ++
        back := by
    simp
  have hnot : ¬"import".toList <+: gap ++ (declaration.path.first.text ++ body) ++ [';'] :=
    not_prefix_of_endsBefore (by decide) (by decide) himport ⟨back, by simp⟩
  have htrim : Text.trim (gap ++ (declaration.path.first.text ++ body) ++ [';']) =
      declaration.path.first.text ++ (body ++ [';']) := by
    obtain ⟨c, name, hname⟩ := List.exists_cons_of_ne_nil declaration.path.first.ne_nil
    have hc : Text.isBlank c = false := declaration.path.first.isBlank_of_mem (by simp [hname])
    have hend : Text.allBlank [] = true := rfl
    simpa [hname] using trim_append hgap hend hc (name ++ body)
  have hnext : ¬staticWord <+: stem ++ (body ++ [';']) := by
    intro hprefix
    obtain ⟨c, rest, hrest⟩ := List.exists_cons_of_ne_nil (List.append_ne_nil_of_right_ne_nil body
      (List.cons_ne_nil ';' []))
    rw [hrest] at hhead hprefix
    have hc : c ∉ staticWord := by
      have hplain : staticWord.any Text.isDelimiter = false := by decide
      exact fun hc => List.any_eq_false.mp hplain c hc (hhead c rfl)
    exact hstem (Text.prefix_of_prefix_append_cons stem hc hprefix)
  have hdrop : dropLeading staticWord (declaration.path.first.text ++ (body ++ [';'])).length
      (declaration.path.first.text ++ (body ++ [';'])) = stem ++ body ++ [';'] := by
    have hcount : count ≤ (declaration.path.first.text ++ (body ++ [';'])).length := by
      simp [hfirst, staticWord]
      omega
    rw [hfirst, List.append_assoc] at hcount ⊢
    rw [dropLeading_append hnext count hcount, List.append_assoc]
  rw [hsplit, declaredPath_append hbefore hback hnot, htrim, hdrop, ← hpath]
  exact squeeze_trim_dropTail
    (semicolon_not_mem (fun c hc => declaration.path.first.isDelimiter_of_mem (hmem c hc)) hpath)

/-! ## Imports -/

theorem exists_reads (declaration : ImportDeclaration) :
    ∃ segments, declaration.Reads segments := by
  obtain ⟨count, stem, hfirst, hstem⟩ :=
    exists_replicate_append (by decide : staticWord ≠ []) declaration.path.first.text
  by_cases hstatic : declaration.isStatic = true
  · exact ⟨declaration.path.segments, by rw [Reads, if_pos hstatic]⟩
  · exact ⟨stem :: declaration.path.rest.map (·.text), by
      rw [Reads, if_neg hstatic]
      exact ⟨count, stem, hfirst, hstem, rfl⟩⟩

theorem imported_eq (declaration : ImportDeclaration) (line : Nat) :
    declaration.imported line =
      pathImport ['.'] declaration.path.segments declaration.star line := by
  cases hstar : declaration.star with
  | true => simp [imported, pathImport, hstar]
  | false => simp [imported, pathImport_segments, hstar]

/-- Segments that are read are parts of names. -/
theorem Reads.isDelimiter_of_mem {segments : List Text} (h : declaration.Reads segments)
    {segment : Text} (hs : segment ∈ segments) {c : Char} (hc : c ∈ segment) :
    Text.isDelimiter c = false := by
  rw [Reads] at h
  split at h
  · rw [h] at hs
    exact declaration.path.isDelimiter_of_mem hs hc
  · obtain ⟨count, stem, hfirst, -, rfl⟩ := h
    rcases List.mem_cons.mp hs with rfl | hs
    · refine declaration.path.first.isDelimiter_of_mem ?_
      rw [hfirst]
      exact List.mem_append_right _ hc
    · exact declaration.path.isDelimiter_of_mem (List.mem_cons_of_mem _ hs) hc

section Import

variable {source : Bytes} {node : Node}

theorem importsOf_eq (hkind : node.kind = "import_declaration")
    (h : Text.isSpaced declaration.tokens (node.text source) = true) {segments : List Text}
    (hreads : declaration.Reads segments) : importsOf .java source node =
      [pathImport ['.'] segments declaration.star node.line] := by
  have hpath : (declaredPath (node.text source)).squeeze =
      Text.join ['.'] segments ++ if declaration.star then ['.', '*'] else [] := by
    have hparts := hreads
    rw [Reads] at hparts
    split at hparts
    · rename_i hstatic
      rw [squeeze_declaredPath_static h hstatic, append_flatten_laterTokens, hparts]
      rfl
    · rename_i hstatic
      obtain ⟨count, stem, hfirst, hstem, rfl⟩ := hparts
      rw [squeeze_declaredPath_plain h (by simpa using hstatic) hfirst hstem,
        append_flatten_laterTokens]
  have hplain : ∀ {c : Char}, Text.isDelimiter c = true → ∀ segment ∈ segments, c ∉ segment := by
    intro c hc segment hs hm
    rw [hreads.isDelimiter_of_mem hs hm] at hc
    cases hc
  rw [importsOf, if_pos (by simp [hkind])]
  cases hstar : declaration.star with
  | true =>
      rw [hstar, if_pos rfl] at hpath
      rw [splitPath_star hpath]
  | false =>
      rw [hstar, if_neg Bool.false_ne_true, List.append_nil] at hpath
      rw [← List.nil_append ['.'], splitPath_join (c := '.') ?_ (by decide) hpath]
      exact fun segment hs => ⟨hplain (by decide) segment hs, hplain (by decide) segment hs,
        hplain (by decide) segment hs⟩

/-- A declaration is one import, of the names that are read. These are the declared ones, unless the
first name starts with `static` and no keyword stands in front of it. -/
theorem importsOf_declaration (hkind : node.kind = "import_declaration")
    (h : Text.isSpaced declaration.tokens (node.text source) = true) :
    (∃ segments, declaration.Reads segments ∧ importsOf .java source node =
        [pathImport ['.'] segments declaration.star node.line]) ∧
      (importsOf .java source node = [declaration.imported node.line] ↔
        (declaration.isStatic = true ∨ ¬staticWord <+: declaration.path.first.text)) := by
  obtain ⟨segments, hreads⟩ := declaration.exists_reads
  have himport := importsOf_eq hkind h hreads
  refine ⟨⟨segments, hreads, himport⟩, ?_⟩
  rw [himport, declaration.imported_eq]
  rw [Reads] at hreads
  split at hreads
  · rename_i hstatic
    simp [hreads, hstatic]
  · rename_i hstatic
    obtain ⟨count, stem, hfirst, hstem, rfl⟩ := hreads
    rw [or_iff_right hstatic]
    cases count with
    | zero =>
        have heq : declaration.path.first.text = stem := hfirst
        simp [NamePath.segments, heq, hstem]
    | succ count =>
        have hprefix : staticWord <+: declaration.path.first.text := by
          rw [hfirst, List.replicate_succ, List.flatten_cons, List.append_assoc]
          exact List.prefix_append _ _
        refine iff_of_false ?_ (not_not_intro hprefix)
        intro heq
        have hsource : Text.join ['.'] (stem :: declaration.path.rest.map (·.text)) =
            Text.join ['.'] declaration.path.segments :=
          String.ofList_injective (congrArg ImportDecl.source (List.singleton_inj.mp heq))
        rw [NamePath.segments, ← flatten_names, ← flatten_names, List.flatten_cons,
          List.flatten_cons, List.append_cancel_right_eq] at hsource
        exact hstem (hsource ▸ hprefix)

end Import

/-- All names of `staticfiles.util`, with the keyword in front of it. -/
def starred : ImportDeclaration :=
  ⟨true, ⟨⟨"staticfiles".toList, by decide, by decide⟩, [⟨"util".toList, by decide, by decide⟩]⟩,
    true⟩

def starredSource : Bytes := Utf8.encode "import\tstatic staticfiles\n . util. * ;".toList

def starredNode : Node :=
  .mk "import_declaration" true none .normal ⟨0, starredSource.length, 4, 0, 5⟩ []

theorem starredNode_imported : starredNode.kind = "import_declaration" ∧
    Text.isSpaced starred.tokens (starredNode.text starredSource) = true ∧
    importsOf .java starredSource starredNode = [⟨"staticfiles.util", .wildcard, [], 5⟩] := by
  have hkind : starredNode.kind = "import_declaration" := rfl
  have hspaced : Text.isSpaced starred.tokens (starredNode.text starredSource) = true := by
    decide +kernel
  exact ⟨hkind, hspaced, (importsOf_declaration hkind hspaced).2.mpr (.inl rfl)⟩

/-- A name that starts with the letters of the keyword. -/
def shortened : ImportDeclaration :=
  ⟨false, ⟨⟨"staticfiles".toList, by decide, by decide⟩, [⟨"X".toList, by decide, by decide⟩]⟩,
    false⟩

def shortenedSource : Bytes := Utf8.encode "import staticfiles.X;".toList

def shortenedNode : Node :=
  .mk "import_declaration" true none .normal ⟨0, shortenedSource.length, 0, 0, 0⟩ []

theorem shortenedNode_ne_imported :
    Text.isSpaced shortened.tokens (shortenedNode.text shortenedSource) = true ∧
      shortened.imported 1 = ⟨"staticfiles.X", .named, ["X"], 1⟩ ∧
      importsOf .java shortenedSource shortenedNode = [⟨"files.X", .named, ["X"], 1⟩] := by
  decide +kernel

end ImportDeclaration

end CodeAtlas.Tree
