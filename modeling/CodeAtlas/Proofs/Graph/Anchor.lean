import CodeAtlas.Proofs.Graph.Resolver

/-! The piece of a path that an import stands for. The anchors are taken off in rounds, each of
which tries all of them one after the other, until a round takes nothing off. Whatever the source
is, this comes to an end, and what is left neither starts with an anchor nor ends with a slash. It
stands in the source as it is after its separators are rewritten. -/

namespace CodeAtlas.Graph

/-! ## Rounds -/

/-- A path without one anchor, if it starts with that. -/
def takeOff (path : Text) (anchor : String) : Text :=
  (Text.after? path anchor.toList).getD path

/-- One round over anchors: each of them in turn is taken off. -/
def anchorRound (path : Text) : Text :=
  anchors.foldl takeOff path

theorem anchor_ne_nil {anchor : String} (h : anchor ∈ anchors) : anchor.toList ≠ [] := by
  obtain ⟨word, hword, -⟩ := anchors_closed anchor h
  rw [hword]
  exact List.append_ne_nil_of_right_ne_nil word (List.cons_ne_nil _ _)

theorem afterAnchor?_eq_none_iff {path : Text} :
    afterAnchor? path = none ↔ ∀ anchor ∈ anchors, ¬anchor.toList <+: path := by
  rw [afterAnchor?, List.findSome?_eq_none_iff]
  refine forall₂_congr fun anchor _ => ?_
  rw [Text.after?, Text.startsWith, ← List.isPrefixOf_iff_prefix]
  split <;> simp_all

/-- No anchor starts another one, so it does not matter which is tried first. -/
theorem afterAnchor?_append {anchor : String} (h : anchor ∈ anchors) (rest : Text) :
    afterAnchor? (anchor.toList ++ rest) = some rest := by
  simp only [anchors, List.mem_cons, List.not_mem_nil, or_false] at h
  rcases h with rfl | rfl | rfl | rfl | rfl | rfl | rfl | rfl <;> rfl

/-- An anchor is taken off, or nothing is. -/
theorem takeOff_cases (path : Text) (anchor : String) :
    path = anchor.toList ++ takeOff path anchor ∨
      ¬anchor.toList <+: path ∧ takeOff path anchor = path := by
  unfold takeOff
  cases h : Text.after? path anchor.toList with
  | some rest => exact .inl (Text.after?_eq_some_iff.mp h)
  | none =>
      refine .inr ⟨?_, rfl⟩
      rintro ⟨rest, hrest⟩
      rw [Text.after?_eq_some_iff.mpr hrest.symm] at h
      cases h

theorem takeOff_isSuffix (path : Text) (anchor : String) : takeOff path anchor <:+ path := by
  rcases takeOff_cases path anchor with h | ⟨-, h⟩
  · exact ⟨anchor.toList, h.symm⟩
  · rw [h]

theorem foldl_takeOff_isSuffix (path : Text) (tried : List String) :
    tried.foldl takeOff path <:+ path := by
  induction tried generalizing path with
  | nil => exact List.suffix_refl path
  | cons anchor tried ih => exact (ih _).trans (takeOff_isSuffix path anchor)

theorem withoutAnchors_takeOff {path : Text} {anchor : String} (h : anchor ∈ anchors) :
    withoutAnchors (takeOff path anchor) = withoutAnchors path := by
  rcases takeOff_cases path anchor with hpath | ⟨-, hsame⟩
  · rw [withoutAnchors_eq path, hpath, afterAnchor?_append h, ← hpath]
  · rw [hsame]

theorem withoutAnchors_foldl_takeOff {tried : List String} (h : tried ⊆ anchors) (path : Text) :
    withoutAnchors (tried.foldl takeOff path) = withoutAnchors path := by
  induction tried generalizing path with
  | nil => rfl
  | cons anchor tried ih =>
      obtain ⟨hfirst, hrest⟩ := List.cons_subset.mp h
      rw [List.foldl_cons, ih hrest, withoutAnchors_takeOff hfirst]

/-- A round changes a path unless it starts with no anchor. -/
theorem foldl_takeOff_eq_self_iff {tried : List String} (h : tried ⊆ anchors) {path : Text} :
    tried.foldl takeOff path = path ↔ ∀ anchor ∈ tried, ¬anchor.toList <+: path := by
  induction tried generalizing path with
  | nil => simp
  | cons anchor tried ih =>
      obtain ⟨hfirst, hrest⟩ := List.cons_subset.mp h
      rw [List.foldl_cons, List.forall_mem_cons]
      rcases takeOff_cases path anchor with hpath | ⟨hno, hsame⟩
      · -- what is shorter by an anchor does not grow again
        refine iff_of_false (fun heq => ?_) (fun hall => hall.1 ⟨_, hpath.symm⟩)
        have hle := (foldl_takeOff_isSuffix (takeOff path anchor) tried).length_le
        have hpos := List.length_pos_iff.mpr (anchor_ne_nil hfirst)
        have hlength := congrArg List.length hpath
        rw [heq] at hle
        rw [List.length_append] at hlength
        omega
      · rw [hsame, ih hrest]
        exact (and_iff_right hno).symm

theorem anchorRound_eq_self_iff {path : Text} :
    anchorRound path = path ↔ afterAnchor? path = none := by
  rw [afterAnchor?_eq_none_iff]
  exact foldl_takeOff_eq_self_iff (List.Subset.refl anchors)

theorem withoutAnchors_anchorRound (path : Text) :
    withoutAnchors (anchorRound path) = withoutAnchors path :=
  withoutAnchors_foldl_takeOff (List.Subset.refl anchors) path

theorem withoutAnchors_eq_self {path : Text} (h : afterAnchor? path = none) :
    withoutAnchors path = path := by
  rw [withoutAnchors_eq, h]

/-- Nothing is left to be taken off. -/
theorem afterAnchor?_withoutAnchors (path : Text) : afterAnchor? (withoutAnchors path) = none := by
  fun_induction withoutAnchors path with
  | case1 path rest h ih => exact ih
  | case2 path h => exact h

/-- Rounds come to an end: each one takes something off until all anchors are gone. -/
theorem exists_rounds (path : Text) : ∃ rounds ≤ path.length,
    anchorRound^[rounds] path = withoutAnchors path ∧
      ∀ k < rounds, anchorRound^[k + 1] path ≠ anchorRound^[k] path := by
  induction hlength : path.length using Nat.strong_induction_on generalizing path with
  | _ n ih =>
      by_cases hround : anchorRound path = path
      · have hsame := withoutAnchors_eq_self (anchorRound_eq_self_iff.mp hround)
        exact ⟨0, Nat.zero_le _, hsame.symm, fun k hk => absurd hk (Nat.not_lt_zero k)⟩
      · have hsuffix : anchorRound path <:+ path := foldl_takeOff_isSuffix path anchors
        have hlt : (anchorRound path).length < n := by
          rw [← hlength]
          exact Nat.lt_of_le_of_ne hsuffix.length_le fun heq => hround (hsuffix.eq_of_length heq)
        obtain ⟨rounds, hle, hlast, hchange⟩ := ih _ hlt (anchorRound path) rfl
        refine ⟨rounds + 1, by omega, ?_, fun k hk => ?_⟩
        · rw [Function.iterate_succ_apply, hlast, withoutAnchors_anchorRound]
        · cases k with
          | zero => exact hround
          | succ k => exact hchange k (by omega)

/-! ## Separators -/

theorem length_slashForColons_le (source : Text) :
    (slashForColons source).length ≤ source.length := by
  fun_induction slashForColons source with
  | case1 => exact Nat.le_refl 0
  | case2 rest ih =>
      simp only [List.length_cons]
      omega
  | case3 c rest _ ih => exact Nat.succ_le_succ ih

theorem length_slashed_le (source : Text) : (slashed source).length ≤ source.length := by
  unfold slashed
  split
  · exact length_slashForColons_le source
  · split
    · exact Nat.le_refl _
    · rw [List.length_map]
      exact (List.dropWhile_suffix _).length_le

theorem slashForColons_append_of_not_mem {back : Text} (h : ':' ∉ back) (front : Text) :
    slashForColons (front ++ back) = slashForColons front ++ back := by
  have hback : slashForColons back = back := by
    simpa [slashForColons] using slashForColons_append h []
  fun_induction slashForColons front with
  | case1 => exact hback
  | case2 rest ih => exact congrArg ('/' :: ·) ih
  | case3 c rest hpair ih =>
      rw [List.cons_append, slashForColons, ih, List.cons_append]
      rintro later rfl hlater
      cases rest with
      | nil =>
          rw [List.nil_append] at hlater
          exact h (hlater ▸ List.mem_cons_self)
      | cons d rest =>
          obtain ⟨rfl, -⟩ := List.cons.inj hlater
          exact hpair rest rfl rfl

theorem infix_colons_append_iff {front stem back : Text} (hfront : ':' ∉ front)
    (hback : ':' ∉ back) : [':', ':'] <:+: front ++ stem ++ back ↔ [':', ':'] <:+: stem := by
  refine ⟨fun h => ?_, fun h => h.trans ⟨front, back, rfl⟩⟩
  rw [List.append_assoc] at h
  have hleft : [':', ':'] <:+: stem ++ back := Text.infix_of_infix_append (by simp) (by simpa) h
  rw [← List.reverse_infix, List.reverse_append] at hleft
  rw [← List.reverse_infix]
  exact Text.infix_of_infix_append (by simp) (by simpa) hleft

/-- What stands around a source and holds no separator changes nothing about the rewriting of its
separators. -/
theorem slashed_isInfix {front stem back : Text} (hfront : ∀ c ∈ [':', '/', '.'], c ∉ front)
    (hback : ∀ c ∈ [':', '/'], c ∉ back) : slashed stem <:+: slashed (front ++ stem ++ back) := by
  simp only [List.mem_cons, List.not_mem_nil, or_false, forall_eq_or_imp, forall_eq] at hfront hback
  obtain ⟨hcolon, hslash, hdot⟩ := hfront
  obtain ⟨hcolon', hslash'⟩ := hback
  have hcolons : Text.contains (front ++ stem ++ back) [':', ':'] =
      Text.contains stem [':', ':'] := by
    rw [Bool.eq_iff_iff, Text.contains_iff_infix, Text.contains_iff_infix]
    exact infix_colons_append_iff hcolon hcolon'
  have hslashes : List.elem '/' (front ++ stem ++ back) = List.elem '/' stem := by
    rw [Bool.eq_iff_iff, List.elem_iff, List.elem_iff]
    simp [hslash, hslash']
  unfold slashed
  rw [hcolons, hslashes]
  split
  · rw [List.append_assoc, slashForColons_append hcolon, slashForColons_append_of_not_mem hcolon',
      ← List.append_assoc]
    exact ⟨front, back, rfl⟩
  · split
    · exact ⟨front, back, rfl⟩
    · -- the dots at the start of the source may stand behind something else
      refine List.IsInfix.map _ (Text.dropWhile_isInfix (fun c hc => ?_) stem back)
      rw [beq_eq_false_iff_ne]
      rintro rfl
      exact hdot hc

/-! ## Sources -/

/-- A blank or a quotation mark. -/
def surrounds (c : Char) : Bool :=
  Text.isBlank c || isQuotationMark c

/-- Around a bare source there are only blanks and quotation marks. -/
theorem exists_eq_bareSource (source : Text) : ∃ front back,
    source = front ++ bareSource source ++ back ∧ (∀ c ∈ front, surrounds c = true) ∧
      ∀ c ∈ back, surrounds c = true := by
  obtain ⟨blank, blank', htrim, hblank, hblank'⟩ :=
    Text.exists_eq_append_dropTail Text.isBlank source
  obtain ⟨mark, mark', hbare, hmark, hmark'⟩ :=
    Text.exists_eq_append_dropTail isQuotationMark source.trim
  refine ⟨blank ++ mark, mark' ++ blank', ?_, fun c hc => ?_, fun c hc => ?_⟩
  · calc source = blank ++ source.trim ++ blank' := htrim
      _ = blank ++ (mark ++ bareSource source ++ mark') ++ blank' := by rw [bareSource, ← hbare]
      _ = blank ++ mark ++ bareSource source ++ (mark' ++ blank') := by
          simp only [List.append_assoc]
  · rw [surrounds, Bool.or_eq_true]
    exact (List.mem_append.mp hc).imp (hblank c) (hmark c)
  · rw [surrounds, Bool.or_eq_true]
    exact (List.mem_append.mp hc).symm.imp (hblank' c) (hmark' c)

/-- Around a bare source without its extension no separators stand, but for the dot of the
extension. -/
theorem exists_eq_stripExtension (source : Text) : ∃ front back,
    source = front ++ stripExtension (bareSource source) ++ back ∧
      (∀ c ∈ [':', '/', '.'], c ∉ front) ∧ ∀ c ∈ [':', '/'], c ∉ back := by
  obtain ⟨front, back, hsource, hfront, hback⟩ := exists_eq_bareSource source
  have hseparator : ∀ c ∈ [':', '/', '.'], surrounds c = false := by
    simp only [List.mem_cons, List.not_mem_nil, or_false, forall_eq_or_imp, forall_eq]
    decide
  have hletters : ∀ c ∈ [':', '/'], c.isAlpha = false := by
    simp only [List.mem_cons, List.not_mem_nil, or_false, forall_eq_or_imp, forall_eq]
    decide
  have houtside : ∀ {text : Text}, (∀ c ∈ text, surrounds c = true) →
      ∀ c ∈ [':', '/', '.'], c ∉ text :=
    fun htext c hc hm => Text.ne_of_kind (htext c hm) (hseparator c hc) rfl
  rcases stripExtension_cases (bareSource source) with hsame | ⟨stem, extension, hne, hext, hbare⟩
  · refine ⟨front, back, by rwa [hsame], houtside hfront, fun c hc => ?_⟩
    exact houtside hback c (List.mem_append_left ['.'] hc)
  · refine ⟨front, '.' :: extension ++ back, ?_, houtside hfront, fun c hc hm => ?_⟩
    · rw [hbare, stripExtension_append hne hext]
      conv_lhs => rw [hsource, hbare]
      simp
    · rcases List.mem_append.mp hm with hm | hm
      · rcases List.mem_cons.mp hm with rfl | hm
        · exact absurd hc (by decide)
        · exact hext.not_mem (hletters c hc) hm
      · exact houtside hback c (List.mem_append_left ['.'] hc) hm

/-! ## Pieces -/

/-- The piece that a source stands for: nothing more can be taken off it, and nothing in it is
made up. -/
structure IsPieceOf (source piece : Text) : Prop where
  unanchored : ∀ anchor ∈ anchors, ¬anchor.toList <+: piece
  unended : ¬['/'] <:+ piece
  found : piece <:+: slashed source

theorem pieceOf_isPieceOf {source stem : Text} (h : slashed stem <:+: slashed source) :
    IsPieceOf source (pieceOf stem) := by
  have hprefix : pieceOf stem <+: withoutAnchors (slashed stem) := Text.dropTail_isPrefix _ _
  refine ⟨fun anchor hm hstart => ?_, Text.not_suffix_dropTail rfl _, ?_⟩
  · exact afterAnchor?_eq_none_iff.mp (afterAnchor?_withoutAnchors _) anchor hm
      (hstart.trans hprefix)
  · exact hprefix.isInfix.trans ((withoutAnchors_isSuffix _).isInfix.trans h)

/-- Whatever the source is, the rounds over its anchors come to an end: no more of them change
anything than the source has characters, and the next one changes nothing. What is then left,
without slashes at its end, is the piece that the source stands for. -/
theorem normalizeImport_isPieceOf (source : Text) :
    IsPieceOf source (normalizeImport source) ∧
      ∃ rounds ≤ source.length,
        let path := slashed (stripExtension (bareSource source))
        normalizeImport source = Text.dropTail (· == '/') (anchorRound^[rounds] path) ∧
          anchorRound^[rounds + 1] path = anchorRound^[rounds] path ∧
          ∀ k < rounds, anchorRound^[k + 1] path ≠ anchorRound^[k] path := by
  obtain ⟨front, back, hsource, hfront, hback⟩ := exists_eq_stripExtension source
  have hslashed : slashed (stripExtension (bareSource source)) <:+: slashed source := by
    conv_rhs => rw [hsource]
    exact slashed_isInfix hfront hback
  obtain ⟨rounds, hle, hlast, hchange⟩ :=
    exists_rounds (slashed (stripExtension (bareSource source)))
  refine ⟨pieceOf_isPieceOf hslashed, rounds, ?_, ?_, ?_, hchange⟩
  · exact hle.trans (hslashed.length_le.trans (length_slashed_le source))
  · rw [hlast]
    rfl
  · rw [Function.iterate_succ_apply', hlast, anchorRound_eq_self_iff]
    exact afterAnchor?_withoutAnchors _

/-- An anchor may show another one, which this round has tried before. -/
example : normalizeImport "'crate/@/../lib.rs'".toList = "lib".toList := by
  decide +kernel

end CodeAtlas.Graph
