import CodeAtlas.Proofs.Text.Pieces
import Mathlib.Data.List.Chain

/-! Sections that are joined and read off again. A section holds no two newlines in a row and, unless
it is the last one, does not end in a newline; pieces of that kind are the sections of the text that
they make up. -/

namespace CodeAtlas.Text

/-! ## Sections of a text -/

/-- No newline follows another one. -/
def Gapless (text : Text) : Prop :=
  text.IsChain fun c d => c = '\n' → d ≠ '\n'

theorem gapless_cons {c : Char} {text : Text} :
    Gapless (c :: text) ↔ (c = '\n' → text.head? ≠ some '\n') ∧ Gapless text := by
  rw [Gapless, List.isChain_cons]
  refine and_congr_left fun _ => ⟨fun h hc heq => h '\n' heq hc rfl, fun h d hd hc => ?_⟩
  rintro rfl
  exact h hc hd

theorem gapless_reverse {text : Text} : Gapless text.reverse ↔ Gapless text := by
  have hflip : ∀ c d : Char, (d = '\n' → c ≠ '\n') ↔ (c = '\n' → d ≠ '\n') :=
    fun c d => ⟨fun h hc hd => h hd hc, fun h hd hc => h hc hd⟩
  rw [Gapless, Gapless, List.isChain_reverse]
  simp only [hflip]

/-- Pieces that can be told apart when they are joined with a gap between neighbours. -/
structure Sectioned (pieces : List Text) : Prop where
  gapless : ∀ piece ∈ pieces, Gapless piece
  closed : pieces.Pairwise fun piece _ => piece.getLast? ≠ some '\n'

theorem Sectioned.sublist {kept pieces : List Text} (h : Sectioned pieces)
    (hkept : kept.Sublist pieces) : Sectioned kept :=
  ⟨fun piece hm => h.gapless piece (hkept.subset hm), h.closed.sublist hkept⟩

/-- Sections that were read make up pieces that can be told apart: at a newline behind another one
the section would have ended. -/
theorem sectioned_sectionsFrom {text current : Text} {done : List Text}
    (hdone : ∀ piece ∈ done, Gapless piece ∧ piece.getLast? ≠ some '\n')
    (hcurrent : Gapless current) (hnext : current.head? = some '\n' → text.head? ≠ some '\n') :
    Sectioned (sectionsFrom text current done) := by
  fun_induction sectionsFrom text current done with
  | case1 current done =>
      rw [List.reverse_cons]
      constructor
      · intro piece hm
        rcases List.mem_append.mp hm with hm | hm
        · exact (hdone piece (List.mem_reverse.mp hm)).1
        · rw [List.mem_singleton.mp hm]
          exact gapless_reverse.mpr hcurrent
      · refine List.pairwise_append.mpr ⟨?_, by simp, fun piece hm _ _ => ?_⟩
        · exact List.pairwise_of_forall_mem_list fun piece hm _ _ =>
            (hdone piece (List.mem_reverse.mp hm)).2
        · exact (hdone piece (List.mem_reverse.mp hm)).2
  | case2 rest current done ih =>
      refine ih (List.forall_mem_cons.mpr ⟨⟨gapless_reverse.mpr hcurrent, ?_⟩, hdone⟩)
        List.isChain_nil (fun h => by cases h)
      rw [List.getLast?_reverse]
      exact fun hhead => hnext hhead rfl
  | case3 c rest current done hgap ih =>
      refine ih hdone (gapless_cons.mpr ⟨fun hc hhead => hnext hhead (by rw [hc]; rfl), hcurrent⟩) ?_
      intro hc hrest
      obtain ⟨rest, rfl⟩ := List.head?_eq_some_iff.mp hrest
      exact hgap rest (Option.some.inj hc) rfl

theorem sectioned_sections (text : Text) : Sectioned (sections text) :=
  sectioned_sectionsFrom (by simp) List.isChain_nil (fun h => by cases h)

/-! ## Joined sections -/

/-- The section being read goes on to the gap. -/
theorem sectionsFrom_append_gap {piece : Text} (hgapless : Gapless piece)
    (hclosed : piece.getLast? ≠ some '\n') (rest current : Text) (done : List Text) :
    sectionsFrom (piece ++ '\n' :: '\n' :: rest) current done =
      sectionsFrom rest [] ((current.reverse ++ piece) :: done) := by
  induction piece generalizing current with
  | nil => simp [sectionsFrom]
  | cons c piece ih =>
      obtain ⟨hhead, hpiece⟩ := gapless_cons.mp hgapless
      have hgap : ∀ back, c = '\n' → piece ++ '\n' :: '\n' :: rest = '\n' :: back → False := by
        intro back hc hback
        cases piece with
        | nil => simp [hc] at hclosed
        | cons d piece =>
            rw [List.cons_append, List.cons.injEq] at hback
            exact hhead hc (by rw [hback.1]; rfl)
      have hlast : piece.getLast? ≠ some '\n' := fun h => hclosed (by rw [List.getLast?_cons, h]; rfl)
      rw [List.cons_append, sectionsFrom.eq_3 _ _ _ _ hgap, ih hpiece hlast]
      simp

/-- The last section goes on to the end of the text. -/
theorem sectionsFrom_of_gapless {piece : Text} (hgapless : Gapless piece) (current : Text)
    (done : List Text) :
    sectionsFrom piece current done = done.reverse ++ [current.reverse ++ piece] := by
  induction piece generalizing current with
  | nil => simp [sectionsFrom]
  | cons c piece ih =>
      obtain ⟨hhead, hpiece⟩ := gapless_cons.mp hgapless
      have hgap : ∀ back, c = '\n' → piece = '\n' :: back → False := by
        rintro back hc rfl
        exact hhead hc rfl
      rw [sectionsFrom.eq_3 _ _ _ _ hgap, ih hpiece]
      simp

theorem sectionsFrom_join {pieces : List Text} (hne : pieces ≠ []) (h : Sectioned pieces)
    (done : List Text) :
    sectionsFrom (join ['\n', '\n'] pieces) [] done = done.reverse ++ pieces := by
  induction pieces generalizing done with
  | nil => exact absurd rfl hne
  | cons piece pieces ih =>
      have hpiece := h.gapless piece List.mem_cons_self
      cases pieces with
      | nil => simpa [join] using sectionsFrom_of_gapless hpiece [] done
      | cons next pieces =>
          have hclosed := List.rel_of_pairwise_cons h.closed List.mem_cons_self
          have hjoin : join ['\n', '\n'] (piece :: next :: pieces) =
              piece ++ '\n' :: '\n' :: join ['\n', '\n'] (next :: pieces) := by
            simp [join, List.intercalate_cons_cons]
          rw [hjoin, sectionsFrom_append_gap hpiece hclosed, ih (List.cons_ne_nil _ _)
            (h.sublist (List.sublist_cons_self _ _))]
          simp

/-- Joined pieces that can be told apart are the sections of the text. -/
theorem sections_join {pieces : List Text} (hne : pieces ≠ []) (h : Sectioned pieces) :
    sections (join ['\n', '\n'] pieces) = pieces :=
  sectionsFrom_join hne h []

/-! ## Counting -/

/-- A text of joined pieces holds a character as often as the pieces do, if it does not separate
them. -/
theorem count_join {separator : Text} {c : Char} (hc : c ∉ separator) (pieces : List Text) :
    (join separator pieces).count c = (pieces.map (·.count c)).sum := by
  rcases List.eq_nil_or_concat' pieces with rfl | ⟨front, last, rfl⟩
  · rfl
  · have hfront : (front.flatMap (· ++ separator)).count c = (front.map (·.count c)).sum := by
      simp [List.count_flatMap, Function.comp_def, List.count_eq_zero_of_not_mem hc]
    rw [join_concat, List.count_append, hfront, List.map_append, List.sum_append]
    simp

end CodeAtlas.Text
