import CodeAtlas.Proofs.Graph.Build

/-! Links that are drawn one after the other: of those with the same key the graph gets the first. -/

namespace CodeAtlas.Graph.Drawing

variable {κ ι : Type} [DecidableEq κ] {base : DependencyGraph} {drawing : Drawing κ}
  {offers : List (κ × Link)}

/-- The first of the links on offer with a key. -/
def firstOffer? (offers : List (κ × Link)) (key : κ) : Option Link :=
  (offers.find? (·.1 = key)).map (·.2)

theorem firstOffer?_eq_none_iff {key : κ} :
    firstOffer? offers key = none ↔ key ∉ offers.map (·.1) := by
  simp only [firstOffer?, Option.map_eq_none_iff, List.find?_eq_none, decide_eq_true_eq,
    List.mem_map, not_exists, not_and]

theorem mem_of_firstOffer? {key : κ} {link : Link} (h : firstOffer? offers key = some link) :
    (key, link) ∈ offers := by
  obtain ⟨offer, hfind, rfl⟩ := Option.map_eq_some_iff.mp h
  have hkey : offer.1 = key := by simpa using List.find?_some hfind
  rw [← hkey]
  exact List.mem_of_find?_eq_some hfind

/-- Where each key has one link the first one is the only one. -/
theorem firstOffer?_eq_some_iff {key : κ} {link : Link}
    (h : ∀ other, (key, other) ∈ offers → other = link) :
    firstOffer? offers key = some link ↔ (key, link) ∈ offers := by
  refine ⟨mem_of_firstOffer?, fun hm => ?_⟩
  cases hfirst : firstOffer? offers key with
  | none => exact absurd (List.mem_map_of_mem hm) (firstOffer?_eq_none_iff.mp hfirst)
  | some other => rw [h other (mem_of_firstOffer? hfirst)]

theorem firstOffer?_concat (key : κ) (link : Link) (other : κ) :
    firstOffer? (offers ++ [(key, link)]) other =
      (firstOffer? offers other).or (if key = other then some link else none) := by
  rw [firstOffer?, List.find?_append, Option.map_or, List.find?_singleton]
  by_cases h : key = other <;> simp [firstOffer?, h]

/-- An offer with a key that was met before changes nothing. -/
theorem firstOffer?_concat_of_mem {key : κ} (h : key ∈ offers.map (·.1)) (link : Link) (other : κ) :
    firstOffer? (offers ++ [(key, link)]) other = firstOffer? offers other := by
  rw [firstOffer?_concat]
  by_cases hkey : key = other
  · obtain ⟨first, hfirst⟩ :=
      Option.ne_none_iff_exists'.mp fun hnone => firstOffer?_eq_none_iff.mp hnone h
    rw [← hkey, hfirst, Option.some_or]
  · rw [if_neg hkey, Option.or_none]

/-- An offer with a key of its own is one more first offer. -/
theorem exists_firstOffer?_concat {key : κ} (h : key ∉ offers.map (·.1)) {link other : Link} :
    (∃ k, firstOffer? (offers ++ [(key, link)]) k = some other) ↔
      (∃ k, firstOffer? offers k = some other) ∨ other = link := by
  simp only [firstOffer?_concat, Option.or_eq_some_iff, exists_or]
  refine or_congr_right ⟨?_, ?_⟩
  · rintro ⟨k, -, hk⟩
    split at hk
    · exact (Option.some.inj hk).symm
    · cases hk
  · rintro rfl
    exact ⟨key, firstOffer?_eq_none_iff.mpr h, if_pos rfl⟩

/-- Of the links on offer the graph got the first one for each key. -/
structure Draws (offers : List (κ × Link)) (base : DependencyGraph) (drawing : Drawing κ) :
    Prop where
  mem_seen_iff : ∀ key, key ∈ drawing.seen ↔ key ∈ offers.map (·.1)
  mem_links_iff : ∀ link, link ∈ drawing.graph.links ↔
    link ∈ base.links ∨ ∃ key, firstOffer? offers key = some link

theorem draws_start : (start (κ := κ) base).Draws [] base :=
  ⟨by simp [start], by simp [start, firstOffer?]⟩

theorem Draws.note (h : drawing.Draws offers base) (ambiguous : Option AmbiguousImport) :
    (drawing.note ambiguous).Draws offers base :=
  ⟨h.mem_seen_iff, h.mem_links_iff⟩

/-- The step lemma: a link that is joined was offered last. -/
theorem Draws.join (h : drawing.Draws offers base) (key : κ) (link : Link) :
    (drawing.join key link).Draws (offers ++ [(key, link)]) base := by
  unfold Drawing.join
  by_cases hseen : key ∈ drawing.seen
  · rw [if_pos hseen]
    have hm := (h.mem_seen_iff key).mp hseen
    constructor
    · intro other
      rw [h.mem_seen_iff, List.map_append, List.mem_append]
      refine ⟨.inl, fun hor => hor.elim id fun hlast => ?_⟩
      rwa [List.mem_singleton.mp hlast]
    · intro other
      simp only [h.mem_links_iff, firstOffer?_concat_of_mem hm]
  · rw [if_neg hseen]
    have hfresh := mt (h.mem_seen_iff key).mpr hseen
    constructor
    · intro other
      rw [List.mem_cons, h.mem_seen_iff, List.map_append, List.mem_append, or_comm]
      simp
    · intro other
      rw [DependencyGraph.addLink_links, List.mem_append, h.mem_links_iff,
        exists_firstOffer?_concat hfresh, or_assoc, List.mem_singleton]

/-- The run lemma: what each step offers is offered in order. -/
theorem Draws.foldl {step : Drawing κ → ι → Drawing κ} {offersOf : ι → List (κ × Link)}
    (hstep : ∀ offers drawing item, drawing.Draws offers base →
      (step drawing item).Draws (offers ++ offersOf item) base)
    (h : drawing.Draws offers base) (items : List ι) :
    (items.foldl step drawing).Draws (offers ++ items.flatMap offersOf) base := by
  induction items generalizing drawing offers with
  | nil => simpa using h
  | cons item items ih =>
      rw [List.foldl_cons, List.flatMap_cons, ← List.append_assoc]
      exact ih (hstep offers drawing item h)

/-! ## Records -/

theorem ambiguousImports_join (drawing : Drawing κ) (key : κ) (link : Link) :
    (drawing.join key link).graph.ambiguousImports = drawing.graph.ambiguousImports := by
  unfold Drawing.join
  split
  · rfl
  · rfl

omit [DecidableEq κ] in
/-- What each step records is recorded in order. -/
theorem ambiguousImports_foldl {step : Drawing κ → ι → Drawing κ}
    {recordsOf : ι → List AmbiguousImport}
    (hstep : ∀ drawing item, (step drawing item).graph.ambiguousImports =
      drawing.graph.ambiguousImports ++ recordsOf item) (drawing : Drawing κ) (items : List ι) :
    (items.foldl step drawing).graph.ambiguousImports =
      drawing.graph.ambiguousImports ++ items.flatMap recordsOf := by
  induction items generalizing drawing with
  | nil => simp
  | cons item items ih =>
      rw [List.foldl_cons, ih, hstep, List.flatMap_cons, List.append_assoc]

end CodeAtlas.Graph.Drawing
