import CodeAtlas.Graph.Endpoint
import CodeAtlas.Proofs.Text

/-! Endpoints that overlap. Two endpoints of different lengths overlap in either order or in none.
Of two that are equally long the first one counts as the shorter, so that the order matters where
only one of them is made of parameters alone. A query is passed over, unless a part of it is found
first where the address ends. -/

namespace CodeAtlas.Graph

/-! ## Segments in either order -/

theorem Segment.agrees_comm (a b : Segment) : a.agrees b = b.agrees a := by
  cases a with
  | parameter => cases b <;> rfl
  | literal x =>
      cases b with
      | parameter => rfl
      | literal y => exact Bool.beq_comm

theorem Segment.parameter_agrees (a : Segment) : parameter.agrees a = true := by
  cases a <;> rfl

/-- Segments agree with others place by place. -/
def agreesAll (a b : List Segment) : Bool :=
  (a.zip b).all fun pair => pair.1.agrees pair.2

theorem agreesAll_comm (a b : List Segment) : agreesAll a b = agreesAll b a := by
  induction a generalizing b with
  | nil => cases b <;> rfl
  | cons x a ih =>
      cases b with
      | nil => rfl
      | cons y b =>
          have hrest := ih b
          rw [agreesAll, agreesAll] at hrest
          simp only [agreesAll, List.zip_cons_cons, List.all_cons, hrest, Segment.agrees_comm x y]

/-- Nothing but parameters, which say nothing about an endpoint. -/
def isWild (segments : List Segment) : Bool :=
  segments.all (· == .parameter)

/-- Parameters agree with anything. -/
theorem agreesAll_of_isWild {a : List Segment} (h : isWild a = true) (b : List Segment) :
    agreesAll a b = true := by
  induction a generalizing b with
  | nil => rfl
  | cons x a ih =>
      cases b with
      | nil => rfl
      | cons y b =>
          rw [isWild, List.all_cons, Bool.and_eq_true, beq_iff_eq] at h
          obtain ⟨rfl, hrest⟩ := h
          have hagree := ih hrest b
          rw [agreesAll] at hagree
          simp only [agreesAll, List.zip_cons_cons, List.all_cons, Segment.parameter_agrees, hagree,
            Bool.and_true]

theorem endsLike_of_length_eq {a b : List Segment} (h : a.length = b.length) :
    endsLike a b = (!isWild a && agreesAll a b) := by
  rw [endsLike, h, Nat.sub_self, List.drop_zero, isWild, agreesAll]

/-- Of equally long endpoints only the first one must not be made of parameters alone. -/
theorem endsLike_comm_iff {a b : List Segment} (h : a.length = b.length) :
    endsLike a b = endsLike b a ↔ isWild a = isWild b := by
  rw [endsLike_of_length_eq h, endsLike_of_length_eq h.symm]
  cases ha : isWild a <;> cases hb : isWild b
  · simp [agreesAll_comm a b]
  · simp [agreesAll_comm a b, agreesAll_of_isWild hb]
  · simp [agreesAll_of_isWild ha, agreesAll_comm b a]
  · simp

/-! ## Endpoints in either order -/

theorem overlap_comm_of_length_lt {a b : Text} (h : (segments a).length < (segments b).length) :
    overlap a b = overlap b a := by
  have hb : (segments b).isEmpty = false :=
    List.isEmpty_eq_false_iff.mpr (List.ne_nil_of_length_pos (Nat.zero_lt_of_lt h))
  cases ha : (segments a).isEmpty with
  | true => simp only [overlap, ha, hb, Bool.or_false, Bool.false_or, Bool.and_false,
      Bool.false_and, if_true]
  | false => simp only [overlap, ha, hb, Bool.or_false, Bool.false_eq_true, if_false, h.le,
      Nat.not_le.mpr h, if_true]

theorem overlap_of_nil {a b : Text} (ha : segments a = []) (hb : segments b = []) :
    overlap a b = true ↔ a.trim ≠ [] := by
  simp [overlap, ha, hb]

theorem overlap_of_length_eq {a b : Text} (ha : segments a ≠ []) (hb : segments b ≠ [])
    (h : (segments a).length = (segments b).length) :
    overlap a b = endsLike (segments a) (segments b) := by
  simp [overlap, ha, hb, h.le]

/-- The order of two endpoints matters only if they are equally long: where both have no segments
and one is blank, or where one of them is made of parameters alone. -/
theorem overlap_comm_iff (a b : Text) : overlap a b = overlap b a ↔
    (segments a = [] → segments b = [] → (a.trim = [] ↔ b.trim = [])) ∧
      ((segments a).length = (segments b).length →
        isWild (segments a) = isWild (segments b)) := by
  rcases Nat.lt_trichotomy (segments a).length (segments b).length with hlt | heq | hgt
  · refine iff_of_true (overlap_comm_of_length_lt hlt) ⟨fun ha hb => ?_, fun heq => ?_⟩
    · rw [ha, hb] at hlt
      exact absurd hlt (Nat.lt_irrefl _)
    · exact absurd heq hlt.ne
  · by_cases ha : segments a = []
    · have hb : segments b = [] := by
        rw [ha, List.length_nil] at heq
        exact List.eq_nil_of_length_eq_zero heq.symm
      rw [Bool.eq_iff_iff, overlap_of_nil ha hb, overlap_of_nil hb ha, not_iff_not]
      simp [ha, hb]
    · have hb : segments b ≠ [] := by
        intro hb
        rw [hb, List.length_nil] at heq
        exact ha (List.eq_nil_of_length_eq_zero heq)
      rw [overlap_of_length_eq ha hb heq, overlap_of_length_eq hb ha heq.symm,
        endsLike_comm_iff heq]
      simp [ha, heq]
  · refine iff_of_true (overlap_comm_of_length_lt hgt).symm ⟨fun ha hb => ?_, fun heq => ?_⟩
    · rw [ha, hb] at hgt
      exact absurd hgt (Nat.lt_irrefl _)
    · exact absurd heq hgt.ne'

/-- An endpoint of one parameter overlaps with a name only if the name comes first, and an empty
endpoint with a bare slash only if the slash does. -/
theorem overlap_parameter_ne : overlap "/\x7bid\x7d".toList "/orders".toList = false ∧
    overlap "/orders".toList "/\x7bid\x7d".toList = true ∧
    overlap [] ['/'] = false ∧ overlap ['/'] [] = true := by
  decide +kernel

/-! ## Schemes -/

theorem afterScheme?_cons (c : Char) (text : Text) : afterScheme? (c :: text) =
    if c = ':' ∧ ['/', '/'] <+: text then some (text.drop 2) else afterScheme? text := by
  split
  · rename_i h
    obtain ⟨rfl, rest, rfl⟩ := h
    rfl
  · rename_i h
    rw [afterScheme?]
    rintro rest hc rfl
    exact h ⟨hc, rest, rfl⟩

/-- A scheme ends where its mark stands first, whatever follows. -/
theorem exists_of_afterScheme? {address rest : Text} (h : afterScheme? address = some rest) :
    ∃ scheme, address = scheme ++ ':' :: '/' :: '/' :: rest ∧
      ∀ other, afterScheme? (scheme ++ ':' :: '/' :: '/' :: other) = some other := by
  induction address with
  | nil => cases h
  | cons c address ih =>
      rw [afterScheme?_cons] at h
      split at h
      · rename_i hmark
        obtain ⟨rfl, tail, rfl⟩ := hmark
        obtain rfl := Option.some.inj h
        exact ⟨[], rfl, fun other => rfl⟩
      · rename_i hmark
        obtain ⟨scheme, rfl, hother⟩ := ih h
        refine ⟨c :: scheme, rfl, fun other => ?_⟩
        rw [List.cons_append, afterScheme?_cons, if_neg, hother]
        rintro ⟨hc, hslashes⟩
        have hscheme := Text.prefix_of_prefix_append_cons scheme (by decide) hslashes
        exact hmark ⟨hc, hscheme.trans (List.prefix_append _ _)⟩

theorem afterScheme?_append_of_none {front : Text} (h : afterScheme? front = none) {c : Char}
    (hcolon : c ≠ ':') (hslash : c ≠ '/') (back : Text) :
    afterScheme? (front ++ c :: back) = afterScheme? back := by
  induction front with
  | nil => rw [List.nil_append, afterScheme?_cons, if_neg fun hmark => hcolon hmark.1]
  | cons d front ih =>
      rw [afterScheme?_cons] at h
      split at h
      · cases h
      · rename_i hmark
        rw [List.cons_append, afterScheme?_cons, if_neg, ih h]
        rintro ⟨hd, hslashes⟩
        exact hmark ⟨hd, Text.prefix_of_prefix_append_cons front (by simp [hslash]) hslashes⟩

/-- Without its mark a text has no scheme. -/
theorem afterScheme?_eq_none_iff (text : Text) :
    afterScheme? text = none ↔ ¬[':', '/', '/'] <:+: text := by
  induction text with
  | nil => simp [afterScheme?]
  | cons c text ih =>
      rw [afterScheme?_cons, List.infix_cons_iff, List.cons_prefix_cons, eq_comm (b := c)]
      split
      · rename_i hmark
        simp [hmark]
      · rename_i hmark
        rw [ih, not_or]
        exact (and_iff_right hmark).symm

theorem afterScheme?_trimStart (text : Text) : afterScheme? text.trimStart = afterScheme? text := by
  induction text with
  | nil => rfl
  | cons c text ih =>
      by_cases hc : Text.isBlank c = true
      · have hcolon : c ≠ ':' := by
          rintro rfl
          cases hc
        rw [Text.trimStart, List.dropWhile_cons_of_pos hc, ← Text.trimStart, ih,
          afterScheme?_cons, if_neg fun hmark => hcolon hmark.1]
      · rw [Text.trimStart, List.dropWhile_cons_of_neg hc]

theorem afterScheme?_trimEnd (text : Text) :
    afterScheme? text.trimEnd = (afterScheme? text).map Text.trimEnd := by
  cases h : afterScheme? text with
  | none =>
      rw [afterScheme?_eq_none_iff] at h
      rw [Option.map_none, afterScheme?_eq_none_iff]
      exact fun hm => h (hm.trans (Text.trimEnd_isPrefix text).isInfix)
  | some rest =>
      obtain ⟨scheme, rfl, hother⟩ := exists_of_afterScheme? h
      have hmark : scheme ++ ':' :: '/' :: '/' :: rest = (scheme ++ [':', '/']) ++ '/' :: rest := by
        simp
      rw [hmark, Text.trimEnd_append_cons _ (by decide), Option.map_some, ← hother rest.trimEnd]
      simp

theorem afterScheme?_trim (text : Text) :
    afterScheme? text.trim = (afterScheme? text).map Text.trimEnd := by
  rw [Text.trim, afterScheme?_trimEnd, afterScheme?_trimStart]

/-- What follows an address is behind its host. -/
theorem afterScheme?_append_of_some {address rest : Text} (h : afterScheme? address = some rest)
    (back : Text) : afterScheme? (address ++ back) = some (rest ++ back) := by
  obtain ⟨scheme, rfl, hother⟩ := exists_of_afterScheme? h
  simpa using hother (rest ++ back)

/-! ## Queries -/

/-- The segments of a path, up to a query or fragment. -/
def segmentsOfPath (path : Text) : List Segment :=
  ((Text.splitWhere (· == '/') (path.takeWhile fun c => c != '?' && c != '#')).filter
    fun piece => !piece.isEmpty).map Segment.ofText

theorem segments_eq (endpoint : Text) :
    segments endpoint = segmentsOfPath (pathOfAddress endpoint.trim) := rfl

theorem segmentsOfPath_append_cons (path : Text) {c : Char} (hc : c = '?' ∨ c = '#')
    (query : Text) : segmentsOfPath (path ++ c :: query) = segmentsOfPath path := by
  have htake : (path ++ c :: query).takeWhile (fun c => c != '?' && c != '#') =
      path.takeWhile fun c => c != '?' && c != '#' := by
    induction path with
    | nil => rcases hc with rfl | rfl <;> rfl
    | cons d path ih => rw [List.cons_append, List.takeWhile_cons, List.takeWhile_cons, ih]
  rw [segmentsOfPath, htake, segmentsOfPath]

theorem pathOfAddress_of_some {address rest : Text} (h : afterScheme? address = some rest) :
    pathOfAddress address = rest.dropWhile (· != '/') := by
  rw [pathOfAddress, h]

theorem pathOfAddress_of_none {address : Text} (h : afterScheme? address = none) :
    pathOfAddress address = address := by
  rw [pathOfAddress, h]

/-- Where a host ends at a slash, so does what follows it. -/
theorem dropWhile_slash_append {host : Text} (h : '/' ∈ host) (back : Text) :
    (host ++ back).dropWhile (· != '/') = host.dropWhile (· != '/') ++ back := by
  rw [List.dropWhile_append, if_neg]
  simpa [List.isEmpty_iff, List.dropWhile_eq_nil_iff] using h

theorem dropWhile_slash_eq_nil {text : Text} (h : '/' ∉ text) :
    text.dropWhile (· != '/') = [] :=
  List.dropWhile_eq_nil_iff.mpr fun _ hc => bne_iff_ne.mpr (ne_of_mem_of_not_mem hc h)

theorem dropWhile_slash_of_not_mem {host : Text} (h : '/' ∉ host) (back : Text) :
    (host ++ back).dropWhile (· != '/') = back.dropWhile (· != '/') :=
  List.dropWhile_append_of_pos fun _ hc => bne_iff_ne.mpr (ne_of_mem_of_not_mem hc h)

/-- Something in the query is found where the path is looked for: a scheme, if the endpoint has
none, or a slash, if the endpoint is an address that ends with its host. -/
def Intrudes (query endpoint : Text) : Prop :=
  match afterScheme? endpoint with
  | none => afterScheme? query ≠ none
  | some host => '/' ∉ host ∧ '/' ∈ query

/-- What is read of an endpoint and a query that intrudes: the query alone, or the endpoint with the
query from its first slash on as its path. -/
def intruded (query endpoint : Text) : Text :=
  match afterScheme? endpoint with
  | none => query
  | some _ => endpoint ++ query.dropWhile (· != '/')

theorem intrudes_iff_of_none {endpoint : Text} (h : afterScheme? endpoint = none) (query : Text) :
    Intrudes query endpoint ↔ afterScheme? query ≠ none := by
  rw [Intrudes, h]

theorem intrudes_iff_of_some {endpoint host : Text} (h : afterScheme? endpoint = some host)
    (query : Text) : Intrudes query endpoint ↔ '/' ∉ host ∧ '/' ∈ query := by
  rw [Intrudes, h]

theorem intruded_of_none {endpoint : Text} (h : afterScheme? endpoint = none) (query : Text) :
    intruded query endpoint = query := by
  rw [intruded, h]

/-- The path that a query brings starts at its first slash. -/
theorem intruded_of_some {endpoint host front : Text} (h : afterScheme? endpoint = some host)
    (hfront : '/' ∉ front) (back : Text) :
    intruded (front ++ '/' :: back) endpoint = endpoint ++ '/' :: back := by
  rw [intruded, h, dropWhile_slash_of_not_mem hfront, List.dropWhile_cons_of_neg (by decide)]

section Query

variable {a : Text} (hne : a ≠ []) (htrim : a.trim = a) {c : Char} (hc : c = '?' ∨ c = '#')

include hc in
theorem ne_of_mark : c ≠ ':' ∧ c ≠ '/' := by
  rcases hc with rfl | rfl <;> decide

include hne htrim hc

theorem trim_query (query : Text) : (a ++ c :: query).trim = a ++ c :: query.trimEnd := by
  have hblank : Text.isBlank c = false := by
    rcases hc with rfl | rfl <;> rfl
  exact Text.trim_append_cons hne htrim hblank query

theorem segments_query_of_not_intrudes {query : Text} (h : ¬Intrudes query a) :
    segments (a ++ c :: query) = segments a := by
  obtain ⟨hcolon, hslash⟩ := ne_of_mark hc
  rw [segments_eq, trim_query hne htrim hc, segments_eq, htrim]
  cases hscheme : afterScheme? a with
  | none =>
      rw [intrudes_iff_of_none hscheme, not_not] at h
      have hquery : afterScheme? query.trimEnd = none := by
        rw [afterScheme?_trimEnd, h, Option.map_none]
      have hwhole : afterScheme? (a ++ c :: query.trimEnd) = none := by
        rw [afterScheme?_append_of_none hscheme hcolon hslash, hquery]
      rw [pathOfAddress_of_none hscheme, pathOfAddress_of_none hwhole,
        segmentsOfPath_append_cons a hc]
  | some host =>
      rw [intrudes_iff_of_some hscheme, not_and] at h
      rw [pathOfAddress_of_some hscheme,
        pathOfAddress_of_some (afterScheme?_append_of_some hscheme _)]
      by_cases hhost : '/' ∈ host
      · rw [dropWhile_slash_append hhost, segmentsOfPath_append_cons _ hc]
      · have hquery : '/' ∉ query.trimEnd := fun hm =>
          h hhost ((Text.trimEnd_isPrefix query).subset hm)
        have hall : '/' ∉ host ++ c :: query.trimEnd := by
          simp [hhost, hquery, hslash.symm]
        rw [dropWhile_slash_eq_nil hall, dropWhile_slash_eq_nil hhost]

theorem segments_query_of_intrudes {query : Text} (h : Intrudes query a) :
    segments (a ++ c :: query) = segments (intruded query a) := by
  obtain ⟨hcolon, hslash⟩ := ne_of_mark hc
  rw [segments_eq, trim_query hne htrim hc, segments_eq]
  cases hscheme : afterScheme? a with
  | none =>
      rw [intrudes_iff_of_none hscheme, Option.ne_none_iff_exists'] at h
      obtain ⟨rest, hrest⟩ := h
      have hwhole : afterScheme? (a ++ c :: query.trimEnd) = some rest.trimEnd := by
        rw [afterScheme?_append_of_none hscheme hcolon hslash, afterScheme?_trimEnd, hrest,
          Option.map_some]
      have htrimmed : afterScheme? query.trim = some rest.trimEnd := by
        rw [afterScheme?_trim, hrest, Option.map_some]
      rw [intruded_of_none hscheme, pathOfAddress_of_some hwhole, pathOfAddress_of_some htrimmed]
  | some host =>
      obtain ⟨hhost, hmem⟩ := (intrudes_iff_of_some hscheme query).mp h
      obtain ⟨front, back, rfl, hfront⟩ := List.eq_append_cons_of_mem hmem
      have hquery : '/' ∉ c :: front := by
        simp [hfront, hslash.symm]
      rw [intruded_of_some hscheme hfront, Text.trim_append_cons hne htrim rfl,
        Text.trimEnd_append_cons front rfl,
        pathOfAddress_of_some (afterScheme?_append_of_some hscheme _),
        pathOfAddress_of_some (afterScheme?_append_of_some hscheme _),
        dropWhile_slash_of_not_mem hhost, ← List.cons_append, dropWhile_slash_of_not_mem hquery,
        dropWhile_slash_of_not_mem hhost]

omit hc in
theorem trim_intruded_ne_nil {query : Text} (h : Intrudes query a) :
    (intruded query a).trim ≠ [] := by
  cases hscheme : afterScheme? a with
  | none =>
      rw [intrudes_iff_of_none hscheme, Option.ne_none_iff_exists'] at h
      obtain ⟨rest, hrest⟩ := h
      intro hnil
      have htrimmed := afterScheme?_trim query
      rw [intruded_of_none hscheme] at hnil
      rw [hnil, hrest] at htrimmed
      cases htrimmed
  | some host =>
      obtain ⟨-, hmem⟩ := (intrudes_iff_of_some hscheme query).mp h
      obtain ⟨front, back, rfl, hfront⟩ := List.eq_append_cons_of_mem hmem
      rw [intruded_of_some hscheme hfront, Text.trim_append_cons hne htrim rfl]
      simp

end Query

/-- Endpoints with the same segments overlap with the same ones, if they are not blank. -/
theorem overlap_congr {a b : Text} (hsegments : segments a = segments b) (ha : a.trim ≠ [])
    (hb : b.trim ≠ []) (other : Text) :
    overlap a other = overlap b other ∧ overlap other a = overlap other b := by
  simp only [overlap, hsegments, List.isEmpty_eq_false_iff.mpr ha, List.isEmpty_eq_false_iff.mpr hb,
    and_self]

/-- A query or fragment does not change what an endpoint overlaps with, unless it intrudes: then the
endpoint overlaps with what is read in its place. -/
theorem overlap_query {a : Text} (hne : a ≠ []) (htrim : a.trim = a) {c : Char}
    (hc : c = '?' ∨ c = '#') (query b : Text) :
    (¬Intrudes query a → overlap (a ++ c :: query) b = overlap a b ∧
        overlap b (a ++ c :: query) = overlap b a) ∧
      (Intrudes query a → overlap (a ++ c :: query) b = overlap (intruded query a) b ∧
        overlap b (a ++ c :: query) = overlap b (intruded query a)) := by
  have hquery : (a ++ c :: query).trim ≠ [] := by
    rw [trim_query hne htrim hc]
    simp
  constructor
  · intro h
    exact overlap_congr (segments_query_of_not_intrudes hne htrim hc h) hquery (by rwa [htrim]) b
  · intro h
    exact overlap_congr (segments_query_of_intrudes hne htrim hc h) hquery
      (trim_intruded_ne_nil hne htrim h) b

/-- A slash in a query says nothing behind a path, and starts one behind a host. -/
theorem overlap_query_slash :
    overlap "/api/users?from=/".toList "/users".toList =
        overlap "/api/users".toList "/users".toList ∧
      overlap "http://host#at/users".toList "/users".toList =
        overlap "http://host/users".toList "/users".toList := by
  have hpath : afterScheme? "/api/users".toList = none := by decide +kernel
  have hquery : afterScheme? "from=/".toList = none := by decide +kernel
  have hhost : afterScheme? "http://host".toList = some "host".toList := by decide +kernel
  have hpasses : ¬Intrudes "from=/".toList "/api/users".toList := fun h =>
    (intrudes_iff_of_none hpath _).mp h hquery
  have hintrudes : Intrudes "at/users".toList "http://host".toList :=
    (intrudes_iff_of_some hhost _).mpr (by decide +kernel)
  have hread : intruded "at/users".toList "http://host".toList = "http://host/users".toList := by
    decide +kernel
  have hafter := (overlap_query (a := "/api/users".toList) (by decide) (by decide +kernel)
    (.inl rfl) "from=/".toList "/users".toList).1 hpasses
  have hinstead := (overlap_query (a := "http://host".toList) (by decide) (by decide +kernel)
    (.inr rfl) "at/users".toList "/users".toList).2 hintrudes
  rw [hread] at hinstead
  exact ⟨hafter.1, hinstead.1⟩

/-- An address in a query takes the place of the endpoint, and a slash the place of a path. -/
theorem overlap_query_ne :
    overlap "/users".toList "/users".toList = true ∧
      overlap "/users?next=http://host/login".toList "/users".toList = false ∧
      overlap "http://host".toList "/".toList = true ∧
      overlap "http://host?next=/login".toList "/".toList = false := by
  decide +kernel

end CodeAtlas.Graph
