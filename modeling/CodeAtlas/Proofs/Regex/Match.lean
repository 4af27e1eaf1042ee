import CodeAtlas.Proofs.Text.Offset
import CodeAtlas.Regex.Match

/-! What a pattern matches, without an order of preference. Every answer of the matcher comes from
such a match, so much of what is found is told from the pattern alone: which characters it avoids,
whether it asks for a visible one, and how wide it is. Matches that are found one after the other
do not overlap. -/

namespace CodeAtlas

namespace Regex

/-! ## Places -/

namespace Cursor

/-- The place between two parts of a text. -/
def between (front rest : Text) : Cursor := ⟨front.getLast?, rest, front.size⟩

theorem start_eq_between (text : Text) : start text = between [] text := rfl

theorem step_between (front : Text) (c : Char) (rest : Text) :
    (between front (c :: rest)).step c rest = between (front ++ [c]) rest := by
  simp [between, step]

theorem upTo_between (front taken rest : Text) :
    (between front (taken ++ rest)).upTo (between (front ++ taken) rest) = taken := by
  have hsize : (front ++ taken).size - front.size = taken.size := by simp
  simp only [between, upTo, hsize, Text.takeBytes_append]

/-- A place that is reached through characters of a class. -/
theorem exists_of_mem_stopsFrom {set : CharClass} {front text : Text} {found : List Cursor}
    {stop : Cursor} (h : stop ∈ stopsFrom set text (between front text) found) :
    stop ∈ found ∨ ∃ taken rest, text = taken ++ rest ∧ (∀ c ∈ taken, set.has c = true) ∧
      stop = between (front ++ taken) rest := by
  induction text generalizing front found with
  | nil => exact .inl h
  | cons c text ih =>
      rw [stopsFrom] at h
      split at h
      · rename_i hc
        rw [step_between] at h
        rcases ih h with hfound | ⟨taken, rest, rfl, htaken, rfl⟩
        · rcases List.mem_cons.mp hfound with rfl | hfound
          · exact .inr ⟨[c], text, rfl, by simpa using hc, rfl⟩
          · exact .inl hfound
        · exact .inr ⟨c :: taken, rest, rfl, List.forall_mem_cons.mpr ⟨hc, htaken⟩, by simp⟩
      · exact .inl h

theorem exists_of_mem_stops {set : CharClass} {front text : Text} {stop : Cursor}
    (h : stop ∈ (between front text).stops set) :
    ∃ taken rest, text = taken ++ rest ∧ (∀ c ∈ taken, set.has c = true) ∧
      stop = between (front ++ taken) rest := by
  rcases exists_of_mem_stopsFrom h with hstart | hlater
  · refine ⟨[], text, rfl, List.forall_mem_nil _, ?_⟩
    rw [List.mem_singleton.mp hstart, List.append_nil]
  · exact hlater

/-- The farthest place comes first. -/
theorem head?_stopsFrom (set : CharClass) (front text : Text) (found : List Cursor) :
    (stopsFrom set text (between front text) (between front text :: found)).head? =
      some (between (front ++ text.takeWhile set.has) (text.dropWhile set.has)) := by
  induction text generalizing front found with
  | nil => simp [stopsFrom]
  | cons c text ih =>
      rw [stopsFrom]
      by_cases hc : set.has c = true
      · rw [if_pos hc, step_between, ih, List.takeWhile_cons_of_pos hc,
          List.dropWhile_cons_of_pos hc, List.append_assoc, List.singleton_append]
      · rw [if_neg hc, List.takeWhile_cons_of_neg hc, List.dropWhile_cons_of_neg hc,
          List.append_nil]
        rfl

theorem head?_stops (set : CharClass) (front text : Text) : ((between front text).stops set).head? =
    some (between (front ++ text.takeWhile set.has) (text.dropWhile set.has)) :=
  head?_stopsFrom set front text []

end Cursor

open Cursor

/-! ## Matches -/

/-- The pattern matches `taken` between `front` and `rest`, with the matches of its groups, the
latest first. -/
inductive Pattern.Matches : Pattern → Text → Text → Text → Captures → Prop
  | empty {front rest : Text} : Matches .empty front [] rest []
  | char {set : CharClass} {front rest : Text} {c : Char} (hc : set.has c = true) :
      Matches (.char set) front [c] rest []
  | seq {first second : Pattern} {front taken later rest : Text} {found more : Captures}
      (hfirst : Matches first front taken (later ++ rest) found)
      (hsecond : Matches second (front ++ taken) later rest more) :
      Matches (.seq first second) front (taken ++ later) rest (more ++ found)
  | altFirst {first second : Pattern} {front taken rest : Text} {found : Captures}
      (h : Matches first front taken rest found) :
      Matches (.alt first second) front taken rest found
  | altSecond {first second : Pattern} {front taken rest : Text} {found : Captures}
      (h : Matches second front taken rest found) :
      Matches (.alt first second) front taken rest found
  | many {set : CharClass} {front taken rest : Text} (h : ∀ c ∈ taken, set.has c = true) :
      Matches (.many set) front taken rest []
  | few {set : CharClass} {front taken rest : Text} (h : ∀ c ∈ taken, set.has c = true) :
      Matches (.few set) front taken rest []
  | starNil {body : Pattern} {front rest : Text} : Matches (.star body) front [] rest []
  | starCons {body : Pattern} {front taken later rest : Text} {found more : Captures}
      (hne : taken ≠ []) (hbody : Matches body front taken (later ++ rest) found)
      (hlater : Matches (.star body) (front ++ taken) later rest more) :
      Matches (.star body) front (taken ++ later) rest (more ++ found)
  | group {name : String} {body : Pattern} {front taken rest : Text} {found : Captures}
      (h : Matches body front taken rest found) :
      Matches (.group name body) front taken rest ((name, ⟨front.size, taken⟩) :: found)
  | lineStart {front rest : Text} (h : front.getLast?.all (· == '\n') = true) :
      Matches .lineStart front [] rest []
  | lineEnd {front rest : Text} (h : rest.head?.all (· == '\n') = true) :
      Matches .lineEnd front [] rest []
  | wordEdge {front rest : Text}
      (h : ((between front rest).afterWord != (between front rest).beforeWord) = true) :
      Matches .wordEdge front [] rest []

variable {α : Type}

/-- An answer that was given where a match of the pattern ends. -/
def Pattern.Leads (pattern : Pattern) (front text : Text) (captures : Captures)
    (next : Continuation α) (answer : α) : Prop :=
  ∃ taken rest found, text = taken ++ rest ∧ pattern.Matches front taken rest found ∧
    next (between (front ++ taken) rest) (found ++ captures) = some answer

theorem leads_of_repeatBody {body : Pattern}
    (hbody : ∀ {front text : Text} {captures : Captures} {next : Continuation α} {answer : α},
      run body (between front text) captures next = some answer →
        body.Leads front text captures next answer)
    (fuel : Text) {front text : Text} {captures : Captures} {next : Continuation α} {answer : α}
    (h : repeatBody (run body) fuel (between front text) captures next = some answer) :
    (Pattern.star body).Leads front text captures next answer := by
  have hend : ∀ {front text : Text} {captures : Captures},
      next (between front text) captures = some answer →
        (Pattern.star body).Leads front text captures next answer := by
    intro front text captures h
    exact ⟨[], text, [], rfl, .starNil, by simpa using h⟩
  induction fuel generalizing front text captures with
  | nil => exact hend h
  | cons c fuel ih =>
      rw [repeatBody] at h
      split at h
      · rename_i found hfound
        obtain ⟨taken, rest, groups, rfl, hmatch, hnext⟩ := hbody hfound
        dsimp only at hnext
        split at hnext
        · cases hnext
        · rename_i hoffset
          obtain ⟨later, rest, more, rfl, hlater, hnext⟩ := ih (hnext.trans h)
          have hne : taken ≠ [] := by
            rintro rfl
            simp [between] at hoffset
          exact ⟨taken ++ later, rest, more ++ groups, by simp, .starCons hne hmatch hlater,
            by simpa using hnext⟩
      · exact hend h

/-- Every answer comes from a match. -/
theorem leads_of_run {pattern : Pattern} {front text : Text} {captures : Captures}
    {next : Continuation α} {answer : α}
    (h : run pattern (between front text) captures next = some answer) :
    pattern.Leads front text captures next answer := by
  induction pattern generalizing front text captures next answer with
  | empty =>
      rw [run] at h
      exact ⟨[], text, [], rfl, .empty, by simpa using h⟩
  | char set =>
      cases text with
      | nil => cases h
      | cons c text =>
          simp only [run, between, Option.ite_none_right_eq_some] at h
          refine ⟨[c], text, [], rfl, .char h.1, ?_⟩
          rw [← step_between]
          exact h.2
  | seq first second ihf ihs =>
      obtain ⟨taken, rest, found, rfl, hfirst, hnext⟩ := ihf h
      obtain ⟨later, rest, more, rfl, hsecond, hnext⟩ := ihs hnext
      exact ⟨taken ++ later, rest, more ++ found, by simp, .seq hfirst hsecond,
        by simpa using hnext⟩
  | alt first second ihf ihs =>
      rw [run] at h
      split at h
      · rename_i found hfound
        obtain ⟨taken, rest, groups, rfl, hfirst, hnext⟩ := ihf hfound
        exact ⟨taken, rest, groups, rfl, .altFirst hfirst, hnext.trans h⟩
      · obtain ⟨taken, rest, groups, rfl, hsecond, hnext⟩ := ihs h
        exact ⟨taken, rest, groups, rfl, .altSecond hsecond, hnext⟩
  | many set =>
      obtain ⟨stop, hstop, hnext⟩ := List.exists_of_findSome?_eq_some h
      obtain ⟨taken, rest, rfl, htaken, rfl⟩ := exists_of_mem_stops hstop
      exact ⟨taken, rest, [], rfl, .many htaken, hnext⟩
  | few set =>
      obtain ⟨stop, hstop, hnext⟩ := List.exists_of_findSome?_eq_some h
      obtain ⟨taken, rest, rfl, htaken, rfl⟩ := exists_of_mem_stops (List.mem_reverse.mp hstop)
      exact ⟨taken, rest, [], rfl, .few htaken, hnext⟩
  | star body ih => exact leads_of_repeatBody ih _ h
  | group name body ih =>
      obtain ⟨taken, rest, found, rfl, hbody, hnext⟩ := ih h
      dsimp only at hnext
      rw [upTo_between] at hnext
      exact ⟨taken, rest, _, rfl, .group hbody, hnext⟩
  | lineStart =>
      rw [run] at h
      split at h
      · rename_i hstart
        exact ⟨[], text, [], rfl, .lineStart hstart, by simpa using h⟩
      · cases h
  | lineEnd =>
      rw [run] at h
      split at h
      · rename_i hend
        exact ⟨[], text, [], rfl, .lineEnd hend, by simpa using h⟩
      · cases h
  | wordEdge =>
      rw [run] at h
      split at h
      · rename_i hedge
        exact ⟨[], text, [], rfl, .wordEdge hedge, by simpa using h⟩
      · cases h

theorem exists_of_matchAt? {pattern : Pattern} {front text : Text} {stop : Cursor}
    {captures : Captures} (h : matchAt? pattern (between front text) = some (stop, captures)) :
    ∃ taken rest, text = taken ++ rest ∧ stop = between (front ++ taken) rest ∧
      pattern.Matches front taken rest captures := by
  obtain ⟨taken, rest, found, htext, hmatch, hnext⟩ := leads_of_run h
  obtain ⟨hstop, hfound⟩ := Prod.mk.inj (Option.some.inj hnext)
  rw [List.append_nil] at hfound
  exact ⟨taken, rest, htext, hstop.symm, hfound ▸ hmatch⟩

/-! ## Visible characters -/

theorem not_isWord_of_mem_blankPoints :
    ∀ point ∈ Text.blankPoints, Text.isWord (Char.ofNat point) = false := by
  decide +kernel

/-- No blank belongs to the item. -/
def ClassItem.isVisible : ClassItem → Bool
  | word => true
  | item => Text.blankPoints.all fun point => !item.has (Char.ofNat point)

/-- No blank belongs to the class. Other characters than given ones may be blanks. -/
def CharClass.isVisible (set : CharClass) : Bool :=
  !set.negated && set.items.all ClassItem.isVisible

theorem ClassItem.isBlank_of_isVisible {item : ClassItem} (h : item.isVisible = true) {c : Char}
    (hc : item.has c = true) : Text.isBlank c = false := by
  rw [Bool.eq_false_iff]
  intro hblank
  have hpoint := Text.toNat_mem_blankPoints hblank
  have hnone : item.has (Char.ofNat c.toNat) = false := by
    cases item with
    | word => exact not_isWord_of_mem_blankPoints _ hpoint
    | _ => simpa using List.all_eq_true.mp h _ hpoint
  rw [Char.ofNat_toNat, hc] at hnone
  cases hnone

theorem CharClass.isBlank_of_isVisible {set : CharClass} (h : set.isVisible = true) {c : Char}
    (hc : set.has c = true) : Text.isBlank c = false := by
  rw [isVisible, Bool.and_eq_true, Bool.not_eq_true', List.all_eq_true] at h
  obtain ⟨hnegated, hitems⟩ := h
  rw [has, hnegated, bne_iff_ne, ne_eq, Bool.not_eq_false, List.any_eq_true] at hc
  obtain ⟨item, hm, hhas⟩ := hc
  exact ClassItem.isBlank_of_isVisible (hitems item hm) hhas

/-! ## What matches hold -/

/-- The capture is a match of the pattern in the text. -/
def Capture.Stands (capture : Capture) (pattern : Pattern) (text : Text) : Prop :=
  ∃ front rest found, text = front ++ capture.text ++ rest ∧ capture.offset = front.size ∧
    pattern.Matches front capture.text rest found

namespace Pattern

/-- The groups of the pattern with what they are to match. -/
def groups : Pattern → List (String × Pattern)
  | seq first second | alt first second => first.groups ++ second.groups
  | star body => body.groups
  | group name body => (name, body) :: body.groups
  | _ => []

/-- The character belongs to no class of the pattern. -/
def avoids (c : Char) : Pattern → Bool
  | char set | many set | few set => !set.has c
  | seq first second | alt first second => first.avoids c && second.avoids c
  | star body | group _ body => body.avoids c
  | _ => true

/-- Every way of matching the pattern takes a character that is not blank. -/
def isVisible : Pattern → Bool
  | char set => set.isVisible
  | seq first second => first.isVisible || second.isVisible
  | alt first second => first.isVisible && second.isVisible
  | group _ body => body.isVisible
  | _ => false

/-- As many characters are in every match. -/
def width : Pattern → Nat
  | char _ => 1
  | seq first second => first.width + second.width
  | alt first second => min first.width second.width
  | group _ body => body.width
  | _ => 0

namespace Matches

variable {pattern : Pattern} {front taken rest : Text} {found : Captures}

/-- What a group is found to match stands in the text, and its body matches it there. -/
theorem exists_of_mem (h : pattern.Matches front taken rest found) {name : String}
    {capture : Capture} (hm : (name, capture) ∈ found) :
    ∃ body, (name, body) ∈ pattern.groups ∧ capture.Stands body (front ++ taken ++ rest) := by
  induction h with
  | empty | char | many | few | starNil | lineStart | lineEnd | wordEdge => cases hm
  | seq _ _ ihf ihs =>
      simp only [← List.append_assoc] at ihf ihs ⊢
      rcases List.mem_append.mp hm with hm | hm
      · exact (ihs hm).imp fun _ => .imp_left (List.mem_append_right _)
      · exact (ihf hm).imp fun _ => .imp_left (List.mem_append_left _)
  | altFirst _ ih => exact (ih hm).imp fun _ => .imp_left (List.mem_append_left _)
  | altSecond _ ih => exact (ih hm).imp fun _ => .imp_left (List.mem_append_right _)
  | starCons _ _ _ ihb ihl =>
      simp only [← List.append_assoc] at ihb ihl ⊢
      rcases List.mem_append.mp hm with hm | hm
      · exact ihl hm
      · exact ihb hm
  | group h ih =>
      rcases List.mem_cons.mp hm with heq | hm
      · obtain ⟨rfl, rfl⟩ := Prod.mk.inj heq
        exact ⟨_, List.mem_cons_self, _, _, _, rfl, rfl, h⟩
      · exact (ih hm).imp fun _ => .imp_left (List.mem_cons_of_mem _)

theorem found_eq_nil (h : pattern.Matches front taken rest found) (hgroups : pattern.groups = []) :
    found = [] := by
  rw [List.eq_nil_iff_forall_not_mem]
  intro entry hm
  obtain ⟨body, hbody, -⟩ := h.exists_of_mem hm
  rw [hgroups] at hbody
  cases hbody

theorem not_mem_of_avoids (h : pattern.Matches front taken rest found) {c : Char}
    (hp : pattern.avoids c = true) : c ∉ taken := by
  induction h with
  | empty | starNil | lineStart | lineEnd | wordEdge => exact List.not_mem_nil
  | char hc =>
      rw [List.mem_singleton]
      rintro rfl
      simp [avoids, hc] at hp
  | many h | few h =>
      intro hm
      simp [avoids, h _ hm] at hp
  | seq _ _ ihf ihs =>
      obtain ⟨hfirst, hsecond⟩ := Bool.and_eq_true_iff.mp hp
      exact fun hm => (List.mem_append.mp hm).elim (ihf hfirst) (ihs hsecond)
  | altFirst _ ih => exact ih (Bool.and_eq_true_iff.mp hp).1
  | altSecond _ ih => exact ih (Bool.and_eq_true_iff.mp hp).2
  | starCons _ _ _ ihb ihl => exact fun hm => (List.mem_append.mp hm).elim (ihb hp) (ihl hp)
  | group _ ih => exact ih hp

theorem exists_visible (h : pattern.Matches front taken rest found)
    (hp : pattern.isVisible = true) : ∃ c ∈ taken, Text.isBlank c = false := by
  induction h with
  | empty | many | few | starNil | starCons | lineStart | lineEnd | wordEdge => cases hp
  | char hc => exact ⟨_, List.mem_singleton_self _, CharClass.isBlank_of_isVisible hp hc⟩
  | seq _ _ ihf ihs =>
      rcases Bool.or_eq_true_iff.mp hp with hp | hp
      · exact (ihf hp).imp fun _ => .imp_left (List.mem_append_left _)
      · exact (ihs hp).imp fun _ => .imp_left (List.mem_append_right _)
  | altFirst _ ih => exact ih (Bool.and_eq_true_iff.mp hp).1
  | altSecond _ ih => exact ih (Bool.and_eq_true_iff.mp hp).2
  | group _ ih => exact ih hp

theorem width_le_size (h : pattern.Matches front taken rest found) :
    pattern.width ≤ taken.size := by
  induction h with
  | empty | many | few | starNil | starCons | lineStart | lineEnd | wordEdge => exact Nat.zero_le _
  | char =>
      rename_i c _
      rw [Text.size_cons]
      exact Nat.le_add_right_of_le c.utf8Size_pos
  | seq _ _ ihf ihs =>
      rw [Text.size_append]
      exact Nat.add_le_add ihf ihs
  | altFirst _ ih => exact (Nat.min_le_left _ _).trans ih
  | altSecond _ ih => exact (Nat.min_le_right _ _).trans ih
  | group _ ih => exact ih

end Matches

end Pattern

/-- In front of blanks a pattern that asks for a visible character does not match. -/
theorem matchAt?_of_allBlank {pattern : Pattern} (hp : pattern.isVisible = true) (front : Text)
    {rest : Text} (h : rest.allBlank) : matchAt? pattern (between front rest) = none := by
  rw [Option.eq_none_iff_forall_ne_some]
  rintro ⟨stop, captures⟩ hfirst
  obtain ⟨taken, later, rfl, -, hmatch⟩ := exists_of_matchAt? hfirst
  obtain ⟨c, hc, hvisible⟩ := hmatch.exists_visible hp
  have hblank := List.all_eq_true.mp h c (List.mem_append_left later hc)
  rw [hvisible] at hblank
  cases hblank

/-! ## All matches -/

/-- What is found at one place: where to go on, and the matches up to there. -/
def look (pattern : Pattern) (cursor : Cursor) (resume : Nat) (found : List Captures) :
    Nat × List Captures :=
  if cursor.offset < resume then (resume, found)
  else
    match matchAt? pattern cursor with
    | some (stop, captures) => (stop.offset, captures :: found)
    | none => (resume, found)

theorem findFrom_nil (pattern : Pattern) (cursor : Cursor) (resume : Nat) (found : List Captures) :
    findFrom pattern [] cursor resume found = (look pattern cursor resume found).2.reverse := by
  rw [findFrom, look]
  split
  · rfl
  · cases matchAt? pattern cursor <;> rfl

theorem findFrom_cons (pattern : Pattern) (c : Char) (rest : Text) (cursor : Cursor)
    (resume : Nat) (found : List Captures) : findFrom pattern (c :: rest) cursor resume found =
      findFrom pattern rest (cursor.step c rest) (look pattern cursor resume found).1
        (look pattern cursor resume found).2 := by
  rw [findFrom, look]
  split
  · rfl
  · cases matchAt? pattern cursor <;> rfl

section Invariant

variable {pattern : Pattern} {text : Text} {invariant : Nat → List Captures → Prop}

/-- What a match keeps behind the matches before it. -/
def Keeps (pattern : Pattern) (text : Text) (invariant : Nat → List Captures → Prop) : Prop :=
  ∀ {front rest : Text} {resume : Nat} {found : List Captures} {stop : Cursor}
    {captures : Captures}, text = front ++ rest →
      matchAt? pattern (between front rest) = some (stop, captures) → resume ≤ front.size →
        invariant resume found → invariant stop.offset (captures :: found)

theorem Keeps.invariant_look (h : Keeps pattern text invariant) {front rest : Text}
    (htext : text = front ++ rest) {resume : Nat} {found : List Captures}
    (hfound : invariant resume found) :
    invariant (look pattern (between front rest) resume found).1
      (look pattern (between front rest) resume found).2 := by
  rw [look]
  split
  · exact hfound
  · rename_i hresume
    split
    · rename_i stop captures hfirst
      exact h htext hfirst (Nat.not_lt.mp hresume) hfound
    · exact hfound

theorem Keeps.exists_findFrom (h : Keeps pattern text invariant) {front rest : Text}
    (htext : text = front ++ rest) {resume : Nat} {found : List Captures}
    (hfound : invariant resume found) :
    ∃ stop, invariant stop (findFrom pattern rest (between front rest) resume found).reverse := by
  induction rest generalizing front resume found with
  | nil =>
      rw [findFrom_nil, List.reverse_reverse]
      exact ⟨_, h.invariant_look htext hfound⟩
  | cons c rest ih =>
      rw [findFrom_cons, step_between]
      exact ih (by simp [htext]) (h.invariant_look htext hfound)

/-- What each match keeps holds of all of them. -/
theorem Keeps.exists_findAll (h : Keeps pattern text invariant) (hstart : invariant 0 []) :
    ∃ stop, invariant stop (findAll pattern text).reverse := by
  have htext : text = [] ++ text := rfl
  exact h.exists_findFrom htext hstart

end Invariant

/-- What is found is the match at some place. -/
theorem exists_matchAt?_of_mem_findAll {pattern : Pattern} {text : Text} {captures : Captures}
    (h : captures ∈ findAll pattern text) : ∃ front rest stop, text = front ++ rest ∧
      matchAt? pattern (between front rest) = some (stop, captures) := by
  have hkeeps : Keeps pattern text fun _ found => ∀ captures ∈ found, ∃ front rest stop,
      text = front ++ rest ∧ matchAt? pattern (between front rest) = some (stop, captures) := by
    intro front rest resume found stop captures htext hfirst _ hfound
    exact List.forall_mem_cons.mpr ⟨⟨front, rest, stop, htext, hfirst⟩, hfound⟩
  obtain ⟨stop, hall⟩ := hkeeps.exists_findAll (List.forall_mem_nil _)
  exact hall captures (List.mem_reverse.mpr h)

/-- A pattern that asks for a visible character is not found in a blank text. -/
theorem findAll_eq_nil {pattern : Pattern} (hp : pattern.isVisible = true) {text : Text}
    (h : text.allBlank) : findAll pattern text = [] := by
  rw [List.eq_nil_iff_forall_not_mem]
  intro captures hm
  obtain ⟨front, rest, stop, rfl, hfirst⟩ := exists_matchAt?_of_mem_findAll hm
  have hrest : Text.allBlank rest := List.all_eq_true.mpr fun c hc =>
    List.all_eq_true.mp h c (List.mem_append_right front hc)
  rw [matchAt?_of_allBlank hp front hrest] at hfirst
  cases hfirst

/-- What a group holds in a match is a match of its body. -/
theorem stands_of_get? {pattern : Pattern} {text : Text} {captures : Captures}
    (h : captures ∈ findAll pattern text) {name : String} {capture : Capture}
    (hcapture : captures.get? name = some capture) :
    ∃ body, (name, body) ∈ pattern.groups ∧ capture.Stands body text := by
  obtain ⟨front, rest, stop, rfl, hfirst⟩ := exists_matchAt?_of_mem_findAll h
  obtain ⟨taken, rest, rfl, -, hmatch⟩ := exists_of_matchAt? hfirst
  obtain ⟨before, after, rfl, -⟩ := List.lookup_eq_some_iff.mp hcapture
  rw [← List.append_assoc]
  exact hmatch.exists_of_mem (List.mem_append_right _ List.mem_cons_self)

/-- Matches do not overlap, and so there are no more of them than their width allows. -/
theorem length_findAll_mul_width_le (pattern : Pattern) (text : Text) :
    (findAll pattern text).length * pattern.width ≤ text.size := by
  have hkeeps : Keeps pattern text fun resume found =>
      found.length * pattern.width ≤ resume ∧ resume ≤ text.size := by
    rintro front rest resume found stop captures rfl hfirst hresume ⟨hfound, -⟩
    obtain ⟨taken, rest, rfl, rfl, hmatch⟩ := exists_of_matchAt? hfirst
    have hwidth := hmatch.width_le_size
    simp only [between, List.length_cons, Nat.add_mul, Nat.one_mul, Text.size_append]
    omega
  obtain ⟨stop, hlength, hstop⟩ := hkeeps.exists_findAll ⟨by simp, Nat.zero_le _⟩
  rw [List.length_reverse] at hlength
  exact hlength.trans hstop

end Regex

end CodeAtlas
