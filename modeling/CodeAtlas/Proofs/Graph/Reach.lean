import CodeAtlas.Graph.Component
import Mathlib.Data.List.Basic
import Mathlib.Data.List.Induction
import Mathlib.Logic.Relation

/-! A search finds what can be reached, and groups that agree with each other divide the items. -/

namespace CodeAtlas.Graph

variable {α : Type} [DecidableEq α]

/-! ## Searching -/

section Reach

variable {next : α → List α} {domain pending : List α} {item other : α}

theorem subset_of_mem_reach (h : item ∈ reach next domain pending) : item ∈ domain := by
  fun_induction reach next domain pending with
  | case1 => cases h
  | case2 domain first pending hfirst ih =>
      rcases List.mem_cons.mp h with rfl | h
      · exact hfirst
      · exact List.mem_of_mem_erase (ih h)
  | case3 domain first pending _ ih => exact ih h

/-- Everything that is found is reached from a pending item. -/
theorem exists_path_of_mem_reach (h : item ∈ reach next domain pending) :
    ∃ start ∈ pending, Relation.ReflTransGen (fun a b => b ∈ next a) start item := by
  fun_induction reach next domain pending with
  | case1 => cases h
  | case2 domain first pending _ ih =>
      rcases List.mem_cons.mp h with rfl | h
      · exact ⟨item, List.mem_cons_self, .refl⟩
      · obtain ⟨start, hm, hpath⟩ := ih h
        rcases List.mem_append.mp hm with hm | hm
        · exact ⟨first, List.mem_cons_self, .head hm hpath⟩
        · exact ⟨start, List.mem_cons_of_mem first hm, hpath⟩
  | case3 domain first pending _ ih =>
      obtain ⟨start, hm, hpath⟩ := ih h
      exact ⟨start, List.mem_cons_of_mem first hm, hpath⟩

/-- Every pending item of the domain is found. -/
theorem mem_reach_of_mem_pending (hd : item ∈ domain) (hp : item ∈ pending) :
    item ∈ reach next domain pending := by
  fun_induction reach next domain pending with
  | case1 => cases hp
  | case2 domain first pending _ ih =>
      by_cases hne : item = first
      · rw [hne]
        exact List.mem_cons_self
      · have hrest := List.mem_of_ne_of_mem hne hp
        exact List.mem_cons_of_mem first (ih ((List.mem_erase_of_ne hne).mpr hd)
          (List.mem_append_right _ hrest))
  | case3 domain first pending hfirst ih =>
      refine ih hd (List.mem_of_ne_of_mem ?_ hp)
      rintro rfl
      exact hfirst hd

/-- What follows an item that is found is found, if it is in the domain. -/
theorem mem_reach_of_next (h : item ∈ reach next domain pending) (hd : other ∈ domain)
    (hn : other ∈ next item) : other ∈ reach next domain pending := by
  fun_induction reach next domain pending with
  | case1 => cases h
  | case2 domain first pending _ ih =>
      by_cases hne : other = first
      · rw [hne]
        exact List.mem_cons_self
      · have herase := (List.mem_erase_of_ne hne).mpr hd
        refine List.mem_cons_of_mem first ?_
        rcases List.mem_cons.mp h with rfl | h
        · exact mem_reach_of_mem_pending herase (List.mem_append_left pending hn)
        · exact ih h herase
  | case3 domain first pending _ ih => exact ih h hd

/-- In a domain that is left by no step a search finds exactly what can be reached. -/
theorem mem_reach_iff {step : α → α → Prop} (hnext : ∀ a b, b ∈ next a ↔ step a b)
    (hclosed : ∀ a b, step a b → b ∈ domain) (ho : other ∈ domain) :
    item ∈ reach next domain [other] ↔ Relation.ReflTransGen step other item := by
  have hstep : (fun a b => b ∈ next a) = step := by
    funext a b
    exact propext (hnext a b)
  constructor
  · intro h
    obtain ⟨start, hm, hpath⟩ := exists_path_of_mem_reach h
    rwa [List.mem_singleton.mp hm, hstep] at hpath
  · intro hpath
    induction hpath with
    | refl => exact mem_reach_of_mem_pending ho (List.mem_singleton_self other)
    | @tail a b _ hab ih => exact mem_reach_of_next ih (hclosed a b hab) ((hnext a b).mpr hab)

theorem nodup_reach (hd : domain.Nodup) : (reach next domain pending).Nodup := by
  fun_induction reach next domain pending with
  | case1 => exact List.nodup_nil
  | case2 domain first pending _ ih =>
      refine List.nodup_cons.mpr ⟨?_, ih (hd.erase first)⟩
      intro hm
      exact hd.not_mem_erase (subset_of_mem_reach hm)
  | case3 domain first pending _ ih => exact ih hd

end Reach

/-! ## Grouping -/

section Groups

variable {groupOf : α → List α} {items : List α}

theorem groups_concat (item : α) :
    groups groupOf (items ++ [item]) =
      if (groups groupOf items).any (List.elem item) then groups groupOf items
      else groups groupOf items ++ [groupOf item] := by
  rw [groups, List.foldl_append]
  rfl

theorem any_elem_iff {found : List (List α)} {item : α} :
    found.any (List.elem item) = true ↔ ∃ group ∈ found, item ∈ group := by
  simp

theorem exists_of_mem_groups {group : List α} (h : group ∈ groups groupOf items) :
    ∃ item ∈ items, group = groupOf item := by
  induction items using List.reverseRecOn with
  | nil => cases h
  | append_singleton items item ih =>
      have hold : group ∈ groups groupOf items →
          ∃ other ∈ items ++ [item], group = groupOf other := by
        intro hm
        obtain ⟨other, ho, hgroup⟩ := ih hm
        exact ⟨other, List.mem_append_left _ ho, hgroup⟩
      rw [groups_concat] at h
      split at h
      · exact hold h
      · rcases List.mem_append.mp h with h | h
        · exact hold h
        · exact ⟨item, by simp, List.mem_singleton.mp h⟩

theorem exists_group_of_mem (hself : ∀ item ∈ items, item ∈ groupOf item) {item : α}
    (hm : item ∈ items) : ∃ group ∈ groups groupOf items, item ∈ group := by
  induction items using List.reverseRecOn with
  | nil => cases hm
  | append_singleton items last ih =>
      have hfound := ih fun other ho => hself other (List.mem_append_left _ ho)
      rw [groups_concat]
      by_cases hany : (groups groupOf items).any (List.elem last)
      · rw [if_pos hany]
        rcases List.mem_append.mp hm with hm | hm
        · exact hfound hm
        · rw [List.mem_singleton.mp hm]
          exact any_elem_iff.mp hany
      · rw [if_neg hany]
        rcases List.mem_append.mp hm with hm | hm
        · obtain ⟨group, hg, hitem⟩ := hfound hm
          exact ⟨group, List.mem_append_left _ hg, hitem⟩
        · rw [List.mem_singleton.mp hm]
          exact ⟨groupOf last, by simp, hself last (by simp)⟩

/-- Groups do not overlap, if the groups of items that share one are the same. -/
theorem disjoint_groups (hself : ∀ item ∈ items, item ∈ groupOf item)
    (hshare : ∀ a ∈ items, ∀ b ∈ items, ∀ item, item ∈ groupOf a → item ∈ groupOf b →
      b ∈ groupOf a) :
    (groups groupOf items).Pairwise List.Disjoint := by
  induction items using List.reverseRecOn with
  | nil => exact List.Pairwise.nil
  | append_singleton items last ih =>
      have hfound := ih (fun other ho => hself other (List.mem_append_left _ ho))
        (fun a ha b hb => hshare a (List.mem_append_left _ ha) b (List.mem_append_left _ hb))
      rw [groups_concat]
      by_cases hany : (groups groupOf items).any (List.elem last)
      · rw [if_pos hany]
        exact hfound
      · rw [if_neg hany]
        refine List.pairwise_append.mpr ⟨hfound, List.pairwise_singleton _ _, ?_⟩
        intro group hg new hnew item hitem hitemNew
        rw [List.mem_singleton.mp hnew] at hitemNew
        obtain ⟨other, ho, rfl⟩ := exists_of_mem_groups hg
        have hlast := hshare other (List.mem_append_left _ ho) last (by simp) item hitem hitemNew
        exact hany (any_elem_iff.mpr ⟨groupOf other, hg, hlast⟩)

end Groups

end CodeAtlas.Graph
