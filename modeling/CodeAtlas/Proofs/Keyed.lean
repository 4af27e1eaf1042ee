import CodeAtlas.Keyed
import Mathlib.Data.List.Nodup

/-! Values by key: what is found after a change, and that each key stands once. -/

namespace CodeAtlas.Keyed

variable {κ α : Type} [DecidableEq κ]

/-! ## Looking up -/

@[simp] theorem get?_empty (key : κ) : (empty : Keyed κ α).get? key = none := rfl

private theorem lookup_cons_eq (key : κ) (item : κ × α) (items : List (κ × α)) :
    (item :: items).lookup key = if key = item.1 then some item.2 else items.lookup key := by
  rw [List.lookup_cons]
  by_cases h : key = item.1
  · simp [h]
  · rw [if_neg h, beq_eq_false_iff_ne.mpr h]

theorem get?_isSome_iff (keyed : Keyed κ α) (key : κ) :
    (keyed.get? key).isSome ↔ key ∈ keyed.keys := by
  simp [get?, keys, List.lookup_isSome_iff]

theorem get?_eq_none_iff (keyed : Keyed κ α) (key : κ) :
    keyed.get? key = none ↔ key ∉ keyed.keys := by
  rw [← get?_isSome_iff, Option.not_isSome_iff_eq_none]

theorem mem_items_of_get? {keyed : Keyed κ α} {key : κ} {value : α}
    (h : keyed.get? key = some value) : (key, value) ∈ keyed.items := by
  obtain ⟨front, back, hitems, -⟩ := List.lookup_eq_some_iff.mp h
  simp [hitems]

/-- Where each key stands once, the value that stands there is found. -/
theorem get?_of_mem_items {keyed : Keyed κ α} {key : κ} {value : α}
    (hn : keyed.keys.Nodup) (hm : (key, value) ∈ keyed.items) : keyed.get? key = some value := by
  cases hg : keyed.get? key with
  | none =>
      exact absurd (List.mem_map_of_mem hm) ((get?_eq_none_iff keyed key).mp hg)
  | some other =>
      have hsame := List.inj_on_of_nodup_map hn (mem_items_of_get? hg) hm rfl
      exact congrArg some (Prod.mk.inj hsame).2

/-! ## Erasing -/

theorem get?_erase (keyed : Keyed κ α) (key other : κ) :
    (keyed.erase key).get? other = if other = key then none else keyed.get? other := by
  obtain ⟨items⟩ := keyed
  simp only [erase, get?]
  induction items with
  | nil => simp
  | cons item items ih =>
      by_cases hk : item.1 = key
      · rw [List.filter_cons_of_neg (by simp [hk]), ih, lookup_cons_eq, hk]
        split <;> rfl
      · rw [List.filter_cons_of_pos (by simp [hk]), lookup_cons_eq, ih, lookup_cons_eq]
        by_cases ho : other = key
        · have hne : other ≠ item.1 := fun h => hk (h.symm.trans ho)
          rw [if_neg hne, if_pos ho, if_pos ho]
        · rw [if_neg ho, if_neg ho]

theorem keys_erase (keyed : Keyed κ α) (key : κ) :
    (keyed.erase key).keys = keyed.keys.filter fun k => !k == key := by
  simp [erase, keys, List.filter_map, Function.comp_def]

theorem erase_of_get?_eq_none {keyed : Keyed κ α} {key : κ} (h : keyed.get? key = none) :
    keyed.erase key = keyed := by
  have hkeys := (get?_eq_none_iff keyed key).mp h
  rw [erase, List.filter_eq_self.mpr]
  intro item hitem
  have hne : item.1 ≠ key := ne_of_mem_of_not_mem (List.mem_map_of_mem hitem) hkeys
  simpa using hne

theorem nodup_keys_erase {keyed : Keyed κ α} (key : κ) (hn : keyed.keys.Nodup) :
    (keyed.erase key).keys.Nodup := by
  rw [keys_erase]
  exact hn.filter _

theorem get?_foldl_erase (keys : List κ) (keyed : Keyed κ α) (other : κ) :
    (keys.foldl erase keyed).get? other = if other ∈ keys then none else keyed.get? other := by
  induction keys generalizing keyed with
  | nil => simp
  | cons key keys ih =>
      rw [List.foldl_cons, ih, get?_erase]
      by_cases hm : other ∈ keys <;> by_cases ho : other = key <;> simp [hm, ho]

/-! ## Putting -/

theorem get?_put (keyed : Keyed κ α) (key other : κ) (value : α) :
    (keyed.put key value).get? other = if other = key then some value else keyed.get? other := by
  have happend : (keyed.put key value).get? other =
      ((keyed.erase key).get? other).or (List.lookup other [(key, value)]) :=
    List.lookup_append
  rw [happend, get?_erase, lookup_cons_eq]
  by_cases ho : other = key <;> simp [ho]

theorem keys_put (keyed : Keyed κ α) (key : κ) (value : α) :
    (keyed.put key value).keys = (keyed.erase key).keys ++ [key] := by
  simp [put, keys]

theorem nodup_keys_put {keyed : Keyed κ α} (key : κ) (value : α) (hn : keyed.keys.Nodup) :
    (keyed.put key value).keys.Nodup := by
  rw [keys_put]
  refine List.nodup_append.mpr ⟨nodup_keys_erase key hn, List.nodup_singleton key, ?_⟩
  intro k hk other ho
  rw [keys_erase] at hk
  rw [List.mem_singleton.mp ho]
  simpa using (List.mem_filter.mp hk).2

/-- An item after a change is the new one or was there before. -/
theorem mem_items_put {keyed : Keyed κ α} {key : κ} {value : α} {item : κ × α}
    (h : item ∈ (keyed.put key value).items) : item ∈ keyed.items ∨ item = (key, value) := by
  rcases List.mem_append.mp h with h | h
  · exact .inl (List.mem_filter.mp h).1
  · exact .inr (List.mem_singleton.mp h)

theorem mem_items_erase {keyed : Keyed κ α} {key : κ} {item : κ × α}
    (h : item ∈ (keyed.erase key).items) : item ∈ keyed.items :=
  (List.mem_filter.mp h).1

/-- What is put under a key is found there, by whatever lawful test keys are compared. -/
theorem get?_put_self {ι : Type} [BEq ι] [LawfulBEq ι] (keyed : Keyed ι α) (key : ι) (value : α) :
    (keyed.put key value).get? key = some value := by
  have hnone : List.lookup key (keyed.erase key).items = none := by
    rw [List.lookup_eq_none_iff]
    intro item hmem
    have hkept : item.1 ≠ key := by simpa using (List.mem_filter.mp hmem).2
    simpa using hkept.symm
  simp [get?, put, List.lookup_append, hnone]

/-! ## Other keys and values -/

section Image

variable {ι β : Type} [DecidableEq ι]

/-- The same items with each key and each value replaced. -/
def image (label : κ → ι) (form : α → β) (keyed : Keyed κ α) : Keyed ι β :=
  ⟨keyed.items.map fun item => (label item.1, form item.2)⟩

omit [DecidableEq κ] [DecidableEq ι] in
theorem keys_image (label : κ → ι) (form : α → β) (keyed : Keyed κ α) :
    (keyed.image label form).keys = keyed.keys.map label := by
  simp [image, keys]

variable {label : κ → ι} (hlabel : Function.Injective label) (form : α → β) (keyed : Keyed κ α)
include hlabel

theorem get?_image (key : κ) :
    (keyed.image label form).get? (label key) = (keyed.get? key).map form := by
  obtain ⟨items⟩ := keyed
  simp only [image, get?]
  induction items with
  | nil => rfl
  | cons item items ih =>
      rw [List.map_cons, lookup_cons_eq, lookup_cons_eq, ih]
      by_cases hk : key = item.1
      · rw [if_pos hk, if_pos (congrArg label hk), Option.map_some]
      · rw [if_neg hk, if_neg (mt (fun h => hlabel h) hk)]

theorem erase_image (key : κ) :
    (keyed.image label form).erase (label key) = (keyed.erase key).image label form := by
  have hsame : ∀ other, (label other == label key) = (other == key) := by
    intro other
    rw [beq_eq_beq, hlabel.eq_iff]
  simp [erase, image, List.filter_map, Function.comp_def, hsame]

theorem put_image (key : κ) (value : α) :
    (keyed.image label form).put (label key) (form value) =
      (keyed.put key value).image label form := by
  rw [put, erase_image hlabel]
  simp [put, image]

end Image

end CodeAtlas.Keyed
