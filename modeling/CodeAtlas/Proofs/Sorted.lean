import CodeAtlas.Sorted
import Mathlib.Data.List.ProdSigma
import Mathlib.Data.List.TakeWhile
import Mathlib.Data.String.Basic

/-! Sorting keeps the items, and dropping repetitions keeps one item for each key. -/

namespace CodeAtlas

variable {α : Type}

/-! ## Sorting -/

section SortedBy

-- The order is read off the sorted list: lists of texts have more than one.
variable {κ : Type} {_ : LE κ} {_ : DecidableLE κ} (key : α → κ) (items : List α)

theorem sortedBy_perm : (sortedBy key items).Perm items :=
  List.mergeSort_perm items _

@[simp] theorem mem_sortedBy {item : α} : item ∈ sortedBy key items ↔ item ∈ items :=
  (sortedBy_perm key items).mem_iff

theorem pairwise_sortedBy [Std.IsLinearPreorder κ] :
    (sortedBy key items).Pairwise fun a b => key a ≤ key b := by
  have h := @List.pairwise_mergeSort α (fun a b => decide (key a ≤ key b))
    (by simpa using fun a b c => Std.IsPreorder.le_trans (key a) (key b) (key c))
    (by simpa using fun a b => Std.IsLinearPreorder.le_total (key a) (key b)) items
  simpa only [sortedBy, decide_eq_true_eq] using h

/-- Items in order stay as they are. -/
theorem sortedBy_eq_self {items : List α} (h : items.Pairwise fun a b => key a ≤ key b) :
    sortedBy key items = items :=
  List.mergeSort_of_pairwise (by simpa using h)

theorem map_sortedBy {β : Type} (f : β → α) (items : List β) :
    (sortedBy (fun item => key (f item)) items).map f = sortedBy key (items.map f) :=
  List.map_mergeSort fun _ _ _ _ => rfl

/-- Items with different keys are put in strict order. -/
theorem pairwise_lt_sortedBy [LT κ] [Std.IsLinearOrder κ] [Std.LawfulOrderLT κ]
    (hn : (items.map key).Nodup) : (sortedBy key items).Pairwise fun a b => key a < key b := by
  have hkeys : ((sortedBy key items).map key).Nodup :=
    ((sortedBy_perm key items).map key).nodup_iff.mpr hn
  refine (pairwise_sortedBy key items).imp₂ ?_ (List.pairwise_map.mp hkeys)
  intro a b hle hne
  exact Std.lt_of_le_of_ne hle hne

end SortedBy

/-! ## Stability -/

/-- Where each key stands once, the items of a key are the same in every order. -/
theorem filter_key_eq_of_perm {κ : Type} [DecidableEq κ] (key : α → κ) {as bs : List α}
    (hperm : as.Perm bs) (hn : (as.map key).Nodup) (k : κ) :
    as.filter (key · = k) = bs.filter (key · = k) := by
  -- There is at most one such item, so that nothing is said about any pair of them.
  have hpairs : ∀ {items : List α}, (items.map key).Nodup →
      (items.filter (key · = k)).Pairwise fun _ _ => False := by
    intro items hn
    refine ((List.pairwise_map.mp hn).filter _).imp_of_mem fun ha hb hne => hne ?_
    have hka := (List.mem_filter.mp ha).2
    have hkb := (List.mem_filter.mp hb).2
    exact (of_decide_eq_true hka).trans (of_decide_eq_true hkb).symm
  have hn' := (hperm.map key).nodup_iff.mp hn
  exact (hperm.filter _).eq_of_pairwise (fun _ _ _ _ h _ => h.elim) (hpairs hn) (hpairs hn')

section Stable

variable {κ : Type} {_ : LE κ} {_ : DecidableLE κ} [DecidableEq κ] (key : α → κ)

/-- Items with one key stay in order. -/
theorem filter_sortedBy [Std.IsLinearPreorder κ] (items : List α) (k : κ) :
    (sortedBy key items).filter (key · = k) = items.filter (key · = k) := by
  have hsorted : (items.filter (key · = k)).Pairwise fun a b => decide (key a ≤ key b) := by
    refine List.pairwise_of_forall_mem_list fun a ha b hb => ?_
    simp only [List.mem_filter, decide_eq_true_eq] at ha hb
    simp [ha.2, hb.2]
  have hsub : (items.filter (key · = k)).Sublist (sortedBy key items) :=
    List.sublist_mergeSort
      (by simpa using fun a b c => Std.IsPreorder.le_trans (key a) (key b) (key c))
      (by simpa using fun a b => Std.IsLinearPreorder.le_total (key a) (key b))
      hsorted List.filter_sublist
  have hsame := hsub.filter (key · = k)
  rw [List.filter_filter] at hsame
  simp only [Bool.and_self] at hsame
  exact (hsame.eq_of_length ((sortedBy_perm key items).filter _).length_eq.symm).symm

/-- A sorted list is known from its items of each key. -/
theorem eq_of_pairwise_le [Std.IsLinearOrder κ] {as bs : List α}
    (ha : as.Pairwise fun a b => key a ≤ key b) (hb : bs.Pairwise fun a b => key a ≤ key b)
    (h : ∀ k, as.filter (key · = k) = bs.filter (key · = k)) : as = bs := by
  induction as generalizing bs with
  | nil =>
      cases bs with
      | nil => rfl
      | cons b bs => simpa using h (key b)
  | cons a as ih =>
      cases bs with
      | nil => simpa using h (key a)
      | cons b bs =>
          have hleast : ∀ {x y : α} {xs ys : List α},
              (x :: xs).Pairwise (fun a b => key a ≤ key b) →
              (x :: xs).filter (key · = key y) = (y :: ys).filter (key · = key y) →
                key x ≤ key y := by
            intro x y xs ys hs hsame
            have hy : y ∈ (x :: xs).filter (key · = key y) := by simp [hsame]
            rcases List.mem_cons.mp (List.mem_filter.mp hy).1 with rfl | hy
            · exact Std.le_refl _
            · exact (List.pairwise_cons.mp hs).1 y hy
          have hkey : key a = key b :=
            Std.le_antisymm (hleast ha (h (key b))) (hleast hb (h (key a)).symm)
          have hfirst := h (key a)
          rw [List.filter_cons_of_pos (by simp), List.filter_cons_of_pos (by simp [hkey])] at hfirst
          obtain ⟨rfl, -⟩ := List.cons.inj hfirst
          refine congrArg (a :: ·) (ih ha.of_cons hb.of_cons fun k => ?_)
          have hk := h k
          simp only [List.filter_cons] at hk
          split at hk
          · exact (List.cons.inj hk).2
          · exact hk

/-- Sorting takes no notice of how items with different keys stand to each other. -/
theorem sortedBy_congr [Std.IsLinearOrder κ] {as bs : List α}
    (h : ∀ k, as.filter (key · = k) = bs.filter (key · = k)) :
    sortedBy key as = sortedBy key bs := by
  refine eq_of_pairwise_le key (pairwise_sortedBy key as) (pairwise_sortedBy key bs) fun k => ?_
  rw [filter_sortedBy, filter_sortedBy, h]

theorem sortedBy_eq_of_perm [Std.IsLinearOrder κ] {as bs : List α} (hperm : as.Perm bs)
    (hn : (as.map key).Nodup) : sortedBy key as = sortedBy key bs :=
  sortedBy_congr key (filter_key_eq_of_perm key hperm hn)

end Stable

/-! ## Dropping repetitions -/

variable (key : α → String)

theorem firstOfRuns_sublist (items : List α) : (firstOfRuns key items).Sublist items := by
  induction items with
  | nil => exact List.nil_sublist []
  | cons item items ih => exact ((List.dropWhile_sublist _).trans ih).cons_cons item

/-- Of each run an item with its key stays. -/
theorem mem_map_firstOfRuns {items : List α} {k : String} :
    k ∈ (firstOfRuns key items).map key ↔ k ∈ items.map key := by
  refine ⟨fun h => ((firstOfRuns_sublist key items).map key).subset h, ?_⟩
  induction items with
  | nil => exact id
  | cons item items ih =>
      intro h
      rcases List.mem_cons.mp h with rfl | h
      · exact List.mem_cons_self
      · by_cases hk : k = key item
        · rw [hk]
          exact List.mem_cons_self
        · obtain ⟨other, hm, rfl⟩ := List.mem_map.mp (ih h)
          refine List.mem_map_of_mem (List.mem_cons_of_mem item ?_)
          rw [← List.takeWhile_append_dropWhile (p := fun a => key a == key item)
            (l := firstOfRuns key items)] at hm
          rcases List.mem_append.mp hm with hm | hm
          · have hsame := List.mem_takeWhile_imp hm
            exact absurd (beq_iff_eq.mp hsame) hk
          · exact hm

/-- In an increasing list only the first item can have the least key. -/
private theorem lt_of_mem_dropWhile {items : List α} {k : String} {item : α}
    (hs : items.Pairwise fun a b => key a < key b) (hk : ∀ a ∈ items, k ≤ key a)
    (hm : item ∈ items.dropWhile fun a => key a == k) : k < key item := by
  cases items with
  | nil => cases hm
  | cons first rest =>
      obtain ⟨hfirst, -⟩ := List.pairwise_cons.mp hs
      have hle : k ≤ key first := hk first List.mem_cons_self
      by_cases he : key first = k
      · rw [List.dropWhile_cons_of_pos (by simpa using he)] at hm
        exact hle.trans_lt (hfirst item ((List.dropWhile_sublist _).subset hm))
      · rw [List.dropWhile_cons_of_neg (by simpa using he)] at hm
        have hlt : k < key first := lt_of_le_of_ne hle (Ne.symm he)
        rcases List.mem_cons.mp hm with rfl | hm
        · exact hlt
        · exact hlt.trans (hfirst item hm)

theorem pairwise_firstOfRuns {items : List α} (hs : items.Pairwise fun a b => key a ≤ key b) :
    (firstOfRuns key items).Pairwise fun a b => key a < key b := by
  induction items with
  | nil => exact List.Pairwise.nil
  | cons item items ih =>
      obtain ⟨hitem, htail⟩ := List.pairwise_cons.mp hs
      have hruns := ih htail
      refine List.pairwise_cons.mpr ⟨?_, hruns.sublist (List.dropWhile_sublist _)⟩
      intro other hm
      refine lt_of_mem_dropWhile key hruns ?_ hm
      intro a ha
      exact hitem a ((firstOfRuns_sublist key items).subset ha)

theorem pairwise_distinctBy (items : List α) :
    (distinctBy key items).Pairwise fun a b => key a < key b :=
  pairwise_firstOfRuns key (pairwise_sortedBy key items)

theorem mem_map_distinctBy {items : List α} {k : String} :
    k ∈ (distinctBy key items).map key ↔ k ∈ items.map key := by
  rw [distinctBy, mem_map_firstOfRuns]
  exact ((sortedBy_perm key items).map key).mem_iff

theorem mem_of_mem_distinctBy {items : List α} {item : α} (h : item ∈ distinctBy key items) :
    item ∈ items :=
  (mem_sortedBy key items).mp ((firstOfRuns_sublist key _).subset h)

theorem distinctBy_eq_of_perm {as bs : List α} (hperm : as.Perm bs) (hn : (as.map key).Nodup) :
    distinctBy key as = distinctBy key bs :=
  congrArg (firstOfRuns key) (sortedBy_eq_of_perm key hperm hn)

theorem firstOfRuns_eq_self {items : List α} (h : items.Pairwise fun a b => key a < key b) :
    firstOfRuns key items = items := by
  induction items with
  | nil => rfl
  | cons item items ih =>
      obtain ⟨hitem, hitems⟩ := List.pairwise_cons.mp h
      rw [firstOfRuns, ih hitems]
      cases items with
      | nil => rfl
      | cons next rest =>
          rw [List.dropWhile_cons_of_neg (by simpa using (hitem next List.mem_cons_self).ne')]

theorem distinctBy_eq_self {items : List α} (h : items.Pairwise fun a b => key a < key b) :
    distinctBy key items = items := by
  rw [distinctBy, sortedBy_eq_self key (h.imp le_of_lt), firstOfRuns_eq_self key h]

theorem map_distinctBy {β : Type} (f : β → α) (items : List β) :
    (distinctBy (fun item => key (f item)) items).map f = distinctBy key (items.map f) := by
  have hruns : ∀ sorted : List β,
      (firstOfRuns (fun item => key (f item)) sorted).map f = firstOfRuns key (sorted.map f) := by
    intro sorted
    induction sorted with
    | nil => rfl
    | cons item sorted ih =>
        rw [List.map_cons, firstOfRuns, firstOfRuns, List.map_cons, ← ih, List.dropWhile_map]
        rfl
  have hsorted : (sortedBy (fun item => key (f item)) items).map f =
      sortedBy key (items.map f) :=
    List.map_mergeSort fun a _ b _ => rfl
  rw [distinctBy, distinctBy, hruns, hsorted]

/-! ## Texts -/

theorem pairwise_sortedTexts (texts : List String) : (sortedTexts texts).Pairwise (· < ·) :=
  pairwise_distinctBy id texts

theorem mem_sortedTexts {texts : List String} {text : String} :
    text ∈ sortedTexts texts ↔ text ∈ texts := by
  have h : text ∈ (distinctBy id texts).map id ↔ text ∈ texts.map id := mem_map_distinctBy id
  rwa [List.map_id, List.map_id] at h

/-- Lists in strict order with the same members are equal. -/
theorem eq_of_pairwise_lt {κ : Type} [LT κ] [Std.Asymm ((· < ·) : κ → κ → Prop)] (key : α → κ)
    {as bs : List α} (ha : as.Pairwise fun a b => key a < key b)
    (hb : bs.Pairwise fun a b => key a < key b) (h : ∀ a, a ∈ as ↔ a ∈ bs) : as = bs := by
  have hne : ∀ {a b : α}, key a < key b → a ≠ b := by
    rintro a _ hlt rfl
    exact Std.Asymm.asymm _ _ hlt hlt
  have hperm : as.Perm bs := (List.perm_ext_iff_of_nodup (ha.imp hne) (hb.imp hne)).mpr h
  exact hperm.eq_of_pairwise (fun a b _ _ hab hba => absurd hba (Std.Asymm.asymm _ _ hab)) ha hb

/-- The order and the number of texts make no difference. -/
theorem sortedTexts_congr {as bs : List String} (h : ∀ text, text ∈ as ↔ text ∈ bs) :
    sortedTexts as = sortedTexts bs := by
  refine eq_of_pairwise_lt id (pairwise_sortedTexts as) (pairwise_sortedTexts bs) ?_
  intro text
  rw [mem_sortedTexts, mem_sortedTexts, h]

/-! ## Pairs -/

theorem mem_of_mem_pairsInOrder {items : List α} {pair : α × α} (h : pair ∈ pairsInOrder items) :
    pair.1 ∈ items ∧ pair.2 ∈ items := by
  induction items with
  | nil => cases h
  | cons item items ih =>
      rcases List.mem_append.mp h with h | h
      · obtain ⟨other, hm, rfl⟩ := List.mem_map.mp h
        exact ⟨List.mem_cons_self, List.mem_cons_of_mem _ hm⟩
      · exact (ih h).imp (List.mem_cons_of_mem _) (List.mem_cons_of_mem _)

section PairsInOrder

variable (key : α → String) {items : List α} (hs : items.Pairwise fun a b => key a ≤ key b)
include hs

theorem le_of_mem_pairsInOrder {pair : α × α} (h : pair ∈ pairsInOrder items) :
    key pair.1 ≤ key pair.2 := by
  induction items with
  | nil => cases h
  | cons item items ih =>
      obtain ⟨hitem, hitems⟩ := List.pairwise_cons.mp hs
      rcases List.mem_append.mp h with h | h
      · obtain ⟨other, hm, rfl⟩ := List.mem_map.mp h
        exact hitem other hm
      · exact ih hitems h

/-- Of items in order each one with a key makes a pair with each one with a greater key. -/
theorem filter_pairsInOrder {j k : String} (hlt : j < k) :
    (pairsInOrder items).filter (fun pair => key pair.1 = j ∧ key pair.2 = k) =
      items.filter (key · = j) ×ˢ items.filter (key · = k) := by
  induction items with
  | nil => rfl
  | cons item items ih =>
      obtain ⟨hitem, hitems⟩ := List.pairwise_cons.mp hs
      rw [pairsInOrder, List.filter_append, ih hitems, List.filter_map]
      by_cases hj : key item = j
      · simp [Function.comp_def, hj, hlt.ne]
      · by_cases hk : key item = k
        · -- The items with the lesser key stand in front.
          have hnone : items.filter (key · = j) = [] := by
            refine List.filter_eq_nil_iff.mpr fun other hm he => ?_
            have hle := hitem other hm
            rw [hk, of_decide_eq_true he] at hle
            exact absurd hle (not_le_of_gt hlt)
          simp [Function.comp_def, hk, hlt.ne', hnone]
        · simp [Function.comp_def, hj, hk]

end PairsInOrder

end CodeAtlas
