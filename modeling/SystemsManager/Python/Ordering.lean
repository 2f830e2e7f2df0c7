import Mathlib.Data.List.Nodup
import SystemsManager.Python.Value

/-!
# Keeping the first, and stable sorting

`distinctBy` keeps the first of the elements with one key, as a loop does that notes the keys it has
seen. `sortedBy` is stable: read `sorted_by_split`, by which a sort falls into the sorts of its
parts, and `sorted_by_const`, by which a part with one key stays as it is.
-/

namespace Python

variable {α κ : Type}

section Distinct

variable [DecidableEq κ] {key : α → κ}

/-- The first element for each key. -/
def distinctBy (key : α → κ) : List α → List α
  | [] => []
  | a :: rest => a :: (distinctBy key rest).filter fun b => key b ≠ key a

/-- The elements that are kept are some of them, in their order. -/
theorem distinct_by_sublist (values : List α) : (distinctBy key values).Sublist values := by
  induction values with
  | nil => exact List.Sublist.refl _
  | cons a rest ih => exact (List.filter_sublist.trans ih).cons_cons a

theorem nodup_distinct_by (values : List α) : ((distinctBy key values).map key).Nodup := by
  induction values with
  | nil => exact List.nodup_nil
  | cons a rest ih =>
      rw [distinctBy, List.map_cons, List.nodup_cons]
      refine ⟨fun hmem => ?_, (List.filter_sublist.map key).nodup ih⟩
      obtain ⟨b, hb, hkey⟩ := List.mem_map.mp hmem
      exact of_decide_eq_true (List.mem_filter.mp hb).2 hkey

/-- Every key is among theirs. -/
theorem exists_distinct_by {values : List α} {a : α} (h : a ∈ values) :
    ∃ b ∈ distinctBy key values, key b = key a := by
  induction values with
  | nil => cases h
  | cons first rest ih =>
      by_cases hfirst : key first = key a
      · exact ⟨first, List.mem_cons_self, hfirst⟩
      · rcases List.mem_cons.mp h with rfl | hmem
        · exact absurd rfl hfirst
        · obtain ⟨b, hb, hkey⟩ := ih hmem
          refine ⟨b, List.mem_cons_of_mem _ (List.mem_filter.mpr ⟨hb, decide_eq_true ?_⟩), hkey⟩
          rw [hkey]
          exact Ne.symm hfirst

/-- Where the key tells the elements apart, all of them are kept. -/
theorem mem_distinct_by {values : List α} {a : α}
    (hkey : ∀ b ∈ values, ∀ c ∈ values, key b = key c → b = c) :
    a ∈ distinctBy key values ↔ a ∈ values := by
  refine ⟨fun h => (distinct_by_sublist values).subset h, fun h => ?_⟩
  have hkept : ∃ b ∈ distinctBy key values, key b = key a := exists_distinct_by h
  obtain ⟨b, hb, hsame⟩ := hkept
  exact hkey b ((distinct_by_sublist values).subset hb) a h hsame ▸ hb

/-- What a loop has kept of some elements, and the next one. -/
theorem distinct_by_concat (values : List α) (a : α) : distinctBy key (values ++ [a]) =
    if key a ∈ (distinctBy key values).map key then distinctBy key values
    else distinctBy key values ++ [a] := by
  induction values with
  | nil => rfl
  | cons first rest ih =>
      rw [List.cons_append, distinctBy, ih, distinctBy, List.map_cons]
      by_cases hfirst : key a = key first
      · rw [if_pos (List.mem_cons.mpr (Or.inl hfirst))]
        split
        · rfl
        · rw [List.filter_append, List.filter_singleton, decide_eq_false (not_not.mpr hfirst)]
          exact congrArg (first :: ·) (List.append_nil _)
      · have hmem : key a ∈ ((distinctBy key rest).filter fun b => key b ≠ key first).map key ↔
            key a ∈ (distinctBy key rest).map key := by
          constructor
          · intro h
            exact (List.filter_sublist.map key).subset h
          · intro h
            obtain ⟨b, hb, hkey⟩ := List.mem_map.mp h
            refine List.mem_map.mpr ⟨b, List.mem_filter.mpr ⟨hb, decide_eq_true ?_⟩, hkey⟩
            rw [hkey]
            exact hfirst
        by_cases hrest : key a ∈ (distinctBy key rest).map key
        · rw [if_pos hrest, if_pos (List.mem_cons.mpr (Or.inr (hmem.mpr hrest)))]
        · rw [if_neg hrest, if_neg fun h => (List.mem_cons.mp h).elim hfirst fun h =>
            hrest (hmem.mp h),
            List.filter_append, List.filter_singleton, decide_eq_true hfirst]
          rfl

end Distinct

section Sorted

variable [LinearOrder κ] {key : α → κ}

/-- An element goes before those that are not smaller. -/
theorem ordered_insert_append_left {a : α} {low high : List α} (h : ∀ b ∈ high, key a ≤ key b) :
    (low ++ high).orderedInsert (fun a b => key a ≤ key b) a =
      low.orderedInsert (fun a b => key a ≤ key b) a ++ high := by
  induction low with
  | nil =>
      cases high with
      | nil => rfl
      | cons b high => exact if_pos (h b List.mem_cons_self)
  | cons first low ih =>
      rw [List.cons_append, List.orderedInsert_cons, List.orderedInsert_cons]
      split
      · rfl
      · rw [ih]
        rfl

/-- It goes after those that are smaller. -/
theorem ordered_insert_append_right {a : α} {low high : List α} (h : ∀ b ∈ low, key b < key a) :
    (low ++ high).orderedInsert (fun a b => key a ≤ key b) a =
      low ++ high.orderedInsert (fun a b => key a ≤ key b) a := by
  induction low with
  | nil => rfl
  | cons first low ih =>
      rw [List.cons_append, List.orderedInsert_cons,
        if_neg (not_le.mpr (h first List.mem_cons_self)),
        ih fun b hb => h b (List.mem_cons_of_mem _ hb)]
      rfl

/-- The elements with the smaller keys come first, and both parts are sorted on their own. -/
theorem sorted_by_split {p : α → Bool} {values : List α}
    (h : ∀ a ∈ values, ∀ b ∈ values, p a = true → p b = false → key a < key b) :
    sortedBy key values = sortedBy key (values.filter p) ++
      sortedBy key (values.filter fun a => !p a) := by
  induction values with
  | nil => rfl
  | cons a rest ih =>
      have hrest := ih fun b hb c hc =>
        h b (List.mem_cons_of_mem _ hb) c (List.mem_cons_of_mem _ hc)
      have hinsert : sortedBy key (a :: rest) =
          (sortedBy key rest).orderedInsert (fun a b => key a ≤ key b) a := rfl
      rw [hinsert, hrest]
      cases hp : p a with
      | true =>
          rw [List.filter_cons_of_pos hp, List.filter_cons_of_neg (by rw [hp]; decide)]
          refine ordered_insert_append_left fun b hb => le_of_lt ?_
          rw [mem_sorted_by, List.mem_filter] at hb
          exact h a List.mem_cons_self b (List.mem_cons_of_mem _ hb.1) hp
            ((Bool.not_eq_true' _).mp hb.2)
      | false =>
          rw [List.filter_cons_of_neg (by
            rw [hp]; decide), List.filter_cons_of_pos (by rw [hp]; rfl)]
          refine ordered_insert_append_right fun b hb => ?_
          rw [mem_sorted_by, List.mem_filter] at hb
          exact h b (List.mem_cons_of_mem _ hb.1) a List.mem_cons_self hb.2 hp

theorem sorted_by_const {values : List α} (h : ∀ a ∈ values, ∀ b ∈ values, key a = key b) :
    sortedBy key values = values :=
  List.Pairwise.insertionSort_eq (List.pairwise_of_forall_mem_list fun a ha b hb =>
    le_of_eq (h a ha b hb))

end Sorted

end Python
