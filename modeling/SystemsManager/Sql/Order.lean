import Mathlib.Data.List.Sort

/-!
# Listings with an order and a limit

`ORDER BY ... LIMIT n` lists the first `n` rows of the sorted table, and rows that the order does
not tell apart stay as they stand in the table. `mem_take_iff_ahead` says which rows are listed:
those with fewer than `n` rows ahead of them.
-/

namespace Sql

variable {ρ : Type} (r : ρ → ρ → Prop) [DecidableRel r]

/-- The number of rows ahead of a row that stands between these rows of a table: those before it
that may come first, and those after it that must. -/
def ahead (front : List ρ) (row : ρ) (back : List ρ) : Nat :=
  (front.countP fun other => decide (r other row)) + back.countP fun other => !decide (r row other)

variable [IsTrans ρ r]

theorem take_while_eq_filter {row : ρ} {rows : List ρ} (hsorted : rows.Pairwise r) :
    (rows.takeWhile fun other => !decide (r row other)) =
      rows.filter fun other => !decide (r row other) := by
  induction rows with
  | nil => rfl
  | cons first rows ih =>
      rw [List.pairwise_cons] at hsorted
      by_cases hfirst : r row first
      · have hrest : ∀ other ∈ first :: rows, ¬ (!decide (r row other)) = true := by
          intro other hother
          rcases List.mem_cons.mp hother with rfl | hother
          · simp [hfirst]
          · simp [IsTrans.trans row first other hfirst (hsorted.1 other hother)]
        rw [List.filter_eq_nil_iff.mpr hrest, List.takeWhile_cons_of_neg (by simp [hfirst])]
      · rw [List.takeWhile_cons_of_pos (by
          simp [hfirst]), List.filter_cons_of_pos (by simp [hfirst]),
          ih hsorted.2]

variable [Std.Total r]

/-- Where a row stands in the listing. -/
theorem sort_split (front : List ρ) (row : ρ) (back : List ρ) :
    ∃ first rest, (front ++ row :: back).insertionSort r = first ++ row :: rest ∧
      first.length = ahead r front row back := by
  induction front with
  | nil =>
      refine ⟨_, _, List.insertionSort_cons_eq_take_drop r row back, ?_⟩
      have hperm := (List.perm_insertionSort r back).countP_eq fun other => !decide (r row other)
      rw [ahead, List.countP_nil, Nat.zero_add, ← hperm, List.countP_eq_length_filter,
        ← take_while_eq_filter r (List.pairwise_insertionSort r back)]
      simp
  | cons other front ih =>
      obtain ⟨first, rest, hsort, hlength⟩ := ih
      have hsorted : (first ++ row :: rest).Pairwise r := by
        rw [← hsort]
        exact List.pairwise_insertionSort r _
      have hbefore : ∀ y ∈ first, r y row := by
        intro y hy
        exact (List.pairwise_append.mp hsorted).2.2 y hy row (List.mem_cons_self ..)
      rw [List.cons_append, List.insertionSort_cons, hsort]
      by_cases hother : r other row
      · -- The other row goes somewhere before this one.
        have hcount : ahead r (other :: front) row back = ahead r front row back + 1 := by
          simp only [ahead, List.countP_cons, hother, decide_true, if_true]
          omega
        have hinsert : ∀ first : List ρ, ∃ first', first'.length = first.length + 1 ∧
            (first ++ row :: rest).orderedInsert r other = first' ++ row :: rest := by
          intro first
          induction first with
          | nil => exact ⟨[other], rfl, by simp [hother]⟩
          | cons y first ih =>
              by_cases hy : r other y
              · exact ⟨other :: y :: first, rfl, by simp [hy]⟩
              · obtain ⟨first', hlength', hfirst'⟩ := ih
                exact ⟨y :: first', by simp [hlength'], by simp [hy, hfirst']⟩
        obtain ⟨first', hlength', hfirst'⟩ := hinsert first
        exact ⟨first', rest, hfirst', by omega⟩
      · have hcount : ahead r (other :: front) row back = ahead r front row back := by
          simp [ahead, hother]
        have hinsert : ∀ first : List ρ, (∀ y ∈ first, r y row) →
            (first ++ row :: rest).orderedInsert r other =
              first ++ row :: rest.orderedInsert r other := by
          intro first
          induction first with
          | nil => intro _; simp [hother]
          | cons y first ih =>
              intro hall
              have hy : ¬ r other y := fun hy =>
                hother (IsTrans.trans other y row hy (hall y (List.mem_cons_self ..)))
              simp [hy, ih fun z hz => hall z (List.mem_cons_of_mem _ hz)]
        exact ⟨first, rest.orderedInsert r other, hinsert first hbefore, by omega⟩

theorem mem_take_iff_ahead {front back : List ρ} {row : ρ} {limit : Nat}
    (hnodup : (front ++ row :: back).Nodup) :
    row ∈ ((front ++ row :: back).insertionSort r).take limit ↔
      ahead r front row back < limit := by
  obtain ⟨first, rest, hsort, hlength⟩ := sort_split r front row back
  have hsorted : (first ++ row :: rest).Nodup := by
    rw [← hsort]
    exact (List.perm_insertionSort r _).nodup_iff.mpr hnodup
  rw [hsort, ← hlength]
  have hfirst : row ∉ first := by
    intro hmem
    exact (List.nodup_append.mp hsorted).2.2 row hmem row (List.mem_cons_self ..) rfl
  constructor
  · intro hmem
    by_contra hle
    rw [not_lt] at hle
    rw [List.take_append_of_le_length hle] at hmem
    exact hfirst (List.mem_of_mem_take hmem)
  · intro hlt
    rw [List.take_append, List.mem_append]
    right
    obtain ⟨n, hn⟩ := Nat.exists_eq_add_of_lt hlt
    rw [hn, show first.length + n + 1 - first.length = n + 1 by omega, List.take_succ_cons]
    exact List.mem_cons_self ..

end Sql
