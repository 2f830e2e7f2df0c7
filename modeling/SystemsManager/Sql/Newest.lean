import Mathlib.Data.List.Basic
import Mathlib.Data.List.Sublists

/-!
# Keeping the newest rows

`DELETE … WHERE mine AND id NOT IN (SELECT id … WHERE mine ORDER BY id DESC LIMIT n)` on a table
whose rows are listed from the newest to the oldest: of the rows that are `mine` only the first `n`
stay, and those that are `spared` whatever their rank. Read `keep_newest_of_rank` first.
-/

namespace Sql

variable {ρ : Type} (mine spared : ρ → Bool)

/-- The rows that are left when only the newest `n` of a kind may stay. -/
def keepNewest : ℕ → List ρ → List ρ
  | _, [] => []
  | 0, row :: rest =>
      if mine row && !spared row then keepNewest 0 rest else row :: keepNewest 0 rest
  | n + 1, row :: rest => row :: keepNewest (if mine row then n else n + 1) rest

variable {mine spared}

attribute [local simp] keepNewest in
/-- Nothing is moved or made up. -/
theorem keep_newest_sublist (n : ℕ) (rows : List ρ) :
    (keepNewest mine spared n rows).Sublist rows := by
  induction rows generalizing n with
  | nil => cases n <;> exact List.Sublist.refl _
  | cons row rest ih =>
      cases n with
      | zero =>
          rw [keepNewest]
          split
          · exact (ih 0).cons row
          · exact (ih 0).cons_cons row
      | succ n => exact (ih _).cons_cons row

theorem mem_of_keep_newest {n : ℕ} {rows : List ρ} {row : ρ}
    (h : row ∈ keepNewest mine spared n rows) : row ∈ rows :=
  (keep_newest_sublist n rows).subset h

theorem keep_newest_others {n : ℕ} {rows : List ρ} {row : ρ} (h : row ∈ rows)
    (hrow : mine row = false ∨ spared row = true) : row ∈ keepNewest mine spared n rows := by
  induction rows generalizing n with
  | nil => cases h
  | cons first rest ih =>
      cases n with
      | zero =>
          rw [keepNewest]
          rcases List.mem_cons.mp h with rfl | h
          · have hstays : (mine row && !spared row) = false := by
              rcases hrow with hrow | hrow <;> simp [hrow]
            simp [hstays]
          · split
            · exact ih h
            · exact List.mem_cons_of_mem _ (ih h)
      | succ n =>
          rcases List.mem_cons.mp h with rfl | h
          · exact List.mem_cons_self ..
          · exact List.mem_cons_of_mem _ (ih h)

theorem keep_newest_of_rank {n : ℕ} {newer older : List ρ} {row : ρ}
    (h : (newer.filter mine).length < n) :
    row ∈ keepNewest mine spared n (newer ++ row :: older) := by
  induction newer generalizing n with
  | nil =>
      cases n with
      | zero => exact absurd h (Nat.not_lt_zero _)
      | succ n => exact List.mem_cons_self ..
  | cons first rest ih =>
      cases n with
      | zero => exact absurd h (Nat.not_lt_zero _)
      | succ n =>
          refine List.mem_cons_of_mem _ (ih ?_)
          split
          · rename_i hmine
            rw [List.filter_cons_of_pos hmine, List.length_cons] at h
            exact Nat.lt_of_succ_lt_succ h
          · rename_i hmine
            rwa [List.filter_cons_of_neg hmine] at h

/-- Without spared rows at most `n` of the kind stay. -/
theorem length_keep_newest (n : ℕ) (rows : List ρ) :
    ((keepNewest mine (fun _ => false) n rows).filter mine).length ≤ n := by
  induction rows generalizing n with
  | nil => cases n <;> exact Nat.zero_le _
  | cons row rest ih =>
      cases n with
      | zero =>
          by_cases hmine : mine row = true
          · simpa [keepNewest, hmine] using ih 0
          · simpa [keepNewest, hmine] using ih 0
      | succ n =>
          by_cases hmine : mine row = true
          · have hrest := ih n
            simp only [keepNewest, hmine, if_true, List.filter_cons_of_pos, List.length_cons]
            omega
          · simpa [keepNewest, hmine] using ih (n + 1)

theorem keep_newest_eq {n : ℕ} {rows : List ρ} (h : (rows.filter mine).length ≤ n) :
    keepNewest mine spared n rows = rows := by
  induction rows generalizing n with
  | nil => cases n <;> rfl
  | cons row rest ih =>
      by_cases hmine : mine row = true
      · rw [List.filter_cons_of_pos hmine, List.length_cons] at h
        cases n with
        | zero => omega
        | succ n => rw [keepNewest, if_pos hmine, ih (by omega)]
      · rw [List.filter_cons_of_neg hmine] at h
        cases n with
        | zero => simp [keepNewest, hmine, ih h]
        | succ n => rw [keepNewest, if_neg hmine, ih h]

end Sql
