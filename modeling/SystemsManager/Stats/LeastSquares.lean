import Mathlib.Algebra.Order.Field.Basic
import Mathlib.Algebra.Order.BigOperators.Group.List
import Mathlib.Tactic.Ring
import Mathlib.Tactic.FieldSimp
import Mathlib.Tactic.Linarith

/-!
# Least squares

Sums of squares over lists of numbers and of points: the line with the least squared residuals, the
squared deviation from the mean from plain sums, prefix sums, and the least value over a list. Read
`residuals_le` and `squared_deviation_eq`.
-/

namespace LeastSquares

variable {K : Type} [Field K] [LinearOrder K] [IsStrictOrderedRing K]

/-- The mean of a list. -/
def mean (xs : List K) : K := xs.sum / xs.length

/-- The squared deviation from a number. -/
def squaredDeviation (xs : List K) (c : K) : K := (xs.map fun x => (x - c) ^ 2).sum

/-- The squared residuals of the points from the line `a + b t`. -/
def residuals (points : List (K × K)) (a b : K) : K :=
  (points.map fun p => (p.2 - (a + b * p.1)) ^ 2).sum

omit [LinearOrder K] [IsStrictOrderedRing K] in
theorem sum_sub (xs : List K) (c : K) :
    (xs.map fun x => x - c).sum = xs.sum - xs.length * c := by
  induction xs with
  | nil => simp
  | cons x rest ih =>
      rw [List.map_cons, List.sum_cons, ih, List.sum_cons, List.length_cons]
      push_cast
      ring

theorem sum_sub_mean (xs : List K) : (xs.map fun x => x - mean xs).sum = 0 := by
  rw [sum_sub]
  cases xs with
  | nil => simp [mean]
  | cons x rest =>
      have hlength : (((x :: rest).length : ℕ) : K) ≠ 0 := by
        rw [Nat.cast_ne_zero]
        exact Nat.succ_ne_zero _
      rw [mean, mul_div_cancel₀ _ hlength, sub_self]

/-- A squared deviation is not negative. -/
theorem squared_deviation_nonneg (xs : List K) (c : K) : 0 ≤ squaredDeviation xs c := by
  refine List.sum_nonneg fun y hy => ?_
  obtain ⟨x, -, rfl⟩ := List.mem_map.mp hy
  exact sq_nonneg _

theorem squared_deviation_pos {xs : List K} {c x : K} (hx : x ∈ xs) (hne : x ≠ c) :
    0 < squaredDeviation xs c := by
  have hdiff : x - c ≠ 0 := sub_ne_zero.mpr hne
  have hpos : 0 < (x - c) ^ 2 := by positivity
  refine lt_of_lt_of_le hpos (List.single_le_sum ?_ _ (List.mem_map.mpr ⟨x, hx, rfl⟩))
  intro y hy
  obtain ⟨z, -, rfl⟩ := List.mem_map.mp hy
  exact sq_nonneg _

/-- The sum of the products of the differences of the two coordinates. -/
def crossDeviation (points : List (K × K)) (mx my : K) : K :=
  (points.map fun p => (p.1 - mx) * (p.2 - my)).sum

omit [LinearOrder K] [IsStrictOrderedRing K] in
theorem residuals_expand (points : List (K × K)) (mx my a b : K) :
    residuals points a b =
      squaredDeviation (points.map Prod.snd) my - 2 * b * crossDeviation points mx my +
        b ^ 2 * squaredDeviation (points.map Prod.fst) mx +
        points.length * (a + b * mx - my) ^ 2 -
        2 * (a + b * mx - my) * ((points.map fun p => p.2 - my).sum) +
        2 * b * (a + b * mx - my) * ((points.map fun p => p.1 - mx).sum) := by
  induction points with
  | nil => simp [residuals, squaredDeviation, crossDeviation]
  | cons p rest ih =>
      unfold residuals squaredDeviation crossDeviation at ih ⊢
      simp only [List.map_cons, List.sum_cons, List.length_cons, Nat.cast_succ] at ih ⊢
      rw [ih]
      ring

/-- With the two means the mixed terms vanish, and what is left is a square around the best slope
and one around the best offset. -/
theorem residuals_eq {points : List (K × K)} {a b slope : K}
    (hslope : slope * squaredDeviation (points.map Prod.fst) (mean (points.map Prod.fst)) =
      crossDeviation points (mean (points.map Prod.fst)) (mean (points.map Prod.snd))) :
    residuals points a b =
      squaredDeviation (points.map Prod.snd) (mean (points.map Prod.snd)) -
        slope ^ 2 * squaredDeviation (points.map Prod.fst) (mean (points.map Prod.fst)) +
        squaredDeviation (points.map Prod.fst) (mean (points.map Prod.fst)) * (b - slope) ^ 2 +
        points.length *
          (a + b * mean (points.map Prod.fst) - mean (points.map Prod.snd)) ^ 2 := by
  have hx : (points.map fun p => p.1 - mean (points.map Prod.fst)).sum = 0 := by
    have hsum := sum_sub_mean (points.map Prod.fst)
    rw [List.map_map] at hsum
    exact hsum
  have hy : (points.map fun p => p.2 - mean (points.map Prod.snd)).sum = 0 := by
    have hsum := sum_sub_mean (points.map Prod.snd)
    rw [List.map_map] at hsum
    exact hsum
  rw [residuals_expand points (mean (points.map Prod.fst)) (mean (points.map Prod.snd)), hx, hy,
    ← hslope]
  ring

theorem residuals_le {points : List (K × K)} {slope : K}
    (hslope : slope * squaredDeviation (points.map Prod.fst) (mean (points.map Prod.fst)) =
      crossDeviation points (mean (points.map Prod.fst)) (mean (points.map Prod.snd))) (a b : K) :
    residuals points (mean (points.map Prod.snd) - slope * mean (points.map Prod.fst)) slope ≤
      residuals points a b := by
  rw [residuals_eq hslope, residuals_eq (a := a) (b := b) hslope]
  have hoffset : mean (points.map Prod.snd) - slope * mean (points.map Prod.fst) +
      slope * mean (points.map Prod.fst) - mean (points.map Prod.snd) = 0 := by ring
  have hfirst := mul_nonneg
    (squared_deviation_nonneg (points.map Prod.fst) (mean (points.map Prod.fst)))
    (sq_nonneg (b - slope))
  have hsecond := mul_nonneg (Nat.cast_nonneg (α := K) points.length)
    (sq_nonneg (a + b * mean (points.map Prod.fst) - mean (points.map Prod.snd)))
  rw [hoffset, sub_self]
  linarith

omit [LinearOrder K] [IsStrictOrderedRing K] in
theorem squared_deviation_shift (xs : List K) (c d : K) :
    squaredDeviation xs (c + d) =
      squaredDeviation xs c - 2 * d * (xs.map fun x => x - c).sum + xs.length * d ^ 2 := by
  induction xs with
  | nil => simp [squaredDeviation]
  | cons x rest ih =>
      unfold squaredDeviation at ih ⊢
      simp only [List.map_cons, List.sum_cons, List.length_cons, Nat.cast_succ] at ih ⊢
      rw [ih]
      ring

theorem mean_eq {xs : List K} (hxs : xs ≠ []) (c : K) :
    mean xs = (xs.map fun x => x - c).sum / xs.length + c := by
  have hlength : ((xs.length : ℕ) : K) ≠ 0 := by
    rw [Nat.cast_ne_zero]
    exact fun h => hxs (List.length_eq_zero_iff.mp h)
  rw [sum_sub, mean]
  field_simp
  ring

theorem squared_deviation_eq {xs : List K} (hxs : xs ≠ []) (c : K) :
    squaredDeviation xs (mean xs) =
      squaredDeviation xs c - xs.length * ((xs.map fun x => x - c).sum / xs.length) ^ 2 := by
  have hlength : ((xs.length : ℕ) : K) ≠ 0 := by
    rw [Nat.cast_ne_zero]
    exact fun h => hxs (List.length_eq_zero_iff.mp h)
  rw [mean_eq hxs c, add_comm, squared_deviation_shift]
  field_simp
  ring

/-! ### Prefix sums -/

/-- The sums of the first numbers, with what there was before. -/
def prefixSums (before : K) : List K → List K
  | [] => [before]
  | x :: rest => before :: prefixSums (before + x) rest

omit [LinearOrder K] [IsStrictOrderedRing K] in
theorem prefix_sums_get (before : K) (xs : List K) {i : ℕ} (hi : i ≤ xs.length) :
    (prefixSums before xs).getD i 0 = before + (xs.take i).sum := by
  induction xs generalizing before i with
  | nil =>
      obtain rfl := Nat.le_zero.mp hi
      simp [prefixSums]
  | cons x rest ih =>
      cases i with
      | zero => simp [prefixSums]
      | succ i =>
          rw [List.length_cons, Nat.succ_le_succ_iff] at hi
          show (prefixSums (before + x) rest).getD i 0 = _
          rw [ih _ hi, List.take_succ_cons, List.sum_cons, add_assoc]

/-! ### The least value -/

variable {α : Type}

/-- The loop that keeps the first argument with the least value. -/
def argMin (f : α → K) : List α → Option (α × K) → Option (α × K)
  | [], best => best
  | a :: rest, none => argMin f rest (some (a, f a))
  | a :: rest, some best => argMin f rest (if f a < best.2 then some (a, f a) else some best)

omit [Field K] [IsStrictOrderedRing K] in
theorem arg_min_some (f : α → K) (values : List α) {best : α × K} (hbest : best.2 = f best.1) :
    ∃ found, argMin f values (some best) = some found ∧ found.2 = f found.1 ∧
      (found.1 = best.1 ∨ found.1 ∈ values) ∧ found.2 ≤ best.2 ∧ ∀ a ∈ values, found.2 ≤ f a := by
  induction values generalizing best with
  | nil => exact ⟨best, rfl, hbest, Or.inl rfl, le_rfl, fun a ha => by cases ha⟩
  | cons a rest ih =>
      rw [argMin]
      split
      · rename_i hless
        obtain ⟨found, hfound, hvalue, hmem, hle, hall⟩ := @ih (a, f a) rfl
        refine ⟨found, hfound, hvalue, Or.inr ?_, hle.trans hless.le, ?_⟩
        · rcases hmem with hmem | hmem
          · exact hmem ▸ List.mem_cons_self ..
          · exact List.mem_cons_of_mem _ hmem
        · rintro b (_ | ⟨_, hb⟩)
          · exact hle
          · exact hall b hb
      · rename_i hless
        obtain ⟨found, hfound, hvalue, hmem, hle, hall⟩ := ih hbest
        refine ⟨found, hfound, hvalue, hmem.imp_right (List.mem_cons_of_mem _), hle, ?_⟩
        rintro b (_ | ⟨_, hb⟩)
        · exact hle.trans (not_lt.mp hless)
        · exact hall b hb

omit [Field K] [IsStrictOrderedRing K] in
/-- The least value over a list. -/
theorem arg_min_spec (f : α → K) {values : List α} {found : α × K}
    (h : argMin f values none = some found) :
    found.1 ∈ values ∧ found.2 = f found.1 ∧ ∀ a ∈ values, f found.1 ≤ f a := by
  cases values with
  | nil => cases h
  | cons a rest =>
      obtain ⟨found', hfound, hvalue, hmem, hle, hall⟩ :=
        @arg_min_some _ _ _ f rest (a, f a) rfl
      have hsame : argMin f (a :: rest) none = some found' := hfound
      rw [h] at hsame
      cases hsame
      refine ⟨?_, hvalue, ?_⟩
      · rcases hmem with hmem | hmem
        · exact hmem ▸ List.mem_cons_self ..
        · exact List.mem_cons_of_mem _ hmem
      · rintro b (_ | ⟨_, hb⟩)
        · exact hvalue ▸ hle
        · exact hvalue ▸ hall b hb

end LeastSquares
