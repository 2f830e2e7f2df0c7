import SystemsManager.Forecast.Math

/-!
# The fits are optimal

`linear_fit` returns the line with the least squared residuals, and `step_change` the split with the
least squared deviation from the two side means. Read `fits_optimal`. What the code computes from
centred sums and prefix sums is brought to the definitions by `LeastSquares`.
-/

namespace SystemsManager.Forecast

open Python LeastSquares

section Line

theorem clean_perm (points : List (ℚ × ℚ)) : (clean points).Perm points :=
  sorted_by_perm _ _

theorem residuals_perm {points others : List (ℚ × ℚ)} (h : points.Perm others) (a b : ℚ) :
    residuals points a b = residuals others a b :=
  (h.map _).sum_eq

theorem mean_map (f : ℚ × ℚ → ℚ) (pts : List (ℚ × ℚ)) :
    (pts.map f).sum / pts.length = mean (pts.map f) := by
  rw [mean, List.length_map]

/-- Two points with distinct times make a fit possible. -/
theorem times_deviate {pts : List (ℚ × ℚ)} (h : ∃ p ∈ pts, ∃ q ∈ pts, p.1 ≠ q.1) (c : ℚ) :
    0 < squaredDeviation (pts.map Prod.fst) c := by
  obtain ⟨p, hp, q, hq, hne⟩ := h
  by_cases hpc : p.1 = c
  · exact squared_deviation_pos (List.mem_map_of_mem hq) fun hqc => hne (hpc.trans hqc.symm)
  · exact squared_deviation_pos (List.mem_map_of_mem hp) hpc

theorem linear_fit_optimal {points : List (ℚ × ℚ)} (hlength : MIN_POINTS ≤ points.length)
    (htimes : ∃ p ∈ points, ∃ q ∈ points, p.1 ≠ q.1) :
    ∃ fit, linearFit points = some fit ∧
      (∀ a b, residuals points fit.intercept fit.slopePerS ≤ residuals points a b) ∧
      0 ≤ fit.r2 ∧ fit.r2 ≤ 1 := by
  have hperm := clean_perm points
  have hmany : ¬(clean points).length < MIN_POINTS := by
    rw [hperm.length_eq]
    exact not_lt.mpr hlength
  have htimes : ∃ p ∈ clean points, ∃ q ∈ clean points, p.1 ≠ q.1 := by
    obtain ⟨p, hp, q, hq, hne⟩ := htimes
    exact ⟨p, hperm.mem_iff.mpr hp, q, hperm.mem_iff.mpr hq, hne⟩
  unfold linearFit
  simp only [if_neg hmany, mean_map]
  generalize clean points = pts at hperm htimes
  have hsxx : (pts.map fun p => (p.1 - mean (pts.map Prod.fst)) ^ 2).sum =
      squaredDeviation (pts.map Prod.fst) (mean (pts.map Prod.fst)) := by
    rw [squaredDeviation, List.map_map]
    rfl
  have hpos := times_deviate htimes (mean (pts.map Prod.fst))
  rw [hsxx, if_neg (not_le.mpr hpos)]
  refine ⟨_, rfl, fun a b => ?_, ?_, ?_⟩
  · rw [← residuals_perm hperm, ← residuals_perm hperm]
    exact residuals_le (div_mul_cancel₀ _ hpos.ne') a b
  · show 0 ≤ ite _ _ _
    split
    · exact zero_le_one
    · exact le_max_left _ _
  · show ite _ _ _ ≤ (1 : ℚ)
    split
    · exact le_rfl
    · rename_i hsyy
      -- Residuals and deviations are not negative, so their ratio only takes something away.
      have hnonneg : ∀ f : ℚ × ℚ → ℚ, 0 ≤ (pts.map fun p => f p ^ 2).sum := by
        intro f
        refine List.sum_nonneg fun y hy => ?_
        obtain ⟨p, -, rfl⟩ := List.mem_map.mp hy
        exact sq_nonneg _
      have hratio := div_nonneg (hnonneg fun p => p.2 - (mean (pts.map Prod.snd) +
        crossDeviation pts (mean (pts.map Prod.fst)) (mean (pts.map Prod.snd)) /
          squaredDeviation (pts.map Prod.fst) (mean (pts.map Prod.fst)) *
            (p.1 - mean (pts.map Prod.fst)))) (hnonneg fun p => p.2 - mean (pts.map Prod.snd))
      refine max_le zero_le_one ?_
      exact sub_le_self _ hratio

end Line

section Split

/-- The values of a series in the order of time. -/
def seriesValues (points : List (ℚ × ℚ)) : List ℚ := (clean points).map Prod.snd

/-- The squared deviation of the two sides of a split from their means. -/
def splitDeviation (values : List ℚ) (i : ℕ) : ℚ :=
  squaredDeviation (values.take i) (mean (values.take i)) +
    squaredDeviation (values.drop i) (mean (values.drop i))

/-- A slice of the prefix sums gives the squared deviation from its mean. -/
theorem slice_sse_eq {xs : List ℚ} (hxs : xs ≠ []) (c : ℚ) {pre pre2 : List ℚ} {i j : ℕ}
    (hlength : j - i = xs.length) (hpre : pre.getD j 0 - pre.getD i 0 = (xs.map fun x => x - c).sum)
    (hpre2 : pre2.getD j 0 - pre2.getD i 0 = squaredDeviation xs c) :
    sliceSse pre pre2 i j = squaredDeviation xs (mean xs) := by
  rw [squared_deviation_eq hxs c, sliceSse, hlength, hpre, hpre2]
  ring

variable {values : List ℚ} {i : ℕ}

theorem prefix_front (f : ℚ → ℚ) (hi : i ≤ values.length) :
    (prefixSums 0 (values.map f)).getD i 0 - (prefixSums 0 (values.map f)).getD 0 0 =
      ((values.take i).map f).sum := by
  rw [prefix_sums_get _ _ (by rw [List.length_map]; exact hi), prefix_sums_get _ _ (Nat.zero_le _),
    List.map_take]
  simp

theorem prefix_back (f : ℚ → ℚ) (hi : i ≤ values.length) :
    (prefixSums 0 (values.map f)).getD values.length 0 - (prefixSums 0 (values.map f)).getD i 0 =
      ((values.drop i).map f).sum := by
  rw [prefix_sums_get _ _ (by rw [List.length_map]),
    prefix_sums_get _ _ (by rw [List.length_map]; exact hi), List.map_drop]
  have hsplit := congrArg List.sum (List.take_append_drop i (values.map f))
  rw [List.sum_append] at hsplit
  rw [List.take_of_length_le (by rw [List.length_map]), ← hsplit]
  ring

theorem sides_ne_nil (hpos : 0 < i) (hi : i < values.length) :
    values.take i ≠ [] ∧ values.drop i ≠ [] := by
  constructor <;> intro h <;> have hlength := congrArg List.length h
  · rw [List.length_take_of_le hi.le, List.length_nil] at hlength
    omega
  · rw [List.length_drop, List.length_nil] at hlength
    omega

theorem slices_eq (c : ℚ) (hpos : 0 < i) (hi : i < values.length) :
    sliceSse (prefixSums 0 (values.map fun v => v - c))
      (prefixSums 0 (values.map fun v => (v - c) ^ 2))
        0 i +
      sliceSse (prefixSums 0 (values.map fun v => v - c))
        (prefixSums 0 (values.map fun v => (v - c) ^ 2))
        i values.length = splitDeviation values i := by
  obtain ⟨hfront, hback⟩ := sides_ne_nil hpos hi
  have hlength : i - 0 = (values.take i).length := (List.length_take_of_le hi.le).symm
  rw [slice_sse_eq hfront c hlength (prefix_front _ hi.le) (prefix_front _ hi.le),
    slice_sse_eq hback c List.length_drop.symm (prefix_back _ hi.le) (prefix_back _ hi.le)]
  rfl

theorem front_mean (c : ℚ) (hpos : 0 < i) (hi : i < values.length) :
    (prefixSums 0 (values.map fun v => v - c)).getD i 0 / i + c = mean (values.take i) := by
  have hsum := prefix_front (fun v => v - c) hi.le
  rw [prefix_sums_get _ _ (Nat.zero_le _), List.take_zero, List.sum_nil, add_zero, sub_zero] at hsum
  rw [mean_eq (sides_ne_nil hpos hi).1 c, hsum, List.length_take_of_le hi.le]

theorem back_mean (c : ℚ) (hpos : 0 < i) (hi : i < values.length) :
    ((prefixSums 0 (values.map fun v => v - c)).getD values.length 0 -
        (prefixSums 0 (values.map fun v => v - c)).getD i 0) / (values.length - i : ℕ) + c =
      mean (values.drop i) := by
  rw [mean_eq (sides_ne_nil hpos hi).2 c, prefix_back _ hi.le, List.length_drop]

theorem step_change_optimal {points : List (ℚ × ℚ)} {minShift : ℚ} {minSide : ℤ} {step : Step}
    (h : stepChange points minShift minSide = .ok (some step)) :
    ∃ i : ℕ, minSide ≤ i ∧ (i : ℤ) + minSide ≤ points.length ∧
      step.at_ = ((clean points).getD i (0, 0)).1 ∧
      step.before = mean ((seriesValues points).take i) ∧
      step.after = mean ((seriesValues points).drop i) ∧
      ∀ j : ℕ, minSide ≤ j → (j : ℤ) + minSide ≤ points.length →
        splitDeviation (seriesValues points) i ≤ splitDeviation (seriesValues points) j := by
  have hlength : (clean points).length = points.length := (clean_perm points).length_eq
  have hvalues : (seriesValues points).length = points.length := by
    rw [seriesValues, List.length_map, hlength]
  unfold stepChange at h
  dsimp only at h
  rw [hlength, ← hvalues] at h
  change (if ((seriesValues points).length : ℤ) < 2 * minSide then _ else _) = _ at h
  split at h
  · cases h
  · rename_i hmany
    split at h
    · cases h
    · rename_i hside
      split at h
      · cases h
      · rename_i i best hbest
        obtain ⟨hmem, -, hleast⟩ := arg_min_spec _ hbest
        rw [List.mem_range'_1] at hmem
        -- The loop goes over the splits with enough points on each side.
        have hrange : ∀ j : ℕ, minSide ≤ j → (j : ℤ) + minSide ≤ (seriesValues points).length →
            0 < j ∧ j < (seriesValues points).length ∧
              j ∈ List.range' minSide.toNat
                ((seriesValues points).length - minSide.toNat + 1 - minSide.toNat) := by
          intro j hj hj'
          rw [List.mem_range'_1]
          omega
        have hi : minSide ≤ i ∧ (i : ℤ) + minSide ≤ (seriesValues points).length := by
          dsimp only at hmem
          omega
        obtain ⟨hpos, hlt, -⟩ := hrange i hi.1 hi.2
        split at h
        · cases h
        · cases h
          refine ⟨i, hi.1, hvalues ▸ hi.2, rfl, front_mean _ hpos hlt, back_mean _ hpos hlt, ?_⟩
          intro j hj hj'
          rw [← hvalues] at hj'
          obtain ⟨hjpos, hjlt, hjmem⟩ := hrange j hj hj'
          rw [← slices_eq _ hpos hlt, ← slices_eq _ hjpos hjlt]
          exact hleast j hjmem

end Split

/-- Every series with enough points and two distinct times has a fit, no line has smaller squared
residuals, and its share of explained deviation is between 0 and 1; a step that is found splits the
series with the least squared deviation from the means of its sides, among all splits with enough
points on each side, and reports these means. -/
theorem fits_optimal :
    (∀ points : List (ℚ × ℚ), MIN_POINTS ≤ points.length →
      (∃ p ∈ points, ∃ q ∈ points, p.1 ≠ q.1) →
      ∃ fit, linearFit points = some fit ∧
        (∀ a b, residuals points fit.intercept fit.slopePerS ≤ residuals points a b) ∧
        0 ≤ fit.r2 ∧ fit.r2 ≤ 1) ∧
    ∀ (points : List (ℚ × ℚ)) (minShift : ℚ) (minSide : ℤ) (step : Step),
      stepChange points minShift minSide = .ok (some step) →
      ∃ i : ℕ, minSide ≤ i ∧ (i : ℤ) + minSide ≤ points.length ∧
        step.at_ = ((clean points).getD i (0, 0)).1 ∧
        step.before = mean ((seriesValues points).take i) ∧
        step.after = mean ((seriesValues points).drop i) ∧
        ∀ j : ℕ, minSide ≤ j → (j : ℤ) + minSide ≤ points.length →
          splitDeviation (seriesValues points) i ≤ splitDeviation (seriesValues points) j :=
  ⟨fun _ hlength htimes => linear_fit_optimal hlength htimes,
    fun _ _ _ _ h => step_change_optimal h⟩

/-- A series that jumps from 0 to 20 in the middle. -/
def jump : List (ℚ × ℚ) :=
  (List.range 12).map fun k => ((k : ℚ), if k < 6 then 0 else 20)

/-- It has a fit, and its step is found. -/
theorem jump_fits : ∃ fit step, linearFit jump = some fit ∧ stepChange jump 15 6 = .ok (some step) ∧
    (∀ a b, residuals jump fit.intercept fit.slopePerS ≤ residuals jump a b) ∧
    step.before = mean ((seriesValues jump).take 6) := by
  obtain ⟨hlines, hsteps⟩ := fits_optimal
  obtain ⟨fit, hfit, hleast, -⟩ :=
    hlines jump (by decide) ⟨(0, 0), by decide, (1, 0), by decide, by decide⟩
  have hstep : stepChange jump 15 6 = .ok (some ⟨6, 0, 20⟩) := by
    decide +kernel
  obtain ⟨i, hi, hi', -, hbefore, -⟩ := hsteps jump 15 6 _ hstep
  have hlength : jump.length = 12 := by decide
  obtain rfl : i = 6 := by omega
  exact ⟨fit, _, hfit, hstep, hleast, hbefore⟩

end SystemsManager.Forecast
