import Mathlib.Algebra.Order.Floor.Ring
import Mathlib.Tactic.Ring
import Mathlib.Tactic.Linarith

/-!
# Alignment of points in time

The grid of a period through an anchor, in any ordered field with a floor. A point of the grid is
told by where it lies: `next_unique` and `last_unique` say that only one grid point lies within a
period after, or before, a given point. Read `next_next`.
-/

namespace Alignment

variable {K : Type} [Field K] [LinearOrder K] [IsStrictOrderedRing K] [FloorRing K]

/-- The point lies on the grid of this period through the anchor. -/
def OnGrid (anchor period y : K) : Prop := ∃ k : ℤ, y = anchor + k * period

/-- `y` is the first grid point after `x`. -/
def Next (anchor period x y : K) : Prop := OnGrid anchor period y ∧ x < y ∧ y ≤ x + period

/-- `y` is the last grid point that is not after `x`. -/
def Last (anchor period x y : K) : Prop := OnGrid anchor period y ∧ y ≤ x ∧ x < y + period

/-- The first grid point after `x`, by rounding down. -/
def nextAligned (anchor period x : K) : K := anchor + (⌊(x - anchor) / period⌋ + 1) * period

variable {anchor period x y z : K}

theorem next_aligned (hperiod : 0 < period) :
    Next anchor period x (nextAligned anchor period x) := by
  have hle : ⌊(x - anchor) / period⌋ * period ≤ x - anchor :=
    (le_div_iff₀ hperiod).mp (Int.floor_le _)
  have hlt : x - anchor < (⌊(x - anchor) / period⌋ + 1) * period :=
    (div_lt_iff₀ hperiod).mp (Int.lt_floor_add_one _)
  refine ⟨⟨⌊(x - anchor) / period⌋ + 1, ?_⟩, ?_, ?_⟩
  · unfold nextAligned
    push_cast
    rfl
  · unfold nextAligned
    linarith
  · unfold nextAligned
    linarith

omit [FloorRing K] in
theorem grid_unique (hperiod : 0 < period) (hy : OnGrid anchor period y)
    (hz : OnGrid anchor period z) (hyz : y < z + period) (hzy : z < y + period) : y = z := by
  obtain ⟨k, rfl⟩ := hy
  obtain ⟨l, rfl⟩ := hz
  have hkl : (k : K) < l + 1 := by
    refine lt_of_mul_lt_mul_right ?_ hperiod.le
    linarith
  have hlk : (l : K) < k + 1 := by
    refine lt_of_mul_lt_mul_right ?_ hperiod.le
    linarith
  have hkl' : k < l + 1 := by exact_mod_cast hkl
  have hlk' : l < k + 1 := by exact_mod_cast hlk
  have heq : k = l := by omega
  rw [heq]

omit [FloorRing K] in
/-- Only one grid point is the first after `x`. -/
theorem next_unique (hperiod : 0 < period) (hy : Next anchor period x y)
    (hz : Next anchor period x z) : y = z := by
  obtain ⟨hgy, hlty, hley⟩ := hy
  obtain ⟨hgz, hltz, hlez⟩ := hz
  exact grid_unique hperiod hgy hgz (by linarith) (by linarith)

omit [FloorRing K] [LinearOrder K] [IsStrictOrderedRing K] in
/-- A period after a grid point lies another one. -/
theorem OnGrid.add_period (h : OnGrid anchor period y) : OnGrid anchor period (y + period) := by
  obtain ⟨k, rfl⟩ := h
  refine ⟨k + 1, ?_⟩
  push_cast
  ring

omit [FloorRing K] in
theorem next_next (hperiod : 0 < period) (hy : OnGrid anchor period y)
    (hz : Next anchor period y z) : z = y + period := by
  refine next_unique hperiod hz ⟨hy.add_period, ?_, le_refl _⟩
  linarith

end Alignment
