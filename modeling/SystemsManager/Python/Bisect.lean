import Mathlib.Data.List.TakeWhile
import SystemsManager.Python.Value

/-!
# Binary search

`bisect_left` halves a range of positions until it is empty. On a sorted list it finds the first
position whose value is not smaller; read `drop_bisect_left`: what stands from there on are the
values that are at least the one searched for.
-/

namespace Python

variable {α κ : Type} [LinearOrder κ]

/-- The loop of `bisect_left`, with the positions that are still in question. -/
def bisectFrom (l : List κ) (x : κ) (lo hi : ℕ) : ℕ :=
  if lo < hi then
    let mid := (lo + hi) / 2
    if l[mid]?.any (· < x) then bisectFrom l x (mid + 1) hi else bisectFrom l x lo mid
  else lo
termination_by hi - lo

/-- `bisect_left(l, x)` -/
def bisectLeft (l : List κ) (x : κ) : ℕ := bisectFrom l x 0 l.length

/-- The values before a position are smaller, and those from it on are not. -/
structure Splits (l : List κ) (x : κ) (i : ℕ) : Prop where
  below : ∀ j v, j < i → l[j]? = some v → v < x
  above : ∀ j v, i ≤ j → l[j]? = some v → x ≤ v

/-- A sorted list grows along its positions. -/
theorem le_of_positions {l : List κ} (hsorted : l.Pairwise (· ≤ ·)) {i j : ℕ}
    {v w : κ} (hij : i ≤ j)
    (hi : l[i]? = some v) (hj : l[j]? = some w) : v ≤ w := by
  obtain ⟨hi', rfl⟩ := List.getElem?_eq_some_iff.mp hi
  obtain ⟨hj', rfl⟩ := List.getElem?_eq_some_iff.mp hj
  rcases Nat.eq_or_lt_of_le hij with heq | hlt
  · subst heq
    exact le_refl _
  · exact List.pairwise_iff_getElem.mp hsorted i j hi' hj' hlt

/-- The loop keeps the values before `lo` smaller and those from `hi` on not smaller, and ends where
the two meet. -/
theorem bisect_from_splits {l : List κ} {x : κ} (hsorted : l.Pairwise (· ≤ ·)) (lo hi : ℕ)
    (hle : lo ≤ hi) (hhi : hi ≤ l.length) (hbelow : ∀ j v, j < lo → l[j]? = some v → v < x)
    (habove : ∀ j v, hi ≤ j → l[j]? = some v → x ≤ v) : Splits l x (bisectFrom l x lo hi) := by
  induction lo, hi using bisectFrom.induct l x with
  | case1 lo hi hlt mid hsmall ih =>
      rw [bisectFrom, if_pos hlt]
      simp only
      rw [if_pos hsmall]
      refine ih (by omega) hhi (fun j v hj hv => ?_) habove
      -- what stands before a smaller value is smaller
      obtain ⟨w, hw, hwx⟩ := Option.any_eq_true _ _ |>.mp hsmall
      exact lt_of_le_of_lt (le_of_positions hsorted (by omega) hv hw) (of_decide_eq_true hwx)
  | case2 lo hi hlt mid hlarge ih =>
      rw [bisectFrom, if_pos hlt]
      simp only
      rw [if_neg hlarge]
      refine ih (by omega) (by omega) hbelow fun j v hj hv => ?_
      have hmid : mid < l.length := by omega
      have hw : l[mid]? = some l[mid] := List.getElem?_eq_getElem hmid
      have hxw : x ≤ l[mid] := by
        rw [hw, Option.any_some] at hlarge
        exact not_lt.mp fun hlt => hlarge (decide_eq_true hlt)
      exact le_trans hxw (le_of_positions hsorted hj hw hv)
  | case3 lo hi hstop =>
      rw [bisectFrom, if_neg hstop]
      have hmeet : lo = hi := by omega
      subst hmeet
      exact ⟨hbelow, habove⟩

/-- On a sorted list `bisect_left` finds where the values begin that are not smaller. -/
theorem bisect_left_splits {l : List κ} (hsorted : l.Pairwise (· ≤ ·)) (x : κ) :
    Splits l x (bisectLeft l x) := by
  refine bisect_from_splits hsorted 0 l.length (Nat.zero_le _) le_rfl ?_ ?_
  · intro j v hj
    omega
  · intro j v hj hv
    obtain ⟨hj', -⟩ := List.getElem?_eq_some_iff.mp hv
    omega

/-- A position that splits the keys of a list cuts off the elements with smaller keys. -/
theorem Splits.drop_eq {l : List α} {key : α → κ} {x : κ} {i : ℕ} (h : Splits (l.map key) x i) :
    l.drop i = l.filter fun a => x ≤ key a := by
  have hbelow : (l.take i).filter (fun a => decide (x ≤ key a)) = [] := by
    rw [List.filter_eq_nil_iff]
    intro a ha hle
    obtain ⟨j, hj, hget⟩ := List.getElem_of_mem ha
    rw [List.length_take] at hj
    have hkey : (l.map key)[j]? = some (key a) := by
      rw [List.getElem?_map, List.getElem?_eq_getElem (by omega), ← hget, List.getElem_take]
      rfl
    exact absurd (h.below j _ (by omega) hkey) (not_lt.mpr (of_decide_eq_true hle))
  have habove : (l.drop i).filter (fun a => decide (x ≤ key a)) = l.drop i := by
    rw [List.filter_eq_self]
    intro a ha
    obtain ⟨j, hj, hget⟩ := List.getElem_of_mem ha
    rw [List.length_drop] at hj
    have hkey : (l.map key)[i + j]? = some (key a) := by
      rw [List.getElem?_map, List.getElem?_eq_getElem (by omega), ← hget, List.getElem_drop]
      rfl
    exact decide_eq_true (h.above (i + j) _ (by omega) hkey)
  calc l.drop i = (l.drop i).filter (fun a => decide (x ≤ key a)) := habove.symm
    _ = (l.take i ++ l.drop i).filter (fun a => decide (x ≤ key a)) := by
        rw [List.filter_append, hbelow, List.nil_append]
    _ = l.filter (fun a => decide (x ≤ key a)) := by rw [List.take_append_drop]

theorem drop_bisect_left {l : List α} {key : α → κ} (hsorted : l.Pairwise fun a b => key a ≤ key b)
    (x : κ) : l.drop (bisectLeft (l.map key) x) = l.filter fun a => x ≤ key a :=
  (bisect_left_splits (List.pairwise_map.mpr hsorted) x).drop_eq

end Python
