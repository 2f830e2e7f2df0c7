import Mathlib.Algebra.Order.Ring.Rat
import Mathlib.Data.Prod.Lex
import Mathlib.Data.Rat.Floor
import Mathlib.Data.Finset.Sort
import Mathlib.Data.Finset.Prod
import Mathlib.Data.String.Basic
import SystemsManager.Python.Dict
import SystemsManager.Python.Value
import SystemsManager.Stats.LeastSquares

/-!
# Forecast math

`backend/forecast_math.py` and the bucket prefilter of `backend/forecast_checks.py`, over exact
numbers: points are pairs of a time and a value, and a comparison with a square root is one of
squares.
-/

namespace SystemsManager.Forecast

open Python LeastSquares

/-- `MIN_POINTS` -/
def MIN_POINTS : ℕ := 8

/-- A fitted line. -/
structure Fit where
  slopePerS : ℚ
  intercept : ℚ
  r2 : ℚ
  n : ℕ
  deriving DecidableEq

/-- `Fit.at` -/
def Fit.at_ (fit : Fit) (ts : ℚ) : ℚ := fit.intercept + fit.slopePerS * ts

/-- A step in a series. -/
structure Step where
  at_ : ℚ
  before : ℚ
  after : ℚ
  deriving DecidableEq

/-- `clean`: the points in order. -/
def clean (points : List (ℚ × ℚ)) : List (ℚ × ℚ) := sortedBy (fun p => toLex p) points

/-- `linear_fit` -/
def linearFit (points : List (ℚ × ℚ)) : Option Fit :=
  let pts := clean points
  let n := pts.length
  if n < MIN_POINTS then none
  else
    let mx := (pts.map Prod.fst).sum / n
    let my := (pts.map Prod.snd).sum / n
    let sxx := (pts.map fun p => (p.1 - mx) ^ 2).sum
    if sxx ≤ 0 then none
    else
      let slope := (pts.map fun p => (p.1 - mx) * (p.2 - my)).sum / sxx
      let syy := (pts.map fun p => (p.2 - my) ^ 2).sum
      let sse := (pts.map fun p => (p.2 - (my + slope * (p.1 - mx))) ^ 2).sum
      let r2 := if syy ≤ (1 / 10 ^ 12 : ℚ) then 1 else max 0 (1 - sse / syy)
      some { slopePerS := slope, intercept := my - slope * mx, r2 := r2, n := n }

/-- `sse(i, j)` from the prefix sums. -/
def sliceSse (pre pre2 : List ℚ) (i j : ℕ) : ℚ :=
  let m := (pre.getD j 0 - pre.getD i 0) / (j - i : ℕ)
  (pre2.getD j 0 - pre2.getD i 0) - (j - i : ℕ) * m * m

/-- `step_change`; a side without points divides by zero. -/
def stepChange (points : List (ℚ × ℚ)) (minShift : ℚ) (minSide : ℤ) :
    Except String (Option Step) :=
  let pts := clean points
  let n := pts.length
  if (n : ℤ) < 2 * minSide then .ok none
  else if minSide ≤ 0 then .error "division by zero"
  else
    let side := minSide.toNat
    let vals := pts.map Prod.snd
    let mean := vals.sum / n
    let pre := prefixSums 0 (vals.map fun v => v - mean)
    let pre2 := prefixSums 0 (vals.map fun v => (v - mean) ^ 2)
    match argMin (fun i => sliceSse pre pre2 0 i + sliceSse pre pre2 i n)
        (List.range' side (n - side + 1 - side)) none with
    | none => .ok none
    | some (i, best) =>
        let before := pre.getD i 0 / i + mean
        let after := (pre.getD n 0 - pre.getD i 0) / (n - i : ℕ) + mean
        let shift := |after - before|
        -- `shift < 3 * pooled`, where `pooled` is the square root of this.
        let pooled2 := max best 0 / max 1 (n - 2 : ℕ)
        let linear := (linearFit pts).map fun fit => (pts.map fun p => (p.2 - fit.at_ p.1) ^ 2).sum
        if shift < minShift ∨ shift ^ 2 < 9 * pooled2 ∨ linear.any fun sse =>
          sse ≤ best then .ok none
        else .ok (some { at_ := (pts.getD i (0, 0)).1, before := before, after := after })

/-- The first of the sorted times that is not earlier than this, and those after it. -/
def dropEarlier (from_ : ℚ) : List ℚ → List ℚ
  | [] => []
  | s :: rest => if s < from_ then dropEarlier from_ rest else s :: rest

/-- The loop of `cofire`: `b` are the times that the second pointer has not passed. -/
def cofireHits (withinS : ℚ) : List ℚ → List ℚ → ℕ
  | [], _ => 0
  | t :: rest, b =>
      let b := dropEarlier (nearestFloat (t - withinS)) b
      (if b.head?.any fun s => |nearestFloat (s - t)| ≤ withinS then 1 else 0) +
        cofireHits withinS rest b

/-- `cofire` -/
def cofire (a b : List ℚ) (withinS : ℚ) : ℚ :=
  let a := sortedBy id a
  let b := sortedBy id b
  if a = [] then 0 else nearestFloat (cofireHits withinS a b / a.length)

/-- `int(t // within_s)` for a positive `within_s`: the remainder is exact, and the quotient is
rounded and then taken to the next integer below it, or above it where that is nearer. -/
def floorDiv (t withinS : ℚ) : ℤ :=
  let quotient := t / withinS
  let whole := if 0 ≤ quotient then ⌊quotient⌋ else ⌈quotient⌉
  let remainder := t - withinS * whole
  let div := nearestFloat (nearestFloat (t - remainder) / withinS)
  let div := if remainder < 0 then nearestFloat (div - 1) else div
  if 1 / 2 < nearestFloat (div - ⌊div⌋) then ⌊div⌋ + 1 else ⌊div⌋

/-- The rules that have an alert in each bucket of `_cofire_candidates`. -/
def cofireIndex (rules : Dict String (List ℚ)) (withinS : ℚ) : Dict ℤ (Finset String) :=
  rules.items.foldl (fun index rule =>
    rule.2.foldl (fun index t =>
      index.set (floorDiv t withinS) (insert rule.1 (index.getD (floorDiv t withinS) ∅))) index) ∅

/-- The pairs of a rule of one bucket with another of this bucket or of the next, in order. -/
def bucketPairs (index : Dict ℤ (Finset String)) (k : ℤ) (here : Finset String) :
    Finset (String × String) :=
  let near := here ∪ index.getD (k + 1) ∅
  ((here ×ˢ near).filter fun p => p.2 ≠ p.1).image fun p =>
    if p.1 < p.2 then (p.1, p.2) else (p.2, p.1)

/-- `_cofire_candidates` -/
def cofireCandidates (rules : Dict String (List ℚ)) (withinS : ℚ) : List (String × String) :=
  let index := cofireIndex rules withinS
  let pairs := index.items.foldl (fun pairs item => pairs ∪ bucketPairs index item.1 item.2) ∅
  ((pairs.image toLex).sort (· ≤ ·)).map ofLex

end SystemsManager.Forecast
