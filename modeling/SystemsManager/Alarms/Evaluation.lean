import SystemsManager.Alarms.Engine

/-!
# The evaluation of a value against a rule

`ThresholdEvaluator` compares a value with the thresholds of the rule and hands the statistical
rules to `AnomalyDetector`, which compares it with the samples of a recent window. Floats are exact
here, with an overflow at the largest one. Three operations raise: a square that overflows, the
start of a window that would be before the first year, and the index of a percentile that is `nan`.
`Evaluator.ofConfig` puts the parts together; the texts and the attribution of the violation are its
parameter.
-/

namespace SystemsManager.Alarms

open Python

/-- `ThresholdConfig`. -/
structure ThresholdConfig where
  value : Option PyFloat := none
  lower : Option PyFloat := none
  upper : Option PyFloat := none
  warning : Option PyFloat := none
  critical : Option PyFloat := none
  unit : Option String := none
  deriving DecidableEq

/-- `MovingAverageConfig`. -/
structure MovingAverageConfig where
  windowMinutes : Nat := 15
  deviationFactor : PyFloat := .finite 2
  minDataPoints : Nat := 5
  deriving DecidableEq

/-- `PercentileConfig`. -/
structure PercentileConfig where
  percentile : PyFloat := .finite 95
  windowMinutes : Nat := 60
  minDataPoints : Nat := 10
  deriving DecidableEq

/-- `RateOfChangeConfig`. -/
structure RateOfChangeConfig where
  maxChangePerMinute : PyFloat := .finite 10
  windowMinutes : Nat := 5
  minDataPoints : Nat := 2
  deriving DecidableEq

/-- `ZScoreConfig`. -/
structure ZScoreConfig where
  threshold : PyFloat := .finite 2
  windowMinutes : Nat := 60
  minDataPoints : Nat := 10
  deriving DecidableEq

/-- `RuleSpecificConfig`. -/
structure RuleSpecificConfig where
  threshold : Option ThresholdConfig := none
  movingAverage : Option MovingAverageConfig := none
  percentile : Option PercentileConfig := none
  rateOfChange : Option RateOfChangeConfig := none
  zScore : Option ZScoreConfig := none
  deriving DecidableEq

section Floats

/-- The first number that is too large for a float. -/
def floatBound : ℚ := 2 ^ 1024

/-- The float of a result. -/
def ofExact (q : ℚ) : PyFloat :=
  if floatBound ≤ q then .inf false else if q ≤ -floatBound then .inf true else .finite q

/-- `a - b` for a finite `a`. -/
def finiteSub (a : ℚ) : PyFloat → PyFloat
  | .finite b => ofExact (a - b)
  | .inf negative => .inf !negative
  | .nan => .nan

/-- `a + b`. -/
def floatAdd : PyFloat → PyFloat → PyFloat
  | .finite a, .finite b => ofExact (a + b)
  | .finite _, b => b
  | .inf negative, .finite _ => .inf negative
  | .inf a, .inf b => if a = b then .inf a else .nan
  | _, _ => .nan

/-- `sum(values)`. -/
def floatSum (values : List PyFloat) : PyFloat := values.foldl floatAdd (.finite 0)

/-- `a / n`. -/
def floatDiv (a : PyFloat) (n : Nat) : PyFloat :=
  match a with
  | .finite a => .finite (a / n)
  | a => a

/-- `a ** 2`, which raises on an overflow. -/
def square : PyFloat → Except Unit PyFloat
  | .finite a => if a * a < floatBound then .ok (.finite (a * a)) else .error ()
  | .inf _ => .ok (.inf false)
  | .nan => .ok .nan

end Floats

namespace AnomalyDetector

/-- The seconds from the first year to the epoch. -/
def firstYear : ℚ := -62135596800

/-- `_filter_by_window`. The start of the window must be a date. -/
def filterByWindow (points : List MetricPoint) (windowMinutes : Nat) (now : ℚ) :
    Except Unit (List MetricPoint) :=
  if points.isEmpty then .ok []
  else
    let cutoff := now - windowMinutes * 60
    if cutoff < firstYear then .error ()
    else .ok (points.filter fun p => p.takenAt.any fun takenAt => decide (cutoff ≤ takenAt))

/-- The values of the points; metric values are finite. -/
def finiteValues (points : List MetricPoint) : List ℚ :=
  points.filterMap fun p => match p.value with
    | .finite value => some value
    | _ => none

/-- The mean and the variance of the values. -/
def meanVariance (values : List ℚ) : Except Unit (PyFloat × PyFloat) :=
  let mean := floatDiv (floatSum (values.map .finite)) values.length
  if 1 < values.length then
    match values.mapM fun v => square (finiteSub v mean) with
    | .ok squares => .ok (mean, floatDiv (floatSum squares) values.length)
    | .error e => .error e
  else .ok (mean, .finite 0)

/-- The distance to the mean is more than so many standard deviations. Nothing is where there is
hardly a deviation, and a comparison with `nan` is false. -/
def deviates (value : ℚ) (mean variance factor : PyFloat) : Bool :=
  match mean, variance with
  | .finite m, .finite v =>
      if v < 1 / 10 ^ 20 then false
      else
        match factor with
        | .finite k => decide (k * k * v < (value - m) * (value - m))
        | .inf negative => negative
        | .nan => true
  | .finite _, .inf _ => !(PyFloat.finite 0).le factor
  | _, _ => true

/-- The test that the z-score rules and the moving-average rules share: the baseline leaves out the
value under test. -/
def deviatesFromBaseline (value : ℚ) (points : List MetricPoint) (windowMinutes minDataPoints : Nat)
    (factor : PyFloat) (now : ℚ) : Except Unit Bool :=
  if points.isEmpty then .ok false
  else
    match filterByWindow points.dropLast windowMinutes now with
    | .error e => .error e
    | .ok baseline =>
        if baseline.length < minDataPoints then .ok false
        else
          match meanVariance (finiteValues baseline) with
          | .error e => .error e
          | .ok (mean, variance) => .ok (deviates value mean variance factor)

/-- `evaluate_z_score_rule`. -/
def evaluateZScoreRule (value : ℚ) (points : List MetricPoint) (config : ZScoreConfig) (now : ℚ) :
    Except Unit Bool :=
  deviatesFromBaseline value points config.windowMinutes config.minDataPoints config.threshold now

/-- `evaluate_moving_average_rule`. -/
def evaluateMovingAverageRule (value : ℚ) (points : List MetricPoint)
    (config : MovingAverageConfig) (now : ℚ) : Except Unit Bool :=
  deviatesFromBaseline value points config.windowMinutes config.minDataPoints
    config.deviationFactor now

/-- `evaluate_percentile_rule`. -/
def evaluatePercentileRule (value : ℚ) (points : List MetricPoint) (config : PercentileConfig)
    (now : ℚ) : Except Unit Bool :=
  if points.isEmpty then .ok false
  else
    match filterByWindow points.dropLast config.windowMinutes now with
    | .error e => .error e
    | .ok baseline =>
        if baseline.length < config.minDataPoints then .ok false
        else
          let values := (finiteValues baseline).insertionSort (· ≤ ·)
          match config.percentile with
          | .finite percentile =>
              let idx := (percentile / 100 * (values.length - 1)).floor.toNat
              match values[min idx (values.length - 1)]? with
              | some percentileValue => .ok (percentileValue < value)
              | none => .ok false
          | _ => .error ()

/-- `evaluate_rate_of_change_rule`. -/
def evaluateRateOfChangeRule (points : List MetricPoint) (config : RateOfChangeConfig) (now : ℚ) :
    Except Unit Bool :=
  if points.length < 2 then .ok false
  else
    match filterByWindow points config.windowMinutes now with
    | .error e => .error e
    | .ok recent =>
        if recent.length < config.minDataPoints then .ok false
        else
          match recent.head?, recent.getLast? with
          | some oldest, some latest =>
              let seconds := latest.takenAt.getD 0 - oldest.takenAt.getD 0
              if seconds < 1 / 10 ^ 10 then .ok false
              else
                match oldest.value, latest.value with
                | .finite a, .finite b =>
                    .ok !(PyFloat.finite |(b - a) / seconds * 60|).le config.maxChangePerMinute
                | _, _ => .ok false
          | _, _ => .ok false

end AnomalyDetector

namespace ThresholdEvaluator

/-- `_resolve_upper`. -/
def resolveUpper (config : ThresholdConfig) : Option PyFloat :=
  config.upper.or (config.value.or (config.critical.or config.warning))

/-- `_resolve_lower`. -/
def resolveLower (config : ThresholdConfig) : Option PyFloat :=
  config.lower.or (config.value.or (config.warning.or config.critical))

/-- Whether a finite value breaches the rule, by the type of the rule. -/
def breaches (rule : AlarmRule RuleSpecificConfig) (value : ℚ) (points : List MetricPoint)
    (now : ℚ) : Except Unit Bool :=
  let threshold := rule.config.threshold.getD {}
  match rule.ruleType with
  | .thresholdAbove =>
      .ok ((resolveUpper threshold).any fun bound => !(PyFloat.finite value).le bound)
  | .thresholdBelow =>
      .ok ((resolveLower threshold).any fun bound => !bound.le (.finite value))
  | .thresholdRange =>
      match threshold.lower, threshold.upper with
      | some lower, some upper =>
          .ok !(lower.le (.finite value) && (PyFloat.finite value).le upper)
      | _, _ => .ok false
  | .zScore => AnomalyDetector.evaluateZScoreRule value points (rule.config.zScore.getD {}) now
  | .movingAverage =>
      AnomalyDetector.evaluateMovingAverageRule value points (rule.config.movingAverage.getD {}) now
  | .percentile =>
      AnomalyDetector.evaluatePercentileRule value points (rule.config.percentile.getD {}) now
  | .rateOfChange =>
      AnomalyDetector.evaluateRateOfChangeRule points (rule.config.rateOfChange.getD {}) now

end ThresholdEvaluator

/-- `ThresholdEvaluator.evaluate_rule` at a time. Quiet hours are those of the host, and `describe`
writes the violation out. -/
def Evaluator.ofConfig (quiet : AlarmRule RuleSpecificConfig → ℚ → Bool)
    (describe : AlarmRule RuleSpecificConfig → PyFloat → List MetricPoint → AlertCreate) (now : ℚ) :
    Evaluator RuleSpecificConfig where
  isInQuietHours := quiet
  evaluateRule := fun rule value points =>
    if !rule.enabled || quiet rule now then .ok none
    else
      match value with
      | .finite q =>
          match ThresholdEvaluator.breaches rule q points now with
          | .error e => .error e
          | .ok true => .ok (some (describe rule value points))
          | .ok false => .ok none
      | _ => .ok none

end SystemsManager.Alarms
