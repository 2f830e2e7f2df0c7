import SystemsManager.Alarms.Evaluation
import SystemsManager.Python.Codec

/-!
# The configuration of a rule, as it is stored

`model_dump` writes a `RuleSpecificConfig` as a dictionary, which goes to a JSON column, and
`_dict_to_rule` makes the five parts from it again, with the defaults and the bounds of their
fields. `RuleConfig` is a configuration within the bounds. `load_dump_config` is the theorem to
read: such a configuration is read back as it was.
-/

namespace SystemsManager.Alarms

open Python

section Parts

/-- Optional floats. -/
def optionalFloat : Codec (Option PyFloat) := Codec.float.optional fun _ h => by cases h

/-- Optional texts. -/
def optionalStr : Codec (Option String) := Codec.str.optional fun _ h => by cases h

/-- `ThresholdConfig` as a dictionary. -/
def ThresholdConfig.codec : Codec ThresholdConfig where
  dump c := .dict [("value", optionalFloat.dump c.value), ("lower", optionalFloat.dump c.lower),
    ("upper", optionalFloat.dump c.upper), ("warning", optionalFloat.dump c.warning),
    ("critical", optionalFloat.dump c.critical), ("unit", optionalStr.dump c.unit)]
  load
    | .dict items => do
        let value ← readField items "value" none optionalFloat.load
        let lower ← readField items "lower" none optionalFloat.load
        let upper ← readField items "upper" none optionalFloat.load
        let warning ← readField items "warning" none optionalFloat.load
        let critical ← readField items "critical" none optionalFloat.load
        let unit ← readField items "unit" none optionalStr.load
        pure ⟨value, lower, upper, warning, critical, unit⟩
    | _ => none
  load_dump c := by simp [Codec.load_dump]

/-- `MovingAverageConfig` as a dictionary. -/
def MovingAverageConfig.codec : Codec MovingAverageConfig where
  dump c := .dict [("window_minutes", Codec.nat.dump c.windowMinutes),
    ("deviation_factor", Codec.float.dump c.deviationFactor),
    ("min_data_points", Codec.nat.dump c.minDataPoints)]
  load
    | .dict items => do
        let windowMinutes ← readField items "window_minutes" 15 Codec.nat.load
        let deviationFactor ← readField items "deviation_factor" (.finite 2) Codec.float.load
        let minDataPoints ← readField items "min_data_points" 5 Codec.nat.load
        pure ⟨windowMinutes, deviationFactor, minDataPoints⟩
    | _ => none
  load_dump c := by simp [Codec.load_dump]

/-- `PercentileConfig` as a dictionary. -/
def PercentileConfig.codec : Codec PercentileConfig where
  dump c := .dict [("percentile", Codec.float.dump c.percentile),
    ("window_minutes", Codec.nat.dump c.windowMinutes),
    ("min_data_points", Codec.nat.dump c.minDataPoints)]
  load
    | .dict items => do
        let percentile ← readField items "percentile" (.finite 95) Codec.float.load
        let windowMinutes ← readField items "window_minutes" 60 Codec.nat.load
        let minDataPoints ← readField items "min_data_points" 10 Codec.nat.load
        pure ⟨percentile, windowMinutes, minDataPoints⟩
    | _ => none
  load_dump c := by simp [Codec.load_dump]

/-- `RateOfChangeConfig` as a dictionary. -/
def RateOfChangeConfig.codec : Codec RateOfChangeConfig where
  dump c := .dict [("max_change_per_minute", Codec.float.dump c.maxChangePerMinute),
    ("window_minutes", Codec.nat.dump c.windowMinutes),
    ("min_data_points", Codec.nat.dump c.minDataPoints)]
  load
    | .dict items => do
        let maxChangePerMinute ←
          readField items "max_change_per_minute" (.finite 10) Codec.float.load
        let windowMinutes ← readField items "window_minutes" 5 Codec.nat.load
        let minDataPoints ← readField items "min_data_points" 2 Codec.nat.load
        pure ⟨maxChangePerMinute, windowMinutes, minDataPoints⟩
    | _ => none
  load_dump c := by simp [Codec.load_dump]

/-- `ZScoreConfig` as a dictionary. -/
def ZScoreConfig.codec : Codec ZScoreConfig where
  dump c := .dict [("threshold", Codec.float.dump c.threshold),
    ("window_minutes", Codec.nat.dump c.windowMinutes),
    ("min_data_points", Codec.nat.dump c.minDataPoints)]
  load
    | .dict items => do
        let threshold ← readField items "threshold" (.finite 2) Codec.float.load
        let windowMinutes ← readField items "window_minutes" 60 Codec.nat.load
        let minDataPoints ← readField items "min_data_points" 10 Codec.nat.load
        pure ⟨threshold, windowMinutes, minDataPoints⟩
    | _ => none
  load_dump c := by simp [Codec.load_dump]

/-- The parts of a configuration are optional. -/
def thresholdPart : Codec (Option ThresholdConfig) :=
  ThresholdConfig.codec.optional fun _ h => by cases h

/-- The moving average of a configuration. -/
def movingAveragePart : Codec (Option MovingAverageConfig) :=
  MovingAverageConfig.codec.optional fun _ h => by cases h

/-- The percentile of a configuration. -/
def percentilePart : Codec (Option PercentileConfig) :=
  PercentileConfig.codec.optional fun _ h => by cases h

/-- The rate of change of a configuration. -/
def rateOfChangePart : Codec (Option RateOfChangeConfig) :=
  RateOfChangeConfig.codec.optional fun _ h => by cases h

/-- The z-score of a configuration. -/
def zScorePart : Codec (Option ZScoreConfig) :=
  ZScoreConfig.codec.optional fun _ h => by cases h

end Parts

section Config

/-- `ge=bound` for a count. -/
def atLeast (bound : Nat) (n : Nat) : Bool := bound ≤ n

/-- `ge=0` for a float. The check is that the float is not below the bound, which `nan` passes. -/
def notNegative (x : PyFloat) : Bool := !x.lt (.finite 0)

/-- The bounds of the fields of `MovingAverageConfig`. -/
def MovingAverageConfig.isValid (c : MovingAverageConfig) : Bool :=
  atLeast 1 c.windowMinutes && notNegative c.deviationFactor && atLeast 1 c.minDataPoints

/-- The bounds of the fields of `PercentileConfig`. -/
def PercentileConfig.isValid (c : PercentileConfig) : Bool :=
  !c.percentile.lt (.finite 50) && !PyFloat.lt (.finite (999 / 10)) c.percentile &&
    atLeast 1 c.windowMinutes && atLeast 1 c.minDataPoints

/-- The bounds of the fields of `RateOfChangeConfig`. -/
def RateOfChangeConfig.isValid (c : RateOfChangeConfig) : Bool :=
  notNegative c.maxChangePerMinute && atLeast 1 c.windowMinutes && atLeast 2 c.minDataPoints

/-- The bounds of the fields of `ZScoreConfig`. -/
def ZScoreConfig.isValid (c : ZScoreConfig) : Bool :=
  notNegative c.threshold && atLeast 1 c.windowMinutes && atLeast 1 c.minDataPoints

/-- All parts are within their bounds; a threshold has none. -/
def RuleSpecificConfig.isValid (c : RuleSpecificConfig) : Bool :=
  c.movingAverage.all MovingAverageConfig.isValid && c.percentile.all PercentileConfig.isValid &&
    c.rateOfChange.all RateOfChangeConfig.isValid && c.zScore.all ZScoreConfig.isValid

/-- A `RuleSpecificConfig` that validates. -/
def RuleConfig : Type := { c : RuleSpecificConfig // c.isValid = true }

/-- `config.model_dump()`. -/
def RuleConfig.modelDump (c : RuleConfig) : Json :=
  .dict [("threshold", thresholdPart.dump c.1.threshold),
    ("moving_average", movingAveragePart.dump c.1.movingAverage),
    ("percentile", percentilePart.dump c.1.percentile),
    ("rate_of_change", rateOfChangePart.dump c.1.rateOfChange),
    ("z_score", zScorePart.dump c.1.zScore)]

/-- The configuration that `_dict_to_rule` makes; what is not a dictionary counts as an empty
one. -/
def loadConfig (raw : Json) : Option RuleConfig := do
  let items := match raw with
    | .dict items => items
    | _ => []
  let threshold ← thresholdPart.load (getItem items "threshold")
  let movingAverage ← movingAveragePart.load (getItem items "moving_average")
  let percentile ← percentilePart.load (getItem items "percentile")
  let rateOfChange ← rateOfChangePart.load (getItem items "rate_of_change")
  let zScore ← zScorePart.load (getItem items "z_score")
  let config : RuleSpecificConfig := ⟨threshold, movingAverage, percentile, rateOfChange, zScore⟩
  if h : config.isValid = true then pure ⟨config, h⟩ else none

theorem load_dump_config (c : RuleConfig) : loadConfig c.modelDump = some c := by
  obtain ⟨config, hvalid⟩ := c
  simp [loadConfig, RuleConfig.modelDump, Codec.load_dump, hvalid]

end Config

end SystemsManager.Alarms
