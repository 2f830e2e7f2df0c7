import SystemsManager.Python.Dict
import Mathlib.Algebra.Order.Ring.Rat

/-!
# Alarm rules: the repository and the evaluation cycles

`RuleRepository` keeps the rules in the settings database, a cache of single rules and a cached
list of the enabled ones. `RuleEngine.evaluate_all` takes that list once per cycle and evaluates
its rules one by one; between two rules the event loop serves requests. After an evaluation the
engine may write the whole rule object back to persist `last_evaluated_at`.

`System` is the repository, the throttle of the write-back and the cycles that are under way, and
`step` is one atomic piece of work of the event loop. What the evaluation finds is an input. A
cache entry may be dropped at any time, which covers its time to live and the size bound. The
part of a rule that depends on its type is opaque.
-/

namespace SystemsManager.Alarms

open Python

/-- The types of rules. -/
inductive RuleType where
  | thresholdAbove
  | thresholdBelow
  | thresholdRange
  | rateOfChange
  | zScore
  | movingAverage
  | percentile
  deriving DecidableEq

/-- Alert severities. -/
inductive Severity where
  | info
  | warning
  | critical
  deriving DecidableEq

/-- `AlarmRule`; `config` is its `RuleSpecificConfig`. -/
structure AlarmRule (Config : Type) where
  ruleId : String
  name : String
  description : Option String
  sourceHost : Option String
  metricSource : String
  metricName : String
  ruleType : RuleType
  config : Config
  severity : Severity
  enabled : Bool
  notificationChannelIds : List String
  quietHoursStart : Option String
  quietHoursEnd : Option String
  autoResolveCycles : Nat
  minTriggerCycles : Nat
  correlationGroup : Option String
  createdAt : ℚ
  updatedAt : ℚ
  lastEvaluatedAt : Option ℚ
  lastAlertAt : Option ℚ
  deriving DecidableEq

/-- `AlarmRuleUpdate`: the fields a request sets. Only the nullable ones can be set to `None`; for
the others `None` is the same as not setting them. -/
structure AlarmRuleUpdate (Config : Type) where
  name : Option String := none
  description : Option (Option String) := none
  sourceHost : Option (Option String) := none
  metricSource : Option String := none
  metricName : Option String := none
  ruleType : Option RuleType := none
  config : Option Config := none
  severity : Option Severity := none
  enabled : Option Bool := none
  notificationChannelIds : Option (List String) := none
  quietHoursStart : Option (Option String) := none
  quietHoursEnd : Option (Option String) := none
  autoResolveCycles : Option Nat := none
  minTriggerCycles : Option Nat := none
  correlationGroup : Option (Option String) := none
  min_trigger_pos : ∀ n ∈ minTriggerCycles, 1 ≤ n := by simp

variable {Config : Type}

section Store

/-- `value or None`. -/
def orNone (value : Option String) : Option String := value.filter (· ≠ "")

/-- The columns that `write_rule` makes of a rule: an empty optional text is `NULL`, and no
auto-resolve count is the default of two. -/
def columns (rule : AlarmRule Config) : AlarmRule Config :=
  { rule with
    description := orNone rule.description
    sourceHost := orNone rule.sourceHost
    quietHoursStart := orNone rule.quietHoursStart
    quietHoursEnd := orNone rule.quietHoursEnd
    autoResolveCycles := if rule.autoResolveCycles = 0 then 2 else rule.autoResolveCycles
    minTriggerCycles := max 1 rule.minTriggerCycles
    correlationGroup := orNone rule.correlationGroup }

/-- `write_rule`: insert, or update everything but `created_at`. -/
def writeRule (db : Dict String (AlarmRule Config)) (rule : AlarmRule Config) :
    Dict String (AlarmRule Config) :=
  match db.get? rule.ruleId with
  | none => db.set rule.ruleId (columns rule)
  | some row => db.set rule.ruleId { columns rule with createdAt := row.createdAt }

/-- `_dict_to_rule`, for a stored row and for a cached dictionary. -/
def dictToRule (data : AlarmRule Config) : AlarmRule Config :=
  { data with
    sourceHost := orNone data.sourceHost
    minTriggerCycles := max 1 data.minTriggerCycles }

end Store

section Repository

/-- `RuleRepository`. `allCache` is the cached list of the enabled rules. -/
structure RuleRepository (Config : Type) where
  db : Dict String (AlarmRule Config)
  cache : Dict String (AlarmRule Config) := ∅
  allCache : Option (List (AlarmRule Config)) := none

/-- `get_by_id`: the cache first, then the database. -/
def getById (repo : RuleRepository Config) (ruleId : String) :
    Option (AlarmRule Config) × RuleRepository Config :=
  match repo.cache.get? ruleId with
  | some cached => (some (dictToRule cached), repo)
  | none =>
      match repo.db.get? ruleId with
      | none => (none, repo)
      | some row =>
          (some (dictToRule row), { repo with cache := repo.cache.set ruleId (dictToRule row) })

/-- `get_all(enabled_only=True)`. -/
def getAll (repo : RuleRepository Config) : List (AlarmRule Config) × RuleRepository Config :=
  match repo.allCache with
  | some rules => (rules, repo)
  | none =>
      let rules := ((repo.db.items.map Prod.snd).filter fun row => row.enabled).map dictToRule
      (rules, { repo with allCache := some rules })

/-- The loop of `update` over the fields that are set. -/
def applyUpdate (update : AlarmRuleUpdate Config) (rule : AlarmRule Config) (now : ℚ) :
    AlarmRule Config :=
  { rule with
    name := update.name.getD rule.name
    description := update.description.getD rule.description
    sourceHost := update.sourceHost.getD rule.sourceHost
    metricSource := update.metricSource.getD rule.metricSource
    metricName := update.metricName.getD rule.metricName
    ruleType := update.ruleType.getD rule.ruleType
    config := update.config.getD rule.config
    severity := update.severity.getD rule.severity
    enabled := update.enabled.getD rule.enabled
    notificationChannelIds := update.notificationChannelIds.getD rule.notificationChannelIds
    quietHoursStart := update.quietHoursStart.getD rule.quietHoursStart
    quietHoursEnd := update.quietHoursEnd.getD rule.quietHoursEnd
    autoResolveCycles := update.autoResolveCycles.getD rule.autoResolveCycles
    minTriggerCycles := update.minTriggerCycles.getD rule.minTriggerCycles
    correlationGroup := update.correlationGroup.getD rule.correlationGroup
    updatedAt := now }

/-- `update`: the rule as edited, if it was found. -/
def update (repo : RuleRepository Config) (ruleId : String) (changes : AlarmRuleUpdate Config)
    (now : ℚ) : Option (AlarmRule Config) × RuleRepository Config :=
  match getById repo ruleId with
  | (none, repo) => (none, repo)
  | (some found, repo) =>
      let rule := applyUpdate changes found now
      (some rule,
        { db := writeRule repo.db rule
          cache := repo.cache.set ruleId rule
          allCache := none })

/-- `delete`: whether the rule was found. -/
def delete (repo : RuleRepository Config) (ruleId : String) : Bool × RuleRepository Config :=
  match getById repo ruleId with
  | (none, repo) => (false, repo)
  | (some _, repo) =>
      (true, { db := repo.db.erase ruleId, cache := repo.cache.erase ruleId, allCache := none })

/-- `toggle_rule`: an update that sets `enabled` to what it is not. -/
def toggle (repo : RuleRepository Config) (ruleId : String) (now : ℚ) :
    Option (AlarmRule Config) × RuleRepository Config :=
  match getById repo ruleId with
  | (none, repo) => (none, repo)
  | (some existing, repo) => update repo ruleId { enabled := some !existing.enabled } now

end Repository

section System

/-- A cycle under way: the rules still to be evaluated. `changed` records, for the proofs, the
rules that requests have changed since the list was taken. -/
structure Cycle (Config : Type) where
  pending : List (AlarmRule Config)
  changed : List String := []

/-- The repository, the times of the last write-back, and the cycles. `intended` records, for the
proofs, what the requests have made of the rules. -/
structure System (Config : Type) where
  repo : RuleRepository Config
  lastPersist : Dict String ℚ := ∅
  cycles : List (Cycle Config) := []
  intended : Dict String (AlarmRule Config)

/-- What an evaluation came to: it stopped early, or it reached the end, with or without a new
alert. -/
inductive Verdict where
  | skipped
  | reached (fired : Bool)

/-- An atomic piece of work. -/
inductive Event (Config : Type) where
  | update (ruleId : String) (changes : AlarmRuleUpdate Config) (now : ℚ)
  | toggle (ruleId : String) (now : ℚ)
  | delete (ruleId : String)
  | load
  | evaluate (cycle : Nat) (verdict : Verdict) (now : ℚ)
  | expire (ruleId : String)
  | expireAll

/-- The shortest time between two write-backs of a rule, in seconds. -/
def persistMinIntervalS : ℚ := 300

/-- The evaluation writes the rule back. -/
def persists (sys : System Config) (ruleId : String) (verdict : Verdict) (now : ℚ) : Bool :=
  match verdict with
  | .skipped => false
  | .reached fired => fired || persistMinIntervalS ≤ now - sys.lastPersist.getD ruleId 0

/-- The end of `_evaluate_rule`. -/
def evaluateRule (sys : System Config) (rule : AlarmRule Config) (verdict : Verdict) (now : ℚ) :
    System Config :=
  if persists sys rule.ruleId verdict now then
    { sys with
      repo := { sys.repo with
        db := writeRule sys.repo.db { rule with lastEvaluatedAt := some now } }
      lastPersist := sys.lastPersist.set rule.ruleId now }
  else sys

/-- A request has changed a rule. -/
def noteChange (ruleId : String) (cycles : List (Cycle Config)) : List (Cycle Config) :=
  cycles.map fun cycle => { cycle with changed := ruleId :: cycle.changed }

/-- The system after an edit that returned a rule, or found none. -/
def afterEdit (sys : System Config) (ruleId : String)
    (result : Option (AlarmRule Config) × RuleRepository Config) : System Config :=
  match result with
  | (none, repo) => { sys with repo := repo }
  | (some rule, repo) =>
      { sys with
        repo := repo
        cycles := noteChange ruleId sys.cycles
        intended := sys.intended.set ruleId rule }

/-- The system after a deletion. -/
def afterDelete (sys : System Config) (ruleId : String)
    (result : Bool × RuleRepository Config) : System Config :=
  match result with
  | (false, repo) => { sys with repo := repo }
  | (true, repo) =>
      { sys with
        repo := repo
        cycles := noteChange ruleId sys.cycles
        intended := sys.intended.erase ruleId }

/-- The next rule of a cycle. -/
def nextRule (sys : System Config) (cycle : Nat) :
    Option (AlarmRule Config × Cycle Config) :=
  match sys.cycles[cycle]? with
  | some { pending := rule :: rest, changed := changed } =>
      some (rule, { pending := rest, changed := changed })
  | _ => none

/-- One atomic piece of work. -/
def step (sys : System Config) : Event Config → System Config
  | .update ruleId changes now => afterEdit sys ruleId (update sys.repo ruleId changes now)
  | .toggle ruleId now => afterEdit sys ruleId (toggle sys.repo ruleId now)
  | .delete ruleId => afterDelete sys ruleId (delete sys.repo ruleId)
  | .load =>
      let (rules, repo) := getAll sys.repo
      { sys with repo := repo, cycles := sys.cycles ++ [{ pending := rules }] }
  | .evaluate cycle verdict now =>
      match nextRule sys cycle with
      | none => sys
      | some (rule, rest) =>
          evaluateRule { sys with cycles := sys.cycles.set cycle rest } rule verdict now
  | .expire ruleId => { sys with repo := { sys.repo with cache := sys.repo.cache.erase ruleId } }
  | .expireAll => { sys with repo := { sys.repo with allCache := none } }

/-- The engine at start-up: empty caches over the stored rules. -/
def boot (db : Dict String (AlarmRule Config)) : System Config :=
  { repo := { db := db }, intended := db }

end System

end SystemsManager.Alarms
