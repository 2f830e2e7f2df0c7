import SystemsManager.Alarms.AlertManager

/-!
# The rule engine

A cycle of `RuleEngine.evaluate_all` takes a snapshot of the ongoing alerts, ends the ignore windows
that have elapsed, and then evaluates its rules one by one; between any two of these steps the event
loop serves requests. `evaluateRule` is one evaluation: it counts consecutive cycles in two streak
maps, closes the alerts of a recovered rule, and creates or refreshes the alert of a breaching one,
by the snapshot that the cycle holds. `Engine.step` is one atomic piece of work.
-/

namespace SystemsManager.Alarms

open Python Sql

variable {Config : Type}

/-- A metric sample with the time it was taken, if known. -/
structure MetricPoint where
  value : PyFloat
  takenAt : Option ℚ
  deriving DecidableEq

/-- What `ThresholdEvaluator` says of a rule: it is in its quiet hours, and the violation that a
value with its points is, if it is one. An evaluation may raise. -/
structure Evaluator (Config : Type) where
  isInQuietHours : AlarmRule Config → ℚ → Bool
  evaluateRule : AlarmRule Config → PyFloat → List MetricPoint → Except Unit (Option AlertCreate)

/-- What an evaluation finds. -/
inductive Reading where
  | noData
  | stale
  | suppressed
  | raised
  | breach (c : AlertCreate)
  | ok (recovered : Bool)

/-- `math.isfinite`. -/
def isFinite : PyFloat → Bool
  | .finite _ => true
  | _ => false

/-- The rule types that compare single samples. -/
def isThreshold : RuleType → Bool
  | .thresholdAbove => true
  | .thresholdBelow => true
  | .thresholdRange => true
  | _ => false

/-- No sample of the recent window breaches the rule. -/
def windowClear (ev : Evaluator Config) (rule : AlarmRule Config) :
    List MetricPoint → Except Unit Bool
  | [] => .ok true
  | p :: rest =>
      match ev.evaluateRule rule p.value [p] with
      | .error e => .error e
      | .ok (some _) => .ok false
      | .ok none => windowClear ev rule rest

/-- The first half of `_evaluate_rule`. -/
def takeReading (ev : Evaluator Config) (metricMaxAgeS : ℚ) (rule : AlarmRule Config)
    (points : List MetricPoint) (now : ℚ) : Reading :=
  match points.getLast? with
  | none => .noData
  | some last =>
      if last.takenAt.any fun takenAt => decide (metricMaxAgeS < now - takenAt) then .stale
      else if !isFinite last.value || ev.isInQuietHours rule now then .suppressed
      else
        match ev.evaluateRule rule last.value points with
        | .error _ => .raised
        | .ok (some c) => .breach c
        | .ok none =>
            if 0 < rule.autoResolveCycles && isThreshold rule.ruleType then
              -- The window covers about twice the streak.
              let windowN := max (rule.autoResolveCycles * 2) 5
              match windowClear ev rule (points.drop (points.length - windowN)) with
              | .error _ => .raised
              | .ok recovered => .ok recovered
            else .ok true

/-- The alerts, the streaks and the snapshot of the cycle under way. `firings` records the objects
that `send_notifications` was called with. -/
structure Engine where
  repo : AlertRepository
  okStreak : Dict String Nat := ∅
  breachStreak : Dict String Nat := ∅
  snapshot : List Alert := []
  firings : List Alert := []

namespace Engine

open AlertManager

/-- The alerts of a rule in the snapshot. -/
def ongoingOf (eng : Engine) (ruleId : String) : List Alert :=
  eng.snapshot.filter fun a => decide (a.ruleId = some ruleId) && a.status.live

/-- `_expire_ignore_windows`: the loop over the snapshot. -/
def resumeElapsed (repo : AlertRepository) (now : ℚ) : List Alert → Bool × AlertRepository
  | [] => (false, repo)
  | a :: rest =>
      if a.status = .ignored && a.ignoredUntil.any fun deadline => decide (deadline ≤ now) then
        match resumeAlert repo a.alertId now with
        | some (_, repo) => (true, (resumeElapsed repo now rest).2)
        | none => resumeElapsed repo now rest
      else resumeElapsed repo now rest

/-- `_expire_ignore_windows`: the snapshot is read again where an alert was resumed. -/
def expireIgnoreWindows (eng : Engine) (now : ℚ) : Engine :=
  match resumeElapsed eng.repo now eng.snapshot with
  | (false, repo) => { eng with repo := repo }
  | (true, repo) =>
      let (active, repo) := repo.getActive
      { eng with repo := repo, snapshot := active }

/-- Close the alerts of a rule that has recovered. -/
def autoResolve (eng : Engine) (value : PyFloat) (now : ℚ) : List Alert → Engine
  | [] => eng
  | a :: rest =>
      match closeAlert eng.repo a.alertId (some "auto") (some value) now with
      | some (_, repo) => autoResolve { eng with repo := repo } value now rest
      | none => autoResolve eng value now rest

/-- A cycle in which the rule does not breach. -/
def afterOk (eng : Engine) (rule : AlarmRule Config) (recovered : Bool) (value : PyFloat)
    (now : ℚ) : Engine :=
  let eng := { eng with breachStreak := eng.breachStreak.erase rule.ruleId }
  if 0 < rule.autoResolveCycles then
    let okStreak := if recovered then
        eng.okStreak.set rule.ruleId (eng.okStreak.getD rule.ruleId 0 + 1)
      else eng.okStreak.erase rule.ruleId
    let eng := { eng with okStreak := okStreak }
    if rule.autoResolveCycles ≤ okStreak.getD rule.ruleId 0 then
      autoResolve eng value now (eng.ongoingOf rule.ruleId)
    else eng
  else eng

/-- A cycle in which the rule breaches and has no ongoing alert. -/
def fire (eng : Engine) (corr : Correlation) (rule : AlarmRule Config) (c : AlertCreate)
    (alertId : String) (now : ℚ) : Verdict × Engine :=
  let eng := { eng with breachStreak := eng.breachStreak.erase rule.ruleId }
  match processAlert eng.repo corr c alertId now with
  | (.refused, repo) => (.skipped, { eng with repo := repo })
  | (.merged, repo) => (.reached false, { eng with repo := repo })
  | (.created a, repo) =>
      (.reached true, { eng with repo := repo, firings := eng.firings ++ [a] })

/-- A cycle in which the rule breaches. -/
def afterBreach (eng : Engine) (corr : Correlation) (rule : AlarmRule Config) (c : AlertCreate)
    (value : PyFloat) (alertId : String) (now : ℚ) : Verdict × Engine :=
  let eng := { eng with okStreak := eng.okStreak.erase rule.ruleId }
  let need := max 1 rule.minTriggerCycles
  let streak := eng.breachStreak.getD rule.ruleId 0 + 1
  match eng.ongoingOf rule.ruleId with
  | [] =>
      if streak < need then
        (.reached false, { eng with breachStreak := eng.breachStreak.set rule.ruleId streak })
      else fire eng corr rule c alertId now
  | a :: _ =>
      let (a, repo) := eng.repo.refresh a value now
      (.reached false, { eng with
        repo := repo
        snapshot := AlertRepository.patch a eng.snapshot
        firings := eng.firings ++ [a] })

/-- The second half of `_evaluate_rule`, up to the write-back of the rule. -/
def evaluateRule (eng : Engine) (corr : Correlation) (rule : AlarmRule Config) (reading : Reading)
    (value : PyFloat) (alertId : String) (now : ℚ) : Verdict × Engine :=
  let restarted := { eng with
    okStreak := eng.okStreak.erase rule.ruleId
    breachStreak := eng.breachStreak.erase rule.ruleId }
  match reading with
  | .noData => (.skipped, eng)
  | .stale => (.skipped, restarted)
  | .suppressed => (.skipped, restarted)
  | .raised => (.skipped, eng)
  | .ok recovered => (.reached false, eng.afterOk rule recovered value now)
  | .breach c => eng.afterBreach corr rule c value alertId now

/-- An atomic piece of work: a request, a step of the cycle, or the upkeep of the repository. -/
inductive Work (Config : Type) where
  | process (corr : Correlation) (c : AlertCreate) (alertId : String) (now : ℚ)
  | acknowledge (alertId : String) (now : ℚ)
  | close (alertId : String) (reason : Option String) (now : ℚ)
  | ignore (alertId : String) (durationHours : Nat) (now : ℚ)
  | resume (alertId : String) (now : ℚ)
  | closeAll (now : ℚ)
  | ignoreAll (durationHours : Nat) (now : ℚ)
  | delete (alertId : String)
  | deleteByManager (alertId : String)
  | closeRule (ruleId reason : String) (now : ℚ)
  | takeSnapshot
  | expireWindows (now : ℚ)
  | evaluate (corr : Correlation) (rule : AlarmRule Config) (reading : Reading) (value : PyFloat)
      (alertId : String) (now : ℚ)
  | purge (cutoff now : ℚ)
  | readActive
  | dropCache

/-- The repository after a request that may have been refused. -/
def serve (eng : Engine) (result : Option (Alert × AlertRepository)) : Engine :=
  match result with
  | some (_, repo) => { eng with repo := repo }
  | none => eng

/-- One atomic piece of work. -/
def step (eng : Engine) : Work Config → Engine
  | .process corr c alertId now =>
      match processAlert eng.repo corr c alertId now with
      | (.created a, repo) => { eng with repo := repo, firings := eng.firings ++ [a] }
      | (_, repo) => { eng with repo := repo }
  | .acknowledge alertId now => eng.serve (acknowledgeAlert eng.repo alertId now)
  | .close alertId reason now => eng.serve (closeAlert eng.repo alertId reason none now)
  | .ignore alertId durationHours now => eng.serve (ignoreAlert eng.repo alertId durationHours now)
  | .resume alertId now => eng.serve (resumeAlert eng.repo alertId now)
  | .closeAll now => { eng with repo := eng.repo.closeAllAlerts now }
  | .ignoreAll durationHours now => { eng with repo := eng.repo.ignoreAllAlerts durationHours now }
  | .delete alertId => { eng with repo := (eng.repo.delete alertId).2 }
  | .deleteByManager alertId => { eng with repo := (deleteAlert eng.repo alertId).2 }
  | .closeRule ruleId reason now => { eng with repo := closeRuleAlerts eng.repo ruleId reason now }
  | .takeSnapshot =>
      let (active, repo) := eng.repo.getActive
      { eng with repo := repo, snapshot := active }
  | .expireWindows now => eng.expireIgnoreWindows now
  | .evaluate corr rule reading value alertId now =>
      (eng.evaluateRule corr rule reading value alertId now).2
  | .purge cutoff now =>
      { eng with repo := { eng.repo with db := eng.repo.db.purgeHistoryOlderThan cutoff now } }
  | .readActive => { eng with repo := eng.repo.getActive.2 }
  | .dropCache => { eng with repo := { eng.repo with activeCache := none } }

end Engine

end SystemsManager.Alarms
