import SystemsManager.Alarms.AlertStore

/-!
# The alert repository and the alert manager

`AlertRepository` adds to the store a snapshot of the ongoing alerts and the ignore windows of the
rules. `AlertManager` decides what the requests and the rule engine may do to an alert: it creates
alerts, one per rule, and moves them between their statuses. A row whose message is empty cannot be
made into an alert again, and the snapshot has at most a thousand rows.
-/

namespace SystemsManager.Alarms

open Python Sql

/-- `AlertRepository`. -/
structure AlertRepository where
  db : AeAlarmsDB
  activeCache : Option (List Alert) := none
  ignoredUntil : Dict String ℚ := ∅

/-- `AlertCreate`. -/
structure AlertCreate where
  ruleId : Option String
  ruleName : Option String := none
  metricSource : String
  metricName : String
  currentValue : PyFloat
  thresholdValue : PyFloat
  severity : String := "warning"
  message : String
  notificationChannelIds : List String := []
  sourceHost : Option String := none
  incidentId : Option String := none

/-- `to_alert`, with the id that `uuid4` gives. -/
def AlertCreate.toAlert (c : AlertCreate) (alertId : String) (now : ℚ) : Alert where
  alertId := alertId
  ruleId := c.ruleId
  ruleName := c.ruleName
  metricSource := c.metricSource
  metricName := c.metricName
  sourceHost := c.sourceHost
  incidentId := some ((orNone c.incidentId).getD alertId)
  currentValue := c.currentValue
  thresholdValue := c.thresholdValue
  severity := c.severity
  status := .active
  message := c.message
  triggerCount := 1
  acknowledgedBy := none
  exceptionDetails := none
  resolutionReason := none
  resolvedValue := none
  notificationChannelIds := c.notificationChannelIds
  createdAt := now
  lastEvaluatedAt := some now
  acknowledgedAt := none
  closedAt := none
  ignoredUntil := none

/-- `AlertUpdate`, with the fields that the manager sets. -/
structure AlertUpdate where
  status : AlertStatus
  resolutionReason : Option String := none
  resolvedValue : Option PyFloat := none
  ignoredUntil : Option ℚ := none

namespace AlertRepository

/-- The number of rows `query_active` returns at most. -/
def activeLimit : Nat := 1000

/-- `_dict_to_alert` succeeds: a row without a message is no alert. -/
def isReadable (row : Alert) : Bool := row.message ≠ ""

/-- `get_by_id`. -/
def getById (repo : AlertRepository) (alertId : String) : Option Alert :=
  (repo.db.getAlert alertId).filter isReadable

/-- `get_active`. -/
def getActive (repo : AlertRepository) : List Alert × AlertRepository :=
  match repo.activeCache with
  | some alerts => (alerts, repo)
  | none =>
      let alerts := (repo.db.queryActive activeLimit).filter isReadable
      (alerts, { repo with activeCache := some alerts })

/-- `record_event`. -/
def recordEvent (repo : AlertRepository) (alertId : String) (event : EventKind) (now : ℚ)
    (actor : Option String) : AlertRepository :=
  { repo with db := repo.db.writeEvent ⟨alertId, event, now, actor⟩ }

/-- `_save_alert` and `_invalidate_active_cache`, where the write succeeds. -/
def save (repo : AlertRepository) (a : Alert) : Option AlertRepository :=
  (repo.db.writeAlert a).map fun db => { repo with db := db, activeCache := none }

/-- `create`. -/
def create (repo : AlertRepository) (c : AlertCreate) (alertId : String) (now : ℚ) :
    Option (Alert × AlertRepository) :=
  let alert := c.toAlert alertId now
  (repo.save alert).map fun repo => (alert, repo)

/-- The fields that an update changes. -/
def applyUpdate (u : AlertUpdate) (a : Alert) (now : ℚ) : Alert :=
  { a with
    status := u.status
    resolutionReason := u.resolutionReason.or a.resolutionReason
    resolvedValue := u.resolvedValue.or a.resolvedValue
    ignoredUntil := u.ignoredUntil.or a.ignoredUntil
    acknowledgedAt := if u.status = .acknowledged then a.acknowledgedAt.or (some now)
      else a.acknowledgedAt
    closedAt := if u.status = .closed then a.closedAt.or (some now) else a.closedAt }

/-- Write a changed alert back, if the alert is there. -/
def change (repo : AlertRepository) (alertId : String) (f : Alert → Alert) :
    Option (Alert × AlertRepository) :=
  (repo.getById alertId).bind fun existing =>
    (repo.save (f existing)).map fun repo => (f existing, repo)

/-- `update`. -/
def update (repo : AlertRepository) (alertId : String) (u : AlertUpdate) (now : ℚ) :
    Option (Alert × AlertRepository) :=
  repo.change alertId fun a => applyUpdate u a now

/-- The fields that a resume changes. -/
def applyResume (a : Alert) : Alert :=
  { a with
    status := .active
    ignoredUntil := none
    acknowledgedAt := none
    acknowledgedBy := none }

/-- `resume`. -/
def resume (repo : AlertRepository) (alertId : String) : Option (Alert × AlertRepository) :=
  repo.change alertId applyResume

/-- The fields that a refresh changes in an object. -/
def refreshed (a : Alert) (currentValue : PyFloat) (now : ℚ) : Alert :=
  { a with
    currentValue := currentValue
    lastEvaluatedAt := some now
    triggerCount := (if a.triggerCount = 0 then 1 else a.triggerCount) + 1 }

/-- The refreshed fields are copied onto the cached object with the same id. -/
def patch (a : Alert) : List Alert → List Alert
  | [] => []
  | cached :: rest =>
      if cached.alertId = a.alertId then
        { cached with
          currentValue := a.currentValue
          lastEvaluatedAt := a.lastEvaluatedAt
          triggerCount := a.triggerCount } :: rest
      else cached :: patch a rest

/-- `refresh`. -/
def refresh (repo : AlertRepository) (a : Alert) (currentValue : PyFloat) (now : ℚ) :
    Alert × AlertRepository :=
  let a := refreshed a currentValue now
  (a, { repo with
    db := repo.db.bumpRefresh a.alertId currentValue now
    activeCache := repo.activeCache.map (patch a) })

/-- `delete`. -/
def delete (repo : AlertRepository) (alertId : String) : Bool × AlertRepository :=
  let (found, db) := repo.db.deleteAlert alertId
  (found, { repo with db := db, activeCache := none })

/-- `close_all_alerts`. -/
def closeAllAlerts (repo : AlertRepository) (now : ℚ) : AlertRepository :=
  { repo with
    db := repo.db.bulkUpdateStatus [.active, .acknowledged, .ignored] .closed (some now) none none
    activeCache := none }

/-- `set_rule_ignored`. -/
def setRuleIgnored (repo : AlertRepository) (ruleId : Option String) (deadline : ℚ) :
    AlertRepository :=
  match ruleId with
  | none => repo
  | some ruleId => { repo with ignoredUntil := repo.ignoredUntil.set ruleId deadline }

/-- `clear_rule_ignored`. -/
def clearRuleIgnored (repo : AlertRepository) (ruleId : Option String) : AlertRepository :=
  match ruleId with
  | none => repo
  | some ruleId =>
      { repo with
        db := repo.db.clearIgnoredUntil ruleId
        ignoredUntil := repo.ignoredUntil.erase ruleId }

/-- `is_rule_ignored`: an expired window is dropped. -/
def isRuleIgnored (repo : AlertRepository) (ruleId : Option String) (now : ℚ) :
    Bool × AlertRepository :=
  match ruleId with
  | none => (false, repo)
  | some ruleId =>
      match repo.ignoredUntil.get? ruleId with
      | none => (false, repo)
      | some deadline =>
          if deadline ≤ now then
            (false, { repo with ignoredUntil := repo.ignoredUntil.erase ruleId })
          else (true, repo)

/-- `rule_ignored_until`. -/
def ruleIgnoredUntil (repo : AlertRepository) (ruleId : Option String) (now : ℚ) : Option ℚ :=
  if (repo.isRuleIgnored ruleId now).1 then
    ruleId.bind fun ruleId => repo.ignoredUntil.get? ruleId
  else none

/-- `ignore_all_alerts`. -/
def ignoreAllAlerts (repo : AlertRepository) (durationHours : Nat) (now : ℚ) : AlertRepository :=
  let deadline := now + durationHours * 3600
  let (active, repo) := repo.getActive
  let affected := active.filterMap Alert.ruleId
  let repo := { repo with
    db := repo.db.bulkUpdateStatus [.active, .acknowledged] .ignored none none (some deadline) }
  { affected.foldl (fun repo ruleId => repo.setRuleIgnored (some ruleId) deadline) repo with
    activeCache := none }

/-- `(rule_id, MAX(ignored_until))` of `get_active_ignores`: the latest open window of a rule over
both tables. -/
def storedWindow (db : AeAlarmsDB) (ruleId : String) (now : ℚ) : Option ℚ :=
  ((db.unionAll.filter fun row => decide (row.ruleId = some ruleId)).filterMap fun row =>
    row.ignoredUntil.filter fun deadline => decide (now < deadline)).max?

/-- `_load_ignores`: what a fresh repository takes from the store. -/
def loadIgnores (db : AeAlarmsDB) (now : ℚ) : Dict String ℚ :=
  ((db.unionAll.filterMap Alert.ruleId).foldl (fun windows ruleId =>
    match storedWindow db ruleId now with
    | some deadline => windows.set ruleId deadline
    | none => windows) ∅)

end AlertRepository

namespace AlertManager

open AlertRepository (getActive)

/-- The settings of the correlation, and the correlation groups of the rules. -/
structure Correlation where
  enabled : Bool := true
  windowSeconds : ℚ := 60
  groups : Dict String String := ∅

/-- The correlation group of an alert's rule. -/
def Correlation.group (corr : Correlation) (ruleId : Option String) : Option String :=
  ruleId.bind fun ruleId => orNone (corr.groups.get? ruleId)

/-- When an alert was last seen. -/
def anchor (a : Alert) : ℚ := a.lastEvaluatedAt.getD a.createdAt

/-- `_assign_incident`: the incident to join, or none. -/
def assignIncident (corr : Correlation) (c : AlertCreate) (active : List Alert) (now : ℚ) :
    Option String :=
  if corr.enabled then
    let host := orNone c.sourceHost
    -- `is_ongoing` leaves the ignored alerts out.
    let ongoing := active.filter fun a =>
      (a.status = .active || a.status = .acknowledged) && orNone a.sourceHost = host
    let grouped := (corr.group c.ruleId).bind fun group =>
      (ongoing.find? fun a =>
        decide (corr.group a.ruleId = some group) && (orNone a.incidentId).isSome).bind
          fun a => a.incidentId
    grouped.or <|
      if host.isNone then none
      else
        ((ongoing.insertionSort fun a b => anchor b ≤ anchor a).find? fun a =>
          decide (now - anchor a ≤ corr.windowSeconds) && (orNone a.incidentId).isSome).bind
            fun a => a.incidentId
  else none

/-- What became of a violation: the store refused it, it was merged into the ongoing alert of its
rule, or an alert was created. -/
inductive Processed where
  | refused
  | merged
  | created (a : Alert)

/-- `process_alert`. -/
def processAlert (repo : AlertRepository) (corr : Correlation) (c : AlertCreate)
    (alertId : String) (now : ℚ) : Processed × AlertRepository :=
  let bornIgnoredUntil := repo.ruleIgnoredUntil c.ruleId now
  let repo := (repo.isRuleIgnored c.ruleId now).2
  let (existing, repo) := repo.getActive
  match existing.filter fun a => decide (a.ruleId = c.ruleId) && a.status.live with
  | a :: _ => (.merged, (repo.refresh a c.currentValue now).2)
  | [] =>
      let c := match assignIncident corr c existing now with
        | some incident => { c with incidentId := some incident }
        | none => c
      match repo.create c alertId now with
      | none => (.refused, repo)
      | some (alert, repo) =>
          let (alert, repo) := match bornIgnoredUntil with
            | some deadline =>
                (repo.update alertId { status := .ignored, ignoredUntil := some deadline } now).getD
                  (alert, repo)
            | none => (alert, repo)
          (.created alert, repo.recordEvent alertId .created now none)

/-- `acknowledge_alert`; a closed alert is refused. -/
def acknowledgeAlert (repo : AlertRepository) (alertId : String) (now : ℚ) :
    Option (Alert × AlertRepository) :=
  (repo.getById alertId).bind fun alert =>
    if alert.status = .closed then none
    else (repo.update alertId { status := .acknowledged } now).map fun (result, repo) =>
      (result, (repo.clearRuleIgnored alert.ruleId).recordEvent alertId .acknowledged now
        result.acknowledgedBy)

/-- `close_alert`. The status of the alert is not looked at. -/
def closeAlert (repo : AlertRepository) (alertId : String) (reason : Option String)
    (resolvedValue : Option PyFloat) (now : ℚ) : Option (Alert × AlertRepository) :=
  (repo.getById alertId).bind fun alert =>
    (repo.update alertId
      { status := .closed, resolutionReason := reason, resolvedValue := resolvedValue } now).map
      fun (result, repo) =>
        let repo := if reason = some "auto" then repo else repo.clearRuleIgnored alert.ruleId
        (result, repo.recordEvent alertId .closed now alert.acknowledgedBy)

/-- `close_rule_alerts`. -/
def closeRuleAlerts (repo : AlertRepository) (ruleId : String) (reason : String) (now : ℚ) :
    AlertRepository :=
  let (active, repo) := repo.getActive
  (active.filter fun a => a.status.live && decide (a.ruleId = some ruleId)).foldl
    (fun repo a => match closeAlert repo a.alertId (some reason) none now with
      | some (_, repo) => repo
      | none => repo) repo

/-- `delete_alert`. -/
def deleteAlert (repo : AlertRepository) (alertId : String) : Bool × AlertRepository :=
  let existing := repo.getById alertId
  let (found, repo) := repo.delete alertId
  match found, existing with
  | true, some alert => (true, repo.clearRuleIgnored alert.ruleId)
  | found, _ => (found, repo)

/-- `ignore_alert`; a closed alert is refused. -/
def ignoreAlert (repo : AlertRepository) (alertId : String) (durationHours : Nat) (now : ℚ) :
    Option (Alert × AlertRepository) :=
  (repo.getById alertId).bind fun alert =>
    if alert.status = .closed then none
    else
      let deadline := now + durationHours * 3600
      (repo.update alertId { status := .ignored, ignoredUntil := some deadline } now).map
        fun (result, repo) =>
          (result, (repo.setRuleIgnored alert.ruleId deadline).recordEvent alertId
            .ignored now none)

/-- `resume_alert`. The status of the alert is not looked at. -/
def resumeAlert (repo : AlertRepository) (alertId : String) (now : ℚ) :
    Option (Alert × AlertRepository) :=
  (repo.getById alertId).bind fun alert =>
    (repo.resume alertId).map fun (result, repo) =>
      (result, (repo.clearRuleIgnored alert.ruleId).recordEvent alertId
        (if alert.status = .ignored then .ignoreEnded else .unacknowledged) now none)

end AlertManager

end SystemsManager.Alarms
