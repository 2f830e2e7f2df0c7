import SystemsManager.Alarms.AlertStore

/-!
# The notification dispatcher

An alert that fires, is acknowledged or is resolved goes through the policies, which select the
channels to send to. `policiesThatShouldDispatch` filters the policies and remembers which of them
have dispatched for which alert; after it the incident of the alert may still silence the selection.
`send` is the part of `_send_notifications_async` up to the first send, which runs without a break.
Deliveries and the end of the dispatch follow as steps of their own.
-/

namespace SystemsManager.Alarms

open Python

/-- `NotificationConfig`, with the fields that the dispatcher reads. -/
structure NotificationConfig where
  configId : String
  channels : List String
  enabled : Bool := true
  minSeverity : Option String := none
  metricSources : List String := []
  metricNames : List String := []
  sourceHosts : List String := []
  ruleIds : List String := []
  repeatIntervalMinutes : Nat := 30
  notifyOnClear : Bool := false
  minAlarmCount : Nat := 1
  deriving DecidableEq

/-- `SEVERITY_RANK`. -/
def severityRank (severity : String) : Option Nat :=
  if severity = "info" then some 0
  else if severity = "warning" then some 1
  else if severity = "critical" then some 2
  else none

namespace NotificationConfig

/-- An empty filter lets everything pass. -/
def passes (filter : List String) (value : String) : Bool := filter.isEmpty || filter.contains value

/-- The severity floor. Severities are compared without regard to case, and an unknown floor is
none. -/
def passesSeverity (p : NotificationConfig) (a : Alert) : Bool :=
  match (orNone p.minSeverity).bind fun floor => severityRank floor.toLower with
  | none => true
  | some floor => (severityRank a.severity.toLower).any fun level => decide (floor ≤ level)

/-- `matches_alert`. -/
def matchesAlert (p : NotificationConfig) (a : Alert) : Bool :=
  p.passesSeverity a && passes p.metricSources a.metricSource &&
    passes p.metricNames a.metricName &&
    passes p.sourceHosts (a.sourceHost.getD "") && passes p.ruleIds (a.ruleId.getD "")

/-- `min_alarm_count or 1`. -/
def minCount (p : NotificationConfig) : Nat := if p.minAlarmCount = 0 then 1 else p.minAlarmCount

end NotificationConfig

/-- What has happened to the alert. -/
inductive AlertSignal where
  | firing
  | acknowledged
  | resolved
  deriving DecidableEq

/-- `_HANDLED_STATUSES`. -/
def AlertStatus.handled : AlertStatus → Bool
  | .acknowledged => true
  | .ignored => true
  | .closed => true
  | .active => false
  | .exception => false

/-- `NotificationDispatcher`. No sweep yet is a sweep at minus infinity. -/
structure Dispatcher where
  breachCount : Dict String Nat := ∅
  incidentDispatched : Dict String ℚ := ∅
  sendOk : List String := []
  lastDispatchTs : Dict (String × String) ℚ := ∅
  dispatchedFirst : List (String × String) := []
  lastSweepTs : Option ℚ := none

namespace Dispatcher

/-- The rate limit holds a policy back: it has dispatched for the alert, and not long ago. -/
def isRepeat (d : Dispatcher) (p : NotificationConfig) (alertId : String) (now : ℚ) : Bool :=
  let window := p.repeatIntervalMinutes * 60
  0 < window && d.dispatchedFirst.contains (p.configId, alertId) &&
    now - d.lastDispatchTs.getD (p.configId, alertId) 0 < window

/-- The tests that a policy passes on a firing alert. -/
def isDue (d : Dispatcher) (p : NotificationConfig) (a : Alert) (breaches : Nat) (now : ℚ) : Bool :=
  p.matchesAlert a && p.minCount ≤ breaches && !d.isRepeat p a.alertId now && !p.channels.isEmpty

/-- A policy has dispatched for an alert. -/
def stamp (d : Dispatcher) (p : NotificationConfig) (alertId : String) (now : ℚ) : Dispatcher :=
  { d with
    lastDispatchTs := d.lastDispatchTs.set (p.configId, alertId) now
    dispatchedFirst := d.dispatchedFirst.insert (p.configId, alertId) }

/-- The loop over the policies of a firing alert: those that are due, each of them stamped. -/
def firing (a : Alert) (breaches : Nat) (now : ℚ) :
    List NotificationConfig → Dispatcher → List NotificationConfig × Dispatcher
  | [], d => ([], d)
  | p :: rest, d =>
      if d.isDue p a breaches now then
        let (due, d) := firing a breaches now rest (d.stamp p a.alertId now)
        (p :: due, d)
      else firing a breaches now rest d

/-- What is forgotten of an alert that is resolved. -/
def forget (d : Dispatcher) (alertId : String) : Dispatcher :=
  { d with
    breachCount := d.breachCount.erase alertId
    dispatchedFirst := d.dispatchedFirst.filter fun key => key.2 ≠ alertId
    lastDispatchTs := d.lastDispatchTs.filter fun key _ => key.2 ≠ alertId }

/-- A policy sends a clear for a resolved alert. -/
def isCleared (d : Dispatcher) (a : Alert) (p : NotificationConfig) : Bool :=
  p.matchesAlert a && p.notifyOnClear && d.dispatchedFirst.contains (p.configId, a.alertId) &&
    !p.channels.isEmpty

/-- `_policies_that_should_dispatch`: the policies whose channels are selected. -/
def policiesThatShouldDispatch (d : Dispatcher) (a : Alert) (event : AlertSignal)
    (policies : List NotificationConfig) (now : ℚ) : List NotificationConfig × Dispatcher :=
  let silent := { d with breachCount := d.breachCount.erase a.alertId }
  match event with
  | .acknowledged => ([], silent)
  | .resolved => (policies.filter (d.isCleared a), d.forget a.alertId)
  | .firing =>
      if a.status.handled then ([], silent)
      else
        let breaches := d.breachCount.getD a.alertId 0 + 1
        firing a breaches now policies
          { d with breachCount := d.breachCount.set a.alertId breaches }

/-- `_SWEEP_MIN_INTERVAL_S`. -/
def sweepMinIntervalS : ℚ := 5

/-- `_sweep_incident_dispatched`: claims of incidents without an ongoing member, or without their
root, are dropped. -/
def sweepIncidentDispatched (d : Dispatcher) (active : List Alert) (clock : ℚ) : Dispatcher :=
  if d.incidentDispatched.items.isEmpty then d
  else if d.lastSweepTs.any fun last => decide (clock - last < sweepMinIntervalS) then d
  else
    { d with
      lastSweepTs := some clock
      incidentDispatched := d.incidentDispatched.filter fun incident _ =>
        (active.any fun a => decide (a.incidentId = some incident)) &&
          active.any fun a => decide (a.alertId = incident) }

/-- The incident of an alert that has joined one that another alert began. -/
def joined (a : Alert) : Option String := (orNone a.incidentId).filter (· ≠ a.alertId)

/-- `_incident_channel_suppressed`: the alert has joined an incident that has already notified. -/
def incidentChannelSuppressed (d : Dispatcher) (a : Alert) (event : AlertSignal)
    (notifyPerIncident : Bool) : Bool :=
  decide (event = .firing) && notifyPerIncident &&
    (joined a).any fun incident => (d.incidentDispatched.get? incident).isSome

/-- `setdefault` on the incidents that have notified. -/
def recordIncident (d : Dispatcher) (incident : Option String) (clock : ℚ) : Dispatcher :=
  match orNone incident with
  | none => d
  | some incident =>
      { d with incidentDispatched := d.incidentDispatched.setDefault incident clock }

/-- A notification: what has happened to which alert, and what the dispatcher then reads: the
configured policies, which have distinct ids, the ongoing alerts, the setting of the correlation,
and the two clocks. -/
structure Notification where
  event : AlertSignal
  alert : Alert
  configs : List NotificationConfig
  distinct : (configs.map NotificationConfig.configId).Nodup
  active : List Alert
  notifyPerIncident : Bool
  now : ℚ
  clock : ℚ

/-- `_enabled_policies`. -/
def Notification.policies (n : Notification) : List NotificationConfig :=
  n.configs.filter NotificationConfig.enabled

/-- What a dispatch came to: the policies whose channels the filters selected, and whether the
incident silenced them. -/
structure Outcome where
  selected : List NotificationConfig
  silenced : Bool

/-- The channels that are sent to. -/
def Outcome.channels (out : Outcome) : List String :=
  if out.silenced then [] else (out.selected.flatMap NotificationConfig.channels).dedup

/-- `_send_notifications_async`, up to the first send: the filters, the sweep, the suppression and
the claim. -/
def send (d : Dispatcher) (n : Notification) : Outcome × Dispatcher :=
  let (selected, d) := d.policiesThatShouldDispatch n.alert n.event n.policies n.now
  let d := d.sweepIncidentDispatched n.active n.clock
  let silenced := d.incidentChannelSuppressed n.alert n.event n.notifyPerIncident
  let out : Outcome := ⟨selected, silenced⟩
  if n.event = .firing && !out.channels.isEmpty && n.notifyPerIncident then
    (out, d.recordIncident n.alert.incidentId n.clock)
  else (out, d)

/-- `_record_delivery` of a send that succeeded. -/
def delivered (d : Dispatcher) (a : Alert) (event : AlertSignal) (clock : ℚ) : Dispatcher :=
  let d := { d with sendOk := d.sendOk.insert a.alertId }
  if event = .firing then d.recordIncident a.incidentId clock else d

/-- The end of a dispatch: a claim is released where no send succeeded. -/
def finish (d : Dispatcher) (alertId : String) (claimed : Option String) : Dispatcher :=
  let sentOk := d.sendOk.contains alertId
  let d := { d with sendOk := d.sendOk.filter (· ≠ alertId) }
  match claimed with
  | some incident =>
      if sentOk then d
      else { d with incidentDispatched := d.incidentDispatched.erase incident }
  | none => d

end Dispatcher

end SystemsManager.Alarms
