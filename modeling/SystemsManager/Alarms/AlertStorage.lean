import Mathlib.Data.List.Infix
import SystemsManager.Alarms.RuleStorage
import SystemsManager.Sql.Order

/-!
# How an alert is stored

An alert passes through `to_dict`, the columns of `write_alert`, the row, `_row_to_alert` and
`_dict_to_alert`. `alerts_survive` is the theorem to read: a new alert is found by its id and among
the active ones, as it was created, for as long as nothing writes it, if and only if its message
and its severity are not empty and, whenever the active alerts are read from the database, fewer
than a thousand ongoing ones stand before it. An empty message is stored as `NULL`, which is no
message, and the row is skipped. Times are kept as the instants that their texts stand for.
-/

namespace SystemsManager.Alarms

open Python Sql

/-- `AlertStatus(...).value`. -/
def AlertStatus.value : AlertStatus → String
  | .active => "active"
  | .acknowledged => "acknowledged"
  | .closed => "closed"
  | .ignored => "ignored"
  | .exception => "exception"

/-- `AlertStatus(value)`. -/
def AlertStatus.ofValue (value : String) : Option AlertStatus :=
  [.active, .acknowledged, .closed, .ignored, .exception].find? fun status : AlertStatus =>
    status.value == value

theorem AlertStatus.of_value (status : AlertStatus) : ofValue status.value = some status := by
  cases status <;> decide

namespace Storage

open Settings (integerBound orCount orDefault or_default_texts or_none_or_none)

section Layers

/-- An alert as a dictionary. One that is read from a row may have no message. -/
structure AlertDict where
  alertId : String
  ruleId : Option String
  ruleName : Option String
  metricSource : String
  metricName : String
  sourceHost : Option String
  incidentId : Option String
  currentValue : PyFloat
  thresholdValue : PyFloat
  severity : String
  status : String
  message : Option String
  triggerCount : Nat
  acknowledgedBy : Option String
  exceptionDetails : Option String
  resolutionReason : Option String
  resolvedValue : Option PyFloat
  notificationChannelIds : Json
  createdAt : ℚ
  lastEvaluatedAt : Option ℚ
  acknowledgedAt : Option ℚ
  closedAt : Option ℚ
  ignoredUntil : Option ℚ

/-- A row of `alerts` or of `alert_history`. The JSON column has the value whose text it holds. The
two columns of the chart window are `NULL` in every row that is written from an alert. -/
structure AlertRow where
  alertId : String
  ruleId : Option String
  ruleName : Option String
  metricSource : String
  metricName : String
  sourceHost : Option String
  incidentId : Option String
  currentValue : PyFloat
  thresholdValue : PyFloat
  severity : String
  status : String
  message : Option String
  triggerCount : Nat
  acknowledgedBy : Option String
  exceptionDetails : Option String
  resolutionReason : Option String
  resolvedValue : Option PyFloat
  notificationChannelIdsJson : Json
  createdAt : ℚ
  lastEvaluatedAt : Option ℚ
  acknowledgedAt : Option ℚ
  closedAt : Option ℚ
  ignoredUntil : Option ℚ

/-- `to_dict`. -/
def toDict (a : Alert) : AlertDict where
  alertId := a.alertId
  ruleId := a.ruleId
  ruleName := a.ruleName
  metricSource := a.metricSource
  metricName := a.metricName
  sourceHost := a.sourceHost
  incidentId := a.incidentId
  currentValue := a.currentValue
  thresholdValue := a.thresholdValue
  severity := a.severity
  status := a.status.value
  message := some a.message
  triggerCount := a.triggerCount
  acknowledgedBy := a.acknowledgedBy
  exceptionDetails := a.exceptionDetails
  resolutionReason := a.resolutionReason
  resolvedValue := a.resolvedValue
  notificationChannelIds := Codec.str.list.dump a.notificationChannelIds
  createdAt := a.createdAt
  lastEvaluatedAt := a.lastEvaluatedAt
  acknowledgedAt := a.acknowledgedAt
  closedAt := a.closedAt
  ignoredUntil := a.ignoredUntil

/-- The columns that `write_alert` makes. A `nan` is a `NULL`, which the two values must not be, and
a count that is too large for its column raises. -/
def toColumns (a : AlertDict) : Option AlertRow :=
  let channels := orDefault a.notificationChannelIds (.list [])
  let triggerCount := orCount a.triggerCount 1
  if a.currentValue ≠ .nan && a.thresholdValue ≠ .nan && channels.dumpable &&
      decide (triggerCount < integerBound) then
    some {
      alertId := a.alertId
      ruleId := orNone a.ruleId
      ruleName := orNone a.ruleName
      metricSource := a.metricSource
      metricName := a.metricName
      sourceHost := orNone a.sourceHost
      incidentId := orNone a.incidentId
      currentValue := a.currentValue
      thresholdValue := a.thresholdValue
      severity := if a.severity = "" then "info" else a.severity
      status := a.status
      message := orNone a.message
      triggerCount := triggerCount
      acknowledgedBy := orNone a.acknowledgedBy
      exceptionDetails := orNone a.exceptionDetails
      resolutionReason := orNone a.resolutionReason
      resolvedValue := a.resolvedValue.filter (· ≠ .nan)
      notificationChannelIdsJson := channels
      createdAt := a.createdAt
      lastEvaluatedAt := a.lastEvaluatedAt
      acknowledgedAt := a.acknowledgedAt
      closedAt := a.closedAt
      ignoredUntil := a.ignoredUntil }
  else none

/-- `_row_to_alert`. -/
def rowToAlert (row : AlertRow) : AlertDict where
  alertId := row.alertId
  ruleId := row.ruleId
  ruleName := row.ruleName
  metricSource := row.metricSource
  metricName := row.metricName
  sourceHost := row.sourceHost
  incidentId := row.incidentId
  currentValue := row.currentValue
  thresholdValue := row.thresholdValue
  severity := row.severity
  status := row.status
  message := row.message
  triggerCount := row.triggerCount
  acknowledgedBy := row.acknowledgedBy
  exceptionDetails := row.exceptionDetails
  resolutionReason := row.resolutionReason
  resolvedValue := row.resolvedValue
  notificationChannelIds := row.notificationChannelIdsJson
  createdAt := row.createdAt
  lastEvaluatedAt := row.lastEvaluatedAt
  acknowledgedAt := row.acknowledgedAt
  closedAt := row.closedAt
  ignoredUntil := row.ignoredUntil

/-- `_dict_to_alert`, where it raises nothing. The model refuses an alert without a message. -/
def dictToAlert (data : AlertDict) : Option Alert := do
  let channels ← Codec.str.list.load data.notificationChannelIds
  let status ← AlertStatus.ofValue data.status
  let message ← data.message
  pure {
    alertId := data.alertId
    ruleId := data.ruleId
    ruleName := data.ruleName
    metricSource := data.metricSource
    metricName := data.metricName
    sourceHost := data.sourceHost
    incidentId := data.incidentId
    currentValue := data.currentValue
    thresholdValue := data.thresholdValue
    severity := data.severity
    status := status
    message := message
    triggerCount := orCount data.triggerCount 1
    acknowledgedBy := data.acknowledgedBy
    exceptionDetails := data.exceptionDetails
    resolutionReason := orNone data.resolutionReason
    resolvedValue := data.resolvedValue
    notificationChannelIds := channels
    createdAt := data.createdAt
    lastEvaluatedAt := data.lastEvaluatedAt
    acknowledgedAt := data.acknowledgedAt
    closedAt := data.closedAt
    ignoredUntil := data.ignoredUntil }

end Layers

section Repository

/-- The two tables of `AeAlarmsDB`. -/
structure Store where
  alerts : Table AlertRow.alertId
  history : Table AlertRow.alertId

/-- The status is in `_LIVE_STATUSES`. -/
def isLive (row : AlertRow) : Bool := ["active", "acknowledged", "ignored"].contains row.status

/-- `write_alert`: insert, or update the columns that can change, and then move the row by its
status. Nothing where a column refuses its value. -/
def Store.writeAlert (store : Store) (a : AlertDict) : Option Store :=
  (toColumns a).map fun columns =>
    let row := match store.alerts.find? columns.alertId with
      | none => columns
      | some old =>
          { columns with
            ruleId := old.ruleId
            metricSource := old.metricSource
            metricName := old.metricName
            createdAt := old.createdAt }
    let isIt := fun other : AlertRow => decide (other.alertId = columns.alertId)
    let alerts := store.alerts.put row
    if isLive row then ⟨alerts, store.history.delete isIt⟩
    else ⟨alerts.delete isIt, store.history.put row⟩

/-- `delete_alert`. -/
def Store.deleteAlert (store : Store) (alertId : String) : Store :=
  let isIt := fun other : AlertRow => decide (other.alertId = alertId)
  ⟨store.alerts.delete isIt, store.history.delete isIt⟩

/-- `get_alert`: the live table first, then the history. -/
def Store.getAlert (store : Store) (alertId : String) : Option AlertRow :=
  (store.alerts.find? alertId).or (store.history.find? alertId)

/-- `ORDER BY created_at DESC`. -/
def newer (a b : AlertRow) : Prop := b.createdAt ≤ a.createdAt

instance : DecidableRel newer := fun a b => inferInstanceAs (Decidable (b.createdAt ≤ a.createdAt))

instance : Std.Total newer := ⟨fun a b => le_total b.createdAt a.createdAt⟩

instance : IsTrans AlertRow newer := ⟨fun _ _ _ hab hbc => le_trans hbc hab⟩

/-- `query_active`. -/
def Store.queryActive (store : Store) : List AlertRow :=
  ((store.alerts.rows.filter isLive).insertionSort newer).take AlertRepository.activeLimit

/-- `AlertRepository`, without the ignore windows and the events. -/
structure Repository where
  store : Store
  activeCache : Option (List Alert) := none

/-- `_save_alert`, and `_invalidate_active_cache` where the caller asks for it. Where the write
raises, nothing changes. -/
def save (repo : Repository) (a : Alert) (invalidate : Bool) : Repository :=
  match repo.store.writeAlert (toDict a) with
  | none => repo
  | some store => ⟨store, if invalidate then none else repo.activeCache⟩

/-- `create`, with the id that `uuid4` gives. -/
def create (repo : Repository) (c : AlertCreate) (alertId : String) (now : ℚ) : Repository :=
  save repo (c.toAlert alertId now) true

/-- `get_by_id`. -/
def getById (repo : Repository) (alertId : String) : Option Alert :=
  (repo.store.getAlert alertId).bind fun row => dictToAlert (rowToAlert row)

/-- `get_active`: the cached list while it lasts. Rows that cannot be read are skipped. -/
def getActive (repo : Repository) : List Alert × Repository :=
  match repo.activeCache with
  | some alerts => (alerts, repo)
  | none =>
      let alerts := repo.store.queryActive.filterMap fun row => dictToAlert (rowToAlert row)
      (alerts, { repo with activeCache := some alerts })

/-- What may happen to a repository: an alert is written, with or without dropping the cached list,
or deleted, the active alerts are asked for, or the cached list expires. -/
inductive Op where
  | save (a : Alert) (invalidate : Bool)
  | delete (alertId : String)
  | getActive
  | expire

/-- The repository after an operation. -/
def step (repo : Repository) : Op → Repository
  | .save a invalidate => save repo a invalidate
  | .delete alertId => ⟨repo.store.deleteAlert alertId, none⟩
  | .getActive => (getActive repo).2
  | .expire => { repo with activeCache := none }

/-- The operation is about another alert. -/
def Op.Spares (alertId : String) : Op → Prop
  | .save a _ => a.alertId ≠ alertId
  | .delete other => other ≠ alertId
  | _ => True

/-- The repository after an alert was created and other things happened. -/
def after (repo : Repository) (c : AlertCreate) (alertId : String) (now : ℚ) (later : List Op) :
    Repository :=
  later.foldl step (create repo c alertId now)

/-- The number of ongoing alerts that stand before an alert in the list of the active ones: those
created later, and those created at the same time that were stored before. -/
def standBefore (store : Store) (alertId : String) (createdAt : ℚ) : Nat :=
  let live := store.alerts.rows.filter isLive
  ((live.takeWhile fun row => row.alertId ≠ alertId).countP fun row =>
      decide (createdAt ≤ row.createdAt)) +
    (live.dropWhile fun row => row.alertId ≠ alertId).countP fun row =>
      decide (createdAt < row.createdAt)

/-- An alert with its empty optional texts absent. -/
def normalise (a : Alert) : Alert :=
  { a with
    ruleId := orNone a.ruleId
    ruleName := orNone a.ruleName
    sourceHost := orNone a.sourceHost
    incidentId := orNone a.incidentId
    acknowledgedBy := orNone a.acknowledgedBy
    exceptionDetails := orNone a.exceptionDetails
    resolutionReason := orNone a.resolutionReason }

end Repository

section RoundTrip

variable {a : Alert} {row : AlertRow}

/-- What the layers make of an alert. -/
def readAs (a : Alert) : Alert :=
  { normalise a with
    severity := if a.severity = "" then "info" else a.severity
    triggerCount := orCount a.triggerCount 1
    resolvedValue := a.resolvedValue.filter (· ≠ .nan) }

/-- A count is replaced once. -/
theorem or_count_or_count (n : Nat) : orCount (orCount n 1) 1 = orCount n 1 := by
  unfold orCount
  split
  · simp
  · rfl

theorem read_columns (h : toColumns (toDict a) = some row) :
    row.alertId = a.alertId ∧ row.status = a.status.value ∧ row.createdAt = a.createdAt ∧
      dictToAlert (rowToAlert row) = if a.message = "" then none else some (readAs a) := by
  have hchannels : orDefault (toDict a).notificationChannelIds (.list []) =
      Codec.str.list.dump a.notificationChannelIds := or_default_texts _
  simp only [toColumns, hchannels] at h
  split at h
  · cases h
    refine ⟨rfl, rfl, rfl, ?_⟩
    have hstatus : AlertStatus.ofValue (toDict a).status = some a.status := a.status.of_value
    simp only [dictToAlert, rowToAlert, Codec.load_dump, hstatus, or_count_or_count,
      Option.bind_eq_bind, Option.bind_some]
    by_cases hmessage : a.message = ""
    · have hnone : orNone (toDict a).message = none := by simp [toDict, orNone, hmessage]
      rw [if_pos hmessage, hnone]
      rfl
    · have hsome : orNone (toDict a).message = some a.message := by
        simp [toDict, orNone, hmessage]
      rw [if_neg hmessage, hsome]
      simp only [toDict, readAs, normalise, or_none_or_none, Option.bind_some, Option.pure_def]
      rfl
  · cases h

theorem to_columns_some (hcurrent : a.currentValue ≠ .nan) (hthreshold : a.thresholdValue ≠ .nan)
    (hcount : orCount a.triggerCount 1 < integerBound) :
    ∃ row, toColumns (toDict a) = some row := by
  have hchannels : orDefault (toDict a).notificationChannelIds (.list []) =
      Codec.str.list.dump a.notificationChannelIds := or_default_texts _
  have hdumpable : (Codec.str.list.dump a.notificationChannelIds).dumpable = true :=
    Json.dumpable_strings _
  have hif : ((toDict a).currentValue ≠ .nan && (toDict a).thresholdValue ≠ .nan &&
      (Codec.str.list.dump a.notificationChannelIds).dumpable &&
      decide (orCount (toDict a).triggerCount 1 < integerBound)) = true := by
    simp only [Bool.and_eq_true, decide_eq_true_eq]
    exact ⟨⟨⟨hcurrent, hthreshold⟩, hdumpable⟩, hcount⟩
  simp only [toColumns, hchannels, hif, if_true]
  exact ⟨_, rfl⟩

end RoundTrip

section Survival

variable {repo : Repository} {row : AlertRow} {c : AlertCreate} {alertId : String}

theorem write_keeps {store next : Store} {a : Alert} (hrow : row ∈ store.alerts.rows)
    (ha : a.alertId ≠ row.alertId) (h : store.writeAlert (toDict a) = some next) :
    row ∈ next.alerts.rows := by
  rw [Store.writeAlert, Option.map_eq_some_iff] at h
  obtain ⟨columns, hcolumns, h⟩ := h
  have hid : columns.alertId ≠ row.alertId := by
    rw [(read_columns hcolumns).1]
    exact ha
  dsimp only at h
  generalize hwritten : (match store.alerts.find? columns.alertId with
    | none => columns
    | some old => _) = written at h
  have hkey : written.alertId = columns.alertId := by
    rw [← hwritten]
    split <;> rfl
  have hput : row ∈ (store.alerts.put written).rows := by
    rw [Table.mem_put]
    right
    exact ⟨hrow, by rw [hkey]; exact fun heq => hid heq.symm⟩
  split at h
  · cases h
    exact hput
  · cases h
    rw [Table.mem_delete]
    exact ⟨hput, by simpa using fun heq => hid heq.symm⟩

theorem read_alert_id {a : Alert} (h : dictToAlert (rowToAlert row) = some a) :
    a.alertId = row.alertId := by
  simp only [dictToAlert, Option.bind_eq_bind, Option.bind_eq_some_iff, Option.pure_def,
    Option.some.injEq] at h
  obtain ⟨channels, -, status, -, message, -, rfl⟩ := h
  rfl

theorem mem_query_active {store : Store} (hrow : row ∈ store.alerts.rows)
    (hlive : isLive row = true) : row ∈ store.queryActive ↔
      standBefore store row.alertId row.createdAt < AlertRepository.activeLimit := by
  have hkeys := Table.nodup_filter (t := store.alerts) isLive
  have hmem : row ∈ store.alerts.rows.filter isLive := List.mem_filter.mpr ⟨hrow, hlive⟩
  rw [Store.queryActive, standBefore]
  generalize store.alerts.rows.filter isLive = live at hkeys hmem ⊢
  obtain ⟨front, back, rfl, hfront⟩ : ∃ front back, live = front ++ row :: back ∧
      ∀ other ∈ front, other.alertId ≠ row.alertId := by
    obtain ⟨front, back, rfl⟩ := List.append_of_mem hmem
    refine ⟨front, back, rfl, ?_⟩
    rw [List.map_append, List.nodup_append] at hkeys
    intro other hother
    exact hkeys.2.2 _ (List.mem_map_of_mem hother) _ (by simp)
  rw [mem_take_iff_ahead newer (List.Nodup.of_map _ hkeys)]
  have htake : ((front ++ row :: back).takeWhile fun other => other.alertId ≠ row.alertId) =
      front := by
    rw [List.takeWhile_append_of_pos (by simpa using hfront), List.takeWhile_cons_of_neg (by simp),
      List.append_nil]
  have hdrop : ((front ++ row :: back).dropWhile fun other => other.alertId ≠ row.alertId) =
      row :: back := by
    rw [List.dropWhile_append_of_pos (by simpa using hfront), List.dropWhile_cons_of_neg (by simp)]
  have hback : (fun other => !decide (newer row other)) =
      fun other : AlertRow => decide (row.createdAt < other.createdAt) := by
    funext other
    by_cases hle : other.createdAt ≤ row.createdAt
    · simp [newer, hle, not_lt.mpr hle]
    · simp [newer, hle, not_le.mp hle]
  simp only [htake, hdrop, ahead, hback, List.countP_cons, lt_irrefl, decide_false,
    Bool.false_eq_true, if_false, Nat.add_zero]
  rfl

attribute [local simp] save in
theorem create_has (now : ℚ) (hcurrent : c.currentValue ≠ .nan)
    (hthreshold : c.thresholdValue ≠ .nan)
    (hnew : ∀ other ∈ repo.store.alerts.rows, other.alertId ≠ alertId) :
    ∃ row, toColumns (toDict (c.toAlert alertId now)) = some row ∧
      row ∈ (create repo c alertId now).store.alerts.rows ∧
      (create repo c alertId now).activeCache = none := by
  obtain ⟨row, hrow⟩ := to_columns_some (a := c.toAlert alertId now) hcurrent hthreshold
    (show orCount 1 1 < integerBound by decide)
  refine ⟨row, hrow, ?_⟩
  obtain ⟨hid, hstatus, -, -⟩ := read_columns hrow
  have hfind : repo.store.alerts.find? row.alertId = none := by
    rw [Table.find_eq_none, hid]
    exact hnew
  have hlive : isLive row = true := by
    rw [isLive, hstatus]
    rfl
  have hwrite : repo.store.writeAlert (toDict (c.toAlert alertId now)) =
      some ⟨repo.store.alerts.put row,
        repo.store.history.delete fun other => decide (other.alertId = row.alertId)⟩ := by
    simp only [Store.writeAlert, hrow, Option.map_some, hfind, hlive, if_true]
  rw [create, save, hwrite]
  exact ⟨Table.mem_put.mpr (.inl rfl), rfl⟩

theorem step_keeps {op : Op} (hop : op.Spares row.alertId)
    (hrow : row ∈ repo.store.alerts.rows) : row ∈ (step repo op).store.alerts.rows := by
  cases op with
  | save a invalidate =>
      simp only [step, save]
      split
      · exact hrow
      · rename_i store hwrite
        exact write_keeps hrow hop hwrite
  | delete other =>
      simp only [step, Store.deleteAlert, Table.mem_delete]
      exact ⟨hrow, by simpa using fun heq => hop heq.symm⟩
  | getActive =>
      simp only [step, getActive]
      split
      · exact hrow
      · exact hrow
  | expire => exact hrow

theorem after_has {later : List Op} (hlater : ∀ op ∈ later, op.Spares row.alertId)
    (hrow : row ∈ repo.store.alerts.rows) : row ∈ (later.foldl step repo).store.alerts.rows := by
  induction later generalizing repo with
  | nil => exact hrow
  | cons op later ih =>
      exact ih (fun o ho => hlater o (List.mem_cons_of_mem _ ho))
        (step_keeps (hlater op (List.mem_cons_self ..)) hrow)

/-- The list of the active alerts has the alert, or it was not kept. -/
def Cached (a : Alert) (repo : Repository) : Prop := ∀ alerts ∈ repo.activeCache, a ∈ alerts

theorem get_active_has {a : Alert} (hrow : row ∈ repo.store.alerts.rows)
    (hlive : isLive row = true) (hread : dictToAlert (rowToAlert row) = some a)
    (hcached : Cached a repo)
    (hbefore : repo.activeCache = none →
      standBefore repo.store row.alertId row.createdAt < AlertRepository.activeLimit) :
    a ∈ (getActive repo).1 := by
  rw [getActive]
  split
  · rename_i alerts hcache
    exact hcached alerts hcache
  · rename_i hcache
    exact List.mem_filterMap.mpr ⟨row, (mem_query_active hrow hlive).mpr (hbefore hcache), hread⟩

theorem step_cached {a : Alert} {op : Op} (hrow : row ∈ repo.store.alerts.rows)
    (hlive : isLive row = true) (hread : dictToAlert (rowToAlert row) = some a)
    (hcached : Cached a repo)
    (hbefore : repo.activeCache = none →
      standBefore repo.store row.alertId row.createdAt < AlertRepository.activeLimit) :
    Cached a (step repo op) := by
  cases op with
  | save other invalidate =>
      simp only [step, save]
      split
      · exact hcached
      · cases invalidate with
        | true => exact fun alerts h => nomatch h
        | false => exact hcached
  | delete other => exact fun alerts h => nomatch h
  | getActive =>
      have hmem := get_active_has hrow hlive hread hcached hbefore
      simp only [step, getActive] at hmem ⊢
      split
      · rename_i alerts hcache
        exact hcached
      · rename_i hcache
        intro alerts halerts
        rw [hcache] at hmem
        cases halerts
        exact hmem
  | expire => exact fun alerts h => nomatch h

/-- A new alert is found as it was created, by its id and among the active ones, while only other
alerts change, if and only if its message and its severity are not empty and fewer than a thousand
ongoing alerts stand before it whenever the active ones are read. -/
theorem alerts_survive (repo : Repository) (c : AlertCreate) {current threshold : ℚ}
    (hcurrent : c.currentValue = .finite current)
    (hthreshold : c.thresholdValue = .finite threshold)
    {alertId : String} (hnew : ∀ row ∈ repo.store.alerts.rows, row.alertId ≠ alertId) (now : ℚ)
    {later : List Op} (hlater : ∀ op ∈ later, op.Spares alertId) :
    (∀ done, done <+: later →
      getById (after repo c alertId now done) alertId = some (normalise (c.toAlert alertId now)) ∧
      normalise (c.toAlert alertId now) ∈ (getActive (after repo c alertId now done)).1) ↔
      c.message ≠ "" ∧ c.severity ≠ "" ∧ ∀ done, done <+: later →
        (after repo c alertId now done).activeCache = none →
        standBefore (after repo c alertId now done).store alertId now <
          AlertRepository.activeLimit := by
  obtain ⟨row, hcolumns, hrow, hcache⟩ := create_has now (by rw [hcurrent]; simp)
    (by rw [hthreshold]; simp) hnew
  obtain ⟨hid, hstatus, hat, hread⟩ := read_columns hcolumns
  have hlive : isLive row = true := by
    rw [isLive, hstatus]
    rfl
  have hhas : ∀ done, done <+: later →
      row ∈ (after repo c alertId now done).store.alerts.rows := by
    intro done hdone
    refine after_has ?_ hrow
    intro op hop
    rw [hid]
    exact hlater op (hdone.mem hop)
  have hget : ∀ done, done <+: later → getById (after repo c alertId now done) alertId =
      dictToAlert (rowToAlert row) := by
    intro done hdone
    have hfind : (after repo c alertId now done).store.alerts.find? alertId = some row :=
      Table.find_eq_some.mpr ⟨hhas done hdone, hid⟩
    rw [getById, Store.getAlert, hfind]
    rfl
  constructor
  · intro h
    have hfirst := (h [] List.nil_prefix).1
    rw [hget [] List.nil_prefix, hread] at hfirst
    split at hfirst
    · cases hfirst
    · rename_i hmessage
      refine ⟨hmessage, ?_, ?_⟩
      · intro hseverity
        have hsame := congrArg Alert.severity (Option.some.inj hfirst)
        simp only [readAs, normalise, AlertCreate.toAlert, hseverity, if_true] at hsame
        revert hsame
        decide
      · intro done hdone hnone
        have hmem := (h done hdone).2
        rw [getActive, hnone] at hmem
        obtain ⟨other, hother, hreadOther⟩ := List.mem_filterMap.mp hmem
        have hsame : other = row := by
          refine Table.eq_of_key ?_ (hhas done hdone) ?_
          · exact (List.mem_filter.mp ((List.mem_insertionSort _).mp
              (List.mem_of_mem_take hother))).1
          · rw [← read_alert_id hreadOther, hid]
            rfl
        rw [hsame, mem_query_active (hhas done hdone) hlive, hid, hat] at hother
        exact hother
  · rintro ⟨hmessage, hseverity, hbefore⟩
    have hsame : readAs (c.toAlert alertId now) = normalise (c.toAlert alertId now) := by
      simp only [readAs, normalise, AlertCreate.toAlert, hseverity, if_false, Option.filter_none]
      rfl
    have hread' : dictToAlert (rowToAlert row) = some (normalise (c.toAlert alertId now)) := by
      have hmessage' : (c.toAlert alertId now).message ≠ "" := hmessage
      rw [hread, if_neg hmessage', hsame]
    have hlisted : ∀ done, done <+: later → (after repo c alertId now done).activeCache = none →
        standBefore (after repo c alertId now done).store row.alertId row.createdAt <
          AlertRepository.activeLimit := by
      intro done hdone hnone
      rw [hid, hat]
      exact hbefore done hdone hnone
    have hcached : ∀ done, done <+: later →
        Cached (normalise (c.toAlert alertId now)) (after repo c alertId now done) := by
      intro done
      induction done using List.reverseRecOn with
      | nil =>
          intro _ alerts halerts
          rw [after, List.foldl_nil, hcache] at halerts
          cases halerts
      | append_singleton done op ih =>
          intro hdone
          have hless : done <+: later := (List.prefix_append done [op]).trans hdone
          rw [after, List.foldl_append]
          exact step_cached (hhas done hless) hlive hread' (ih hless) (hlisted done hless)
    intro done hdone
    refine ⟨by rw [hget done hdone, hread'], ?_⟩
    exact get_active_has (hhas done hdone) hlive hread' (hcached done hdone) (hlisted done hdone)

/-- A repository without alerts. -/
def emptyRepository : Repository := ⟨⟨Table.empty, Table.empty⟩, none⟩

/-- An alert with a message and a severity. -/
def hotAlert (message severity : String) : AlertCreate where
  ruleId := none
  metricSource := "gpu"
  metricName := "temperature"
  currentValue := .finite 95
  thresholdValue := .finite 90
  severity := severity
  message := message
  sourceHost := some ""

/-- An alert with a message is found after the active alerts were listed and the list was dropped.
-/
theorem alerts_survive_listing :
    (∀ op ∈ [Op.getActive, Op.expire], op.Spares "a") ∧
      ∀ done, done <+: [Op.getActive, Op.expire] →
        getById (after emptyRepository (hotAlert "hot" "critical") "a" 0 done) "a" =
          some (normalise ((hotAlert "hot" "critical").toAlert "a" 0)) ∧
        normalise ((hotAlert "hot" "critical").toAlert "a" 0) ∈
          (getActive (after emptyRepository (hotAlert "hot" "critical") "a" 0 done)).1 := by
  have hspares : ∀ op ∈ [Op.getActive, Op.expire], op.Spares "a" := by
    intro op hop
    simp only [List.mem_cons, List.not_mem_nil, or_false] at hop
    rcases hop with rfl | rfl
    · trivial
    · trivial
  refine ⟨hspares, (alerts_survive emptyRepository (hotAlert "hot" "critical") rfl rfl
    (by simp [emptyRepository, Table.empty]) 0 hspares).mpr ⟨by decide, by decide, ?_⟩⟩
  intro done hdone _
  have hall : ∀ done ∈ [Op.getActive, Op.expire].inits, standBefore
      (after emptyRepository (hotAlert "hot" "critical") "a" 0 done).store "a" 0 <
        AlertRepository.activeLimit := by
    decide +kernel
  exact hall done ((List.mem_inits _ _).mpr hdone)

/-- An alert with an empty message is stored and never seen again. -/
theorem empty_message_lost :
    getById (create emptyRepository (hotAlert "" "critical") "a" 0) "a" = none ∧
      (getActive (create emptyRepository (hotAlert "" "critical") "a" 0)).1 = [] ∧
      ¬ ∀ (repo : Repository) (c : AlertCreate) (current threshold : ℚ) (alertId : String) (now : ℚ)
        (later : List Op), c.currentValue = .finite current → c.thresholdValue = .finite threshold →
        (∀ row ∈ repo.store.alerts.rows, row.alertId ≠ alertId) →
        (∀ op ∈ later, op.Spares alertId) → ∀ done, done <+: later →
          getById (after repo c alertId now done) alertId =
            some (normalise (c.toAlert alertId now)) ∧
          normalise (c.toAlert alertId now) ∈ (getActive (after repo c alertId now done)).1 := by
  have hlost : getById (create emptyRepository (hotAlert "" "critical") "a" 0) "a" = none := by
    decide +kernel
  refine ⟨hlost, by decide +kernel, ?_⟩
  intro h
  have hfound := (h emptyRepository (hotAlert "" "critical") 95 90 "a" 0 [] rfl rfl
    (by simp [emptyRepository, Table.empty]) (by simp) [] List.nil_prefix).1
  rw [after, List.foldl_nil, hlost] at hfound
  cases hfound

end Survival

end Storage

end SystemsManager.Alarms
