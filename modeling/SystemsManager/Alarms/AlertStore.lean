import Mathlib.Data.List.Dedup
import Mathlib.Data.List.Sort
import SystemsManager.Alarms.Rules
import SystemsManager.Python.Value
import SystemsManager.Sql.Table

/-!
# The store of the alerts

`AeAlarmsDB` keeps the alerts that are live in one table and archives the others in a second one.
A write moves the row it writes, a bulk update moves all rows that it closes, and opening a file
moves what an older version left behind. `one_table` is the theorem to read: an alert is in one of
the tables, by its status, in every state that the operations reach, exactly when the file that was
opened had no alert both live and in the archive.
-/

namespace SystemsManager.Alarms

open Python Sql

/-- `AlertStatus`. -/
inductive AlertStatus where
  | active
  | acknowledged
  | closed
  | ignored
  | exception
  deriving DecidableEq

/-- The live statuses, which are also the ongoing ones. -/
def AlertStatus.live : AlertStatus → Bool
  | .active => true
  | .acknowledged => true
  | .ignored => true
  | .closed => false
  | .exception => false

/-- `Alert`, as an object and as a row. A row without a message has the empty one. -/
structure Alert where
  alertId : String
  ruleId : Option String
  ruleName : Option String
  metricSource : String
  metricName : String
  sourceHost : Option String
  incidentId : Option String
  currentValue : PyFloat
  thresholdValue : PyFloat
  severity : String
  status : AlertStatus
  message : String
  triggerCount : Nat
  acknowledgedBy : Option String
  exceptionDetails : Option String
  resolutionReason : Option String
  resolvedValue : Option PyFloat
  notificationChannelIds : List String
  createdAt : ℚ
  lastEvaluatedAt : Option ℚ
  acknowledgedAt : Option ℚ
  closedAt : Option ℚ
  ignoredUntil : Option ℚ
  deriving DecidableEq

/-- The lifecycle events that are recorded. -/
inductive EventKind where
  | created
  | acknowledged
  | closed
  | ignored
  | ignoreEnded
  | unacknowledged
  deriving DecidableEq

/-- A row of `alert_events`. -/
structure AlertEvent where
  alertId : String
  event : EventKind
  recordedAt : ℚ
  actor : Option String
  deriving DecidableEq

/-- `AeAlarmsDB`. -/
structure AeAlarmsDB where
  alerts : Table Alert.alertId
  history : Table Alert.alertId
  events : List AlertEvent := []

namespace AeAlarmsDB

section Operations

/-- The rows that `_archive_non_live` moves, of one alert or of all. -/
def isArchived (alertId : Option String) (row : Alert) : Bool :=
  !row.status.live && alertId.all fun id => decide (row.alertId = id)

/-- `_archive_non_live`. -/
def archiveNonLive (db : AeAlarmsDB) (alertId : Option String) : AeAlarmsDB :=
  { db with
    alerts := db.alerts.delete (isArchived alertId)
    history := db.history.putAll (db.alerts.rows.filter (isArchived alertId)) }

/-- `_migrate` on opening: the rows that are not live go to the history, unless it has them. -/
def openDb (db : AeAlarmsDB) : AeAlarmsDB :=
  { db with
    alerts := db.alerts.delete fun row => !row.status.live
    history := db.history.insertAllNew (db.alerts.rows.filter fun row => !row.status.live) }

/-- The columns that `write_alert` makes of an alert. The ids are UUIDs, and so a rule id that is
there is not empty. -/
def columns (a : Alert) : Alert :=
  { a with
    ruleName := orNone a.ruleName
    sourceHost := orNone a.sourceHost
    incidentId := orNone a.incidentId
    severity := if a.severity = "" then "info" else a.severity
    triggerCount := if a.triggerCount = 0 then 1 else a.triggerCount
    acknowledgedBy := orNone a.acknowledgedBy
    exceptionDetails := orNone a.exceptionDetails
    resolutionReason := orNone a.resolutionReason
    resolvedValue := a.resolvedValue.filter (· ≠ .nan) }

/-- The columns that are not null can be stored: `nan` would be a null. -/
def isStorable (a : Alert) : Bool := a.currentValue ≠ .nan && a.thresholdValue ≠ .nan

/-- `write_alert`: insert, or update the columns that can change, and then move the row by its
status. Nothing where the row cannot be stored. -/
def writeAlert (db : AeAlarmsDB) (a : Alert) : Option AeAlarmsDB :=
  if isStorable a then
    let row := match db.alerts.find? a.alertId with
      | none => columns a
      | some old =>
          { columns a with
            ruleId := old.ruleId
            metricSource := old.metricSource
            metricName := old.metricName
            createdAt := old.createdAt }
    let written := { db with alerts := db.alerts.put row }
    if a.status.live then
      some { written with history := db.history.delete fun row => decide (row.alertId = a.alertId) }
    else some (written.archiveNonLive (some a.alertId))
  else none

/-- `bump_refresh`. A null value is refused. -/
def bumpRefresh (db : AeAlarmsDB) (alertId : String) (currentValue : PyFloat) (now : ℚ) :
    AeAlarmsDB :=
  if currentValue = .nan then db
  else
    { db with
      alerts := db.alerts.update (fun row => decide (row.alertId = alertId))
        (fun row => { row with
          currentValue := currentValue
          lastEvaluatedAt := some now
          triggerCount := row.triggerCount + 1 }) fun _ => rfl }

/-- `COALESCE(closed_at, acknowledged_at, ignored_until, created_at)`. -/
def historyAge (row : Alert) : ℚ :=
  (row.closedAt.or (row.acknowledgedAt.or row.ignoredUntil)).getD row.createdAt

/-- `purge_history_older_than`: rows whose ignore window is open stay. -/
def purgeHistoryOlderThan (db : AeAlarmsDB) (cutoff now : ℚ) : AeAlarmsDB :=
  { db with
    history := db.history.delete fun row =>
      decide (historyAge row < cutoff) && row.ignoredUntil.all fun deadline =>
        decide (deadline ≤ now) }

/-- `UPDATE ... SET ignored_until = NULL WHERE rule_id = ?`. -/
def dropWindows (t : Table Alert.alertId) (ruleId : String) : Table Alert.alertId :=
  t.update (fun row => decide (row.ruleId = some ruleId))
    (fun row => { row with ignoredUntil := none }) fun _ => rfl

/-- `clear_ignored_until`. -/
def clearIgnoredUntil (db : AeAlarmsDB) (ruleId : String) : AeAlarmsDB :=
  { db with alerts := dropWindows db.alerts ruleId, history := dropWindows db.history ruleId }

/-- `delete_alert`: whether there was one. -/
def deleteAlert (db : AeAlarmsDB) (alertId : String) : Bool × AeAlarmsDB :=
  ((db.alerts.find? alertId).isSome || (db.history.find? alertId).isSome,
    { db with
      alerts := db.alerts.delete fun row => decide (row.alertId = alertId)
      history := db.history.delete fun row => decide (row.alertId = alertId) })

/-- The assignments of a bulk update: a column without a value stays. -/
def assign (toStatus : AlertStatus) (closedAt acknowledgedAt ignoredUntil : Option ℚ)
    (row : Alert) : Alert :=
  { row with
    status := toStatus
    closedAt := closedAt.or row.closedAt
    acknowledgedAt := acknowledgedAt.or row.acknowledgedAt
    ignoredUntil := ignoredUntil.or row.ignoredUntil }

theorem assign_alert_id (toStatus : AlertStatus) (closedAt acknowledgedAt ignoredUntil : Option ℚ)
    (row : Alert) :
    (assign toStatus closedAt acknowledgedAt ignoredUntil row).alertId = row.alertId := rfl

/-- `bulk_update_status`. -/
def bulkUpdateStatus (db : AeAlarmsDB) (fromStatuses : List AlertStatus) (toStatus : AlertStatus)
    (closedAt acknowledgedAt ignoredUntil : Option ℚ) : AeAlarmsDB :=
  let updated := { db with
    alerts := db.alerts.update (fun row => fromStatuses.contains row.status)
      (assign toStatus closedAt acknowledgedAt ignoredUntil) (assign_alert_id _ _ _ _) }
  if toStatus.live then updated else updated.archiveNonLive none

/-- `get_alert`: the live table first, then the history. -/
def getAlert (db : AeAlarmsDB) (alertId : String) : Option Alert :=
  (db.alerts.find? alertId).or (db.history.find? alertId)

/-- `query_active`: at most `limit` live rows, the newest first. -/
def queryActive (db : AeAlarmsDB) (limit : Nat) : List Alert :=
  ((db.alerts.rows.filter fun row => row.status.live).insertionSort
    fun a b => b.createdAt ≤ a.createdAt).take limit

/-- The rows of both tables, as `UNION ALL` lists them. -/
def unionAll (db : AeAlarmsDB) : List Alert := db.alerts.rows ++ db.history.rows

/-- `query_filtered` over both tables; the filters are one predicate. -/
def queryFiltered (db : AeAlarmsDB) (p : Alert → Bool) (limit offset : Nat) : List Alert :=
  (((db.unionAll.filter p).insertionSort fun a b => b.createdAt ≤ a.createdAt).drop offset).take
    limit

/-- The total of `count_by_status_and_severity`. -/
def countTotal (db : AeAlarmsDB) : Nat := db.unionAll.length

/-- `write_event`. -/
def writeEvent (db : AeAlarmsDB) (event : AlertEvent) : AeAlarmsDB :=
  { db with events := db.events ++ [event] }

end Operations

section Split

/-- The operations on the store. -/
inductive StoreOp where
  | writeAlert (a : Alert)
  | bumpRefresh (alertId : String) (currentValue : PyFloat) (now : ℚ)
  | bulkUpdateStatus (fromStatuses : List AlertStatus) (toStatus : AlertStatus)
      (closedAt acknowledgedAt ignoredUntil : Option ℚ)
  | deleteAlert (alertId : String)
  | purgeHistoryOlderThan (cutoff now : ℚ)
  | clearIgnoredUntil (ruleId : String)

/-- One operation. A write that is refused leaves the store as it is. -/
def apply (db : AeAlarmsDB) : StoreOp → AeAlarmsDB
  | .writeAlert a => (db.writeAlert a).getD db
  | .bumpRefresh alertId currentValue now => db.bumpRefresh alertId currentValue now
  | .bulkUpdateStatus fromStatuses toStatus closedAt acknowledgedAt ignoredUntil =>
      db.bulkUpdateStatus fromStatuses toStatus closedAt acknowledgedAt ignoredUntil
  | .deleteAlert alertId => (db.deleteAlert alertId).2
  | .purgeHistoryOlderThan cutoff now => db.purgeHistoryOlderThan cutoff now
  | .clearIgnoredUntil ruleId => db.clearIgnoredUntil ruleId

/-- Every alert is in the table of its status, and in no other. -/
structure Split (db : AeAlarmsDB) : Prop where
  live : ∀ row ∈ db.alerts.rows, row.status.live = true
  archived : ∀ row ∈ db.history.rows, row.status.live = false
  apart : ∀ row ∈ db.alerts.rows, ∀ old ∈ db.history.rows, row.alertId ≠ old.alertId

/-- An alert lives in exactly one table, and no listing and no count has it twice. -/
structure OneTable (db : AeAlarmsDB) : Prop extends Split db where
  listed : ∀ p limit offset, ((db.queryFiltered p limit offset).map Alert.alertId).Nodup
  counted : db.countTotal = (db.unionAll.map Alert.alertId).dedup.length

variable {db : AeAlarmsDB}

theorem Split.nodup_union (h : Split db) : (db.unionAll.map Alert.alertId).Nodup := by
  rw [unionAll, List.map_append]
  refine db.alerts.nodup.append db.history.nodup ?_
  intro id hlive hold
  obtain ⟨row, hrow, rfl⟩ := List.mem_map.mp hlive
  obtain ⟨old, hold, heq⟩ := List.mem_map.mp hold
  exact h.apart row hrow old hold heq.symm

theorem Split.to_one_table (h : Split db) : OneTable db := by
  refine { h with listed := ?_, counted := ?_ }
  · intro p limit offset
    have hfilter : ((db.unionAll.filter p).map Alert.alertId).Nodup :=
      h.nodup_union.sublist (List.filter_sublist.map _)
    have hsorted := ((List.perm_insertionSort (fun a b : Alert => b.createdAt ≤ a.createdAt)
      (db.unionAll.filter p)).map Alert.alertId).nodup_iff.mpr hfilter
    exact hsorted.sublist (((List.take_sublist _ _).trans (List.drop_sublist _ _)).map _)
  · rw [h.nodup_union.dedup, List.length_map]
    rfl

theorem archive_split {alertId : Option String}
    (hlive : ∀ row ∈ db.alerts.rows, row.status.live = false → isArchived alertId row = true)
    (harchived : ∀ row ∈ db.history.rows, row.status.live = false)
    (hapart : ∀ row ∈ db.alerts.rows, row.status.live = true → ∀ old ∈ db.history.rows,
      row.alertId ≠ old.alertId) : Split (db.archiveNonLive alertId) := by
  have hmoved : ∀ row, isArchived alertId row = true → row.status.live = false := by
    intro row hrow
    simp only [isArchived, Bool.and_eq_true, Bool.not_eq_true'] at hrow
    exact hrow.1
  refine ⟨?_, ?_, ?_⟩
  · intro row hrow
    simp only [archiveNonLive, Table.mem_delete] at hrow
    by_contra hno
    rw [Bool.not_eq_true] at hno
    rw [hlive row hrow.1 hno] at hrow
    cases hrow.2
  · intro row hrow
    simp only [archiveNonLive] at hrow
    rw [Table.mem_put_all (Table.nodup_filter _)] at hrow
    rcases hrow with hrow | ⟨hrow, -⟩
    · exact hmoved row (List.mem_filter.mp hrow).2
    · exact harchived row hrow
  · intro row hrow old hold heq
    simp only [archiveNonLive, Table.mem_delete] at hrow hold
    rw [Table.mem_put_all (Table.nodup_filter _)] at hold
    rcases hold with hold | ⟨hold, -⟩
    · obtain ⟨hold, hmove⟩ := List.mem_filter.mp hold
      rw [Table.eq_of_key hrow.1 hold heq, hmove] at hrow
      cases hrow.2
    · cases hstatus : row.status.live with
      | true => exact hapart row hrow.1 hstatus old hold heq
      | false =>
          rw [hlive row hrow.1 hstatus] at hrow
          cases hrow.2

theorem write_alert_split (h : Split db) {a : Alert} {db' : AeAlarmsDB}
    (hwrite : db.writeAlert a = some db') : Split db' := by
  unfold writeAlert at hwrite
  split at hwrite
  · -- The row that is written has the status and the id of the alert.
    generalize hrow : (match db.alerts.find? a.alertId with
      | none => columns a
      | some old =>
          { columns a with
            ruleId := old.ruleId
            metricSource := old.metricSource
            metricName := old.metricName
            createdAt := old.createdAt }) = row at hwrite
    have hid : row.alertId = a.alertId := by
      rw [← hrow]
      split <;> rfl
    have hstatus : row.status = a.status := by
      rw [← hrow]
      split <;> rfl
    dsimp only at hwrite
    split at hwrite
    · rename_i hlive
      cases hwrite
      refine ⟨?_, ?_, ?_⟩
      · intro other hother
        rw [Table.mem_put] at hother
        rcases hother with rfl | ⟨hother, -⟩
        · rw [hstatus]
          exact hlive
        · exact h.live other hother
      · intro old hold
        rw [Table.mem_delete] at hold
        exact h.archived old hold.1
      · intro other hother old hold heq
        rw [Table.mem_put] at hother
        rw [Table.mem_delete, decide_eq_false_iff_not] at hold
        rcases hother with rfl | ⟨hother, -⟩
        · exact hold.2 (heq.symm.trans hid)
        · exact h.apart other hother old hold.1 heq
    · rename_i hlive
      cases hwrite
      refine archive_split ?_ h.archived ?_
      · intro other hother hdead
        rw [Table.mem_put] at hother
        rcases hother with rfl | ⟨hother, -⟩
        · simp [isArchived, hdead, hid]
        · rw [h.live other hother] at hdead
          cases hdead
      · intro other hother hother_live old hold heq
        rw [Table.mem_put] at hother
        rcases hother with rfl | ⟨hother, -⟩
        · rw [hstatus] at hother_live
          exact hlive hother_live
        · exact h.apart other hother old hold heq
  · cases hwrite

theorem bulk_update_split (h : Split db) (fromStatuses : List AlertStatus) (toStatus : AlertStatus)
    (closedAt acknowledgedAt ignoredUntil : Option ℚ) :
    Split (db.bulkUpdateStatus fromStatuses toStatus closedAt acknowledgedAt ignoredUntil) := by
  have hrows : ∀ row ∈ (db.alerts.update (fun row => fromStatuses.contains row.status)
      (assign toStatus closedAt acknowledgedAt ignoredUntil) (assign_alert_id _ _ _ _)).rows,
      (row.status.live = true ∨ row.status = toStatus) ∧ ∀ old ∈ db.history.rows,
        row.alertId ≠ old.alertId := by
    intro row hrow
    rw [Table.mem_update] at hrow
    obtain ⟨old, hold, rfl⟩ := hrow
    split
    · exact ⟨.inr rfl, h.apart old hold⟩
    · exact ⟨.inl (h.live old hold), h.apart old hold⟩
  simp only [bulkUpdateStatus]
  split
  · rename_i hto
    refine ⟨?_, h.archived, fun row hrow => (hrows row hrow).2⟩
    intro row hrow
    rcases (hrows row hrow).1 with hlive | hstatus
    · exact hlive
    · rw [hstatus]
      exact hto
  · refine archive_split ?_ h.archived fun row hrow _ => (hrows row hrow).2
    intro row _ hdead
    simp [isArchived, hdead]

theorem Split.congr (h : Split db) {db' : AeAlarmsDB}
    (halerts : ∀ row ∈ db'.alerts.rows, ∃ old ∈ db.alerts.rows, row.alertId = old.alertId ∧
      row.status = old.status)
    (hhistory : ∀ row ∈ db'.history.rows, ∃ old ∈ db.history.rows, row.alertId = old.alertId ∧
      row.status = old.status) : Split db' := by
  refine ⟨?_, ?_, ?_⟩
  · intro row hrow
    obtain ⟨old, hold, -, hstatus⟩ := halerts row hrow
    rw [hstatus]
    exact h.live old hold
  · intro row hrow
    obtain ⟨old, hold, -, hstatus⟩ := hhistory row hrow
    rw [hstatus]
    exact h.archived old hold
  · intro row hrow old hold
    obtain ⟨row', hrow', hid, -⟩ := halerts row hrow
    obtain ⟨old', hold', hid', -⟩ := hhistory old hold
    rw [hid, hid']
    exact h.apart row' hrow' old' hold'

theorem Split.apply (h : Split db) (op : StoreOp) : Split (db.apply op) := by
  cases op with
  | writeAlert a =>
      simp only [AeAlarmsDB.apply]
      cases hwrite : db.writeAlert a with
      | none => exact h
      | some db' => exact write_alert_split h hwrite
  | bumpRefresh alertId currentValue now =>
      simp only [AeAlarmsDB.apply, AeAlarmsDB.bumpRefresh]
      split
      · exact h
      · refine h.congr ?_ fun row hrow => ⟨row, hrow, rfl, rfl⟩
        intro row hrow
        rw [Table.mem_update] at hrow
        obtain ⟨old, hold, rfl⟩ := hrow
        exact ⟨old, hold, by split <;> rfl, by split <;> rfl⟩
  | bulkUpdateStatus fromStatuses toStatus closedAt acknowledgedAt ignoredUntil =>
      exact bulk_update_split h fromStatuses toStatus closedAt acknowledgedAt ignoredUntil
  | deleteAlert alertId =>
      refine h.congr ?_ ?_
      · intro row hrow
        exact ⟨row, (Table.mem_delete.mp hrow).1, rfl, rfl⟩
      · intro row hrow
        exact ⟨row, (Table.mem_delete.mp hrow).1, rfl, rfl⟩
  | purgeHistoryOlderThan cutoff now =>
      refine h.congr (fun row hrow => ⟨row, hrow, rfl, rfl⟩) ?_
      intro row hrow
      exact ⟨row, (Table.mem_delete.mp hrow).1, rfl, rfl⟩
  | clearIgnoredUntil ruleId =>
      have hdrop : ∀ (t : Table Alert.alertId), ∀ row ∈ (dropWindows t ruleId).rows,
          ∃ old ∈ t.rows, row.alertId = old.alertId ∧ row.status = old.status := by
        intro t row hrow
        simp only [dropWindows, Table.mem_update] at hrow
        obtain ⟨old, hold, rfl⟩ := hrow
        exact ⟨old, hold, by split <;> rfl, by split <;> rfl⟩
      exact h.congr (hdrop _) (hdrop _)

theorem Split.run (h : Split db) (ops : List StoreOp) : Split (ops.foldl AeAlarmsDB.apply db) := by
  induction ops generalizing db with
  | nil => exact h
  | cons op ops ih => exact ih (h.apply op)

theorem open_split (hprior : ∀ row ∈ db.history.rows, row.status.live = false)
    (hapart : ∀ row ∈ db.alerts.rows, row.status.live = true → ∀ old ∈ db.history.rows,
      row.alertId ≠ old.alertId) : Split db.openDb := by
  refine ⟨?_, ?_, ?_⟩
  · intro row hrow
    simp only [openDb, Table.mem_delete, Bool.not_eq_false'] at hrow
    exact hrow.2
  · intro row hrow
    simp only [openDb] at hrow
    rw [Table.mem_insert_all_new (Table.nodup_filter _)] at hrow
    rcases hrow with hrow | ⟨hrow, -⟩
    · exact hprior row hrow
    · simpa using (List.mem_filter.mp hrow).2
  · intro row hrow old hold heq
    simp only [openDb, Table.mem_delete, Bool.not_eq_false'] at hrow hold
    rw [Table.mem_insert_all_new (Table.nodup_filter _)] at hold
    rcases hold with hold | ⟨hold, -⟩
    · exact hapart row hrow.1 hrow.2 old hold heq
    · obtain ⟨hold, hdead⟩ := List.mem_filter.mp hold
      rw [Table.eq_of_key hrow.1 hold heq] at hrow
      rw [hrow.2] at hdead
      cases hdead

/-- From a file with live rows in the table of the live alerts only, every run of operations has
every alert in exactly one table, if and only if no live row has its alert in the history too. -/
theorem one_table (db : AeAlarmsDB)
    (hprior : ∀ row ∈ db.history.rows, row.status.live = false) :
    (∀ ops : List StoreOp, OneTable (ops.foldl AeAlarmsDB.apply db.openDb)) ↔
      ∀ row ∈ db.alerts.rows, row.status.live = true → ∀ old ∈ db.history.rows,
        row.alertId ≠ old.alertId := by
  constructor
  · intro h row hrow hlive old hold
    have hopen := (h []).apart
    refine hopen row ?_ old ?_
    · simp only [List.foldl_nil, openDb, Table.mem_delete, Bool.not_eq_false']
      exact ⟨hrow, hlive⟩
    · simp only [List.foldl_nil, openDb]
      rw [Table.mem_insert_all_new (Table.nodup_filter _)]
      exact .inl hold
  · intro hapart ops
    exact ((open_split hprior hapart).run ops).to_one_table

/-- An alert of a rule, as it is created and then given a status. -/
def plainAlert (alertId ruleId : String) (status : AlertStatus) : Alert where
  alertId := alertId
  ruleId := some ruleId
  ruleName := none
  metricSource := "gpu"
  metricName := "temperature"
  sourceHost := none
  incidentId := some alertId
  currentValue := .finite 95
  thresholdValue := .finite 90
  severity := "warning"
  status := status
  message := "Value 95.0 exceeds threshold 90.0"
  triggerCount := 1
  acknowledgedBy := none
  exceptionDetails := none
  resolutionReason := none
  resolvedValue := none
  notificationChannelIds := []
  createdAt := 0
  lastEvaluatedAt := some 0
  acknowledgedAt := none
  closedAt := none
  ignoredUntil := none

/-- A closed alert that an older version left in the live table is archived, and an alert that is
written live again leaves the history. -/
theorem reopened_one_table :
    OneTable ([StoreOp.writeAlert (plainAlert "b" "r" .active)].foldl AeAlarmsDB.apply
      (openDb ⟨⟨[plainAlert "a" "r" .closed], by decide⟩, ⟨[plainAlert "b" "r" .closed], by decide⟩,
        []⟩)) :=
  (one_table _ (by decide)).mpr (by decide) _

/-- A file in which a live alert has a row in the history is left so. -/
theorem stale_history_row :
    ¬ ∀ db : AeAlarmsDB, (∀ row ∈ db.history.rows, row.status.live = false) →
      ∀ ops : List StoreOp, OneTable (ops.foldl AeAlarmsDB.apply db.openDb) := by
  intro h
  have hone := h ⟨⟨[plainAlert "a" "r" .active], by decide⟩,
    ⟨[plainAlert "a" "r" .closed], by decide⟩, []⟩ (by decide) []
  exact absurd rfl (hone.apart (plainAlert "a" "r" .active) (by decide)
    (plainAlert "a" "r" .closed) (by decide))

end Split

end AeAlarmsDB

end SystemsManager.Alarms
