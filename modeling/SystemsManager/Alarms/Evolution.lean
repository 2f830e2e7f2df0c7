import SystemsManager.Alarms.AlertStore

/-!
# What the work does to the stored alerts

A piece of work closes some alerts, resumes some, acknowledges or ignores some, and creates some:
its `Scope`. `Evolves` says that every row afterwards follows a row from before, within the scope,
or is created, and that alerts outside the scope keep their closing events. Every operation of the
store has one lemma here that says within which scopes it is; `evolves_of_write` and
`bulk_update_evolves` are the ones to read.
-/

namespace SystemsManager.Alarms

open Python Sql

/-- The alerts, by their ids, that a piece of work closes, resumes, acknowledges or ignores, and
those that it creates, with their rules. -/
structure Scope where
  closes : String → Prop := fun _ => False
  resumes : String → Prop := fun _ => False
  handles : String → Prop := fun _ => False
  creates : String → Option String → Prop := fun _ _ => False

/-- What a scope lets the status of an alert become. -/
inductive Scope.Moves (s : Scope) (id : String) (status : AlertStatus) : AlertStatus → Prop where
  | closed : s.closes id → s.Moves id status .closed
  | active : s.resumes id → s.Moves id status .active
  | acknowledged : s.handles id → (status = .closed → s.resumes id) →
      s.Moves id status .acknowledged
  | ignored : s.handles id → (status = .closed → s.resumes id) → s.Moves id status .ignored

/-- A row is what became of another one. -/
structure Follows (s : Scope) (row row' : Alert) : Prop where
  alertId : row'.alertId = row.alertId
  ruleId : row'.ruleId = row.ruleId
  status : row'.status = row.status ∨ s.Moves row.alertId row.status row'.status
  columns : AeAlarmsDB.columns row = row → AeAlarmsDB.columns row' = row'
  resolution : AeAlarmsDB.columns row = row → ¬ s.closes row.alertId →
    row'.resolutionReason = row.resolutionReason ∧ row'.resolvedValue = row.resolvedValue

section Follows

variable {s s' : Scope} {row row' row'' : Alert}

theorem Follows.refl (s : Scope) (row : Alert) : Follows s row row :=
  ⟨rfl, rfl, .inl rfl, id, fun _ _ => ⟨rfl, rfl⟩⟩

/-- A row stays closed where it is not resumed. -/
theorem Follows.closed (h : Follows s row row') (hclosed : row.status = .closed)
    (hresume : ¬ s.resumes row.alertId) : row'.status = .closed := by
  rcases h.status with hsame | hmoves
  · exact hsame.trans hclosed
  · generalize row'.status = status at hmoves
    cases hmoves with
    | closed _ => rfl
    | active hresumed => exact absurd hresumed hresume
    | acknowledged _ hresumed => exact absurd (hresumed hclosed) hresume
    | ignored _ hresumed => exact absurd (hresumed hclosed) hresume

/-- A row that the scope does not have keeps its status. -/
theorem Follows.same_status (h : Follows s row row') (hcloses : ¬ s.closes row.alertId)
    (hresumes : ¬ s.resumes row.alertId) (hhandles : ¬ s.handles row.alertId) :
    row'.status = row.status := by
  rcases h.status with hsame | hmoves
  · exact hsame
  · generalize row'.status = status at hmoves
    cases hmoves with
    | closed hno => exact absurd hno hcloses
    | active hno => exact absurd hno hresumes
    | acknowledged hno _ => exact absurd hno hhandles
    | ignored hno _ => exact absurd hno hhandles

/-- No work marks a row as an exception. -/
theorem Follows.regular (h : Follows s row row') (hregular : row.status ≠ .exception) :
    row'.status ≠ .exception := by
  rcases h.status with hsame | hmoves
  · rw [hsame]
    exact hregular
  · generalize row'.status = status at hmoves
    cases hmoves <;> exact fun h => by cases h

/-- The work on a row in two parts. -/
theorem Follows.trans (h : Follows s row row') (h' : Follows s row' row'') :
    Follows s row row'' := by
  refine ⟨h'.alertId.trans h.alertId, h'.ruleId.trans h.ruleId, ?_, h'.columns ∘ h.columns, ?_⟩
  · rcases h'.status with hsame | hmoves
    · rw [hsame]
      exact h.status
    · -- A closed row that is handled in the second part was resumed in the first.
      have hfirst : (row'.status = .closed → s.resumes row'.alertId) → row.status = .closed →
          s.resumes row.alertId := by
        intro hresumed hclosed
        by_contra hno
        have := hresumed (h.closed hclosed hno)
        rw [h.alertId] at this
        exact hno this
      right
      rw [h.alertId] at hmoves
      generalize row''.status = status at hmoves
      cases hmoves with
      | closed hcloses => exact .closed hcloses
      | active hresumes => exact .active hresumes
      | acknowledged hhandles hresumed =>
          exact .acknowledged hhandles (hfirst (h.alertId ▸ hresumed))
      | ignored hhandles hresumed => exact .ignored hhandles (hfirst (h.alertId ▸ hresumed))
  · intro hcolumns hcloses
    obtain ⟨hreason, hvalue⟩ := h.resolution hcolumns hcloses
    obtain ⟨hreason', hvalue'⟩ := h'.resolution (h.columns hcolumns) (h.alertId ▸ hcloses)
    exact ⟨hreason'.trans hreason, hvalue'.trans hvalue⟩

end Follows

/-- The number of closing events of an alert. -/
def closedEvents (db : AeAlarmsDB) (id : String) : Nat :=
  db.events.countP fun e => decide (e.alertId = id) && decide (e.event = .closed)

/-- A row is one that the work created. -/
structure Born (s : Scope) (row : Alert) : Prop where
  creates : s.creates row.alertId row.ruleId
  columns : AeAlarmsDB.columns row = row
  regular : row.status ≠ .exception

/-- What a piece of work within a scope makes of the store. -/
structure Evolves (s : Scope) (db db' : AeAlarmsDB) : Prop where
  split : AeAlarmsDB.Split db → AeAlarmsDB.Split db'
  rows : ∀ row' ∈ db'.unionAll, (∃ row ∈ db.unionAll, Follows s row row') ∨ Born s row'
  events : ∀ id, ¬ s.closes id → closedEvents db' id = closedEvents db id

section Evolves

variable {s s' : Scope} {db db' db'' : AeAlarmsDB}

theorem Evolves.refl (s : Scope) (db : AeAlarmsDB) : Evolves s db db :=
  ⟨id, fun row hrow => .inl ⟨row, hrow, .refl s row⟩, fun _ _ => rfl⟩

theorem Evolves.trans (h : Evolves s db db') (h' : Evolves s db' db'') : Evolves s db db'' := by
  refine ⟨h'.split ∘ h.split, ?_, fun id hid => (h'.events id hid).trans (h.events id hid)⟩
  intro row'' hrow''
  rcases h'.rows row'' hrow'' with ⟨row', hrow', hfollows'⟩ | hcreated
  · rcases h.rows row' hrow' with ⟨row, hrow, hfollows⟩ | hborn
    · exact .inl ⟨row, hrow, hfollows.trans hfollows'⟩
    · refine .inr ⟨?_, hfollows'.columns hborn.columns, hfollows'.regular hborn.regular⟩
      rw [hfollows'.alertId, hfollows'.ruleId]
      exact hborn.creates
  · exact .inr hcreated

/-- Where nothing is created, the ids are those from before. -/
theorem Evolves.old_id (h : Evolves s db db') (hnone : ∀ id ruleId, ¬ s.creates id ruleId)
    {row' : Alert} (hrow' : row' ∈ db'.unionAll) :
    ∃ row ∈ db.unionAll, row'.alertId = row.alertId := by
  rcases h.rows row' hrow' with ⟨row, hrow, hfollows⟩ | hborn
  · exact ⟨row, hrow, hfollows.alertId⟩
  · exact absurd hborn.creates (hnone _ _)

end Evolves

namespace AeAlarmsDB

section Store

variable {s : Scope} {db db' : AeAlarmsDB}

/-- The row that `write_alert` stores: some columns of a live row stay. -/
def written (db : AeAlarmsDB) (a : Alert) : Alert :=
  match db.alerts.find? a.alertId with
  | none => columns a
  | some old =>
      { columns a with
        ruleId := old.ruleId
        metricSource := old.metricSource
        metricName := old.metricName
        createdAt := old.createdAt }

theorem write_alert_eq (db : AeAlarmsDB) (a : Alert) : db.writeAlert a =
    if isStorable a then
      if a.status.live then
        some { db with
          alerts := db.alerts.put (db.written a)
          history := db.history.delete fun row => decide (row.alertId = a.alertId) }
      else some ({ db with alerts := db.alerts.put (db.written a) }.archiveNonLive (some a.alertId))
    else none := rfl

/-- The row that a write stores has the place of the one with its id. -/
theorem mem_write {a row' : Alert} (hwrite : db.writeAlert a = some db') :
    row' ∈ db'.unionAll ↔
      row' = db.written a ∨ row' ∈ db.unionAll ∧ row'.alertId ≠ a.alertId := by
  have hid : (db.written a).alertId = a.alertId := by
    simp only [written]
    split <;> rfl
  have hstatus : (db.written a).status = a.status := by
    simp only [written]
    split <;> rfl
  rw [write_alert_eq] at hwrite
  generalize db.written a = row at hwrite hid hstatus ⊢
  split at hwrite
  · split at hwrite
    · cases hwrite
      simp only [unionAll, List.mem_append, Table.mem_put, Table.mem_delete,
        decide_eq_false_iff_not, hid]
      tauto
    · rename_i hlive
      cases hwrite
      simp only [archiveNonLive, unionAll, List.mem_append, Table.mem_delete]
      rw [Table.mem_put_all (Table.nodup_filter _)]
      have harchived : ∀ other, other ∈ (db.alerts.put row).rows →
          (isArchived (some a.alertId) other = true ↔ other = row) := by
        intro other hother
        rw [Table.mem_put] at hother
        constructor
        · intro h
          simp only [isArchived, Option.all_some, Bool.and_eq_true, decide_eq_true_eq] at h
          rcases hother with rfl | ⟨-, hne⟩
          · rfl
          · exact absurd (h.2.trans hid.symm) hne
        · rintro rfl
          simp [isArchived, hid, hstatus, hlive]
      have hmoved : ∀ other, other ∈ (db.alerts.put row).rows.filter (isArchived (some a.alertId)) ↔
          other = row := by
        intro other
        rw [List.mem_filter]
        constructor
        · rintro ⟨hmem, h⟩
          exact (harchived other hmem).mp h
        · rintro rfl
          have hmem : other ∈ (db.alerts.put other).rows := by simp
          exact ⟨hmem, (harchived other hmem).mpr rfl⟩
      have hkeys : row'.alertId ∈ ((db.alerts.put row).rows.filter
          (isArchived (some a.alertId))).map Alert.alertId ↔ row'.alertId = a.alertId := by
        simp only [List.mem_map, hmoved, exists_eq_left, hid]
        exact eq_comm
      have hkept : row' ∈ (db.alerts.put row).rows ∧ isArchived (some a.alertId) row' = false ↔
          row' ∈ db.alerts.rows ∧ row'.alertId ≠ a.alertId := by
        constructor
        · rintro ⟨hmem, h⟩
          have hne : row' ≠ row := by
            intro heq
            rw [(harchived row' hmem).mpr heq] at h
            cases h
          rw [Table.mem_put, hid] at hmem
          tauto
        · rintro ⟨hmem, hne⟩
          have hput : row' ∈ (db.alerts.put row).rows := by
            rw [Table.mem_put, hid]
            exact .inr ⟨hmem, hne⟩
          refine ⟨hput, ?_⟩
          rw [Bool.eq_false_iff]
          intro h
          rw [(harchived row' hput).mp h] at hne
          exact hne hid
      rw [hkept, hmoved, hkeys]
      tauto
  · cases hwrite

/-- A write leaves the events alone. -/
theorem write_events {a : Alert} (hwrite : db.writeAlert a = some db') :
    db'.events = db.events := by
  rw [write_alert_eq] at hwrite
  split at hwrite
  · split at hwrite <;> cases hwrite <;> rfl
  · cases hwrite

/-- What is read under an id is a stored row with that id. -/
theorem mem_of_get_alert {id : String} {row : Alert} (h : db.getAlert id = some row) :
    row ∈ db.unionAll ∧ row.alertId = id := by
  simp only [getAlert, Option.or_eq_some_iff, Table.find_eq_some] at h
  rw [unionAll, List.mem_append]
  rcases h with ⟨hmem, hid⟩ | ⟨-, hmem, hid⟩
  · exact ⟨.inl hmem, hid⟩
  · exact ⟨.inr hmem, hid⟩

theorem Split.unique (h : Split db) {row other : Alert} (hrow : row ∈ db.unionAll)
    (hother : other ∈ db.unionAll) (hid : row.alertId = other.alertId) : row = other :=
  List.inj_on_of_nodup_map h.nodup_union hrow hother hid

/-- Where the tables are split, the row of an id is read. -/
theorem Split.get_alert (h : Split db) {row : Alert} (hrow : row ∈ db.unionAll) :
    db.getAlert row.alertId = some row := by
  cases hget : db.getAlert row.alertId with
  | none =>
      simp only [getAlert, Option.or_eq_none_iff, Table.find_eq_none] at hget
      rw [unionAll, List.mem_append] at hrow
      rcases hrow with hrow | hrow
      · exact absurd rfl (hget.1 row hrow)
      · exact absurd rfl (hget.2 row hrow)
  | some other =>
      obtain ⟨hmem, hid⟩ := mem_of_get_alert hget
      rw [h.unique hmem hrow hid]

/-- A stored row that is written back keeps the columns that a write does not touch. -/
theorem written_stored {row a : Alert} (hget : db.getAlert a.alertId = some row)
    (hruleId : a.ruleId = row.ruleId) (hsource : a.metricSource = row.metricSource)
    (hname : a.metricName = row.metricName) (hcreated : a.createdAt = row.createdAt) :
    db.written a = columns a := by
  simp only [written]
  split
  · rfl
  · rename_i old hfind
    simp only [getAlert, hfind, Option.some_or, Option.some.injEq] at hget
    subst hget
    rw [← hruleId, ← hsource, ← hname, ← hcreated]
    rfl

/-- A stored row is changed and written back. -/
theorem evolves_of_write {row a : Alert} (hwrite : db.writeAlert a = some db')
    (hget : db.getAlert a.alertId = some row) (hwritten : db.written a = columns a)
    (hfollows : Follows s row (columns a)) : Evolves s db db' := by
  refine ⟨fun hsplit => write_alert_split hsplit hwrite, ?_, ?_⟩
  · intro row' hrow'
    rw [mem_write hwrite, hwritten] at hrow'
    rcases hrow' with rfl | ⟨hmem, -⟩
    · exact .inl ⟨row, (mem_of_get_alert hget).1, hfollows⟩
    · exact .inl ⟨row', hmem, .refl s row'⟩
  · intro id _
    rw [closedEvents, closedEvents, write_events hwrite]

/-- A row is as `write_alert` stores it. -/
theorem columns_eq_self {row : Alert} : columns row = row ↔
    orNone row.ruleName = row.ruleName ∧ orNone row.sourceHost = row.sourceHost ∧
    orNone row.incidentId = row.incidentId ∧ (row.severity = "" → "info" = row.severity) ∧
    (row.triggerCount = 0 → 1 = row.triggerCount) ∧
    orNone row.acknowledgedBy = row.acknowledgedBy ∧
    orNone row.exceptionDetails = row.exceptionDetails ∧
    orNone row.resolutionReason = row.resolutionReason ∧
    row.resolvedValue.filter (· ≠ .nan) = row.resolvedValue := by
  cases row
  simp [columns]

/-- The columns of the columns. -/
theorem columns_columns (a : Alert) : columns (columns a) = columns a := by
  have horNone : ∀ x : Option String, orNone (orNone x) = orNone x := by
    intro x
    cases x with
    | none => rfl
    | some x => simp [orNone]
  simp only [columns, horNone, Option.filter_filter, Bool.and_self]
  congr 1
  · split <;> simp_all
  · split <;> simp_all

/-- A row with a new id is written. -/
theorem evolves_of_create {a : Alert} (hwrite : db.writeAlert a = some db')
    (hfresh : ∀ row ∈ db.unionAll, row.alertId ≠ a.alertId)
    (hcreates : s.creates a.alertId a.ruleId) (hregular : a.status ≠ .exception) :
    Evolves s db db' := by
  have hwritten : db.written a = columns a := by
    have hfind : db.alerts.find? a.alertId = none := by
      rw [Table.find_eq_none]
      intro row hrow
      exact hfresh row (List.mem_append_left _ hrow)
    rw [written, hfind]
  refine ⟨fun hsplit => write_alert_split hsplit hwrite, ?_, ?_⟩
  · intro row' hrow'
    rw [mem_write hwrite, hwritten] at hrow'
    rcases hrow' with rfl | ⟨hmem, -⟩
    · exact .inr ⟨hcreates, columns_columns a, hregular⟩
    · exact .inl ⟨row', hmem, .refl s row'⟩
  · intro id _
    rw [closedEvents, closedEvents, write_events hwrite]

/-- Rows change, or go, in the table that they are in. -/
theorem evolves_of_rows {db' : AeAlarmsDB} (hevents : db'.events = db.events)
    (halerts : ∀ row' ∈ db'.alerts.rows, ∃ row ∈ db.alerts.rows, row'.status = row.status ∧
      Follows s row row')
    (hhistory : ∀ row' ∈ db'.history.rows, ∃ row ∈ db.history.rows, row'.status = row.status ∧
      Follows s row row') : Evolves s db db' := by
  refine ⟨?_, ?_, ?_⟩
  · intro hsplit
    refine hsplit.congr ?_ ?_
    · intro row' hrow'
      obtain ⟨row, hrow, hstatus, hfollows⟩ := halerts row' hrow'
      exact ⟨row, hrow, hfollows.alertId, hstatus⟩
    · intro row' hrow'
      obtain ⟨row, hrow, hstatus, hfollows⟩ := hhistory row' hrow'
      exact ⟨row, hrow, hfollows.alertId, hstatus⟩
  · intro row' hrow'
    rw [unionAll, List.mem_append] at hrow'
    rcases hrow' with hrow' | hrow'
    · obtain ⟨row, hrow, -, hfollows⟩ := halerts row' hrow'
      exact .inl ⟨row, List.mem_append_left _ hrow, hfollows⟩
    · obtain ⟨row, hrow, -, hfollows⟩ := hhistory row' hrow'
      exact .inl ⟨row, List.mem_append_right _ hrow, hfollows⟩
  · intro id _
    rw [closedEvents, closedEvents, hevents]

/-- Rows that are still there have not changed. -/
theorem evolves_of_subset {db' : AeAlarmsDB} (hevents : db'.events = db.events)
    (halerts : ∀ row ∈ db'.alerts.rows, row ∈ db.alerts.rows)
    (hhistory : ∀ row ∈ db'.history.rows, row ∈ db.history.rows) : Evolves s db db' :=
  evolves_of_rows hevents (fun row hrow => ⟨row, halerts row hrow, rfl, .refl s row⟩)
    fun row hrow => ⟨row, hhistory row hrow, rfl, .refl s row⟩

/-- `bump_refresh` changes the columns that tick. -/
theorem bump_refresh_evolves (s : Scope) (db : AeAlarmsDB) (alertId : String)
    (currentValue : PyFloat) (now : ℚ) :
    Evolves s db (db.bumpRefresh alertId currentValue now) := by
  simp only [bumpRefresh]
  split
  · exact .refl s db
  · refine evolves_of_rows rfl ?_ fun row hrow => ⟨row, hrow, rfl, .refl s row⟩
    intro row' hrow'
    rw [Table.mem_update] at hrow'
    obtain ⟨row, hrow, rfl⟩ := hrow'
    refine ⟨row, hrow, ?_, ?_⟩
    · split <;> rfl
    · split
      · refine ⟨rfl, rfl, .inl rfl, ?_, fun _ _ => ⟨rfl, rfl⟩⟩
        intro hcolumns
        rw [columns_eq_self] at hcolumns ⊢
        obtain ⟨hname, hhost, hincident, hseverity, -, hrest⟩ := hcolumns
        exact ⟨hname, hhost, hincident, hseverity, fun h => absurd h (Nat.succ_ne_zero _), hrest⟩
      · exact .refl s row

/-- Without a window a row is otherwise the same. -/
theorem follows_drop_window (s : Scope) (row : Alert) :
    Follows s row { row with ignoredUntil := none } := by
  refine ⟨rfl, rfl, .inl rfl, ?_, fun _ _ => ⟨rfl, rfl⟩⟩
  intro hcolumns
  rw [columns_eq_self] at hcolumns ⊢
  exact hcolumns

/-- `clear_ignored_until` changes the windows of the rule. -/
theorem clear_ignored_evolves (s : Scope) (db : AeAlarmsDB) (ruleId : String) :
    Evolves s db (db.clearIgnoredUntil ruleId) := by
  have hdrop : ∀ t : Table Alert.alertId, ∀ row' ∈ (dropWindows t ruleId).rows,
      ∃ row ∈ t.rows, row'.status = row.status ∧ Follows s row row' := by
    intro t row' hrow'
    simp only [dropWindows, Table.mem_update] at hrow'
    obtain ⟨row, hrow, rfl⟩ := hrow'
    refine ⟨row, hrow, ?_, ?_⟩
    · split <;> rfl
    · split
      · exact follows_drop_window s row
      · exact .refl s row
  exact evolves_of_rows rfl (hdrop _) (hdrop _)

/-- `delete_alert` takes a row away. -/
theorem delete_alert_evolves (s : Scope) (db : AeAlarmsDB) (alertId : String) :
    Evolves s db (db.deleteAlert alertId).2 :=
  evolves_of_subset rfl (fun _ hrow => (Table.mem_delete.mp hrow).1)
    fun _ hrow => (Table.mem_delete.mp hrow).1

theorem purge_history_evolves (s : Scope) (db : AeAlarmsDB) (cutoff now : ℚ) :
    Evolves s db (db.purgeHistoryOlderThan cutoff now) :=
  evolves_of_subset rfl (fun _ hrow => hrow) fun _ hrow => (Table.mem_delete.mp hrow).1

/-- `write_event` of an event that closes nothing, or closes within the scope. -/
theorem write_event_evolves (db : AeAlarmsDB) (e : AlertEvent)
    (he : e.event = .closed → s.closes e.alertId) : Evolves s db (db.writeEvent e) := by
  refine ⟨fun h => ⟨h.live, h.archived, h.apart⟩,
    fun row hrow => .inl ⟨row, hrow, .refl s row⟩, ?_⟩
  intro id hid
  have hother : (decide (e.alertId = id) && decide (e.event = .closed)) = false := by
    by_cases hevent : e.event = .closed
    · have hne : e.alertId ≠ id := by
        rintro rfl
        exact hid (he hevent)
      simp [hne]
    · simp [hevent]
  simp [closedEvents, writeEvent, hother]

/-- The assignments of a bulk update keep the columns. -/
theorem columns_assign {row : Alert} (hcolumns : columns row = row) (toStatus : AlertStatus)
    (closedAt acknowledgedAt ignoredUntil : Option ℚ) :
    columns (assign toStatus closedAt acknowledgedAt ignoredUntil row) =
      assign toStatus closedAt acknowledgedAt ignoredUntil row := by
  rw [columns_eq_self] at hcolumns ⊢
  exact hcolumns

theorem bulk_update_evolves {fromStatuses : List AlertStatus} {toStatus : AlertStatus}
    (closedAt acknowledgedAt ignoredUntil : Option ℚ)
    (hmoves : ∀ row ∈ db.alerts.rows, row.status ∈ fromStatuses →
      s.Moves row.alertId row.status toStatus) :
    Evolves s db (db.bulkUpdateStatus fromStatuses toStatus closedAt acknowledgedAt
      ignoredUntil) := by
  refine ⟨fun hsplit => bulk_update_split hsplit _ _ _ _ _, ?_, ?_⟩
  · have hrows : ∀ row' ∈ (db.alerts.update (fun row => fromStatuses.contains row.status)
        (assign toStatus closedAt acknowledgedAt ignoredUntil) (assign_alert_id _ _ _ _)).rows,
        ∃ row ∈ db.unionAll, Follows s row row' := by
      intro row' hrow'
      rw [Table.mem_update] at hrow'
      obtain ⟨row, hrow, rfl⟩ := hrow'
      refine ⟨row, List.mem_append_left _ hrow, ?_⟩
      split
      · rename_i hfrom
        refine ⟨rfl, rfl, .inr (hmoves row hrow (by simpa using hfrom)), ?_,
          fun _ _ => ⟨rfl, rfl⟩⟩
        exact fun hcolumns => columns_assign hcolumns _ _ _ _
      · exact .refl s row
    intro row' hrow'
    left
    simp only [bulkUpdateStatus] at hrow'
    split at hrow'
    · rw [unionAll, List.mem_append] at hrow'
      rcases hrow' with hrow' | hrow'
      · exact hrows row' hrow'
      · exact ⟨row', List.mem_append_right _ hrow', .refl s row'⟩
    · simp only [archiveNonLive, unionAll, List.mem_append, Table.mem_delete] at hrow'
      rw [Table.mem_put_all (Table.nodup_filter _)] at hrow'
      rcases hrow' with ⟨hrow', -⟩ | hrow' | ⟨hrow', -⟩
      · exact hrows row' hrow'
      · exact hrows row' (List.mem_filter.mp hrow').1
      · exact ⟨row', List.mem_append_right _ hrow', .refl s row'⟩
  · intro id _
    simp only [bulkUpdateStatus]
    split <;> rfl

end Store

end AeAlarmsDB

end SystemsManager.Alarms
