import SystemsManager.Alarms.Engine
import SystemsManager.Alarms.Evolution

/-!
# What the repository, the manager and the engine do to the alerts

`Serves` lifts `Evolves` to the repository: the snapshot of the ongoing alerts, where there is one,
stays as the store has them. Each request of the manager and each step of the engine is within the
scope that it is meant to have. `step_serves` is the theorem to read, and it is all that the proofs
about whole runs use.
-/

namespace SystemsManager.Alarms

open Python Sql

variable {Config : Type}

/-- The columns of a live row that the list of the ongoing alerts depends on. -/
structure Outline where
  alertId : String
  ruleId : Option String
  status : AlertStatus
  createdAt : ℚ
  message : String

/-- The outline of an alert. -/
def Alert.outline (a : Alert) : Outline := ⟨a.alertId, a.ruleId, a.status, a.createdAt, a.message⟩

namespace AlertRepository

section Repository

variable {s s' : Scope} {db db' : AeAlarmsDB} {repo repo' repo'' : AlertRepository}

/-- What `get_active` reads from the store. -/
def listed (db : AeAlarmsDB) : List Alert := (db.queryActive activeLimit).filter isReadable

/-- The list follows the outlines of the live rows. -/
theorem listed_congr (h : db'.alerts.rows.map Alert.outline = db.alerts.rows.map Alert.outline) :
    (listed db').map Alert.outline = (listed db).map Alert.outline := by
  have hlisted : ∀ db : AeAlarmsDB, (listed db).map Alert.outline =
      ((((db.alerts.rows.map Alert.outline).filter fun o => o.status.live).insertionSort
        fun a b => b.createdAt ≤ a.createdAt).take activeLimit).filter (·.message ≠ "") := by
    intro db
    have hlive : (fun row : Alert => row.status.live) = (fun o : Outline => o.status.live) ∘
        Alert.outline := rfl
    have hreadable : isReadable = (fun o : Outline => decide (o.message ≠ "")) ∘ Alert.outline :=
      rfl
    rw [listed, AeAlarmsDB.queryActive, hreadable, ← List.filter_map, List.map_take, hlive,
      List.map_insertionSort (fun a b : Alert => b.createdAt ≤ a.createdAt)
        (fun a b : Outline => b.createdAt ≤ a.createdAt) Alert.outline _ fun _ _ _ _ => Iff.rfl,
      ← List.filter_map]
  rw [hlisted, hlisted, h]

variable {row : Alert}

theorem mem_of_listed (h : row ∈ listed db) : row ∈ db.alerts.rows ∧ row.status.live = true := by
  have hmem := List.mem_of_mem_take (List.mem_filter.mp h).1
  rw [List.mem_insertionSort] at hmem
  exact List.mem_filter.mp hmem

/-- No alert is listed twice. -/
theorem listed_nodup (db : AeAlarmsDB) : ((listed db).map Alert.alertId).Nodup := by
  have hlive : ((db.alerts.rows.filter fun row => row.status.live).map Alert.alertId).Nodup :=
    Table.nodup_filter _
  have hsorted := ((List.perm_insertionSort (fun a b : Alert => b.createdAt ≤ a.createdAt)
    (db.alerts.rows.filter fun row => row.status.live)).map Alert.alertId).nodup_iff.mpr hlive
  exact hsorted.sublist ((List.filter_sublist.trans (List.take_sublist _ _)).map _)

/-- The snapshot of the ongoing alerts, where there is one, is as the store has them. -/
def Coherent (repo : AlertRepository) : Prop :=
  ∀ cached, repo.activeCache = some cached →
    cached.map Alert.outline = (listed repo.db).map Alert.outline

/-- What a piece of work within a scope makes of the repository. -/
structure Serves (s : Scope) (repo repo' : AlertRepository) : Prop where
  store : Evolves s repo.db repo'.db
  coherent : Coherent repo → Coherent repo'

theorem Serves.refl (s : Scope) (repo : AlertRepository) : Serves s repo repo :=
  ⟨.refl s repo.db, id⟩

theorem Serves.trans (h : Serves s repo repo') (h' : Serves s repo' repo'') :
    Serves s repo repo'' :=
  ⟨h.store.trans h'.store, h'.coherent ∘ h.coherent⟩

/-- Work that drops the snapshot. -/
theorem serves_of_dropped (h : Evolves s repo.db repo'.db) (hcache : repo'.activeCache = none) :
    Serves s repo repo' := by
  refine ⟨h, ?_⟩
  intro _ cached hcached
  rw [hcache] at hcached
  cases hcached

/-- Work that keeps the snapshot, and the outlines of the live rows. -/
theorem serves_of_kept (h : Evolves s repo.db repo'.db)
    (hcache : repo'.activeCache = repo.activeCache)
    (hrows : repo'.db.alerts.rows.map Alert.outline = repo.db.alerts.rows.map Alert.outline) :
    Serves s repo repo' := by
  refine ⟨h, ?_⟩
  intro hcoherent cached hcached
  rw [hcache] at hcached
  rw [hcoherent cached hcached, listed_congr hrows]

theorem get_active_db (repo : AlertRepository) : repo.getActive.2.db = repo.db := by
  simp only [getActive]
  split <;> rfl

/-- `get_active` returns what the store has. -/
theorem get_active_listed (h : Coherent repo) :
    repo.getActive.1.map Alert.outline = (listed repo.db).map Alert.outline := by
  simp only [getActive]
  split
  · rename_i cached hcached
    exact h cached hcached
  · rfl

/-- `get_active` is no change. -/
theorem get_active_serves (s : Scope) (repo : AlertRepository) :
    Serves s repo repo.getActive.2 := by
  refine ⟨?_, ?_⟩
  · rw [get_active_db]
    exact .refl s repo.db
  · intro hcoherent cached hcached
    simp only [getActive] at hcached ⊢
    split at hcached
    · exact hcoherent cached hcached
    · cases hcached
      rfl

/-- `record_event` of an event that closes nothing, or closes within the scope. -/
theorem record_event_serves (repo : AlertRepository) (alertId : String) {event : EventKind}
    (now : ℚ) (actor : Option String) (hevent : event = .closed → s.closes alertId) :
    Serves s repo (repo.recordEvent alertId event now actor) :=
  serves_of_kept (AeAlarmsDB.write_event_evolves _ _ hevent) rfl rfl

/-- `clear_rule_ignored` changes windows only. -/
theorem clear_rule_ignored_serves (s : Scope) (repo : AlertRepository) (ruleId : Option String) :
    Serves s repo (repo.clearRuleIgnored ruleId) := by
  cases ruleId with
  | none => exact .refl s repo
  | some ruleId =>
      refine serves_of_kept (AeAlarmsDB.clear_ignored_evolves s _ _) rfl ?_
      simp only [clearRuleIgnored, AeAlarmsDB.clearIgnoredUntil, AeAlarmsDB.dropWindows,
        Table.update, List.map_map]
      congr 1
      funext row
      simp only [Function.comp_apply]
      split <;> rfl

/-- `set_rule_ignored` is in memory. -/
theorem set_rule_ignored_serves (s : Scope) (repo : AlertRepository) (ruleId : Option String)
    (deadline : ℚ) : Serves s repo (repo.setRuleIgnored ruleId deadline) := by
  cases ruleId with
  | none => exact .refl s repo
  | some ruleId => exact serves_of_kept (.refl s _) rfl rfl

/-- `is_rule_ignored` is in memory. -/
theorem is_rule_ignored_serves (s : Scope) (repo : AlertRepository) (ruleId : Option String)
    (now : ℚ) : Serves s repo (repo.isRuleIgnored ruleId now).2 := by
  simp only [isRuleIgnored]
  split
  · exact .refl s repo
  · split
    · exact .refl s repo
    · split
      · exact serves_of_kept (.refl s _) rfl rfl
      · exact .refl s repo

/-- A snapshot keeps its outlines when an alert of it is refreshed. -/
theorem outline_patch (a : Alert) (cached : List Alert) :
    (patch a cached).map Alert.outline = cached.map Alert.outline := by
  induction cached with
  | nil => rfl
  | cons first rest ih =>
      simp only [patch]
      split
      · rfl
      · rw [List.map_cons, List.map_cons, ih]

/-- `bump_refresh` keeps the outlines. -/
theorem outline_bump_refresh (db : AeAlarmsDB) (alertId : String) (currentValue : PyFloat)
    (now : ℚ) :
    (db.bumpRefresh alertId currentValue now).alerts.rows.map Alert.outline =
      db.alerts.rows.map Alert.outline := by
  simp only [AeAlarmsDB.bumpRefresh]
  split
  · rfl
  · simp only [Table.update, List.map_map]
    congr 1
    funext row
    simp only [Function.comp_apply]
    split <;> rfl

/-- `refresh` changes the columns that tick. -/
theorem refresh_serves (s : Scope) (repo : AlertRepository) (a : Alert) (currentValue : PyFloat)
    (now : ℚ) : Serves s repo (repo.refresh a currentValue now).2 := by
  refine ⟨AeAlarmsDB.bump_refresh_evolves s _ _ _ _, ?_⟩
  intro hcoherent cached hcached
  simp only [refresh, Option.map_eq_some_iff] at hcached ⊢
  obtain ⟨old, hold, rfl⟩ := hcached
  rw [outline_patch, hcoherent old hold, listed_congr (outline_bump_refresh _ _ _ _)]

theorem delete_serves (s : Scope) (repo : AlertRepository) (alertId : String) :
    Serves s repo (repo.delete alertId).2 :=
  serves_of_dropped (AeAlarmsDB.delete_alert_evolves s _ _) rfl

variable {alertId : String}

theorem get_alert_of_get_by_id (h : repo.getById alertId = some row) :
    repo.db.getAlert alertId = some row ∧ isReadable row = true := by
  simpa only [getById, Option.filter_eq_some_iff] using h

/-- The fields of a stored row that no request changes. -/
structure Keeps (f : Alert → Alert) : Prop where
  alertId : ∀ a, (f a).alertId = a.alertId
  ruleId : ∀ a, (f a).ruleId = a.ruleId
  metricSource : ∀ a, (f a).metricSource = a.metricSource
  metricName : ∀ a, (f a).metricName = a.metricName
  createdAt : ∀ a, (f a).createdAt = a.createdAt

theorem keeps_update (u : AlertUpdate) (now : ℚ) : Keeps fun a => applyUpdate u a now :=
  ⟨fun _ => rfl, fun _ => rfl, fun _ => rfl, fun _ => rfl, fun _ => rfl⟩

theorem keeps_resume : Keeps applyResume :=
  ⟨fun _ => rfl, fun _ => rfl, fun _ => rfl, fun _ => rfl, fun _ => rfl⟩

theorem change_eq_some {f : Alert → Alert} {result : Alert}
    (h : repo.change alertId f = some (result, repo')) :
    ∃ row, repo.getById alertId = some row ∧ result = f row ∧ repo'.activeCache = none ∧
      repo'.ignoredUntil = repo.ignoredUntil ∧ repo.db.writeAlert (f row) = some repo'.db := by
  simp only [change, save, Option.bind_eq_some_iff, Option.map_map, Option.map_eq_some_iff,
    Function.comp_apply, Prod.mk.injEq] at h
  obtain ⟨row, hrow, db, hwrite, rfl, rfl⟩ := h
  exact ⟨row, hrow, rfl, rfl, rfl, hwrite⟩

theorem change_serves {f : Alert → Alert} {result : Alert} (hf : Keeps f)
    (hfollows : ∀ row, repo.getById alertId = some row →
      Follows s row (AeAlarmsDB.columns (f row)))
    (h : repo.change alertId f = some (result, repo')) : Serves s repo repo' := by
  obtain ⟨row, hrow, -, hcache, -, hwrite⟩ := change_eq_some h
  have hget := (get_alert_of_get_by_id hrow).1
  have hid : (f row).alertId = alertId := by
    rw [hf.alertId]
    exact (AeAlarmsDB.mem_of_get_alert hget).2
  have hget' : repo.db.getAlert (f row).alertId = some row := by
    rw [hid]
    exact hget
  refine serves_of_dropped (AeAlarmsDB.evolves_of_write hwrite hget' ?_ (hfollows row hrow)) hcache
  exact AeAlarmsDB.written_stored hget' (hf.ruleId row) (hf.metricSource row) (hf.metricName row)
    (hf.createdAt row)

theorem follows_update {u : AlertUpdate} (now : ℚ)
    (hmoves : s.Moves row.alertId row.status u.status)
    (hresolution : ¬ s.closes row.alertId → u.resolutionReason = none ∧ u.resolvedValue = none) :
    Follows s row (AeAlarmsDB.columns (applyUpdate u row now)) := by
  refine ⟨rfl, rfl, .inr hmoves, fun _ => AeAlarmsDB.columns_columns _, ?_⟩
  intro hcolumns hcloses
  obtain ⟨hreason, hvalue⟩ := hresolution hcloses
  rw [AeAlarmsDB.columns_eq_self] at hcolumns
  obtain ⟨-, -, -, -, -, -, -, hreason', hvalue'⟩ := hcolumns
  simp only [AeAlarmsDB.columns, applyUpdate, hreason, hvalue, Option.none_or]
  exact ⟨hreason', hvalue'⟩

theorem follows_resume (hresumes : s.resumes row.alertId) :
    Follows s row (AeAlarmsDB.columns (applyResume row)) := by
  refine ⟨rfl, rfl, .inr (.active hresumes), fun _ => AeAlarmsDB.columns_columns _, ?_⟩
  intro hcolumns _
  rw [AeAlarmsDB.columns_eq_self] at hcolumns
  obtain ⟨-, -, -, -, -, -, -, hreason, hvalue⟩ := hcolumns
  exact ⟨hreason, hvalue⟩

theorem create_serves {c : AlertCreate} {now : ℚ} {a : Alert}
    (hfresh : ∀ row ∈ repo.db.unionAll, row.alertId ≠ alertId)
    (hcreates : s.creates alertId c.ruleId) (h : repo.create c alertId now = some (a, repo')) :
    Serves s repo repo' := by
  simp only [create, save, Option.map_map, Option.map_eq_some_iff, Function.comp_apply,
    Prod.mk.injEq] at h
  obtain ⟨db, hwrite, rfl, rfl⟩ := h
  exact serves_of_dropped (AeAlarmsDB.evolves_of_create hwrite hfresh hcreates fun h => by cases h)
    rfl

theorem create_active {c : AlertCreate} {now : ℚ} {a row : Alert}
    (h : repo.create c alertId now = some (a, repo')) (hrow : row ∈ repo'.db.unionAll)
    (hid : row.alertId = alertId) : row.status = .active := by
  simp only [create, save, Option.map_map, Option.map_eq_some_iff, Function.comp_apply,
    Prod.mk.injEq] at h
  obtain ⟨db, hwrite, rfl, rfl⟩ := h
  rw [AeAlarmsDB.mem_write hwrite] at hrow
  rcases hrow with rfl | ⟨-, hne⟩
  · simp only [AeAlarmsDB.written]
    split <;> rfl
  · exact absurd hid hne

/-- `close_all_alerts` closes the live rows. -/
theorem close_all_serves (repo : AlertRepository) (now : ℚ)
    (hcloses : ∀ row ∈ repo.db.alerts.rows, s.closes row.alertId) :
    Serves s repo (repo.closeAllAlerts now) :=
  serves_of_dropped (AeAlarmsDB.bulk_update_evolves _ _ _ fun row hrow _ =>
    .closed (hcloses row hrow)) rfl

/-- The windows of `ignore_all_alerts` are set in memory. -/
theorem set_windows_db (affected : List String) (deadline : ℚ) (repo : AlertRepository) :
    (affected.foldl (fun repo ruleId => repo.setRuleIgnored (some ruleId) deadline) repo).db =
      repo.db := by
  induction affected generalizing repo with
  | nil => rfl
  | cons ruleId rest ih => exact ih _

/-- `ignore_all_alerts` ignores live rows that are active or acknowledged. -/
theorem ignore_all_serves (repo : AlertRepository) (durationHours : Nat) (now : ℚ)
    (hhandles : ∀ row ∈ repo.db.alerts.rows, s.handles row.alertId) :
    Serves s repo (repo.ignoreAllAlerts durationHours now) := by
  refine serves_of_dropped ?_ rfl
  simp only [ignoreAllAlerts, set_windows_db, get_active_db]
  refine AeAlarmsDB.bulk_update_evolves _ _ _ ?_
  intro row hrow hfrom
  refine .ignored (hhandles row hrow) ?_
  intro hclosed
  rw [hclosed] at hfrom
  simp at hfrom

end Repository

end AlertRepository

namespace AlertManager

open AlertRepository

section Manager

variable {s : Scope} {repo repo' : AlertRepository} {alertId : String} {now : ℚ} {result : Alert}

/-- `acknowledge_alert` handles the alert, which is not closed. -/
theorem acknowledge_serves (hhandles : s.handles alertId)
    (h : acknowledgeAlert repo alertId now = some (result, repo')) : Serves s repo repo' := by
  simp only [acknowledgeAlert, Option.bind_eq_some_iff] at h
  obtain ⟨alert, halert, h⟩ := h
  split at h
  · cases h
  · rename_i hopen
    simp only [Option.map_eq_some_iff, Prod.mk.injEq, Prod.exists] at h
    obtain ⟨result, changed, hchange, -, rfl⟩ := h
    refine Serves.trans ?_ ((clear_rule_ignored_serves s _ _).trans
      (record_event_serves _ _ _ _ fun h => by cases h))
    refine change_serves (keeps_update _ _) ?_ hchange
    intro row hrow
    rw [halert] at hrow
    cases hrow
    have hid := (AeAlarmsDB.mem_of_get_alert (get_alert_of_get_by_id halert).1).2
    refine follows_update now (.acknowledged (hid ▸ hhandles) fun hclosed =>
      absurd hclosed hopen) ?_
    exact fun _ => ⟨rfl, rfl⟩

/-- `ignore_alert` handles the alert, which is not closed. -/
theorem ignore_serves {durationHours : Nat} (hhandles : s.handles alertId)
    (h : ignoreAlert repo alertId durationHours now = some (result, repo')) :
    Serves s repo repo' := by
  simp only [ignoreAlert, Option.bind_eq_some_iff] at h
  obtain ⟨alert, halert, h⟩ := h
  split at h
  · cases h
  · rename_i hopen
    simp only [Option.map_eq_some_iff, Prod.mk.injEq, Prod.exists] at h
    obtain ⟨result, changed, hchange, -, rfl⟩ := h
    refine Serves.trans ?_ ((set_rule_ignored_serves s _ _ _).trans
      (record_event_serves _ _ _ _ fun h => by cases h))
    refine change_serves (keeps_update _ _) ?_ hchange
    intro row hrow
    rw [halert] at hrow
    cases hrow
    have hid := (AeAlarmsDB.mem_of_get_alert (get_alert_of_get_by_id halert).1).2
    refine follows_update now (.ignored (hid ▸ hhandles) fun hclosed => absurd hclosed hopen) ?_
    exact fun _ => ⟨rfl, rfl⟩

/-- `close_alert` closes the alert, if there is one. -/
theorem close_serves {reason : Option String} {resolvedValue : Option PyFloat}
    (hcloses : ∀ row ∈ repo.db.unionAll, row.alertId = alertId → s.closes alertId)
    (h : closeAlert repo alertId reason resolvedValue now = some (result, repo')) :
    Serves s repo repo' := by
  simp only [closeAlert, Option.bind_eq_some_iff, Option.map_eq_some_iff, Prod.mk.injEq,
    Prod.exists] at h
  obtain ⟨alert, halert, result, changed, hchange, -, rfl⟩ := h
  obtain ⟨hmem, hread⟩ := AeAlarmsDB.mem_of_get_alert (get_alert_of_get_by_id halert).1
  replace hcloses := hcloses alert hmem hread
  have hclosed : Serves s repo changed := by
    refine change_serves (keeps_update _ _) ?_ hchange
    intro row hrow
    have hid := (AeAlarmsDB.mem_of_get_alert (get_alert_of_get_by_id hrow).1).2
    refine follows_update now (.closed (hid ▸ hcloses)) ?_
    intro hno
    exact absurd (hid ▸ hcloses) hno
  have hcleared : Serves s changed
      (if reason = some "auto" then changed else changed.clearRuleIgnored alert.ruleId) := by
    split
    · exact .refl s _
    · exact clear_rule_ignored_serves s _ _
  exact hclosed.trans (hcleared.trans (record_event_serves _ _ _ _ fun _ => hcloses))

/-- `resume_alert` resumes the alert. -/
theorem resume_serves (hresumes : s.resumes alertId)
    (h : resumeAlert repo alertId now = some (result, repo')) : Serves s repo repo' := by
  simp only [resumeAlert, Option.bind_eq_some_iff, Option.map_eq_some_iff, Prod.mk.injEq,
    Prod.exists] at h
  obtain ⟨alert, halert, result, changed, hchange, -, rfl⟩ := h
  refine Serves.trans ?_ ((clear_rule_ignored_serves s _ _).trans
    (record_event_serves _ _ _ _ ?_))
  · refine change_serves keeps_resume ?_ hchange
    intro row hrow
    have hid := (AeAlarmsDB.mem_of_get_alert (get_alert_of_get_by_id hrow).1).2
    exact follows_resume (hid ▸ hresumes)
  · split <;> intro h <;> cases h

/-- `delete_alert` takes a row away, and the windows of its rule. -/
theorem delete_alert_serves (s : Scope) (repo : AlertRepository) (alertId : String) :
    Serves s repo (deleteAlert repo alertId).2 := by
  simp only [deleteAlert]
  split
  · exact (delete_serves s repo alertId).trans (clear_rule_ignored_serves s _ _)
  · exact delete_serves s repo alertId

/-- Close some alerts, one after the other. -/
def closeEach (repo : AlertRepository) (reason : Option String) (resolvedValue : Option PyFloat)
    (now : ℚ) : List Alert → AlertRepository
  | [] => repo
  | a :: rest =>
      match closeAlert repo a.alertId reason resolvedValue now with
      | some (_, repo) => closeEach repo reason resolvedValue now rest
      | none => closeEach repo reason resolvedValue now rest

/-- Alerts that are there are closed. -/
theorem close_each_serves {reason : Option String} {resolvedValue : Option PyFloat}
    (hnone : ∀ id ruleId, ¬ s.creates id ruleId) (alerts : List Alert) (repo : AlertRepository)
    (hcloses : ∀ a ∈ alerts, ∀ row ∈ repo.db.unionAll, row.alertId = a.alertId →
      s.closes a.alertId) : Serves s repo (closeEach repo reason resolvedValue now alerts) := by
  induction alerts generalizing repo with
  | nil => exact .refl s repo
  | cons a rest ih =>
      simp only [closeEach]
      split
      · rename_i repo' hclose
        have hfirst := close_serves (hcloses a List.mem_cons_self) hclose
        refine hfirst.trans (ih _ ?_)
        intro b hb row' hrow' hid
        obtain ⟨row, hrow, hsame⟩ := hfirst.store.old_id hnone hrow'
        exact hcloses b (List.mem_cons_of_mem _ hb) row hrow (hsame.symm.trans hid)
      · exact ih repo fun b hb => hcloses b (List.mem_cons_of_mem _ hb)

/-- `close_rule_alerts` closes the listed alerts of the rule, one after the other. -/
theorem close_rule_eq (repo : AlertRepository) (ruleId reason : String) (now : ℚ) :
    closeRuleAlerts repo ruleId reason now =
      closeEach repo.getActive.2 (some reason) none now
        (repo.getActive.1.filter fun a => a.status.live && decide (a.ruleId = some ruleId)) := by
  simp only [closeRuleAlerts]
  generalize repo.getActive.2 = repo
  induction List.filter _ _ generalizing repo with
  | nil => rfl
  | cons a rest ih =>
      rw [List.foldl_cons, ih]
      simp only [closeEach]
      cases closeAlert repo a.alertId (some reason) none now with
      | none => rfl
      | some result => rfl

/-- `close_rule_alerts` closes the listed alerts of the rule. -/
theorem close_rule_serves (repo : AlertRepository) (ruleId reason : String) (now : ℚ)
    (hnone : ∀ id ruleId, ¬ s.creates id ruleId)
    (hcloses : ∀ a ∈ repo.getActive.1, a.ruleId = some ruleId → ∀ row ∈ repo.db.unionAll,
      row.alertId = a.alertId → s.closes a.alertId) :
    Serves s repo (closeRuleAlerts repo ruleId reason now) := by
  rw [close_rule_eq]
  refine (get_active_serves s repo).trans (close_each_serves hnone _ _ ?_)
  intro a ha
  obtain ⟨hmem, hrule⟩ := List.mem_filter.mp ha
  simp only [Bool.and_eq_true, decide_eq_true_eq] at hrule
  rw [get_active_db]
  exact hcloses a hmem hrule.2

/-- What `get_active` returns does not depend on the windows. -/
theorem get_active_of_is_rule_ignored (repo : AlertRepository) (ruleId : Option String) (now : ℚ) :
    (repo.isRuleIgnored ruleId now).2.getActive.1 = repo.getActive.1 := by
  have hsame : ∀ other : AlertRepository, other.db = repo.db →
      other.activeCache = repo.activeCache → other.getActive.1 = repo.getActive.1 := by
    intro other hdb hcache
    simp only [getActive, hdb, hcache]
    split <;> rfl
  simp only [isRuleIgnored]
  split
  · rfl
  · split
    · rfl
    · split
      · exact hsame _ rfl rfl
      · rfl

/-- `process_alert` creates an alert where none of the rule is listed, and may ignore it. -/
theorem process_serves (corr : Correlation) (c : AlertCreate)
    (hfresh : ∀ row ∈ repo.db.unionAll, row.alertId ≠ alertId) (hhandles : s.handles alertId)
    (hcreates : (∀ a ∈ repo.getActive.1, a.ruleId = c.ruleId → a.status.live = false) →
      s.creates alertId c.ruleId) : Serves s repo (processAlert repo corr c alertId now).2 := by
  simp only [processAlert]
  generalize hstart : (repo.isRuleIgnored c.ruleId now).2 = started
  have hstarted : Serves s repo started := hstart ▸ is_rule_ignored_serves s _ _ _
  have hactive : started.getActive.1 = repo.getActive.1 :=
    hstart ▸ get_active_of_is_rule_ignored repo c.ruleId now
  have hread := hstarted.trans (get_active_serves s started)
  split
  · exact hread.trans (refresh_serves s _ _ _ _)
  · rename_i hnone
    rw [hactive, List.filter_eq_nil_iff] at hnone
    have hcreated : s.creates alertId c.ruleId := by
      refine hcreates fun a ha hrule => ?_
      simpa [hrule] using hnone a ha
    have hdb : started.getActive.2.db = repo.db := by
      rw [get_active_db, ← hstart]
      simp only [isRuleIgnored]
      split
      · rfl
      · split
        · rfl
        · split <;> rfl
    split
    · exact hread
    · rename_i alert made hmade
      have hmake : Serves s repo made := by
        refine hread.trans (create_serves (hdb ▸ hfresh) ?_ hmade)
        split
        · exact hcreated
        · exact hcreated
      refine hmake.trans (Serves.trans ?_ (record_event_serves _ _ _ _ fun h => by cases h))
      split
      · rename_i deadline hdeadline
        cases hupdate : made.update alertId
          { status := .ignored, ignoredUntil := some deadline } now with
        | none => exact .refl s made
        | some updated =>
            refine change_serves (keeps_update _ _) ?_ hupdate
            intro row hrow
            obtain ⟨hmem, hid⟩ := AeAlarmsDB.mem_of_get_alert (get_alert_of_get_by_id hrow).1
            have hactive := create_active hmade hmem hid
            refine follows_update now (.ignored (hid ▸ hhandles) ?_) fun _ => ⟨rfl, rfl⟩
            intro hclosed
            rw [hactive] at hclosed
            cases hclosed
      · exact .refl s made

end Manager

end AlertManager

namespace Engine

open AlertRepository AlertManager

section Engine

variable {s : Scope} {now : ℚ}

/-- The snapshot's alerts whose windows have elapsed are resumed. -/
theorem resume_elapsed_serves (alerts : List Alert) (repo : AlertRepository)
    (hresumes : ∀ a ∈ alerts, a.status = .ignored → (∃ deadline, a.ignoredUntil = some deadline ∧
      deadline ≤ now) → s.resumes a.alertId) : Serves s repo (resumeElapsed repo now alerts).2 := by
  induction alerts generalizing repo with
  | nil => exact .refl s repo
  | cons a rest ih =>
      have hrest := fun repo => ih repo fun b hb => hresumes b (List.mem_cons_of_mem _ hb)
      simp only [resumeElapsed]
      split
      · rename_i helapsed
        simp only [Bool.and_eq_true, decide_eq_true_eq, Option.any_eq_true] at helapsed
        have ha := hresumes a List.mem_cons_self helapsed.1 helapsed.2
        split
        · rename_i hresume
          exact (resume_serves ha hresume).trans (hrest _)
        · exact hrest repo
      · exact hrest repo

/-- `_expire_ignore_windows` resumes alerts of the snapshot. -/
theorem expire_serves (eng : Engine)
    (hresumes : ∀ a ∈ eng.snapshot, a.status = .ignored → (∃ deadline, a.ignoredUntil =
      some deadline ∧ deadline ≤ now) → s.resumes a.alertId) :
    Serves s eng.repo (eng.expireIgnoreWindows now).repo := by
  have hloop := resume_elapsed_serves eng.snapshot eng.repo hresumes
  simp only [expireIgnoreWindows]
  split
  · rename_i repo hresult
    rw [hresult] at hloop
    exact hloop
  · rename_i repo hresult
    rw [hresult] at hloop
    exact hloop.trans (get_active_serves s repo)

/-- A rule that has recovered has its alerts closed one after the other. -/
theorem auto_resolve_repo (value : PyFloat) (now : ℚ) (alerts : List Alert) (eng : Engine) :
    (eng.autoResolve value now alerts).repo =
      closeEach eng.repo (some "auto") (some value) now alerts := by
  induction alerts generalizing eng with
  | nil => rfl
  | cons a rest ih =>
      simp only [autoResolve, closeEach]
      cases closeAlert eng.repo a.alertId (some "auto") (some value) now with
      | none => exact ih eng
      | some result => exact ih { eng with repo := result.2 }

/-- The streak after a cycle in which the rule does not breach reaches the number of cycles after
which its alerts are closed. -/
def resolves (eng : Engine) (rule : AlarmRule Config) (recovered : Bool) : Bool :=
  0 < rule.autoResolveCycles &&
    rule.autoResolveCycles ≤ if recovered then eng.okStreak.getD rule.ruleId 0 + 1 else 0

/-- A breaching rule has no ongoing alert in the snapshot, and has breached for long enough. -/
def fires (eng : Engine) (rule : AlarmRule Config) : Bool :=
  (eng.ongoingOf rule.ruleId).isEmpty &&
    max 1 rule.minTriggerCycles ≤ eng.breachStreak.getD rule.ruleId 0 + 1

/-- The scope of a piece of work. -/
def scope (eng : Engine) : Work Config → Scope
  | .process _ c alertId _ =>
      { handles := fun id => id = alertId
        creates := fun id ruleId => id = alertId ∧ ruleId = c.ruleId ∧
          ∀ a ∈ eng.repo.getActive.1, a.ruleId = c.ruleId → a.status.live = false }
  | .acknowledge alertId _ => { handles := fun id => id = alertId }
  | .close alertId _ _ =>
      { closes := fun id => id = alertId ∧ ∃ row ∈ eng.repo.db.unionAll, row.alertId = id }
  | .ignore alertId _ _ => { handles := fun id => id = alertId }
  | .resume alertId _ => { resumes := fun id => id = alertId }
  | .closeAll _ => { closes := fun id => ∃ row ∈ eng.repo.db.alerts.rows, row.alertId = id }
  | .ignoreAll _ _ => { handles := fun id => ∃ row ∈ eng.repo.db.alerts.rows, row.alertId = id }
  | .closeRule ruleId _ _ =>
      { closes := fun id => (∃ a ∈ eng.repo.getActive.1, a.ruleId = some ruleId ∧ a.alertId = id) ∧
          ∃ row ∈ eng.repo.db.unionAll, row.alertId = id }
  | .expireWindows now =>
      { resumes := fun id => ∃ a ∈ eng.snapshot, a.alertId = id ∧ a.status = .ignored ∧
          ∃ deadline, a.ignoredUntil = some deadline ∧ deadline ≤ now }
  | .evaluate _ rule (.ok recovered) _ _ _ =>
      { closes := fun id => (eng.resolves rule recovered = true ∧
          ∃ a ∈ eng.ongoingOf rule.ruleId, a.alertId = id) ∧
          ∃ row ∈ eng.repo.db.unionAll, row.alertId = id }
  | .evaluate _ rule (.breach c) _ alertId _ =>
      { handles := fun id => id = alertId
        creates := fun id ruleId => id = alertId ∧ ruleId = c.ruleId ∧
          eng.fires rule = true ∧
          ∀ a ∈ eng.repo.getActive.1, a.ruleId = c.ruleId → a.status.live = false }
  | _ => {}

/-- The id that `uuid4` gives for an alert that may be created. -/
def Work.newId : Work Config → Option String
  | .process _ _ alertId _ => some alertId
  | .evaluate _ _ _ _ alertId _ => some alertId
  | _ => none

/-- The streaks after a cycle in which the rule does not breach. -/
def countOk (eng : Engine) (rule : AlarmRule Config) (recovered : Bool) : Engine :=
  { eng with
    breachStreak := eng.breachStreak.erase rule.ruleId
    okStreak := if 0 < rule.autoResolveCycles then
        if recovered then eng.okStreak.set rule.ruleId (eng.okStreak.getD rule.ruleId 0 + 1)
        else eng.okStreak.erase rule.ruleId
      else eng.okStreak }

/-- The streak of a rule that has recovered, or not, in this cycle. -/
theorem getD_streak (streak : Dict String Nat) (ruleId : String) (recovered : Bool) :
    (if recovered then streak.set ruleId (streak.getD ruleId 0 + 1)
      else streak.erase ruleId).getD ruleId 0 =
      if recovered then streak.getD ruleId 0 + 1 else 0 := by
  cases recovered with
  | true => simp
  | false => simp [Dict.getD]

/-- A cycle in which the rule does not breach counts, and closes where the streak is reached. -/
theorem after_ok_eq (eng : Engine) (rule : AlarmRule Config) (recovered : Bool) (value : PyFloat)
    (now : ℚ) : eng.afterOk rule recovered value now =
      if eng.resolves rule recovered then
        (eng.countOk rule recovered).autoResolve value now (eng.ongoingOf rule.ruleId)
      else eng.countOk rule recovered := by
  by_cases hpositive : 0 < rule.autoResolveCycles
  · simp only [afterOk, getD_streak, resolves, hpositive, decide_true,
      Bool.true_and, decide_eq_true_eq, countOk]
    rfl
  · simp [afterOk, resolves, countOk, hpositive]

/-- A cycle in which the rule does not breach closes its alerts once the streak is reached. -/
theorem after_ok_serves (eng : Engine) (rule : AlarmRule Config) (recovered : Bool)
    (value : PyFloat) (hnone : ∀ id ruleId, ¬ s.creates id ruleId)
    (hcloses : eng.resolves rule recovered = true → ∀ a ∈ eng.ongoingOf rule.ruleId,
      ∀ row ∈ eng.repo.db.unionAll, row.alertId = a.alertId → s.closes a.alertId) :
    Serves s eng.repo (eng.afterOk rule recovered value now).repo := by
  rw [after_ok_eq]
  split
  · rename_i hresolves
    rw [auto_resolve_repo]
    exact close_each_serves hnone _ _ (hcloses hresolves)
  · exact .refl s _

/-- The streak of recovered cycles ends. -/
def notOk (eng : Engine) (ruleId : String) : Engine :=
  { eng with okStreak := eng.okStreak.erase ruleId }

/-- A cycle in which the rule breaches refreshes its alert, or counts, or creates one. -/
theorem after_breach_eq (eng : Engine) (corr : Correlation) (rule : AlarmRule Config)
    (c : AlertCreate) (value : PyFloat) (alertId : String) (now : ℚ) :
    eng.afterBreach corr rule c value alertId now =
      match eng.ongoingOf rule.ruleId with
      | [] =>
          if eng.breachStreak.getD rule.ruleId 0 + 1 < max 1 rule.minTriggerCycles then
            (.reached false, { eng.notOk rule.ruleId with
              breachStreak := eng.breachStreak.set rule.ruleId
                (eng.breachStreak.getD rule.ruleId 0 + 1) })
          else fire (eng.notOk rule.ruleId) corr rule c alertId now
      | a :: _ =>
          (.reached false, { eng.notOk rule.ruleId with
            repo := (eng.repo.refresh a value now).2
            snapshot := patch (eng.repo.refresh a value now).1 eng.snapshot
            firings := eng.firings ++ [(eng.repo.refresh a value now).1] }) := rfl

/-- A cycle in which the rule breaches refreshes its alert, or creates one. -/
theorem after_breach_serves (eng : Engine) (corr : Correlation) (rule : AlarmRule Config)
    (c : AlertCreate) (value : PyFloat) {alertId : String}
    (hfresh : ∀ row ∈ eng.repo.db.unionAll, row.alertId ≠ alertId) (hhandles : s.handles alertId)
    (hcreates : eng.fires rule = true →
      (∀ a ∈ eng.repo.getActive.1, a.ruleId = c.ruleId → a.status.live = false) →
      s.creates alertId c.ruleId) :
    Serves s eng.repo (eng.afterBreach corr rule c value alertId now).2.repo := by
  simp only [afterBreach]
  split
  · rename_i hnone
    split
    · exact .refl s _
    · rename_i hstreak
      have hfires : eng.fires rule = true := by
        have hempty : eng.ongoingOf rule.ruleId = [] := hnone
        simp only [fires, hempty, List.isEmpty_nil, Bool.true_and, decide_eq_true_eq]
        exact Nat.le_of_not_lt hstreak
      have hprocess : Serves s eng.repo (processAlert eng.repo corr c alertId now).2 :=
        process_serves corr c hfresh hhandles (hcreates hfires)
      simp only [fire]
      split
      · rename_i repo hresult
        rw [hresult] at hprocess
        exact hprocess
      · rename_i repo hresult
        rw [hresult] at hprocess
        exact hprocess
      · rename_i a repo hresult
        rw [hresult] at hprocess
        exact hprocess
  · exact refresh_serves s _ _ _ _

/-- A piece of work is within its scope. -/
theorem step_serves (eng : Engine) (w : Work Config)
    (hfresh : ∀ id ∈ w.newId, ∀ row ∈ eng.repo.db.unionAll, row.alertId ≠ id) :
    Serves (eng.scope w) eng.repo (eng.step w).repo := by
  cases w with
  | process corr c alertId now =>
      have hprocess : Serves (eng.scope (.process corr c alertId now : Work Config)) eng.repo
          (processAlert eng.repo corr c alertId now).2 :=
        process_serves corr c (hfresh alertId rfl) rfl fun hnone => ⟨rfl, rfl, hnone⟩
      simp only [step]
      split
      · rename_i a repo hresult
        rw [hresult] at hprocess
        exact hprocess
      · rename_i outcome repo _ hresult
        rw [hresult] at hprocess
        exact hprocess
  | acknowledge alertId now =>
      simp only [step, serve]
      split
      · rename_i hresult
        exact acknowledge_serves rfl hresult
      · exact .refl _ _
  | close alertId reason now =>
      simp only [step, serve]
      split
      · rename_i hresult
        exact close_serves (fun row hrow hid => ⟨rfl, row, hrow, hid⟩) hresult
      · exact .refl _ _
  | ignore alertId durationHours now =>
      simp only [step, serve]
      split
      · rename_i hresult
        exact ignore_serves rfl hresult
      · exact .refl _ _
  | resume alertId now =>
      simp only [step, serve]
      split
      · rename_i hresult
        exact resume_serves rfl hresult
      · exact .refl _ _
  | closeAll now => exact close_all_serves _ _ fun row hrow => ⟨row, hrow, rfl⟩
  | ignoreAll durationHours now => exact ignore_all_serves _ _ _ fun row hrow => ⟨row, hrow, rfl⟩
  | delete alertId => exact delete_serves _ _ _
  | deleteByManager alertId => exact delete_alert_serves _ _ _
  | closeRule ruleId reason now =>
      exact close_rule_serves _ _ _ _ (fun _ _ => id) fun a ha hrule row hrow hid =>
        ⟨⟨a, ha, hrule, rfl⟩, row, hrow, hid⟩
  | takeSnapshot => exact get_active_serves _ _
  | expireWindows now =>
      exact expire_serves eng fun a ha hstatus helapsed => ⟨a, ha, rfl, hstatus, helapsed⟩
  | evaluate corr rule reading value alertId now =>
      cases reading with
      | noData => exact .refl _ _
      | stale => exact .refl _ _
      | suppressed => exact .refl _ _
      | raised => exact .refl _ _
      | breach c =>
          exact after_breach_serves eng corr rule c value (hfresh alertId rfl) rfl
            fun hfires hnone => ⟨rfl, rfl, hfires, hnone⟩
      | ok recovered =>
          exact after_ok_serves eng rule recovered value (fun _ _ => id)
            fun hresolves a ha row hrow hid => ⟨⟨hresolves, a, ha, rfl⟩, row, hrow, hid⟩
  | purge cutoff now =>
      exact serves_of_kept (AeAlarmsDB.purge_history_evolves _ _ _ _) rfl rfl
  | readActive => exact get_active_serves _ _
  | dropCache => exact serves_of_dropped (.refl _ _) rfl

/-- Closing alerts changes the repository only. -/
theorem auto_resolve_snapshot (value : PyFloat) (now : ℚ) (alerts : List Alert) (eng : Engine) :
    (eng.autoResolve value now alerts).snapshot = eng.snapshot := by
  induction alerts generalizing eng with
  | nil => rfl
  | cons a rest ih =>
      simp only [autoResolve]
      split
      · exact ih _
      · exact ih _

/-- A request changes the repository only. -/
theorem serve_snapshot (eng : Engine) (result : Option (Alert × AlertRepository)) :
    (eng.serve result).snapshot = eng.snapshot := by
  simp only [serve]
  split <;> rfl

/-- The snapshot of the cycle is read again. -/
def rereads (eng : Engine) : Work Config → Bool
  | .takeSnapshot => true
  | .expireWindows now => (resumeElapsed eng.repo now eng.snapshot).1
  | _ => false

/-- A snapshot that is read has the alerts that the store lists. -/
theorem step_snapshot_read {eng : Engine} {w : Work Config} (hcoherent : Coherent eng.repo)
    (hread : eng.rereads w = true) :
    (eng.step w).snapshot.map Alert.outline = (listed (eng.step w).repo.db).map Alert.outline := by
  cases w with
  | takeSnapshot =>
      simp only [step, get_active_db]
      exact get_active_listed hcoherent
  | expireWindows now =>
      have hserves := (resume_elapsed_serves (s := eng.scope (.expireWindows now : Work Config))
        eng.snapshot eng.repo fun a ha hstatus helapsed => ⟨a, ha, rfl, hstatus, helapsed⟩).coherent
          hcoherent
      simp only [step, expireIgnoreWindows]
      split
      · rename_i repo hresult
        simp [rereads, hresult] at hread
      · rename_i repo hresult
        rw [hresult] at hserves
        simp only [get_active_db]
        exact get_active_listed hserves
  | _ => cases hread

/-- A snapshot that is not read again keeps its alerts. -/
theorem step_snapshot_kept {eng : Engine} {w : Work Config} (hkept : eng.rereads w = false) :
    (eng.step w).snapshot.map Alert.outline = eng.snapshot.map Alert.outline := by
  cases w with
  | takeSnapshot => cases hkept
  | expireWindows now =>
      simp only [step, expireIgnoreWindows]
      split
      · rfl
      · rename_i repo hresult
        simp [rereads, hresult] at hkept
  | evaluate corr rule reading value alertId now =>
      cases reading with
      | ok recovered =>
          simp only [step, evaluateRule, after_ok_eq]
          split
          · rw [auto_resolve_snapshot]
            rfl
          · rfl
      | breach c =>
          simp only [step, evaluateRule, afterBreach]
          split
          · split
            · rfl
            · simp only [fire]
              split <;> rfl
          · exact outline_patch _ _
      | _ => rfl
  | process corr c alertId now =>
      simp only [step]
      split <;> rfl
  | acknowledge alertId now => exact congrArg _ (serve_snapshot eng _)
  | close alertId reason now => exact congrArg _ (serve_snapshot eng _)
  | ignore alertId durationHours now => exact congrArg _ (serve_snapshot eng _)
  | resume alertId now => exact congrArg _ (serve_snapshot eng _)
  | _ => rfl

end Engine

end Engine

end SystemsManager.Alarms
