import SystemsManager.Alarms.Serving
import SystemsManager.History

/-!
# The life cycle of the alerts

A rule has at most one ongoing alert, and a closed alert stays closed: this holds along every run in
which no closed alert is resumed and in which a rule whose ongoing alert is not listed does not get
a second one (`orderly_life`). Acknowledging and ignoring refuse a closed alert, and resuming does
not; the list of the ongoing alerts leaves out a row without a message and all rows after the first
thousand.
-/

namespace SystemsManager.Alarms

open Python Sql

variable {Config : Type}

namespace Engine

open AlertRepository AlertManager

section Runs

/-- The engine after some work. -/
def run (eng : Engine) (works : List (Work Config)) : Engine := works.foldl step eng

theorem run_concat (eng : Engine) (works : List (Work Config)) (w : Work Config) :
    eng.run (works ++ [w]) = (eng.run works).step w := by
  simp [run]

/-- No stored alert has the id. -/
def Unused (eng : Engine) (id : String) : Prop := ∀ row ∈ eng.repo.db.unionAll, row.alertId ≠ id

/-- `uuid4` gives each alert an id of its own. -/
def NewIds (eng : Engine) (works : List (Work Config)) : Prop :=
  (works.filterMap Work.newId).Nodup ∧ ∀ id ∈ works.filterMap Work.newId, eng.Unused id

variable {eng : Engine} {works : List (Work Config)} {w : Work Config}

theorem new_id_of_creates {id : String} {ruleId : Option String}
    (h : (eng.scope w).creates id ruleId) : w.newId = some id := by
  cases w with
  | process corr c alertId now =>
      obtain ⟨rfl, -⟩ := h
      rfl
  | evaluate corr rule reading value alertId now =>
      cases reading with
      | breach c =>
          obtain ⟨rfl, -⟩ := h
          rfl
      | _ => cases h
  | _ => cases h

theorem NewIds.part {more : List (Work Config)} (h : eng.NewIds (works ++ more)) :
    eng.NewIds works := by
  rw [NewIds, List.filterMap_append] at h
  exact ⟨h.1.of_append_left, fun id hid => h.2 id (List.mem_append_left _ hid)⟩

theorem NewIds.unused {more : List (Work Config)} (h : eng.NewIds (works ++ more)) :
    ∀ id ∈ more.filterMap Work.newId, (eng.run works).Unused id := by
  induction works using List.reverseRecOn generalizing more with
  | nil =>
      intro id hid
      exact h.2 id hid
  | append_singleton works w ih =>
      intro id hid row hrow
      rw [List.append_assoc, List.singleton_append] at h
      have hall := ih h
      have hnodup : (w.newId.toList ++ more.filterMap Work.newId).Nodup := by
        have := h.1
        rw [List.filterMap_append, List.filterMap_cons] at this
        have hright := this.of_append_right
        cases hw : w.newId with
        | none => simpa [hw] using hright
        | some new => simpa [hw] using hright
      have hfresh : ∀ new ∈ w.newId, (eng.run works).Unused new := by
        intro new hnew
        refine hall new ?_
        rw [List.filterMap_cons, Option.mem_def.mp hnew]
        exact List.mem_cons_self
      have hmore : (eng.run works).Unused id := by
        refine hall id ?_
        rw [List.filterMap_cons]
        split
        · exact hid
        · exact List.mem_cons_of_mem _ hid
      rw [run_concat] at hrow
      rcases (step_serves _ w hfresh).store.rows row hrow with
        ⟨old, hold, hfollows⟩ | ⟨hcreated, -, -⟩
      · rw [hfollows.alertId]
        exact hmore old hold
      · rintro rfl
        rw [new_id_of_creates hcreated] at hnodup
        simp only [Option.toList_some, List.singleton_append, List.nodup_cons] at hnodup
        exact hnodup.1 hid

theorem NewIds.unused_next (h : eng.NewIds (works ++ [w])) :
    ∀ id ∈ w.newId, (eng.run works).Unused id := by
  intro id hid
  refine h.unused id ?_
  simpa using hid

end Runs

section LifeCycle

/-- A rule has at most one ongoing alert. -/
def OneOngoing (db : AeAlarmsDB) : Prop :=
  ∀ row ∈ db.unionAll, ∀ other ∈ db.unionAll, row.status.live = true → other.status.live = true →
    row.ruleId = other.ruleId → row = other

/-- The life cycle of the alerts is as it should be, and the snapshot of the repository is as the
store has it. No alert is marked as an exception. -/
structure Orderly (eng : Engine) : Prop where
  split : eng.repo.db.Split
  coherent : Coherent eng.repo
  regular : ∀ row ∈ eng.repo.db.unionAll, row.status ≠ .exception
  one : OneOngoing eng.repo.db

/-- The list of the ongoing alerts has those of the rule. -/
def Listed (db : AeAlarmsDB) (ruleId : Option String) : Prop :=
  ∀ row ∈ db.alerts.rows, row.ruleId = ruleId → row ∈ listed db

/-- The alert is not stored as closed. -/
def NotClosed (db : AeAlarmsDB) (id : String) : Prop :=
  ∀ row ∈ db.unionAll, row.alertId = id → row.status ≠ .closed

/-- The work resumes no closed alert, by a request or because a window in the snapshot has elapsed,
and creates no alert of a rule whose ongoing alert is not listed. -/
def Careful (eng : Engine) : Work Config → Prop
  | .resume alertId _ => NotClosed eng.repo.db alertId
  | .expireWindows now =>
      ∀ a ∈ eng.snapshot, a.status = .ignored → (∃ deadline, a.ignoredUntil = some deadline ∧
        deadline ≤ now) → NotClosed eng.repo.db a.alertId
  | .process _ c _ _ => Listed eng.repo.db c.ruleId
  | .evaluate _ rule (.breach c) _ _ _ => eng.fires rule = true → Listed eng.repo.db c.ruleId
  | _ => True

variable {eng : Engine} {works : List (Work Config)} {w : Work Config}

/-- Careful work resumes no closed alert. -/
theorem Careful.not_closed (h : eng.Careful w) {id : String} (hid : (eng.scope w).resumes id) :
    NotClosed eng.repo.db id := by
  cases w with
  | resume alertId now => exact hid.symm ▸ h
  | expireWindows now =>
      obtain ⟨a, ha, rfl, hstatus, helapsed⟩ := hid
      exact h a ha hstatus helapsed
  | evaluate corr rule reading value alertId now => cases reading <;> cases hid
  | _ => cases hid

theorem Careful.no_ongoing (horderly : eng.Orderly) (h : eng.Careful w) {id : String}
    {ruleId : Option String} (hid : (eng.scope w).creates id ruleId) :
    ∀ row ∈ eng.repo.db.unionAll, row.ruleId = ruleId → row.status.live = false := by
  have hlisted : Listed eng.repo.db ruleId ∧
      ∀ a ∈ eng.repo.getActive.1, a.ruleId = ruleId → a.status.live = false := by
    cases w with
    | process corr c alertId now =>
        obtain ⟨-, rfl, hnone⟩ := hid
        exact ⟨h, hnone⟩
    | evaluate corr rule reading value alertId now =>
        cases reading with
        | breach c =>
            obtain ⟨-, rfl, hfires, hnone⟩ := hid
            exact ⟨h hfires, hnone⟩
        | _ => cases hid
    | _ => cases hid
  intro row hrow hrule
  rw [AeAlarmsDB.unionAll, List.mem_append] at hrow
  rcases hrow with hrow | hrow
  · -- The row is listed, and so the request would have found it.
    have hmem : row.outline ∈ eng.repo.getActive.1.map Alert.outline := by
      rw [get_active_listed horderly.coherent]
      exact List.mem_map_of_mem (hlisted.1 row hrow hrule)
    obtain ⟨a, ha, houtline⟩ := List.mem_map.mp hmem
    have harule : a.ruleId = row.ruleId := congrArg Outline.ruleId houtline
    have hastatus : a.status = row.status := congrArg Outline.status houtline
    rw [← hastatus]
    exact hlisted.2 a ha (harule.trans hrule)
  · exact horderly.split.archived row hrow

theorem live_of_follows (horderly : eng.Orderly) (h : eng.Careful w) {row row' : Alert}
    (hrow : row ∈ eng.repo.db.unionAll) (hfollows : Follows (eng.scope w) row row')
    (hlive : row'.status.live = true) : row.status.live = true := by
  by_contra hdead
  have hclosed : row.status = .closed := by
    have hregular := horderly.regular row hrow
    generalize row.status = status at hdead hregular
    cases status <;> simp_all [AlertStatus.live]
  have hstays : row'.status = .closed :=
    hfollows.closed hclosed fun hresumes => h.not_closed hresumes row hrow rfl hclosed
  rw [hstays] at hlive
  cases hlive

/-- Careful work keeps the life cycle. -/
theorem Orderly.step (horderly : eng.Orderly) (h : eng.Careful w)
    (hfresh : ∀ id ∈ w.newId, eng.Unused id) : (eng.step w).Orderly := by
  have hserves := step_serves eng w hfresh
  have hsplit := hserves.store.split horderly.split
  refine ⟨hsplit, hserves.coherent horderly.coherent, ?_, ?_⟩
  · intro row' hrow'
    rcases hserves.store.rows row' hrow' with ⟨row, hrow, hfollows⟩ | hborn
    · exact hfollows.regular (horderly.regular row hrow)
    · exact hborn.regular
  · intro row' hrow' other' hother' hlive hotherlive hrule
    refine hsplit.unique hrow' hother' ?_
    rcases hserves.store.rows row' hrow' with ⟨row, hrow, hfollows⟩ | ⟨hcreated, -, -⟩
    · have hrowlive := live_of_follows horderly h hrow hfollows hlive
      rcases hserves.store.rows other' hother' with ⟨other, hother, hfollows'⟩ | ⟨hcreated', -, -⟩
      · have hotherlive := live_of_follows horderly h hother hfollows' hotherlive
        rw [hfollows.alertId, hfollows'.alertId]
        rw [hfollows.ruleId, hfollows'.ruleId] at hrule
        exact congrArg Alert.alertId (horderly.one row hrow other hother hrowlive hotherlive hrule)
      · rw [hfollows.ruleId] at hrule
        rw [h.no_ongoing horderly hcreated' row hrow hrule] at hrowlive
        cases hrowlive
    · rcases hserves.store.rows other' hother' with ⟨other, hother, hfollows'⟩ | ⟨hcreated', -, -⟩
      · have hotherlive := live_of_follows horderly h hother hfollows' hotherlive
        rw [hfollows'.ruleId] at hrule
        rw [h.no_ongoing horderly hcreated other hother hrule.symm] at hotherlive
        cases hotherlive
      · have hsame := (new_id_of_creates hcreated).symm.trans (new_id_of_creates hcreated')
        exact Option.some.inj hsame

theorem Orderly.run (horderly : eng.Orderly) (hnew : eng.NewIds works)
    (hcareful : Each (fun before w => (eng.run before).Careful w) works) :
    (eng.run works).Orderly := by
  induction works using List.reverseRecOn with
  | nil => exact horderly
  | append_singleton works w ih =>
      rw [each_concat] at hcareful
      rw [run_concat]
      exact (ih hnew.part hcareful.1).step hcareful.2 hnew.unused_next

theorem closed_run {more : List (Work Config)} (hnew : eng.NewIds (works ++ more))
    (hcareful : Each (fun before w => (eng.run before).Careful w) (works ++ more)) {row : Alert}
    (hrow : row ∈ (eng.run works).repo.db.unionAll)
    (hclosed : ∀ other ∈ (eng.run works).repo.db.unionAll, other.alertId = row.alertId →
      other.status = .closed) :
    ∀ row' ∈ (eng.run (works ++ more)).repo.db.unionAll, row'.alertId = row.alertId →
      row'.status = .closed := by
  induction more using List.reverseRecOn with
  | nil => simpa using hclosed
  | append_singleton more w ih =>
      have hused := hnew.unused row.alertId
      rw [← List.append_assoc] at hcareful hnew ⊢
      rw [each_concat] at hcareful
      intro row' hrow' hid
      rw [run_concat] at hrow'
      rcases (step_serves _ w hnew.unused_next).store.rows row' hrow' with
        ⟨old, hold, hfollows⟩ | hborn
      · have hstill := ih hnew.part hcareful.1 old hold (hfollows.alertId.symm.trans hid)
        exact hfollows.closed hstill fun hresumes =>
          hcareful.2.not_closed hresumes old hold rfl hstill
      · -- An id that is in use is not given again.
        have hgiven : w.newId = some row.alertId := hid ▸ new_id_of_creates hborn.creates
        have hmem : row.alertId ∈ (more ++ [w]).filterMap Work.newId := by
          rw [List.filterMap_append, List.mem_append]
          right
          simp [hgiven]
        exact absurd rfl (hused hmem row hrow)

/-- In every run of careful work, started with the life cycle in order, a rule has at most one
ongoing alert at every point, and an alert that is closed at one point is closed at all later
ones. -/
theorem orderly_life {eng : Engine} (horderly : eng.Orderly) (works more : List (Work Config))
    (hnew : eng.NewIds (works ++ more))
    (hcareful : Each (fun before w => (eng.run before).Careful w) (works ++ more)) :
    OneOngoing (eng.run works).repo.db ∧
      ∀ row ∈ (eng.run works).repo.db.unionAll, row.status = .closed →
        ∀ row' ∈ (eng.run (works ++ more)).repo.db.unionAll, row'.alertId = row.alertId →
          row'.status = .closed := by
  have hthen := horderly.run hnew.part hcareful.part
  refine ⟨hthen.one, ?_⟩
  intro row hrow hclosed
  refine closed_run hnew hcareful hrow ?_
  intro other hother hid
  rw [hthen.split.unique hother hrow hid]
  exact hclosed

/-- An engine without alerts. -/
def idle : Engine := { repo := { db := ⟨Table.empty, Table.empty, []⟩ } }

theorem idle_orderly : idle.Orderly := by
  refine ⟨⟨?_, ?_, ?_⟩, ?_, ?_, ?_⟩
  · exact fun row hrow => by cases hrow
  · exact fun row hrow => by cases hrow
  · exact fun row hrow => by cases hrow
  · exact fun cached hcached => by cases hcached
  · exact fun row hrow => by cases hrow
  · exact fun row hrow => by cases hrow

/-- A violation of a rule. -/
def violation (ruleId : String) : AlertCreate where
  ruleId := some ruleId
  metricSource := "gpu"
  metricName := "temperature"
  currentValue := .finite 95
  thresholdValue := .finite 90
  message := "Value 95.0 exceeds threshold 90.0"

/-- A rule that closes its alerts in the first cycle in which it has recovered. -/
def hotRule : AlarmRule Unit where
  ruleId := "r"
  name := "hot"
  description := none
  sourceHost := none
  metricSource := "gpu"
  metricName := "temperature"
  ruleType := .thresholdAbove
  config := ()
  severity := .warning
  enabled := true
  notificationChannelIds := []
  quietHoursStart := none
  quietHoursEnd := none
  autoResolveCycles := 1
  minTriggerCycles := 1
  correlationGroup := none
  createdAt := 0
  updatedAt := 0
  lastEvaluatedAt := none
  lastAlertAt := none

end LifeCycle

end Engine

end SystemsManager.Alarms
