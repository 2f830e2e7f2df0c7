import SystemsManager.Alarms.LifeCycle

/-!
# The resolution of an alert

Closing an alert records why and at which value, and an event. `close_alert` does not look at the
status, so that a second close writes both again. `resolution_once` is the theorem to read: along
every run in which no alert that is stored as closed is closed or resumed, the resolution of a
closed alert stays and it has at most one closing event.
-/

namespace SystemsManager.Alarms

open Python Sql

variable {Config : Type}

namespace Engine

open AlertRepository AlertManager

section Resolution

/-- Closing events are recorded at most once, and for alerts that are then closed. -/
structure Resolved (db : AeAlarmsDB) : Prop where
  split : db.Split
  columns : ∀ row ∈ db.unionAll, AeAlarmsDB.columns row = row
  once : ∀ id, closedEvents db id ≤ 1
  closed : ∀ row ∈ db.unionAll, closedEvents db row.alertId ≠ 0 → row.status = .closed

variable {s : Scope} {db db' : AeAlarmsDB} {repo repo' : AlertRepository}

theorem Resolved.evolves (h : Resolved db) (hevolves : Evolves s db db')
    (hevents : ∀ id, closedEvents db' id = closedEvents db id)
    (hresumes : ∀ id, s.resumes id → NotClosed db id)
    (hcreates : ∀ id ruleId, s.creates id ruleId → closedEvents db id = 0) : Resolved db' := by
  refine ⟨hevolves.split h.split, ?_, fun id => hevents id ▸ h.once id, ?_⟩
  · intro row' hrow'
    rcases hevolves.rows row' hrow' with ⟨row, hrow, hfollows⟩ | hborn
    · exact hfollows.columns (h.columns row hrow)
    · exact hborn.columns
  · intro row' hrow' hrecorded
    rw [hevents] at hrecorded
    rcases hevolves.rows row' hrow' with ⟨row, hrow, hfollows⟩ | hborn
    · rw [hfollows.alertId] at hrecorded
      have hclosed := h.closed row hrow hrecorded
      exact hfollows.closed hclosed fun hno => hresumes _ hno row hrow rfl hclosed
    · exact absurd (hcreates _ _ hborn.creates) hrecorded

variable {resolvedValue : Option PyFloat} {reason : Option String} {now : ℚ} {alertId : String}

theorem close_alert_events {result : Alert}
    (h : closeAlert repo alertId reason resolvedValue now = some (result, repo')) (id : String) :
    closedEvents repo'.db id = closedEvents repo.db id + if alertId = id then 1 else 0 := by
  simp only [closeAlert, Option.bind_eq_some_iff, Option.map_eq_some_iff, Prod.mk.injEq,
    Prod.exists] at h
  obtain ⟨alert, -, result, changed, hchange, -, rfl⟩ := h
  obtain ⟨row, -, -, -, -, hwrite⟩ := change_eq_some hchange
  have hevents : (if reason = some "auto" then changed
      else changed.clearRuleIgnored alert.ruleId).db.events = repo.db.events := by
    rw [← AeAlarmsDB.write_events hwrite]
    split
    · rfl
    · cases alert.ruleId <;> rfl
  simp only [closedEvents, recordEvent, AeAlarmsDB.writeEvent, hevents, List.countP_append,
    List.countP_singleton, decide_true, Bool.and_true, decide_eq_true_eq]

theorem close_alert_closed {result row' : Alert}
    (h : closeAlert repo alertId reason resolvedValue now = some (result, repo'))
    (hrow' : row' ∈ repo'.db.unionAll) (hid : row'.alertId = alertId) : row'.status = .closed := by
  simp only [closeAlert, Option.bind_eq_some_iff, Option.map_eq_some_iff, Prod.mk.injEq,
    Prod.exists] at h
  obtain ⟨alert, -, result, changed, hchange, -, rfl⟩ := h
  obtain ⟨row, hrow, -, -, -, hwrite⟩ := change_eq_some hchange
  have hrest : Serves {} changed
      (if reason = some "auto" then changed else changed.clearRuleIgnored alert.ruleId) := by
    split
    · exact .refl _ _
    · exact clear_rule_ignored_serves _ _ _
  rcases hrest.store.rows row' hrow' with ⟨old, hold, hfollows⟩ | hborn
  · rw [hfollows.same_status id id id]
    rw [AeAlarmsDB.mem_write hwrite] at hold
    rcases hold with rfl | ⟨-, hne⟩
    · simp only [AeAlarmsDB.written]
      split <;> rfl
    · have hread := (AeAlarmsDB.mem_of_get_alert (get_alert_of_get_by_id hrow).1).2
      exact absurd ((hfollows.alertId.symm.trans hid).trans hread.symm) hne
  · exact absurd hborn.creates id

theorem Resolved.close {result : Alert} (h : Resolved repo.db) (hopen : NotClosed repo.db alertId)
    (hclose : closeAlert repo alertId reason resolvedValue now = some (result, repo')) :
    Resolved repo'.db := by
  have hserves : Serves { closes := fun id => id = alertId } repo repo' :=
    close_serves (fun _ _ _ => rfl) hclose
  have hexists : ∃ row ∈ repo.db.unionAll, row.alertId = alertId := by
    simp only [closeAlert, Option.bind_eq_some_iff] at hclose
    obtain ⟨alert, halert, -⟩ := hclose
    exact ⟨alert, AeAlarmsDB.mem_of_get_alert (get_alert_of_get_by_id halert).1⟩
  refine ⟨hserves.store.split h.split, ?_, ?_, ?_⟩
  · intro row' hrow'
    rcases hserves.store.rows row' hrow' with ⟨row, hrow, hfollows⟩ | hborn
    · exact hfollows.columns (h.columns row hrow)
    · exact hborn.columns
  · intro id
    rw [close_alert_events hclose]
    split
    · rename_i hid
      subst hid
      obtain ⟨row, hrow, rfl⟩ := hexists
      have hnone : closedEvents repo.db row.alertId = 0 := by
        by_contra hrecorded
        exact hopen row hrow rfl (h.closed row hrow hrecorded)
      omega
    · exact h.once id
  · intro row' hrow' hrecorded
    by_cases hid : row'.alertId = alertId
    · exact close_alert_closed hclose hrow' hid
    · rcases hserves.store.rows row' hrow' with ⟨row, hrow, hfollows⟩ | hborn
      · rw [close_alert_events hclose, if_neg (Ne.symm hid), Nat.add_zero,
          hfollows.alertId] at hrecorded
        rw [hfollows.alertId] at hid
        rw [hfollows.same_status hid id id]
        exact h.closed row hrow hrecorded
      · exact absurd hborn.creates id

theorem not_closed_close {alertId other : String} {result : Alert}
    (hclose : closeAlert repo alertId reason resolvedValue now = some (result, repo'))
    (hne : other ≠ alertId) (hopen : NotClosed repo.db other) : NotClosed repo'.db other := by
  have hserves : Serves { closes := fun id => id = alertId } repo repo' :=
    close_serves (fun _ _ _ => rfl) hclose
  rintro row' hrow' rfl
  rcases hserves.store.rows row' hrow' with ⟨row, hrow, hfollows⟩ | hborn
  · rw [hfollows.alertId] at hne
    rw [hfollows.same_status hne id id]
    exact hopen row hrow hfollows.alertId.symm
  · exact absurd hborn.creates id

theorem Resolved.close_each (alerts : List Alert) (h : Resolved repo.db)
    (hnodup : (alerts.map Alert.alertId).Nodup)
    (hopen : ∀ a ∈ alerts, NotClosed repo.db a.alertId) :
    Resolved (closeEach repo reason resolvedValue now alerts).db := by
  induction alerts generalizing repo with
  | nil => exact h
  | cons a rest ih =>
      rw [List.map_cons, List.nodup_cons] at hnodup
      simp only [closeEach]
      split
      · rename_i repo' hclose
        refine ih (h.close (hopen a List.mem_cons_self) hclose) hnodup.2 ?_
        intro b hb
        refine not_closed_close hclose ?_ (hopen b (List.mem_cons_of_mem _ hb))
        intro heq
        exact hnodup.1 (heq ▸ List.mem_map_of_mem hb)
      · exact ih h hnodup.2 fun b hb => hopen b (List.mem_cons_of_mem _ hb)

/-- The resolutions are recorded once, and the two snapshots are as they were read. -/
structure Recorded (eng : Engine) : Prop where
  resolved : Resolved eng.repo.db
  coherent : Coherent eng.repo
  snapshot : (eng.snapshot.map Alert.alertId).Nodup

/-- The work closes and resumes no alert that is stored as closed: by a request, because a rule of
the snapshot has recovered, or because a window in the snapshot has elapsed. -/
def ClosesOpen (eng : Engine) : Work Config → Prop
  | .close alertId _ _ => NotClosed eng.repo.db alertId
  | .resume alertId _ => NotClosed eng.repo.db alertId
  | .expireWindows now =>
      ∀ a ∈ eng.snapshot, a.status = .ignored → (∃ deadline, a.ignoredUntil = some deadline ∧
        deadline ≤ now) → NotClosed eng.repo.db a.alertId
  | .evaluate _ rule (.ok recovered) _ _ _ =>
      eng.resolves rule recovered = true → ∀ a ∈ eng.ongoingOf rule.ruleId,
        NotClosed eng.repo.db a.alertId
  | _ => True

variable {eng : Engine} {works : List (Work Config)} {w : Work Config}

/-- A live row is not closed. -/
theorem not_closed_of_live (hsplit : db.Split) {row : Alert} (hrow : row ∈ db.alerts.rows) :
    NotClosed db row.alertId := by
  intro other hother hid hclosed
  have hlive := hsplit.live row hrow
  rw [← hsplit.unique hother (List.mem_append_left _ hrow) hid, hclosed] at hlive
  cases hlive

/-- What `get_active` returns is not closed. -/
theorem not_closed_of_active (hsplit : db.Split) {alerts : List Alert}
    (halerts : alerts.map Alert.outline = (listed db).map Alert.outline) {a : Alert}
    (ha : a ∈ alerts) : NotClosed db a.alertId := by
  have hmem : a.outline ∈ (listed db).map Alert.outline := by
    rw [← halerts]
    exact List.mem_map_of_mem ha
  obtain ⟨row, hrow, houtline⟩ := List.mem_map.mp hmem
  have hid : row.alertId = a.alertId := congrArg Outline.alertId houtline
  rw [← hid]
  exact not_closed_of_live hsplit (mem_of_listed hrow).1

variable {id : String}

theorem ClosesOpen.closes (hrecorded : eng.Recorded) (h : eng.ClosesOpen w)
    (hid : (eng.scope w).closes id) : NotClosed eng.repo.db id := by
  cases w with
  | close alertId reason now =>
      obtain ⟨rfl, -⟩ := hid
      exact h
  | closeAll now =>
      obtain ⟨row, hrow, rfl⟩ := hid
      exact not_closed_of_live hrecorded.resolved.split hrow
  | closeRule ruleId reason now =>
      obtain ⟨⟨a, ha, -, rfl⟩, -⟩ := hid
      exact not_closed_of_active hrecorded.resolved.split (get_active_listed hrecorded.coherent) ha
  | evaluate corr rule reading value alertId now =>
      cases reading with
      | ok recovered =>
          obtain ⟨⟨hresolves, a, ha, rfl⟩, -⟩ := hid
          exact h hresolves a ha
      | _ => cases hid
  | _ => cases hid

theorem ClosesOpen.resumes (h : eng.ClosesOpen w) (hid : (eng.scope w).resumes id) :
    NotClosed eng.repo.db id := by
  cases w with
  | resume alertId now => exact hid.symm ▸ h
  | expireWindows now =>
      obtain ⟨a, ha, rfl, hstatus, helapsed⟩ := hid
      exact h a ha hstatus helapsed
  | evaluate corr rule reading value alertId now => cases reading <;> cases hid
  | _ => cases hid

theorem Resolved.step (hrecorded : eng.Recorded) (h : eng.ClosesOpen w)
    (hfresh : ∀ id ∈ w.newId, eng.Unused id)
    (hnone : ∀ id ∈ w.newId, closedEvents eng.repo.db id = 0) : Resolved (eng.step w).repo.db := by
  have hserves := step_serves eng w hfresh
  -- All but three kinds of work leave the closing events alone.
  have hquiet : (∀ id, closedEvents (eng.step w).repo.db id = closedEvents eng.repo.db id) →
      Resolved (eng.step w).repo.db := by
    intro hevents
    refine hrecorded.resolved.evolves hserves.store hevents (fun id hid => h.resumes hid) ?_
    intro id ruleId hcreates
    exact hnone id (new_id_of_creates hcreates)
  cases w with
  | close alertId reason now =>
      simp only [Engine.step, serve]
      split
      · rename_i hclose
        exact hrecorded.resolved.close h hclose
      · exact hrecorded.resolved
  | closeRule ruleId reason now =>
      simp only [Engine.step, close_rule_eq]
      have hids : (eng.repo.getActive.1.map Alert.alertId).Nodup := by
        have hsame := congrArg (List.map Outline.alertId) (get_active_listed hrecorded.coherent)
        rw [List.map_map, List.map_map] at hsame
        have hlisted := listed_nodup eng.repo.db
        rw [show Alert.alertId = Outline.alertId ∘ Alert.outline from rfl, ← hsame] at hlisted
        exact hlisted
      refine Resolved.close_each _ ?_ (hids.sublist (List.filter_sublist.map _)) ?_
      · rw [get_active_db]
        exact hrecorded.resolved
      · intro a ha
        rw [get_active_db]
        exact not_closed_of_active hrecorded.resolved.split (get_active_listed hrecorded.coherent)
          (List.mem_filter.mp ha).1
  | evaluate corr rule reading value alertId now =>
      cases reading with
      | ok recovered =>
          simp only [Engine.step, evaluateRule, after_ok_eq]
          split
          · rename_i hresolves
            rw [auto_resolve_repo]
            exact hrecorded.resolved.close_each _
              (hrecorded.snapshot.sublist (List.filter_sublist.map _)) (h hresolves)
          · exact hrecorded.resolved
      | _ => exact hquiet fun id => hserves.store.events id (fun hno => by cases hno)
  | closeAll now =>
      refine hquiet fun id => ?_
      rfl
  | _ => exact hquiet fun id => hserves.store.events id (fun hno => by cases hno)

theorem Recorded.step (hrecorded : eng.Recorded) (h : eng.ClosesOpen w)
    (hfresh : ∀ id ∈ w.newId, eng.Unused id)
    (hnone : ∀ id ∈ w.newId, closedEvents eng.repo.db id = 0) : (eng.step w).Recorded := by
  refine ⟨.step hrecorded h hfresh hnone,
    (step_serves eng w hfresh).coherent hrecorded.coherent, ?_⟩
  have hids : ∀ l : List Alert, l.map Alert.alertId =
      (l.map Alert.outline).map Outline.alertId := by
    intro l
    rw [List.map_map]
    rfl
  cases hread : eng.rereads w with
  | false =>
      rw [hids, step_snapshot_kept hread, ← hids]
      exact hrecorded.snapshot
  | true =>
      rw [hids, step_snapshot_read hrecorded.coherent hread, ← hids]
      exact listed_nodup _

theorem used_of_closes (hid : (eng.scope w).closes id) : ¬ eng.Unused id := by
  intro hunused
  have hstored : ∃ row ∈ eng.repo.db.unionAll, row.alertId = id := by
    cases w with
    | close alertId reason now => exact hid.2
    | closeAll now =>
        obtain ⟨row, hrow, hrowid⟩ := hid
        exact ⟨row, List.mem_append_left _ hrow, hrowid⟩
    | closeRule ruleId reason now => exact hid.2
    | evaluate corr rule reading value alertId now =>
        cases reading with
        | ok recovered => exact hid.2
        | _ => cases hid
    | _ => cases hid
  obtain ⟨row, hrow, hrowid⟩ := hstored
  exact hunused row hrow hrowid

theorem no_events_of_new {more : List (Work Config)} (hnew : eng.NewIds (works ++ more))
    (hid : id ∈ more.filterMap Work.newId) (hnone : closedEvents eng.repo.db id = 0) :
    closedEvents (eng.run works).repo.db id = 0 := by
  induction works using List.reverseRecOn generalizing more with
  | nil => exact hnone
  | append_singleton works w ih =>
      have hnew' : eng.NewIds (works ++ (w :: more)) := by simpa using hnew
      have hid' : id ∈ (w :: more).filterMap Work.newId := by
        rw [List.filterMap_cons]
        split
        · exact hid
        · exact List.mem_cons_of_mem _ hid
      rw [run_concat, (step_serves _ w hnew.part.unused_next).store.events id ?_]
      · exact ih hnew' hid'
      · exact fun hcloses => used_of_closes hcloses (hnew'.unused id hid')

theorem Recorded.run (hrecorded : eng.Recorded) (hnew : eng.NewIds works)
    (hnone : ∀ id ∈ works.filterMap Work.newId, closedEvents eng.repo.db id = 0)
    (hopen : Each (fun before w => (eng.run before).ClosesOpen w) works) :
    (eng.run works).Recorded := by
  induction works using List.reverseRecOn with
  | nil => exact hrecorded
  | append_singleton works w ih =>
      rw [each_concat] at hopen
      rw [run_concat]
      have hearlier := ih hnew.part
        (fun id hid => hnone id (by rw [List.filterMap_append]; exact List.mem_append_left _ hid))
        hopen.1
      refine hearlier.step hopen.2 hnew.unused_next ?_
      intro id hid
      refine no_events_of_new hnew (by simpa using hid) (hnone id ?_)
      rw [List.filterMap_append]
      exact List.mem_append_right _ (by simpa using hid)

/-- What stays of an alert that was closed. -/
structure Stays (row : Alert) (count : Nat) (db : AeAlarmsDB) : Prop where
  events : closedEvents db row.alertId = count
  rows : ∀ row' ∈ db.unionAll, row'.alertId = row.alertId → row'.status = .closed ∧
    row'.resolutionReason = row.resolutionReason ∧ row'.resolvedValue = row.resolvedValue

theorem Stays.step {row : Alert} {count : Nat} (hstays : Stays row count eng.repo.db)
    (hrecorded : eng.Recorded) (h : eng.ClosesOpen w) (hfresh : ∀ id ∈ w.newId, eng.Unused id)
    (hold : w.newId ≠ some row.alertId) : Stays row count (eng.step w).repo.db := by
  have hserves := step_serves eng w hfresh
  have hcloses : ¬ (eng.scope w).closes row.alertId := by
    intro hcloses
    refine used_of_closes hcloses ?_
    intro other hother hid
    exact h.closes hrecorded hcloses other hother hid (hstays.rows other hother hid).1
  refine ⟨(hserves.store.events _ hcloses).trans hstays.events, ?_⟩
  intro row' hrow' hid
  rcases hserves.store.rows row' hrow' with ⟨other, hother, hfollows⟩ | hborn
  · have hotherid : other.alertId = row.alertId := hfollows.alertId.symm.trans hid
    obtain ⟨hclosed, hreason, hvalue⟩ := hstays.rows other hother hotherid
    obtain ⟨hreason', hvalue'⟩ := hfollows.resolution (hrecorded.resolved.columns other hother)
      (hotherid.symm ▸ hcloses)
    refine ⟨hfollows.closed hclosed ?_, hreason'.trans hreason, hvalue'.trans hvalue⟩
    exact fun hresumes => h.resumes hresumes other hother rfl hclosed
  · exact absurd (hid ▸ new_id_of_creates hborn.creates) hold

/-- In every run that closes and resumes only alerts that are not closed, an alert has at most one
closing event at every point, and from the point at which it is closed on it gets no other one and
its resolution stays. -/
theorem resolution_once {eng : Engine} (hrecorded : eng.Recorded)
    (works more : List (Work Config)) (hnew : eng.NewIds (works ++ more))
    (hnone : ∀ id ∈ (works ++ more).filterMap Work.newId, closedEvents eng.repo.db id = 0)
    (hopen : Each (fun before w => (eng.run before).ClosesOpen w) (works ++ more)) :
    (∀ id, closedEvents (eng.run works).repo.db id ≤ 1) ∧
      ∀ row ∈ (eng.run works).repo.db.unionAll, row.status = .closed →
        closedEvents (eng.run (works ++ more)).repo.db row.alertId =
          closedEvents (eng.run works).repo.db row.alertId ∧
        ∀ row' ∈ (eng.run (works ++ more)).repo.db.unionAll, row'.alertId = row.alertId →
          row'.resolutionReason = row.resolutionReason ∧
          row'.resolvedValue = row.resolvedValue := by
  have hnonePart : ∀ part : List (Work Config), part <+: works ++ more →
      ∀ id ∈ part.filterMap Work.newId, closedEvents eng.repo.db id = 0 := by
    rintro part ⟨rest, hpart⟩ id hid
    refine hnone id ?_
    rw [← hpart, List.filterMap_append]
    exact List.mem_append_left _ hid
  have hthen := hrecorded.run hnew.part (hnonePart works ⟨more, rfl⟩) hopen.part
  refine ⟨hthen.resolved.once, ?_⟩
  intro row hrow hclosed
  have hstays : Stays row (closedEvents (eng.run works).repo.db row.alertId)
      (eng.run (works ++ more)).repo.db := by
    have hused : ∀ id ∈ more.filterMap Work.newId, id ≠ row.alertId :=
      fun id hid heq => hnew.unused id hid row hrow heq.symm
    clear hnone
    induction more using List.reverseRecOn with
    | nil =>
        rw [List.append_nil]
        refine ⟨rfl, fun row' hrow' hid => ?_⟩
        rw [hthen.resolved.split.unique hrow' hrow hid]
        exact ⟨hclosed, rfl, rfl⟩
    | append_singleton more w ih =>
        rw [← List.append_assoc] at hnew hopen hnonePart ⊢
        rw [each_concat] at hopen
        have hpart : ∀ part : List (Work Config), part <+: works ++ more →
            ∀ id ∈ part.filterMap Work.newId, closedEvents eng.repo.db id = 0 :=
          fun part hpart => hnonePart part (hpart.trans (List.prefix_append _ _))
        rw [run_concat]
        refine (ih hnew.part hopen.1 hpart ?_).step ?_ hopen.2 hnew.unused_next ?_
        · intro id hid
          exact hused id (by rw [List.filterMap_append]; exact List.mem_append_left _ hid)
        · exact hrecorded.run hnew.part (hpart _ List.prefix_rfl) hopen.1
        · intro hsame
          refine hused row.alertId ?_ rfl
          rw [List.filterMap_append]
          exact List.mem_append_right _ (by simp [hsame])
  exact ⟨hstays.events, fun row' hrow' hid => (hstays.rows row' hrow' hid).2⟩

theorem idle_recorded : idle.Recorded := by
  refine ⟨⟨idle_orderly.split, ?_, ?_, ?_⟩, idle_orderly.coherent, List.nodup_nil⟩
  · exact fun row hrow => by cases hrow
  · exact fun id => Nat.zero_le 1
  · exact fun row hrow => by cases hrow

/-- An alert is created and closed. -/
def closedByHand : List (Work Unit) :=
  [.process {} (violation "r") "a" 0, .close "a" (some "manual") 1]

/-- The next cycle finds the rule recovered. -/
def nextCycle : List (Work Unit) :=
  [.takeSnapshot, .evaluate {} hotRule (.ok true) (.finite 70) "b" 2]

/-- An alert is closed, and the next snapshot does not have it. -/
theorem resolution_once_next_cycle :
    (∀ id, closedEvents (idle.run closedByHand).repo.db id ≤ 1) ∧
      ∀ row ∈ (idle.run closedByHand).repo.db.unionAll, row.status = .closed →
        closedEvents (idle.run (closedByHand ++ nextCycle)).repo.db row.alertId =
          closedEvents (idle.run closedByHand).repo.db row.alertId ∧
        ∀ row' ∈ (idle.run (closedByHand ++ nextCycle)).repo.db.unionAll,
          row'.alertId = row.alertId → row'.resolutionReason = row.resolutionReason ∧
            row'.resolvedValue = row.resolvedValue := by
  refine resolution_once idle_recorded closedByHand nextCycle
    ⟨by decide, fun id _ row hrow => by cases hrow⟩ (fun id _ => rfl) ?_
  show Each _ ([] ++ [_] ++ [_] ++ [_] ++ [_])
  simp only [each_concat]
  refine ⟨⟨⟨⟨each_nil, trivial⟩, ?_⟩, trivial⟩, ?_⟩
  · show NotClosed _ "a"
    unfold NotClosed
    decide +kernel
  · intro _
    unfold NotClosed
    decide +kernel

/-- The operator closes an alert while a cycle holds a snapshot with it, and its rule then closes it
again. -/
theorem closed_twice : ¬ ∀ (eng : Engine) (works more : List (Work Unit)), eng.Recorded →
    eng.NewIds (works ++ more) →
    (∀ id ∈ (works ++ more).filterMap Work.newId, closedEvents eng.repo.db id = 0) →
    (∀ id, closedEvents (eng.run works).repo.db id ≤ 1) ∧
      ∀ row ∈ (eng.run works).repo.db.unionAll, row.status = .closed →
        closedEvents (eng.run (works ++ more)).repo.db row.alertId =
          closedEvents (eng.run works).repo.db row.alertId ∧
        ∀ row' ∈ (eng.run (works ++ more)).repo.db.unionAll, row'.alertId = row.alertId →
          row'.resolutionReason = row.resolutionReason ∧
          row'.resolvedValue = row.resolvedValue := by
  intro h
  have hstays := (h idle [.process {} (violation "r") "a" 0, .takeSnapshot,
    .close "a" (some "manual") 1] [.evaluate {} hotRule (.ok true) (.finite 70) "b" 2]
    idle_recorded ⟨by decide, fun id _ row hrow => by cases hrow⟩ fun id _ => rfl).2
  revert hstays
  decide +kernel

end Resolution

end Engine

end SystemsManager.Alarms
