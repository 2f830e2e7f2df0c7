import SystemsManager.Alarms.LifeCycle

/-!
# The ignore windows and a restart

The ignore window of a rule is in a map of the repository and in a column of the alerts of the rule,
in both tables. A restart makes the map again from the column, with the latest open window of each
rule. `windows_survive` is the theorem to read: the map and a map made again agree at every point of
a run in which a window is set to no less than what the other alerts of the rule have, is set for
exactly the rules whose alerts are marked, and is not lost with the row that holds it.
-/

namespace SystemsManager.Alarms

open Python Sql

variable {Config : Type}

namespace AlertRepository

section Hydration

/-- A row of the rule has the window. -/
def Holds (db : AeAlarmsDB) (ruleId : String) (deadline : ℚ) : Prop :=
  ∃ row ∈ db.unionAll, row.ruleId = some ruleId ∧ row.ignoredUntil = some deadline

/-- A fresh repository over the store. -/
def restarted (db : AeAlarmsDB) (now : ℚ) : AlertRepository :=
  { db := db, ignoredUntil := loadIgnores db now }

/-- The open window of a rule in memory is the latest one of its rows. -/
structure InSync (repo : AlertRepository) (now : ℚ) (ruleId : String) : Prop where
  stored : ∀ d, repo.ignoredUntil.get? ruleId = some d → now < d → Holds repo.db ruleId d
  covered : ∀ d, Holds repo.db ruleId d → now < d →
    ∃ latest, repo.ignoredUntil.get? ruleId = some latest ∧ d ≤ latest

variable {db : AeAlarmsDB} {repo repo' : AlertRepository} {now : ℚ} {ruleId : String}

theorem InSync.mono (h : InSync repo now ruleId) {later : ℚ} (hlater : now ≤ later) :
    InSync repo later ruleId :=
  ⟨fun d hd hopen => h.stored d hd (lt_of_le_of_lt hlater hopen),
    fun d hd hopen => h.covered d hd (lt_of_le_of_lt hlater hopen)⟩

theorem InSync.congr (h : InSync repo now ruleId)
    (hmemory : repo'.ignoredUntil.get? ruleId = repo.ignoredUntil.get? ruleId)
    (hrows : ∀ d, now < d → (Holds repo'.db ruleId d ↔ Holds repo.db ruleId d)) :
    InSync repo' now ruleId := by
  refine ⟨?_, ?_⟩
  · intro d hd hopen
    rw [hmemory] at hd
    exact (hrows d hopen).mpr (h.stored d hd hopen)
  · intro d hd hopen
    rw [hmemory]
    exact h.covered d ((hrows d hopen).mp hd) hopen

theorem rule_ignored_until_eq (repo : AlertRepository) (ruleId : String) (now : ℚ) :
    repo.ruleIgnoredUntil (some ruleId) now =
      (repo.ignoredUntil.get? ruleId).filter fun deadline => decide (now < deadline) := by
  rcases Option.eq_none_or_eq_some (repo.ignoredUntil.get? ruleId) with hget | ⟨deadline, hget⟩
  · simp [ruleIgnoredUntil, isRuleIgnored, hget]
  · by_cases hopen : deadline ≤ now
    · simp [ruleIgnoredUntil, isRuleIgnored, hget, hopen, Option.filter, not_lt.mpr hopen]
    · simp [ruleIgnoredUntil, isRuleIgnored, hget, hopen, Option.filter, not_le.mp hopen]

theorem mem_open_windows {d : ℚ} :
    d ∈ ((db.unionAll.filter fun row => decide (row.ruleId = some ruleId)).filterMap fun row =>
      row.ignoredUntil.filter fun deadline => decide (now < deadline)) ↔
      Holds db ruleId d ∧ now < d := by
  simp only [List.mem_filterMap, List.mem_filter, decide_eq_true_eq, Option.filter_eq_some_iff,
    Holds]
  constructor
  · rintro ⟨row, ⟨hrow, hrule⟩, hd, hopen⟩
    exact ⟨⟨row, hrow, hrule, hd⟩, hopen⟩
  · rintro ⟨⟨row, hrow, hrule, hd⟩, hopen⟩
    exact ⟨row, ⟨hrow, hrule⟩, hd, hopen⟩

theorem stored_window_eq_some {m : ℚ} : storedWindow db ruleId now = some m ↔
    (Holds db ruleId m ∧ now < m) ∧ ∀ d, Holds db ruleId d → now < d → d ≤ m := by
  rw [storedWindow, List.max?_eq_some_iff]
  simp only [mem_open_windows]
  refine and_congr_right fun _ => ?_
  exact forall_congr' fun d => and_imp

theorem stored_window_eq_none : storedWindow db ruleId now = none ↔
    ∀ d, Holds db ruleId d → ¬ now < d := by
  rw [storedWindow, List.max?_eq_none_iff, List.eq_nil_iff_forall_not_mem]
  simp only [mem_open_windows, not_and]

/-- The windows are read rule by rule. -/
theorem get_load_ignores (db : AeAlarmsDB) (now : ℚ) (ruleId : String) :
    (loadIgnores db now).get? ruleId = storedWindow db ruleId now := by
  have hfold : ∀ (step : Dict String ℚ → String → Dict String ℚ), (∀ windows first,
      (step windows first).get? ruleId =
        if ruleId = first then (storedWindow db ruleId now).or (windows.get? ruleId)
        else windows.get? ruleId) → ∀ (rules : List String) (windows : Dict String ℚ),
      (rules.foldl step windows).get? ruleId =
        if ruleId ∈ rules then (storedWindow db ruleId now).or (windows.get? ruleId)
        else windows.get? ruleId := by
    intro step hstep rules
    induction rules with
    | nil => intro windows; rfl
    | cons first rest ih =>
        intro windows
        rw [List.foldl_cons, ih, hstep]
        by_cases hfirst : ruleId = first
        · cases hstored : storedWindow db ruleId now with
          | none => simp
          | some deadline => simp [hfirst]
        · simp [hfirst]
  refine (hfold _ ?_ _ ∅).trans ?_
  · intro windows first
    split
    · rename_i deadline hdeadline
      rw [Dict.get?_set]
      split
      · rename_i hfirst
        rw [hfirst, hdeadline, Option.some_or]
      · rfl
    · rename_i hdeadline
      split
      · rename_i hfirst
        rw [hfirst, hdeadline, Option.none_or]
      · rfl
  split
  · simp
  · rename_i hnone
    rw [Dict.get?_empty, eq_comm, stored_window_eq_none]
    rintro d ⟨row, hrow, hrule, -⟩
    exact absurd (List.mem_filterMap.mpr ⟨row, hrow, hrule⟩) hnone

theorem restarted_in_sync (db : AeAlarmsDB) (now : ℚ) (ruleId : String) :
    InSync (restarted db now) now ruleId := by
  refine ⟨?_, ?_⟩
  · intro d hd _
    rw [restarted, get_load_ignores, stored_window_eq_some] at hd
    exact hd.1.1
  · intro d hd hopen
    cases hstored : storedWindow db ruleId now with
    | none => exact absurd hopen (stored_window_eq_none.mp hstored d hd)
    | some latest =>
        refine ⟨latest, ?_, (stored_window_eq_some.mp hstored).2 d hd hopen⟩
        rw [restarted, get_load_ignores]
        exact hstored

theorem InSync.window_eq (h : InSync repo now ruleId) (h' : InSync repo' now ruleId)
    (hdb : repo'.db = repo.db) :
    repo.ruleIgnoredUntil (some ruleId) now = repo'.ruleIgnoredUntil (some ruleId) now := by
  -- An open window of one is held by a row, and so the other has one that is no earlier.
  have hle : ∀ {a b : AlertRepository}, InSync a now ruleId → InSync b now ruleId →
      b.db = a.db → ∀ d, a.ignoredUntil.get? ruleId = some d → now < d →
        ∃ e, b.ignoredUntil.get? ruleId = some e ∧ d ≤ e := by
    intro a b ha hb hdb d hd hopen
    have hholds := ha.stored d hd hopen
    rw [← hdb] at hholds
    exact hb.covered d hholds hopen
  rw [rule_ignored_until_eq, rule_ignored_until_eq]
  ext d
  simp only [Option.filter_eq_some_iff, decide_eq_true_eq]
  constructor
  · rintro ⟨hd, hopen⟩
    obtain ⟨e, he, hde⟩ := hle h h' hdb d hd hopen
    obtain ⟨f, hf, hef⟩ := hle h' h hdb.symm e he (lt_of_lt_of_le hopen hde)
    rw [hd] at hf
    cases hf
    rw [he, le_antisymm hde hef]
    exact ⟨rfl, lt_of_lt_of_le hopen hde⟩
  · rintro ⟨hd, hopen⟩
    obtain ⟨e, he, hde⟩ := hle h' h hdb.symm d hd hopen
    obtain ⟨f, hf, hef⟩ := hle h h' hdb e he (lt_of_lt_of_le hopen hde)
    rw [hd] at hf
    cases hf
    rw [he, le_antisymm hde hef]
    exact ⟨rfl, lt_of_lt_of_le hopen hde⟩

end Hydration

section Operations

variable {db db' : AeAlarmsDB} {repo repo' : AlertRepository} {now : ℚ} {ruleId : String}
  {alertId : String}

/-- A row of the rule, of another alert, has the window. -/
def HoldsApart (db : AeAlarmsDB) (alertId ruleId : String) (deadline : ℚ) : Prop :=
  ∃ row ∈ db.unionAll, row.alertId ≠ alertId ∧ row.ruleId = some ruleId ∧
    row.ignoredUntil = some deadline

theorem holds_iff (hsplit : db.Split) {row : Alert} (hrow : row ∈ db.unionAll) {d : ℚ} :
    Holds db ruleId d ↔ (row.ruleId = some ruleId ∧ row.ignoredUntil = some d) ∨
      HoldsApart db row.alertId ruleId d := by
  constructor
  · rintro ⟨other, hother, hrule, hd⟩
    by_cases hid : other.alertId = row.alertId
    · rw [hsplit.unique hother hrow hid] at hrule hd
      exact .inl ⟨hrule, hd⟩
    · exact .inr ⟨other, hother, hid, hrule, hd⟩
  · rintro (⟨hrule, hd⟩ | ⟨other, hother, -, hrule, hd⟩)
    · exact ⟨row, hrow, hrule, hd⟩
    · exact ⟨other, hother, hrule, hd⟩

theorem holds_write {a : Alert} (hwrite : db.writeAlert a = some db')
    (hwritten : db.written a = AeAlarmsDB.columns a) {d : ℚ} :
    Holds db' ruleId d ↔ (a.ruleId = some ruleId ∧ a.ignoredUntil = some d) ∨
      HoldsApart db a.alertId ruleId d := by
  simp only [Holds, AeAlarmsDB.mem_write hwrite, hwritten]
  constructor
  · rintro ⟨row, rfl | ⟨hrow, hid⟩, hrule, hd⟩
    · exact .inl ⟨hrule, hd⟩
    · exact .inr ⟨row, hrow, hid, hrule, hd⟩
  · rintro (⟨hrule, hd⟩ | ⟨row, hrow, hid, hrule, hd⟩)
    · exact ⟨_, .inl rfl, hrule, hd⟩
    · exact ⟨row, .inr ⟨hrow, hid⟩, hrule, hd⟩

/-- What a change of an alert does to the windows: the alert gets its own, the others keep
theirs, and the memory is left alone. -/
theorem change_windows {f : Alert → Alert} (hf : Keeps f) {result : Alert}
    (h : repo.change alertId f = some (result, repo')) :
    ∃ row ∈ repo.db.unionAll, row.alertId = alertId ∧ repo.getById alertId = some row ∧
      repo'.ignoredUntil = repo.ignoredUntil ∧
      ∀ ruleId d, Holds repo'.db ruleId d ↔
        (row.ruleId = some ruleId ∧ (f row).ignoredUntil = some d) ∨
          HoldsApart repo.db alertId ruleId d := by
  obtain ⟨row, hrow, -, -, hmemory, hwrite⟩ := change_eq_some h
  have hget := (get_alert_of_get_by_id hrow).1
  obtain ⟨hmem, hid⟩ := AeAlarmsDB.mem_of_get_alert hget
  have hget' : repo.db.getAlert (f row).alertId = some row := by
    rw [hf.alertId, hid]
    exact hget
  have hwritten := AeAlarmsDB.written_stored hget' (hf.ruleId row) (hf.metricSource row)
    (hf.metricName row) (hf.createdAt row)
  refine ⟨row, hmem, hid, hrow, hmemory, ?_⟩
  intro ruleId d
  rw [holds_write hwrite hwritten, hf.ruleId, hf.alertId, hid]

theorem change_in_sync (hsplit : repo.db.Split) {f : Alert → Alert} (hf : Keeps f)
    (hwindow : ∀ a, (f a).ignoredUntil = a.ignoredUntil) {result : Alert}
    (h : repo.change alertId f = some (result, repo')) (hsync : InSync repo now ruleId) :
    InSync repo' now ruleId := by
  obtain ⟨row, hrow, hid, -, hmemory, hwindows⟩ := change_windows hf h
  refine hsync.congr (by rw [hmemory]) ?_
  intro d _
  rw [hwindows, holds_iff hsplit hrow, hwindow, hid]

theorem change_in_sync_apart (hsplit : repo.db.Split) {f : Alert → Alert} (hf : Keeps f)
    {result row : Alert} (hrow : repo.getById alertId = some row)
    (h : repo.change alertId f = some (result, repo')) (hrule : row.ruleId ≠ some ruleId)
    (hsync : InSync repo now ruleId) : InSync repo' now ruleId := by
  obtain ⟨row', hmem, hid, hrow', hmemory, hwindows⟩ := change_windows hf h
  rw [hrow] at hrow'
  cases hrow'
  refine hsync.congr (by rw [hmemory]) ?_
  intro d _
  rw [hwindows, holds_iff hsplit hmem, hid]
  simp [hrule]

theorem drop_windows_holds (t : Table Alert.alertId) (cleared : String) {d : ℚ} :
    (∃ row ∈ (AeAlarmsDB.dropWindows t cleared).rows, row.ruleId = some ruleId ∧
      row.ignoredUntil = some d) ↔
      ruleId ≠ cleared ∧ ∃ row ∈ t.rows, row.ruleId = some ruleId ∧ row.ignoredUntil = some d := by
  simp only [AeAlarmsDB.dropWindows, Table.mem_update, decide_eq_true_eq]
  constructor
  · rintro ⟨-, ⟨row, hrow, rfl⟩, hrule, hd⟩
    by_cases hdropped : row.ruleId = some cleared
    · rw [if_pos hdropped] at hd
      cases hd
    · rw [if_neg hdropped] at hrule hd
      refine ⟨?_, row, hrow, hrule, hd⟩
      rintro rfl
      exact hdropped hrule
  · rintro ⟨hne, row, hrow, hrule, hd⟩
    have hkept : row.ruleId ≠ some cleared := by
      rw [hrule]
      exact fun heq => hne (Option.some.inj heq)
    exact ⟨row, ⟨row, hrow, (if_neg hkept).symm⟩, hrule, hd⟩

theorem clear_in_sync (ruleId : Option String)
    (h : ∀ other, ruleId ≠ some other → InSync repo now other) (other : String) :
    InSync (repo.clearRuleIgnored ruleId) now other := by
  cases ruleId with
  | none => exact h other (by simp)
  | some cleared =>
      have hholds : ∀ d, Holds (repo.clearRuleIgnored (some cleared)).db other d ↔
          other ≠ cleared ∧ Holds repo.db other d := by
        intro d
        simp only [Holds, AeAlarmsDB.unionAll, List.mem_append, or_and_right,
          exists_or, and_or_left,
          clearRuleIgnored, AeAlarmsDB.clearIgnoredUntil, drop_windows_holds]
      by_cases hcleared : other = cleared
      · subst hcleared
        refine ⟨?_, ?_⟩
        · intro d hd
          simp [clearRuleIgnored] at hd
        · intro d hd
          exact absurd rfl ((hholds d).mp hd).1
      · refine (h other fun heq => hcleared (Option.some.inj heq).symm).congr ?_ ?_
        · simp [clearRuleIgnored, hcleared]
        · intro d _
          rw [hholds d]
          simp [hcleared]

theorem get_active_ignored_until (repo : AlertRepository) :
    repo.getActive.2.ignoredUntil = repo.ignoredUntil := by
  simp only [getActive]
  split <;> rfl

/-- `get_active` changes no window. -/
theorem get_active_in_sync (h : InSync repo now ruleId) : InSync repo.getActive.2 now ruleId := by
  refine h.congr (by rw [get_active_ignored_until]) ?_
  intro d _
  rw [get_active_db]

theorem is_rule_ignored_in_sync (asked : Option String) (h : InSync repo now ruleId) :
    InSync (repo.isRuleIgnored asked now).2 now ruleId := by
  simp only [isRuleIgnored]
  split
  · exact h
  · rename_i asked
    split
    · exact h
    · rename_i deadline hdeadline
      split
      · rename_i hover
        by_cases hasked : ruleId = asked
        · subst hasked
          refine ⟨?_, ?_⟩
          · intro d hd
            simp at hd
          · intro d hd hopen
            obtain ⟨latest, hlatest, hle⟩ := h.covered d hd hopen
            rw [hdeadline] at hlatest
            cases hlatest
            exact absurd (lt_of_lt_of_le hopen (hle.trans hover)) (lt_irrefl now)
        · exact h.congr (by simp [hasked]) fun d _ => Iff.rfl
      · exact h

theorem update_holds (t : Table Alert.alertId) (p : Alert → Bool) (f : Alert → Alert)
    (hf : ∀ row, (f row).alertId = row.alertId) (hrule : ∀ row, (f row).ruleId = row.ruleId)
    (hwindow : ∀ row, (f row).ignoredUntil = row.ignoredUntil) {d : ℚ} :
    (∃ row ∈ (t.update p f hf).rows, row.ruleId = some ruleId ∧ row.ignoredUntil = some d) ↔
      ∃ row ∈ t.rows, row.ruleId = some ruleId ∧ row.ignoredUntil = some d := by
  have hsame : ∀ row : Alert, (if p row then f row else row).ruleId = row.ruleId ∧
      (if p row then f row else row).ignoredUntil = row.ignoredUntil := by
    intro row
    split
    · exact ⟨hrule row, hwindow row⟩
    · exact ⟨rfl, rfl⟩
  simp only [Table.mem_update]
  constructor
  · rintro ⟨-, ⟨row, hrow, rfl⟩, hr, hd⟩
    exact ⟨row, hrow, (hsame row).1.symm.trans hr, (hsame row).2.symm.trans hd⟩
  · rintro ⟨row, hrow, hr, hd⟩
    exact ⟨_, ⟨row, hrow, rfl⟩, (hsame row).1.trans hr, (hsame row).2.trans hd⟩

/-- `refresh` changes no window. -/
theorem refresh_in_sync (a : Alert) (value : PyFloat) (time : ℚ) (h : InSync repo now ruleId) :
    InSync (repo.refresh a value time).2 now ruleId := by
  refine h.congr rfl ?_
  intro d _
  simp only [refresh, AeAlarmsDB.bumpRefresh]
  split
  · rfl
  · simp only [Holds, AeAlarmsDB.unionAll, List.mem_append, or_and_right, exists_or]
    refine or_congr_left (update_holds _ _ _ _ ?_ ?_)
    · exact fun _ => rfl
    · exact fun _ => rfl

theorem create_row {c : AlertCreate} {a : Alert}
    (hfresh : ∀ row ∈ repo.db.unionAll, row.alertId ≠ alertId) {time : ℚ}
    (h : repo.create c alertId time = some (a, repo')) :
    repo'.ignoredUntil = repo.ignoredUntil ∧
      ∀ row, row ∈ repo'.db.unionAll ↔
        row = AeAlarmsDB.columns (c.toAlert alertId time) ∨ row ∈ repo.db.unionAll := by
  simp only [create, save, Option.map_map, Option.map_eq_some_iff, Function.comp_apply,
    Prod.mk.injEq] at h
  obtain ⟨db, hwrite, rfl, rfl⟩ := h
  have hnew : repo.db.alerts.find? alertId = none := by
    rw [Table.find_eq_none]
    exact fun row hrow => hfresh row (List.mem_append_left _ hrow)
  have hwritten : repo.db.written (c.toAlert alertId time) =
      AeAlarmsDB.columns (c.toAlert alertId time) := by
    simp only [AeAlarmsDB.written, AlertCreate.toAlert, hnew]
  refine ⟨rfl, ?_⟩
  intro row
  rw [AeAlarmsDB.mem_write hwrite, hwritten]
  refine or_congr_right ⟨And.left, fun hrow => ⟨hrow, hfresh row hrow⟩⟩

/-- A new alert has no window. -/
theorem create_in_sync {c : AlertCreate} {a : Alert}
    (hfresh : ∀ row ∈ repo.db.unionAll, row.alertId ≠ alertId) {time : ℚ}
    (h : repo.create c alertId time = some (a, repo')) (hsync : InSync repo now ruleId) :
    InSync repo' now ruleId := by
  obtain ⟨hmemory, hrows⟩ := create_row hfresh h
  refine hsync.congr (by rw [hmemory]) ?_
  intro d _
  simp only [Holds, hrows]
  constructor
  · rintro ⟨row, rfl | hrow, hrule, hd⟩
    · cases hd
    · exact ⟨row, hrow, hrule, hd⟩
  · rintro ⟨row, hrow, hrule, hd⟩
    exact ⟨row, .inr hrow, hrule, hd⟩

theorem purge_in_sync (cutoff : ℚ) (h : InSync repo now ruleId) :
    InSync { repo with db := repo.db.purgeHistoryOlderThan cutoff now } now ruleId := by
  refine h.congr rfl ?_
  intro d hopen
  simp only [Holds, AeAlarmsDB.purgeHistoryOlderThan, AeAlarmsDB.unionAll, List.mem_append,
    Table.mem_delete]
  constructor
  · rintro ⟨row, hrow | ⟨hrow, -⟩, hrule, hd⟩
    · exact ⟨row, .inl hrow, hrule, hd⟩
    · exact ⟨row, .inr hrow, hrule, hd⟩
  · rintro ⟨row, hrow | hrow, hrule, hd⟩
    · exact ⟨row, .inl hrow, hrule, hd⟩
    · refine ⟨row, .inr ⟨hrow, ?_⟩, hrule, hd⟩
      simp [hd, hopen]

/-- The window of a row that is taken away is held by another row of the rule too. -/
def HeldElsewhere (db : AeAlarmsDB) (alertId : String) (now : ℚ) : Prop :=
  ∀ row ∈ db.unionAll, row.alertId = alertId → ∀ ruleId d, row.ruleId = some ruleId →
    row.ignoredUntil = some d → now < d → ∃ e, HoldsApart db alertId ruleId e ∧ d ≤ e

/-- The rows after `delete_alert`. -/
theorem delete_holds {d : ℚ} :
    Holds (repo.delete alertId).2.db ruleId d ↔ HoldsApart repo.db alertId ruleId d := by
  simp only [Holds, HoldsApart, delete, AeAlarmsDB.deleteAlert, AeAlarmsDB.unionAll,
    List.mem_append, Table.mem_delete, decide_eq_false_iff_not, ← or_and_right, and_assoc]

theorem delete_in_sync (hheld : HeldElsewhere repo.db alertId now) (h : InSync repo now ruleId) :
    InSync (repo.delete alertId).2 now ruleId := by
  refine ⟨?_, ?_⟩
  · intro d hd hopen
    obtain ⟨row, hrow, hrule, hwindow⟩ := h.stored d hd hopen
    rw [delete_holds]
    by_cases hid : row.alertId = alertId
    · -- The other row's window is no later than the one in memory, and no earlier than this row's.
      obtain ⟨e, hapart, hde⟩ := hheld row hrow hid ruleId d hrule hwindow hopen
      obtain ⟨other, hother, -, horule, howindow⟩ := id hapart
      obtain ⟨latest, hlatest, hle⟩ :=
        h.covered e ⟨other, hother, horule, howindow⟩ (lt_of_lt_of_le hopen hde)
      have hsame : some d = some latest := Eq.trans (Eq.symm hd) hlatest
      rw [le_antisymm hde (Option.some.inj hsame ▸ hle)]
      exact hapart
    · exact ⟨row, hrow, hid, hrule, hwindow⟩
  · intro d hd hopen
    obtain ⟨row, hrow, -, hrule, hwindow⟩ := delete_holds.mp hd
    exact h.covered d ⟨row, hrow, hrule, hwindow⟩ hopen

theorem delete_in_sync_apart {row : Alert} (hsplit : repo.db.Split)
    (hrow : repo.getById alertId = some row) (hrule : row.ruleId ≠ some ruleId)
    (h : InSync repo now ruleId) : InSync (repo.delete alertId).2 now ruleId := by
  obtain ⟨hmem, hid⟩ := AeAlarmsDB.mem_of_get_alert (get_alert_of_get_by_id hrow).1
  refine h.congr rfl ?_
  intro d _
  rw [delete_holds, holds_iff hsplit hmem, hid]
  simp [hrule]

/-- The rows after a bulk update of live statuses: those with such a status are assigned to, in
whichever table they end up. -/
theorem mem_bulk_update (hsplit : db.Split) {fromStatuses : List AlertStatus}
    (hlive : ∀ status ∈ fromStatuses, status.live = true) (toStatus : AlertStatus)
    (closedAt acknowledgedAt ignoredUntil : Option ℚ) {row' : Alert} :
    row' ∈ (db.bulkUpdateStatus fromStatuses toStatus closedAt acknowledgedAt
      ignoredUntil).unionAll ↔
      ∃ row ∈ db.unionAll, row' = if fromStatuses.contains row.status then
        AeAlarmsDB.assign toStatus closedAt acknowledgedAt ignoredUntil row else row := by
  have hold : ∀ row ∈ db.history.rows, fromStatuses.contains row.status = false := by
    intro row hrow
    rw [← Bool.not_eq_true, List.contains_iff_mem]
    intro hfrom
    have hdead := hsplit.archived row hrow
    rw [hlive _ hfrom] at hdead
    cases hdead
  have hhistory : row' ∈ db.history.rows ↔ ∃ row ∈ db.history.rows,
      row' = if fromStatuses.contains row.status then
        AeAlarmsDB.assign toStatus closedAt acknowledgedAt ignoredUntil row else row := by
    constructor
    · intro hrow'
      exact ⟨row', hrow', by rw [hold row' hrow']; rfl⟩
    · rintro ⟨row, hrow, rfl⟩
      rw [hold row hrow]
      exact hrow
  have hunion : (∃ row ∈ db.unionAll, row' = if fromStatuses.contains row.status then
      AeAlarmsDB.assign toStatus closedAt acknowledgedAt ignoredUntil row else row) ↔
      row' ∈ (db.alerts.update (fun row => fromStatuses.contains row.status)
        (AeAlarmsDB.assign toStatus closedAt acknowledgedAt ignoredUntil)
        (AeAlarmsDB.assign_alert_id _ _ _ _)).rows ∨ row' ∈ db.history.rows := by
    rw [hhistory]
    simp only [AeAlarmsDB.unionAll, List.mem_append, or_and_right, exists_or, Table.mem_update]
  rw [hunion]
  simp only [AeAlarmsDB.bulkUpdateStatus]
  split
  · simp only [AeAlarmsDB.unionAll, List.mem_append]
  · simp only [AeAlarmsDB.unionAll, AeAlarmsDB.archiveNonLive, List.mem_append, Table.mem_delete]
    rw [Table.mem_put_all (Table.nodup_filter _), List.mem_filter]
    constructor
    · rintro (⟨hrow', -⟩ | ⟨hrow', -⟩ | ⟨hrow', -⟩)
      · exact .inl hrow'
      · exact .inl hrow'
      · exact .inr hrow'
    · rintro (hrow' | hrow')
      · cases harchived : AeAlarmsDB.isArchived none row' with
        | true => exact .inr (.inl ⟨hrow', rfl⟩)
        | false => exact .inl ⟨hrow', rfl⟩
      · -- A row of the history has an id of its own.
        refine .inr (.inr ⟨hrow', ?_⟩)
        intro hid
        obtain ⟨moved, hmoved, heq⟩ := List.mem_map.mp hid
        obtain ⟨row, hrow, rfl⟩ := Table.mem_update.mp (List.mem_filter.mp hmoved).1
        refine hsplit.apart row hrow row' hrow' (Eq.trans ?_ heq)
        split <;> rfl

theorem close_all_in_sync (hsplit : repo.db.Split) (time : ℚ) (h : InSync repo now ruleId) :
    InSync (repo.closeAllAlerts time) now ruleId := by
  refine h.congr rfl ?_
  intro d _
  have hsame : ∀ row : Alert, ∀ closes : Bool,
      (if closes then AeAlarmsDB.assign .closed (some time) none none row else row).ruleId =
        row.ruleId ∧
      (if closes then AeAlarmsDB.assign .closed (some time) none none row else row).ignoredUntil =
        row.ignoredUntil := by
    intro row closes
    cases closes <;> exact ⟨rfl, rfl⟩
  simp only [Holds, closeAllAlerts]
  simp only [mem_bulk_update hsplit (by decide : ∀ status ∈ [AlertStatus.active, .acknowledged,
    .ignored], status.live = true)]
  constructor
  · rintro ⟨-, ⟨row, hrow, rfl⟩, hrule, hd⟩
    rw [(hsame row _).1] at hrule
    rw [(hsame row _).2] at hd
    exact ⟨row, hrow, hrule, hd⟩
  · rintro ⟨row, hrow, hrule, hd⟩
    exact ⟨_, ⟨row, hrow, rfl⟩, (hsame row _).1.trans hrule, (hsame row _).2.trans hd⟩

/-- The alerts that `ignore_all_alerts` marks. -/
def marks (row : Alert) : Bool := [AlertStatus.active, .acknowledged].contains row.status

/-- `ignore_all_alerts` sets a window in memory for exactly the rules whose alerts it marks, and no
other alert of such a rule has a later one. -/
structure MarksAll (repo : AlertRepository) (deadline now : ℚ) (ruleId : String) : Prop where
  same : ruleId ∈ repo.getActive.1.filterMap Alert.ruleId ↔
    ∃ row ∈ repo.db.unionAll, row.ruleId = some ruleId ∧ marks row = true
  latest : ruleId ∈ repo.getActive.1.filterMap Alert.ruleId → ∀ row ∈ repo.db.unionAll,
    row.ruleId = some ruleId → marks row = false → ∀ d, row.ignoredUntil = some d → now < d →
      d ≤ deadline

theorem set_windows_get (affected : List String) (deadline : ℚ) (repo : AlertRepository) :
    (affected.foldl (fun repo ruleId => repo.setRuleIgnored (some ruleId) deadline)
      repo).ignoredUntil.get? ruleId =
      if ruleId ∈ affected then some deadline else repo.ignoredUntil.get? ruleId := by
  induction affected generalizing repo with
  | nil => rfl
  | cons first rest ih =>
      rw [List.foldl_cons, ih]
      by_cases hfirst : ruleId = first
      · simp [setRuleIgnored, hfirst]
      · simp [setRuleIgnored, hfirst]

theorem ignore_all_in_sync (hsplit : repo.db.Split) (durationHours : Nat) (time : ℚ)
    (hmarks : MarksAll repo (time + durationHours * 3600) now ruleId) (h : InSync repo now ruleId) :
    InSync (repo.ignoreAllAlerts durationHours time) now ruleId := by
  have hmemory : (repo.ignoreAllAlerts durationHours time).ignoredUntil.get? ruleId =
      if ruleId ∈ repo.getActive.1.filterMap Alert.ruleId then
        some (time + durationHours * 3600) else repo.ignoredUntil.get? ruleId := by
    simp only [ignoreAllAlerts, set_windows_get, get_active_ignored_until]
  have hholds : ∀ d, Holds (repo.ignoreAllAlerts durationHours time).db ruleId d ↔
      ∃ row ∈ repo.db.unionAll, row.ruleId = some ruleId ∧
        (if marks row then some (time + durationHours * 3600) else row.ignoredUntil) = some d := by
    intro d
    simp only [Holds, ignoreAllAlerts, set_windows_db, get_active_db]
    simp only [mem_bulk_update hsplit (by decide : ∀ status ∈ [AlertStatus.active, .acknowledged],
      status.live = true)]
    constructor
    · rintro ⟨-, ⟨row, hrow, rfl⟩, hrule, hd⟩
      refine ⟨row, hrow, ?_⟩
      cases hmark : marks row with
      | true =>
          rw [if_pos (show [AlertStatus.active, .acknowledged].contains row.status = true from
            hmark)] at hrule hd
          exact ⟨hrule, hd⟩
      | false =>
          rw [show [AlertStatus.active, .acknowledged].contains row.status = false from hmark]
            at hrule hd
          exact ⟨hrule, hd⟩
    · rintro ⟨row, hrow, hrule, hd⟩
      refine ⟨_, ⟨row, hrow, rfl⟩, ?_⟩
      cases hmark : marks row with
      | true =>
          rw [if_pos (show [AlertStatus.active, .acknowledged].contains row.status = true from
            hmark)]
          rw [hmark] at hd
          exact ⟨hrule, hd⟩
      | false =>
          rw [show [AlertStatus.active, .acknowledged].contains row.status = false from hmark]
          rw [hmark] at hd
          exact ⟨hrule, hd⟩
  by_cases haffected : ruleId ∈ repo.getActive.1.filterMap Alert.ruleId
  · rw [if_pos haffected] at hmemory
    refine ⟨?_, ?_⟩
    · intro d hd _
      obtain ⟨row, hrow, hrule, hmark⟩ := hmarks.same.mp haffected
      rw [hmemory] at hd
      rw [hholds]
      exact ⟨row, hrow, hrule, by rw [hmark]; exact hd⟩
    · intro d hd hopen
      refine ⟨_, hmemory, ?_⟩
      obtain ⟨row, hrow, hrule, hwindow⟩ := (hholds d).mp hd
      cases hmark : marks row with
      | true =>
          rw [hmark] at hwindow
          cases hwindow
          exact le_refl _
      | false =>
          rw [hmark] at hwindow
          exact hmarks.latest haffected row hrow hrule hmark d hwindow hopen
  · rw [if_neg haffected] at hmemory
    refine h.congr hmemory ?_
    intro d _
    rw [hholds]
    refine exists_congr fun row => and_congr_right fun hrow => and_congr_right fun hrule => ?_
    have hmark : marks row = false := by
      rw [← Bool.not_eq_true]
      exact fun hmark => haffected (hmarks.same.mpr ⟨row, hrow, hrule, hmark⟩)
    rw [hmark]
    rfl

end Operations

end AlertRepository

namespace AlertManager

open AlertRepository

section Manager

variable {repo repo' : AlertRepository} {alertId : String} {now time : ℚ} {result : Alert}

theorem update_window {u : AlertUpdate} (hu : u.ignoredUntil = none) (a : Alert) :
    (AlertRepository.applyUpdate u a time).ignoredUntil = a.ignoredUntil := by
  simp only [AlertRepository.applyUpdate, hu, Option.none_or]

theorem acknowledge_in_sync (hsplit : repo.db.Split) (hsync : ∀ ruleId, InSync repo now ruleId)
    (h : acknowledgeAlert repo alertId time = some (result, repo')) (ruleId : String) :
    InSync repo' now ruleId := by
  simp only [acknowledgeAlert, Option.bind_eq_some_iff] at h
  obtain ⟨alert, halert, h⟩ := h
  split at h
  · cases h
  · simp only [Option.map_eq_some_iff, Prod.mk.injEq, Prod.exists] at h
    obtain ⟨result, changed, hchange, -, rfl⟩ := h
    have hcleared : InSync (changed.clearRuleIgnored alert.ruleId) now ruleId :=
      clear_in_sync alert.ruleId (fun other hother =>
        change_in_sync_apart hsplit (keeps_update _ _) halert hchange hother (hsync other)) ruleId
    exact ⟨hcleared.stored, hcleared.covered⟩

theorem close_in_sync {reason : Option String} {resolvedValue : Option PyFloat}
    (hsplit : repo.db.Split) (hsync : ∀ ruleId, InSync repo now ruleId)
    (h : closeAlert repo alertId reason resolvedValue time = some (result, repo'))
    (ruleId : String) : InSync repo' now ruleId := by
  simp only [closeAlert, Option.bind_eq_some_iff, Option.map_eq_some_iff, Prod.mk.injEq,
    Prod.exists] at h
  obtain ⟨alert, halert, result, changed, hchange, -, rfl⟩ := h
  have hkeeps := keeps_update
    { status := .closed, resolutionReason := reason, resolvedValue := resolvedValue } time
  have hclosed : InSync
      (if reason = some "auto" then changed else changed.clearRuleIgnored alert.ruleId) now
      ruleId := by
    split
    · exact change_in_sync hsplit hkeeps (fun a => update_window rfl a) hchange (hsync ruleId)
    · exact clear_in_sync alert.ruleId (fun other hother =>
        change_in_sync_apart hsplit hkeeps halert hchange hother (hsync other)) ruleId
  exact ⟨hclosed.stored, hclosed.covered⟩

theorem resume_in_sync (hsplit : repo.db.Split) (hsync : ∀ ruleId, InSync repo now ruleId)
    (h : resumeAlert repo alertId time = some (result, repo')) (ruleId : String) :
    InSync repo' now ruleId := by
  simp only [resumeAlert, Option.bind_eq_some_iff, Option.map_eq_some_iff, Prod.mk.injEq,
    Prod.exists] at h
  obtain ⟨alert, halert, result, changed, hchange, -, rfl⟩ := h
  have hcleared : InSync (changed.clearRuleIgnored alert.ruleId) now ruleId :=
    clear_in_sync alert.ruleId (fun other hother =>
      change_in_sync_apart hsplit keeps_resume halert hchange hother (hsync other)) ruleId
  exact ⟨hcleared.stored, hcleared.covered⟩

theorem delete_alert_in_sync (hsplit : repo.db.Split) (hsync : ∀ ruleId, InSync repo now ruleId)
    (hheld : repo.getById alertId = none → HeldElsewhere repo.db alertId now) (ruleId : String) :
    InSync (deleteAlert repo alertId).2 now ruleId := by
  cases hexisting : repo.getById alertId with
  | none =>
      have hdeleted := delete_in_sync (hheld hexisting) (hsync ruleId)
      simp only [deleteAlert, hexisting]
      split
      · rename_i hnone
        cases hnone
      · exact hdeleted
  | some alert =>
      have hfound : (repo.delete alertId).1 = true := by
        have hget := (get_alert_of_get_by_id hexisting).1
        simp only [AeAlarmsDB.getAlert, Option.or_eq_some_iff] at hget
        simp only [AlertRepository.delete, AeAlarmsDB.deleteAlert, Bool.or_eq_true]
        rcases hget with hget | ⟨-, hget⟩
        · exact .inl (by rw [hget]; rfl)
        · exact .inr (by rw [hget]; rfl)
      simp only [deleteAlert, hexisting, hfound]
      exact clear_in_sync alert.ruleId (fun other hother =>
        delete_in_sync_apart hsplit hexisting hother (hsync other)) ruleId

/-- No other alert of the rule has a window that is open after the deadline. -/
def SetsLatest (repo : AlertRepository) (alertId : String) (deadline now : ℚ) : Prop :=
  ∀ a, repo.getById alertId = some a → a.status ≠ .closed → ∀ ruleId, a.ruleId = some ruleId →
    ∀ d, HoldsApart repo.db alertId ruleId d → now < d → d ≤ deadline

theorem ignore_in_sync {durationHours : Nat} (hsplit : repo.db.Split)
    (hsync : ∀ ruleId, InSync repo now ruleId)
    (hlatest : SetsLatest repo alertId (time + durationHours * 3600) now)
    (h : ignoreAlert repo alertId durationHours time = some (result, repo')) (ruleId : String) :
    InSync repo' now ruleId := by
  simp only [ignoreAlert, Option.bind_eq_some_iff] at h
  obtain ⟨alert, halert, h⟩ := h
  split at h
  · cases h
  · rename_i hopen
    simp only [Option.map_eq_some_iff, Prod.mk.injEq, Prod.exists] at h
    obtain ⟨result, changed, hchange, -, rfl⟩ := h
    by_cases hrule : alert.ruleId = some ruleId
    · obtain ⟨row, -, -, hrow, -, hwindows⟩ := change_windows (keeps_update _ _) hchange
      rw [halert] at hrow
      cases hrow
      have hmemory : (changed.setRuleIgnored alert.ruleId
          (time + durationHours * 3600)).ignoredUntil.get? ruleId =
            some (time + durationHours * 3600) := by
        simp [hrule, setRuleIgnored]
      have hdb : (changed.setRuleIgnored alert.ruleId (time + durationHours * 3600)).db =
          changed.db := by
        rw [hrule]
        rfl
      have hset : InSync (changed.setRuleIgnored alert.ruleId (time + durationHours * 3600)) now
          ruleId := by
        refine ⟨?_, ?_⟩
        · intro d hd _
          rw [hmemory] at hd
          rw [hdb, hwindows]
          exact .inl ⟨hrule, hd⟩
        · intro d hd hafter
          refine ⟨_, hmemory, ?_⟩
          rw [hdb, hwindows] at hd
          rcases hd with ⟨-, hd⟩ | hapart
          · cases hd
            exact le_refl _
          · exact hlatest alert halert hopen ruleId hrule d hapart hafter
      exact ⟨hset.stored, hset.covered⟩
    · have hchanged := change_in_sync_apart hsplit (keeps_update _ _) halert hchange hrule
        (hsync ruleId)
      have hset : InSync (changed.setRuleIgnored alert.ruleId (time + durationHours * 3600)) now
          ruleId := by
        cases halertrule : alert.ruleId with
        | none => exact hchanged
        | some other =>
            rw [halertrule] at hrule
            refine hchanged.congr ?_ fun d _ => Iff.rfl
            have hne : ¬ ruleId = other := fun heq => hrule (congrArg some heq.symm)
            simp [setRuleIgnored, hne]
      exact ⟨hset.stored, hset.covered⟩

theorem close_each_in_sync {reason : Option String} {resolvedValue : Option PyFloat}
    (alerts : List Alert) (hsplit : repo.db.Split) (hsync : ∀ ruleId, InSync repo now ruleId)
    (ruleId : String) :
    InSync (closeEach repo reason resolvedValue time alerts) now ruleId := by
  induction alerts generalizing repo with
  | nil => exact hsync ruleId
  | cons a rest ih =>
      simp only [closeEach]
      split
      · rename_i result repo' hclose
        have hserves := close_serves (s := { closes := fun _ => True })
          (fun _ _ _ => trivial) hclose
        exact ih (hserves.store.split hsplit) (close_in_sync hsplit hsync hclose)
      · exact ih hsplit hsync

theorem close_rule_in_sync (hsplit : repo.db.Split) (hsync : ∀ ruleId, InSync repo now ruleId)
    (closed reason : String) (ruleId : String) :
    InSync (closeRuleAlerts repo closed reason time) now ruleId := by
  rw [close_rule_eq]
  refine close_each_in_sync _ ?_ (fun other => get_active_in_sync (hsync other)) ruleId
  rw [get_active_db]
  exact hsplit

/-- `is_rule_ignored` is in memory. -/
theorem is_rule_ignored_db (asked : Option String) :
    (repo.isRuleIgnored asked now).2.db = repo.db := by
  simp only [isRuleIgnored]
  split
  · rfl
  · split
    · rfl
    · split <;> rfl

theorem rule_ignored_until_some {asked : Option String} {deadline : ℚ}
    (h : repo.ruleIgnoredUntil asked now = some deadline) :
    ∃ ruleId, asked = some ruleId ∧ repo.ignoredUntil.get? ruleId = some deadline ∧
      (repo.isRuleIgnored asked now).2 = repo := by
  cases asked with
  | none => cases h
  | some ruleId =>
      rw [rule_ignored_until_eq, Option.filter_eq_some_iff, decide_eq_true_eq] at h
      refine ⟨ruleId, rfl, h.1, ?_⟩
      simp [isRuleIgnored, h.1, not_le.mpr h.2]

theorem born_ignored_in_sync (hsplit : repo.db.Split) {asked : String} {deadline : ℚ}
    (hrule : ∀ row ∈ repo.db.unionAll, row.alertId = alertId → row.ruleId = some asked)
    (hmemory : repo.ignoredUntil.get? asked = some deadline)
    (h : repo.update alertId { status := .ignored, ignoredUntil := some deadline } time =
      some (result, repo')) {ruleId : String} (hsync : InSync repo now ruleId) :
    InSync repo' now ruleId := by
  obtain ⟨row, hmem, hid, hrow, hsame, hwindows⟩ := change_windows (keeps_update _ _) h
  have hasked := hrule row hmem hid
  by_cases hruleId : ruleId = asked
  · subst hruleId
    refine ⟨?_, ?_⟩
    · intro d hd _
      rw [hsame, hmemory] at hd
      rw [hwindows]
      exact .inl ⟨hasked, hd⟩
    · intro d hd hopen
      rcases (hwindows ruleId d).mp hd with ⟨-, hd⟩ | ⟨other, hother, -, horule, hod⟩
      · cases hd
        exact ⟨deadline, by rw [hsame, hmemory], le_refl _⟩
      · rw [hsame]
        exact hsync.covered d ⟨other, hother, horule, hod⟩ hopen
  · refine change_in_sync_apart hsplit (keeps_update _ _) hrow h ?_ hsync
    rw [hasked]
    exact fun heq => hruleId (Option.some.inj heq).symm

theorem process_in_sync (corr : Correlation) (c : AlertCreate) (hsplit : repo.db.Split)
    (hfresh : ∀ row ∈ repo.db.unionAll, row.alertId ≠ alertId)
    (hsync : ∀ ruleId, InSync repo now ruleId) (ruleId : String) :
    InSync (processAlert repo corr c alertId now).2 now ruleId := by
  simp only [processAlert]
  generalize hstart : (repo.isRuleIgnored c.ruleId now).2 = started
  have hstarted : ∀ other, InSync started.getActive.2 now other := by
    intro other
    rw [← hstart]
    exact get_active_in_sync (is_rule_ignored_in_sync c.ruleId (hsync other))
  have hrows : started.getActive.2.db = repo.db := by
    rw [get_active_db, ← hstart, is_rule_ignored_db]
  split
  · exact refresh_in_sync _ _ _ (hstarted ruleId)
  · split
    · exact hstarted ruleId
    · rename_i alert made hmade
      rw [← hrows] at hfresh hsplit
      have hcreated : ∀ other, InSync made now other :=
        fun other => create_in_sync hfresh hmade (hstarted other)
      split
      · rename_i deadline hborn
        cases hupdate : made.update alertId
            { status := .ignored, ignoredUntil := some deadline } now with
        | none => exact ⟨(hcreated ruleId).stored, (hcreated ruleId).covered⟩
        | some updated =>
            obtain ⟨asked, hasked, hdeadline, hkept⟩ := rule_ignored_until_some hborn
            obtain ⟨hmemory, hmadeRows⟩ := create_row hfresh hmade
            have hmadeSplit := (create_serves (s := { creates := fun _ _ => True }) hfresh trivial
              hmade).store.split hsplit
            have hrule : ∀ row ∈ made.db.unionAll, row.alertId = alertId →
                row.ruleId = some asked := by
              intro row hrow hid
              rcases (hmadeRows row).mp hrow with rfl | hold
              · rw [← hasked]
                simp only [AeAlarmsDB.columns, AlertCreate.toAlert]
                split <;> rfl
              · exact absurd hid (hfresh row hold)
            have hwindow : made.ignoredUntil.get? asked = some deadline := by
              rw [hmemory, get_active_ignored_until, ← hstart, hkept]
              exact hdeadline
            have hupdated := born_ignored_in_sync hmadeSplit hrule hwindow hupdate (hcreated ruleId)
            exact ⟨hupdated.stored, hupdated.covered⟩
      · exact ⟨(hcreated ruleId).stored, (hcreated ruleId).covered⟩

end Manager

end AlertManager

namespace Engine

open AlertRepository AlertManager

section Windows

/-- The time at which a piece of work reads the clock. -/
def Work.clock : Work Config → Option ℚ
  | .process _ _ _ now => some now
  | .acknowledge _ now => some now
  | .close _ _ now => some now
  | .ignore _ _ now => some now
  | .resume _ now => some now
  | .closeAll now => some now
  | .ignoreAll _ now => some now
  | .closeRule _ _ now => some now
  | .expireWindows now => some now
  | .evaluate _ _ _ _ _ now => some now
  | .purge _ now => some now
  | _ => none

/-- A piece of work with the time at which it is done. -/
structure Timed (Config : Type) where
  now : ℚ
  work : Work Config
  clock : ∀ time ∈ work.clock, time = now

/-- The work sets windows in memory as it sets them in the rows, and takes none away with a row
that alone has it. -/
def KeepsWindows (repo : AlertRepository) (now : ℚ) : Work Config → Prop
  | .ignore alertId durationHours time =>
      SetsLatest repo alertId (time + durationHours * 3600) now
  | .ignoreAll durationHours time =>
      ∀ ruleId, MarksAll repo (time + durationHours * 3600) now ruleId
  | .delete alertId => HeldElsewhere repo.db alertId now
  | .deleteByManager alertId =>
      repo.getById alertId = none → HeldElsewhere repo.db alertId now
  | _ => True

variable {eng : Engine} {now : ℚ}

theorem resume_elapsed_in_sync {repo : AlertRepository} (time : ℚ) (alerts : List Alert)
    (hsplit : repo.db.Split) (hsync : ∀ ruleId, InSync repo now ruleId) (ruleId : String) :
    InSync (resumeElapsed repo time alerts).2 now ruleId := by
  induction alerts generalizing repo with
  | nil => exact hsync ruleId
  | cons a rest ih =>
      simp only [resumeElapsed]
      split
      · split
        · rename_i result repo' hresume
          have hserves := resume_serves (s := { resumes := fun _ => True }) trivial hresume
          exact ih (hserves.store.split hsplit) (resume_in_sync hsplit hsync hresume)
        · exact ih hsplit hsync
      · exact ih hsplit hsync

theorem after_breach_in_sync (corr : Correlation) (rule : AlarmRule Config) (c : AlertCreate)
    (value : PyFloat) {alertId : String} (hsplit : eng.repo.db.Split)
    (hfresh : ∀ row ∈ eng.repo.db.unionAll, row.alertId ≠ alertId)
    (hsync : ∀ ruleId, InSync eng.repo now ruleId) (ruleId : String) :
    InSync (eng.afterBreach corr rule c value alertId now).2.repo now ruleId := by
  have hprocess := process_in_sync corr c hsplit hfresh hsync ruleId
  rw [after_breach_eq]
  split
  · split
    · exact hsync ruleId
    · simp only [fire, notOk]
      split
      · rename_i repo hresult
        rw [hresult] at hprocess
        exact hprocess
      · rename_i repo hresult
        rw [hresult] at hprocess
        exact hprocess
      · rename_i a repo hresult
        rw [hresult] at hprocess
        exact hprocess
  · exact refresh_in_sync _ _ _ (hsync ruleId)

theorem step_in_sync (w : Timed Config) (hsplit : eng.repo.db.Split)
    (hfresh : ∀ id ∈ w.work.newId, eng.Unused id) (hkeeps : KeepsWindows eng.repo w.now w.work)
    (hsync : ∀ ruleId, InSync eng.repo w.now ruleId) (ruleId : String) :
    InSync (eng.step w.work).repo w.now ruleId := by
  obtain ⟨now, work, hclock⟩ := w
  dsimp only at hfresh hkeeps hsync ⊢
  cases work with
  | process corr c alertId time =>
      obtain rfl := hclock time rfl
      have hprocess := process_in_sync corr c hsplit (hfresh alertId rfl) hsync ruleId
      simp only [step]
      split
      · rename_i a repo hresult
        rw [hresult] at hprocess
        exact hprocess
      · rename_i outcome repo _ hresult
        rw [hresult] at hprocess
        exact hprocess
  | acknowledge alertId time =>
      simp only [step, serve]
      split
      · rename_i hresult
        exact acknowledge_in_sync hsplit hsync hresult ruleId
      · exact hsync ruleId
  | close alertId reason time =>
      simp only [step, serve]
      split
      · rename_i hresult
        exact close_in_sync hsplit hsync hresult ruleId
      · exact hsync ruleId
  | ignore alertId durationHours time =>
      simp only [step, serve]
      split
      · rename_i hresult
        exact ignore_in_sync hsplit hsync hkeeps hresult ruleId
      · exact hsync ruleId
  | resume alertId time =>
      simp only [step, serve]
      split
      · rename_i hresult
        exact resume_in_sync hsplit hsync hresult ruleId
      · exact hsync ruleId
  | closeAll time => exact close_all_in_sync hsplit time (hsync ruleId)
  | ignoreAll durationHours time =>
      exact ignore_all_in_sync hsplit durationHours time (hkeeps ruleId) (hsync ruleId)
  | delete alertId => exact delete_in_sync hkeeps (hsync ruleId)
  | deleteByManager alertId => exact delete_alert_in_sync hsplit hsync hkeeps ruleId
  | closeRule closed reason time => exact close_rule_in_sync hsplit hsync closed reason ruleId
  | takeSnapshot => exact get_active_in_sync (hsync ruleId)
  | expireWindows time =>
      have hloop := resume_elapsed_in_sync time eng.snapshot hsplit hsync ruleId
      simp only [step, expireIgnoreWindows]
      split
      · rename_i repo hresult
        rw [hresult] at hloop
        exact hloop
      · rename_i repo hresult
        rw [hresult] at hloop
        exact get_active_in_sync hloop
  | evaluate corr rule reading value alertId time =>
      obtain rfl := hclock time rfl
      cases reading with
      | breach c =>
          exact after_breach_in_sync corr rule c value hsplit (hfresh alertId rfl) hsync ruleId
      | ok recovered =>
          simp only [step, evaluateRule, after_ok_eq]
          split
          · rw [auto_resolve_repo]
            exact close_each_in_sync _ hsplit hsync ruleId
          · exact hsync ruleId
      | _ => exact hsync ruleId
  | purge cutoff time =>
      obtain rfl := hclock time rfl
      exact purge_in_sync cutoff (hsync ruleId)
  | readActive => exact get_active_in_sync (hsync ruleId)
  | dropCache => exact (hsync ruleId).congr rfl fun d _ => Iff.rfl

/-- Some time after a repository was opened and some work was done. -/
def After (began : ℚ) (works : List (Timed Config)) (now : ℚ) : Prop :=
  began ≤ now ∧ ∀ w ∈ works, w.now ≤ now

theorem in_sync_run {began : ℚ} (hsplit : eng.repo.db.Split)
    (hopened : eng.repo.ignoredUntil = loadIgnores eng.repo.db began) (works : List (Timed Config))
    (hnew : eng.NewIds (works.map Timed.work))
    (hclock : Each (fun before w => After began before w.now) works)
    (hkeeps : Each (fun before w =>
      KeepsWindows (eng.run (before.map Timed.work)).repo w.now w.work) works)
    (hnow : After began works now) (ruleId : String) :
    (eng.run (works.map Timed.work)).repo.db.Split ∧
      InSync (eng.run (works.map Timed.work)).repo now ruleId := by
  induction works using List.reverseRecOn generalizing now ruleId with
  | nil =>
      have hrestarted : InSync eng.repo began ruleId := by
        refine (restarted_in_sync eng.repo.db began ruleId).congr ?_ fun d _ => Iff.rfl
        rw [hopened]
        rfl
      exact ⟨hsplit, hrestarted.mono hnow.1⟩
  | append_singleton works w ih =>
      rw [each_concat] at hclock hkeeps
      rw [List.map_append, List.map_singleton] at hnew ⊢
      have hbefore := fun ruleId => ih hnew.part hclock.1 hkeeps.1 hclock.2 ruleId
      have hthen := (hbefore ruleId).1
      rw [run_concat]
      refine ⟨(step_serves _ w.work hnew.unused_next).store.split hthen, ?_⟩
      have hstep := step_in_sync w hthen hnew.unused_next hkeeps.2 fun other => (hbefore other).2
      exact (hstep ruleId).mono (hnow.2 w (by simp))

/-- In every run from a repository that was just opened, in which windows are set in memory as they
are set in the rows and none is taken away with the row that alone has it, the ignore window of
every rule is at every time the one that a fresh repository would have. -/
theorem windows_survive {began : ℚ} (hsplit : eng.repo.db.Split)
    (hopened : eng.repo.ignoredUntil = loadIgnores eng.repo.db began) (works : List (Timed Config))
    (hnew : eng.NewIds (works.map Timed.work))
    (hclock : Each (fun before w => After began before w.now) works)
    (hkeeps : Each (fun before w =>
      KeepsWindows (eng.run (before.map Timed.work)).repo w.now w.work) works)
    (hnow : After began works now) (ruleId : String) :
    (eng.run (works.map Timed.work)).repo.ruleIgnoredUntil (some ruleId) now =
      (restarted (eng.run (works.map Timed.work)).repo.db now).ruleIgnoredUntil (some ruleId)
        now := by
  have hsync := (in_sync_run hsplit hopened works hnew hclock hkeeps hnow ruleId).2
  exact hsync.window_eq (restarted_in_sync _ _ _) rfl

/-- An alert is created, and ignored for an hour. -/
def ignoredOnce : List (Timed Unit) :=
  [⟨0, .process {} (violation "r") "a" 0, by simp [Work.clock]⟩] ++
    [⟨1, .ignore "a" 1 1, by simp [Work.clock]⟩]

/-- The window of the only alert survives. -/
theorem windows_survive_ignored :
    (idle.run (ignoredOnce.map Timed.work)).repo.ruleIgnoredUntil (some "r") 2 =
      (restarted (idle.run (ignoredOnce.map Timed.work)).repo.db 2).ruleIgnoredUntil (some "r")
        2 := by
  have hopened : idle.repo.ignoredUntil = loadIgnores idle.repo.db 0 := rfl
  refine windows_survive idle_orderly.split hopened ignoredOnce
    ⟨by decide, fun id _ row hrow => by cases hrow⟩ ?_ ?_ ?_ "r"
  · rw [ignoredOnce, each_concat, ← List.nil_append [_], each_concat]
    exact ⟨⟨each_nil, by decide, by decide⟩, by decide, by decide⟩
  · rw [ignoredOnce, each_concat, ← List.nil_append [_], each_concat]
    refine ⟨⟨each_nil, trivial⟩, ?_⟩
    intro a _ _ ruleId _ d hapart _
    obtain ⟨row, hrow, hid, -⟩ := hapart
    have hone : ∀ row ∈ (idle.run [(.process {} (violation "r") "a" 0 :
        Work Unit)]).repo.db.unionAll, row.alertId = "a" := by
      decide +kernel
    exact absurd (hone row hrow) hid
  · exact ⟨by decide, by decide⟩

/-- Then all alerts are ignored for a day. -/
def ignoredTwice : List (Timed Unit) :=
  ignoredOnce ++ [⟨2, .ignoreAll 24 2, by simp [Work.clock]⟩]

/-- All alerts are ignored for a day, and the one that is ignored already keeps its hour. -/
theorem ignored_alert_not_marked : ¬ ∀ (eng : Engine) (began now : ℚ) (works : List (Timed Unit)),
    eng.repo.db.Split → eng.repo.ignoredUntil = loadIgnores eng.repo.db began →
    eng.NewIds (works.map Timed.work) → Each (fun before w => After began before w.now) works →
    After began works now → ∀ ruleId : String,
      (eng.run (works.map Timed.work)).repo.ruleIgnoredUntil (some ruleId) now =
        (restarted (eng.run (works.map Timed.work)).repo.db now).ruleIgnoredUntil (some ruleId)
          now := by
  intro h
  have hsame := h idle 0 3 ignoredTwice idle_orderly.split rfl
    ⟨by decide, fun id _ row hrow => by cases hrow⟩ (by
      rw [ignoredTwice, ignoredOnce, each_concat, each_concat, ← List.nil_append [_], each_concat]
      exact ⟨⟨⟨each_nil, by decide, by decide⟩, by decide, by decide⟩, by decide, by decide⟩)
    ⟨by decide, by decide⟩ "r"
  revert hsame
  decide +kernel

end Windows

end Engine

end SystemsManager.Alarms
