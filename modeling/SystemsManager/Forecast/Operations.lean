import SystemsManager.Forecast.Run

/-!
# What the parts of a run perform

The operations of each part of `run_once` and of `dismiss`, so that what all of them keep is kept by
the part. `Around` is for everything but the merges: a statement there sets no column of an alert on
an open finding and opens none. `Within` is for the merges as well. The theorems to read are
`clear_ops`, `dismiss_ops` and `merge_ops`.
-/

namespace SystemsManager.Forecast

open Concurrency

/-- The columns leave the alert of a finding, its streak and its report alone, and open nothing. -/
structure Cols.Resting (cols : Cols) : Prop where
  alertId : cols.alertId = none
  alertSeverity : cols.alertSeverity = none
  lastReported : cols.lastReported = none
  gateStreak : cols.gateStreak = none
  status : cols.status ≠ some .open

/-- What is performed around the merges. -/
structure Around (φ : Op → Prop) : Prop where
  now : φ .now
  get : ∀ fid, φ (.get fid)
  openRows : φ .openRows
  unclosed : φ .unclosed
  close : ∀ alert, φ (.close alert)
  set : ∀ fid cols, cols.Resting → φ (.set fid [.open] cols)
  forget : ∀ fid only, .open ∉ only → only ≠ [] → φ (.set fid only forget)
  sweep : ∀ days now, φ (.sweep days now)

/-- What is performed in a dismissal. -/
structure Dismissal (φ : Op → Prop) : Prop where
  now : φ .now
  get : ∀ fid, φ (.get fid)
  close : ∀ alert, φ (.close alert)
  set : ∀ fid cols, cols.Resting → φ (.set fid [.open] cols)
  forget : ∀ fid, φ (.set fid [.dismissed] forget)

/-- What is performed in the report of a finding. -/
structure Reporting (φ : Op → Prop) (fid : String) : Prop where
  now : φ .now
  get : φ (.get fid)
  close : ∀ alert, φ (.close alert)
  gate : ∀ row, row.id = fid → φ (.gate row)
  post : ∀ row, row.id = fid → φ (.post row)
  setOpen : ∀ cols, φ (.set fid [.open] cols)

/-- What is performed within the merge of a finding. -/
structure Within (φ : Op → Prop) (key : String) : Prop where
  reporting : ∀ fid, Reporting φ fid
  find : ∀ fp, φ (.find fp)
  upsert : ∀ e only, e.finding.key = key → φ (.upsert e only)

section Around

variable {φ : Op → Prop}

theorem set_ops {fid : String} {only : List Status} {cols : Cols} (h : φ (.set fid only cols)) :
    Prog.All φ (Code.set fid only cols) :=
  ⟨h, fun _ => trivial⟩

theorem close_alert_ops (h : ∀ alert, φ (.close alert)) (row : Row) :
    Prog.All φ (closeAlert row) := by
  unfold closeAlert
  split
  · trivial
  · exact ⟨h _, fun _ => trivial⟩

theorem resolve_alert_ops (h : ∀ alert, φ (.close alert)) (row : Row) {statuses : List Status}
    (hforget : φ (.set row.id statuses forget)) : Prog.All φ (resolveAlert row statuses) := by
  unfold resolveAlert
  split
  · refine Raising.all_bind (close_alert_ops h row) fun closed => ?_
    split
    · exact Raising.all_bind (set_ops hforget) fun _ => trivial
    · trivial
  · trivial

theorem clear_row_ops (h : Around φ) (row : Row) {cols : Cols} (hcols : cols.Resting) :
    Prog.All φ ((Code.set row.id [.open] cols).bind fun done =>
      if done then resolveAlert row [.cleared] else pure ()) := by
  refine Raising.all_bind (set_ops (h.set _ _ hcols)) fun done => ?_
  split
  · exact resolve_alert_ops h.close row (h.forget _ _ (by decide) (by decide))
  · trivial

/-- `_clear_model_findings` -/
theorem clear_model_findings_ops (h : Around φ) : Prog.All φ clearModelFindings := by
  refine Raising.all_bind ⟨h.now, fun _ => trivial⟩ fun now => ?_
  refine Raising.all_bind ⟨h.openRows, fun _ => trivial⟩ fun rows => ?_
  refine Raising.all_fold fun _ row _ => ?_
  split
  · trivial
  · exact Raising.all_bind (set_ops (h.set _ _ ⟨rfl, rfl, rfl, rfl, nofun⟩)) fun _ => trivial

theorem clear_digests_ops (h : Around φ) (keep week : Option String) :
    Prog.All φ (clearDigests keep week) := by
  refine Raising.all_bind ⟨h.now, fun _ => trivial⟩ fun now => ?_
  refine Raising.all_bind ⟨h.openRows, fun _ => trivial⟩ fun rows => ?_
  refine Raising.all_fold fun _ row _ => ?_
  split
  · trivial
  · split
    · trivial
    · exact clear_row_ops h row ⟨rfl, rfl, rfl, rfl, nofun⟩

theorem clear_ops (h : Around φ) (states : Python.Dict String CheckState)
    (seen : Python.Dict String (List String)) : Prog.All φ (clear states seen) := by
  refine Raising.all_bind ⟨h.now, fun _ => trivial⟩ fun now => ?_
  refine Raising.all_bind ⟨h.openRows, fun _ => trivial⟩ fun rows => ?_
  refine Raising.all_fold fun _ row _ => ?_
  split
  · trivial
  · split
    · trivial
    · split
      · exact Raising.all_bind (set_ops (h.set _ _ ⟨rfl, rfl, rfl, rfl, by rintro ⟨⟩⟩)) fun _ =>
          trivial
      · exact clear_row_ops h row ⟨rfl, rfl, rfl, rfl, by rintro ⟨⟩⟩

theorem retry_closes_ops (h : Around φ) : Prog.All φ retryCloses := by
  refine Raising.all_bind ⟨h.unclosed, fun _ => trivial⟩ fun rows => ?_
  refine Raising.all_fold fun _ row _ => ?_
  refine Raising.all_bind (close_alert_ops h.close row) fun closed => ?_
  split
  · exact Raising.all_bind (set_ops (h.forget _ _ (by decide) (by decide))) fun _ => trivial
  · trivial

theorem causes_ops (h : Around φ) (answer : List Cause) : Prog.All φ (causes answer) := by
  refine Raising.all_fold fun _ cause _ => ?_
  split
  · exact Raising.all_bind (set_ops (h.set _ _ ⟨rfl, rfl, rfl, rfl, nofun⟩)) fun _ => trivial
  · dsimp only
    split
    · trivial
    · exact Raising.all_bind (set_ops (h.set _ _ ⟨rfl, rfl, rfl, rfl, nofun⟩)) fun _ => trivial

theorem dismiss_ops (h : Dismissal φ) (fid user : String) : Prog.All φ (dismiss fid user) := by
  refine Raising.all_bind ⟨h.get fid, fun _ => trivial⟩ fun found => ?_
  split
  · trivial
  · split
    · trivial
    · refine Raising.all_bind ⟨h.now, fun _ => trivial⟩ fun now => ?_
      refine Raising.all_bind (set_ops (h.set _ _ ⟨rfl, rfl, rfl, rfl, nofun⟩)) fun done => ?_
      split
      · trivial
      · exact Raising.all_bind (resolve_alert_ops h.close _ (h.forget _)) fun _ => trivial

theorem Around.dismissal (h : Around φ) : Dismissal φ :=
  ⟨h.now, h.get, h.close, h.set, fun fid => h.forget fid _ (by decide) (by decide)⟩

end Around

section Within

variable {φ : Op → Prop} {key : String}

theorem drop_alert_ops (row : Row) (h : Reporting φ row.id) : Prog.All φ (dropAlert row) := by
  refine Raising.all_bind ?_ fun closed => ?_
  · split
    · exact close_alert_ops h.close row
    · trivial
  · split
    · trivial
    · refine Raising.all_bind (set_ops (h.setOpen _)) fun done => ?_
      split
      · exact Raising.all_bind ⟨h.get, fun _ => trivial⟩ fun _ => trivial
      · trivial

/-- `_report`, from the post of the alert on. -/
theorem raise_alert_ops (row : Row) (h : Reporting φ row.id) (reported : Bool) :
    Prog.All φ (raiseAlert row reported) := by
  refine Raising.all_bind ⟨h.post row rfl, fun _ => trivial⟩ fun alert => ?_
  split
  · trivial
  · refine Raising.all_bind ⟨h.now, fun _ => trivial⟩ fun now => ?_
    refine Raising.all_bind (set_ops (h.setOpen _)) fun done => ?_
    split
    · exact Raising.all_bind ⟨h.get, fun _ => trivial⟩ fun _ => trivial
    · trivial

/-- `_report`, once the gates are passed. -/
theorem report_passed_ops (row : Row) (h : Reporting φ row.id) (reported : Bool) :
    Prog.All φ (reportPassed row reported) := by
  unfold reportPassed
  dsimp only
  split
  · split
    · trivial
    · refine Raising.all_bind (close_alert_ops h.close row) fun closed => ?_
      split
      · trivial
      · refine Raising.all_bind (set_ops (h.setOpen _)) fun done => ?_
        split
        · trivial
        · exact raise_alert_ops { row with alertId := none, alertSeverity := none } h reported
  · split
    · trivial
    · split
      · trivial
      · exact raise_alert_ops row h reported

theorem report_ops (row : Row) (h : Reporting φ row.id) (reported : Bool) :
    Prog.All φ (report row reported) := by
  unfold report
  split
  · trivial
  · refine Raising.all_bind ⟨h.gate row rfl, fun _ => trivial⟩ fun passes => ?_
    split
    · exact Raising.all_bind (drop_alert_ops row h) fun _ => trivial
    · -- The row goes on under its id, so the two parts are taken together.
      rw [Raising.bind_eq, bumpStreak, Raising.bind_eq, Raising.bind_assoc]
      refine Raising.all_bind (set_ops (h.setOpen _)) fun done => ?_
      split
      · exact report_passed_ops { row with gateStreak := row.gateStreak + 1 } h reported
      · exact report_passed_ops row h reported

/-- `merge`, after the row to write is made up. -/
theorem merge_into_ops (h : Within φ key) (cur : Row) (e : Entry) (reported : Bool)
    (he : e.finding.key = key) : Prog.All φ (mergeInto cur e reported) := by
  refine Raising.all_bind ⟨h.upsert _ _ he, fun _ => trivial⟩ fun stored => ?_
  split
  · exact report_ops _ (h.reporting _) _
  · exact Raising.all_bind ⟨h.find _, fun _ => trivial⟩ fun _ => trivial

theorem merge_ops {finding : Finding} (h : Within φ finding.key) (verified : String)
    (threadId : Option String) (forgetThread : Bool) :
    Prog.All φ (merge finding verified threadId forgetThread) := by
  have hclose := (h.reporting "").close
  refine Raising.all_bind ⟨(h.reporting "").now, fun _ => trivial⟩ fun now => ?_
  refine Raising.all_bind ⟨h.find _, fun _ => trivial⟩ fun found => ?_
  dsimp only
  split
  · refine Raising.all_bind ⟨h.upsert _ _ rfl, fun _ => trivial⟩ fun stored => ?_
    split
    · exact report_ops _ (h.reporting _) _
    · trivial
  · split
    · exact Raising.all_bind (close_alert_ops hclose _) fun _ => merge_into_ops h _ _ _ rfl
    · split
      · exact Raising.all_bind (close_alert_ops hclose _) fun _ => merge_into_ops h _ _ _ rfl
      · exact merge_into_ops h _ _ _ rfl
    · exact merge_into_ops h _ _ _ rfl

end Within

end SystemsManager.Forecast
