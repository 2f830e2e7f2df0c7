import Mathlib.Algebra.Order.Ring.Rat
import Mathlib.Data.List.Nodup

/-!
# Forecast findings and their store

The table `forecast_findings` of `backend/forecast.py` and the statements that `Store` runs on it.
A row is a finding under its fingerprint; both the id and the fingerprint are unique, and `Findings`
carries that. What the rows are after a statement is said once, by `changed_modify`, `mem_insert`
and `mem_sweep`, and what a lookup finds by `get_eq_some` and `find_eq_some`.
-/

namespace SystemsManager.Forecast

/-- `DIGEST_ID` -/
def DIGEST_ID : String := "weekly_digest"

/-- `CLEAN_RUNS` -/
def CLEAN_RUNS : ℕ := 2

/-- `REALERT_RUNS` -/
def REALERT_RUNS : ℕ := 2

/-- `SWEEP_DAYS` -/
def SWEEP_DAYS : ℕ := 90

/-- `DAY` -/
def DAY : ℚ := 86400

/-- `BUCKETS` -/
def BUCKETS : List ℚ := [86400, 3 * 86400, 7 * 86400, 30 * 86400]

/-- `rank`: the place of a severity in `SEVERITIES`, zero for any other text. -/
def rank (severity : String) : ℕ :=
  if severity = "warning" then 1 else if severity = "critical" then 2 else 0

/-- `bucket` -/
def bucket (predictedAt : Option ℚ) (now : ℚ) : ℕ :=
  match predictedAt with
  | none => BUCKETS.length
  | some at_ => BUCKETS.findIdx fun edge => at_ - now < edge

/-- `a or b` of an optional text and a text. -/
def orText (text : Option String) (other : String) : String :=
  match text with
  | none => other
  | some text => if text = "" then other else text

/-- The column `status`. -/
inductive Status where
  | open
  | cleared
  | dismissed
  deriving DecidableEq, Repr

/-- What a check or Tower reports: the dictionary that `merge` gets. -/
structure Finding where
  fingerprint : Option String := none
  check : String
  host : Option String := none
  subject : Option String := none
  severity : String
  summary : String := ""
  detail : String := ""
  since : Option ℚ := none
  predictedAt : Option ℚ := none
  rate : Option ℚ := none
  unit : String := ""
  confidence : String := "medium"
  suggestedAction : String := ""
  graph : Option String := none
  towerNote : Option String := none
  deriving DecidableEq, Repr

/-- The fingerprint of a finding, made up of its check, host and subject where it brings none. -/
def Finding.key (f : Finding) : String :=
  orText f.fingerprint (f.check ++ "|" ++ orText f.host "-" ++ "|" ++ orText f.subject "-")

/-- `str(finding_row.get("severity") or "info")` -/
def Finding.level (f : Finding) : String := orText (some f.severity) "info"

/-- A row of `forecast_findings`. -/
structure Row where
  id : String
  fingerprint : String
  checkId : String
  host : Option String
  subject : Option String
  severity : String
  summary : String
  detail : String
  since : Option ℚ
  predictedAt : Option ℚ
  rate : Option ℚ
  unit : String
  confidence : String
  suggestedAction : String
  graph : Option String
  verified : String
  status : Status
  firstSeen : Option ℚ
  lastSeen : ℚ
  lastReported : Option ℚ
  cleanRuns : ℕ
  threadId : Option String
  alertId : Option String
  dismissedBy : Option String
  resolved : Option ℚ
  gateStreak : ℕ
  alertSeverity : Option String
  towerNote : Option String
  deriving DecidableEq, Repr

/-- The alert of a row, if `alert_id` is truthy. -/
def Row.alert (row : Row) : Option String := row.alertId.filter fun a => a != ""

/-- The columns that a statement sets beside those of a report; one that is absent stays. -/
structure Cols where
  detail : Option String := none
  verified : Option String := none
  status : Option Status := none
  firstSeen : Option (Option ℚ) := none
  lastReported : Option (Option ℚ) := none
  cleanRuns : Option ℕ := none
  threadId : Option (Option String) := none
  alertId : Option (Option String) := none
  dismissedBy : Option (Option String) := none
  resolved : Option (Option ℚ) := none
  gateStreak : Option ℕ := none
  alertSeverity : Option (Option String) := none
  towerNote : Option (Option String) := none
  deriving DecidableEq, Repr

/-- The row after its columns are set. -/
def Cols.apply (cols : Cols) (row : Row) : Row :=
  { row with
    detail := cols.detail.getD row.detail
    verified := cols.verified.getD row.verified
    status := cols.status.getD row.status
    firstSeen := cols.firstSeen.getD row.firstSeen
    lastReported := cols.lastReported.getD row.lastReported
    cleanRuns := cols.cleanRuns.getD row.cleanRuns
    threadId := cols.threadId.getD row.threadId
    alertId := cols.alertId.getD row.alertId
    dismissedBy := cols.dismissedBy.getD row.dismissedBy
    resolved := cols.resolved.getD row.resolved
    gateStreak := cols.gateStreak.getD row.gateStreak
    alertSeverity := cols.alertSeverity.getD row.alertSeverity
    towerNote := cols.towerNote.getD row.towerNote }

/-- The dictionary that `merge` hands to `upsert`: a report, and the columns it sets beside it. -/
structure Entry where
  finding : Finding
  verified : String
  lastSeen : ℚ
  cols : Cols := {}
  deriving DecidableEq, Repr

/-- The row after a report. -/
def Entry.apply (e : Entry) (row : Row) : Row :=
  e.cols.apply { row with
    checkId := e.finding.check
    host := e.finding.host
    subject := e.finding.subject
    severity := e.finding.level
    summary := e.finding.summary
    detail := e.finding.detail
    since := e.finding.since
    predictedAt := e.finding.predictedAt
    rate := e.finding.rate
    unit := e.finding.unit
    confidence := e.finding.confidence
    suggestedAction := e.finding.suggestedAction
    graph := e.finding.graph
    verified := e.verified
    lastSeen := e.lastSeen
    cleanRuns := 0
    towerNote := e.finding.towerNote }

/-- The row that `upsert` inserts: what the entry does not have is `None`, zero, or open. -/
def Entry.newRow (e : Entry) (id : String) : Row :=
  e.apply
    { id, fingerprint := e.finding.key, checkId := e.finding.check, host := none, subject := none,
      severity := e.finding.level, summary := "", detail := "", since := none, predictedAt := none,
      rate := none, unit := "", confidence := "", suggestedAction := "", graph := none,
      verified := e.verified, status := .open, firstSeen := none, lastSeen := e.lastSeen,
      lastReported := none, cleanRuns := 0, threadId := none, alertId := none, dismissedBy := none,
      resolved := none, gateStreak := 0, alertSeverity := none, towerNote := none }

/-- The table: ids are a primary key and fingerprints are unique. -/
structure Findings where
  rows : List Row
  ids : (rows.map Row.id).Nodup
  fingerprints : (rows.map Row.fingerprint).Nodup

namespace Findings

/-- `Store.get` -/
def get? (t : Findings) (fid : String) : Option Row := t.rows.find? fun row => row.id == fid

/-- `Store.find` -/
def find? (t : Findings) (fingerprint : String) : Option Row :=
  t.rows.find? fun row => row.fingerprint == fingerprint

theorem keys_modify {κ : Type} (key : Row → κ) {g : Row → Row} (hg : ∀ row, key (g row) = key row)
    (fid : String) (rows : List Row) :
    (rows.map fun row => if row.id = fid then g row else row).map key = rows.map key := by
  rw [List.map_map]
  apply List.map_congr_left
  intro row _
  simp only [Function.comp_apply]
  split
  · exact hg row
  · rfl

/-- `UPDATE ... WHERE id=?` -/
def modify (t : Findings) (fid : String) (g : Row → Row) (hid : ∀ row, (g row).id = row.id)
    (hfp : ∀ row, (g row).fingerprint = row.fingerprint) : Findings where
  rows := t.rows.map fun row => if row.id = fid then g row else row
  ids := by
    rw [keys_modify Row.id hid]
    exact t.ids
  fingerprints := by
    rw [keys_modify Row.fingerprint hfp]
    exact t.fingerprints

/-- `INSERT` of a row with a new id and a new fingerprint. -/
def insert (t : Findings) (row : Row) (hid : row.id ∉ t.rows.map Row.id)
    (hfp : row.fingerprint ∉ t.rows.map Row.fingerprint) : Findings where
  rows := t.rows ++ [row]
  ids := by
    rw [List.map_append, List.map_singleton]
    exact t.ids.append (List.nodup_singleton _) (by simpa using hid)
  fingerprints := by
    rw [List.map_append, List.map_singleton]
    exact t.fingerprints.append (List.nodup_singleton _) (by simpa using hfp)

/-- The row is resolved, and its time is before the cutoff. -/
def expired (cutoff : ℚ) (row : Row) : Bool :=
  (row.status == .cleared || row.status == .dismissed) &&
    decide (row.resolved.getD row.lastSeen < cutoff)

/-- `Store.sweep`, for its effect on the findings. -/
def sweep (t : Findings) (days : ℕ) (now : ℚ) : Findings where
  rows := t.rows.filter fun row => !expired (now - (max 1 days : ℕ) * DAY) row
  ids := t.ids.sublist (List.filter_sublist.map Row.id)
  fingerprints := t.fingerprints.sublist (List.filter_sublist.map Row.fingerprint)

variable {t : Findings} {row row' : Row} {fid fp : String}

theorem eq_of_id (h : row ∈ t.rows) (h' : row' ∈ t.rows) (hid : row.id = row'.id) : row = row' :=
  List.inj_on_of_nodup_map t.ids h h' hid

theorem eq_of_fingerprint (h : row ∈ t.rows) (h' : row' ∈ t.rows)
    (hfp : row.fingerprint = row'.fingerprint) : row = row' :=
  List.inj_on_of_nodup_map t.fingerprints h h' hfp

/-- A row is found under its id. -/
theorem get_eq_some : t.get? fid = some row ↔ row ∈ t.rows ∧ row.id = fid := by
  constructor
  · intro h
    exact ⟨List.mem_of_find?_eq_some h, by simpa using List.find?_some h⟩
  · rintro ⟨hmem, hid⟩
    have hsome : (t.get? fid).isSome := by
      rw [get?, List.find?_isSome]
      exact ⟨row, hmem, by simpa using hid⟩
    obtain ⟨found, hfound⟩ := Option.isSome_iff_exists.mp hsome
    have hid' : found.id = fid := by simpa using List.find?_some hfound
    rw [hfound, eq_of_id hmem (List.mem_of_find?_eq_some hfound) (hid.trans hid'.symm)]

theorem find_eq_some : t.find? fp = some row ↔ row ∈ t.rows ∧ row.fingerprint = fp := by
  constructor
  · intro h
    exact ⟨List.mem_of_find?_eq_some h, by simpa using List.find?_some h⟩
  · rintro ⟨hmem, hfp⟩
    have hsome : (t.find? fp).isSome := by
      rw [find?, List.find?_isSome]
      exact ⟨row, hmem, by simpa using hfp⟩
    obtain ⟨found, hfound⟩ := Option.isSome_iff_exists.mp hsome
    have hfp' : found.fingerprint = fp := by simpa using List.find?_some hfound
    rw [hfound, eq_of_fingerprint hmem (List.mem_of_find?_eq_some hfound) (hfp.trans hfp'.symm)]

theorem find_eq_none : t.find? fp = none ↔ ∀ row ∈ t.rows, row.fingerprint ≠ fp := by
  simp [find?, List.find?_eq_none]

/-- The rows are those of the table, with one of them changed. -/
def Changed (t t' : Findings) (fid : String) (g : Row → Row) : Prop :=
  ∀ row, row ∈ t'.rows ↔ ∃ old ∈ t.rows, row = if old.id = fid then g old else old

/-- The rows after an update. -/
theorem changed_modify {g : Row → Row} {hid : ∀ row, (g row).id = row.id}
    {hfp : ∀ row, (g row).fingerprint = row.fingerprint} :
    t.Changed (t.modify fid g hid hfp) fid g := by
  intro row
  simp only [modify, List.mem_map]
  constructor
  · rintro ⟨old, hold, rfl⟩
    exact ⟨old, hold, rfl⟩
  · rintro ⟨old, hold, rfl⟩
    exact ⟨old, hold, rfl⟩

theorem Changed.at {t' : Findings} {g : Row → Row} (h : t.Changed t' fid g) (hrow : row ∈ t.rows)
    (hid : row.id = fid) : g row ∈ t'.rows :=
  (h _).mpr ⟨row, hrow, by rw [if_pos hid]⟩

theorem Changed.apart {t' : Findings} {g : Row → Row} (h : t.Changed t' fid g)
    (hrow : row ∈ t.rows) (hid : row.id ≠ fid) : row ∈ t'.rows :=
  (h _).mpr ⟨row, hrow, by rw [if_neg hid]⟩

theorem Changed.cases {t' : Findings} {g : Row → Row} (h : t.Changed t' fid g)
    (hrow : row ∈ t'.rows) :
    (∃ old ∈ t.rows, old.id = fid ∧ row = g old) ∨ row ∈ t.rows ∧ row.id ≠ fid := by
  obtain ⟨old, hold, rfl⟩ := (h row).mp hrow
  by_cases hid : old.id = fid
  · rw [if_pos hid]
    exact .inl ⟨old, hold, hid, rfl⟩
  · rw [if_neg hid]
    exact .inr ⟨hold, hid⟩

/-- The rows after an insertion. -/
theorem mem_insert {hid : row'.id ∉ t.rows.map Row.id}
    {hfp : row'.fingerprint ∉ t.rows.map Row.fingerprint} (row : Row) :
    row ∈ (t.insert row' hid hfp).rows ↔ row ∈ t.rows ∨ row = row' := by
  simp [insert]

theorem mem_sweep {days : ℕ} {now : ℚ} : row ∈ (t.sweep days now).rows ↔
    row ∈ t.rows ∧ expired (now - (max 1 days : ℕ) * DAY) row = false := by
  simp [sweep]

end Findings

end SystemsManager.Forecast
