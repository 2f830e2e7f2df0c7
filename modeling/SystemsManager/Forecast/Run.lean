import Mathlib.Data.List.Sort
import SystemsManager.Concurrency.Raise
import SystemsManager.Forecast.Findings
import SystemsManager.Python.Dict

/-!
# A forecast run

`Forecast.run_once` and `Forecast.dismiss` of `backend/forecast.py`, as programs whose atomic
operations are the calls of the store, of the clock and of the alarm engine. A statement of the
store may raise, which ends the run or the request; `alert_post` and `alert_close` are answered by
the alarm engine, and their exceptions are caught. What the checks find and what Tower adds is the
input of a run. The history keeps what the claims about runs speak of: how the gates of an alert
were decided, which alerts were posted and closed, which open findings were resolved, and which were
reported as new. No program reads it.
-/

namespace SystemsManager.Forecast

open Concurrency Python

section World

/-- What happened, as far as it is observed. -/
inductive Event where
  /-- `_wants_alert(row)` was answered. -/
  | gate (row : Row) (passes : Bool)
  /-- The alarm engine has a new alert of a finding. -/
  | post (finding : String) (severity : String) (alert : String)
  /-- The alarm engine has closed an alert. -/
  | close (alert : String)
  /-- An open finding was cleared or dismissed. -/
  | resolve (finding : String)
  /-- A finding was reported: the run counts it as new. -/
  | news (fingerprint : String)
  deriving DecidableEq

/-- The event names the alert. -/
def Event.names (alert : String) : Event → Bool
  | .post _ _ a => a == alert
  | .close a => a == alert
  | _ => false

/-- The findings, the alert that was posted last until its id is stored, and the history. -/
structure World where
  findings : Findings
  inFlight : Option (String × String) := none
  log : List Event := []

/-- The settings that the gates of an alert read. -/
structure Settings where
  alerts : Bool
  alertMinSeverity : String

/-- `_wants_alert` -/
def wantsAlert (cfg : Settings) (row : Row) : Bool :=
  cfg.alerts && decide (rank cfg.alertMinSeverity ≤ rank row.severity) && row.confidence != "low" &&
    row.verified != "model"

/-- The order of `first_seen, id`; `NULL` comes first. -/
def Row.before (a b : Row) : Prop :=
  match a.firstSeen, b.firstSeen with
  | none, none => a.id ≤ b.id
  | none, some _ => True
  | some _, none => False
  | some x, some y => x < y ∨ x = y ∧ a.id ≤ b.id

instance : DecidableRel Row.before := fun a b => by
  unfold Row.before
  split <;> infer_instance

namespace World

/-- `Store.open` -/
def openRows (w : World) : List Row :=
  (w.findings.rows.filter fun row => row.status == .open).insertionSort Row.before

/-- `Store.unclosed` -/
def unclosed (w : World) : List Row :=
  (w.findings.rows.filter fun row =>
    (row.status == .cleared || row.status == .dismissed) &&
      row.alertId.isSome).insertionSort Row.before

/-- The columns resolve an open finding. -/
def resolves (row : Row) (cols : Cols) : Bool :=
  row.status == .open && (cols.status == some .cleared || cols.status == some .dismissed)

/-- The alert that the columns store on the finding. -/
def stored (fid : String) (cols : Cols) : Option (String × String) :=
  match cols.alertId with
  | some (some alert) => some (fid, alert)
  | _ => none

/-- `Store.set`: without columns, without such a row or with another status nothing is set. -/
def set (w : World) (fid : String) (only : List Status) (cols : Cols) : Bool × World :=
  match w.findings.get? fid with
  | none => (false, w)
  | some row =>
      if cols ≠ {} ∧ (only = [] ∨ row.status ∈ only) then
        (true,
          { findings := w.findings.modify fid cols.apply (fun _ => rfl) (fun _ => rfl)
            inFlight := if w.inFlight = stored fid cols then none else w.inFlight
            log := if resolves row cols then w.log ++ [.resolve fid] else w.log })
      else (false, w)

theorem fresh_fingerprint {w : World} {e : Entry} {uuid : String}
    (h : w.findings.find? e.finding.key = none) :
    (e.newRow uuid).fingerprint ∉ w.findings.rows.map Row.fingerprint := by
  intro hmem
  obtain ⟨row, hrow, hfp⟩ := List.mem_map.mp hmem
  exact Findings.find_eq_none.mp h row hrow hfp

/-- `Store.upsert`: the row with the fingerprint is updated, if `only` allows it, else a new one is
inserted. A taken id is an `IntegrityError`. -/
def upsert (w : World) (e : Entry) (only : List Status) (uuid : String) :
    Option (Option Row) × World :=
  match hfind : w.findings.find? e.finding.key with
  | some row =>
      if only = [] ∨ row.status ∈ only then
        (some (some (e.apply row)),
          { w with findings := w.findings.modify row.id e.apply (fun _ => rfl) (fun _ => rfl) })
      else (some none, w)
  | none =>
      if hid : uuid ∉ w.findings.rows.map Row.id then
        (some (some (e.newRow uuid)),
          { w with
            findings := w.findings.insert (e.newRow uuid) hid (fresh_fingerprint hfind) })
      else (none, w)

theorem set_cases (w : World) (fid : String) (only : List Status) (cols : Cols) :
    w.set fid only cols = (false, w) ∨
      ∃ row ∈ w.findings.rows, row.id = fid ∧ (only = [] ∨ row.status ∈ only) ∧
        ∃ t, w.findings.Changed t fid cols.apply ∧ w.set fid only cols = (true,
          { findings := t
            inFlight := if w.inFlight = stored fid cols then none else w.inFlight
            log := if resolves row cols then w.log ++ [.resolve fid] else w.log }) := by
  unfold set
  cases hget : w.findings.get? fid with
  | none => exact .inl rfl
  | some row =>
      obtain ⟨hmem, hid⟩ := Findings.get_eq_some.mp hget
      dsimp only
      split
      · rename_i hset
        exact .inr ⟨row, hmem, hid, hset.2, _, Findings.changed_modify, rfl⟩
      · exact .inl rfl

/-- What `upsert` does: it raises, or finds another status, or updates the row with the fingerprint,
or inserts a new one. -/
theorem upsert_cases (w : World) (e : Entry) (only : List Status) (uuid : String) :
    w.upsert e only uuid = (none, w) ∨
      (w.upsert e only uuid = (some none, w) ∧ ∃ row ∈ w.findings.rows,
        row.fingerprint = e.finding.key ∧ only ≠ [] ∧ row.status ∉ only) ∨
      (∃ row ∈ w.findings.rows, row.fingerprint = e.finding.key ∧ (only = [] ∨ row.status ∈ only) ∧
        ∃ t, w.findings.Changed t row.id e.apply ∧
          w.upsert e only uuid = (some (some (e.apply row)), { w with findings := t })) ∨
      (∀ row ∈ w.findings.rows, row.fingerprint ≠ e.finding.key) ∧
        ∃ t : Findings, (∀ row, row ∈ t.rows ↔ row ∈ w.findings.rows ∨ row = e.newRow uuid) ∧
          w.upsert e only uuid = (some (some (e.newRow uuid)), { w with findings := t }) := by
  unfold upsert
  split
  · rename_i row hfind
    obtain ⟨hrow, hfp⟩ := Findings.find_eq_some.mp hfind
    split
    · rename_i honly
      exact .inr (.inr (.inl ⟨row, hrow, hfp, honly, _, Findings.changed_modify, rfl⟩))
    · rename_i honly
      rw [not_or] at honly
      exact .inr (.inl ⟨rfl, row, hrow, hfp, honly.1, honly.2⟩)
  · rename_i hfind
    split
    · exact .inr (.inr (.inr ⟨Findings.find_eq_none.mp hfind, _, Findings.mem_insert, rfl⟩))
    · exact .inl rfl

end World

/-- Whether a statement raises. -/
inductive Db where
  | works
  | raises
  deriving DecidableEq

/-- The atomic operations. -/
inductive Op where
  | now
  | gate (row : Row)
  | find (fingerprint : String)
  | get (fid : String)
  | openRows
  | unclosed
  | upsert (entry : Entry) (only : List Status)
  | set (fid : String) (only : List Status) (cols : Cols)
  | sweep (days : ℕ) (now : ℚ)
  | post (row : Row)
  | close (alert : String)
  | count (fingerprint : String)

/-- What an operation returns; a statement that raises returns nothing. `alert_post` returns nothing
also where it raises, and then `alert_close` returns false. -/
abbrev Op.Res : Op → Type
  | .now => ℚ
  | .gate _ => Bool
  | .find _ => Option (Option Row)
  | .get _ => Option (Option Row)
  | .openRows => Option (List Row)
  | .unclosed => Option (List Row)
  | .upsert .. => Option (Option Row)
  | .set .. => Option Bool
  | .sweep .. => Option Unit
  | .post _ => Option String
  | .close _ => Bool
  | .count _ => Unit

/-- What the store does not determine: the clock, the settings, the database, a new id, and the
answers of the alarm engine. -/
abbrev Op.Ans : Op → Type
  | .now => ℚ
  | .gate _ => Settings
  | .find _ => Db
  | .get _ => Db
  | .openRows => Db
  | .unclosed => Db
  | .upsert .. => Db × String
  | .set .. => Db
  | .sweep .. => Db
  | .post _ => Option String
  | .close _ => Bool
  | .count _ => Unit

/-- A statement, unless it raises. -/
def statement {α : Type} (db : Db) (w : World) (run : World → Option α × World) :
    Option (Option α × World) :=
  match db with
  | .raises => some (none, w)
  | .works => some (run w)

/-- What the operations do. A new alert has an id that no alert had before. -/
def exec : (op : Op) → op.Ans → World → Option (op.Res × World)
  | .now, ts, w => some (ts, w)
  | .gate row, cfg, w =>
      some (wantsAlert cfg row, { w with log := w.log ++ [.gate row (wantsAlert cfg row)] })
  | .find fp, db, w => statement db w fun w => (some (w.findings.find? fp), w)
  | .get fid, db, w => statement db w fun w => (some (w.findings.get? fid), w)
  | .openRows, db, w => statement db w fun w => (some w.openRows, w)
  | .unclosed, db, w => statement db w fun w => (some w.unclosed, w)
  | .upsert entry only, (db, uuid), w => statement db w fun w => w.upsert entry only uuid
  | .set fid only cols, db, w =>
      statement db w fun w => (some (w.set fid only cols).1, (w.set fid only cols).2)
  | .sweep days now, db, w =>
      statement db w fun w => (some (), { w with findings := w.findings.sweep days now })
  | .post _, none, w => some (none, w)
  | .post row, some alert, w =>
      if alert ≠ "" ∧ ∀ e ∈ w.log, e.names alert = false then
        some (some alert, { w with
          inFlight := some (row.id, alert)
          log := w.log ++ [.post row.id row.severity alert] })
      else none
  | .close _, false, w => some (false, w)
  | .close alert, true, w => some (true, { w with log := w.log ++ [.close alert] })
  | .count fp, _, w => some ((), { w with log := w.log ++ [.news fp] })

end World

section Code

/-- The code of the forecast. -/
abbrev Code := Raising Op Op.Res

/-- A statement of the store. -/
def Code.get (fid : String) : Code (Option Row) := Prog.perform (Op.get fid)

@[inherit_doc Code.get] def Code.find (fp : String) : Code (Option Row) := Prog.perform (Op.find fp)

@[inherit_doc Code.get] def Code.openRows : Code (List Row) := Prog.perform Op.openRows

@[inherit_doc Code.get] def Code.unclosed : Code (List Row) := Prog.perform Op.unclosed

@[inherit_doc Code.get]
def Code.upsert (entry : Entry) (only : List Status) : Code (Option Row) :=
  Prog.perform (Op.upsert entry only)

@[inherit_doc Code.get]
def Code.set (fid : String) (only : List Status) (cols : Cols) : Code Bool :=
  Prog.perform (Op.set fid only cols)

@[inherit_doc Code.get]
def Code.sweep (days : ℕ) (now : ℚ) : Code Unit := Prog.perform (Op.sweep days now)

/-- A call of the clock. -/
def Code.now : Code ℚ := Raising.ask Op.now

/-- `_wants_alert` -/
def Code.gate (row : Row) : Code Bool := Raising.ask (Op.gate row)

/-- `alert_post` -/
def Code.post (row : Row) : Code (Option String) := Raising.ask (Op.post row)

/-- `alert_close` -/
def Code.close (alert : String) : Code Bool := Raising.ask (Op.close alert)

/-- The columns that forget an alert. -/
def forget : Cols := { alertId := some none, alertSeverity := some none }

/-- `_close_alert` -/
def closeAlert (row : Row) : Code Bool :=
  match row.alert with
  | none => pure true
  | some alert => Code.close alert

/-- `_bump_streak` -/
def bumpStreak (row : Row) : Code Row := do
  let done ← Code.set row.id [.open] { gateStreak := some (row.gateStreak + 1) }
  if done then pure { row with gateStreak := row.gateStreak + 1 } else pure row

/-- The columns of `_drop_alert`: the streak starts again, and a closed alert is forgotten. -/
def dropCols (row : Row) (closed : Bool) : Cols where
  gateStreak := if row.gateStreak = 0 then none else some 0
  alertId := if closed then some none else none
  alertSeverity := if closed then some none else none

/-- `_drop_alert` -/
def dropAlert (row : Row) : Code Row := do
  let closed ← (if row.alert.isSome then closeAlert row else pure false : Code Bool)
  if dropCols row closed = {} then pure row
  else do
    let done ← Code.set row.id [.open] (dropCols row closed)
    if done then do
      let now ← Code.get row.id
      pure (now.getD row)
    else pure row

/-- The columns of a finding whose alert was posted. -/
def raised (row : Row) (alert : String) (now : ℚ) : Cols where
  alertId := some (some alert)
  alertSeverity := some (some row.severity)
  lastReported := some (some now)

/-- The end of `_report`: the id of a posted alert is stored. -/
def recordAlert (row : Row) (alert : String) (reported : Bool) : Code (Row × Bool) := do
  let now ← Code.now
  let done ← Code.set row.id [.open] (raised row alert now)
  if done then do
    let stored ← Code.get row.id
    pure (stored.getD row, reported)
  else pure (row, reported)

/-- `_report`, from the post of the alert on. -/
def raiseAlert (row : Row) (reported : Bool) : Code (Row × Bool) := do
  let alert ← Code.post row
  match alert with
  | none => pure (row, reported)
  | some alert => recordAlert row alert reported

/-- `_report`, once the finding has passed the gates and that is counted. -/
def reportPassed (row : Row) (reported : Bool) : Code (Row × Bool) :=
  let streakOk := decide (REALERT_RUNS ≤ row.gateStreak)
  if row.alert.isSome then
    -- A rise above the severity the alert was posted at closes it and raises a new one.
    if rank row.severity ≤ rank (orText row.alertSeverity row.severity) then pure (row, reported)
    else do
      let closed ← closeAlert row
      if !closed then pure (row, reported)
      else do
        let done ← Code.set row.id [.open] forget
        if !done then pure (row, reported)
        else raiseAlert { row with alertId := none, alertSeverity := none } reported
  else if row.lastReported.isSome && !streakOk then pure (row, reported)
  else if !reported && !streakOk then pure (row, reported)
  else raiseAlert row reported

/-- `_report` -/
def report (row : Row) (reported : Bool) : Code (Row × Bool) :=
  if row.status ≠ .open then pure (row, reported)
  else do
    let passes ← Code.gate row
    if !passes then do
      let row ← dropAlert row
      pure (row, reported)
    else do
      let row ← bumpStreak row
      reportPassed row reported

/-- The columns of a finding that opens again: its alert is forgotten only once it is closed. -/
def reopened (closed : Bool) (cols : Cols) : Cols :=
  if closed then
    { cols with alertId := some none, alertSeverity := some none, lastReported := some none }
  else cols

/-- `merge`, after the row to write is made up. -/
def mergeInto (cur : Row) (entry : Entry) (reported : Bool) : Code (Row × Bool) := do
  let stored ← Code.upsert entry [cur.status]
  match stored with
  | some row => report row reported
  | none => do
      let found ← Code.find entry.finding.key
      pure (found.getD cur, false)

/-- `thread_id` is written when there is one, or when it is to be dropped. -/
def threadCols (threadId : Option String) (forgetThread : Bool) : Cols where
  threadId := if threadId.isSome || forgetThread then some threadId else none

/-- `merge` -/
def merge (finding : Finding) (verified : String) (threadId : Option String) (forgetThread : Bool) :
    Code (Row × Bool) := do
  let now ← Code.now
  let cur ← Code.find finding.key
  let cols := threadCols threadId forgetThread
  match cur with
  | none => do
      let stored ← Code.upsert
        ⟨finding, verified, now,
          { cols with status := some .open, firstSeen := some (some now) }⟩ []
      match stored with
      | some row => report row true
      | none => Raising.raised
  | some cur =>
      match cur.status with
      | .cleared => do
          let closed ← closeAlert cur
          mergeInto cur ⟨finding, verified, now, reopened closed
            { cols with status := some .open, firstSeen := some (some now), resolved := some none
                        gateStreak := some 0 }⟩ true
      | .dismissed =>
          if rank cur.severity < rank finding.level then do
            let closed ← closeAlert cur
            mergeInto cur ⟨finding, verified, now, reopened closed
              { cols with status := some .open, resolved := some none, gateStreak := some 0 }⟩ true
          else mergeInto cur ⟨finding, verified, now, cols⟩ false
      | .open =>
          mergeInto cur ⟨finding, verified, now, cols⟩
            (decide (rank cur.severity < rank finding.level) ||
              decide (bucket finding.predictedAt now < bucket cur.predictedAt now))

/-- `_resolve_alert` -/
def resolveAlert (row : Row) (statuses : List Status) : Code Unit :=
  if row.alert.isSome then do
    let closed ← closeAlert row
    if closed then do
      let _ ← Code.set row.id statuses forget
      pure ()
    else pure ()
  else pure ()

/-- `_clear_model_findings` -/
def clearModelFindings : Code Unit := do
  let now ← Code.now
  let rows ← Code.openRows
  Raising.fold (fun _ row =>
    if row.verified ≠ "model" then pure ()
    else do
      let _ ← Code.set row.id [.open] { status := some .cleared, resolved := some (some now) }
      pure ()) () rows

/-- `_clear_digests` -/
def clearDigests (keep week : Option String) : Code Unit := do
  let now ← Code.now
  let rows ← Code.openRows
  Raising.fold (fun _ row =>
    if row.checkId ≠ DIGEST_ID ∨ some row.fingerprint = keep then pure ()
    else if week.isSome ∧ some (orText row.subject "") = week then pure ()
    else do
      let done ← Code.set row.id [.open] { status := some .cleared, resolved := some (some now) }
      if done then resolveAlert row [.cleared] else pure ()) () rows

/-- The state of a check in a run. -/
inductive CheckState where
  | ok
  | collecting
  | failed
  | off
  deriving DecidableEq

/-- `_clear` -/
def clear (states : Dict String CheckState) (seen : Dict String (List String)) : Code Unit := do
  let now ← Code.now
  let rows ← Code.openRows
  Raising.fold (fun _ row =>
    if states.get? row.checkId ≠ some .ok then pure ()
    else if row.fingerprint ∈ seen.getD row.checkId [] then pure ()
    else if row.cleanRuns + 1 < CLEAN_RUNS then do
      let _ ← Code.set row.id [.open] { cleanRuns := some (row.cleanRuns + 1) }
      pure ()
    else do
      let done ← Code.set row.id [.open]
        { cleanRuns := some (row.cleanRuns + 1)
          status := some .cleared
          resolved := some (some now) }
      if done then resolveAlert row [.cleared] else pure ()) () rows

/-- `_retry_closes` -/
def retryCloses : Code Unit := do
  let rows ← Code.unclosed
  Raising.fold (fun _ row => do
    let closed ← closeAlert row
    if closed then do
      let _ ← Code.set row.id [.cleared, .dismissed] forget
      pure ()
    else pure ()) () rows

/-- What Tower says about the cause of a finding. -/
structure Cause where
  finding : String
  detail : Option String
  towerNote : Option String

/-- `_causes`, with the answer of Tower. -/
def causes (answer : List Cause) : Code Unit :=
  Raising.fold (fun _ cause =>
    match cause.detail with
    | some detail => do
        let _ ← Code.set cause.finding [.open]
          { detail := some detail, verified := some "tower+code", towerNote := some none }
        pure ()
    | none =>
        let note := orText cause.towerNote ""
        if note = "" then pure ()
        else do
          let _ ← Code.set cause.finding [.open]
            { towerNote := some (some (String.ofList (note.toList.take 40))) }
          pure ()) () answer

/-- How a check ends: it is switched off, it raises `Collecting` or something else, or it has found
what is merged, each finding with its label of verification. -/
inductive Outcome where
  | off
  | collecting
  | failed
  | ok (merged : List (Finding × String)) (threadId : Option String) (forgetThread : Bool)

/-- A check of the run. -/
structure CheckRun where
  id : String
  outcome : Outcome

/-- What a run is given: whether the effort of Tower keeps findings of its own, the week, the checks
up to the one before which the run was stopped, and what Tower says about causes. -/
structure RunInput where
  modelOnly : Bool
  week : String
  checks : List CheckRun
  causes : List Cause

/-- One finding of a check. -/
def mergeOne (threadId : Option String) (forgetThread : Bool) (fingerprints : List String)
    (item : Finding × String) : Code (List String) := do
  let result ← merge item.1 item.2 threadId forgetThread
  let stored := result.1
  let _ ← (if result.2 then Raising.ask (Op.count item.1.key) else pure () : Code Unit)
  let _ ← (if stored.status = .open ∧ stored.checkId = DIGEST_ID
    then clearDigests (some stored.fingerprint) none else pure () : Code Unit)
  pure (fingerprints ++ [stored.fingerprint])

/-- One check of the run. -/
def runCheck (acc : Dict String CheckState × Dict String (List String)) (check : CheckRun) :
    Code (Dict String CheckState × Dict String (List String)) :=
  match check.outcome with
  | .off => pure (acc.1.set check.id .off, acc.2)
  | .collecting => pure (acc.1.set check.id .collecting, acc.2)
  | .failed => pure (acc.1.set check.id .failed, acc.2)
  | .ok merged threadId forgetThread => do
      let fingerprints ← Raising.fold (mergeOne threadId forgetThread) [] merged
      pure (acc.1.set check.id .ok, acc.2.set check.id fingerprints)

/-- `run_once`, for what it does with findings and alerts; which checks run is its input. What it
does with the runs table and the turn of the digest is `Digest.runOnce` of `Forecast/Slots.lean`. -/
def runOnce (input : RunInput) : Code Unit := do
  let _ ← (if input.modelOnly then pure () else clearModelFindings : Code Unit)
  clearDigests none (some input.week)
  let acc ← Raising.fold runCheck (∅, ∅) input.checks
  clear acc.1 acc.2
  retryCloses
  causes input.causes
  let finished ← Code.now
  Code.sweep SWEEP_DAYS finished

/-- `dismiss` -/
def dismiss (fid user : String) : Code Bool := do
  let found ← Code.get fid
  match found with
  | none => pure false
  | some row =>
      if row.status ≠ .open then pure false
      else do
        let now ← Code.now
        let done ← Code.set fid [.open]
          { status := some .dismissed
            dismissedBy := some (some user)
            resolved := some (some now) }
        if !done then pure false
        else do
          resolveAlert row [.dismissed]
          pure true

end Code

section Machine

/-- The thread of the run, and those that serve the requests of operators. -/
inductive Thread where
  | runner
  | operator (n : ℕ)
  deriving DecidableEq

/-- What a thread may be asked to do. -/
inductive Request where
  | run (input : RunInput)
  | dismiss (fid user : String)

/-- The forecast: one run at a time, and any number of dismissals beside it. -/
def machine : Machine Thread Op Op.Res Op.Ans Request World where
  exec _ := exec
  start
    | .runner, .run input, _ => some (runOnce input).toThread
    | .operator _, .dismiss fid user, _ => some (dismiss fid user).toThread
    | _, _, _ => none

/-- Answers of the outside: the gates are open, and the alarm engine posts an alert. -/
def answers : (op : Op) → op.Ans
  | .now => 0
  | .gate _ => ⟨true, "warning"⟩
  | .find _ => .works
  | .get _ => .works
  | .openRows => .works
  | .unclosed => .works
  | .upsert .. => (.works, "f1")
  | .set .. => .works
  | .sweep .. => .works
  | .post _ => some "alert-1"
  | .close _ => true
  | .count _ => ()

/-- So many operations of a thread, with these answers. -/
def goOn (t : Thread) (n : ℕ) : List (Choice Thread Op.Ans Request) :=
  List.replicate n (.perform t answers)

/-- A disk that fills up. -/
def diskFinding (severity : String) : Finding where
  check := "disk_fill"
  severity := severity

/-- A run whose only check reports that disk. -/
def diskRun (severity : String) : RunInput where
  modelOnly := true
  week := ""
  checks := [⟨"disk_fill", .ok [(diskFinding severity, "code")] none false⟩]
  causes := []

end Machine

end SystemsManager.Forecast
