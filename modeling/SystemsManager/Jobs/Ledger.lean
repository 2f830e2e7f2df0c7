import SystemsManager.Python.Dict
import SystemsManager.Python.Value

/-!
# The job ledger

The rows of the `jobs` table and what the statements of `Store` do to them
(`backend/jobs.py`, lines 14 to 100 and 113 to 213). Every `UPDATE` of the service is
`Ledger.matching` followed by a change of the matched row, and `outcomeRow` is the change that
`_apply` makes for an outcome that does not fail for good.
-/

namespace SystemsManager.Jobs

open Python

/-- A JSON object. -/
abbrev Object := List (String × Json)

/-- `STATUSES` -/
inductive Status where
  | queued
  | running
  | done
  | failed
  | cancelled
  deriving DecidableEq, Repr

/-- `LIVE` -/
def LIVE : List Status := [.queued, .running]

/-- The job is over. -/
def Status.terminal : Status → Bool
  | .queued => false
  | .running => false
  | .done => true
  | .failed => true
  | .cancelled => true

/-- `SOURCES` -/
inductive Source where
  | tower
  | ui
  | api
  | system
  deriving DecidableEq, Repr

/-- The name of a source. -/
def Source.name : Source → String
  | .tower => "tower"
  | .ui => "ui"
  | .api => "api"
  | .system => "system"

/-- `LEASE_S` -/
def LEASE_S : ℚ := 30

/-- `SWEEP_EVERY_S` -/
def SWEEP_EVERY_S : ℚ := 86400

/-- `CANCELLED` -/
def CANCELLED : String := "cancelled by the operator"

/-- `RESTARTED` -/
def RESTARTED : String := "manager restarted"

/-- `TIMED_OUT` -/
def TIMED_OUT : String := "timed out"

/-- A row of the table. -/
structure Row where
  id : String
  kind : String
  label : String
  user : String
  role : String
  source : Source
  spec : Object
  state : Object
  status : Status
  notBefore : ℚ
  periodS : Option ℚ
  runsLeft : Option Int
  nextRun : Option ℚ
  lastRun : Option ℚ
  started : Option ℚ
  runCount : Nat
  attempts : Nat
  lease : Option ℚ
  exclusive : List String
  result : Json
  message : String
  threadId : Option String
  created : ℚ
  resolved : Option ℚ
  ackedAt : Option ℚ

/-- The verb of an outcome. -/
inductive Verb where
  | ok
  | again
  | finish
  | fail
  deriving DecidableEq, Repr

/-- `Outcome` -/
structure Outcome where
  verb : Verb
  state : Option Object
  result : Json
  message : Option String
  nextIn : Option ℚ
  retryIn : Option ℚ
  alert : Bool

/-- `again` -/
def again (nextIn : ℚ) (state : Option Object) (message : Option String) : Outcome where
  verb := .again
  state := state
  result := .null
  message := message
  nextIn := some nextIn
  retryIn := none
  alert := true

/-- `finish` -/
def finish (result : Json) (message : String) (state : Option Object) : Outcome where
  verb := .finish
  state := state
  result := result
  message := some message
  nextIn := none
  retryIn := none
  alert := true

/-- `fail` -/
def fail (message : String) (retryIn : Option ℚ) (alert : Bool) : Outcome where
  verb := .fail
  state := none
  result := .null
  message := some message
  nextIn := none
  retryIn := retryIn
  alert := alert

/-- The rows by id. -/
abbrev Ledger := Dict String Row

namespace Ledger

/-- The row that `UPDATE ... WHERE id=? AND status IN (...)` changes, if any. -/
def matching (rows : Ledger) (id : String) (only : Option (List Status)) : Option Row :=
  (rows.get? id).filter fun r => match only with
    | some only => only.contains r.status
    | none => true

/-- The rows in insertion order. -/
def values (rows : Ledger) : List Row := rows.items.map Prod.snd

/-- `due`: `ORDER BY next_run, created`. -/
def due (rows : Ledger) (now : ℚ) : List Row :=
  sortedBy (fun r => r.nextRun.getD 0) (sortedBy Row.created (rows.values.filter fun r =>
    r.status == .queued && match r.nextRun with
      | some nextRun => decide (nextRun ≤ now)
      | none => false))

/-- `running`: `ORDER BY started`, where `NULL` comes first. -/
def running (rows : Ledger) : List Row :=
  sortedBy (fun r => r.started.isSome) (sortedBy (fun r => r.started.getD 0)
    (rows.values.filter fun r => r.status == .running))

/-- `sweep`: forget what ended before the cutoff. -/
def sweep (rows : Ledger) (cutoff : ℚ) : Ledger :=
  rows.filter fun _ r => !(r.status.terminal && match r.resolved with
    | some resolved => decide (resolved < cutoff)
    | none => false)

end Ledger

/-- A truthy `acked_at`. -/
def Row.acked (row : Row) : Bool :=
  match row.ackedAt with
  | some time => time != 0
  | none => false

/-- A truthy message. -/
def text? (message : Option String) : Option String := message.filter fun m => m != ""

/-- `row["period_s"] and (left is None or left > 1)`: the job comes up again by itself. -/
def Row.repeats (row : Row) : Bool :=
  (match row.periodS with
    | some period => period != 0
    | none => false) &&
  match row.runsLeft with
    | some left => decide (left > 1)
    | none => true

/-- The status that an outcome leads to, for the row that `_apply` read. A failure leads back
to the queue only with a `retry_in`. -/
def Outcome.leadsTo (o : Outcome) (row : Row) : Status :=
  match o.verb with
  | .ok => if row.repeats then .queued else .done
  | .again => .queued
  | .finish => .done
  | .fail => if o.retryIn.isSome then .queued else .failed

/-- `max(float(row["last_run"] or now) + float(row["period_s"]), now)` -/
def Row.nextPeriod (row : Row) (now : ℚ) : ℚ :=
  let last := match row.lastRun with
    | some last => if last = 0 then now else last
    | none => now
  max (last + row.periodS.getD 0) now

/-- The columns that `_apply` sets for an outcome, given the row it read, unless the outcome is
a failure without retry. -/
def outcomeRow (row : Row) (o : Outcome) (now : ℚ) (r : Row) : Row :=
  let r := { r with
    lease := none
    started := none
    state := o.state.getD r.state
    message := (text? o.message).getD r.message }
  match o.verb with
  | .ok =>
      if row.repeats then
        { r with
          runCount := row.runCount + 1
          status := .queued
          nextRun := some (row.nextPeriod now)
          runsLeft := row.runsLeft.map fun left => left - 1 }
      else
        { r with
          runCount := row.runCount + 1
          status := .done
          resolved := some now
          result := o.result
          nextRun := none }
  | .again =>
      { r with
        status := .queued
        nextRun := some (now + o.nextIn.getD 0)
        runCount := row.runCount + 1 }
  | .finish =>
      { r with
        status := .done
        resolved := some now
        result := o.result
        nextRun := none
        runCount := row.runCount + 1 }
  | .fail =>
      { r with
        attempts := row.attempts + 1
        status := .queued
        nextRun := some (now + o.retryIn.getD 0) }

/-- The columns that `_resolve_failed` sets. -/
def failedRow (row : Row) (message : String) (now : ℚ) (attempts : Option Nat) (r : Row) : Row :=
  { r with
    status := .failed
    resolved := some now
    message := message
    nextRun := none
    lease := none
    started := none
    attempts := attempts.getD r.attempts
    state := row.state }

/-- The columns with which `_start_due` claims a row. -/
def claimedRow (now : ℚ) (r : Row) : Row :=
  { r with
    status := .running
    started := some now
    lastRun := some now
    lease := some (now + LEASE_S)
    message := "running" }

/-- The columns that `cancel` sets. -/
def cancelledRow (now : ℚ) (message : String) (r : Row) : Row :=
  { r with
    status := .cancelled
    resolved := some now
    message := message
    nextRun := none
    lease := none }

/-- The columns with which `recover` puts a row back into the queue. -/
def requeuedRow (now : ℚ) (r : Row) : Row :=
  { r with
    status := .queued
    nextRun := some now
    started := none
    lease := none
    message := RESTARTED }

end SystemsManager.Jobs
