import SystemsManager.Concurrency.System
import SystemsManager.Jobs.Service

/-!
# The running service

The shared state of the service, what each operation does to it, and who may call what: the
dispatcher runs `tick` and `recover`, request threads call the public functions, and a worker
thread runs the handler it was launched with. `Sys.log` records the events that the properties
of runs speak about.
-/

namespace SystemsManager.Jobs

open Python Concurrency

/-- The life of a worker thread. -/
inductive Phase where
  | none
  | created (row : Row)
  | started (row : Row)
  | running (row : Row)
  | dead (outcome : Outcome)

/-- `t.is_alive()` -/
def Phase.alive : Phase → Bool
  | .started _ => true
  | .running _ => true
  | _ => false

/-- The outcome in the box of a thread that has ended. -/
def Phase.box : Phase → Option Outcome
  | .dead outcome => some outcome
  | _ => .none

/-- What the history of a run records, with the thread that did it. -/
inductive Event (W : World) where
  /-- `_start_due` has claimed the job. -/
  | claimed (id : String)
  /-- `_launch` has registered a new cancel event for the job. -/
  | registered (id : String) (ref : Ref)
  /-- The handler has been invoked with the row. -/
  | entered (row : Row)
  /-- `_start_due` has read the job again after launching it. -/
  | reread (id : String)
  /-- The job has passed from a live to a terminal status, with this row. -/
  | ended (row : Row)
  /-- A hook has been invoked with the row, while the ledger had this status for the job. -/
  | hooked (name : Hook) (row : Row) (stored : Option Status)
  /-- A call of `cancel` has returned the row of the job. -/
  | returned (id : String)
  /-- A job has been inserted. -/
  | submitted (row : Row)
  /-- The outside has been called and has answered. -/
  | ext (e : W.Ext) (reply : W.Reply e)

variable {W : World}

variable (W) in
/-- The shared state. -/
structure Sys where
  rows : Ledger
  /-- All ids that were ever in the ledger, newest first: a `uuid4` is none of them. -/
  ids : List String
  cancelOf : Dict String Ref
  flag : Ref → Bool
  workers : Dict String Ref
  phase : Ref → Phase
  nextRef : Ref
  lastSweep : ℚ
  log : List (Tid × Event W)

namespace Sys

/-- The state of a service that has just been created over a ledger. -/
def boot (rows : Ledger) : Sys W where
  rows := rows
  ids := rows.keys.reverse
  cancelOf := ∅
  flag := fun _ => false
  workers := ∅
  phase := fun _ => .none
  nextRef := 0
  lastSweep := 0
  log := []

variable (s : Sys W)

/-- The status of a job, if the ledger has it. -/
def status (id : String) : Option Status := (s.rows.get? id).map Row.status

/-- Add an event to the history. -/
def note (t : Tid) (e : Event W) : Sys W := { s with log := s.log ++ [(t, e)] }

/-- `UPDATE` of a row, which never sets its id; note when that ends the job. -/
def write (t : Tid) (r r' : Row) : Sys W :=
  let r' := { r' with id := r.id }
  let s := { s with rows := s.rows.set r.id r' }
  if !r.status.terminal && r'.status.terminal then s.note t (.ended r') else s

/-- What an `UPDATE` by the thread does. -/
def update (t : Tid) (site : Write) (id : String) (only : Option (List Status))
    (set : Row → Row) : Bool × Sys W :=
  match s.rows.matching id only with
  | none => (false, s)
  | some r =>
      let s := s.write t r (set r)
      (true, if site = .claim then s.note t (.claimed id) else s)

/-- The section of `_reap` under the lock: the threads that have ended. -/
def reaped : List (String × Option Outcome) :=
  (s.workers.items.filter fun (_, ref) => !(s.phase ref).alive).map fun (id, ref) =>
    (id, (s.phase ref).box)

end Sys

/-- What the operations do. -/
def exec (t : Tid) : (op : Op W) → Ans W op → Sys W → Option (Res W op × Sys W)
  | .now, time, s => some (time, s)
  | .workers, n, s => some (n, s)
  | .historyDays, n, s => some (n, s)
  | .get .other id, _, s => some (s.rows.get? id, s)
  | .get .after id, _, s => some (s.rows.get? id, s.note t (.reread id))
  | .running, _, s => some (s.rows.running, s)
  | .due now, _, s => some (s.rows.due now, s)
  | .update site id only set, _, s => some (s.update t site id only set)
  | .insert row, id, s =>
      if id ∈ s.ids then none
      else
        let row := { row with id := id }
        some (row, { s with rows := s.rows.set id row, ids := id :: s.ids }.note t (.submitted row))
  | .sweep cutoff, _, s => some ((), { s with rows := s.rows.sweep cutoff })
  | .sweepDue now, _, s =>
      if now - s.lastSweep ≥ SWEEP_EVERY_S then some (true, { s with lastSweep := now })
      else some (false, s)
  | .cancelRow id now message, _, s =>
      match s.rows.matching id (some LIVE) with
      | none => some (none, s)
      | some r => some (some r, s.write t r (cancelledRow now message r))
  | .ackRow id now, _, s =>
      match s.rows.matching id (some [.failed]) with
      | none => some (none, s)
      | some r =>
          if r.acked then some (none, s)
          else some (some r, s.write t r { r with ackedAt := some now })
  | .setState id state, _, s =>
      match s.rows.matching id (some LIVE) with
      | none => some (false, s)
      | some r => some (true, s.write t r { r with state := state })
  | .annotate id message, _, s =>
      match s.rows.matching id (some [.cancelled, .failed, .done]) with
      | none => some (false, s)
      | some r => some (true, s.write t r { r with message := message })
  | .workerIds, _, s => some (s.workers.keys, s)
  | .register id, _, s =>
      some (s.nextRef, { s with
        cancelOf := s.cancelOf.set id s.nextRef
        nextRef := s.nextRef + 1 }.note t (.registered id s.nextRef))
  | .putWorker id ref row, _, s =>
      some ((), { s with
        workers := s.workers.set id ref
        phase := Function.update s.phase ref (.created row) })
  | .startThread ref, _, s =>
      match s.phase ref with
      | .created row => some ((), { s with phase := Function.update s.phase ref (.started row) })
      | _ => none
  | .reapDead, _, s =>
      some (s.reaped, { s with workers := s.workers.filter fun _ ref => (s.phase ref).alive })
  | .lookup id, _, s => some (s.cancelOf.get? id, s)
  | .setFlag ref, _, s => some ((), { s with flag := Function.update s.flag ref true })
  | .isSet ref, _, s => some (s.flag ref, s)
  | .forget id, _, s => some ((), { s with cancelOf := s.cancelOf.erase id })
  | .enter ref row, _, s =>
      some ((), { s with phase := Function.update s.phase ref (.running row) }.note t
        (.entered row))
  | .leave ref outcome, _, s =>
      some ((), { s with phase := Function.update s.phase ref (.dead outcome) })
  | .hook name row, _, s => some ((), s.note t (.hooked name row (s.status row.id)))
  | .alert _, _, s => some ((), s)
  | .audit _, _, s => some ((), s)
  | .returned id, _, s => some ((), s.note t (.returned id))
  | .ext e, reply, s => some (reply, s.note t (.ext e reply))
  | .rounds, n, s => some (n, s)
  | .never, _, _ => none

/-- The calls that threads make. -/
inductive Call where
  | tick
  | recover
  | submit (sub : Submission)
  | cancel (id actor message : String)
  | ack (id actor : String)
  | setState (id : String) (state : Object)
  | annotate (id message : String)
  | work

/-- The code of a call, where the thread may make it. -/
def start (svc : Service W) (permits : Call → Bool) (t : Tid) (call : Call) (s : Sys W) :
    Option (Code W Unit) :=
  if !permits call then none
  else match t, call with
    | .dispatcher, .tick => some svc.tick
    | .dispatcher, .recover => some svc.recover
    | .request _, .submit sub => some (do let _ ← svc.submit sub)
    | .request _, .cancel id actor message => some (do let _ ← svc.cancel id actor message)
    | .request _, .ack id actor => some (do let _ ← Service.ack id actor)
    | .request _, .setState id state => some (Code.act (.setState id state))
    | .request _, .annotate id message => some (Code.act (.annotate id message))
    | .worker ref, .work =>
        match s.phase ref with
        | .started row => (svc.kinds row.kind).map fun k => Service.work k row ref
        | _ => none
    | _, _ => none

/-- The service as a system of threads, of which only the permitted calls are made. -/
def machine (svc : Service W) (permits : Call → Bool) :
    Machine Tid (Op W) (Res W) (Ans W) Call (Sys W) where
  exec := exec
  start := start svc permits

end SystemsManager.Jobs
