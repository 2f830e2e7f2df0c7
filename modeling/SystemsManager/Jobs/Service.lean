import SystemsManager.Concurrency.Prog
import SystemsManager.Jobs.Ledger

/-!
# The job service

`Service` of `backend/jobs.py` as programs of atomic operations: a statement of the store, a
section under one of the two locks, setting or reading an event, starting a thread, calling a
hook. What lies between two operations is not atomic, so that other threads may run there.

The state `Sys` holds the ledger, the registry of cancel events, the worker table and the
worker threads. Its `log` is a history variable: it records what properties of runs speak
about and nothing reads it. Handlers and hooks are programs of the kind; they may call
anything outside the service (`World.Ext`), read their cancel event and write through
`set_state` and `annotate`.
-/

namespace SystemsManager.Jobs

open Python Concurrency

/-- What handlers and hooks call outside the service, and the answers they get. -/
structure World where
  Ext : Type
  Reply : Ext → Type

/-- A cancel event and the thread that was launched with it. -/
abbrev Ref := Nat

/-- The threads: one dispatcher, request threads and one worker thread per launch. -/
inductive Tid where
  | dispatcher
  | request (n : Nat)
  | worker (ref : Ref)
  deriving DecidableEq

/-- Where a row is read: the re-read at the end of the loop body of `_start_due`, or anywhere
else. -/
inductive Read where
  | after
  | other
  deriving DecidableEq

/-- Which `UPDATE` of the service writes. -/
inductive Write where
  | claim
  | waiting
  | outcome (status : Status)
  | failed
  | lease
  | requeue
  deriving DecidableEq

/-- The hooks of a kind. -/
inductive Hook where
  | onFinish
  | onCancel
  deriving DecidableEq

/-- What `_alert` is called with. -/
structure Alert where
  name : String
  metric : String
  value : Nat
  message : String

/-- What `_audit` is called with. -/
structure Audit where
  action : String
  actor : String
  target : String
  ok : Bool
  jobId : String
  kind : String
  source : Source
  user : String
  message : Option String

variable (W : World)

/-- The atomic operations. -/
inductive Op where
  /-- `self._now()` -/
  | now
  /-- The configured `workers`, zero when missing. -/
  | workers
  /-- The configured `history_days`, zero when missing. -/
  | historyDays
  | get (site : Read) (id : String)
  | running
  | due (now : ℚ)
  | update (site : Write) (id : String) (only : Option (List Status)) (set : Row → Row)
  /-- `insert` of a row under a new `uuid4`. -/
  | insert (row : Row)
  | sweep (cutoff : ℚ)
  /-- `now - self._last_sweep >= SWEEP_EVERY_S`, and `self._last_sweep = now` if so. -/
  | sweepDue (now : ℚ)
  /-- The section of `cancel` under the store's lock. -/
  | cancelRow (id : String) (now : ℚ) (message : String)
  /-- The section of `ack` under the store's lock. -/
  | ackRow (id : String) (now : ℚ)
  | setState (id : String) (state : Object)
  | annotate (id : String) (message : String)
  /-- `list(self._workers)` -/
  | workerIds
  /-- A new event, put into `self._cancel`. -/
  | register (id : String)
  /-- A new thread, put into `self._workers`. -/
  | putWorker (id : String) (ref : Ref) (row : Row)
  /-- `t.start()` -/
  | startThread (ref : Ref)
  /-- The section of `_reap` under the service's lock. -/
  | reapDead
  /-- `self._cancel.get(job_id)` -/
  | lookup (id : String)
  /-- `ev.set()` -/
  | setFlag (ref : Ref)
  /-- `ev.is_set()` -/
  | isSet (ref : Ref)
  | forget (id : String)
  /-- The handler is invoked. -/
  | enter (ref : Ref) (row : Row)
  /-- The handler has returned and its outcome is in the box. -/
  | leave (ref : Ref) (outcome : Outcome)
  /-- A hook is invoked. -/
  | hook (name : Hook) (row : Row)
  | alert (payload : Alert)
  | audit (payload : Audit)
  /-- `cancel` returns the row to its caller. -/
  | returned (id : String)
  | ext (e : W.Ext)
  /-- How often a `while` loop goes round at most. -/
  | rounds
  /-- Blocks for ever: a loop that has used up its rounds. -/
  | never

/-- The answers of the operations. -/
abbrev Res : Op W → Type
  | .now => ℚ
  | .workers => Int
  | .historyDays => Int
  | .get _ _ => Option Row
  | .running => List Row
  | .due _ => List Row
  | .update _ _ _ _ => Bool
  | .insert _ => Row
  | .sweep _ => Unit
  | .sweepDue _ => Bool
  | .cancelRow _ _ _ => Option Row
  | .ackRow _ _ => Option Row
  | .setState _ _ => Bool
  | .annotate _ _ => Bool
  | .workerIds => List String
  | .register _ => Ref
  | .putWorker _ _ _ => Unit
  | .startThread _ => Unit
  | .reapDead => List (String × Option Outcome)
  | .lookup _ => Option Ref
  | .setFlag _ => Unit
  | .isSet _ => Bool
  | .forget _ => Unit
  | .enter _ _ => Unit
  | .leave _ _ => Unit
  | .hook _ _ => Unit
  | .alert _ => Unit
  | .audit _ => Unit
  | .returned _ => Unit
  | .ext e => W.Reply e
  | .rounds => Nat
  | .never => Empty

/-- What the state does not determine: the clock, the configuration, new ids, the number of
rounds and the answers of the outside. -/
abbrev Ans : Op W → Type
  | .now => ℚ
  | .workers => Int
  | .historyDays => Int
  | .insert _ => String
  | .ext e => W.Reply e
  | .rounds => Nat
  | _ => Unit

/-- Code of the service, of a handler or of a hook. -/
abbrev Code (α : Type) := Prog (Op W) (Res W) α

variable {W}

/-- The operations that handlers and hooks perform themselves. -/
def Op.ofHandler : Op W → Bool
  | .now => true
  | .get .other _ => true
  | .setState _ _ => true
  | .annotate _ _ => true
  | .isSet _ => true
  | .ext _ => true
  | .rounds => true
  | .never => true
  | _ => false

/-- A kind's `resume` policy. -/
inductive Resume where
  | requeue
  | fail
  deriving DecidableEq

variable (W) in
/-- `Kind`. A handler that raises gives the name of the exception's type. -/
structure Kind where
  name : String
  title : String
  run : Row → Ref → Code W (Except String Outcome)
  validate : Option (Object → String → String → Except String Object)
  label : Option (Object → String)
  exclusive : Option (Object → List String)
  onFinish : Option (Row → Code W Unit)
  onCancel : Option (Row → Code W Unit)
  resume : Resume
  maxRunS : Object → ℚ
  run_ops : ∀ row ref, (run row ref).All fun op => op.ofHandler = true
  on_finish_ops : ∀ f ∈ onFinish, ∀ row, (f row).All fun op => op.ofHandler = true
  on_cancel_ops : ∀ f ∈ onCancel, ∀ row, (f row).All fun op => op.ofHandler = true

/-- `limit_s` -/
def Kind.limitS (k : Kind W) (spec : Object) : ℚ :=
  if k.maxRunS spec = 0 then 3600 else k.maxRunS spec

/-- The hook of a kind, if it has one. -/
def Kind.hook (k : Kind W) : Hook → Option (Row → Code W Unit)
  | .onFinish => k.onFinish
  | .onCancel => k.onCancel

variable (W) in
/-- The registered kinds, and whether handlers run in the dispatcher's thread. -/
structure Service where
  kinds : String → Option (Kind W)
  inline : Bool

/-- The arguments of `submit`. -/
structure Submission where
  kind : String
  spec : Object
  user : String
  role : String
  source : Source
  label : Option String
  notBefore : Option ℚ
  periodS : Option ℚ
  runsLeft : Option Int
  threadId : Option String

namespace Code

/-- One operation. -/
def ask (op : Op W) : Code W (Res W op) := Prog.perform op

/-- One operation whose answer is dropped. -/
def act (op : Op W) : Code W Unit := .call op fun _ => .ret ()

/-- `self._now()` -/
def now : Code W ℚ := ask .now

/-- `self._store.get(job_id)` -/
def get (id : String) : Code W (Option Row) := ask (.get .other id)

/-- `self._store.update(job_id, only=only, **fields)` -/
def update (site : Write) (id : String) (only : List Status) (set : Row → Row) : Code W Bool :=
  ask (.update site id (some only) set)

end Code

namespace Service

variable (svc : Service W)

/-- `_hook` -/
def callHook (k : Option (Kind W)) (name : Hook) (row : Row) : Code W Unit :=
  match k.bind fun k => k.hook name with
  | none => pure ()
  | some f => do
      Code.act (.hook name row)
      f row

/-- `_log` -/
def log (action : String) (row : Row) (ok : Bool) (actor : String) (message : Option String) :
    Code W Unit :=
  Code.act (.audit
    { action, actor, target := if row.label = "" then row.id else row.label, ok, jobId := row.id
      kind := row.kind, source := row.source, user := row.user, message })

/-- `_signal` -/
def signal (id : String) : Code W Unit := do
  let ev : Option Ref ← Code.ask (.lookup id)
  match ev with
  | some ref => Code.act (.setFlag ref)
  | none => pure ()

/-- The first of two texts that is not empty. -/
def orElse (a b : String) : String := if a = "" then b else a

/-- The row that `submit` inserts, less its id. -/
def newRow (k : Kind W) (sub : Submission) (spec : Object) (now : ℚ) : Row :=
  let nb := sub.notBefore.getD now
  let label := match sub.label.filter fun l => l != "" with
    | some label => label
    | none => match k.label with
      | some label => label spec
      | none => k.title
  { id := "", kind := sub.kind, label := takeChars label 80, user := sub.user, role := sub.role
    source := sub.source, spec, state := [], status := .queued, notBefore := nb
    periodS := sub.periodS.filter fun p => p != 0, runsLeft := sub.runsLeft, nextRun := some nb
    lastRun := none, started := none, runCount := 0, attempts := 0, lease := none
    exclusive := match k.exclusive with
      | some exclusive => exclusive spec
      | none => []
    result := .null, message := "queued", threadId := sub.threadId, created := now
    resolved := none, ackedAt := none }

/-- `submit`: an unknown kind and a refused spec raise `JobError`. -/
def submit (sub : Submission) : Code W (Except String Row) :=
  match svc.kinds sub.kind with
  | none => pure (.error "unknown kind")
  | some k =>
      match (match k.validate with
        | some validate => validate sub.spec sub.user sub.role
        | none => .ok sub.spec) with
      | .error err => pure (.error err)
      | .ok spec => do
          let now ← Code.now
          let row : Row ← Code.ask (.insert (newRow k sub spec now))
          log "jobs.submit" row true (orElse sub.user sub.source.name) none
          pure (.ok row)

/-- `cancel` -/
def cancel (id actor message : String) : Code W (Option Row) := do
  let now ← Code.now
  let found : Option Row ← Code.ask (.cancelRow id now message)
  match found with
  | none => pure none
  | some row => do
      if row.status = .running then
        signal id
        callHook (svc.kinds row.kind) .onCancel
          { row with status := .cancelled, message := message }
      let row := (← Code.get id).getD row
      log "jobs.cancel" row true (orElse actor (orElse row.user "system")) (some message)
      callHook (svc.kinds row.kind) .onFinish row
      Code.act (.returned id)
      pure (some row)

/-- `ack` -/
def ack (id actor : String) : Code W (Option Row) := do
  let now ← Code.now
  let found : Option Row ← Code.ask (.ackRow id now)
  match found with
  | none => pure none
  | some row => do
      let row := (← Code.get id).getD { row with ackedAt := some now }
      log "jobs.ack" row true (orElse actor (orElse row.user "system")) none
      pure (some row)

/-- `_resolve_failed` -/
def resolveFailed (row : Row) (message : String) (now : ℚ) (attempts : Option Nat)
    (alert : Bool) : Code W Unit := do
  if ← Code.update .failed row.id [.running] (failedRow row message now attempts) then
    let row := (← Code.get row.id).getD (failedRow row message now attempts row)
    let k := svc.kinds row.kind
    if alert then
      let title := match k with
        | some k => k.title
        | none => row.kind
      Code.act (.alert
        { name := "Job failed: " ++ row.label, metric := "jobs/" ++ row.kind ++ "/" ++ row.id
          value := row.attempts
          message := title ++ " · " ++ row.label ++ " · " ++ message })
    log "jobs.failed" row false (orElse row.user "system") (some message)
    callHook k .onFinish row
  else pure ()

/-- `_apply` -/
def apply (id : String) (outcome : Outcome) : Code W Unit := do
  match ← Code.get id with
  | none => Code.act (.forget id)
  | some row =>
      if row.status ≠ .running then Code.act (.forget id)
      else do
        let now ← Code.now
        if outcome.leadsTo row = .failed then
          Code.act (.forget id)
          svc.resolveFailed { row with state := outcome.state.getD row.state }
            ((text? outcome.message).getD "failed") now (some (row.attempts + 1)) outcome.alert
        else do
          -- Whether the guarded write took effect is not looked at.
          let _ ← Code.update (.outcome (outcome.leadsTo row)) id [.running]
            (outcomeRow row outcome now)
          Code.act (.forget id)
          if outcome.leadsTo row = .done then
            let last := (← Code.get id).getD row
            callHook (svc.kinds row.kind) .onFinish last

/-- `_reap` -/
def reap : Code W Unit := do
  let done : List (String × Option Outcome) ← Code.ask .reapDead
  Prog.forEach done fun (id, box) =>
    svc.apply id (box.getD (fail "no outcome" none true))

/-- `k.limit_s(row["spec"]) if k else 3600.0` -/
def limitFor (row : Row) : ℚ :=
  match svc.kinds row.kind with
  | some k => k.limitS row.spec
  | none => 3600

/-- The body of the loop of `_timeouts`. -/
def timeoutRow (now : ℚ) (row : Row) : Code W Unit :=
  match row.started with
  | none => pure ()
  | some started =>
      if now - started ≤ svc.limitFor row then pure ()
      else do
        signal row.id
        callHook (svc.kinds row.kind) .onCancel { row with message := TIMED_OUT }
        svc.resolveFailed row TIMED_OUT now none true

/-- `_timeouts` -/
def timeouts (now : ℚ) : Code W Unit := do
  let rows : List Row ← Code.ask .running
  Prog.forEach rows (svc.timeoutRow now)

/-- The lease has less than two thirds of `LEASE_S` left. -/
def leaseLow (now : ℚ) (row : Row) : Bool :=
  match row.lease with
  | some lease => !decide (lease - now > 2 * LEASE_S / 3)
  | none => true

/-- The body of the loop of `_leases`. -/
def leaseRow (now : ℚ) (row : Row) : Code W Unit :=
  if leaseLow now row then do
    let _ ← Code.update .lease row.id [.running] fun r => { r with lease := some (now + LEASE_S) }
  else pure ()

/-- `_leases` -/
def leases (now : ℚ) : Code W Unit := do
  let rows : List Row ← Code.ask .running
  Prog.forEach rows (leaseRow now)

/-- `work`: the body of a worker thread. -/
def work (k : Kind W) (row : Row) (ref : Ref) : Code W Unit := do
  Code.act (.enter ref row)
  let result ← k.run row ref
  Code.act (.leave ref (match result with
    | .ok outcome => outcome
    | .error name => fail name none true))

/-- `_launch` -/
def launch (row : Row) : Code W Unit :=
  match svc.kinds row.kind with
  | none => svc.apply row.id (fail "kind not registered" none true)
  | some k => do
      let ref : Ref ← Code.ask (.register row.id)
      if svc.inline then
        Code.act (.enter ref row)
        let result ← k.run row ref
        let outcome := match result with
          | .ok outcome => outcome
          | .error name => fail name none true
        Code.act (.leave ref outcome)
        svc.apply row.id outcome
      else do
        Code.act (.putWorker row.id ref row)
        Code.act (.startThread ref)

/-- The rows of the workers that are not among the running rows. -/
def workerRows (live : List Row) : List String → Code W (List Row)
  | [] => pure live
  | id :: rest =>
      if live.any fun r => r.id == id then workerRows live rest
      else do
        match ← Code.get id with
        | some row => workerRows (live ++ [row]) rest
        | none => workerRows live rest

/-- The message of a row that waits for a held key. -/
def waitingFor (clash : String) : String :=
  if clash.startsWith "perf:" then "waiting for another job on this host"
  else "waiting for " ++ clash

/-- The loop of `_start_due` over the due rows: `held` is the set of held keys and `count` the
number of busy workers. -/
def startLoop (now : ℚ) (limit : Int) : List Row → List String → Int → Nat → Code W Nat
  | [], _, _, started => pure started
  | row :: rest, held, count, started =>
      -- The first clashing key counts only when it is not empty: `if clash:`.
      match (row.exclusive.find? fun key => held.contains key).filter fun key => key != "" with
      | some clash => do
          if row.message ≠ waitingFor clash then
            let _ ← Code.update .waiting row.id [.queued] fun r =>
              { r with message := waitingFor clash }
            startLoop now limit rest held count started
          else startLoop now limit rest held count started
      | none =>
          if count ≥ limit then pure started
          else do
            if ← Code.update .claim row.id [.queued] (claimedRow now) then
              svc.launch ((← Code.get row.id).getD row)
              let after : Option Row ← Code.ask (.get .after row.id)
              match after with
              | some r =>
                  if r.status = .running then
                    startLoop now limit rest (held ++ row.exclusive) (count + 1) (started + 1)
                  else
                    startLoop now limit rest
                      ((held ++ row.exclusive).filter fun key => !row.exclusive.contains key)
                      count (started + 1)
              | none =>
                  startLoop now limit rest
                    ((held ++ row.exclusive).filter fun key => !row.exclusive.contains key)
                    count (started + 1)
            else startLoop now limit rest held count started

/-- `_start_due` -/
def startDue (now : ℚ) : Code W Nat := do
  let running : List Row ← Code.ask .running
  let ids : List String ← Code.ask .workerIds
  let live ← workerRows running ids
  let workers : Int ← Code.ask .workers
  let limit := max 1 (if workers = 0 then 4 else workers)
  let due : List Row ← Code.ask (.due now)
  svc.startLoop now limit due (live.flatMap Row.exclusive) live.length 0

/-- `tick` -/
def tick : Code W Unit := do
  let now ← Code.now
  svc.reap
  svc.timeouts now
  leases now
  let _ ← svc.startDue now
  let sweeps : Bool ← Code.ask (.sweepDue now)
  if sweeps then
    let days : Int ← Code.ask .historyDays
    let days := max 1 (if days = 0 then 30 else days)
    Code.act (.sweep (now - days * 86400))

/-- The body of the loop of `recover`. -/
def recoverRow (now : ℚ) (row : Row) : Code W Unit :=
  match svc.kinds row.kind with
  | some k =>
      if k.resume = .requeue then Code.act (.update .requeue row.id none (requeuedRow now))
      else svc.resolveFailed row RESTARTED now none true
  | none => svc.resolveFailed row "kind not registered" now none true

/-- `recover` -/
def recover : Code W Unit := do
  let now ← Code.now
  let rows : List Row ← Code.ask .running
  Prog.forEach rows (svc.recoverRow now)

end Service

end SystemsManager.Jobs
