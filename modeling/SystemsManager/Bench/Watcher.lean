import Mathlib.Data.Rat.Floor
import Mathlib.Data.Prod.Lex
import Mathlib.Data.String.Basic
import Mathlib.Data.List.Infix
import SystemsManager.Python.Dict
import SystemsManager.Python.Value
import SystemsManager.Sql.Newest

/-!
# The baseline watcher

`backend/bench_baseline.py`: the `Watcher` re-checks the pinned live-benchmark runs nightly, after a
build change and on demand. A `Watcher` here is its tables and its memory together with where its
one tick stands; `Watcher.step` is one critical section of a tick, of the routes of the watcher, or
of the routes of `bench_live.py` that write the same runs table under another lock. The tables are
listed from the newest row to the oldest, times are exact seconds, and the clock only moves forward.
Metric pushes and alerts are left out.
-/

namespace SystemsManager.BenchBaseline

open Python Sql

/-- `CHECK_MAX_WAIT_S` -/
def CHECK_MAX_WAIT_S : ℚ := 7200

/-- `RETRY_S` -/
def RETRY_S : ℚ := 1800

/-- `MAX_ATTEMPTS` -/
def MAX_ATTEMPTS : ℕ := 3

/-- `MAX_BUSY` -/
def MAX_BUSY : ℕ := 12

/-- `KEEP_PER_MODEL` -/
def KEEP_PER_MODEL : ℕ := 50

/-- Why a check was started. -/
inductive Trigger where
  | nightly
  | build
  | manual
  deriving DecidableEq

/-- The trigger is one of `AUTO_TRIGGERS`. -/
def Trigger.auto : Trigger → Bool
  | .nightly => true
  | .build => true
  | .manual => false

/-- The status of a check. -/
inductive Status where
  | running
  | ok
  | regressed
  | failed
  | skipped
  deriving DecidableEq

/-- The severity of a regression. -/
inductive Severity where
  | warning
  | critical
  deriving DecidableEq

/-- A row of `bench_live_runs`: the columns that the watcher reads. `spreadMin` is the number under
`gen_spread["min"]`. -/
structure Run where
  runId : String
  modelId : String
  agentId : String
  provider : String
  ok : Bool
  baseline : Bool
  genTps : Option ℚ
  spreadMin : Option ℚ
  config : List (String × Json)

/-- A row of `bench_baseline_checks`. -/
structure Check where
  id : ℕ
  baselineRunId : String
  runId : Option String
  modelId : String
  agentId : String
  ts : ℚ
  trigger : Trigger
  status : Status
  genTps : Option ℚ
  baseTps : Option ℚ
  deltaPct : Option ℚ
  severity : Option Severity
  error : Option String
  llamaBuild : String
  buildFrom : String
  promoted : Bool
  spreadFloor : Option ℚ

/-- An entry of `_active`. -/
structure Active where
  runId : String
  started : ℚ
  trigger : Trigger
  build : String
  buildFrom : String
  checkId : ℕ

/-- An entry of `_pending`; `ident` tells one entry from another that has replaced it. -/
structure Pending where
  trigger : Trigger
  attempts : ℕ := 0
  retryAt : ℚ := 0
  buildFrom : String := ""
  busy : ℕ := 0
  starting : Bool := false
  ident : ℕ

/-- The settings that a tick reads. -/
structure Config where
  enabled : Bool
  nightlyAt : String
  onBuildChange : Bool
  promoteOnBuildChange : Bool
  regressionPct : ℚ

/-- A row of `fleet_hosts`. -/
structure Host where
  agentId : String
  online : Bool
  model : String
  models : List String
  state : String

/-- A check that `_prep_start` has prepared. -/
structure Item where
  run : Run
  pend : Pending
  body : List (String × Json)
  build : String

/-- Where the tick stands: at rest, in the loop of `_poll_active`, between the record of a check and
its promotion, in the loop over the pinned runs, before a call of an agent, or between the answer
and its outcome. -/
inductive Phase where
  | idle
  | polling (cfg : Config) (now : ℚ) (pins : List Run) (todo : List (String × Active))
  | promoting (cfg : Config) (now : ℚ) (pins : List Run) (todo : List (String × Active)) (b : Run)
      (runId : String)
  | planning (cfg : Config) (now : ℚ) (since : Option ℚ) (hosts : List Host) (todo : List Run)
      (live : List String) (items : List Item)
  | launching (now : ℚ) (items : List Item)
  | answered (now : ℚ) (item : Item) (answer : Except String String) (items : List Item)

/-- The watcher with its tables. -/
structure Watcher where
  runs : List Run
  checks : List Check
  /-- `bench_baseline_agents`: the build and `seen_ts`. -/
  builds : Dict String (String × ℚ)
  /-- `schedule_sig` and `schedule_since` of `bench_baseline_state`. -/
  schedule : Option (String × ℚ)
  active : Dict String Active
  pending : Dict String Pending
  quietUntil : Dict String ℚ
  clock : ℚ
  nextIdent : ℕ
  phase : Phase

/-! ### Schedule -/

/-- `p.isdigit()` and `int(p)` -/
def digits? (p : List Char) : Option ℕ :=
  match p.mapM digitValue with
  | some (d :: ds) => some ((d :: ds).foldl (fun n digit => n * 10 + digit) 0)
  | _ => none

/-- `parse_hhmm` -/
def parseHhmm (s : String) : Option (ℕ × ℕ) :=
  match (stripChars s).splitOn ':' with
  | [hour, minute] =>
      match digits? hour, digits? minute with
      | some h, some m => if h < 24 ∧ m < 60 then some (h, m) else none
      | _, _ => none
  | _ => none

/-- `slot_ts` in the time zone that is `tz` seconds ahead. -/
def slotTs (tz : ℚ) (now : ℚ) (hhmm : String) : Option ℚ :=
  match parseHhmm hhmm with
  | some (h, m) => some (⌊(now + tz) / 86400⌋ * 86400 + h * 3600 + m * 60 - tz)
  | none => none

/-- `nightly_due` -/
def nightlyDue (tz now : ℚ) (hhmm : String) (lastAutoTs since : Option ℚ) : Bool :=
  match slotTs tz now hhmm with
  | none => false
  | some s =>
      if now < s ∨ since.any (fun since => s < since) then false
      else lastAutoTs.all fun last => last < s

/-! ### Outcome of a check -/

/-- `delta_pct` -/
def deltaPct (cur base : Option ℚ) : Option ℚ :=
  match cur, base with
  | some cur, some base =>
      if base = 0 then none else some (roundHalfEven ((cur - base) / base * 100 * 10) / 10)
  | _, _ => none

/-- `severity` -/
def severity (delta : Option ℚ) (pct : ℚ) (floor cur : Option ℚ) : Option Severity :=
  match delta with
  | none => none
  | some delta =>
      if pct ≤ 0 then none
      else if floor.any fun floor => cur.any fun cur => floor ≤ cur then none
      else if 2 * pct ≤ -delta then some .critical
      else if pct ≤ -delta then some .warning
      else none

/-- The arguments of `_record` that settle a check. -/
structure Outcome where
  status : Status
  genTps : Option ℚ := none
  delta : Option ℚ := none
  sev : Option Severity := none
  error : Option String := none
  promoted : Bool := false
  spreadFloor : Option ℚ := none

/-- The check is one of this baseline, or the one that promoted it. -/
def Check.concerns (c : Check) (runId : String) : Bool :=
  c.baselineRunId = runId || (c.runId = some runId && c.promoted)

/-- The check was not started by hand and is settled. -/
def Check.autoSettled (c : Check) : Bool := c.trigger.auto && c.status ≠ .running

/-- A settled row. -/
def Check.settled (c : Check) (now : ℚ) (o : Outcome) : Check :=
  { c with
    ts := now
    status := o.status
    genTps := o.genTps
    deltaPct := o.delta
    severity := o.sev
    error := o.error
    promoted := o.promoted
    spreadFloor := o.spreadFloor }

/-- The entry of `_active` for a check that was in flight when the previous process stopped. -/
def Check.adopted (c : Check) (now : ℚ) : Active where
  runId := c.runId.getD ""
  started := if c.ts = 0 then now else c.ts
  trigger := c.trigger
  build := c.llamaBuild
  buildFrom := c.buildFrom
  checkId := c.id

/-- The oldest rows of a baseline go when it has more than 200. -/
def pruneChecks (baselineRunId : String) (checks : List Check) : List Check :=
  keepNewest (fun c => c.baselineRunId = baselineRunId) (fun _ => false) 200 checks

/-- The next `id` of a table without `AUTOINCREMENT`. -/
def nextId : List Check → ℕ
  | [] => 1
  | c :: _ => c.id + 1

/-- `hosts_for` and the dictionary that its callers build, of rows in the order of their host names:
whether the host of one agent is online, and whether the model is loaded on it. -/
def hostFor (hosts : List Host) (modelId agentId : String) : Option (Bool × Bool) :=
  let rows := (hosts.filter fun h => h.agentId = agentId).map fun h =>
    (h.online, h.online && (h.model = modelId || h.models.contains modelId) && h.state ≠ "sleeping")
  -- The rows that are not loaded come last, and the dictionary keeps the last row of an agent.
  (rows.filter fun row => !row.2).getLast?.or rows.getLast?

namespace Watcher

/-! ### Reads -/

/-- `_pinned` -/
def pinned (s : Watcher) : List Run :=
  sortedBy (fun r => toLex (r.modelId, r.agentId)) (s.runs.filter (·.baseline))

/-- `read_run` -/
def readRun (s : Watcher) (runId : String) : Option Run := s.runs.find? fun r => r.runId = runId

/-- `_last_auto_ts` -/
def lastAutoTs (s : Watcher) (runId : String) : Option ℚ :=
  (s.checks.find? fun c => c.concerns runId && c.autoSettled).map (·.ts)

/-! ### Writes -/

/-- `_record` without a `check_id`. -/
def insertCheck (s : Watcher) (b : Run) (trigger : Trigger) (o : Outcome) (runId : Option String)
    (build buildFrom : String) : Watcher :=
  let row : Check :=
    { id := nextId s.checks, baselineRunId := b.runId, runId := runId, modelId := b.modelId
      agentId := b.agentId, ts := s.clock, trigger := trigger, status := o.status
      genTps := o.genTps, baseTps := b.genTps, deltaPct := o.delta, severity := o.sev
      error := o.error, llamaBuild := build, buildFrom := buildFrom, promoted := o.promoted
      spreadFloor := o.spreadFloor }
  { s with checks := pruneChecks b.runId (row :: s.checks) }

/-- `_record` with a `check_id`. -/
def settleCheck (s : Watcher) (b : Run) (checkId : ℕ) (o : Outcome) : Watcher :=
  { s with
    checks := pruneChecks b.runId
      (s.checks.map fun c => if c.id = checkId then c.settled s.clock o else c) }

/-- The two updates of `_promote` and of `bench_live_run_baseline`. -/
def pinRun (s : Watcher) (modelId agentId runId : String) : Watcher :=
  { s with
    runs := s.runs.map fun r =>
      if r.runId = runId then { r with baseline := true }
      else if r.modelId = modelId ∧ r.agentId = agentId then { r with baseline := false }
      else r }

/-- `self._pending.pop(run_id, None)` -/
def dropPending (s : Watcher) (runId : String) : Watcher :=
  { s with pending := s.pending.erase runId }

/-- `self._active.pop(run_id, None)` -/
def dropActive (s : Watcher) (runId : String) : Watcher :=
  { s with active := s.active.erase runId }

/-- A new entry of `_pending`. -/
def enqueue (s : Watcher) (runId : String) (trigger : Trigger) (buildFrom : String) : Watcher :=
  { s with
    pending := s.pending.set runId
      { trigger := trigger, buildFrom := buildFrom, ident := s.nextIdent }
    nextIdent := s.nextIdent + 1 }

/-- An entry of `_pending` is changed in place. -/
def putPending (s : Watcher) (runId : String) (pend : Pending) : Watcher :=
  { s with pending := s.pending.set runId pend }

/-- `_resume_running` of a new process, whose memory is empty. -/
def resume (s : Watcher) : Watcher :=
  let lost (c : Check) : Bool := c.status = .running && c.runId.getD "" = ""
  let kept := s.checks.reverse.filter fun c => c.status = .running && !lost c
  { s with
    checks := s.checks.map fun c =>
      if lost c then { c with status := .failed, error := some "lost across a manager restart" }
      else c
    active := kept.foldl (fun active c => active.set c.baselineRunId (c.adopted s.clock)) ∅
    pending := ∅
    quietUntil := ∅
    phase := .idle }

/-! ### Parts of a tick -/

/-- `_finish` up to the record: the outcome of a check whose run is stored. -/
def finished (cfg : Config) (b : Run) (act : Active) (run : Run) : Outcome :=
  let cur := if run.ok then run.genTps else none
  let delta := BenchBaseline.deltaPct cur b.genTps
  let sev := BenchBaseline.severity delta cfg.regressionPct b.spreadMin cur
  { status := if sev.isSome then .regressed else if cur.isSome then .ok else .failed
    genTps := cur
    delta := delta
    sev := sev
    error := if cur.isSome then none else some "run failed on the agent"
    promoted := act.trigger = .build && cfg.promoteOnBuildChange && cur.isSome
    spreadFloor := b.spreadMin }

/-- The body of the loop of `_poll_active`, with the run that is to be promoted. -/
def pollOne (cfg : Config) (now : ℚ) (pins : List Run) (rid : String) (act : Active) (s : Watcher) :
    Watcher × Option (Run × String) :=
  match pins.find? fun b => b.runId = rid with
  | none =>
      ({ s.dropActive rid with
        checks := s.checks.map fun c =>
          if c.id = act.checkId then
            { c with ts := now, status := .skipped, error := some "baseline unpinned" }
          else c }, none)
  | some b =>
      match s.readRun act.runId with
      | none =>
          if CHECK_MAX_WAIT_S < now - act.started then
            ((s.settleCheck b act.checkId
              { status := .failed, error := some "timed out" }).dropActive rid, none)
          else (s, none)
      | some run =>
          let o := finished cfg b act run
          ((s.dropActive rid).settleCheck b act.checkId o,
            if o.promoted then some (b, act.runId) else none)

/-- The body of the loop of `_detect_build_changes` for one agent. -/
def noticeBuild (cfg : Config) (pins : List Run) (now : ℚ) (buildOf : String → String) (s : Watcher)
    (agentId : String) : Watcher :=
  let build := buildOf agentId
  let prev := (s.builds.get? agentId).map Prod.fst
  if build = "" ∨ prev = some build then s
  else
    let s' := { s with builds := s.builds.set agentId (build, now) }
    if prev.getD "" ≠ "" ∧ cfg.enabled ∧ cfg.onBuildChange ∧ s.quietUntil.getD agentId 0 ≤ now then
      -- A pending trigger stays, whatever it is.
      (pins.filter fun b => b.agentId = agentId).foldl (fun s b =>
        if (s.pending.get? b.runId).isSome then s
        else s.enqueue b.runId .build (prev.getD "")) s'
    else s'

/-- `_detect_build_changes` -/
def detectBuildChanges (s : Watcher) (cfg : Config) (pins : List Run) (now : ℚ)
    (buildOf : String → String) : Watcher :=
  (sortedBy id (pins.map (·.agentId)).dedup).foldl (noticeBuild cfg pins now buildOf) s

/-- `_schedule_since` -/
def scheduleSince (s : Watcher) (cfg : Config) (now : ℚ) : Watcher × Option ℚ :=
  if cfg.enabled then
    match s.schedule with
    | some (sig, since) =>
        if sig = cfg.nightlyAt then (s, some since)
        else ({ s with schedule := some (cfg.nightlyAt, now) }, some now)
    | none => ({ s with schedule := some (cfg.nightlyAt, now) }, some now)
  else ({ s with schedule := none }, none)

/-- `_prep_start`; an item has its entry marked as starting. -/
def prepStart (s : Watcher) (b : Run) (pend : Pending) (hosts : List Host) (build : String) :
    Watcher × Option Item :=
  let host := (hostFor hosts b.modelId b.agentId).getD (false, false)
  let skipped (error : String) : Watcher :=
    (s.insertCheck b pend.trigger { status := .skipped, error := some error } none build
      "").dropPending b.runId
  if host.1 = false then (skipped "host offline", none)
  else if host.2 = false then (skipped "model not loaded on the host", none)
  else if (getItem b.config "bench").truthy = false then
    (skipped "baseline has no stored config", none)
  else
    let body := setItems "baseline_run_id" (.str b.runId)
      (setItems "model_id" (.str b.modelId) (b.config.filter fun item => item.1 != "model_id"))
    (s.putPending b.runId { pend with starting := true },
      some { run := b, pend := pend, body := body, build := build })

/-- The body of the loop of `_tick_locked` over the pinned runs. -/
def planOne (tz : ℚ) (cfg : Config) (now : ℚ) (since : Option ℚ) (hosts : List Host)
    (build : String) (s : Watcher) (b : Run) : Watcher × Option Item :=
  let start (s : Watcher) (pend : Pending) : Watcher × Option Item :=
    if pend.starting ∨ now < pend.retryAt then (s, none) else s.prepStart b pend hosts build
  if (s.active.get? b.runId).isSome then (s, none)
  else
    match s.pending.get? b.runId with
    | some pend => start s pend
    | none =>
        if cfg.enabled ∧ nightlyDue tz now cfg.nightlyAt (s.lastAutoTs b.runId) since then
          start (s.enqueue b.runId .nightly "") { trigger := .nightly, ident := s.nextIdent }
        else (s, none)

/-- `_launch` after the call of the agent. -/
def launched (s : Watcher) (now : ℚ) (item : Item) (answer : Except String String) : Watcher :=
  let b := item.run
  match s.pending.get? b.runId with
  | none => s
  | some pend =>
      if pend.ident ≠ item.pend.ident then s
      else
        match answer with
        | .ok runId =>
            let s' := s.insertCheck b pend.trigger { status := .running } (some runId) item.build
              pend.buildFrom
            { s'.dropPending b.runId with
              active := s'.active.set b.runId
                { runId := runId, started := now, trigger := pend.trigger, build := item.build
                  buildFrom := pend.buildFrom, checkId := nextId s.checks } }
        | .error text =>
            if "in progress".toList <:+: text.toList then
              if MAX_BUSY ≤ pend.busy + 1 then
                (s.insertCheck b pend.trigger
                  { status := .skipped, error := some "host busy all day" }
                  none item.build "").dropPending b.runId
              else
                s.putPending b.runId
                  { pend with
                    starting := false, busy := pend.busy + 1, retryAt := now + RETRY_S }
            else if MAX_ATTEMPTS ≤ pend.attempts + 1 then
              (s.insertCheck b pend.trigger
                { status := .failed, error := some (takeChars text 300) }
                none item.build "").dropPending b.runId
            else
              s.putPending b.runId
                { pend with
                  starting := false, attempts := pend.attempts + 1, retryAt := now + RETRY_S }

/-- The reason for which `recheck` skips a run. -/
def recheckSkips (s : Watcher) (runId : String) : Option String :=
  if (s.pinned.any fun b => b.runId = runId) = false then some "not a pinned baseline"
  else if (s.active.get? runId).isSome ∨ (s.pending.get? runId).any (·.starting) then
    some "check already running"
  else none

/-- `recheck` -/
def recheck (s : Watcher) (runId : Option String) : Watcher :=
  let want : List String := match runId with
    | some runId => [runId]
    | none => s.pinned.map (·.runId)
  want.foldl (fun s rid => if (s.recheckSkips rid).isSome then s else s.enqueue rid .manual "") s

end Watcher

/-- After a round of the poll: a check that promotes its run does so before the next round. -/
def Phase.polled (cfg : Config) (now : ℚ) (pins : List Run) (todo : List (String × Active)) :
    Option (Run × String) → Phase
  | none => .polling cfg now pins todo
  | some (b, runId) => .promoting cfg now pins todo b runId

/-- After the items: the tick ends with the last one. -/
def Phase.after (now : ℚ) : List Item → Phase
  | [] => .idle
  | items => .launching now items

/-- The watcher's lock is free. -/
def Phase.unlocked : Phase → Bool
  | .idle => true
  | .launching .. => true
  | .answered .. => true
  | _ => false

/-- One critical section, or time that passes. The request handlers of the runs table may run at any
point of a tick, those of the watcher only while its lock is free. -/
inductive Event where
  | wait (now : ℚ)
  | begin (cfg : Config)
  | poll
  | promote
  | plan (buildOf : String → String) (hosts : List Host)
  | prep (build : String)
  | call (answer : Except String String)
  | apply
  | recheck (runId : Option String)
  | quiet (agentId : String) (seconds : ℚ)
  | restart
  | pin (runId : String)
  | delete (runId : String)
  | clear (modelId agentId : String)
  | store (run : Run)

namespace Watcher

/-- A watcher with runs, some of them pinned, and nothing else. -/
def start (runs : List Run) (clock : ℚ) : Watcher where
  runs := runs
  checks := []
  builds := ∅
  schedule := none
  active := ∅
  pending := ∅
  quietUntil := ∅
  clock := clock
  nextIdent := 0
  phase := .idle

/-- What an event does; `none` when it is not possible in this state. -/
def step (tz : ℚ) (s : Watcher) : Event → Option Watcher
  | .wait now => if s.clock ≤ now then some { s with clock := now } else none
  | .begin cfg =>
      match s.phase with
      | .idle => some { s with phase := .polling cfg s.clock s.pinned s.active.items }
      | _ => none
  | .poll =>
      match s.phase with
      | .polling cfg now pins ((rid, act) :: todo) =>
          let polled := s.pollOne cfg now pins rid act
          some { polled.1 with phase := .polled cfg now pins todo polled.2 }
      | _ => none
  | .promote =>
      match s.phase with
      | .promoting cfg now pins todo b runId =>
          some { s.pinRun b.modelId b.agentId runId with phase := .polling cfg now pins todo }
      | _ => none
  | .plan buildOf hosts =>
      match s.phase with
      | .polling cfg now _ [] =>
          let pins := s.pinned
          let scheduled := (s.detectBuildChanges cfg pins now buildOf).scheduleSince cfg now
          some { scheduled.1 with
            phase := .planning cfg now scheduled.2 hosts pins (pins.map (·.runId)) [] }
      | _ => none
  | .prep build =>
      match s.phase with
      | .planning cfg now since hosts (b :: todo) live items =>
          let planned := s.planOne tz cfg now since hosts build b
          some { planned.1 with
            phase := .planning cfg now since hosts todo live (items ++ planned.2.toList) }
      | .planning _ now _ _ [] live items =>
          some { s with
            pending := s.pending.filter fun rid _ => live.contains rid
            phase := .after now items }
      | _ => none
  | .call answer =>
      match s.phase with
      | .launching now (item :: items) => some { s with phase := .answered now item answer items }
      | _ => none
  | .apply =>
      match s.phase with
      | .answered now item answer items =>
          some { s.launched now item answer with phase := .after now items }
      | _ => none
  | .recheck runId => if s.phase.unlocked then some (s.recheck runId) else none
  | .quiet agentId seconds =>
      if s.phase.unlocked then
        some { s with quietUntil := s.quietUntil.set agentId (s.clock + seconds) }
      else none
  | .restart => some s.resume
  | .pin runId =>
      match s.readRun runId with
      | some r => some (s.pinRun r.modelId r.agentId runId)
      | none => some s
  | .delete runId => some { s with runs := s.runs.filter fun r => r.runId ≠ runId }
  | .clear modelId agentId =>
      some { s with runs := s.runs.filter fun r => ¬(r.modelId = modelId ∧ r.agentId = agentId) }
  | .store run =>
      let runs := if (s.readRun run.runId).isSome then s.runs
        else { run with baseline := false } :: s.runs
      some { s with
        runs := keepNewest (fun r => r.modelId = run.modelId && r.agentId = run.agentId)
          (·.baseline) KEEP_PER_MODEL runs }

end Watcher

/-- Two runs of one model on one host, the first of them pinned. -/
def twoRuns : Watcher :=
  let run (runId : String) (baseline : Bool) : Run :=
    { runId := runId, modelId := "m", agentId := "a1", provider := "llama", ok := true
      baseline := baseline, genTps := some 100, spreadMin := none, config := [("bench", .int 1)] }
  Watcher.start [run "r2" false, run "r1" true] 100000

/-- A build change starts a check of the first run, whose result is stored. -/
def buildCheck : List Event :=
  let cfg : Config :=
    { enabled := true, nightlyAt := "02:00", onBuildChange := true, promoteOnBuildChange := true
      regressionPct := 10 }
  let hosts : List Host :=
    [{ agentId := "a1", online := true, model := "m", models := [], state := "ready" }]
  [.begin cfg, .plan (fun _ => "b1") hosts, .prep "b1", .prep "",
    .begin cfg, .plan (fun _ => "b2") hosts, .prep "b2", .prep "", .call (.ok "x"), .apply,
    .store { runId := "x", modelId := "m", agentId := "a1", provider := "llama", ok := true
             baseline := false, genTps := some 101, spreadMin := none, config := [] },
    .begin cfg]

end SystemsManager.BenchBaseline
