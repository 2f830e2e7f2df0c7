import SystemsManager.Concurrency.Raise
import SystemsManager.History
import SystemsManager.Python.DictUpdate
import SystemsManager.Python.Value

/-!
# Approval cards

An act tool of the tower (`_run_action` in `backend/tower.py`) waits for an operator. The decision
is kept in memory by `Approvals`, the row of the action by `Store`; the requests that decide, the
expiry, the deletion of a thread and the cancellation of the turn come from other threads. Each
operation of either class is atomic. A history notes for each action what has happened. Read
`tool_runs_once_approved`: the tool is invoked once, and only after the one decision was an
approval.
-/

namespace SystemsManager.Tower.Approvals

open Python Concurrency

section State

/-- The `status` of an action. -/
inductive ActionStatus where
  | pending
  | running
  | done
  | failed
  | denied
  | expired
  deriving DecidableEq

/-- The text of the column. -/
def ActionStatus.text : ActionStatus → String
  | .pending => "pending"
  | .running => "running"
  | .done => "done"
  | .failed => "failed"
  | .denied => "denied"
  | .expired => "expired"

/-- `status IN ('pending','running')` -/
def ActionStatus.live (status : ActionStatus) : Bool := status = .pending || status = .running

/-- What a card is decided as; a timeout is latched by the worker itself. -/
inductive Verdict where
  | approved
  | denied
  | answered
  | timeout
  deriving DecidableEq

/-- A decision of `Approvals`. -/
structure Decision where
  status : Verdict
  actor : Option String
  role : Option String
  options : List (String × Json)

/-- An entry of `Approvals._pending`. Its event is set by the call that decides. -/
structure Entry where
  decision : Option Decision

/-- A row of `tower_actions`. -/
structure Action where
  threadId : String
  runId : String
  tool : String
  args : Dict String Json
  card : Json
  status : ActionStatus
  actor : Option String
  requested : ℚ
  expires : ℚ
  resolved : Option ℚ
  result : Option Json
  ms : Option ℤ

/-- What is noted of an action: a call of `resolve` returned `True`, the tool is invoked, it has
returned and reports whether it succeeded, the card is reported with a status, and the turn leaves
it. -/
inductive Event where
  | resolved (verdict : Verdict)
  | invoked
  | returned (ok : Bool)
  | reported (status : String)
  | left
  deriving DecidableEq

/-- The owners of the threads, the actions, the entries of `Approvals`, the turns that are
cancelled, and for each action the worker that has made it and what has been noted. -/
structure World where
  threads : String → Option String
  actions : String → Option Action
  approvals : String → Option Entry
  cancelled : String → Bool
  owner : String → Option ℕ
  history : String → List Event

/-- After a start of the manager: the tables have their rows, and nobody waits. -/
def World.start (threads : String → Option String) (actions : String → Option Action) : World where
  threads := threads
  actions := actions
  approvals _ := none
  cancelled _ := false
  owner _ := none
  history _ := []

/-- A row is written. -/
def World.put (w : World) (aid : String) (row : Action) : World :=
  { w with actions := Function.update w.actions aid (some row) }

/-- A worker makes an action. -/
def World.create (w : World) (aid : String) (t : ℕ) (row : Action) : World :=
  { w.put aid row with owner := Function.update w.owner aid (some t) }

/-- An entry is written or removed. -/
def World.enter (w : World) (aid : String) (entry : Option Entry) : World :=
  { w with approvals := Function.update w.approvals aid entry }

/-- Something is noted. -/
def World.note (w : World) (aid : String) (e : Event) : World :=
  { w with history := Function.update w.history aid (w.history aid ++ [e]) }

/-- `expire_pending`, for one row. -/
def Action.expire (now : ℚ) (row : Action) : Action :=
  if row.status = .pending ∧ row.expires < now then
    { row with status := .expired, resolved := some now }
  else row

end State

section Code

/-- What an act tool is, as far as the events say. -/
structure ToolInfo where
  name : String
  tier : String
  role : String

/-- The events that a turn emits. -/
inductive Emitted where
  | confirm (tool : ToolInfo) (args : Dict String Json) (card : Json) (actor : String) (expires : ℤ)
  | action (tool : String) (status : String) (message : Json) (ms : ℤ) (actor : Option String)

/-- The operations, those of the worker first. What `tower_tools.apply_options` makes of the picks
and what the tool does is left to the outside. -/
inductive Op where
  | createAction (aid threadId runId tool : String) (args : Dict String Json) (card : Json)
  | register (aid : String)
  | emit (aid : String) (event : Emitted)
  | clock
  | lookup (aid : String)
  | waitEnds (aid runId : String) (deadline : ℚ)
  | latch (aid : String)
  | isCancelled (runId : String)
  | resolveAction (aid : String) (status : ActionStatus) (actor : Option String) (result : Json)
      (ms : Option ℤ)
  | markRunning (aid : String) (actor : Option String)
  | getAction (aid : String)
  | applyOptions (card : Json) (options : List (String × Json))
  | invoke (aid : String) (tool : String) (args : Dict String Json)
  | toolReturns (aid : String)
  | forget (aid : String)
  | permitted (aid user role : String)
  | resolve (aid : String) (decision : Decision)
  | known (aid : String)
  | setCancelled (runId : String)
  | expirePending
  | deleteThread (user threadId : String)

/-- Their answers. -/
abbrev Op.Res : Op → Type
  | .clock => ℚ
  | .latch _ => Option Decision
  | .getAction _ => Option Action
  | .applyOptions .. => Except String (Dict String Json)
  | .toolReturns _ => Json × Bool × ℤ
  | .lookup _ | .isCancelled _ | .resolveAction .. | .markRunning .. | .permitted .. | .resolve ..
  | .known _ | .deleteThread .. => Bool
  | .createAction .. | .register _ | .emit .. | .waitEnds .. | .invoke .. | .forget _
  | .setCancelled _ | .expirePending => Unit

/-- What the state does not determine. -/
abbrev Op.Ans : Op → Type
  | .applyOptions .. => Except String (Dict String Json)
  | .toolReturns _ => Json × Bool × ℤ
  | .permitted .. => Bool
  | .clock | .createAction .. | .waitEnds .. | .resolveAction .. | .expirePending => ℚ
  | .register _ | .emit .. | .lookup _ | .latch _ | .isCancelled _ | .markRunning .. | .getAction _
  | .invoke .. | .forget _ | .resolve .. | .known _ | .setCancelled _ | .deleteThread .. => Unit

/-- Code of a thread. -/
abbrev Code (α : Type) := Prog Op Op.Res α

/-- `_APPROVAL_TTL_S` -/
def APPROVAL_TTL_S : ℚ := 600

/-- `{"ok": False, "message": …}` -/
def failure (message : String) : Json := .dict [("ok", .bool false), ("message", .str message)]

/-- `isinstance(result, dict) and bool(result.get("ok"))` -/
def reportsOk : Json → Bool
  | .dict items => (getItem items "ok").truthy
  | _ => false

/-- `result.get("message") or result.get("error") or ""` -/
def messageOf : Json → Json
  | .dict items =>
      if (getItem items "message").truthy then getItem items "message"
      else if (getItem items "error").truthy then getItem items "error"
      else .str ""
  | _ => .str ""

/-- The arguments of `_run_action`, and the id that `create_action` draws. -/
structure Asked where
  aid : String
  threadId : String
  runId : String
  actor : String
  tool : ToolInfo
  args : Dict String Json
  card : Json

/-- How a turn leaves `_run_action`: with a result, or with `_Cancelled`. -/
inductive Ended where
  | returned (result : Json) (ok : Bool)
  | cancelled

/-- `Approvals.wait` -/
def wait (aid runId : String) (deadline : ℚ) : Code (Option Decision) :=
  Prog.call (.lookup aid) fun (found : Bool) =>
    if !found then .ret none
    else Prog.call (.waitEnds aid runId deadline) fun _ =>
      Prog.call (.latch aid) fun decision => .ret decision

/-- The tool is run: the last part of `_run_action`. -/
def runAllowed (a : Asked) (d : Decision) (picks : Dict String Json) : Code Ended :=
  Prog.call (.invoke a.aid a.tool.name (a.args.update picks)) fun _ =>
    Prog.call (.toolReturns a.aid) fun (answer : Json × Bool × ℤ) =>
      let (result, ran, ms) := answer
      let ok := ran && reportsOk result
      let status := if ok then ActionStatus.done else .failed
      Prog.call (.resolveAction a.aid status d.actor result (some ms)) fun _ =>
        Prog.call (.emit a.aid (.action a.tool.name status.text (messageOf result) ms d.actor))
          fun _ => .ret (.returned result ok)

/-- The card is approved. -/
def approvedAction (a : Asked) (d : Decision) : Code Ended :=
  Prog.call (.markRunning a.aid d.actor) fun (claimed : Bool) =>
    if !claimed then Prog.call (.getAction a.aid) fun (row : Option Action) =>
      let status := match row with
        | some row => row.status.text
        | none => "gone"
      let message := "already " ++ status
      Prog.call (.emit a.aid (.action a.tool.name status (.str message) 0 (row.bind Action.actor)))
        fun _ => .ret (.returned (failure message) false)
    else Prog.call (.applyOptions a.card d.options) fun
      | .error bad => Prog.call (.resolveAction a.aid .failed d.actor (failure bad)
          (some 0)) fun _ =>
          Prog.call (.emit a.aid (.action a.tool.name "failed" (.str bad) 0 d.actor)) fun _ =>
            .ret (.returned (failure bad) false)
      | .ok picks => runAllowed a d picks

/-- What follows the wait. -/
def decided (a : Asked) : Option Decision → Code Ended
  | none => Prog.call (.isCancelled a.runId) fun (stopped : Bool) =>
      let status := if stopped then ActionStatus.denied else .expired
      let who := if stopped then some "stopped" else none
      let message := if stopped then "stopped" else "approval expired"
      Prog.call (.resolveAction a.aid status who (failure message) none) fun _ =>
        Prog.call (.emit a.aid (.action a.tool.name status.text (.str message) 0 who)) fun _ =>
          .ret (if stopped then .cancelled else .returned (failure "approval expired") false)
  | some d =>
      if d.status ≠ .approved then
        let message := "denied by the operator"
        Prog.call (.resolveAction a.aid .denied d.actor (failure message) none) fun _ =>
          Prog.call (.emit a.aid (.action a.tool.name "denied" (.str message) 0 d.actor)) fun _ =>
            .ret (.returned (failure message) false)
      else approvedAction a d

/-- `_run_action` -/
def runAction (a : Asked) : Code Ended :=
  Prog.call (.createAction a.aid a.threadId a.runId a.tool.name a.args a.card) fun _ =>
    Prog.call (.register a.aid) fun _ =>
      let body : Code Ended :=
        Prog.call (.emit a.aid (.confirm a.tool a.args a.card ("tower via " ++
          a.actor) 600)) fun _ =>
          Prog.call .clock fun (now : ℚ) =>
            Prog.bind (wait a.aid a.runId (now + APPROVAL_TTL_S)) fun decision => decided a decision
      -- finally
      Prog.bind body fun ended => Prog.call (.forget a.aid) fun _ => .ret ended

/-- `Runs.approve` -/
def approve (aid user role : String) (verdict : Verdict) (options : List (String × Json)) :
    Code Unit :=
  Prog.call (.getAction aid) fun
    | none => .ret ()
    | some row => Prog.call (.permitted aid user role) fun (allowed : Bool) =>
        if row.status ≠ .pending ∨ !allowed then .ret ()
        else Prog.call (.resolve aid ⟨verdict, some user, some role, options⟩) fun (done : Bool) =>
          if done then .ret ()
          else Prog.call (.known aid) fun (known : Bool) =>
            if known then .ret ()
            else Prog.call (.resolveAction aid .expired none (failure "approval expired") none)
              fun _ => .ret ()

/-- What a thread is asked to do. -/
inductive Request where
  | action (a : Asked)
  | approve (aid user role : String) (verdict : Verdict) (options : List (String × Json))
  | resolve (aid : String) (decision : Decision)
  | cancel (runId : String)
  | expirePending
  | deleteThread (user threadId : String)

/-- The code of a request. -/
def Request.code : Request → Code Unit
  | .action a => Prog.bind (runAction a) fun _ => .ret ()
  | .approve aid user role verdict options => Approvals.approve aid user role verdict options
  | .resolve aid decision => Prog.call (.resolve aid decision) fun _ => .ret ()
  | .cancel runId => Prog.call (.setCancelled runId) fun _ => .ret ()
  | .expirePending => Prog.call .expirePending fun _ => .ret ()
  | .deleteThread user threadId => Prog.call (.deleteThread user threadId) fun _ => .ret ()

/-- An operation of a thread. -/
def exec (t : ℕ) : (op : Op) → op.Ans → World → Option (op.Res × World)
  | .createAction aid threadId runId tool args card, (now : ℚ), w =>
      -- a `uuid4`: the id has not been drawn before
      if w.owner aid = none ∧ (w.actions aid).isNone then
        let row : Action := {
          threadId, runId, tool, args, card, status := .pending, actor := none, requested := now
          expires := now + APPROVAL_TTL_S, resolved := none, result := none, ms := none }
        some ((), w.create aid t row)
      else none
  | .register aid, _, w => some ((), w.enter aid (some ⟨none⟩))
  | .emit aid event, _, w =>
      match event with
      | .confirm .. => some ((), w)
      | .action _ status _ _ _ => some ((), w.note aid (.reported status))
  | .clock, (now : ℚ), w => some (now, w)
  | .lookup aid, _, w => some ((w.approvals aid).isSome, w)
  | .waitEnds aid runId deadline, (now : ℚ), w =>
      if deadline ≤ now ∨ w.cancelled runId ∨ (w.approvals aid).any fun e => e.decision.isSome then
        some ((), w)
      else none
  | .latch aid, _, w =>
      match w.approvals aid with
      -- the waiting worker alone removes its entry
      | none => some (none, w)
      | some ⟨some decision⟩ => some (some decision, w)
      | some ⟨none⟩ => some (none, w.enter aid (some ⟨some ⟨.timeout, none, none, []⟩⟩))
  | .isCancelled runId, _, w => some (w.cancelled runId, w)
  | .resolveAction aid status actor result ms, (now : ℚ), w =>
      match w.actions aid with
      | none => some (false, w)
      | some row =>
          if row.status.live then
            let resolved : Action :=
              { row with status, actor, resolved := some now, result := some result, ms }
            some (true, w.put aid resolved)
          else some (false, w)
  | .markRunning aid actor, _, w =>
      match w.actions aid with
      | none => some (false, w)
      | some row =>
          if row.status = .pending then some (true,
            w.put aid { row with status := .running, actor })
          else some (false, w)
  | .getAction aid, _, w => some (w.actions aid, w)
  | .applyOptions .., answer, w => some (answer, w)
  | .invoke aid _ _, _, w => some ((), w.note aid .invoked)
  | .toolReturns aid, (answer : Json × Bool × ℤ), w =>
      some (answer, w.note aid (.returned (answer.2.1 && reportsOk answer.1)))
  | .forget aid, _, w => some ((), (w.enter aid none).note aid .left)
  | .permitted .., answer, w => some (answer, w)
  | .resolve aid decision, _, w =>
      match w.approvals aid with
      | some ⟨none⟩ =>
          some (true, (w.enter aid (some ⟨some decision⟩)).note aid (.resolved decision.status))
      | _ => some (false, w)
  | .known aid, _, w => some ((w.approvals aid).isSome, w)
  | .setCancelled runId, _, w =>
      some ((), { w with cancelled := Function.update w.cancelled runId true })
  | .expirePending, (now : ℚ), w =>
      some ((), { w with actions := fun aid => (w.actions aid).map (Action.expire now) })
  | .deleteThread user threadId, _, w =>
      if w.threads threadId = some user then some (true,
        { w with
          threads := Function.update w.threads threadId none
          actions := fun aid => (w.actions aid).filter fun row => row.threadId ≠ threadId })
      else some (false, w)

/-- Turns that ask for actions, and those who decide, cancel, expire and delete. -/
def approvals : Machine ℕ Op Op.Res Op.Ans Request World where
  exec := exec
  start _ request _ := some request.code

end Code

end SystemsManager.Tower.Approvals
