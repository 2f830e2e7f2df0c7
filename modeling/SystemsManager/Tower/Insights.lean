import SystemsManager.Concurrency.Raise
import SystemsManager.History
import SystemsManager.Python.Value

/-!
# The insights of the tower

The insights table of `backend/tower.py` and those who change it (`backend/tower_watch.py`): the
watcher, which stores an insight and may apply its playbook by itself, and the requests to apply, to
dismiss, to dismiss all and to mark as seen. Each operation of the store is atomic; what other
systems answer comes from outside. A history notes for each insight the runs of its steps and its
dismissals. Read `playbook_applied_once`: runs do not overlap, none starts after one that succeeded
or after a dismissal, and between runs the status says whether one has succeeded.
-/

namespace SystemsManager.Tower

open Python Concurrency

section Table

/-- The `status` of an insight. -/
inductive InsightStatus where
  | new
  | seen
  | applying
  | applied
  | dismissed
  deriving DecidableEq

/-- A step of a playbook: an act tool and its arguments. -/
abbrev Step := String × Json

/-- What `run_steps` reports of one step. -/
structure StepReport where
  tool : String
  ok : Bool
  message : String

/-- What `run_steps` returns. -/
structure Outcome where
  ok : Bool
  message : String
  steps : List StepReport

/-- A row of `tower_insights`, as far as it is read below. -/
structure Insight where
  alertId : String
  playbookId : Option String
  steps : List Step
  status : InsightStatus
  seenAt : Option ℚ
  resolved : Option ℚ
  appliedBy : Option String
  result : Option Outcome

/-- What the watcher stores. -/
structure NewInsight where
  alertId : String
  playbookId : Option String
  steps : List Step

/-- The row that `create_insight` inserts. -/
def NewInsight.row (insight : NewInsight) : Insight where
  alertId := insight.alertId
  playbookId := insight.playbookId
  steps := insight.steps
  status := .new
  seenAt := none
  resolved := none
  appliedBy := none
  result := none

/-- What is noted of an insight: a thread has claimed it and runs its steps, the run takes a step,
the run is over and reports whether it succeeded; and a dismissal took effect. -/
inductive Event where
  | started (t : ℕ)
  | step (t : ℕ)
  | ended (t : ℕ) (ok : Bool)
  | dismissed
  deriving DecidableEq

/-- The table, the alerts that have an insight, and the notes. -/
structure World where
  table : String → Option Insight
  alerts : List String
  history : String → List Event

/-- A table, and no notes. -/
def World.start (table : String → Option Insight) (alerts : List String) : World where
  table := table
  alerts := alerts
  history _ := []

/-- The row is changed. -/
def World.put (w : World) (iid : String) (row : Insight) : World :=
  { w with table := Function.update w.table iid (some row) }

/-- Something is noted. -/
def World.note (w : World) (iid : String) (e : Event) : World :=
  { w with history := Function.update w.history iid (w.history iid ++ [e]) }

/-- `mark_insights_seen`, for one row. -/
def Insight.see (now : ℚ) (row : Insight) : Insight :=
  if row.seenAt = none ∧ (row.status = .new ∨ row.status = .applied) then
    { row with
      seenAt := some now
      status := if row.status = .new then .seen else row.status }
  else row

/-- `status IN ('new','seen','applied')` -/
def Insight.open_ (row : Insight) : Bool :=
  row.status = .new || row.status = .seen || row.status = .applied

/-- `dismiss_insights`, for one row. -/
def Insight.dismiss (now : ℚ) (row : Insight) : Insight :=
  if row.open_ then { row with status := .dismissed, resolved := some now } else row

/-- `set_insight_status`, for a row in one of the allowed statuses. -/
def Insight.move (row : Insight) (status : InsightStatus) (appliedBy : Option String)
    (result : Option Outcome) (now : ℚ) : Insight :=
  { row with
    status := status
    resolved := some now
    appliedBy := appliedBy.or row.appliedBy
    result := result.or row.result }

end Table

section Code

/-- What `tower_tools.validate_args` answers. -/
inductive Checked where
  | accepted
  | refused (message : String)
  | raised

/-- What an act tool answers. -/
inductive ToolAnswer where
  | answered (ok : Bool) (message : String)
  | raised

/-- The operations. The first ones only ask other systems: whether a request may pass, whether the
settings let the watcher apply, whether the playbook of a row is known with these steps, whether
its tools are permitted, and whether the alert still gives these steps. -/
inductive Op where
  | gate
  | settings
  | playbook (row : Insight)
  | permitted (steps : List Step)
  | current (alertId : String) (steps : List Step)
  | validateArgs (step : Step)
  | runTool (iid : String) (step : Step)
  | createInsight (iid : String) (insight : NewInsight)
  | getInsight (iid : String)
  | claimInsight (iid : String)
  | setInsightStatus (iid : String) (status : InsightStatus) (appliedBy : Option String)
      (result : Option Outcome) (allow : List InsightStatus)
  | markInsightsSeen
  | dismissInsights

/-- Their answers. -/
abbrev Op.Res : Op → Type
  | .validateArgs _ => Checked
  | .runTool .. => ToolAnswer
  | .getInsight _ => Option Insight
  | .markInsightsSeen | .dismissInsights => Unit
  | .gate | .settings | .playbook _ | .permitted _ | .current .. | .createInsight ..
  | .claimInsight _ | .setInsightStatus .. => Bool

/-- What the table does not determine. -/
abbrev Op.Ans : Op → Type
  | .validateArgs _ => Checked
  | .runTool .. => ToolAnswer
  | .setInsightStatus .. | .markInsightsSeen | .dismissInsights => ℚ
  | .gate | .settings | .playbook _ | .permitted _ | .current .. => Bool
  | .getInsight _ | .createInsight .. | .claimInsight _ => Unit

/-- Code of a thread. -/
abbrev Code (α : Type) := Prog Op Op.Res α

/-- The loop of `run_steps`. -/
def runLoop (iid : String) : List Step → List StepReport → Raising Op Op.Res Outcome
  | [], done => Prog.ret (some ⟨true, "done", done⟩)
  | step :: rest, done => Prog.call (.validateArgs step) fun
      | .raised => .ret none
      | .refused message => .ret (some ⟨false, message, done ++ [⟨step.1, false, message⟩]⟩)
      | .accepted => Prog.call (.runTool iid step) fun
          | .raised => .ret none
          | .answered true message => runLoop iid rest (done ++ [⟨step.1, true, message⟩])
          | .answered false message =>
              .ret (some ⟨false, message, done ++ [⟨step.1, false, message⟩]⟩)

/-- `run_steps` -/
def runSteps (iid : String) (steps : List Step) : Raising Op Op.Res Outcome :=
  if steps.isEmpty then Prog.ret (some ⟨false, "nothing to run", []⟩)
  else Prog.call (.permitted steps) fun (allowed : Bool) =>
    if allowed then runLoop iid steps [] else .ret (some ⟨false, "not allowed", []⟩)

/-- What both appliers do with a claimed insight; the `finally` writes the status also where
`run_steps` raised. -/
def applyClaimed (iid : String) (steps : List Step) (actor : String) (back : InsightStatus) :
    Code Unit :=
  Prog.bind (runSteps iid steps) fun outcome =>
    let res := outcome.getD ⟨false, "failed", []⟩
    Prog.call (.setInsightStatus iid (if res.ok then .applied else back)
      (if res.ok then some actor else none) (some res) [.applying]) fun _ => .ret ()

/-- `_auto_apply` -/
def autoApply (iid alertId : String) (steps : List Step) : Code Unit :=
  Prog.call (.permitted steps) fun (allowed : Bool) =>
    if !allowed then .ret ()
    else Prog.call (.current alertId steps) fun (fresh : Bool) =>
      if !fresh then .ret ()
      else Prog.call (.claimInsight iid) fun (claimed : Bool) =>
        if !claimed then .ret ()
        else applyClaimed iid steps ("tower via alarm " ++ alertId) .new

/-- The watcher stores an insight, and may apply it. -/
def watch (iid : String) (insight : NewInsight) : Code Unit :=
  Prog.call (.createInsight iid insight) fun (created : Bool) =>
    Prog.call .settings fun (auto : Bool) =>
      if created && insight.playbookId.isSome &&
        auto then autoApply iid insight.alertId insight.steps
      else .ret ()

/-- `tower_insight_apply` -/
def apply (iid user : String) : Code Unit :=
  Prog.call .gate fun (passes : Bool) =>
    if !passes then .ret ()
    else Prog.call (.getInsight iid) fun
      | none => .ret ()
      | some row => Prog.call (.playbook row) fun (known : Bool) =>
          if !known || row.steps.isEmpty then .ret ()
          else if row.status ≠ .new ∧ row.status ≠ .seen then .ret ()
          else Prog.call (.permitted row.steps) fun (allowed : Bool) =>
            if !allowed then .ret ()
            else Prog.call (.current row.alertId row.steps) fun (fresh : Bool) =>
              if !fresh then .ret ()
              else Prog.call (.claimInsight iid) fun (claimed : Bool) =>
                if !claimed then .ret ()
                else applyClaimed iid row.steps ("tower via " ++ user) row.status

/-- `tower_insight_dismiss` -/
def dismiss (iid : String) : Code Unit :=
  Prog.call .gate fun (passes : Bool) =>
    if !passes then .ret ()
    else Prog.call (.getInsight iid) fun
      | none => .ret ()
      | some _ => Prog.call (.setInsightStatus iid .dismissed none none [.new, .seen, .applied])
          fun _ => .ret ()

/-- `tower_insights_seen` -/
def seen : Code Unit :=
  Prog.call .gate fun (passes : Bool) =>
    if passes then Prog.call .markInsightsSeen fun _ => .ret () else .ret ()

/-- `tower_insights_dismiss_all` -/
def dismissAll : Code Unit :=
  Prog.call .gate fun (passes : Bool) =>
    if passes then Prog.call .dismissInsights fun _ => .ret () else .ret ()

/-- What a thread is asked to do. -/
inductive Request where
  | watch (iid : String) (insight : NewInsight)
  | apply (iid user : String)
  | dismiss (iid : String)
  | seen
  | dismissAll

/-- The code of a request. -/
def Request.code : Request → Code Unit
  | .watch iid insight => Tower.watch iid insight
  | .apply iid user => Tower.apply iid user
  | .dismiss iid => Tower.dismiss iid
  | .seen => Tower.seen
  | .dismissAll => Tower.dismissAll

/-- An operation of a thread. -/
def exec (t : ℕ) : (op : Op) → op.Ans → World → Option (op.Res × World)
  | .gate, a, w => some (a, w)
  | .settings, a, w => some (a, w)
  | .playbook _, a, w => some (a, w)
  | .permitted _, a, w => some (a, w)
  | .current .., a, w => some (a, w)
  | .validateArgs _, a, w => some (a, w)
  | .runTool iid _, a, w => some (a, w.note iid (.step t))
  | .createInsight iid insight, _, w =>
      -- INSERT OR IGNORE: the id and the alert are unique
      if (w.table iid).isSome || w.alerts.contains insight.alertId then some (false, w)
      else some (true, { w.put iid insight.row with alerts := w.alerts ++ [insight.alertId] })
  | .getInsight iid, _, w => some (w.table iid, w)
  | .claimInsight iid, _, w =>
      match w.table iid with
      | none => some (false, w)
      | some row =>
          if row.status = .new ∨ row.status = .seen then
            some (true, (w.put iid { row with status := .applying }).note iid (.started t))
          else some (false, w)
  | .setInsightStatus iid status appliedBy result allow, (now : ℚ), w =>
      -- a result is written by the `finally` of a run, which is over then
      let closed := match result with
        | some res => w.note iid (.ended t res.ok)
        | none => w
      match w.table iid with
      | none => some (false, closed)
      | some row =>
          if row.status ∈ allow then
            let moved := closed.put iid (row.move status appliedBy result now)
            some (true, if status = .dismissed then moved.note iid .dismissed else moved)
          else some (false, closed)
  | .markInsightsSeen, (now : ℚ), w =>
      some ((), { w with table := fun iid => (w.table iid).map (Insight.see now) })
  | .dismissInsights, (now : ℚ), w => some ((),
      { w with
        table := fun iid => (w.table iid).map (Insight.dismiss now)
        history := fun iid =>
          if (w.table iid).any Insight.open_ then w.history iid ++ [.dismissed]
          else w.history iid })

/-- The watcher and any number of requests. -/
def insights : Machine ℕ Op Op.Res Op.Ans Request World where
  exec := exec
  start _ request _ := some request.code

end Code

end SystemsManager.Tower
