import SystemsManager.Autopilot.Speed

/-!
# The planner

`plan` of `backend/autopilot_planner.py`: a load pass that fills missing replicas in priority
order, then a scale pass. Both passes thread one `PassState` through the entries: the budgets
and the resident table, the actions so far, the agents touched so far and the number of
failover loads. A loop that the source leaves with `break` runs to the end of its list here
and changes nothing once the exit condition holds.

Read `placement` first: a load and a scale-up change the state in the same way, and every
property of a plan is proved from what a placement does.
-/

namespace SystemsManager.Autopilot

open Python

/-- The read-only arguments of a plan. -/
structure Inputs where
  desired : Desired
  observed : Observed
  ledger : Ledger
  now : ℚ

namespace Inputs

variable (inp : Inputs)

/-- The managed set of this plan. -/
def managed : Managed := managedSet inp.desired inp.observed (some inp.ledger) (some inp.now)

/-- The entry's effective placements: observed, or in flight in the ledger. -/
def effective (e : Entry) : List String :=
  effectivePlacements e e.key inp.observed (some inp.ledger) (some inp.now)

/-- The entry is backing off after a failed action. -/
def backingOff (e : Entry) : Bool := inp.now < inp.ledger.backoffUntil.getD e.key 0

/-- The agent had an action less than `COOLDOWN_S` ago. -/
def cooling (aid : String) : Bool := inp.now - inp.ledger.lastActionTs.getD aid 0 < COOLDOWN_S

/-- `_candidates` at this plan's inputs. -/
def candidates (e : Entry) : Py (List String) :=
  Autopilot.candidates e inp.observed inp.desired (some inp.now)

end Inputs

/-- What the two passes of `plan` carry along. -/
structure PassState where
  budgets : Budgets
  actions : List Action
  touched : List String
  migrations : Int
  observedByK : Dict String (List String)

/-- The checks that the load loop and the scale-up loop share: the agent is observed and past
its cooldown, no managed resident is in the way and the budget holds. -/
def admits (inp : Inputs) (e : Entry) (b : Budgets) (aid : String) : Bool :=
  (inp.observed.agents.get? aid).isSome && !inp.cooling aid &&
    !residentConflict e.provider e.model aid b.residents inp.managed &&
    (fitAndSize e aid b inp.observed inp.managed).1

/-- A llama host whose server sleeps is woken before a placement. -/
def wakeFirst (inp : Inputs) (e : Entry) (aid purpose : String) : List Action :=
  match inp.observed.agents.get? aid with
  | some a =>
      if e.provider = .llama ∧ a.serverState = some .sleeping then
        [{ kind := .wake, provider := e.provider, model := e.model, agentId := aid
           reason := e.key ++ ": waking " ++ aid ++ " for " ++ purpose
           auto := mayAuto e inp.desired, entryKey := e.key }]
      else []
  | none => []

/-- What placing `e` on an agent does to the state: charge the budget, take the resident slot,
emit the actions and mark the agent as touched. -/
def placement (inp : Inputs) (e : Entry) (kind : ActionKind) (purpose reason : String)
    (st : PassState) (aid : String) : PassState :=
  { st with
    budgets := commitBudget e aid (fitAndSize e aid st.budgets inp.observed inp.managed).2.1
      st.budgets inp.observed
    actions := st.actions ++ wakeFirst inp e aid purpose ++
      [{ kind := kind, provider := e.provider, model := e.model, agentId := aid, reason := reason
         auto := mayAuto e inp.desired, entryKey := e.key }]
    touched := st.touched ++ [aid] }

/-- The reason of a load. `count` counts the new replica. -/
def loadReason (inp : Inputs) (e : Entry) (isFailover : Bool) (count : Nat) (aid : String)
    (displaced : Option String) : Py String := do
  let note ← speedNote e aid inp.observed inp.desired (some inp.now)
  let base := if isFailover then "failover: " ++ e.key ++ " recovering onto " ++ aid
    else e.key ++ ": " ++ toString count ++ "/" ++ toString e.minReplicas ++ " replicas placed"
  pure (base ++ note ++ match displaced with
    | some model => if model = "" then "" else " (displacing " ++ model ++ ")"
    | none => "")

/-- The failover cap: at most one failover load is queued per pass. -/
def failoverCapped (inp : Inputs) (isFailover : Bool) (st : PassState) : Bool :=
  isFailover && inp.ledger.inFlightMigrations + st.migrations ≥ 1

/-- The body of the loop over an entry's candidates. -/
def loadCandidate (inp : Inputs) (e : Entry) (isFailover : Bool)
    (acc : PassState × List String) (aid : String) : Py (PassState × List String) :=
  let (st, placed) := acc
  if (placed.length : Int) ≥ e.minReplicas then pure acc
  else if placed.contains aid || failoverCapped inp isFailover st || !admits inp e st.budgets aid
  then pure acc
  else do
    let displaced := displacedBy e.provider e.model aid st.budgets.residents inp.managed
    let reason ← loadReason inp e isFailover (placed.length + 1) aid displaced
    let st := placement inp e .load "placement" reason st aid
    pure ({ st with migrations := if isFailover then st.migrations + 1 else st.migrations },
      placed ++ [aid])

/-- `observed_by_k[k] = _placements(e, observed)` -/
def notePlacements (inp : Inputs) (st : PassState) (e : Entry) : PassState :=
  { st with observedByK := st.observedByK.set e.key (placements e inp.observed) }

/-- The body of the load pass. -/
def loadEntry (inp : Inputs) (st : PassState) (e : Entry) : Py PassState :=
  if inp.backingOff e then pure st
  else do
    let st := notePlacements inp st e
    let placed := inp.effective e
    if (placed.length : Int) ≥ e.minReplicas then pure st
    else do
      let cands ← inp.candidates e
      if dwellBlocks e.key inp.ledger.placedAt inp.observed inp.now then pure st
      else do
        let isFailover := hasDeadCandidate e cands inp.observed
        let (st, _) ← cands.foldlM (loadCandidate inp e isFailover) (st, placed)
        pure st

/-- `_scale_down_target`: the first eligible copy in LRU order, never the pinned host, and the
routed copy only when it is the sole other copy. -/
def scaleDownTarget (inp : Inputs) (e : Entry) (observedPlaced touched : List String) :
    Option String :=
  let others := observedPlaced.filter fun aid => aid != e.placement
  let routed := (inp.observed.routePins e.provider).get? e.model
  let others := match routed with
    | some routed =>
        if others.contains routed && others.length > 1 then others.erase routed else others
    | none => others
  let placedAt := inp.ledger.placedAt.getD e.key ∅
  let unloadBackoff := inp.ledger.unloadBackoff.getD e.key ∅
  (sortedBy (fun aid => placedAt.getD aid 0) others).find? fun aid =>
    (match inp.observed.agents.get? aid with
      | some a => a.live
      | none => false) && !touched.contains aid &&
    decide (inp.now ≥ unloadBackoff.getD aid 0) && !inp.cooling aid

/-- Whether the scale pass acts on an entry, and how: a surplus is an unconditional down,
otherwise the autoscaler decides. -/
def scaleDecision (inp : Inputs) (e : Entry) (placed : List String) : Py Decision :=
  if (placed.length : Int) > e.maxReplicas then pure .down
  else if e.maxReplicas ≤ e.minReplicas ∨ (placed.length : Int) < e.minReplicas then pure .hold
  else evaluateAutoscale e placed (inp.observed.satHistory.getD e.key []) inp.now

/-- Every copy is observed and live: nothing in flight, nothing stale. -/
def settled (inp : Inputs) (observedPlaced placed : List String) : Bool :=
  observedPlaced.length == placed.length &&
    placed.all fun aid => match inp.observed.agents.get? aid with
      | some a => a.live
      | none => false

/-- The `up` branch: the first candidate that passes every check. -/
def scaleUp (inp : Inputs) (e : Entry) (placed : List String) (st : PassState) : Py PassState := do
  let cands ← inp.candidates e
  let target := cands.find? fun aid =>
    !placed.contains aid && !st.touched.contains aid && admits inp e st.budgets aid
  pure (match target with
    | some aid =>
        placement inp e .scaleUp "scale-up" (e.key ++ ": autoscale up -> " ++ aid) st aid
    | none => st)

/-- The `down` branch. -/
def scaleDown (inp : Inputs) (e : Entry) (observedPlaced placed : List String) (st : PassState) :
    PassState :=
  if !e.provider.unloadable then st
  else match scaleDownTarget inp e observedPlaced st.touched with
    | none => st
    | some aid =>
        let reason := if (placed.length : Int) > e.maxReplicas then
            e.key ++ ": surplus replica (" ++ toString placed.length ++ "/" ++
              toString e.maxReplicas ++ ") reclaimed from " ++ aid
          else e.key ++ ": autoscale down -> " ++ aid
        { st with
          actions := st.actions ++
            [{ kind := .scaleDown, provider := e.provider, model := e.model, agentId := aid
               reason := reason, auto := mayAuto e inp.desired, entryKey := e.key }]
          touched := st.touched ++ [aid] }

/-- The body of the scale pass. -/
def scaleEntry (inp : Inputs) (st : PassState) (e : Entry) : Py PassState :=
  if inp.backingOff e then pure st
  else match st.observedByK.get? e.key with
    | none => throw .keyError
    | some observedPlaced => do
        let placed := withFresh observedPlaced e.key inp.observed (some inp.ledger) (some inp.now)
        let decision ← scaleDecision inp e placed
        match decision with
        | .hold => pure st
        | .up => scaleUp inp e placed st
        | .down =>
            if settled inp observedPlaced placed then
              pure (scaleDown inp e observedPlaced placed st)
            else pure st

/-- The state both passes start from. -/
def initState (inp : Inputs) : PassState where
  budgets := initBudgets inp.desired inp.observed (some inp.ledger) (some inp.now)
  actions := []
  touched := []
  migrations := 0
  observedByK := ∅

/-- The load pass, then the scale pass, over the entries in priority order. -/
def passes (inp : Inputs) : Py PassState := do
  let entries := priorityOrder inp.desired
  let loaded ← entries.foldlM (loadEntry inp) (initState inp)
  entries.foldlM (scaleEntry inp) loaded

/-- `plan` -/
def plan (desired : Desired) (observed : Observed) (ledger : Ledger) (now : ℚ) :
    Py (List Action) := do
  let st ← passes { desired, observed, ledger, now }
  pure st.actions

end SystemsManager.Autopilot
