import SystemsManager.Autopilot.Plan

/-!
# The status of the entries

`entry_status` of `backend/autopilot_planner.py`: for each entry how many replicas are placed,
how many are wanted, why the rest cannot be placed and which host the speed ranking picks.
It is a second loop over the entries, written apart from the load pass of `plan`, with its own
early exits; both charge the same budgets through `fitAndSize` and `commitBudget`.
-/

namespace SystemsManager.Autopilot

open Python

/-- `_live_capable` -/
def liveCapable (e : Entry) (cands : List String) (observed : Observed) : List String :=
  cands.filter fun aid => match observed.agents.get? aid with
    | some a => a.providerCaps.contains e.provider && a.live
    | none => false

/-- `_speed_pick`: the best-ranked copy, else the first live capable candidate that fits. -/
def speedPick (e : Entry) (placed cands : List String) (b : Budgets) (observed : Observed)
    (managed : Managed) (desired : Desired) (now : Option ℚ) : Py (Option String) :=
  if placed = [] then
    pure ((liveCapable e cands observed).find? fun aid =>
      !residentConflict e.provider e.model aid b.residents managed &&
        (fitAndSize e aid b observed managed).1)
  else do
    let ranked ← sortedBySpeed e placed observed desired now
    pure ranked.head?

/-- A row of the ranked speed table. -/
structure SpeedStatusRow where
  agentId : String
  hostname : String
  genTps : Option ℚ
  latencyS : Option ℚ
  whPerKtok : Option ℚ
  runId : Option String
  llamaBuild : String
  ageS : Option ℚ
  tier : SpeedTier

/-- What a placement rests on. -/
inductive Basis where
  | capacity
  | tier (tier : SpeedTier)
  deriving DecidableEq

/-- The speed part of an entry's status. -/
structure SpeedStatus where
  basis : Option Basis
  pick : Option String
  speed : List SpeedStatusRow

/-- One row of the speed table. -/
def speedStatusRow (rows : Dict String SpeedRow) (observed : Observed) (maxAge : ℚ)
    (now : Option ℚ) (aid : String) : Option SpeedStatusRow :=
  (rows.get? aid).map fun row =>
    { agentId := aid
      hostname := if row.hostname = "" then takeChars aid 8 else row.hostname
      genTps := row.genTps
      latencyS := row.latencyS
      whPerKtok := row.whPerKtok
      runId := row.runId
      llamaBuild := row.llamaBuild
      ageS := match now, row.ts with
        | some now, some ts => some (now - ts)
        | _, _ => none
      tier := speedTier row (observed.agents.get? aid) maxAge now }

/-- `_speed_status` -/
def speedStatus (e : Entry) (pick : Option String) (observed : Observed) (desired : Desired)
    (now : Option ℚ) : Py SpeedStatus := do
  let rows := speedRows e observed
  let maxAge ← maxAgeS desired
  let ranked ← sortedBySpeed e rows.keys observed desired now
  let basis := match pick with
    | none => none
    | some aid =>
        if e.placement ≠ "auto" then none
        else match rows.get? aid with
          | none => some .capacity
          | some row => if e.rankBy = .capacity then some .capacity
            else some (.tier (speedTier row (observed.agents.get? aid) maxAge now))
  pure { basis, pick, speed := ranked.filterMap (speedStatusRow rows observed maxAge now) }

/-- Why an entry cannot be placed, with the numbers that the texts quote. -/
inductive Blocked where
  | noLiveAgent
  | sizeUnknown
  | waitingForSample (provider : Provider) (unanswered : Nat)
  | residentManaged (provider : Provider)
  | residentProtected (provider : Provider)
  | insufficient (need headroom best : Int)
  deriving DecidableEq

/-- The text shown to the operator. -/
def Blocked.text : Blocked → String
  | .noLiveAgent => "no live agent supports this provider"
  | .sizeUnknown => "model size unknown (set entry size MB)"
  | .waitingForSample provider unanswered =>
      "waiting for a fresh " ++ provider.name ++ " sample from " ++ toString unanswered ++
        " capable host(s)"
  | .residentManaged provider =>
      "capable hosts already serve another managed " ++ provider.name ++ " model"
  | .residentProtected provider =>
      "capable hosts serve a " ++ provider.name ++
        " model Autopilot does not manage (protect other models is on)"
  | .insufficient need headroom best =>
      "insufficient free VRAM/RAM (need " ++ toString need ++ " MB incl. " ++ toString headroom ++
        " MB headroom; best candidate has " ++ toString best ++ " MB free)"

/-- The status of one entry. -/
structure Status where
  placed : Nat
  want : Int
  blocked : Option Blocked
  speed : SpeedStatus

/-- The counters of the loop over an under-replicated entry's live candidates. -/
structure StatusCounts where
  budgets : Budgets
  placeable : Nat
  residentBlocked : Nat
  unanswered : Nat
  avail : Dict String Int

/-- The body of the loop over an under-replicated entry's live candidates. -/
def statusCandidate (e : Entry) (need : Int) (observed : Observed) (managed : Managed)
    (c : StatusCounts) (aid : String) : StatusCounts :=
  if (c.placeable : Int) ≥ need then c
  else match observed.agents.get? aid with
    | none => c
    | some a =>
        if unanswered a e.provider then { c with unanswered := c.unanswered + 1 }
        else if residentConflict e.provider e.model aid c.budgets.residents managed then
          { c with residentBlocked := c.residentBlocked + 1 }
        else
          let (fit, size, credit) := fitAndSize e aid c.budgets observed managed
          let c := { c with
            avail := c.avail.set aid (c.budgets.available e aid observed + credit) }
          if fit then
            { c with
              budgets := commitBudget e aid size c.budgets observed
              placeable := c.placeable + 1 }
          else c

/-- `max(values, default=0)` -/
def maxD (values : List Int) : Int :=
  match values with
  | [] => 0
  | v :: rest => rest.foldl max v

/-- The reason given when the loop could not place every missing replica. -/
def blockedReason (e : Entry) (desired : Desired) (size : Option Int) (c : StatusCounts) :
    Blocked :=
  match size with
  | none => .sizeUnknown
  | some size =>
      if c.placeable = 0 ∧ c.unanswered ≠ 0 ∧ c.residentBlocked = 0 ∧ c.avail.items = [] then
        .waitingForSample e.provider c.unanswered
      else if c.placeable = 0 ∧ c.residentBlocked ≠ 0 then
        if desired.protectUnmanaged then .residentProtected e.provider
        else .residentManaged e.provider
      else .insufficient (size + VRAM_HEADROOM_MB) VRAM_HEADROOM_MB
        (maxD (c.avail.items.map Prod.snd))

/-- The blocked part of an entry's status, with the budgets after its placements. -/
def blockedStatus (e : Entry) (placed cands : List String) (b : Budgets) (observed : Observed)
    (managed : Managed) (desired : Desired) : Option Blocked × Budgets :=
  let need := e.minReplicas - placed.length
  if need ≤ 0 then (none, b)
  else
    let live := liveCapable e cands observed
    let size := modelSizeMb observed e.provider e.model
    if live = [] then (some .noLiveAgent, b)
    else if size = none ∧ placed = [] then (some .sizeUnknown, b)
    else
      let c := live.foldl (statusCandidate e need observed managed)
        { budgets := b, placeable := 0, residentBlocked := 0, unanswered := 0, avail := ∅ }
      (if (c.placeable : Int) < need then some (blockedReason e desired size c) else none,
        c.budgets)

/-- The body of the loop of `entry_status`. -/
def statusEntry (desired : Desired) (observed : Observed) (ledger : Option Ledger)
    (now : Option ℚ) (managed : Managed) (acc : Budgets × Dict String Status) (e : Entry) :
    Py (Budgets × Dict String Status) := do
  let (b, out) := acc
  let placed := effectivePlacements e e.key observed ledger now
  let all ← candidates e observed desired now
  let cands := all.filter fun aid => !placed.contains aid
  let pick ← speedPick e placed cands b observed managed desired now
  let speed ← speedStatus e pick observed desired now
  let (blocked, b) := blockedStatus e placed cands b observed managed desired
  pure (b, out.set e.key { placed := placed.length, want := e.minReplicas, blocked, speed })

/-- `entry_status` -/
def entryStatus (desired : Desired) (observed : Observed) (ledger : Option Ledger)
    (now : Option ℚ) : Py (Dict String Status) := do
  let managed := managedSet desired observed ledger now
  let (_, out) ← (priorityOrder desired).foldlM
    (statusEntry desired observed ledger now managed)
    (initBudgets desired observed ledger now, ∅)
  pure out

end SystemsManager.Autopilot
