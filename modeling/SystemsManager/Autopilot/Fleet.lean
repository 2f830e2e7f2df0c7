import SystemsManager.Python.Dict
import SystemsManager.Autopilot.State

/-!
# The observed fleet, the ledger and the placement tables

The inputs of the planner and the pure functions on them (`backend/autopilot_planner.py`,
lines 1 to 302, less the speed ranking of `Speed.lean`). `placements` and `freshPlaced` say
where an entry runs, `residents` is the table with one slot per single-resident provider and
agent, and `fitAndSize` with `commitBudget` are the only readers and writers of the budgets.
-/

namespace SystemsManager.Autopilot

open Python

/-- `COOLDOWN_S` -/
def COOLDOWN_S : ℚ := 120

/-- `DWELL_S` -/
def DWELL_S : ℚ := 600

/-- `PLACEMENT_FRESH_S`: ledger placements this recent count as placed. -/
def PLACEMENT_FRESH_S : ℚ := 240

/-- `VRAM_HEADROOM_MB` -/
def VRAM_HEADROOM_MB : Int := 1024

/-- The answers of `agent_registry.agent_liveness`. -/
inductive Liveness where
  | live
  | stale
  | down
  | pending
  | disabled
  deriving DecidableEq, Repr

/-- The state of a llama server. -/
inductive ServerState where
  | awake
  | sleeping
  deriving DecidableEq, Repr

/-- The newest live-bench run of a model on an agent. -/
structure SpeedRow where
  ts : Option ℚ
  llamaBuild : String
  genTps : Option ℚ
  latencyS : Option ℚ
  whPerKtok : Option ℚ
  runId : Option String
  hostname : String

/-- One agent of the observation. A missing list of loaded models reads as empty, and a
missing `answered` block comes from an agent too old to send one. -/
structure Agent where
  providerCaps : List Provider
  live : Bool
  liveness : Option Liveness
  vramTotalMb : Int
  vramFreeMb : Int
  ramFreeMb : Option Int
  loaded : Provider → List String
  answered : Option (Provider → Option Bool)
  serverState : Option ServerState
  llamaBuild : String

/-- The observation that `build_observed` makes of the fleet. -/
structure Observed where
  agents : Dict String Agent
  modelSizesMb : Dict String Int
  modelGpuLayers : Dict String (Option Int)
  routePins : Provider → Dict String String
  satHistory : Dict String (List (ℚ × ℚ))
  speed : Dict String (Dict String SpeedRow)

/-- The reconciler's ledger, as far as the planner reads it. -/
structure Ledger where
  lastActionTs : Dict String ℚ
  placedAt : Dict String (Dict String ℚ)
  inFlightMigrations : Int
  backoffUntil : Dict String ℚ
  unloadBackoff : Dict String (Dict String ℚ)
  confirmed : Dict String (List String)

/-- A ledger without any action. -/
def noLedger : Ledger where
  lastActionTs := ∅
  placedAt := ∅
  inFlightMigrations := 0
  backoffUntil := ∅
  unloadBackoff := ∅
  confirmed := ∅

/-- The kinds of action the planner emits. -/
inductive ActionKind where
  | wake
  | load
  | scaleUp
  | scaleDown
  deriving DecidableEq, Repr

/-- An action of a plan. -/
structure Action where
  kind : ActionKind
  provider : Provider
  model : String
  agentId : String
  reason : String
  auto : Bool
  entryKey : String
  deriving DecidableEq

/-- `_key` -/
def Entry.key (e : Entry) : String := e.model ++ "/" ++ e.provider.name

/-- The key of a model in the observation's size and layer tables. -/
def modelKey (provider : Provider) (model : String) : String := provider.name ++ ":" ++ model

/-- `_reporting`: live or merely stale agents. -/
def Agent.reporting (a : Agent) : Bool := a.live || a.liveness == some .stale

/-- The agent is observed and reporting. -/
def Observed.reports (observed : Observed) (aid : String) : Bool :=
  match observed.agents.get? aid with
  | some a => a.reporting
  | none => false

/-- `_placements`: reporting agents whose last sample shows the model loaded. -/
def placements (e : Entry) (observed : Observed) : List String :=
  (observed.agents.items.filter fun (_, a) =>
    a.reporting && (a.loaded e.provider).contains e.model).map Prod.fst

/-- `_fresh_placed`: ledger placements younger than `PLACEMENT_FRESH_S` that no observed sample
has confirmed yet. -/
def freshPlaced (k : String) (ledger : Option Ledger) (now : Option ℚ) : List String :=
  match ledger, now with
  | some ledger, some now =>
      let confirmed := ledger.confirmed.getD k []
      ((ledger.placedAt.getD k ∅).items.filter fun (aid, ts) =>
        now - ts < PLACEMENT_FRESH_S && !confirmed.contains aid).map Prod.fst
  | _, _ => []

/-- `_with_fresh`: the placements plus fresh in-flight placements on reporting agents. -/
def withFresh (placed : List String) (k : String) (observed : Observed) (ledger : Option Ledger)
    (now : Option ℚ) : List String :=
  (freshPlaced k ledger now).foldl
    (fun out aid => if !out.contains aid && observed.reports aid then out ++ [aid] else out) placed

/-- `_effective_placements` -/
def effectivePlacements (e : Entry) (k : String) (observed : Observed) (ledger : Option Ledger)
    (now : Option ℚ) : List String :=
  withFresh (placements e observed) k observed ledger now

/-- The resident table: one slot for each single-resident provider and agent. -/
abbrev Residents := Dict (Provider × String) String

/-- The slots of one agent that its sample fills: the first loaded model of each
single-resident provider. -/
def sampleSlots (res : Residents) (aid : String) (a : Agent) : Residents :=
  if a.reporting then
    Provider.singleResidentNames.foldl (fun res prov =>
      match a.loaded prov with
      | [] => res
      | model :: _ => res.set (prov, aid) model) res
  else res

/-- The slots that one entry's fresh placements fill, where the sample left them empty. -/
def ledgerSlots (observed : Observed) (ledger : Option Ledger) (now : Option ℚ) (res : Residents)
    (e : Entry) : Residents :=
  if e.provider.singleResident then
    (freshPlaced e.key ledger now).foldl (fun res aid =>
      if observed.reports aid then res.setDefault (e.provider, aid) e.model else res) res
  else res

/-- `_residents`: seeded from observed loads, then from fresh in-flight placements. -/
def residents (desired : Desired) (observed : Observed) (ledger : Option Ledger)
    (now : Option ℚ) : Residents :=
  desired.entries.foldl (ledgerSlots observed ledger now)
    (observed.agents.items.foldl (fun res (aid, a) => sampleSlots res aid a) ∅)

/-- `_model_size_mb` -/
def modelSizeMb (observed : Observed) (provider : Provider) (model : String) : Option Int :=
  observed.modelSizesMb.get? (modelKey provider model)

/-- The provider and model pairs that no placement may displace. -/
abbrev Managed := List (Provider × String)

/-- `_displaced_by`: the unmanaged resident that the model would displace on the agent. Of the
entry it reads only the provider and the model, as do the functions below. -/
def displacedBy (provider : Provider) (model aid : String) (res : Residents)
    (managed : Managed) : Option String :=
  if provider.singleResident then
    match res.get? (provider, aid) with
    | some cur => if cur = model ∨ (provider, cur) ∈ managed then none else some cur
    | none => none
  else none

/-- `_uses_ram_budget`: a CPU-served llama model, or a host that reports no GPU memory. -/
def usesRamBudget (provider : Provider) (model : String) (observed : Observed) (aid : String) :
    Bool :=
  match observed.agents.get? aid with
  | some a => a.vramTotalMb == 0 || cpuServed
  | none => cpuServed
where
  /-- `model_gpu_layers` says zero for a llama model. -/
  cpuServed : Bool :=
    provider == .llama && (observed.modelGpuLayers.get? (modelKey provider model)) == some (some 0)

/-- `_displace_credit`: the MB that displacing the unmanaged resident gives back. -/
def displaceCredit (provider : Provider) (model aid : String) (res : Residents)
    (managed : Managed) (observed : Observed) : Int :=
  match displacedBy provider model aid res managed with
  | none => 0
  | some cur =>
      let ram := usesRamBudget provider model observed aid
      -- A resident that lives on the other budget gives nothing back.
      if ram != usesRamBudget provider cur observed aid then 0
      else
        let size := modelSizeMb observed provider cur
        if ram then size.getD 0
        else match observed.agents.get? aid with
          | none => 0
          | some a =>
              let used := max (a.vramTotalMb - a.vramFreeMb) 0
              match size with
              | some size => min size used
              | none => used

/-- `_resident_conflict`: placing the model here would displace another managed model. -/
def residentConflict (provider : Provider) (model aid : String) (res : Residents)
    (managed : Managed) : Bool :=
  provider.singleResident &&
    match res.get? (provider, aid) with
    | some cur => decide (cur ≠ model ∧ (provider, cur) ∈ managed)
    | none => false

/-- `_unanswered`: a llama host whose last sample is stale or unknown. -/
def unanswered (a : Agent) (provider : Provider) : Bool :=
  provider == .llama &&
    match a.answered with
    | some answered => answered provider == some false
    | none => false

/-- `_fits`: capability, heartbeat, a fresh answered sample and a known size. -/
def fits (e : Entry) (a : Agent) (size : Option Int) : Bool :=
  a.providerCaps.contains e.provider && a.live && !unanswered a e.provider && size.isSome

/-- `_dwell_blocks`: a recent placement on a now-dead agent. -/
def dwellBlocks (k : String) (placedAt : Dict String (Dict String ℚ)) (observed : Observed)
    (now : ℚ) : Bool :=
  (placedAt.getD k ∅).items.any fun (aid, ts) =>
    (match observed.agents.get? aid with
      | some a => !a.live
      | none => true) && decide (now - ts < DWELL_S)

/-- `_has_dead_candidate`: a dead, capable candidate makes any placement a failover. -/
def hasDeadCandidate (e : Entry) (candidates : List String) (observed : Observed) : Bool :=
  candidates.any fun aid => match observed.agents.get? aid with
    | some a => a.providerCaps.contains e.provider && !a.live
    | none => false

/-- `_may_auto`: the kill switch is on, the provider may act alone and the entry asks for it. -/
def mayAuto (e : Entry) (desired : Desired) : Bool :=
  desired.enabled && e.provider != .vllm && e.failover == .auto

/-- What a pass over the entries mutates: the budgets and the resident table. -/
structure Budgets where
  free : Dict String Int
  freeRam : Dict String Int
  residents : Residents

/-- `(free_ram if _uses_ram_budget(e, observed, aid) else free).get(aid, 0)` -/
def Budgets.available (b : Budgets) (e : Entry) (aid : String) (observed : Observed) : Int :=
  (if usesRamBudget e.provider e.model observed aid then b.freeRam else b.free).getD aid 0

/-- `_fit_and_size`, with the agent looked up first: a candidate outside the observation fits
nowhere. -/
def fitAndSize (e : Entry) (aid : String) (b : Budgets) (observed : Observed)
    (managed : Managed) : Bool × Option Int × Int :=
  let size := modelSizeMb observed e.provider e.model
  let credit := displaceCredit e.provider e.model aid b.residents managed observed
  let fit := match observed.agents.get? aid with
    | some a => fits e a size &&
        decide (b.available e aid observed + credit ≥ size.getD 0 + VRAM_HEADROOM_MB)
    | none => false
  (fit, size, credit)

/-- `_commit_budget`: charge the placement to its budget and take over the resident slot. -/
def commitBudget (e : Entry) (aid : String) (size : Option Int) (b : Budgets)
    (observed : Observed) : Budgets where
  free := if usesRamBudget e.provider e.model observed aid then b.free
    else b.free.set aid (b.free.getD aid 0 - size.getD 0)
  freeRam := if usesRamBudget e.provider e.model observed aid
    then b.freeRam.set aid (b.freeRam.getD aid 0 - size.getD 0) else b.freeRam
  residents := if e.provider.singleResident then b.residents.set (e.provider, aid) e.model
    else b.residents

/-- The entries in priority order. -/
def priorityOrder (desired : Desired) : List Entry :=
  sortedBy Entry.priority desired.entries

/-- The budgets that `_init_pass` starts from. -/
def initBudgets (desired : Desired) (observed : Observed) (ledger : Option Ledger)
    (now : Option ℚ) : Budgets where
  free := observed.agents.mapItems fun _ a => a.vramFreeMb
  freeRam := observed.agents.mapItems fun _ a => a.ramFreeMb.getD 0
  residents := residents desired observed ledger now

/-- The managed set of `_init_pass`: the entries' models and, with `protect_unmanaged`, every
resident of the initial table. -/
def managedSet (desired : Desired) (observed : Observed) (ledger : Option Ledger)
    (now : Option ℚ) : Managed :=
  desired.entries.map (fun e => (e.provider, e.model)) ++
    if desired.protectUnmanaged then
      (residents desired observed ledger now).items.map fun (slot, model) => (slot.1, model)
    else []

end SystemsManager.Autopilot
