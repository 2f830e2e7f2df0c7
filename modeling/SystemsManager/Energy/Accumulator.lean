import SystemsManager.Energy.Samples
import SystemsManager.Python.Tally

/-!
# The energy accumulator

`Accumulator.tick` turns a snapshot of the provider buckets into one increment per agent, with
the increment's split over the models of the host. `tickAgent` follows `_tick_agent`: freshness,
the merge of the counters over the fresh buckets, the deltas against the last merged values, the
host row, and `splitModels`. Times and amounts are exact rationals. The local `deltas` is part of
what `tickAgent` returns, because the accounting of single counters is about it.
-/

namespace SystemsManager.Energy

open Python

/-- The oldest sample that still counts, in seconds. -/
def freshS : ℚ := 90

/-- The longest time one tick accounts for. -/
def maxGapS : ℚ := 120

/-- An agent without a fresh sample for this long is forgotten. -/
def agentEvictS : ℚ := 24 * 3600

/-- A provider bucket: its sample, `none` when it is not a dictionary, and when it came. -/
structure Bucket where
  sample : Option Sample
  lastSeen : ℚ

/-- A view that the accumulator may be given: not wired, raising, or a value. -/
inductive View (α : Type) where
  | unwired
  | failed
  | value (v : α)

/-- What one tick reads. `store` is `none` when the store view raises. -/
structure Views where
  store : Option (Dict String (Dict String Bucket))
  usage : View (Dict String Counter) := .unwired
  usageModels : View (Dict String (Dict String Counter)) := .unwired

/-- What is remembered of an agent between ticks. -/
structure AgentState where
  last : Option ℚ := none
  counters : Dict CounterKey Counter := ∅

/-- The additive columns of a row. -/
structure Columns where
  observedS : ℚ
  activeS : ℚ
  powerS : ℚ
  energyWh : ℚ
  activeEnergyWh : ℚ
  tokensGen : Int
  tokensPrompt : Int
  deriving DecidableEq

/-- One model's part of an increment. -/
structure ModelRow extends Columns where
  model : String
  residentS : ℚ
  deriving DecidableEq

/-- One host increment with its split. -/
structure Increment extends Columns where
  hourTs : Int
  agentId : String
  hostname : Option String
  powerSource : Option PowerSource
  models : List ModelRow
  deriving DecidableEq

/-- What a tick did for an agent with a fresh sample. -/
structure AgentTick where
  state : AgentState
  deltas : Dict CounterKey (Int × Int)
  increment : Option Increment

section Buckets

/-- The fresh samples with their times, in the order of the buckets. -/
def fresh (now : ℚ) (buckets : Dict String Bucket) : List (Sample × ℚ) :=
  buckets.items.filterMap fun item =>
    if now - item.2.lastSeen ≤ freshS then item.2.sample.map fun s => (s, item.2.lastSeen) else none

/-- The fresh samples, freshest first. -/
def ordered (samples : List (Sample × ℚ)) : List (Sample × ℚ) :=
  sortedBy (fun entry => -entry.2) samples

/-- The larger of two values, an unknown one losing. -/
def mergeField (m v : Option Int) : Option Int :=
  match v, m with
  | none, m => m
  | some v, none => some v
  | some v, some m => if m < v then some v else some m

/-- Merge one block's counters into what the buckets before it gave for the key. -/
def mergeCounter (merged : Dict CounterKey Counter) (item : CounterKey × Counter) :
    Dict CounterKey Counter :=
  let m := merged.getD item.1 {}
  merged.set item.1 ⟨mergeField m.gen item.2.gen, mergeField m.prompt item.2.prompt⟩

/-- Merge duplicate counters across the buckets by maximum. -/
def mergeCounters (samples : List (Sample × ℚ)) : Dict CounterKey Counter :=
  samples.foldl (fun merged entry => (extractCounters entry.1).items.foldl mergeCounter merged) ∅

/-- `_gateway_models`: the gateway's counters per model, if that view is wired and answers. -/
def gatewayModels (views : Views) (agentId : String) : Option (Dict String Counter) :=
  match views.usageModels with
  | .unwired => none
  | .failed => none
  | .value usage => some (usage.getD agentId ∅)

/-- The counters with those of the gateway: per model when that view answers, else the agent's
total. -/
def addGateway (views : Views) (agentId : String) (merged : Dict CounterKey Counter) :
    Dict CounterKey Counter :=
  match gatewayModels views agentId with
  | some models =>
      models.items.foldl (fun merged item => merged.set (.gatewayModel item.1) item.2) merged
  | none =>
      match views.usage with
      | .value usage =>
          match usage.get? agentId with
          | some counter => merged.set .gateway counter
          | none => merged
      | .unwired | .failed => merged

/-- The loop over the merged counters: the new baselines, the deltas and their sum. -/
structure Advance where
  counters : Dict CounterKey Counter
  deltas : Dict CounterKey (Int × Int) := ∅
  tokens : Int × Int := 0

/-- One turn of the loop. -/
def advanceOne (acc : Advance) (item : CounterKey × Counter) : Advance :=
  let cst := acc.counters.getD item.1 {}
  let gen := counterDelta cst.gen item.2.gen
  let prompt := counterDelta cst.prompt item.2.prompt
  { counters := acc.counters.set item.1 ⟨gen.2, prompt.2⟩
    deltas := acc.deltas.set item.1 (gen.1, prompt.1)
    tokens := acc.tokens + (gen.1, prompt.1) }

/-- Difference the merged counters against the baselines. -/
def advance (counters merged : Dict CounterKey Counter) : Advance :=
  merged.items.foldl advanceOne { counters := counters }

/-- Add one sample's resident models; a model that was listed by a fresher sample is not listed
again. -/
def addResident (resident : Dict Provider (List String)) (item : Provider × List String) :
    Dict Provider (List String) :=
  let listed := resident.getD item.1 []
  resident.set item.1 (listed ++ item.2.filter fun m => m ∉ listed)

/-- The resident models of the host by provider, freshest sample first. -/
def residents (cases : CaseMap) (samples : List (Sample × ℚ)) : Dict Provider (List String) :=
  (ordered samples).foldl
    (fun resident entry => (extractModels cases entry.1).items.foldl addResident resident) ∅

end Buckets

section Split

variable (cases : CaseMap)

/-- The resident model that a gateway id names, or the id itself. -/
def matchModel (modelId : String) (resident : List String) : String :=
  (resident.find? fun m => modelKey cases m = modelKey cases modelId).getD modelId

/-- `models or [NO_MODEL]`. -/
def orNoModel (models : List String) : List String := if models = [] then [noModel] else models

/-- The models that the tokens of a counter go to. -/
def targets (resident : Dict Provider (List String)) : CounterKey → List String
  | .gatewayModel model =>
      if model = "" then orNoModel (resident.getD .lms [])
      else [matchModel cases model (resident.getD .lms [])]
  | .gateway => orNoModel (resident.getD .lms [])
  | .llama => orNoModel (resident.getD .llama [])
  | .vllm => orNoModel (resident.getD .vllm [])

/-- The part of `d` tokens that target number `i` of `n` gets: the first takes the remainder. -/
def part (d : Int) (n i : Nat) : Int :=
  if i = 0 then d.fdiv n + d.fmod n else d.fdiv n

/-- The tokens target number `i` of `n` gets. -/
def share (d : Int × Int) (n i : Nat) : Int × Int := (part d.1 n i, part d.2 n i)

/-- Give the tokens of one counter to its targets. -/
def giveTokens (resident : Dict Provider (List String)) (tokens : Dict String (Int × Int))
    (item : CounterKey × (Int × Int)) : Dict String (Int × Int) :=
  if item.2 = 0 then tokens
  else
    let names := targets cases resident item.1
    names.zipIdx.foldl (fun tokens target =>
      tokens.tally target.1 (share item.2 names.length target.2)) tokens

/-- The tokens of each model. -/
def modelTokens (resident : Dict Provider (List String)) (deltas : Dict CounterKey (Int × Int)) :
    Dict String (Int × Int) :=
  deltas.items.foldl (giveTokens cases resident) ∅

/-- The models a row is written for: those resident, then those that only served. -/
def rowModels (resident : Dict Provider (List String)) (tokens : Dict String (Int × Int)) :
    List String :=
  let models := (resident.items.map Prod.snd).flatten
  let models := tokens.keys.foldl (fun models m => if m ∈ models then models else models ++ [m])
    models
  if models = [] then [noModel] else models

/-- A model's weight: its part of the tokens, or the same for all when there are none. -/
def weight (tokens : Dict String (Int × Int)) (models : List String) (m : String) : ℚ :=
  let total := (tokens.items.map fun item => item.2.1 + item.2.2).sum
  let own := tokens.getD m 0
  if 0 < total then ((own.1 + own.2 : Int) : ℚ) / total else 1 / models.length

/-- The split of one host row. -/
def splitModels (inc : Columns) (resident : Dict Provider (List String))
    (deltas : Dict CounterKey (Int × Int)) : List ModelRow :=
  let tokens := modelTokens cases resident deltas
  let models := rowModels resident tokens
  models.map fun m =>
    let w := weight tokens models m
    let own := tokens.getD m 0
    { model := m
      residentS := inc.observedS
      observedS := inc.observedS * w
      activeS := inc.activeS * w
      powerS := inc.powerS * w
      energyWh := inc.energyWh * w
      activeEnergyWh := inc.activeEnergyWh * w
      tokensGen := own.1
      tokensPrompt := own.2 }

/-- The time one tick accounts for. -/
def elapsed (last : Option ℚ) (now : ℚ) : ℚ :=
  match last with
  | none => 0
  | some last => max 0 (min (now - last) maxGapS)

/-- The host row of a tick without its split. -/
def hostColumns (dt : ℚ) (watts : Option ℚ) (busy : Bool) (tokens : Int × Int) : Columns :=
  let wh := match watts with
    | some watts => watts * dt / 3600
    | none => 0
  { observedS := dt
    activeS := if busy then dt else 0
    powerS := if watts.isSome then dt else 0
    energyWh := wh
    activeEnergyWh := if busy then wh else 0
    tokensGen := tokens.1
    tokensPrompt := tokens.2 }

/-- `_tick_agent`; `none` when no bucket is fresh. `state` is the agent's, if it has one. -/
def tickAgent (views : Views) (now : ℚ) (agentId : String) (buckets : Dict String Bucket)
    (state : Option AgentState) : Option AgentTick :=
  let samples := fresh now buckets
  if samples = [] then none else
    let st := state.getD {}
    let dt := elapsed st.last now
    let power := (ordered samples).findSome? fun entry => extractPower entry.1
    let hostname := (ordered samples).findSome? fun entry => extractHostname entry.1
    let busy := samples.any fun entry => extractBusy entry.1
    let merged := addGateway views agentId (mergeCounters samples)
    let adv := advance st.counters merged
    let inc := hostColumns dt (power.map Prod.fst) busy adv.tokens
    let increment := if dt ≤ 0 ∧ adv.tokens.1 = 0 ∧ adv.tokens.2 = 0 then none else
      some { toColumns := inc
             hourTs := (now / 3600).floor * 3600
             agentId := agentId
             hostname := hostname
             powerSource := power.map Prod.snd
             models := splitModels cases inc (residents cases samples) adv.deltas }
    some { state := { last := some now, counters := adv.counters }
           deltas := adv.deltas
           increment := increment }

end Split

section Tick

/-- What the accumulator remembers. -/
abbrev Agents := Dict String AgentState

/-- `_evict`: forget the agents without a fresh sample for too long. -/
def evict (now : ℚ) (agents : Agents) : Agents :=
  agents.filter fun _ st => now - st.last.getD 0 ≤ agentEvictS

/-- The loop of `tick` over the agents of the store view. -/
def tickOne (cases : CaseMap) (views : Views) (now : ℚ) (acc : Agents × List Increment)
    (item : String × Dict String Bucket) : Agents × List Increment :=
  match tickAgent cases views now item.1 item.2 (acc.1.get? item.1) with
  | none => acc
  | some result => (acc.1.set item.1 result.state, acc.2 ++ result.increment.toList)

/-- `tick`: the new memory and the increments handed to the sink. -/
def tick (cases : CaseMap) (views : Views) (now : ℚ) (agents : Agents) :
    Agents × List Increment :=
  match views.store with
  | none => (agents, [])
  | some view =>
      let result := view.items.foldl (tickOne cases views now) (agents, [])
      (evict now result.1, result.2)

end Tick

end SystemsManager.Energy
