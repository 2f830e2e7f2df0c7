import SystemsManager.Autopilot.Moves

/-!
# The reconciler

`Reconciler` of `backend/autopilot.py`: a tick observes the fleet, brings the ledger up to date,
plans, runs the actions that may run alone and keeps the others as proposals; `apply` runs a
proposal and `dismiss` drops one. What comes from outside is an argument: the desired state, the
observation, the clock, and for each action that is run an `Attempt`, which says what became of it.
An exception of the executor leaves the tick with what it has done so far, so `tick` returns the
plan only where it gets to its end.
-/

namespace SystemsManager.Autopilot

open Python

/-- `BLANK_GRACE_S`: a confirmed placement survives blank samples this long. -/
def BLANK_GRACE_S : ℚ := 90

/-- `_SAT_HISTORY_WINDOW_S` -/
def SAT_HISTORY_WINDOW_S : ℚ := 1200

/-- The reconciler's ledger. -/
structure FullLedger extends Ledger where
  blankSince : Dict String (Dict String ℚ)

/-- `_empty_ledger` -/
def FullLedger.empty : FullLedger where
  lastActionTs := ∅
  placedAt := ∅
  inFlightMigrations := 0
  backoffUntil := ∅
  unloadBackoff := ∅
  confirmed := ∅
  blankSince := ∅

section Samples

/-- `k.rpartition("/")`: the model, and the name of the provider. -/
def keyParts (k : String) : String × String :=
  let name := (k.toList.reverse.takeWhile fun c => c != '/').reverse
  (String.ofList (k.toList.take (k.toList.length - name.length - 1)), String.ofList name)

/-- `_sample_blank`: the provider lists nothing loaded and did not answer. -/
def sampleBlank (a : Agent) (provider : Provider) : Bool :=
  if !(a.loaded provider).isEmpty then false
  else match a.answered with
    | some answered => match answered provider with
        | some told => !told
        | none => provider != .llama || a.serverState.isNone
    | none => provider != .llama || a.serverState.isNone

/-- The reporting agents whose sample shows a model of a provider. -/
def reportedOn (model : String) (provider : Provider) (observed : Observed) : List String :=
  (observed.agents.items.filter fun (_, a) =>
    a.reporting && (a.loaded provider).contains model).map Prod.fst

/-- `agent["loaded"].setdefault(provider, []).append(model)` -/
def Observed.inject (observed : Observed) (aid : String) (provider : Provider) (model : String) :
    Observed :=
  match observed.agents.get? aid with
  | some a => { observed with
      agents := observed.agents.set aid { a with
        loaded := fun p => if p = provider then a.loaded p ++ [model] else a.loaded p } }
  | none => observed

end Samples

section Pruning

/-- The keys of the entries. -/
def Desired.keys (desired : Desired) : List String := desired.entries.map Entry.key

/-- `_prune_stale_keys`, of the ledger. -/
def pruneStaleKeys (desired : Desired) (observed : Observed) (ledger : FullLedger) : FullLedger :=
  let known {ν : Type} (d : Dict String ν) : Dict String ν :=
    d.filter fun k _ => desired.keys.contains k
  let there {ν : Type} (d : Dict String ν) : Dict String ν :=
    d.filter fun aid _ => (observed.agents.get? aid).isSome
  { lastActionTs := there ledger.lastActionTs
    placedAt := known ledger.placedAt
    inFlightMigrations := ledger.inFlightMigrations
    backoffUntil := known ledger.backoffUntil
    unloadBackoff := (known ledger.unloadBackoff).mapItems fun _ amap => there amap
    confirmed := known ledger.confirmed
    blankSince := (known ledger.blankSince).mapItems fun _ amap => there amap }

/-- The agents that confirm one key: since when each of them is blank, and the placements that are
kept in the observation. -/
def scanBlank (observed : Observed) (now : ℚ) (model : String) (provider : Provider) :
    List String → Dict String ℚ → Dict String ℚ × List (String × Provider × String)
  | [], since => (since, [])
  | aid :: rest, since => match observed.agents.get? aid with
      | none => scanBlank observed now model provider rest since
      | some agent =>
          if !agent.reporting then scanBlank observed now model provider rest since
          else if !sampleBlank agent provider then
            scanBlank observed now model provider rest (since.erase aid)
          else
            let start := since.getD aid now
            let (since, kept) := scanBlank observed now model provider rest
              (since.setDefault aid now)
            (since, if now - start < BLANK_GRACE_S then (aid, provider, model) :: kept else kept)

/-- The loop of `_debounce_blank` over the confirmed keys. -/
def scanConfirmed (observed : Observed) (now : ℚ) :
    List (String × List String) → Dict String (Dict String ℚ) →
      Dict String (Dict String ℚ) × List (String × Provider × String)
  | [], blankSince => (blankSince, [])
  | (k, aids) :: rest, blankSince => match Provider.ofName? (keyParts k).2 with
      -- The keys are those of entries here, so each of them names a provider.
      | none => scanConfirmed observed now rest blankSince
      | some provider =>
          let (since, kept) :=
            scanBlank observed now (keyParts k).1 provider aids (blankSince.getD k ∅)
          let (blankSince, others) := scanConfirmed observed now rest (blankSince.set k since)
          (blankSince, kept ++ others)

/-- `_debounce_blank` with `record`: every check reads the raw sample, and the placements are put
into the observation after the scan. -/
def debounceBlank (observed : Observed) (now : ℚ) (ledger : FullLedger) : FullLedger × Observed :=
  let (blankSince, kept) := scanConfirmed observed now ledger.confirmed.items ledger.blankSince
  ({ ledger with blankSince := blankSince },
    kept.foldl (fun observed place => observed.inject place.1 place.2.1 place.2.2) observed)

/-- `confirmed.setdefault(k, set()).add(aid)` -/
def confirm (k aid : String) (confirmed : Dict String (List String)) : Dict String (List String) :=
  let aids := confirmed.getD k []
  confirmed.set k (if aids.contains aid then aids else aids ++ [aid])

/-- The reporting agents that show the model of a key. -/
def reportedKey (k : String) (observed : Observed) : List String :=
  match Provider.ofName? (keyParts k).2 with
  | some provider => reportedOn (keyParts k).1 provider observed
  | none => []

/-- The rows of a key that a reporting agent confirms. -/
def confirmRows (observed : Observed) (confirmed : Dict String (List String))
    (row : String × Dict String ℚ) : Dict String (List String) :=
  row.2.keys.foldl (fun confirmed aid =>
    if (reportedKey row.1 observed).contains aid then confirm row.1 aid confirmed else confirmed)
    confirmed

/-- A placement row stays while it is reported, while it is fresh, and while its agent is down. -/
def keepsRow (observed : Observed) (now : ℚ) (k aid : String) (ts : ℚ) : Bool :=
  (reportedKey k observed).contains aid || now - ts < PLACEMENT_FRESH_S ||
    match observed.agents.get? aid with
    | some agent => !agent.live
    | none => false

/-- `_prune_placed_at` -/
def prunePlacedAt (observed : Observed) (now : ℚ) (ledger : FullLedger) : FullLedger :=
  let confirmed := ledger.placedAt.items.foldl (confirmRows observed) ledger.confirmed
  let placedAt := ledger.placedAt.mapItems fun k amap => amap.filter (keepsRow observed now k)
  -- `confirmed` never outlives its `placed_at` row; `blank_since` never outlives `confirmed`.
  let confirmed := (confirmed.mapItems fun k aids =>
    aids.filter fun aid => ((placedAt.getD k ∅).get? aid).isSome).filter fun _ aids => !aids.isEmpty
  let blankSince := (ledger.blankSince.mapItems fun k amap =>
    amap.filter fun aid _ => (confirmed.getD k []).contains aid).filter fun _ amap =>
      !amap.items.isEmpty
  { ledger with placedAt := placedAt, confirmed := confirmed, blankSince := blankSince }

end Pruning

section Runs

/-- What becomes of an action that is run. -/
inductive Attempt where
  /-- A Tools run owns the host. -/
  | busy
  /-- `_busy_agents` raises. -/
  | busyRaises
  | returns (ok : Bool)
  | raises

/-- The actions that unload a model. -/
def ActionKind.unloads : ActionKind → Bool
  | .scaleDown => true
  | _ => false

/-- `action.reason.startswith("failover:")` -/
def Action.migration (a : Action) : Bool := a.reason.startsWith "failover:"

/-- The ledger while a migration is in flight. -/
def FullLedger.enter (ledger : FullLedger) (a : Action) : FullLedger :=
  { ledger with inFlightMigrations :=
      if a.migration then ledger.inFlightMigrations + 1 else ledger.inFlightMigrations }

/-- The ledger after it. -/
def FullLedger.leave (ledger : FullLedger) (a : Action) : FullLedger :=
  { ledger with inFlightMigrations :=
      if a.migration then max 0 (ledger.inFlightMigrations - 1) else ledger.inFlightMigrations }

/-- `d[k].pop(aid, None)` where `k` is there. -/
def popAgent (k aid : String) (d : Dict String (Dict String ℚ)) : Dict String (Dict String ℚ) :=
  match d.get? k with
  | some amap => d.set k (amap.erase aid)
  | none => d

/-- The placement rows after an action that succeeded. -/
def placedAfter (a : Action) (now : ℚ) (placedAt : Dict String (Dict String ℚ)) :
    Dict String (Dict String ℚ) :=
  if a.kind.places then
    placedAt.set a.entryKey ((placedAt.getD a.entryKey ∅).set a.agentId now)
  else if a.kind.unloads then popAgent a.entryKey a.agentId placedAt
  else placedAt

/-- What is blank after an action that succeeded. -/
def blankAfter (a : Action) (blankSince : Dict String (Dict String ℚ)) :
    Dict String (Dict String ℚ) :=
  match blankSince.get? a.entryKey with
  | some since =>
      if (since.erase a.agentId).items.isEmpty then blankSince.erase a.entryKey
      else blankSince.set a.entryKey (since.erase a.agentId)
  | none => blankSince

/-- What is confirmed after an action that succeeded. -/
def confirmedAfter (a : Action) (confirmed : Dict String (List String)) :
    Dict String (List String) :=
  match confirmed.get? a.entryKey with
  | some aids => confirmed.set a.entryKey (aids.filter fun aid => aid != a.agentId)
  | none => confirmed

/-- The ledger after an action that was run. -/
def settleRun (a : Action) (now : ℚ) (ok : Bool) (ledger : FullLedger) : FullLedger :=
  if ok then
    { ledger with
      lastActionTs := ledger.lastActionTs.set a.agentId now
      placedAt := placedAfter a now ledger.placedAt
      confirmed := confirmedAfter a ledger.confirmed
      blankSince := blankAfter a ledger.blankSince }
  else if a.kind.unloads then
    { ledger with
      unloadBackoff := ledger.unloadBackoff.set a.entryKey
        ((ledger.unloadBackoff.getD a.entryKey ∅).set a.agentId (now + 300)) }
  else if a.kind = .wake then ledger
  else { ledger with backoffUntil := ledger.backoffUntil.set a.entryKey (now + 300) }

/-- `_run`: the ledger afterwards, and what is returned; nothing where an exception is raised. -/
def runAction (a : Action) (attempt : Attempt) (now : ℚ) (ledger : FullLedger) :
    FullLedger × Option Bool :=
  match attempt with
  | .busy => (ledger, some false)
  | .busyRaises => (ledger, none)
  | .returns ok => (settleRun a now ok ((ledger.enter a).leave a), some ok)
  | .raises => ((ledger.enter a).leave a, none)

end Runs

/-- `sig(a)` -/
abbrev Sig := ActionKind × Provider × String × String

/-- `sig(a)` -/
def Action.sig (a : Action) : Sig := (a.kind, a.provider, a.model, a.agentId)

/-- A pending proposal. -/
structure Proposal where
  sig : Sig
  action : Action
  created : ℚ

/-- The reconciler. -/
structure Reconciler where
  ledger : FullLedger
  proposals : Dict String Proposal
  satHistory : Dict String (List (ℚ × ℚ))
  /-- The number of ids drawn for proposals. -/
  drawn : ℕ

/-- A new reconciler. -/
def Reconciler.fresh : Reconciler := ⟨.empty, ∅, ∅, 0⟩

/-- What a tick takes from outside. -/
structure TickInput where
  desired : Desired
  observed : Observed
  /-- The saturation that an agent reports of a provider. -/
  saturation : String → Provider → Option ℚ
  now : ℚ
  /-- What becomes of the n-th action of the plan, where it is run. -/
  attempt : ℕ → Attempt

section Ticks

/-- The saturation history of one entry. -/
def refreshEntry (t : TickInput) (observed : Observed) (history : Dict String (List (ℚ × ℚ)))
    (e : Entry) : Dict String (List (ℚ × ℚ)) :=
  let placed := placements e observed
  let vals := placed.filterMap fun aid => t.saturation aid e.provider
  let kept := if placed.isEmpty then []
    else (history.getD e.key []).filter fun point => t.now - SAT_HISTORY_WINDOW_S ≤ point.1
  history.set e.key (match vals with
    | [] => kept
    | val :: rest => kept ++ [(t.now, rest.foldl max val)])

/-- `_refresh_sat_history`, after the stale keys are gone. -/
def refreshSatHistory (t : TickInput) (observed : Observed)
    (history : Dict String (List (ℚ × ℚ))) : Dict String (List (ℚ × ℚ)) :=
  t.desired.entries.foldl (refreshEntry t observed)
    (history.filter fun k _ => t.desired.keys.contains k)

/-- The ledger and the observation that a tick plans with. -/
def prepare (t : TickInput) (r : Reconciler) : FullLedger × Observed :=
  let (ledger, observed) :=
    debounceBlank t.observed t.now (pruneStaleKeys t.desired t.observed r.ledger)
  (prunePlacedAt observed t.now ledger,
    { observed with satHistory := refreshSatHistory t observed r.satHistory })

/-- The plan of a tick. -/
def plannedBy (t : TickInput) (r : Reconciler) : Py (List Action) :=
  plan t.desired (prepare t r).2 (prepare t r).1.toLedger t.now

variable (newId : ℕ → String)

/-- A proposal for an action, unless one is pending. -/
def propose (a : Action) (now : ℚ) (r : Reconciler) : Reconciler :=
  if r.proposals.items.any fun item => item.2.sig = a.sig then r
  else { r with
    proposals := r.proposals.set (newId r.drawn) ⟨a.sig, a, now⟩
    drawn := r.drawn + 1 }

/-- The loop over the actions from the n-th on; it stops where an exception is raised. -/
def handleActions (t : TickInput) : ℕ → List Action → Reconciler → Reconciler × Bool
  | _, [], r => (r, true)
  | n, a :: rest, r =>
      if a.auto then
        match runAction a (t.attempt n) t.now r.ledger with
        | (ledger, none) => ({ r with ledger := ledger }, false)
        | (ledger, some _) => handleActions t (n + 1) rest { r with ledger := ledger }
      else handleActions t (n + 1) rest (propose newId a t.now r)

/-- `tick`: the reconciler afterwards, and the plan where the tick gets to its end. -/
def Reconciler.tick (t : TickInput) (r : Reconciler) : Reconciler × Option (List Action) :=
  let prepared := { r with
    ledger := (prepare t r).1
    satHistory := (prepare t r).2.satHistory }
  match plannedBy t r with
  | .error _ => (prepared, none)
  | .ok actions =>
      let kept := { prepared with proposals := r.proposals.filter fun _ p =>
        (actions.map Action.sig).contains p.sig }
      match handleActions newId t 0 actions kept with
      | (r, true) => (r, some actions)
      | (r, false) => (r, none)

/-- `apply`: an unknown id raises. -/
def Reconciler.apply (pid : String) (now : ℚ) (attempt : Attempt) (r : Reconciler) : Reconciler :=
  match r.proposals.get? pid with
  | none => r
  | some p => { r with
      proposals := r.proposals.erase pid
      ledger := (runAction p.action attempt now r.ledger).1 }

/-- `dismiss` -/
def Reconciler.dismiss (pid : String) (r : Reconciler) : Reconciler :=
  { r with proposals := r.proposals.erase pid }

end Ticks

/-- An operation of the reconciler. -/
inductive Operation where
  | tick (t : TickInput)
  | apply (pid : String) (now : ℚ) (attempt : Attempt)
  | dismiss (pid : String)

/-- One operation, whether it gets to its end or raises. -/
def Reconciler.step (newId : ℕ → String) (r : Reconciler) : Operation → Reconciler
  | .tick t => (r.tick newId t).1
  | .apply pid now attempt => r.apply pid now attempt
  | .dismiss pid => r.dismiss pid

/-- A sequence of operations. -/
def Reconciler.run (newId : ℕ → String) (r : Reconciler)
    (operations : List Operation) : Reconciler :=
  operations.foldl (Reconciler.step newId) r

end SystemsManager.Autopilot
