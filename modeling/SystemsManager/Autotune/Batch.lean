import Mathlib.Data.List.Infix
import SystemsManager.Concurrency.Procedure
import SystemsManager.Python.Dict
import SystemsManager.Python.Value

/-!
# Autotune batches

`Runner.run` of `backend/autotune_batch.py` with what it calls: the walk over the items of a batch,
the precheck that may stop a server, the tune itself and the restart of the hosts. Every call to the
dependencies, to the store and to the set of cancelled batches is an operation, and each of them may
raise. `rounds` bounds the waiting of `_precheck`; a run that would need more of them ends with
`Stop.outOfRounds`, which no handler catches. How values are written as text is an argument.
-/

namespace SystemsManager.Autotune

open Python Concurrency

/-- The fields of a JSON object. -/
abbrev Fields := List (String × Json)

/-- `ITEM_MIN_BUDGET` -/
def ITEM_MIN_BUDGET : ℤ := 5

/-- `ITEM_CAP_S` -/
def ITEM_CAP_S : ℚ := 7200

/-- `ITEM_BUDGET_MAX` -/
def ITEM_BUDGET_MAX : ℤ := 115

/-- `SETTLE_POLL_S` -/
def SETTLE_POLL_S : ℚ := 2

/-- `SETTLE_MAX_S` -/
def SETTLE_MAX_S : ℚ := 90

/-- `STREAM_RETRY_S` -/
def STREAM_RETRY_S : ℚ := 5

/-- `STREAM_RETRIES` -/
def STREAM_RETRIES : ℕ := 3

/-- `CANCELLED` -/
def CANCELLED : String := "cancelled"

/-- The status of an item. -/
inductive ItemStatus where
  | queued
  | running
  | done
  | failed
  | skipped
  | cancelled
  deriving DecidableEq

/-- The status of a batch. -/
inductive BatchStatus where
  | queued
  | running
  | done
  | failed
  | cancelled
  deriving DecidableEq

/-- A model to tune on a host. -/
structure Item where
  agentId : String
  hostname : String
  modelId : String
  status : ItemStatus := .queued
  runId : Json := .null
  started : Option ℚ := none
  finished : Option ℚ := none
  gainPct : Option PyFloat := none
  ctx : Json := .null
  whPerKtok : Json := .null
  spreadPct : Json := .null
  decodeSpread : Json := .null
  verifyOk : Json := .null
  applied : Bool := false
  note : Option String := none

/-- What `summary_of` gives. -/
structure Summary where
  tuned : ℕ
  applied : ℕ
  skipped : ℕ
  failed : ℕ
  cancelled : ℕ
  title : String
  lines : List String

/-- A batch. -/
structure Batch where
  id : String
  created : ℚ
  startAt : ℚ
  status : BatchStatus := .queued
  objective : String
  dims : Fields
  budgetMin : ℤ
  restart : Bool
  powerCapW : Option PyFloat
  items : List Item
  started : Option ℚ := none
  finished : Option ℚ := none
  current : Option ℕ := none
  summary : Option Summary := none
  error : Option String := none
  stopped : List String := []
  restarted : List String := []
  restartErrors : List (String × String) := []

/-- A batch as the store holds it: no item of a queued batch has been begun. -/
structure StoredBatch where
  batch : Batch
  fresh : batch.status = .queued → ∀ it ∈ batch.items, it.status = .queued

/-- A host. -/
structure Host where
  agentId : String
  online : Bool

/-- The body that `run_on_agent` sends. -/
structure RunBody where
  modelId : String
  objective : String
  budgetMin : ℤ
  dims : Fields
  powerCapW : Option PyFloat

/-- What ends a procedure: an exception with its text, or the bound of `rounds`. -/
inductive Stop where
  | exception (text : String)
  | outOfRounds

/-- The events of a stream, and the exception that ends it if it breaks. -/
structure Streamed where
  events : List Json
  broken : Option String

/-- The operations of a run. -/
inductive Call where
  | getBatch (batchId : String)
  | save (batch : Batch)
  | isCancelled (batchId : String)
  | setCurrent (batchId agentId : String)
  | popCurrent (batchId : String)
  | forget (batchId : String)
  | hosts
  | busyAgents
  | preflight (agentId : String)
  | runOnAgent (agentId : String) (body : RunBody)
  | streamOnAgent (agentId : String) (lastId : Option String)
  | cancelOnAgent (agentId : String)
  | stopServer (agentId : String)
  | restartServer (agentId : String)
  | readConfig (agentId : String)
  | writeConfig (agentId : String) (config : Fields)
  | activeProfile (agentId modelId : String)
  | saveProfile (agentId modelId name : String) (config : Fields) (active : Bool)
  | alert (batch : Batch)
  | runEnded (agentId : String)
  | now
  | sleep (seconds : ℚ)

/-- The answers; all but those of the set of cancelled batches may be exceptions. -/
abbrev Call.Answer : Call → Type
  | .getBatch _ => Except String (Option StoredBatch)
  | .isCancelled _ => Bool
  | .setCurrent .. => Unit
  | .popCurrent _ => Unit
  | .forget _ => Unit
  | .hosts => Except String (List Host)
  | .busyAgents => Except String (List String)
  | .preflight _ => Except String Json
  | .runOnAgent .. => Except String (Bool × String)
  | .streamOnAgent .. => Streamed
  | .stopServer _ => Except String (Bool × String)
  | .restartServer _ => Except String (Bool × String)
  | .readConfig _ => Except String Json
  | .writeConfig .. => Except String (Bool × String)
  | .activeProfile .. => Except String (Option String)
  | .now => Except String ℚ
  | _ => Except String Unit

/-- The variables of a run: the batch, and what `_follow` keeps over a broken stream. -/
structure Vars where
  b : Batch
  doc : Option Fields := none
  lastId : Option String := none

/-- Code of the runner. -/
abbrev Run (α : Type) := Proc Call Call.Answer Vars Stop α

/-- How values are written as text, and texts read as floats. -/
structure Format where
  /-- `str(value)` of a value that is no text. -/
  shown : Json → String
  /-- `float(text)` -/
  floatText : String → Option PyFloat
  /-- The day of a time. -/
  day : ℚ → String
  /-- The line of an item in the summary, which raises for a gain that is no number. -/
  line : Item → Except String String

/-- `str(value)` -/
def Format.str (fmt : Format) : Json → String
  | .str text => text
  | value => fmt.shown value

section Calls

/-- One operation. -/
def call (c : Call) : Run c.Answer := Proc.ask c

/-- A computation that may raise. -/
def orRaise {α : Type} (p : Run (Except String α)) : Run α := do
  let answer ← p
  Proc.lift (answer.mapError Stop.exception)

/-- `try` with `except Exception` -/
def tryExcept {α : Type} (p : Run α) (handler : String → Run α) : Run α :=
  p.catch_ fun
    | .exception text => handler text
    | .outOfRounds => Proc.raise .outOfRounds

/-- `d.now()` -/
def now : Run ℚ := orRaise (call .now)

/-- `self.store.save(b)` -/
def save : Run Unit := do
  let v ← Proc.get
  orRaise (call (.save v.b))

/-- An assignment to fields of the batch. -/
def setBatch (f : Batch → Batch) : Run Unit := Proc.modify fun v => { v with b := f v.b }

/-- An assignment to fields of an item. -/
def setItem (i : ℕ) (f : Item → Item) : Run Unit :=
  setBatch fun b => { b with items := b.items.modify i f }

/-- The end of an item: `it.update({"status": …, "note": …, "finished": d.now()})` -/
def endItem (i : ℕ) (status : ItemStatus) (note : Option String) : Run Unit := do
  let t ← now
  setItem i fun it => { it with status := status, note := note, finished := some t }

end Calls

section Documents

/-- `doc.get(key) or {}`, whose fields are asked for next. -/
def part (doc : Fields) (key : String) : Except String Fields :=
  let value := getItem doc key
  if value.truthy then
    match value with
    | .dict items => .ok items
    | _ => .error "AttributeError"
  else .ok []

/-- `doc.get(key) or []`, which is iterated over next. -/
def elements (doc : Fields) (key : String) : Except String (List Json) :=
  let value := getItem doc key
  if value.truthy then
    match value with
    | .list values => .ok values
    | .dict items => .ok (items.map fun item => .str item.1)
    | .str text => .ok (text.toList.map fun c => .str (String.singleton c))
    | _ => .error "TypeError"
  else .ok []

/-- The changes of a document that are selected. -/
def selected (changes : List Json) : List Fields :=
  changes.filterMap fun change => match change with
    | .dict items => if (getItem items "selected").truthy then some items else none
    | _ => none

/-- `float(value)`, nothing where `TypeError` or `ValueError` is caught. -/
def floatOr (fmt : Format) : Json → Except String (Option PyFloat)
  | .str text => .ok (fmt.floatText text)
  | value => match (value.toFloat : Except (Exc Unit) PyFloat) with
    | .ok x => .ok (some x)
    | .error .overflowError => .error "int too large to convert to float"
    | .error _ => .ok none

/-- A quotient as a float. -/
def asFloat (q : ℚ) : PyFloat :=
  if |q| < 2 ^ 1024 - 2 ^ 970 then .finite q else .inf (decide (q < 0))

/-- `_gain` -/
def gain (fmt : Format) (doc : Fields) : Except String (Option PyFloat) := do
  let after ← part doc "after"
  let before ← part doc "before"
  let a ← floatOr fmt (getItem after "decode_tps")
  match a with
  | none => pure none
  | some a => do
      let b ← floatOr fmt (getItem before "decode_tps")
      match a, b with
      | .finite a, some (.finite b) =>
          pure (if b = 0 then none else some (asFloat ((a - b) / b * 100)))
      | _, _ => pure none

/-- `value or 0`, as a number that is compared. -/
def spreadOf (value : Json) : Except String PyFloat :=
  if value.truthy then
    match value.number? with
    | some x => .ok x
    | none => .error "TypeError"
  else .ok (.finite 0)

/-- `should_apply` -/
def shouldApply (fmt : Format) (doc : Fields) : Except String (Bool × String) := do
  let verify ← part doc "verify"
  if (getItem verify "ok").truthy then
    let g ← gain fmt doc
    if (g.any fun g => g.lt (.finite 0)) then pure (false, "slower than the live config")
    else
      let changes ← elements doc "changes"
      if (selected changes).isEmpty then pure (false, "no change recommended")
      else
        let before ← part doc "before"
        let first ← spreadOf (getItem before "spread_pct")
        let after ← part doc "after"
        let second ← spreadOf (getItem after "spread_pct")
        let spread := if first.lt second then second else first
        if (g.any fun g => g.lt spread) then pure (false, "gain is within the run-to-run spread")
        else pure (true, "")
  else pure (false, "verify did not pass")

/-- The number of items with a status. -/
def countOf (b : Batch) (p : Item → Bool) : ℕ := b.items.countP p

/-- `summary_of` -/
def summaryOf (fmt : Format) (b : Batch) : Except String Summary := do
  let lines ← b.items.mapM fmt.line
  let tuned := countOf b fun it => it.status = .done
  let applied := countOf b fun it => it.status = .done && it.applied
  let skipped := countOf b fun it => it.status = .skipped
  let restarted := if b.restarted = [] then []
    else ["restarted: " ++ ", ".intercalate b.restarted]
  pure
    { tuned, applied, skipped
      failed := countOf b fun it => it.status = .failed
      cancelled := countOf b fun it => it.status = .cancelled
      title := "Overnight autotune: " ++ toString tuned ++ " tuned, " ++ toString applied ++
        " applied, " ++ toString skipped ++ " skipped"
      lines := lines ++ restarted ++ b.restartErrors.map fun (host, err) =>
        "restart failed on " ++ host ++ ": " ++ err }

end Documents

/-- `new_batch` -/
def newBatch (id : String) (created startAt : ℚ) (objective : String) (dims : Fields)
    (budgetMin : ℤ) (restart : Bool) (powerCapW : Option PyFloat) (items : List (String × String))
    (hostnames : String → Option String) : StoredBatch where
  batch :=
    { id, created, startAt, objective, dims, budgetMin, restart, powerCapW
      items := items.map fun (agentId, modelId) =>
        { agentId, modelId
          hostname := ((hostnames agentId).filter (· != "")).getD (takeChars agentId 8) } }
  fresh := by
    intro _ it hit
    obtain ⟨pair, -, rfl⟩ := List.mem_map.mp hit
    rfl

/-- `b["summary"] = summary_of(b)` -/
def setSummary (fmt : Format) : Run Unit := do
  let v ← Proc.get
  let summary ← Proc.lift ((summaryOf fmt v.b).mapError Stop.exception)
  setBatch fun b => { b with summary := some summary }

section Hosts

/-- One host of `_finish_hosts`. -/
def restartHost (agentId : String) : Run Unit := do
  let answer ← tryExcept (orRaise (call (.restartServer agentId))) fun text =>
    pure (false, takeChars text 120)
  setBatch fun b =>
    -- The last item of a host gives its name.
    let name := ((b.items.filter fun it => it.agentId = agentId).getLast?.map Item.hostname).getD ""
    let name := if name = "" then takeChars agentId 8 else name
    if answer.1 then { b with restarted := b.restarted ++ [name] }
    else
      let err := if answer.2 = "" then "unknown error" else answer.2
      { b with restartErrors := setItems name (takeChars err 200) b.restartErrors }

/-- The hosts that `_finish_hosts` restarts. -/
def wanted (b : Batch) (appliedHosts : Bool) : List String :=
  if appliedHosts && b.restart then
    (b.items.filter Item.applied).foldl
      (fun want it => if it.agentId ∈ want then want else want ++ [it.agentId]) b.stopped
  else b.stopped

/-- `_finish_hosts` -/
def finishHosts (appliedHosts : Bool) : Run Unit := do
  let v ← Proc.get
  Proc.forEach restartHost (wanted v.b appliedHosts)

end Hosts

section Items

/-- `_budget` -/
def budget : Run (Option ℤ) := do
  let v ← Proc.get
  let queued := countOf v.b fun it => it.status = .queued || it.status = .running
  let t ← now
  let started ← (match v.b.started with
    | some s => if s = 0 then now else pure s
    | none => now : Run ℚ)
  let remaining : ℚ := v.b.budgetMin - (t - started) / 60
  if remaining < ITEM_MIN_BUDGET then pure none
  else pure (some (max ITEM_MIN_BUDGET (remaining / (max 1 queued : ℕ)).floor))

/-- `it["model_id"] in (pre.get("sizes") or {})` -/
def sized (pre : Fields) (modelId : String) : Except String Bool :=
  let sizes := getItem pre "sizes"
  if sizes.truthy then
    match sizes with
    | .dict items => .ok (items.any fun item => item.1 = modelId)
    | .list values => .ok (values.any fun value => value.str? = some modelId)
    | .str text => .ok (decide (modelId.toList <:+: text.toList))
    | _ => .error "TypeError"
  else .ok false

/-- The loop of `_precheck`: the preflight of an idle host, or the reason to skip the item. -/
def awaitIdle (agentId : String) (settling : Bool) (deadline : ℚ) : ℕ → Run (Except String Fields)
  | 0 => Proc.raise .outOfRounds
  | rounds + 1 => do
      let busy ← orRaise (call .busyAgents)
      let idle ← (if busy.contains agentId then pure none else do
        let pre ← orRaise (call (.preflight agentId))
        match pre with
        | .dict items =>
            if !(getItemD items "ok" (.bool true)).truthy then
              pure (some (.error "host unreachable"))
            else if (getItem items "busy").truthy then pure none
            else pure (some (.ok items))
        | _ => pure (some (.error "host unreachable")) : Run (Option (Except String Fields)))
      match idle with
      | some result => pure result
      | none => do
          let late ← (if settling then do
            let t ← now
            pure (decide (deadline ≤ t))
            else pure true : Run Bool)
          if late then pure (.error "host busy")
          else do
            orRaise (call (.sleep SETTLE_POLL_S))
            awaitIdle agentId settling deadline rounds

/-- The end of `_precheck`: the server of the host is stopped. -/
def stopHost (agentId : String) : Run (Option String) := do
  let answer ← orRaise (call (.stopServer agentId))
  if answer.1 then do
    setBatch fun b =>
      if agentId ∈ b.stopped then b else { b with stopped := b.stopped ++ [agentId] }
    save
    pure none
  else pure (some ("could not stop llama-server: " ++ answer.2))

/-- `_precheck` -/
def precheck (rounds i : ℕ) (it : Item) : Run (Option String) := do
  let hosts ← orRaise (call .hosts)
  match hosts.find? fun h => h.agentId = it.agentId with
  | none => pure (some "host offline")
  | some host =>
      if host.online then do
        let v ← Proc.get
        let settling := (v.b.items.zipIdx).any fun (x, j) =>
          decide (j ≠ i) && decide (x.agentId = it.agentId) && x.runId.truthy
        let t ← now
        let pre ← awaitIdle it.agentId settling (t + SETTLE_MAX_S) rounds
        match pre with
        | .error reason => pure (some reason)
        | .ok pre => do
            let known ← Proc.lift ((sized pre it.modelId).mapError Stop.exception)
            if known then
              if (getItem pre "unit_active").truthy then stopHost it.agentId else pure none
            else pure (some "model not configured")
      else pure (some "host offline")

/-- A result of `_follow`: the document of the run, and the reason there is none. -/
abbrev Followed := Option Fields × Option String

/-- `_follow`, one event. -/
def followEvent (fmt : Format) (batchId : String) (it : Item) (deadline : ℚ) (event : Json) :
    Run (Option Followed) := do
  let cancelled ← call (.isCancelled batchId)
  if cancelled then do
    orRaise (call (.cancelOnAgent it.agentId))
    pure (some (none, some CANCELLED))
  else do
    let t ← now
    if deadline < t then do
      orRaise (call (.cancelOnAgent it.agentId))
      pure (some (none, some "timed out after 2 h"))
    else match event with
      | .dict items => do
          let id := getItem items "_id"
          Proc.modify fun v => if id.truthy then { v with lastId := some (fmt.str id) } else v
          match (getItem items "type").str? with
          | some "model_done" => do
              Proc.modify fun v =>
                if (getItem items "model_id").str? = some it.modelId then
                  { v with doc := some items }
                else v
              pure none
          | some "done" => do
              let v ← Proc.get
              let error := getItem items "error"
              if v.doc.isNone && error.truthy then
                pure (some (none, some (takeChars (fmt.str error) 300)))
              else pure (some (v.doc, none))
          | _ => pure none
      | _ => pure none

/-- `_follow`, the body of its `try`. -/
def followStream (fmt : Format) (batchId : String) (it : Item) (deadline : ℚ) : Run Followed := do
  let v ← Proc.get
  let streamed ← call (.streamOnAgent it.agentId v.lastId)
  let ended ← Proc.firstSome (followEvent fmt batchId it deadline) streamed.events
  match ended, streamed.broken with
  | some result, _ => pure result
  | none, some text => Proc.raise (.exception text)
  | none, none => do
      let v ← Proc.get
      pure (v.doc, none)

/-- `_follow`, where it does not try again. -/
def giveUp (agentId text : String) : Run Followed := do
  orRaise (call (.cancelOnAgent agentId))
  pure (none, some ("stream failed: " ++ takeChars text 200))

/-- `_follow`, with the number of retries that are left. -/
def follow (fmt : Format) (batchId : String) (it : Item) (deadline : ℚ) : ℕ → Run Followed
  | 0 => tryExcept (followStream fmt batchId it deadline) (giveUp it.agentId)
  | left + 1 => tryExcept (followStream fmt batchId it deadline) fun text => do
      let t ← now
      if deadline < t then giveUp it.agentId text
      else do
        orRaise (call (.sleep STREAM_RETRY_S))
        let cancelled ← call (.isCancelled batchId)
        if cancelled then do
          orRaise (call (.cancelOnAgent it.agentId))
          pure (none, some CANCELLED)
        else follow fmt batchId it deadline left

/-- The section of a model with the selected changes. -/
def changed (fmt : Format) (section_ : Fields) (changes : List Json) : Fields :=
  (selected changes).foldl
    (fun s change =>
      let key := getItem change "key"
      if key.truthy then
        setItems (fmt.str key) (.str (fmt.str (getItemD change "recommended" (.str "")))) s
      else s) section_

/-- The end of `_apply`: the active profile follows the config. -/
def syncProfile (it : Item) (section_ : Fields) : Run Unit :=
  tryExcept
    (do
      let active ← orRaise (call (.activeProfile it.agentId it.modelId))
      let name := active.getD ""
      Proc.onlyIf (name != "")
        (orRaise (call (.saveProfile it.agentId it.modelId name section_ true))))
    fun _ => pure ()

/-- `_apply`: the reason why the changes were not applied. -/
def apply (fmt : Format) (it : Item) (doc : Fields) : Run (Option String) := do
  let config ← orRaise (call (.readConfig it.agentId))
  match config with
  | .dict config => match getItem config it.modelId with
    | .dict section_ => do
        let t ← now
        let saved ← tryExcept
          (do
            orRaise (call (.saveProfile it.agentId it.modelId ("before batch " ++ fmt.day t)
              section_ false))
            pure none)
          fun text => pure (some ("before-profile save failed: " ++ takeChars text 120))
        match saved with
        | some reason => pure (some reason)
        | none => do
            let changes ← Proc.lift ((elements doc "changes").mapError Stop.exception)
            let section_ := changed fmt section_ changes
            let out := setItems it.modelId (.dict section_)
              (config.filter fun item => item.1 != "__DEFAULTS__")
            let answer ← orRaise (call (.writeConfig it.agentId out))
            if answer.1 then do
              syncProfile it section_
              pure none
            else pure (some ("config write failed: " ++ answer.2))
    | _ => pure (some "config unavailable")
  | _ => pure (some "config unavailable")

/-- `item_from_done` -/
def itemFromDone (fmt : Format) (i : ℕ) (doc : Fields) : Run Unit := do
  let after ← Proc.lift ((part doc "after").mapError Stop.exception)
  setItem i fun it =>
    { it with runId := if (getItem doc "run_id").truthy then getItem doc "run_id" else it.runId }
  let g ← Proc.lift ((gain fmt doc).mapError Stop.exception)
  setItem i fun it =>
    { it with
      gainPct := g, ctx := getItem after "ctx", whPerKtok := getItem after "wh_per_ktok"
      spreadPct := getItem after "spread_pct", decodeSpread := getItem after "decode_spread" }
  let verify ← Proc.lift ((part doc "verify").mapError Stop.exception)
  setItem i fun it => { it with verifyOk := getItem verify "ok" }

/-- `_item`, once the tune has a document. -/
def settleDone (fmt : Format) (i : ℕ) (it : Item) (doc : Fields) : Run Unit := do
  let verdict ← Proc.lift ((shouldApply fmt doc).mapError Stop.exception)
  if verdict.1 then do
    let changes ← Proc.lift ((elements doc "changes").mapError Stop.exception)
    let n := (selected changes).length
    let failed ← apply fmt it doc
    let done := "applied " ++ toString n ++ " change" ++ if n = 1 then "" else "s"
    setItem i fun it => { it with applied := failed.isNone, note := some (failed.getD done) }
  else setItem i fun it => { it with applied := false, note := some verdict.2 }
  let t ← now
  setItem i fun it => { it with status := .done, finished := some t }

/-- `_item`, once the tune has been followed to its end. -/
def settle (fmt : Format) (i : ℕ) (it : Item) : Followed → Run Bool
  | (doc, err) =>
      if err = some CANCELLED then do
        endItem i .cancelled (some "cancelled")
        save
        pure false
      else match doc with
        | none => do
            endItem i .failed (some (err.getD "run ended without a result"))
            save
            pure true
        | some doc => do
            itemFromDone fmt i doc
            if (getItem doc "ok").truthy then do
              settleDone fmt i it doc
              save
              pure true
            else do
              let reason := getItem doc "stop_reason"
              endItem i .failed
                (some (if reason.truthy then takeChars (fmt.str reason) 300 else "run failed"))
              save
              pure true

/-- `_item`, once the host is ready. -/
def tune (fmt : Format) (i : ℕ) (it : Item) (minutes : ℤ) : Run Bool := do
  let v ← Proc.get
  let answer ← orRaise (call (.runOnAgent it.agentId
    { modelId := it.modelId, objective := v.b.objective, budgetMin := minutes, dims := v.b.dims
      powerCapW := v.b.powerCapW }))
  if answer.1 then do
    setItem i fun it => { it with runId := .str answer.2 }
    call (.setCurrent v.b.id it.agentId)
    save
    Proc.modify fun v => { v with doc := none, lastId := none }
    let t ← now
    let followed ← follow fmt v.b.id it (t + ITEM_CAP_S) STREAM_RETRIES
    tryExcept (orRaise (call (.runEnded it.agentId))) fun _ => pure ()
    call (.popCurrent v.b.id)
    settle fmt i it followed
  else do
    endItem i .failed (some (takeChars answer.2 300))
    save
    pure true

/-- `_item`: false when the batch should stop walking. -/
def item (fmt : Format) (rounds i : ℕ) (it : Item) : Run Bool := do
  let t ← now
  setItem i fun it => { it with status := .running, started := some t }
  setBatch fun b => { b with current := some i }
  save
  let minutes ← budget
  match minutes with
  | none => do
      endItem i .skipped (some "out of budget")
      save
      pure true
  | some minutes => do
      let reason ← precheck rounds i it
      match reason with
      | some reason => do
          endItem i (if reason.startsWith "could not" then .failed else .skipped) (some reason)
          save
          pure true
      | none => tune fmt i it (min minutes ITEM_BUDGET_MAX)

end Items

section Walk

/-- One step of the walk: something when the walk is over. -/
def walkItem (fmt : Format) (rounds : ℕ) (batchId : String) (entry : Item × ℕ) :
    Run (Option Unit) := do
  let cancelled ← call (.isCancelled batchId)
  if cancelled then do
    let t ← now
    setItem entry.2 fun it => { it with status := .cancelled, finished := some t }
    pure none
  else do
    let go ← item fmt rounds entry.2 entry.1
    pure (if go then none else some ())

/-- What is left of the walk is cancelled. -/
def cancelQueued (i : ℕ) : Run Unit := do
  let v ← Proc.get
  match v.b.items[i]? with
  | some it => Proc.onlyIf (decide (it.status = .queued)) do
      let t ← now
      setItem i fun it => { it with status := .cancelled, finished := some t }
  | none => pure ()

/-- The body of the `try` of `run`. -/
def walk (fmt : Format) (rounds : ℕ) (batchId : String) : Run Unit := do
  let t ← now
  setBatch fun b => { b with status := .running, started := some t }
  save
  let v ← Proc.get
  let _ ← Proc.firstSome (walkItem fmt rounds batchId) v.b.items.zipIdx
  finishHosts true
  let cancelled ← call (.isCancelled batchId)
  let t ← now
  setBatch fun b =>
    { b with
      status := if cancelled then .cancelled else .done
      finished := some t
      current := none }
  Proc.forEach cancelQueued (List.range v.b.items.length)
  setSummary fmt
  save
  let v ← Proc.get
  tryExcept (orRaise (call (.alert v.b))) fun _ => pure ()

/-- The handler of `run`. -/
def failBatch (fmt : Format) (text : String) : Run Unit := do
  tryExcept (finishHosts true) fun _ => pure ()
  let t ← now
  setBatch fun b =>
    { b with
      status := .failed, error := some (takeChars text 300), finished := some t, current := none }
  setSummary fmt
  save

/-- `_cancel_now` -/
def cancelNow (fmt : Format) : Run Unit := do
  let t ← now
  setBatch fun b =>
    { b with
      status := .cancelled, finished := some t
      items := b.items.map fun it => { it with status := .cancelled } }
  setSummary fmt
  save

/-- `run`, from the batch of the store on. -/
def runStored (fmt : Format) (rounds : ℕ) (batchId : String) (stored : StoredBatch) : Run Unit :=
  if stored.batch.status = .queued then do
    Proc.modify fun v => { v with b := stored.batch }
    let cancelled ← call (.isCancelled batchId)
    if cancelled then cancelNow fmt
    else
      Proc.ensuring (tryExcept (walk fmt rounds batchId) (failBatch fmt))
        (call (.forget batchId) >>= fun _ => pure ())
  else pure ()

/-- `run` -/
def run (fmt : Format) (rounds : ℕ) (batchId : String) : Run Unit := do
  let stored ← orRaise (call (.getBatch batchId))
  match stored with
  | none => pure ()
  | some stored => runStored fmt rounds batchId stored

end Walk

end SystemsManager.Autotune
