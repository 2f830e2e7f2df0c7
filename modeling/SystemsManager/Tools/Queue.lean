import SystemsManager.Jobs.Issued

/-!
# Tool runs that wait for a host

The kind `tool_run` of `backend/tool_queue.py`: `Queue.run` waits until the host is free, posts
the start, records it in the ledger and follows the run to its end; `on_cancel` stops a run on
the agent. The calls that leave the manager are the operations `ToolCall`; each call of the
agent carries the statement that makes it as an `Errand`, which nothing but the history reads.
A `while` loop goes round as often as the answer of `Op.rounds` says and then blocks, so that
every finite part of a run of the loop is a run of the model.
-/

namespace SystemsManager.Tools

open Python Concurrency Jobs

/-- `KIND` -/
def KIND : String := "tool_run"

/-- `TITLE` -/
def TITLE : String := "Tool run"

/-- `POLL_S` -/
def POLL_S : ℚ := 3

/-- `SLICE_S` -/
def SLICE_S : ℚ := 1 / 2

/-- `PROBE_TIMEOUT_S` -/
def PROBE_TIMEOUT_S : ℚ := 2

/-- `START_GRACE_S` -/
def START_GRACE_S : ℚ := 10

/-- `UNREACHABLE_MAX_S` -/
def UNREACHABLE_MAX_S : ℚ := 60

/-- `MAX_RUN_S` -/
def MAX_RUN_S : ℚ := 3 * 3600

/-- `MAX_RUN_CEIL_S` -/
def MAX_RUN_CEIL_S : ℚ := 12 * 3600

/-- `PRE_TIMEOUT_S` -/
def PRE_TIMEOUT_S : ℚ := 30

/-- The message of a run that is put back into the queue. -/
def WAITING : String := "waiting for the host"

/-- The tools with their flags in `tools/state` and their labels: `TOOLS`, `FLAG` and `LABEL`. -/
def TOOLS : List (String × String × String) :=
  [("benchmark", "bench_active", "Benchmark"), ("autotune", "autotune_active", "Autotune"),
    ("quality", "quality_active", "Quality guard")]

/-- The method of a request. -/
inductive Method where
  | GET
  | POST
  deriving DecidableEq

/-- Which statement calls the agent. -/
inductive Errand where
  | probe
  | pre
  | start
  | cancel
  deriving DecidableEq

/-- What `agent_call` returns: the status code, and the body if it is JSON. -/
structure Response where
  statusCode : Int
  json : Option Json

/-- The calls that leave the manager. -/
inductive ToolCall where
  | agentFor (aid : Json)
  | heldAgents
  | agentCall (errand : Errand) (method : Method) (agent path : Json) (body : Option Json)
      (timeout : ℚ)
  | noteStart (aid provider tool : Json)
  | quietBuildChange (aid : Json)
  | sleep (seconds : ℚ)

/-- The answers. `agent_call` may raise, and it returns nothing when the agent is unreachable. -/
abbrev ToolCall.Reply : ToolCall → Type
  | .agentFor _ => Json
  | .heldAgents => List String
  | .agentCall .. => Except String (Option Response)
  | .noteStart .. => Unit
  | .quietBuildChange _ => Unit
  | .sleep _ => Unit

/-- What tool runs call, beside what the other kinds call. -/
abbrev ToolWorld (V : World) : World where
  Ext := ToolCall ⊕ V.Ext
  Reply := fun e => match e with
    | .inl call => call.Reply
    | .inr e => V.Reply e

/-- What the queue is created with, as far as it is not a call: `str` and `float` of a value, the
name of a host, and whether there is a `quiet_build_change`. -/
structure Deps where
  /-- `str(value)` of a value that is no text. -/
  shown : Json → String
  shown_ne : ∀ value, shown value ≠ ""
  /-- `float(text)`, nothing where it raises. -/
  floatText : String → Option PyFloat
  hostname : Json → String
  quiet : Bool

/-- `str(value)` -/
def Deps.str (d : Deps) : Json → String
  | .str text => text
  | value => d.shown value

/-- `a or b` -/
def orElse (a b : Json) : Json := if a.truthy then a else b

/-- The object that a value is, else the empty one. -/
def objectOf : Json → Object
  | .dict items => items
  | _ => []

/-- `_json` -/
def jsonOf (resp : Response) : Object :=
  match resp.json with
  | some data => objectOf data
  | none => []

/-- The character matches a letter of a pattern, in either case. -/
def sameLetter (letter c : Char) : Bool :=
  c.toLower == letter || letter == 'i' && (c == 'İ' || c == 'ı') || letter == 's' && c == 'ſ'

/-- The text starts with the pattern, in either case. -/
def startsLike : List Char → List Char → Bool
  | [], _ => true
  | _ :: _, [] => false
  | letter :: rest, c :: text => sameLetter letter c && startsLike rest text

/-- `REFUSAL.search(text)` -/
def refusal (text : String) : Bool :=
  text.toList.tails.any fun rest =>
    startsLike "in progress".toList rest || startsLike "already running".toList rest

/-- `model_of` -/
def modelOf (d : Deps) (body : Object) : String :=
  let first := match getItem body "model_ids" with
    | .list (first :: _) => first
    | _ => .null
  takeChars (d.str (orElse (getItem body "model_id")
    (orElse first (orElse (getItem body "model") (.str ""))))) 200

/-- The part of a text after the last such character. -/
def afterLast (c : Char) (text : String) : String :=
  String.ofList (text.toList.reverse.takeWhile fun x => x != c).reverse

/-- The part of a text before the first such character. -/
def beforeFirst (c : Char) (text : String) : String :=
  String.ofList (text.toList.takeWhile fun x => x != c)

/-- `_short` -/
def short (modelId : String) : String :=
  let name := beforeFirst ':' (afterLast '/' modelId)
  if name = "" then "model" else name

/-- `max(a, b)` of a number and a float: the float only where it is greater. -/
def maxFloat (a : ℚ) (b : PyFloat) : PyFloat :=
  if (PyFloat.finite a).lt b then b else .finite a

/-- `min(a, b)` of a number and a float: the float only where it is smaller. -/
def minFloat (a : ℚ) : PyFloat → ℚ
  | .finite b => if b < a then b else a
  | .inf _ => a
  | .nan => a

/-- `float(value or 0)`, zero where it raises. -/
def minutesOf (d : Deps) (value : Json) : PyFloat :=
  match orElse value (.int 0) with
  | .str text => (d.floatText text).getD (.finite 0)
  | value => match (value.toFloat : Except (Exc Unit) PyFloat) with
    | .ok x => x
    | .error _ => .finite 0

/-- `max_run_s` -/
def maxRunS (d : Deps) (spec : Object) : ℚ :=
  let body := objectOf (getItem spec "body")
  let models := match getItem body "model_ids" with
    | .list models => max 1 models.length
    | _ => 1
  let budget := (minutesOf d (getItem body "budget_min")).scale (60 * models)
  minFloat MAX_RUN_CEIL_S (maxFloat MAX_RUN_S (match budget with
    | .finite b => .finite (b + 1800)
    | other => other))

/-- `_validate` -/
def validate (d : Deps) (spec : Object) (_user _role : String) : Except String Object :=
  let tool := d.str (orElse (getItem spec "tool") (.str ""))
  let provider := d.str (orElse (getItem spec "provider") (.str ""))
  if (TOOLS.lookup tool).isNone then .error "unknown tool"
  else if !(getItem spec "agent_id").truthy || provider = "" || !(getItem spec "path").truthy then
    .error "agent, provider and path are required"
  else if tool = "quality" && provider != "llama" then
    .error "the quality guard runs on llama hosts only"
  else
    let out := ["provider", "agent_id", "tool", "path", "cancel", "model_id"].map fun key =>
      (key, getItem spec key)
    let out := if (getItem spec "pre").truthy
      then setItems "pre" (.str (d.str (getItem spec "pre"))) out
      else out
    let body := objectOf (getItem spec "body")
    let out := setItems "body" (.dict body) out
    .ok (setItems "model_id"
      (.str (d.str (orElse (getItem out "model_id") (.str (modelOf d body))))) out)

/-- `_label` -/
def label (d : Deps) (spec : Object) : String :=
  let tool := match getItem spec "tool" with
    | .str tool => ((TOOLS.lookup tool).map Prod.snd).getD "Tool"
    | _ => "Tool"
  let host := d.hostname (orElse (getItem spec "agent_id") (.str ""))
  tool ++ " · " ++ short (d.str (orElse (getItem spec "model_id") (.str ""))) ++ " · " ++
    (if host = "" then "host" else host)

/-- The exclusive key of a host: `f"perf:{spec.get('agent_id', '')}"`. -/
def perfKey (d : Deps) (spec : Object) : String :=
  "perf:" ++ d.str (getItemD spec "agent_id" (.str ""))

/-- `set_state` of `run`. -/
def recordedState (d : Deps) (data : Object) (now : ℚ) : Object :=
  [("run_id", .str (d.str (orElse (getItem data "run_id") (.str "started")))),
    ("started", .float (.finite now)), ("seen", .bool false)]

/-- The agent has accepted a start. -/
def accepted (resp : Response) : Bool :=
  resp.statusCode == 200 && match getItem (jsonOf resp) "ok" with
    | .bool false => false
    | _ => true

/-- `bool(state.get("run_id"))` -/
def hasRunId (state : Object) : Bool := (getItem state "run_id").truthy

variable {V : World}

/-- A call that leaves the manager. -/
def call (c : ToolCall) : Code (ToolWorld V) c.Reply :=
  Code.ask (W := ToolWorld V) (.ext (Sum.inl c))

/-- `_post_cancel`: an exception is dropped. -/
def postCancel (agent : Json) (spec : Object) : Code (ToolWorld V) Unit :=
  if (getItem spec "cancel").truthy then do
    let _ ← call (.agentCall .cancel .POST agent (getItem spec "cancel") none 10)
    pure ()
  else pure ()

/-- `on_cancel` -/
def onCancel (row : Row) : Code (ToolWorld V) Unit :=
  if !hasRunId row.state || !(getItem row.spec "cancel").truthy then pure ()
  else do
    let agent : Json ← call (.agentFor (orElse (getItem row.spec "agent_id") (.str "")))
    if agent.truthy then postCancel agent row.spec else pure ()

/-- The path of the probe: `f"/{provider}/tools/state"`. -/
def statePath (d : Deps) (provider : Json) : Json :=
  .str ("/" ++ d.str provider ++ "/tools/state")

/-- `_agent_busy` -/
def agentBusy (d : Deps) (agent provider : Json) : Code (ToolWorld V) Bool := do
  let resp : Except String (Option Response) ←
    call (.agentCall .probe .GET agent (statePath d provider) none PROBE_TIMEOUT_S)
  match resp with
  | .ok (some resp) =>
      if resp.statusCode ≠ 200 then pure false
      else pure (TOOLS.any fun tool => (getItem (jsonOf resp) tool.2.1).truthy)
  | _ => pure false

/-- The loop of `_nap`, with the slices that are left. -/
def napLoop (ref : Ref) : Nat → Code (ToolWorld V) Unit
  | 0 => pure ()
  | slices + 1 => do
      let cancelled : Bool ← Code.ask (.isSet ref)
      if cancelled then pure ()
      else do
        let _ ← call (.sleep SLICE_S)
        napLoop ref slices

/-- `_nap`: six slices make up `POLL_S`. -/
def nap (ref : Ref) : Code (ToolWorld V) Unit := napLoop ref 6

/-- Blocks for ever. -/
def never {α : Type} : Code (ToolWorld V) α := do
  let nothing : Empty ← Code.ask .never
  nomatch nothing

/-- A run that ends because the job was cancelled. -/
def cancelledRun : Outcome := fail "cancelled" none false

/-- The loop of `run` that follows a started run. -/
def follow (d : Deps) (row : Row) (ref : Ref) (agent provider : Json) (flag : String)
    (started : ℚ) : Nat → Object → Bool → ℚ → Code (ToolWorld V) (Except String Outcome)
  | 0, _, _, _ => never
  | rounds + 1, state, seen, lastOk => do
      let cancelled : Bool ← Code.ask (.isSet ref)
      if cancelled then pure (.ok cancelledRun)
      else do
        let resp : Except String (Option Response) ←
          call (.agentCall .probe .GET agent (statePath d provider) none PROBE_TIMEOUT_S)
        match resp with
        | .error name => pure (.error name)
        | .ok resp => do
            let now ← Code.now
            match resp.filter fun resp => resp.statusCode == 200 with
            | some resp =>
                let active := (getItem (jsonOf resp) flag).truthy
                if active && !seen then do
                  let state := setItems "seen" (.bool true) state
                  let _ ← Code.ask (.setState row.id state)
                  nap ref
                  follow d row ref agent provider flag started rounds state true now
                else if !active && seen then
                  pure (.ok (finish (.dict [("run_id", getItem state "run_id")]) "done" none))
                else if !active && now - started > START_GRACE_S then
                  pure (.ok (fail "run did not start" none false))
                else do
                  nap ref
                  follow d row ref agent provider flag started rounds state seen now
            | none =>
                if now - lastOk > UNREACHABLE_MAX_S then
                  pure (.ok (fail "agent unreachable" none true))
                else do
                  nap ref
                  follow d row ref agent provider flag started rounds state seen lastOk

/-- `run`, from `note_start` on. -/
def watch (d : Deps) (row : Row) (ref : Ref) (agent aid provider tool : Json) (state : Object)
    (started : ℚ) : Code (ToolWorld V) (Except String Outcome) := do
  let _ ← call (.noteStart aid provider tool)
  match tool with
  | .str name =>
      match TOOLS.lookup name with
      | some (flag, _) => do
          let lastOk ← Code.now
          let rounds : Nat ← Code.ask .rounds
          follow d row ref agent provider flag started rounds state
            (getItem state "seen").truthy lastOk
      | none => pure (.error "KeyError")
  | .list _ => pure (.error "TypeError")
  | .dict _ => pure (.error "TypeError")
  | _ => pure (.error "KeyError")

/-- `run`, once the agent has accepted the start: the run is recorded, and stopped again when a
cancel landed while the start was in flight. -/
def record (d : Deps) (row : Row) (ref : Ref) (agent aid provider tool : Json) (data : Object) :
    Code (ToolWorld V) (Except String Outcome) := do
  let now ← Code.now
  let state := recordedState d data now
  -- Whether the guarded write took effect is not looked at.
  let _ ← Code.ask (.setState row.id state)
  let cancelled : Bool ← Code.ask (.isSet ref)
  if cancelled then do
    postCancel agent row.spec
    pure (.ok cancelledRun)
  else watch d row ref agent aid provider tool state now

/-- `run`, from the start of the run on the agent on. -/
def startRun (d : Deps) (row : Row) (ref : Ref) (agent aid provider tool path : Json)
    (state : Object) : Code (ToolWorld V) (Except String Outcome) :=
  match row.spec.lookup "body" with
  | none => pure (.error "KeyError")
  | some body => do
      let resp : Except String (Option Response) ←
        call (.agentCall .start .POST agent path (some body) 20)
      match resp with
      | .error name => pure (.error name)
      | .ok none => pure (.ok (fail "agent unreachable" none true))
      | .ok (some resp) =>
          let data := jsonOf resp
          if accepted resp then record d row ref agent aid provider tool data
          else
            let err := d.str (orElse (getItem data "error")
              (orElse (getItem data "detail") (.str "")))
            if refusal err then pure (.ok (again POLL_S (some state) (some WAITING)))
            else
              pure (.ok (fail (if err = "" then "HTTP " ++ toString resp.statusCode else err)
                none true))

/-- `spec["path"].endswith("/bench/live/run") and (spec.get("body") or {}).get("builds")`. -/
def comparesBuilds (spec : Object) (path : Json) : Except String Bool :=
  match path with
  | .str text =>
      if "/bench/live/run".toList.isSuffixOf text.toList then
        match getItem spec "body" with
        | .dict items => .ok (getItem items "builds").truthy
        | body => if body.truthy then .error "AttributeError" else .ok false
      else .ok false
  | _ => .error "AttributeError"

/-- `run`, from the quiet window for a build change on. -/
def quietStart (d : Deps) (row : Row) (ref : Ref) (agent aid provider tool : Json)
    (state : Object) : Code (ToolWorld V) (Except String Outcome) :=
  match row.spec.lookup "path" with
  | none => pure (.error "KeyError")
  | some path =>
      if d.quiet then
        match comparesBuilds row.spec path with
        | .error name => pure (.error name)
        | .ok true => do
            let _ ← call (.quietBuildChange aid)
            startRun d row ref agent aid provider tool path state
        | .ok false => startRun d row ref agent aid provider tool path state
      else startRun d row ref agent aid provider tool path state

/-- `run`, once the host is free: the pre-step and then the start. -/
def freeStart (d : Deps) (row : Row) (ref : Ref) (agent aid provider tool : Json)
    (state : Object) : Code (ToolWorld V) (Except String Outcome) :=
  if (getItem row.spec "pre").truthy && !(getItem state "pre_done").truthy then do
    let _ ← call (.agentCall .pre .POST agent (getItem row.spec "pre") none PRE_TIMEOUT_S)
    let state := setItems "pre_done" (.bool true) state
    let _ ← Code.ask (.setState row.id state)
    nap ref
    quietStart d row ref agent aid provider tool state
  else quietStart d row ref agent aid provider tool state

/-- `aid in held`: a list or an object cannot be looked up in a set. -/
def inSet (aid : Json) (held : List String) : Except String Bool :=
  match aid with
  | .str text => .ok (held.contains text)
  | .list _ => .error "TypeError"
  | .dict _ => .error "TypeError"
  | _ => .ok false

/-- `run` of a job that has not started a run on the agent yet. -/
def firstRun (d : Deps) (row : Row) (ref : Ref) (agent aid provider tool : Json) :
    Code (ToolWorld V) (Except String Outcome) := do
  let held : List String ← call .heldAgents
  match inSet aid held with
  | .error name => pure (.error name)
  | .ok true => pure (.ok (again POLL_S none (some WAITING)))
  | .ok false => do
      if ← agentBusy d agent provider then
        pure (.ok (again POLL_S (some row.state) (some WAITING)))
      else freeStart d row ref agent aid provider tool row.state

/-- `run` -/
def run (d : Deps) (row : Row) (ref : Ref) : Code (ToolWorld V) (Except String Outcome) :=
  match row.spec.lookup "agent_id", row.spec.lookup "provider", row.spec.lookup "tool" with
  | some aid, some provider, some tool => do
      let agent : Json ← call (.agentFor aid)
      if agent.truthy then
        if hasRunId row.state then do
          -- Re-entry after a restart: the flag gets a fresh grace.
          let now ← Code.now
          watch d row ref agent aid provider tool
            (setItems "started" (.float (.finite now)) row.state) now
        else firstRun d row ref agent aid provider tool
      else pure (.ok (fail "unknown agent" none true))
  | _, _, _ => pure (.error "KeyError")

section Operations

variable {d : Deps} {row : Row} {ref : Ref} {φ : Op (ToolWorld V) → Prop}

/-- The operations of a tool run: it reads its own flag, writes the state of its own job and
calls the outside. -/
structure Performs (row : Row) (ref : Ref) (φ : Op (ToolWorld V) → Prop) : Prop where
  now : φ .now
  flag : φ (.isSet ref)
  state : ∀ state, φ (.setState row.id state)
  call : ∀ c, φ (.ext (.inl c))
  rounds : φ .rounds
  never : φ .never

/-- `_post_cancel` -/
theorem post_cancel_all {agent : Json} {spec : Object} (h : Performs row ref φ) :
    (postCancel agent spec).All φ := by
  unfold postCancel
  split
  · exact Code.all_ask (h.call _) fun _ => trivial
  · trivial

/-- `on_cancel` -/
theorem on_cancel_all (h : Performs row ref φ) : (onCancel row).All φ := by
  unfold onCancel
  split
  · trivial
  · refine Code.all_ask (h.call _) fun agent => ?_
    split
    · exact post_cancel_all h
    · trivial

theorem nap_loop_all (h : Performs row ref φ) (slices : Nat) : (napLoop ref slices).All φ := by
  induction slices with
  | zero => trivial
  | succ slices ih =>
      refine Code.all_ask h.flag fun cancelled => ?_
      split
      · trivial
      · exact Code.all_ask (h.call _) fun _ => ih

variable {state : Object}

theorem follow_all {agent provider : Json} {flag : String} {started : ℚ} {rounds : Nat}
    {seen : Bool} {lastOk : ℚ} (h : Performs row ref φ) :
    (follow d row ref agent provider flag started rounds state seen lastOk).All φ := by
  induction rounds generalizing state seen lastOk with
  | zero => exact Code.all_ask h.never fun nothing => nomatch nothing
  | succ rounds ih =>
      refine Code.all_ask h.flag fun cancelled => ?_
      split
      · trivial
      · refine Code.all_ask (h.call _) fun resp => ?_
        split
        · trivial
        · refine Code.all_ask h.now fun now => ?_
          split
          · dsimp only
            split
            · refine Code.all_ask (h.state _) fun _ => ?_
              exact Code.all_seq (nap_loop_all h 6) fun _ => ih
            · split
              · trivial
              · split
                · trivial
                · exact Code.all_seq (nap_loop_all h 6) fun _ => ih
          · split
            · trivial
            · exact Code.all_seq (nap_loop_all h 6) fun _ => ih

variable {agent aid provider tool : Json}

theorem watch_all {started : ℚ} (h : Performs row ref φ) :
    (watch d row ref agent aid provider tool state started).All φ := by
  refine Code.all_ask (h.call _) fun _ => ?_
  split
  · split
    · refine Code.all_ask h.now fun lastOk => ?_
      exact Code.all_ask h.rounds fun rounds => follow_all h
    · trivial
  · trivial
  · trivial
  · trivial

theorem record_all {data : Object} (h : Performs row ref φ) :
    (record d row ref agent aid provider tool data).All φ := by
  refine Code.all_ask h.now fun now => ?_
  refine Code.all_ask (h.state _) fun _ => ?_
  refine Code.all_ask h.flag fun cancelled => ?_
  split
  · exact Code.all_seq (post_cancel_all h) fun _ => trivial
  · exact watch_all h

theorem start_run_all {agent aid provider tool path : Json} (h : Performs row ref φ) :
    (startRun d row ref agent aid provider tool path state).All φ := by
  unfold startRun
  split
  · trivial
  · refine Code.all_ask (h.call _) fun resp => ?_
    split
    · trivial
    · trivial
    · dsimp only
      split
      · exact record_all h
      · split
        · trivial
        · trivial

theorem free_start_all (h : Performs row ref φ) :
    (freeStart d row ref agent aid provider tool state).All φ := by
  have hquiet : ∀ state, (quietStart d row ref agent aid provider tool state).All φ := by
    intro state
    unfold quietStart
    split
    · trivial
    · split
      · split
        · trivial
        · exact Code.all_ask (h.call _) fun _ => start_run_all h
        · exact start_run_all h
      · exact start_run_all h
  unfold freeStart
  split
  · refine Code.all_ask (h.call _) fun _ => ?_
    refine Code.all_ask (h.state _) fun _ => ?_
    exact Code.all_seq (nap_loop_all h 6) fun _ => hquiet _
  · exact hquiet _

theorem agent_busy_all (h : Performs row ref φ) : (agentBusy d agent provider).All φ := by
  refine Code.all_ask (h.call _) fun resp => ?_
  split
  · split
    · trivial
    · trivial
  · trivial

/-- `run` -/
theorem run_all (h : Performs row ref φ) : (run d row ref).All φ := by
  unfold run
  split
  · refine Code.all_ask (h.call _) fun agent => ?_
    split
    · split
      · exact Code.all_ask h.now fun now => watch_all h
      · refine Code.all_ask (h.call _) fun held => ?_
        split
        · trivial
        · trivial
        · refine Code.all_seq (agent_busy_all h) fun busy => ?_
          split
          · trivial
          · exact free_start_all h
    · trivial
  · trivial

theorem performs_handler (row : Row) (ref : Ref) :
    Performs (V := V) row ref fun op => op.ofHandler = true :=
  ⟨rfl, rfl, fun _ => rfl, fun _ => rfl, rfl, rfl⟩

end Operations

/-- The kind that `Queue` registers for tool runs. -/
def toolRun (d : Deps) : Kind (ToolWorld V) where
  name := KIND
  title := TITLE
  run := run d
  validate := some (validate d)
  label := some (label d)
  exclusive := some fun spec => [perfKey d spec]
  onFinish := none
  onCancel := some onCancel
  resume := .requeue
  maxRunS := maxRunS d
  run_ops := fun row ref => run_all (performs_handler row ref)
  on_finish_ops := fun _ hf => nomatch hf
  on_cancel_ops := by
    intro f hf row
    cases hf
    exact on_cancel_all (performs_handler row 0)

end SystemsManager.Tools
