import SystemsManager.Gateway.Requests

/-!
# Completions inside the manager

`complete_json`, `complete_stream` and `native_chat_stream` of `backend/gateway.py`, which other
parts of the manager call. `InCall` are the operations: the agents, the counters and the caller that
takes the chunks. What an upstream sends is given by two of them: `lines`, all that can be read, and
`ends`, what happens after it. A caller that drops the generator answers `yield_` with `false`. Logs
are left out.
-/

namespace SystemsManager.Gateway

open Python Concurrency

variable [JsonReader]

/-- The exceptions that end a completion: `GatewayError`, `GeneratorExit` and all others. -/
inductive Raised where
  | gateway (message : String) (status : ℕ) (errType : String)
  | closed
  | other

/-- The answer of `_dial_stream`. -/
inductive Dialled where
  | unreachable
  | timedOut
  | upstream (upstream : Upstream)

/-- The error of `_forward_json`. -/
structure Failure where
  text : String
  timedOut : Bool

/-- What follows the last line of an upstream: its end, a read failure that `_stream_lines` catches,
or another exception. -/
inductive StreamEnd where
  | finished
  | broken
  | raised

/-- The operations of a completion. -/
inductive InCall where
  | providerFor (model : Json)
  | candidates (model : Json) (provider : String)
  | forwardJson (agent : Agent) (path : String) (body : Fields)
  | dialStream (agent : Agent) (path : String) (body : Fields)
  | closeUpstream (agent : Agent)
  | lines (agent : Agent)
  | ends (agent : Agent) (lines : List (List Char))
  | yield_ (chunk : Json)
  | beginAgent (agentId : String)
  | endAgent (agentId : String)
  | clientBegin (client : ClientKey) (model : Json)
  | clientEnd (client : ClientKey)
  | record (agentId : String) (p g : Json) (model : Json)
  | clientRecord (client : ClientKey) (p g : Json)
  | recordLatency
  | recordError
  | countGateway (model : Json) (what : String)

/-- The answers of the operations. -/
abbrev InCall.Answer : InCall → Type
  | .providerFor _ => Except Raised String
  | .candidates .. => Except Raised (List Agent)
  | .forwardJson .. => Except Raised (Except Failure Answered)
  | .dialStream .. => Except Raised Dialled
  | .lines _ => List (List Char)
  | .ends .. => StreamEnd
  | .yield_ _ => Bool
  | .record .. => Except Raised Unit
  | .clientRecord .. => Except Raised Unit
  | _ => Unit

/-- The variables of a completion. -/
structure InLocals where
  errors : List String := []
  timedOut : Bool := false
  first : Bool := true

/-- Code of a completion. -/
abbrev In (α : Type) := Proc InCall InCall.Answer InLocals Raised α

/-- `NATIVE_CHAT_PATH` -/
def NATIVE_CHAT_PATH : String := "/lms/native/chat"

section Calls

/-- One operation. -/
def inCall (c : InCall) : In c.Answer := Proc.ask c

/-- An operation whose answer is an exception or a value. -/
def orThrow {α : Type} (p : In (Except Raised α)) : In α := do
  let answer ← p
  Proc.lift answer

/-- `errors.append(f"{_label(agent)}: {reason}")` -/
def noteError (agent : Agent) (reason : String) : In Unit :=
  Proc.modify fun v => { v with errors := v.errors ++ [agentLabel agent ++ ": " ++ reason] }

/-- `timed_out |= timeout` -/
def noteTimeout (timeout : Bool) : In Unit :=
  Proc.modify fun v => { v with timedOut := v.timedOut || timeout }

/-- A candidate is skipped: the failover is counted under `what`. -/
def skipCandidate (model : Json) (agent : Agent) (what reason : String) : In Unit := do
  inCall (.countGateway model what)
  noteError agent reason

/-- An error is counted in both ledgers. -/
def countError (model : Json) : In Unit := do
  inCall .recordError
  inCall (.countGateway model "errors")

end Calls

/-- `_no_backend` -/
def noBackend (provider : String) (errors : List String) : Raised :=
  if errors.isEmpty then .gateway ("no " ++ provider ++ " backend registered") 404 "no_backend"
  else .gateway ("no " ++ provider ++ " backend available") 503 "unavailable"

/-- `_resolve` -/
def resolve (settings : Settings) (body : Fields) (provider : Option String) :
    In (Json × String) :=
  if settings.enabled then do
    let named := getItem body "model"
    let model := if named.truthy then named else .null
    match provider with
    | some provider => pure (model, provider)
    | none => do
        let provider ← orThrow (inCall (.providerFor model))
        pure (model, provider)
  else Proc.raise (.gateway "gateway disabled" 503 "disabled")

/-- `_AGENT_PATHS[provider]["chat/completions"]` -/
def chatPath (settings : Settings) (provider : String) : In String :=
  if provider ∈ settings.providers then pure ("/" ++ provider ++ "/openai/chat/completions")
  else Proc.raise .other

/-- No candidate has served the completion. -/
def noneServed {α : Type} (model : Json) (provider : String) : In α := do
  countError model
  let v ← Proc.get
  if v.timedOut then Proc.raise (.gateway "upstream timeout" 504 "timeout")
  else Proc.raise (noBackend provider v.errors)

/-- The usage of a response is recorded for the client, and for the agent of a counted provider. -/
def recordTokens (provider : String) (client : ClientKey) (model : Json) (agent : Agent) :
    Option (Json × Json) → In Unit
  | none => pure ()
  | some (p, g) => do
      orThrow (inCall (.clientRecord client p g))
      Proc.onlyIf (USAGE_COUNTED_PROVIDERS.contains provider)
        (orThrow (inCall (.record agent.agentId p g model)))

section Whole

/-- What `complete_json` does with an answer that succeeds. -/
def takeAnswer (provider : String) (client : ClientKey) (model : Json) (agent : Agent)
    (answered : Answered) : In Json := do
  let usage ← Proc.lift ((completionUsage answered.content).mapError fun _ => Raised.other)
  recordTokens provider client model agent (usage.map fun u => (.int u.1, .int u.2))
  match JsonReader.loadsBytes answered.content with
  | .ok out => pure out
  | .error _ => Proc.raise .other

/-- One candidate of `complete_json`. -/
def tryJson (provider path : String) (body : Fields) (client : ClientKey) (model : Json)
    (agent : Agent) : In (Option Json) := do
  inCall (.beginAgent agent.agentId)
  let answer ← Proc.ensuring (orThrow (inCall (.forwardJson agent path body)))
    (inCall (.endAgent agent.agentId))
  match answer with
  | .error err => do
      noteTimeout err.timedOut
      skipCandidate model agent (if err.timedOut then "timeouts" else "failovers")
        (if err.timedOut then "timeout" else err.text)
      pure none
  | .ok answered => do
      let v ← Proc.get
      -- An earlier timeout keeps failover alive past a sibling's 4xx.
      if answered.status ∈ FAILOVER_STATUSES ∨ (v.timedOut = true ∧ 400 ≤ answered.status) then do
        skipCandidate model agent "failovers" (toString answered.status)
        pure none
      else if 200 ≤ answered.status ∧ answered.status < 300 then do
        let out ← takeAnswer provider client model agent answered
        pure (some out)
      else do
        countError model
        Proc.raise (.gateway ("upstream " ++ toString answered.status) answered.status "upstream")

/-- `complete_json` -/
def completeJson (settings : Settings) (body : Fields) (label : String) (provider : Option String) :
    In Json := do
  let (model, provider) ← resolve settings body provider
  let path ← chatPath settings provider
  let client := clientKey label ""
  inCall (.clientBegin client model)
  Proc.ensuring
    (do
      let cands ← orThrow (inCall (.candidates model provider))
      Proc.onlyIf (!cands.isEmpty) (inCall (.countGateway model "requests"))
      let found ← Proc.firstSome
        (tryJson provider path (setItems "stream" (.bool false) body) client model) cands
      match found with
      | some out => pure out
      | none => noneServed model provider)
    (inCall (.clientEnd client))

end Whole

section Streamed

/-- The JSON value of a line, `none` where the loop goes on with the next line or ends there. -/
def chunkOf (line : List Char) : Option Json :=
  if line = [] ∨ dataPrefix.isPrefixOf line = false then none
  else
    let data := stripText (line.drop 6)
    if data = doneMark then none else loads data

/-- How `_stream_chunks` is called. -/
structure Streaming where
  model : Json
  provider : String
  path : String
  body : Fields
  client : ClientKey
  usageOf : Json → Except Raised (Option (Json × Json))
  last : Json → Except Raised Bool

/-- What `_stream_lines` raises after a read failure: a timeout before the first chunk, a drop after
it. -/
def readFailed : In Unit := do
  let v ← Proc.get
  Proc.onlyIf (!v.first) (inCall .recordError)
  if v.first then Proc.raise (.gateway "upstream timeout" 504 "timeout")
  else Proc.raise (.gateway "upstream dropped" 502 "upstream")

/-- The usage of a chunk is recorded, and the chunk is handed to the caller. -/
def relayChunk (s : Streaming) (agent : Agent) (chunk : Json) : In Unit := do
  let v ← Proc.get
  Proc.onlyIf v.first (do
    Proc.modify fun v => { v with first := false }
    inCall .recordLatency)
  let usage ← Proc.lift (s.usageOf chunk)
  recordTokens s.provider s.client s.model agent usage
  let goesOn ← inCall (.yield_ chunk)
  if goesOn then pure () else Proc.raise .closed

/-- The loop of `_stream_chunks` over the lines of an upstream, `all` being the whole of them. -/
def readChunks (s : Streaming) (agent : Agent) (all : List (List Char)) :
    List (List Char) → In Unit
  | [] => do
      let streamEnd : StreamEnd ← inCall (.ends agent all)
      match streamEnd with
      | .finished => pure ()
      | .broken => readFailed
      | .raised => Proc.raise .other
  | line :: rest =>
      if line = [] ∨ dataPrefix.isPrefixOf line = false then readChunks s agent all rest
      else
        let data := stripText (line.drop 6)
        if data = doneMark then pure ()
        else match loads data with
          | none => readChunks s agent all rest
          | some chunk => do
              relayChunk s agent chunk
              let isLast ← Proc.lift (s.last chunk)
              if isLast then pure () else readChunks s agent all rest

/-- The `except GatewayError` of `_stream_chunks`: a timeout before the first chunk tries the next
candidate. -/
def onReadError (model : Json) (agent : Agent) (e : Raised) : In (Option Unit) := do
  let v ← Proc.get
  match e with
  | .gateway message status errType =>
      if errType ≠ "timeout" ∨ v.first = false then Proc.raise (.gateway message status errType)
      else do
        noteTimeout true
        skipCandidate model agent "timeouts" "timeout"
        pure none
  | e => Proc.raise e

/-- One candidate of `_stream_chunks`; a value means that the stream is over. -/
def tryChunks (s : Streaming) (agent : Agent) : In (Option Unit) := do
  let dialled ← orThrow (inCall (.dialStream agent s.path s.body))
  match dialled with
  | .unreachable => do
      skipCandidate s.model agent "failovers" "unreachable"
      pure none
  | .timedOut => do
      noteTimeout true
      skipCandidate s.model agent "timeouts" "timeout"
      pure none
  | .upstream upstream =>
      if upstream.status ∈ FAILOVER_STATUSES then do
        inCall (.closeUpstream agent)
        skipCandidate s.model agent "failovers" (toString upstream.status)
        pure none
      else if isEventStream (upstream.contentType.getD "").toLower = false ∨
          400 ≤ upstream.status then do
        inCall (.closeUpstream agent)
        let v ← Proc.get
        -- An earlier timeout keeps failover alive past a sibling's 4xx.
        if v.timedOut then do
          skipCandidate s.model agent "failovers" (toString upstream.status)
          pure none
        else do
          countError s.model
          Proc.raise (.gateway ("upstream " ++ toString upstream.status) upstream.status "upstream")
      else do
        inCall (.beginAgent agent.agentId)
        Proc.modify fun v => { v with first := true }
        Proc.ensuring
          (Proc.catch_
            (do
              let lines : List (List Char) ← inCall (.lines agent)
              readChunks s agent lines lines
              pure (some ()))
            (onReadError s.model agent))
          (do
            inCall (.endAgent agent.agentId)
            inCall (.closeUpstream agent))

/-- `_stream_chunks` -/
def chunksOf (s : Streaming) : In Unit := do
  inCall (.clientBegin s.client s.model)
  Proc.ensuring
    (do
      let cands ← orThrow (inCall (.candidates s.model s.provider))
      Proc.onlyIf (!cands.isEmpty) (inCall (.countGateway s.model "requests"))
      let found ← Proc.firstSome (tryChunks s) cands
      match found with
      | some () => pure ()
      | none => noneServed s.model s.provider)
    (inCall (.clientEnd s.client))

/-- `complete_stream` -/
def completeChunks (settings : Settings) (body : Fields) (label : String)
    (provider : Option String) : In Unit := do
  let (model, provider) ← resolve settings body provider
  let streamBody := setItems "stream" (.bool true) body
  let path ← chatPath settings provider
  chunksOf
    { model, provider, path, client := clientKey label ""
      body := if settings.usageProbe then (withUsageProbe streamBody).1 else streamBody
      usageOf := fun chunk => (oaiUsage chunk).mapError fun _ => .other
      last := fun _ => .ok false }

/-- `event.get("type") == "chat.end"` -/
def isChatEnd : Json → Except Raised Bool
  | .dict items => match getItem items "type" with
      | .str text => .ok (decide (text = "chat.end"))
      | _ => .ok false
  | _ => .error .other

/-- `value or {}` -/
def orEmpty (value : Json) : Json := if value.truthy then value else .dict []

/-- `_native_usage` -/
def nativeUsage (event : Json) : Except Raised (Option (Json × Json)) :=
  match event, isChatEnd event with
  | _, .error e => .error e
  | .dict items, .ok true =>
      match orEmpty (getItem items "result") with
      | .dict result => match orEmpty (getItem result "stats") with
          | .dict stats =>
              match Energy.intOrZero (getItem stats "input_tokens"),
                Energy.intOrZero (getItem stats "total_output_tokens") with
              | .ok p, .ok g => .ok (some (.int p, .int g))
              | _, _ => .error .other
          | _ => .error .other
      | _ => .error .other
  | _, .ok _ => .ok none

/-- `native_chat_stream` -/
def nativeChunks (settings : Settings) (body : Fields) (label : String) : In Unit := do
  let (model, provider) ← resolve settings body (some "lms")
  chunksOf
    { model, provider, path := NATIVE_CHAT_PATH, client := clientKey label ""
      body := setItems "stream" (.bool true) body
      usageOf := nativeUsage
      last := isChatEnd }

end Streamed

end SystemsManager.Gateway
