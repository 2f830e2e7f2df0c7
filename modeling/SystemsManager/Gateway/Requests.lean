import SystemsManager.Concurrency.Procedure
import SystemsManager.Gateway.Streams

/-!
# Requests through the gateway

`_handle_completion` and `_stream_from` of `backend/gateway.py`, from the request to the closing of
the response. What they call is an operation: the agents, the counters of `gateway_usage` and the
stream pool, and the server that reads the body of the response. An operation that may raise has an
answer in `Except`. `closeResponse` is the `close` of a Werkzeug response: the body is closed and
then the callbacks are called, so that an exception of the body leaves them out. Logs are left out.
The operation `candidates` answers with any list, so that what is shown of a request holds for every
list; which list `_candidates` makes is the subject of `Gateway/Candidates.lean`.
-/

namespace SystemsManager.Gateway

open Python Concurrency

variable [JsonReader]

/-- The fields of a JSON object. -/
abbrev Fields := List (String × Json)

/-- An agent, as far as the gateway looks at it. -/
structure Agent where
  agentId : String
  hostname : Option String

/-- The head of a response that is streamed. -/
structure Upstream where
  status : ℕ
  contentType : Option String

/-- A response that has been read. -/
structure Answered where
  status : ℕ
  contentType : Option String
  content : Bytes

/-- How far the server has read the body of a stream when it closes the response. -/
inductive Reading where
  | unread
  | left (pieces : List Piece)
  | finished (pieces : List Piece)

/-- What a response does when it is closed. -/
inductive Callback where
  | release
  | endAgent (agentId : String)
  | endClient (client : ClientKey)

/-- The body of a stream: the generator `tap_sse` with what its `on_usage` has captured. -/
structure StreamBody where
  agentId : String
  client : ClientKey
  counted : Bool
  model : Json

/-- The body of a response. -/
inductive Body where
  | error (message type : String) (code : ℕ)
  | content (bytes : Bytes)
  | stream (body : StreamBody)

/-- A Flask response. -/
structure Response where
  status : ℕ
  mimetype : String
  headers : List (String × String)
  body : Body
  onClose : List Callback := []
  clientOwned : Bool := false

/-- The operations of a request. -/
inductive Call where
  | providerFor (model : Json)
  | candidates (model : Json) (agentId : Option String) (provider : String)
  | dialStream (agent : Agent) (path : String) (body : Fields)
  | forwardJson (agent : Agent) (path : String) (body : Fields)
  | content (agent : Agent)
  | closeUpstream (agent : Agent)
  | tryAcquire
  | release
  | buildResponse (agent : Agent)
  | beginAgent (agentId : String)
  | endAgent (agentId : String)
  | clientBegin (client : ClientKey) (model : Json)
  | clientEnd (client : ClientKey)
  | record (agentId : String) (p g : Int) (model : Json)
  | clientRecord (client : ClientKey) (p g : Int)
  | recordLatency
  | recordError
  | countGateway (model : Json) (what : String)
  | readBody

/-- The answers of the operations. -/
abbrev Call.Answer : Call → Type
  | .providerFor _ => Except Unit String
  | .candidates .. => Except Unit (List Agent)
  | .dialStream .. => Except Unit (Option Upstream)
  | .forwardJson .. => Except Unit (Except String Answered)
  | .content _ => Except Unit Bytes
  | .tryAcquire => Except Unit Bool
  | .buildResponse _ => Except Unit Unit
  | .readBody => Reading
  | _ => Unit

/-- The variables of a request. -/
structure Locals where
  errors : List String := []
  streamOwnsClient : Bool := false
  handedOff : Bool := false

/-- Code of a request; what an exception says is not looked at. -/
abbrev Gw (α : Type) := Proc Call Call.Answer Locals Unit α

/-- The settings that the gateway reads. -/
structure Settings where
  enabled : Bool
  usageProbe : Bool
  exposeProxiedTo : Bool
  providers : List String

/-- What a request carries. -/
structure Inbound where
  body : Option Fields
  agentArg : Option String
  label : String
  ip : String

/-- `_FAILOVER_STATUSES` -/
def FAILOVER_STATUSES : List ℕ := [502, 503]

/-- `_POOL_RETRY_AFTER_S` -/
def POOL_RETRY_AFTER_S : ℕ := 5

/-- `_GATEWAY_SUBS` -/
def GATEWAY_SUBS : List String := ["chat/completions", "completions"]

/-- `_AGENT_REPLY_TYPES` -/
def AGENT_REPLY_TYPES : List String :=
  ["application/json", "application/x-ndjson", "application/octet-stream", "text/event-stream",
    "text/plain"]

/-- `agent_reply_ctype` -/
def agentReplyCtype (contentType : String) : String :=
  let base := strip (String.ofList (contentType.toList.takeWhile fun c => c != ';'))
  if base.toLower ∈ AGENT_REPLY_TYPES then contentType else "application/json"

/-- `_oai_error` -/
def oaiError (message : String) (status : ℕ) (type : String) : Response :=
  { status, mimetype := "application/json", headers := [], body := .error message type status }

/-- `_label` -/
def agentLabel (agent : Agent) : String :=
  takeChars agent.agentId 8 ++ "@" ++ match agent.hostname with
    | none => "?"
    | some name => if name = "" then "?" else name

/-- `_proxied_to_header` -/
def proxiedToHeader (settings : Settings) (agent : Agent) : List (String × String) :=
  if settings.exposeProxiedTo then [("X-Proxied-To", agentLabel agent)] else []

/-- `_with_usage_probe` -/
def withUsageProbe (body : Fields) : Fields × Bool :=
  if (body.lookup "stream_options").isSome then (body, false)
  else (setItems "stream_options" (.dict [("include_usage", .bool true)]) body, true)

/-- The key that `client_begin` returns. -/
def clientKey (label ip : String) : ClientKey := (if label = "" then "unknown" else label, ip)

/-- `completion_usage_from_json_bytes` -/
def completionUsage (content : Bytes) : Except Unit (Option (Int × Int)) :=
  match guarded (JsonReader.loadsBytes content) with
  | .error _ => .error ()
  | .ok (some (.dict items)) => match getItem items "choices" with
    | .list _ => (usageFromDict (.dict items)).mapError fun _ => ()
    | _ => .ok none
  | .ok _ => .ok none

/-- `"text/event-stream" in ctype` -/
def isEventStream (contentType : String) : Bool :=
  decide ("text/event-stream".toList <:+: contentType.toList)

section Calls

/-- One operation. -/
def call (c : Call) : Gw c.Answer := Proc.ask c

/-- An operation whose answer is an exception or a value. -/
def orRaise {α : Type} (p : Gw (Except Unit α)) : Gw α := do
  let answer ← p
  Proc.lift answer

/-- `errors.append(f"{_label(agent)}: {reason}")` -/
def addError (agent : Agent) (reason : String) : Gw Unit :=
  Proc.modify fun v => { v with errors := v.errors ++ [agentLabel agent ++ ": " ++ reason] }

/-- The callback of a response is called. -/
def runCallback : Callback → Gw Unit
  | .release => call .release
  | .endAgent agentId => call (.endAgent agentId)
  | .endClient client => call (.clientEnd client)

end Calls

/-- What a stream is relayed with. -/
structure Relay where
  provider : String
  injected : Bool
  client : ClientKey
  model : Json

/-- The response of `_stream_from` to an upstream that streams, once its slot is taken. -/
def streamResponse (settings : Settings) (agent : Agent) (relay : Relay) (upstream : Upstream) :
    Gw Response :=
  Proc.ensuring
    (do
      orRaise (call (.buildResponse agent))
      -- The counter of the agent goes up last, after everything that may raise.
      call (.beginAgent agent.agentId)
      Proc.modify fun v => { v with handedOff := true }
      pure
        { status := upstream.status
          mimetype := "text/event-stream"
          headers := [("Cache-Control", "no-cache"), ("X-Accel-Buffering", "no")] ++
            proxiedToHeader settings agent
          body := .stream
            { agentId := agent.agentId, client := relay.client, model := relay.model
              counted := USAGE_COUNTED_PROVIDERS.contains relay.provider }
          onClose := [.release, .endAgent agent.agentId, .endClient relay.client]
          clientOwned := true })
    (do
      let v ← Proc.get
      Proc.onlyIf (!v.handedOff) (do
        call (.closeUpstream agent)
        call .release))

/-- The response of `_stream_from` to an upstream that does not stream. -/
def relayedResponse (agent : Agent) (upstream : Upstream) (contentType : String) : Gw Response := do
  let content ← orRaise (call (.content agent))
  call (.closeUpstream agent)
  Proc.onlyIf (decide (400 ≤ upstream.status)) (call .recordError)
  orRaise (call (.buildResponse agent))
  pure
    { status := upstream.status, mimetype := agentReplyCtype contentType, headers := []
      body := .content content }

/-- The response of `_stream_from` when no slot is free. -/
def poolFullResponse (agent : Agent) : Gw Response := do
  call (.closeUpstream agent)
  call .recordError
  pure
    { oaiError "manager at stream capacity; retry shortly" 503 "unavailable" with
      headers := [("Retry-After", toString POOL_RETRY_AFTER_S)] }

/-- `_stream_from` -/
def streamFrom (settings : Settings) (agent : Agent) (path : String) (body : Fields)
    (relay : Relay) : Gw (Option Response) := do
  let upstream ← orRaise (call (.dialStream agent path body))
  match upstream with
  | none => do
      addError agent "unreachable"
      pure none
  | some upstream =>
      if upstream.status ∈ FAILOVER_STATUSES then do
        call (.closeUpstream agent)
        addError agent (toString upstream.status)
        pure none
      else do
        call .recordLatency
        let contentType := (upstream.contentType.getD "").toLower
        if isEventStream contentType then do
          let granted ← orRaise (call .tryAcquire)
          if granted then do
            Proc.modify fun v => { v with handedOff := false }
            let response ← streamResponse settings agent relay upstream
            pure (some response)
          else do
            let response ← poolFullResponse agent
            pure (some response)
        else do
          let response ← relayedResponse agent upstream contentType
          pure (some response)

/-- What `_handle_completion` records of an answer that is no failover. -/
def recordAnswer (agent : Agent) (relay : Relay) (answered : Answered) : Gw Unit :=
  if 200 ≤ answered.status ∧ answered.status < 300 then do
    let usage ← Proc.lift (completionUsage answered.content)
    match usage with
    | none => pure ()
    | some (p, g) => do
        call (.clientRecord relay.client p g)
        Proc.onlyIf (USAGE_COUNTED_PROVIDERS.contains relay.provider)
          (call (.record agent.agentId p g relay.model))
  else do
    call .recordError
    call (.countGateway relay.model "errors")

/-- One candidate of a request that does not stream. -/
def tryWhole (settings : Settings) (path : String) (body : Fields) (relay : Relay) (agent : Agent) :
    Gw (Option Response) := do
  call (.beginAgent agent.agentId)
  let answer ← Proc.ensuring (orRaise (call (.forwardJson agent path body)))
    (call (.endAgent agent.agentId))
  match answer with
  | .error err => do
      call (.countGateway relay.model "failovers")
      addError agent err
      pure none
  | .ok answered =>
      if answered.status ∈ FAILOVER_STATUSES then do
        call (.countGateway relay.model "failovers")
        addError agent (toString answered.status)
        pure none
      else do
        call .recordLatency
        recordAnswer agent relay answered
        orRaise (call (.buildResponse agent))
        pure (some
          { status := answered.status
            mimetype := agentReplyCtype (answered.contentType.getD "")
            headers := proxiedToHeader settings agent
            body := .content answered.content })

/-- One candidate of a request that streams. -/
def tryStream (settings : Settings) (path : String) (body : Fields) (relay : Relay)
    (agent : Agent) :
    Gw (Option Response) := do
  let response ← streamFrom settings agent path body relay
  match response with
  | some response => do
      Proc.modify fun v => { v with streamOwnsClient := response.clientOwned }
      pure (some response)
  | none => do
      call (.countGateway relay.model "failovers")
      pure none

/-- The candidates of a request in turn, and the error when none answers. -/
def serveCandidates (settings : Settings) (inbound : Inbound) (path : String) (body : Fields)
    (wantsStream : Bool) (relay : Relay) : Gw Response := do
  let cands ← orRaise (call (.candidates relay.model inbound.agentArg relay.provider))
  Proc.onlyIf (!cands.isEmpty) (call (.countGateway relay.model "requests"))
  let found ← Proc.firstSome
    (fun agent => if wantsStream then tryStream settings path body relay agent
      else tryWhole settings path body relay agent) cands
  match found with
  | some response => pure response
  | none => do
      call .recordError
      call (.countGateway relay.model "errors")
      let v ← Proc.get
      if v.errors.isEmpty then
        pure (oaiError ("no " ++ relay.provider ++
          " backend registered — register an agent or set a default/pool") 404 "no_backend")
      else pure (oaiError ("no " ++ relay.provider ++ " backend available") 503 "unavailable")

/-- `_handle_completion`, once the provider is known. -/
def completeWith (settings : Settings) (inbound : Inbound) (sub : String) (body : Fields)
    (model : Json) (provider : String) : Gw Response :=
  if provider ∈ settings.providers ∧ sub ∈ GATEWAY_SUBS then
    let path := "/" ++ provider ++ "/openai/" ++ sub
    let wantsStream := (getItem body "stream").truthy
    let probed := if wantsStream && settings.usageProbe then withUsageProbe body else (body, false)
    let client := clientKey inbound.label inbound.ip
    do
      call (.clientBegin client model)
      Proc.ensuring
        (serveCandidates settings inbound path probed.1 wantsStream
          { provider, injected := probed.2, client, model })
        (do
          let v ← Proc.get
          Proc.onlyIf (!v.streamOwnsClient) (call (.clientEnd client)))
  else Proc.raise ()

/-- The provider of a request. -/
def providerOf (model : Json) : Option String → Gw String
  | some provider => pure provider
  | none => orRaise (call (.providerFor model))

/-- `_handle_completion` -/
def handleCompletion (settings : Settings) (inbound : Inbound) (sub : String)
    (provider : Option String) : Gw Response :=
  if settings.enabled then
    match inbound.body with
    | none => pure (oaiError "invalid JSON body" 400 "invalid_request_error")
    | some body => do
        let named := getItem body "model"
        let model := if named.truthy then named else .null
        let provider ← providerOf model provider
        completeWith settings inbound sub body model provider
  else pure (oaiError "gateway disabled" 503 "disabled")

section Closing

/-- `_on_usage` -/
def onUsage (body : StreamBody) : Option (Int × Int) → Gw Unit
  | none => pure ()
  | some (p, g) => do
      Proc.onlyIf body.counted (call (.record body.agentId p g body.model))
      call (.clientRecord body.client p g)

/-- The `finally` of the generator, where it was left with the bytes `tap`. -/
def finishBody (body : StreamBody) (tap : Tap) : Gw Unit :=
  match tap.finish with
  | .error _ => Proc.raise ()
  | .ok usage => onUsage body usage

/-- The server reads the body. An exception of the generator ends the reading. -/
def readStream (body : StreamBody) : Reading → Gw Unit
  | .finished pieces => Proc.catch_
      (finishBody body (Tap.run {} (pieces.map Piece.bytes)).1) fun _ => pure ()
  | _ => pure ()

/-- `close` of the generator: one that has not started, or that is over, does nothing. -/
def closeBody (body : StreamBody) : Reading → Gw Unit
  | .left pieces => match Tap.run {} (pieces.map Piece.bytes) with
    | (tap, none) => finishBody body tap
    | (_, some _) => pure ()
  | _ => pure ()

/-- `close` of a response: its body is closed, then its callbacks are called. -/
def closeResponse (response : Response) (body : StreamBody) (reading : Reading) : Gw Unit := do
  closeBody body reading
  Proc.forEach runCallback response.onClose

/-- A request from its arrival to the closing of its response, which happens once. -/
def exchange (settings : Settings) (inbound : Inbound) (sub : String) (provider : Option String) :
    Gw Response := do
  let response ← handleCompletion settings inbound sub provider
  match response.body with
  | .stream body => do
      let reading : Reading ← call .readBody
      readStream body reading
      closeResponse response body reading
      pure response
  | _ => do
      Proc.forEach runCallback response.onClose
      pure response

end Closing

end SystemsManager.Gateway
