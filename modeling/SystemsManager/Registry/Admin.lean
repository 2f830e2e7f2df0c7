import SystemsManager.Registry.Agents

/-!
# Requests of an administrator

What an administrator does to the registry: approve, disable and delete an agent, choose the primary
agent of a provider and the host agent, change a pool, open and close the enrollment; and the sweep
that removes registrations nobody approved. Each is a function on the document, as the requests of
the agents are, taken after the admin gate. `Call.outcome` puts all of them together.
-/

namespace SystemsManager.Registry

open Python

section Providers

/-- What the registry reads of a provider. -/
structure Provider where
  name : String
  capabilityKey : String
  /-- `default_picker == "pool"` -/
  picksFromPool : Bool
  pinDictKey : Option String

/-- `providers.PROVIDERS` -/
def PROVIDERS : List Provider :=
  [⟨"llama", "llama", true, some "llama_model_pins"⟩, ⟨"lms", "lms", true, some "lms_model_pins"⟩,
    ⟨"vllm", "vllm", true, some "vllm_model_pins"⟩]

/-- `f"default_{name}_id"` -/
def defaultKey (name : String) : String := "default_" ++ name ++ "_id"

/-- `f"primary_{name}_id"` -/
def primaryKey (name : String) : String := "primary_" ++ name ++ "_id"

/-- `f"{name}_pool"` -/
def poolKey (name : String) : String := name ++ "_pool"

/-- `_set_provider_default` -/
def setProviderDefault (kind agentId : String) (glob : Fields) : Fields :=
  setItems (primaryKey kind) (.str agentId) (setItems (defaultKey kind) (.str agentId) glob)

end Providers

section Reconcile

variable (reg : Document)

/-- The id names an agent that is not there. -/
def Document.dangling (aid : Json) : Bool :=
  match aid with
  | .str aid => aid != "" && !(reg.agents.get? aid).isSome
  | _ => false

/-- A reference to an agent that is not there is emptied. -/
def Document.clearDangling (key : String) (glob : Fields) : Fields :=
  if reg.dangling (getItem glob key) then setItems key (.str "") glob else glob

/-- The pins of a provider on agents that are not there are dropped. -/
def Document.dropPins (pinKey : String) (glob : Fields) : Fields :=
  match getItem glob pinKey with
  | .dict pins => setItems pinKey (.dict (pins.filter fun pin => !reg.dangling pin.2)) glob
  | _ => glob

/-- The references of a provider. -/
def Document.reconcileProvider (provider : Provider) (glob : Fields) : Fields :=
  let glob := reg.clearDangling (primaryKey provider.name) glob
  let glob := reg.clearDangling (defaultKey provider.name) glob
  match provider.pinDictKey with
  | some pinKey => reg.dropPins pinKey glob
  | none => glob

/-- The pool of a provider keeps the agents that are there. -/
def Document.reconcilePool (provider : Provider) (glob : Fields) : Fields :=
  match getItem glob (poolKey provider.name) with
  | .list pool =>
      let kept := pool.filter fun aid => match aid with
        | .str aid => (reg.agents.get? aid).isSome
        | _ => false
      if kept.length != pool.length then setItems (poolKey provider.name)
        (.list kept) glob else glob
  | _ => glob

/-- A placement on an agent that is not there becomes automatic. -/
def Document.reconcileEntry : Json → Json
  | .dict entry =>
      let placement := getItem entry "placement"
      if !isText placement "auto" && reg.dangling placement then
        .dict (setItems "placement" (.str "auto") entry)
      else .dict entry
  | other => other

/-- The placements of the autopilot. -/
def Document.reconcileAutopilot (glob : Fields) : Fields :=
  match getItem glob "autopilot" with
  | .dict autopilot => match getItem autopilot "entries" with
      | .list entries => setItems "autopilot"
          (.dict (setItems "entries" (.list (entries.map reg.reconcileEntry)) autopilot)) glob
      | _ => glob
  | _ => glob

/-- `_reconcile_agent_refs` -/
def Document.reconcile : Document :=
  match reg.global with
  | none => reg
  | some glob =>
      let glob := PROVIDERS.foldl (fun glob provider => reg.reconcileProvider provider glob) glob
      let glob := (PROVIDERS.filter (·.picksFromPool)).foldl
        (fun glob provider => reg.reconcilePool provider glob) glob
      let glob := if reg.dangling (getItem glob "host_agent_id") then
        glob.filter fun item => item.1 != "host_agent_id" else glob
      { reg with global := some (reg.reconcileAutopilot glob) }

end Reconcile

section Approval

/-- What an approval brings beside the id. -/
structure Approval where
  newToken : String
  nowIso : String
  /-- `flask_request.remote_addr` -/
  remote : Json

/-- The record of an agent that is approved. -/
def approved (approval : Approval) (agent : Fields) : Fields :=
  let agent := if (getItem agent "token").truthy then agent
    else setItems "token" (.str approval.newToken) agent
  setItems "approved_by" approval.remote (setItems "approved_at" (.str approval.nowIso)
    (setItems "status" (.str "approved") agent))

/-- The approved agent becomes the primary of a provider that has none. -/
def promotes (caps glob : Fields) (provider : Provider) : Bool :=
  (getItem caps provider.capabilityKey).truthy &&
    !((getItem glob (defaultKey provider.name)).truthy ||
      (getItem glob (primaryKey provider.name)).truthy) &&
    !(provider.picksFromPool && (getItem glob (poolKey provider.name)).truthy)

/-- The loop over the providers: the global fields, and the providers that got a primary. -/
def promote (caps : Fields) (agentId : String) : List Provider → Fields → Fields × List String
  | [], glob => (glob, [])
  | provider :: rest, glob =>
      if promotes caps glob provider then
        let (glob, names) :=
        promote caps agentId rest (setProviderDefault provider.name agentId glob)
        (glob, provider.name :: names)
      else promote caps agentId rest glob

/-- `_agents_approve` -/
def approve (approval : Approval) (agentId : String) (reg : Document) : Outcome :=
  let agent := (reg.agents.get? agentId).getD []
  if agent.isEmpty then reg.refuse 404 "unknown agent"
  else
    let reg := reg.setAgent agentId (approved approval agent)
    let glob := reg.global.getD []
    match orElse (getItem agent "capabilities") (.dict []) with
    | .dict caps =>
        let (glob, names) := promote caps agentId PROVIDERS glob
        { reply := .response 200 [("ok", .bool true), ("status", .str "approved"),
            ("auto_primary", .list (names.map .str))]
          registry := { reg with global := some glob }
          saves := true }
    | _ => ⟨.raised, { reg with global := some glob }, false⟩

/-- `_agents_disable` -/
def disable (agentId : String) (reg : Document) : Outcome :=
  let agent := (reg.agents.get? agentId).getD []
  if agent.isEmpty then reg.refuse 404 "unknown agent"
  else
    { reply := .response 200 [("ok", .bool true), ("status", .str "disabled")]
      registry := reg.setAgent agentId (setItems "status" (.str "disabled") agent)
      saves := true }

/-- `_agents_delete` -/
def delete (agentId : String) (reg : Document) : Outcome :=
  if (reg.agents.get? agentId).isSome then
    { reply := .response 200 [("ok", .bool true)]
      registry := Document.reconcile { reg with agents := reg.agents.erase agentId }
      saves := true }
  else reg.answer 200 [("ok", .bool true)]

end Approval

section Choices

/-- `_agents_set_primary` -/
def setPrimary (agentId : String) (body : Json) (reg : Document) : Outcome :=
  match orElse body (.dict []) with
  | .dict body => match (PROVIDERS.map Provider.name).find? fun name =>
        isText (getItem body "kind") name with
      | none => reg.refuse 400 ("kind must be one of " ++
          ", ".intercalate (PROVIDERS.map fun provider => "'" ++ provider.name ++ "'"))
      | some kind =>
          let setFlag := (getItemD body "set" (.bool true)).truthy
          let agent := (reg.agents.get? agentId).getD []
          let written (aid : String) : Outcome :=
            let glob := setProviderDefault kind aid (reg.global.getD [])
            { reply := .response 200 [("ok", .bool true),
                ("primary", orElse (getItem glob (primaryKey kind)) .null)]
              registry := { reg with global := some glob }
              saves := true }
          if agent.isEmpty then reg.refuse 404 "unknown agent"
          else if !setFlag then written ""
          else if !isText (getItem agent "status") "approved" then reg.refuse 400
            "agent not approved"
          else match orElse (getItemD agent "capabilities" (.dict [])) (.dict []) with
            | .dict caps =>
                if (getItem caps kind).truthy then written agentId
                else reg.refuse 400 ("agent does not advertise " ++ kind ++ " capability")
            | _ => ⟨.raised, reg, false⟩
  | _ => ⟨.raised, reg, false⟩

/-- `_agents_set_host`; `data.setdefault("global", {})` comes before the checks. -/
def setHost (agentId : String) (body : Json) (reg : Document) : Outcome :=
  match orElse body (.dict []) with
  | .dict body =>
      let glob := reg.global.getD []
      let reg := { reg with global := some glob }
      let written (glob : Fields) : Outcome :=
        { reply := .response 200 [("ok", .bool true),
            ("host_agent_id", orElse (getItem glob "host_agent_id") .null)]
          registry := { reg with global := some glob }
          saves := true }
      if (getItemD body "set" (.bool true)).truthy then
        let agent := (reg.agents.get? agentId).getD []
        if agent.isEmpty then reg.refuse 404 "unknown agent"
        else if !isText (getItem agent "status") "approved" then reg.refuse 400 "agent not approved"
        else written (setItems "host_agent_id" (.str agentId) glob)
      else if isText (getItem glob "host_agent_id") agentId then
        written (glob.filter fun item => item.1 != "host_agent_id")
      else written glob
  | _ => ⟨.raised, reg, false⟩

/-- `list(value)` of a JSON value, where it has one. -/
def listOf : Json → Option (List Json)
  | .list values => some values
  | .str text => some (text.toList.map fun c => .str c.toString)
  | .dict items => some (items.map fun item => .str item.1)
  | _ => none

/-- `position`, where it is one of the places in the pool. -/
def placeIn (pool : List Json) : Json → Option ℕ
  | .int n => if 0 ≤ n ∧ n ≤ pool.length then some n.toNat else none
  | .bool b => if b.toNat ≤ pool.length then some b.toNat else none
  | _ => none

/-- The pool with the agent removed, and put in again where it shall be in. -/
def pooled (agentId : String) (inPool : Bool) (position : Json) (pool : List Json) : List Json :=
  let pool := pool.eraseP fun aid => isText aid agentId
  if !inPool then pool
  else match placeIn pool position with
    | some place => pool.insertIdx place (.str agentId)
    | none => pool ++ [.str agentId]

/-- The error of an agent that shall be in a pool. -/
def poolProblem (agent : Fields) (capability : String) : Except Unit (Option (ℕ × String)) :=
  if agent.isEmpty then .ok (some (404, "unknown agent"))
  else match orElse (getItemD agent "capabilities" (.dict [])) (.dict []) with
    | .dict caps =>
        if !(getItem caps capability).truthy then
          .ok (some (400, "agent does not advertise " ++ capability ++ " capability"))
        else if !isText (getItem agent "status") "approved" then .ok
          (some (400, "agent not approved"))
        else .ok none
    | _ => .error ()

/-- The capability key of a provider. -/
def capabilityOf (provider : String) : String :=
  ((PROVIDERS.find? fun p => p.name = provider).map Provider.capabilityKey).getD provider

/-- `set_pool_membership`, with the reply of `_agents_set_pool`. -/
def setPoolMembership (agentId provider : String) (inPool : Bool) (position : Json)
    (reg : Document) : Outcome :=
  let agent := (reg.agents.get? agentId).getD []
  match if inPool then poolProblem agent (capabilityOf provider) else .ok none with
  | .error () => ⟨.raised, reg, false⟩
  | .ok (some (code, problem)) => reg.refuse code problem
  | .ok none =>
      let glob := reg.global.getD []
      match listOf (orElse (getItem glob (poolKey provider)) (.list [])) with
      | none => ⟨.raised, { reg with global := some glob }, false⟩
      | some pool =>
          let pool := pooled agentId inPool position pool
          { reply := .response 200 [("ok", .bool true), (poolKey provider, .list pool)]
            registry := { reg with global := some (setItems (poolKey provider) (.list pool) glob) }
            saves := true }

/-- `_agents_set_pool` -/
def setPool (agentId provider : String) (body : Json) (reg : Document) : Outcome :=
  match orElse body (.dict []) with
  | .dict body => setPoolMembership agentId provider (getItemD body "in_pool" (.bool true)).truthy
      (getItem body "position") reg
  | _ => ⟨.raised, reg, false⟩

/-- What the settings and the clock give to an enrollment request. -/
structure Window where
  mode : String
  nowIso : String
  /-- The end of the window that is opened or extended. -/
  until_ : String
  /-- `enrollment_state` after the save. -/
  state : Json

/-- The record of a window that is closed or opened. -/
def windowRecord (w : Window) (close : Bool) : Json :=
  if close then
    .dict [("state", .str "closed"), ("until", .null), ("mode", .str w.mode),
      ("set_at", .str w.nowIso)]
  else
    .dict [("state", .str "open"), ("mode", .str w.mode), ("set_at", .str w.nowIso),
      ("until", .str w.until_)]

/-- `_agents_enrollment` -/
def enrollment (w : Window) (body : Json) (reg : Document) : Outcome :=
  match orElse body (.dict []) with
  | .dict body =>
      let close := isText (getItem body "action") "close"
      if close || isText (getItem body "action") "open" then
        { reply := .response 200 [("ok", .bool true), ("enrollment", w.state)]
          registry := { reg with
            global := some (setItems "enrollment" (windowRecord w close) (reg.global.getD [])) }
          saves := true }
      else reg.refuse 400 "action must be open or close"
  | _ => ⟨.raised, reg, false⟩

end Choices

section Sweep

/-- The value that a sweep reads as the time of the last registration. -/
def lastRegister (agent : Fields) : Json :=
  orElse (getItem agent "last_register") (orElse (getItem agent "first_seen") (.str ""))

/-- `sweep_expired_pending`; `expired` holds of the times that are more than the time limit ago, and
its count stands for the reply. -/
def sweepExpiredPending (expired : Json → Bool) (reg : Document) : Outcome :=
  let removed (agent : Fields) : Bool := pending agent && expired (lastRegister agent)
  let count := reg.agents.items.countP fun item => removed item.2
  { reply := .response 200 [("removed", .int count)]
    registry := { reg with agents := reg.agents.filter fun _ agent => !removed agent }
    saves := 0 < count }

end Sweep

/-- A request to the registry. -/
inductive Call where
  | register (o : Outside) (body : Option Json)
  | heartbeat (beat : Beat) (body : Json)
  | approve (approval : Approval) (agentId : String)
  | disable (agentId : String)
  | delete (agentId : String)
  | setPrimary (agentId : String) (body : Json)
  | setHost (agentId : String) (body : Json)
  | setPool (agentId provider : String) (body : Json)
  | enrollment (w : Window) (body : Json)
  | sweep (expired : Json → Bool)

/-- The end of a request. -/
def Call.outcome (reg : Document) : Call → Outcome
  | .register o body => Registry.register o body reg
  | .heartbeat beat body => Registry.heartbeat beat body reg
  | .approve approval agentId => Registry.approve approval agentId reg
  | .disable agentId => Registry.disable agentId reg
  | .delete agentId => Registry.delete agentId reg
  | .setPrimary agentId body => Registry.setPrimary agentId body reg
  | .setHost agentId body => Registry.setHost agentId body reg
  | .setPool agentId provider body => Registry.setPool agentId provider body reg
  | .enrollment w body => Registry.enrollment w body reg
  | .sweep expired => sweepExpiredPending expired reg

end SystemsManager.Registry
