import SystemsManager.Python.Items

/-!
# The agent registry

The registry document of `backend/agent_registry.py` and the requests by which an agent comes into
it: registration, the status poll and the heartbeat. A request is a function on the document as
`load_agents` gives it, with what comes from outside (the headers, the clock, new ids and tokens) as
an argument; its `Outcome` says what is answered, what the document is afterwards, and whether it is
saved. Records are JSON objects, as in the file.
-/

namespace SystemsManager.Registry

open Python

/-- The fields of a JSON object. -/
abbrev Fields := List (String × Json)

/-- The registry document. -/
structure Document where
  agents : Dict String Fields
  /-- `data["global"]`, where there is one. -/
  global : Option Fields
  /-- The other fields of the document. -/
  rest : Fields

/-- What a request is answered with. -/
inductive Reply where
  | response (code : ℕ) (fields : Fields)
  | raised

/-- A field of what is answered. -/
def Reply.field (key : String) : Reply → Option Json
  | .response _ fields => fields.lookup key
  | .raised => none

/-- The end of a request. -/
structure Outcome where
  reply : Reply
  registry : Document
  saves : Bool

/-- A request that changes nothing. -/
def Document.answer (reg : Document) (code : ℕ) (fields : Fields) : Outcome :=
  ⟨.response code fields, reg, false⟩

/-- A request that is refused. -/
def Document.refuse (reg : Document) (code : ℕ) (error : String) : Outcome :=
  reg.answer code [("ok", .bool false), ("error", .str error)]

/-- `value == text` -/
def isText (value : Json) (text : String) : Bool := value.str? = some text

/-- `value or other` -/
def orElse (value other : Json) : Json := if value.truthy then value else other

section Versions

/-- A number of exactly or at least so many digits, and what follows it. -/
def digits (n : ℕ) (more : Bool) (text : List Char) : Option (ℕ × List Char) :=
  let run := text.takeWhile fun c => (digitValue c).isSome
  let taken := if more then run else run.take n
  if n ≤ taken.length then
    some (taken.foldl (fun acc c => acc * 10 + (digitValue c).getD 0) 0, text.drop taken.length)
  else none

/-- A separator. -/
def expect (c : Char) : List Char → Option (List Char)
  | d :: rest => if c = d then some rest else none
  | [] => none

/-- `_version_key`, of the stripped text. -/
def versionOf (text : List Char) : Option (ℕ × ℕ × ℕ × ℕ) := do
  let text := (expect 'v' text).getD text
  let (year, text) ← digits 4 false text
  let text ← expect '.' text
  let (month, text) ← digits 2 false text
  let text ← expect '.' text
  let (day, text) ← digits 2 false text
  let text ← expect '-' text
  let (build, text) ← digits 1 true text
  if text = [] then some (year, month, day, build) else none

/-- `_version_key`; the text of a value that is no string is never a version. -/
def versionKey : Json → Option (ℕ × ℕ × ℕ × ℕ)
  | .str text => versionOf (stripChars text)
  | _ => none

/-- `FP_REAUTH_FROM_VERSION` -/
def FP_REAUTH_FROM_VERSION : String := "v2026.08.16-1"

/-- `_FP_REAUTH_KEY` -/
def FP_REAUTH_KEY : Option (ℕ × ℕ × ℕ × ℕ) := versionKey (.str FP_REAUTH_FROM_VERSION)

/-- The order of tuples. -/
def keyBefore (a b : ℕ × ℕ × ℕ × ℕ) : Bool :=
  a.1 < b.1 || (a.1 = b.1 && (a.2.1 < b.2.1 || (a.2.1 = b.2.1 &&
    (a.2.2.1 < b.2.2.1 || (a.2.2.1 = b.2.2.1 && a.2.2.2 < b.2.2.2)))))

/-- The version parses to one before `FP_REAUTH_FROM_VERSION`. -/
def oldVersion (version : Json) : Bool :=
  match versionKey version, FP_REAUTH_KEY with
  | some key, some limit => keyBefore key limit
  | _, _ => false

/-- The version that a record names for its fingerprint. -/
def storedVersion (agent : Fields) : Json :=
  if (agent.lookup "fp_version").isSome then getItem agent "fp_version" else getItem agent "version"

/-- `_agent_reauth_factor` -/
def reauthFactor (agent : Fields) (suppliedFp : Json) : Option String :=
  if oldVersion (storedVersion agent) then none
  else
    match orElse (getItem agent "fingerprint") (.str ""), suppliedFp with
    | .str stored, .str supplied =>
        if stored != "" && supplied != "" && supplied = stored then some "fp" else none
    | _, _ => none

end Versions

section Registration

/-- `_REG_PENDING_MAX` -/
def REG_PENDING_MAX : ℕ := 100

/-- `_REG_PENDING_PER_ADDR` -/
def REG_PENDING_PER_ADDR : ℕ := 10

/-- `_REG_STR_FIELDS` -/
def REG_STR_FIELDS : List (String × ℕ) :=
  [("hostname", 253), ("bind_url", 512), ("fingerprint", 256), ("version", 64),
    ("description", 1000), ("agent_user", 128), ("role", 64)]

/-- The problem of a text field. -/
def strProblem (body : Fields) (field : String × ℕ) : Option String :=
  match getItem body field.1 with
  | .null => none
  | .str text =>
      if field.2 < text.length then
        some (field.1 ++ " is too long (max " ++ toString field.2 ++ " characters)")
      else none
  | _ => some (field.1 ++ " must be text")

/-- The problem of the callback URL. -/
def urlProblem (body : Fields) : Option String :=
  let url := ((orElse (getItem body "bind_url") (.str "")).str?).getD ""
  if url != "" && !(url.startsWith "http://" || url.startsWith "https://") then
    some "bind_url must start with http:// or https://"
  else none

/-- The problem of the capabilities. -/
def capabilitiesProblem (body : Fields) : Option String :=
  let fine := match getItem body "capabilities" with
    | .null => true
    | .dict caps => caps.length ≤ 64 && caps.all fun item => item.1.length ≤ 64
    | _ => false
  if fine then none else some "capabilities must be an object of named flags"

/-- The problem of the image generation port. -/
def portProblem (body : Fields) : Option String :=
  let fine := match getItem body "image_gen_port" with
    | .null => true
    | .int port => 1 ≤ port && port ≤ 65535
    | _ => false
  if fine then none else some "image_gen_port must be a whole number from 1 to 65535"

/-- `_validate_registration`: the fields, or the first problem. -/
def validateRegistration : Json → Except String Fields
  | .dict body =>
      match REG_STR_FIELDS.findSome? (strProblem body) <|> urlProblem body <|>
          capabilitiesProblem body <|> portProblem body with
      | some problem => .error problem
      | none => .ok body
  | _ => .error "JSON object required"

/-- What a registration brings beside its body. -/
structure Outside where
  remote : String
  authorization : String
  /-- The body is larger than `_REG_MAX_BODY`. -/
  tooLarge : Bool
  /-- `_reg_rate_limited(remote)` -/
  rateLimited : Bool
  /-- `_registration_gate_problem()` -/
  gateProblem : Option String
  /-- `enrollment_state(data)["open"]` -/
  enrollmentOpen : Bool
  /-- `_remote_is_loopback(remote)` -/
  loopback : Bool
  newId : String
  newToken : String
  nowIso : String

/-- The token of an `Authorization` header. -/
def suppliedToken (authorization : String) : String :=
  if authorization.startsWith "Bearer " then strip
    (String.ofList (authorization.toList.drop 7)) else ""

/-- Whether the token of a record is the one supplied; the comparison raises for a token that is no
ASCII text. -/
def tokenMatches (agent : Fields) (supplied : String) : Except Unit Bool :=
  let stored := orElse (getItem agent "token") (.str "")
  if stored.truthy && supplied != "" then
    match stored with
    | .str stored =>
        if (stored.toList ++ supplied.toList).all fun c =>
          c.toNat < 128 then .ok (supplied = stored)
        else .error ()
    | _ => .error ()
  else .ok false

/-- The records of a host name and an operating system. -/
def Document.matches_ (reg : Document) (hostname os : String) : List (String × Fields) :=
  reg.agents.items.filter fun item =>
    isText (getItem item.2 "hostname") hostname && isText (getItem item.2 "os") os

/-- The first record that the caller authenticates to. -/
def findExisting (supplied : String) (fingerprint : Json) :
    List (String × Fields) → Except Unit (Option (String × Fields))
  | [] => .ok none
  | (aid, agent) :: rest => do
      let tokOk ← tokenMatches agent supplied
      if tokOk || (reauthFactor agent fingerprint).isSome then pure (some (aid, agent))
      else findExisting supplied fingerprint rest

/-- `data["agents"][agent_id] = agent` -/
def Document.setAgent (reg : Document) (agentId : String) (agent : Fields) : Document :=
  { reg with agents := reg.agents.set agentId agent }

/-- `agent[key] = body.get(key, agent.get(key))` -/
def copyField (body : Fields) (key : String) (agent : Fields) : Fields :=
  setItems key (getItemD body key (getItem agent key)) agent

/-- The record of a registration that re-authenticates. -/
def refreshed (o : Outside) (body : Fields) (agent : Fields) : Fields :=
  let fingerprint := getItemD body "fingerprint" (.str "")
  let agent := setItems "bind_url" (getItemD body "bind_url" (.str "")) agent
  let agent := setItems "fingerprint"
    (orElse fingerprint (orElse (getItem agent "fingerprint") (.str ""))) agent
  let agent := copyField body "version" agent
  let agent := if fingerprint.truthy then setItems "fp_version" (getItem agent "version") agent
    else agent
  let agent := copyField body "description" agent
  let agent := copyField body "capabilities" agent
  let agent := copyField body "agent_user" agent
  let agent := copyField body "role" agent
  let agent := copyField body "image_gen_port" agent
  let agent := setItems "registered_from"
    (orElse (.str o.remote) (orElse (getItem agent "registered_from") (.str ""))) agent
  setItems "last_register" (.str o.nowIso) agent

/-- `f"/?tab=admin#agent={agent_id}"` -/
def approvalUrl (agentId : String) : Json := .str ("/?tab=admin#agent=" ++ agentId)

/-- A registration that re-authenticates. -/
def reRegister (o : Outside) (body : Fields) (agentId : String) (agent : Fields) (reg : Document) :
    Outcome :=
  let agent := refreshed o body agent
  let token := getItem agent "token"
  { reply := .response 200 ([("ok", .bool true), ("agent_id", .str agentId),
      ("status", getItemD agent "status" (.str "pending")),
        ("approval_url", approvalUrl agentId)] ++
        if isText (getItem agent "status") "approved" &&
          token.truthy then [("token", token)] else [])
    registry := reg.setAgent agentId agent
    saves := true }

/-- The record of a new agent. -/
def newAgent (o : Outside) (body : Fields) (hostname os : String) : Fields :=
  let approved (value : Json) : Json := if o.loopback then value else .null
  [("agent_id", .str o.newId), ("hostname", .str hostname), ("os", .str os),
    ("role", getItemD body "role" (.str "auto")), ("bind_url", getItemD body "bind_url" (.str "")),
    ("fingerprint", getItemD body "fingerprint" (.str "")),
    ("description", getItemD body "description" (.str "")),
    ("capabilities", getItemD body "capabilities" (.dict [])),
    ("agent_user", getItemD body "agent_user" (.str "")),
    ("version", getItemD body "version" (.str "")),
    ("fp_version", getItemD body "version" (.str "")),
    ("image_gen_port", getItem body "image_gen_port"),
    ("status", .str (if o.loopback then "approved" else "pending")),
    ("token", approved (.str o.newToken)), ("first_seen", .str o.nowIso),
    ("last_register", .str o.nowIso), ("last_heartbeat", .null),
    ("approved_at", approved (.str o.nowIso)), ("approved_by", approved (.str "auto-local")),
    ("registered_from", .str o.remote)]

/-- The record waits for approval. -/
def pending (agent : Fields) : Bool := isText (getItem agent "status") "pending"

/-- The record was registered from the address. -/
def fromAddress (remote : String) (agent : Fields) : Bool :=
  isText (orElse (getItem agent "registered_from") (.str "")) remote

/-- A registration that adds a record. -/
def addAgent (o : Outside) (body : Fields) (hostname os : String) (reg : Document) : Outcome :=
  let agent := newAgent o body hostname os
  { reply := .response 200 ([("ok", .bool true), ("agent_id", .str o.newId),
      ("status", getItem agent "status"), ("approval_url", approvalUrl o.newId)] ++
        if o.loopback then [("token", .str o.newToken)] else [])
    registry := reg.setAgent o.newId agent
    saves := true }

/-- The pending caps. -/
def capReached (remote : String) (reg : Document) : Bool :=
  let waiting := reg.agents.items.filter fun item => pending item.2
  REG_PENDING_MAX ≤ waiting.length ||
    REG_PENDING_PER_ADDR ≤ waiting.countP fun item => fromAddress remote item.2

/-- A registration that does not re-authenticate. -/
def registerNew (o : Outside) (body : Fields) (hostname os : String) (reg : Document) : Outcome :=
  let found := reg.matches_ hostname os
  if o.gateProblem.isSome then
    reg.answer 403 [("ok", .bool false), ("error", .str ("enrollment secret missing or wrong; " ++
      "install the agent with the current secret shown on Admin › Agents")),
      ("code", .str "enrollment_secret")]
  else match found.find? fun item => !pending item.2 with
    | some (agentId, agent) =>
        reg.answer 403 [("ok", .bool false),
          ("error", .str "re-registration requires matching token or fingerprint"),
          ("agent_id", .str agentId), ("status", getItemD agent "status" (.str "pending"))]
    | none => match found.find? fun item => fromAddress o.remote item.2 with
      | some (agentId, _) =>
          reg.answer 200 [("ok", .bool true), ("agent_id", .str agentId),
            ("status", .str "pending"), ("approval_url", approvalUrl agentId)]
      | none =>
          if o.loopback then addAgent o body hostname os reg
          else if !o.enrollmentOpen then
            reg.answer 503 [("ok", .bool false),
              ("error", .str ("enrollment is closed; open it in " ++
              "Admin › Agents (Open enrollment) and the agent registers on its next try")),
              ("retry_after_s", .int 60)]
          else if capReached o.remote reg then
            reg.refuse 429 ("too many registrations are waiting for approval; " ++
              "approve or delete some in Admin › Agents")
          else addAgent o body hostname os reg

/-- `_agents_register`, under the lock. -/
def registerAgent (o : Outside) (body : Fields) (hostname os : String) (reg : Document) : Outcome :=
  match findExisting (suppliedToken o.authorization) (getItemD body "fingerprint" (.str ""))
      (reg.matches_ hostname os) with
  | .error () => ⟨.raised, reg, false⟩
  | .ok (some (agentId, agent)) => reRegister o body agentId agent reg
  | .ok none => registerNew o body hostname os reg

/-- `_agents_register`; `body` is none where the request holds no JSON. -/
def register (o : Outside) (body : Option Json) (reg : Document) : Outcome :=
  if o.tooLarge then reg.refuse 413 "request body too large"
  else if o.rateLimited then
    reg.refuse 429 "too many registrations from this address; try again in a minute"
  else match body with
    | none => reg.refuse 400 "invalid JSON"
    | some value => match validateRegistration (orElse value (.dict [])) with
      | .error problem => reg.refuse 400 problem
      | .ok body =>
          let hostname := strip (((orElse (getItem body "hostname") (.str "")).str?).getD "")
          match orElse (getItem body "os") (.str "") with
          | .str os =>
              let os := strip os
              if hostname = "" || !(os = "linux" || os = "macos") then
                reg.refuse 400 "hostname + valid os required"
              else registerAgent o body hostname os reg
          | _ => ⟨.raised, reg, false⟩

/-- `_agents_get_status` -/
def getStatus (agentId fingerprintHeader : String) (reg : Document) : Reply :=
  let agent := (reg.agents.get? agentId).getD []
  if agent.isEmpty then
    .response 404 [("ok", .bool false), ("error", .str "unknown agent")]
  else
    let token := getItem agent "token"
    .response 200 ([("ok", .bool true), ("status", getItem agent "status")] ++
      if isText (getItem agent "status") "approved" && token.truthy &&
          (reauthFactor agent (.str (strip fingerprintHeader))).isSome then [("token",
            token)] else [])

end Registration

section Registrations

variable {o : Outside} {body : Option Json} {reg : Document}

/-- The host name of a body. -/
def bodyHostname (body : Fields) : String :=
  strip (((orElse (getItem body "hostname") (.str "")).str?).getD "")

/-- The operating system of a body. -/
def bodyOs (body : Fields) : String :=
  strip (((orElse (getItem body "os") (.str "")).str?).getD "")

/-- The ways in which a registration changes the registry. -/
inductive Registered (o : Outside) (body : Option Json) (reg : Document) (outcome : Outcome) :
    Prop where
  | refused (hregistry : outcome.registry = reg) (hsaves : outcome.saves = false)
      (htoken : outcome.reply.field "token" = none)
  | again (fields : Fields) (hostname os agentId : String) (agent : Fields)
      (hbody : body = some (.dict fields))
      (hfound : findExisting (suppliedToken o.authorization)
        (getItemD fields "fingerprint" (.str ""))
        (reg.matches_ hostname os) = .ok (some (agentId, agent)))
      (houtcome : outcome = reRegister o fields agentId agent reg)
      (hhostname : hostname = bodyHostname fields) (hos : os = bodyOs fields)
  | added (fields : Fields) (hostname os : String) (hbody : body = some (.dict fields))
      (hwaiting : ∀ item ∈ reg.matches_ hostname os, pending item.2 = true)
      (hother : ∀ item ∈ reg.matches_ hostname os, fromAddress o.remote item.2 = false)
      (hcap : o.loopback = true ∨ capReached o.remote reg = false)
      (houtcome : outcome = addAgent o fields hostname os reg)
      (hhostname : hostname = bodyHostname fields) (hos : os = bodyOs fields)
      (hnone : findExisting (suppliedToken o.authorization)
        (getItemD fields "fingerprint" (.str ""))
        (reg.matches_ hostname os) = .ok none)

/-- A registration that does not re-authenticate. -/
theorem register_new_cases {fields : Fields} {hostname os : String}
    (hbody : body = some (.dict fields)) (hhostname : hostname = bodyHostname fields)
    (hos : os = bodyOs fields)
    (hnone : findExisting (suppliedToken o.authorization) (getItemD fields "fingerprint" (.str ""))
      (reg.matches_ hostname os) = .ok none) :
    Registered o body reg (registerNew o fields hostname os reg) := by
  unfold registerNew
  dsimp only
  split
  · exact .refused rfl rfl rfl
  split
  · exact .refused rfl rfl rfl
  rename_i hblocking
  split
  · exact .refused rfl rfl rfl
  rename_i hrepeat
  have hwaiting : ∀ item ∈ reg.matches_ hostname os, pending item.2 = true := fun item hitem => by
    simpa using List.find?_eq_none.mp hblocking item hitem
  have hother : ∀ item ∈ reg.matches_ hostname os, fromAddress o.remote item.2 = false :=
    fun item hitem => by simpa using List.find?_eq_none.mp hrepeat item hitem
  split
  · rename_i hloopback
    exact .added fields hostname os hbody hwaiting hother (Or.inl hloopback) rfl hhostname hos hnone
  split
  · exact .refused rfl rfl rfl
  split
  · exact .refused rfl rfl rfl
  rename_i hcap
  exact .added fields hostname os hbody hwaiting hother (Or.inr (by simpa using hcap)) rfl hhostname
    hos hnone

theorem body_of_validated {value : Json} {fields : Fields}
    (hvalid : validateRegistration (orElse value (.dict [])) = .ok fields)
    (hname : strip (((orElse (getItem fields "hostname") (.str "")).str?).getD "") ≠ "") :
    value = .dict fields := by
  have hdict : orElse value (.dict []) = .dict fields := by
    cases hvalue : orElse value (.dict []) with
    | dict body =>
        rw [hvalue] at hvalid
        simp only [validateRegistration] at hvalid
        split at hvalid
        · cases hvalid
        · rw [Except.ok.inj hvalid]
    | null | bool _ | int _ | float _ | str _ | list _ =>
        rw [hvalue] at hvalid
        cases hvalid
  unfold orElse at hdict
  split at hdict
  · exact hdict
  · -- An empty object has no host name.
    cases hdict
    exact absurd (by decide +kernel) hname

theorem register_cases : Registered o body reg (register o body reg) := by
  unfold register
  split
  · exact .refused rfl rfl rfl
  split
  · exact .refused rfl rfl rfl
  cases body with
  | none => exact .refused rfl rfl rfl
  | some value =>
      dsimp only
      split
      · exact .refused rfl rfl rfl
      rename_i fields hvalid
      split
      · rename_i os hos
        have hos : strip os = bodyOs fields := by
          unfold bodyOs
          rw [hos]
          rfl
        split
        · exact .refused rfl rfl rfl
        rename_i hname
        have hnamed : strip (((orElse (getItem fields "hostname") (.str "")).str?).getD "") ≠
          "" := by
          intro heq
          simp [heq] at hname
        obtain rfl := body_of_validated hvalid hnamed
        unfold registerAgent
        split
        · exact .refused rfl rfl rfl
        · rename_i agentId agent hfound
          exact .again fields _ _ agentId agent rfl hfound rfl rfl hos
        · rename_i hnone
          exact register_new_cases rfl rfl hos hnone
      · exact .refused rfl rfl rfl

theorem find_existing_mem {supplied : String} {fingerprint : Json} {items : List (String × Fields)}
    {item : String × Fields} (h : findExisting supplied fingerprint items = .ok (some item)) :
    item ∈ items ∧ (tokenMatches item.2 supplied = .ok true ∨
      (reauthFactor item.2 fingerprint).isSome = true) := by
  induction items with
  | nil => cases h
  | cons first rest ih =>
      obtain ⟨aid, agent⟩ := first
      unfold findExisting at h
      cases htok : tokenMatches agent supplied with
      | error _ =>
          rw [htok] at h
          cases h
      | ok tokOk =>
          rw [htok] at h
          change (if tokOk || (reauthFactor agent fingerprint).isSome then
            pure (some (aid, agent)) else findExisting supplied fingerprint rest) = _ at h
          split at h
          · rename_i hauth
            cases h
            refine ⟨List.mem_cons_self .., ?_⟩
            rcases Bool.or_eq_true_iff.mp hauth with htrue | hfp
            · exact Or.inl (htok.trans (congrArg _ htrue))
            · exact Or.inr hfp
          · exact ⟨List.mem_cons_of_mem _ (ih h).1, (ih h).2⟩

theorem matches_get {hostname os : String} {item : String × Fields}
    (h : item ∈ reg.matches_ hostname os) : reg.agents.get? item.1 = some item.2 :=
  Dict.mem_items_iff.mp (List.mem_filter.mp h).1

end Registrations

section Heartbeats

/-- The entry of the token index: the last approved record with the token. -/
def Document.byToken (reg : Document) (token : String) : Option Fields :=
  (reg.agents.items.reverse.find? fun item =>
    (getItem item.2 "token").truthy && isText (getItem item.2 "status") "approved" &&
      isText (getItem item.2 "token") token).map Prod.snd

/-- What a heartbeat brings beside its body. -/
structure Beat where
  token : String
  nowIso : String
  /-- `last_heartbeat_data`, which the body determines. -/
  data : Json
  /-- The last flush is `_HB_FLUSH_MIN_INTERVAL_S` ago. -/
  flushDue : Bool
  /-- The reported capabilities differ from the stored ones. -/
  capabilitiesChanged : Bool
  /-- The rest of the acknowledgement. -/
  ack : Fields

/-- The version of a heartbeat differs from that of the record. -/
def versionChanged (body live : Fields) : Bool :=
  match getItem body "version" with
  | .str version => version != "" && !isText (getItem live "version") version
  | _ => false

/-- The version of a heartbeat is taken over; `live.setdefault("fp_version", prev_version)` keeps
the version of the stored fingerprint. -/
def takeVersion (body live : Fields) : Fields :=
  if versionChanged body live then
    setItems "version" (getItem body "version")
      (if (live.lookup "fp_version").isSome then live
        else setItems "fp_version" (getItem live "version") live)
  else live

/-- The capabilities of a heartbeat are taken over. -/
def takeCapabilities (beat : Beat) (body live : Fields) : Fields :=
  match getItem body "capabilities" with
  | .dict caps => if beat.capabilitiesChanged then setItems "capabilities"
      (.dict caps) live else live
  | _ => live

/-- The record after a heartbeat. -/
def beaten (beat : Beat) (body live : Fields) : Fields :=
  takeCapabilities beat body (takeVersion body
    (setItems "last_heartbeat_data" beat.data (setItems "last_heartbeat" (.str beat.nowIso) live)))

/-- The heartbeat changes more than times. -/
def material (beat : Beat) (body live : Fields) : Bool :=
  versionChanged body live || match getItem body "capabilities" with
    | .dict _ => beat.capabilitiesChanged
    | _ => false

/-- `_agents_heartbeat`; a body that is no JSON counts as an empty object. -/
def heartbeat (beat : Beat) (body : Json) (reg : Document) : Outcome :=
  match if beat.token = "" then none else reg.byToken beat.token with
  | none => reg.refuse 401 "invalid token or not approved"
  | some agent => match getItem agent "agent_id" with
    | .str agentId =>
        let live := (reg.agents.get? agentId).getD []
        match orElse body (.dict []) with
        | .dict body =>
            if live.isEmpty then reg.answer 200 beat.ack
            else
              ⟨.response 200 beat.ack, reg.setAgent agentId (beaten beat body live),
                material beat body live || beat.flushDue⟩
        | _ =>
            -- The time is set before the body is looked at.
            if live.isEmpty then ⟨.raised, reg, false⟩
            else
              ⟨.raised,
                reg.setAgent agentId (setItems "last_heartbeat" (.str beat.nowIso) live), false⟩
    | _ => ⟨.raised, reg, false⟩

/-- The ways in which a heartbeat changes the registry. -/
inductive Beaten (beat : Beat) (reg : Document) (outcome : Outcome) : Prop where
  | refused (hregistry : outcome.registry = reg) (hsaves : outcome.saves = false)
  | taken (agentId : String) (body live : Fields) (hlive : reg.agents.get? agentId = some live)
      (hregistry : outcome.registry = reg.setAgent agentId (beaten beat body live))
  | halfway (agentId : String) (live : Fields) (hlive : reg.agents.get? agentId = some live)
      (hregistry : outcome.registry =
        reg.setAgent agentId (setItems "last_heartbeat" (.str beat.nowIso) live))
      (hsaves : outcome.saves = false)

/-- A record that is not empty is there. -/
theorem get_of_live {reg : Document} {agentId : String}
    (h : ¬((reg.agents.get? agentId).getD []).isEmpty = true) :
    reg.agents.get? agentId = some ((reg.agents.get? agentId).getD []) := by
  cases hget : reg.agents.get? agentId with
  | none =>
      rw [hget] at h
      exact absurd rfl h
  | some live => rfl

theorem heartbeat_cases {beat : Beat} {body : Json} {reg : Document} :
    Beaten beat reg (heartbeat beat body reg) := by
  unfold heartbeat
  split
  · exact .refused rfl rfl
  split
  · dsimp only
    split
    · split
      · exact .refused rfl rfl
      · rename_i hlive
        exact .taken _ _ _ (get_of_live hlive) rfl
    · split
      · exact .refused rfl rfl
      · rename_i hlive
        exact .halfway _ _ (get_of_live hlive) rfl rfl
  · exact .refused rfl rfl

end Heartbeats

end SystemsManager.Registry
