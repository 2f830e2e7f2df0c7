import SystemsManager.Registry.PendingLimits

/-!
# Requests whose save fails

`load_agents` answers with the cached document, and a request changes that document before it saves
it, so a request whose save fails leaves its changes in the cache. `failedRequest` is such a
request: the exception of the save takes it away, with the cache as the request has left it and the
token index as it was. Read `failed_save_unnoticed`: nobody notices the request exactly when the
file is missing, so that it worked on a document of its own, or when all that it writes is there
already.
-/

namespace SystemsManager.Registry

open Python

section Loading

/-- An entry of the token index: the record of the cached document that has the id, or a record that
the document does not hold any more. -/
inductive Indexed where
  | record (agentId : String)
  | detached (agent : Fields)

/-- The registry file, the cache and the token index. -/
structure Process where
  /-- The document in the file and its modification time; nothing where the file is missing. -/
  file : Option (Document × ℕ)
  cached : Option Document
  mtime : ℕ
  byToken : Dict String Indexed

/-- The document that a missing file stands for. -/
def Document.missing : Document :=
  ⟨∅, some [("auth_disabled", .bool false)], [("schema_version", .int 2)]⟩

/-- The primary of a provider becomes its default where it has none. -/
def migrateProvider (glob : Fields) (provider : Provider) : Fields :=
  if (getItem glob (primaryKey provider.name)).truthy &&
      !(getItem glob (defaultKey provider.name)).truthy then
    setItems (defaultKey provider.name) (getItem glob (primaryKey provider.name)) glob
  else glob

/-- `_migrate_agents_schema` -/
def Document.migrate (reg : Document) : Document where
  agents := reg.agents
  global := some (PROVIDERS.foldl migrateProvider (reg.global.getD []))
  rest := match getItem reg.rest "schema_version" with
    | .int 2 => reg.rest
    | _ => setItems "schema_version" (.int 2) reg.rest

/-- The token index of a document: the approved records that have a token. -/
def tokenIndex (reg : Document) : Dict String Indexed :=
  reg.agents.items.foldl (fun index item => match getItem item.2 "token" with
    | .str token =>
        if token != "" && isText (getItem item.2 "status") "approved" then
          index.set token (.record item.1)
        else index
    | _ => index) ∅

/-- `load_agents`. A document that is parsed anew is migrated and reconciled; whether it can then be
saved changes neither the answer nor the cache. -/
def Process.load (s : Process) : Document × Process :=
  match s.file, s.cached with
  | none, _ => (.missing, s)
  | some (content, mtime), some doc =>
      if mtime = s.mtime then (doc, s)
      else
        let doc := content.migrate.reconcile
        (doc, { s with cached := some doc, mtime := mtime, byToken := tokenIndex doc })
  | some (content, mtime), none =>
      let doc := content.migrate.reconcile
      (doc, { s with cached := some doc, mtime := mtime, byToken := tokenIndex doc })

/-- The record of an entry of the index. -/
def Process.indexed (s : Process) : Indexed → Option Fields
  | .record agentId => s.cached.bind fun doc => doc.agents.get? agentId
  | .detached agent => some agent

/-- `agent_by_token` -/
def Process.agentByToken (token : String) (s : Process) : Option Fields :=
  if token = "" then none
  else ((s.load.2).byToken.get? token).bind (s.load.2).indexed

/-- An entry of the index after records were taken out of the document. -/
def Indexed.detach (before after : Document) : Indexed → Indexed
  | .record agentId => match after.agents.get? agentId with
      | some _ => .record agentId
      | none => match before.agents.get? agentId with
          | some agent => .detached agent
          | none => .record agentId
  | .detached agent => .detached agent

/-- A request that gets to its save, where the save raises before the file is renamed. -/
def failedRequest (call : Call) (s : Process) : Process :=
  let (doc, s) := s.load
  match s.file with
  | none => s
  | some _ =>
      let after := (call.outcome doc).registry
      { s with
        cached := some after
        byToken := s.byToken.mapItems fun _ entry => entry.detach doc after }

/-- `load_agents` and `agent_by_token` answer as they did before the request. -/
def Unnoticed (call : Call) (s : Process) : Prop :=
  (failedRequest call s).load.1 = s.load.1 ∧
    ∀ token, (failedRequest call s).agentByToken token = s.agentByToken token

theorem load_synced {s : Process} {content : Document} {mtime : ℕ}
    (hfile : s.file = some (content, mtime)) :
    s.load.2.file = s.file ∧ s.load.2.cached = some s.load.1 ∧ s.load.2.mtime = mtime := by
  unfold Process.load
  rw [hfile]
  cases hcached : s.cached with
  | none => exact ⟨rfl, rfl, rfl⟩
  | some doc =>
      dsimp only
      split
      · rename_i hsame
        exact ⟨hfile, hcached, hsame.symm⟩
      · exact ⟨rfl, rfl, rfl⟩

theorem load_again {s : Process} {content doc : Document} {mtime : ℕ}
    (hfile : s.file = some (content, mtime)) (hcached : s.cached = some doc)
    (hmtime : s.mtime = mtime) : s.load = (doc, s) := by
  unfold Process.load
  rw [hfile, hcached]
  dsimp only
  rw [if_pos hmtime.symm]

theorem unnoticed_missing {s : Process} {call : Call} (h : s.file = none) : Unnoticed call s := by
  have hload : s.load = (.missing, s) := by
    unfold Process.load
    rw [h]
  have hsame : failedRequest call s = s := by
    unfold failedRequest
    rw [hload]
    dsimp only
    rw [h]
  rw [Unnoticed, hsame]
  exact ⟨rfl, fun _ => rfl⟩

/-- With a file that is there, a failed save goes unnoticed exactly when the request has left the
document as it was. -/
theorem unnoticed_iff_same {s : Process} {call : Call} (h : s.file ≠ none) :
    Unnoticed call s ↔ (call.outcome s.load.1).registry = s.load.1 := by
  obtain ⟨⟨content, mtime⟩, hfile⟩ := Option.ne_none_iff_exists'.mp h
  obtain ⟨hsynced, hcached, hmtime⟩ := load_synced hfile
  have hfailed : failedRequest call s = { s.load.2 with
      cached := some (call.outcome s.load.1).registry
      byToken := s.load.2.byToken.mapItems fun _ entry =>
        entry.detach s.load.1 (call.outcome s.load.1).registry } := by
    unfold failedRequest
    dsimp only
    rw [hsynced, hfile]
  have hafter : (failedRequest call s).load =
      ((call.outcome s.load.1).registry, failedRequest call s) := by
    rw [hfailed]
    exact load_again (hsynced.trans hfile) rfl hmtime
  constructor
  · intro hunnoticed
    have hload := hunnoticed.1
    rw [hafter] at hload
    exact hload
  · intro hsame
    refine ⟨?_, fun token => ?_⟩
    · rw [hafter]
      exact hsame
    · unfold Process.agentByToken
      rw [hafter]
      dsimp only
      have hdetach : ∀ entry : Indexed, entry.detach s.load.1 (call.outcome s.load.1).registry =
          entry := by
        intro entry
        cases entry with
        | detached agent => rfl
        | record agentId =>
            unfold Indexed.detach
            rw [hsame]
            dsimp only
            split
            · rfl
            · rfl
      have hindex : (failedRequest call s).byToken.get? token = s.load.2.byToken.get? token := by
        rw [hfailed]
        dsimp only
        rw [Dict.get?_map_items]
        cases s.load.2.byToken.get? token with
        | none => rfl
        | some entry => exact congrArg some (hdetach entry)
      have hrecord : (failedRequest call s).indexed = s.load.2.indexed := by
        funext entry
        rw [hfailed]
        cases entry with
        | detached agent => rfl
        | record agentId =>
            unfold Process.indexed
            dsimp only
            rw [hcached, hsame]
      rw [hindex, hrecord]

end Loading

section Writes

/-- What a registration that re-authenticates writes to its record. -/
def registrationItems (o : Outside) (body agent : Fields) : List (String × Json) :=
  let fingerprint := getItemD body "fingerprint" (.str "")
  let copied (key : String) : String × Json := (key, getItemD body key (getItem agent key))
  [("bind_url", getItemD body "bind_url" (.str "")),
    ("fingerprint", orElse fingerprint (orElse (getItem agent "fingerprint") (.str ""))),
    copied "version"] ++
  (if fingerprint.truthy then [("fp_version", getItemD body "version" (getItem agent "version"))]
    else []) ++
  [copied "description", copied "capabilities", copied "agent_user", copied "role",
    copied "image_gen_port",
    ("registered_from", orElse (.str o.remote)
      (orElse (getItem agent "registered_from") (.str ""))),
    ("last_register", .str o.nowIso)]

/-- What an approval writes to its record. -/
def approvalItems (approval : Approval) (agent : Fields) : List (String × Json) :=
  [("token", orElse (getItem agent "token") (.str approval.newToken)), ("status", .str "approved"),
    ("approved_at", .str approval.nowIso), ("approved_by", approval.remote)]

/-- All that a request writes is there already: a registration re-authenticates to a record that
holds what it writes, an approved agent is approved as of now and becomes no primary, a disabled one
is disabled, the primary agents, the host agent, the pool and the enrollment window are what they
are set to. A record that is added or deleted was not there, or is. -/
def NothingNew (reg : Document) : Call → Prop
  | .register o body => ∃ fields agentId agent, body = some (.dict fields) ∧
      findExisting (suppliedToken o.authorization) (getItemD fields "fingerprint" (.str ""))
        (reg.matches_ (bodyHostname fields) (bodyOs fields)) = .ok (some (agentId, agent)) ∧
      ∀ item ∈ registrationItems o fields agent, agent.lookup item.1 = some item.2
  | .approve approval agentId => ∃ agent caps glob, reg.agents.get? agentId = some agent ∧
      (∀ item ∈ approvalItems approval agent, agent.lookup item.1 = some item.2) ∧
      orElse (getItem agent "capabilities") (.dict []) = .dict caps ∧ reg.global = some glob ∧
      ∀ provider ∈ PROVIDERS, promotes caps glob provider = false
  | .disable agentId => ∃ agent, reg.agents.get? agentId = some agent ∧
      agent.lookup "status" = some (.str "disabled")
  | .delete _ => False
  | .setPrimary agentId body => ∃ fields kind glob, orElse body (.dict []) = .dict fields ∧
      ((PROVIDERS.map Provider.name).find? fun name => isText (getItem fields "kind") name) =
        some kind ∧ reg.global = some glob ∧
      ∀ key ∈ [defaultKey kind, primaryKey kind], glob.lookup key =
        some (.str (if (getItemD fields "set" (.bool true)).truthy then agentId else ""))
  | .setHost agentId body => ∃ fields glob, orElse body (.dict []) = .dict fields ∧
      reg.global = some glob ∧
      if (getItemD fields "set" (.bool true)).truthy then
        glob.lookup "host_agent_id" = some (.str agentId)
      else isText (getItem glob "host_agent_id") agentId = false
  | .setPool agentId provider body => ∃ fields glob pool, orElse body (.dict []) = .dict fields ∧
      reg.global = some glob ∧ glob.lookup (poolKey provider) = some (.list pool) ∧
      pooled agentId (getItemD fields "in_pool" (.bool true)).truthy
      (getItem fields "position") pool =
        pool
  | .enrollment w body => ∃ fields glob, orElse body (.dict []) = .dict fields ∧
      reg.global = some glob ∧
      glob.lookup "enrollment" = some (windowRecord w (isText (getItem fields "action") "close"))
  | .heartbeat .. => False
  | .sweep _ => False

/-- A heartbeat and a sweep are no requests of that kind. -/
def Call.isRequest : Call → Bool
  | .heartbeat .. => false
  | .sweep _ => false
  | _ => true

/-- The ids that the routes and the id generator give: an id in a path is not empty, and a new id is
none that is there. -/
def Routed (reg : Document) : Call → Prop
  | .register o _ => reg.agents.get? o.newId = none
  | .approve _ agentId => agentId ≠ ""
  | _ => True

variable {reg : Document} {agent : Fields} {agentId : String} {o : Outside} {body : Fields}

theorem set_agent_eq_iff : reg.setAgent agentId agent = reg ↔
    reg.agents.get? agentId = some agent := by
  rw [← Dict.set_eq_iff]
  constructor
  · exact fun h => congrArg Document.agents h
  · intro h
    unfold Document.setAgent
    rw [h]

/-- Writing the global fields changes nothing exactly when they are there and it changes nothing of
them. -/
theorem write_global_eq_iff {f : Fields → Fields} :
    { reg with global := some (f (reg.global.getD [])) } = reg ↔
      ∃ glob, reg.global = some glob ∧ f glob = glob := by
  obtain ⟨agents, global, rest⟩ := reg
  cases global with
  | none => simp
  | some glob => simp

theorem refreshed_write_all :
    refreshed o body agent = writeAll (registrationItems o body agent) agent := by
  unfold refreshed registrationItems copyField
  dsimp only
  split <;> simp [writeAll, get_item_set]

/-- The keys are different. -/
theorem registration_keys_nodup : ((registrationItems o body agent).map Prod.fst).Nodup := by
  unfold registrationItems
  dsimp only
  split <;> simp

theorem approved_write_all {approval : Approval} :
    approved approval agent = writeAll (approvalItems approval agent) agent := by
  unfold approved approvalItems orElse
  dsimp only
  split
  · rename_i htoken
    have hthere : agent.lookup "token" = some (getItem agent "token") := by
      unfold getItem at htoken ⊢
      cases hlookup : agent.lookup "token" with
      | none =>
          rw [hlookup] at htoken
          cases htoken
      | some token => rfl
    show _ = setItems "approved_by" _ (setItems "approved_at" _ (setItems "status" _
      (setItems "token" _ agent)))
    rw [set_items_of_lookup hthere]
  · rfl

theorem register_same_iff {body : Option Json} (hnew : reg.agents.get? o.newId = none)
    (hsaves : (register o body reg).saves = true) :
    (register o body reg).registry = reg ↔ NothingNew reg (.register o body) := by
  cases @register_cases o body reg with
  | refused _ hrefused _ =>
      rw [hrefused] at hsaves
      cases hsaves
  | again fields hostname os agentId agent hbody hfound houtcome hhostname hos =>
      subst hhostname hos
      have hget : reg.agents.get? agentId = some agent := matches_get (find_existing_mem hfound).1
      have hsame : (register o body reg).registry = reg ↔
          ∀ item ∈ registrationItems o fields agent, agent.lookup item.1 = some item.2 := by
        rw [houtcome, ← write_all_eq_iff registration_keys_nodup, ← refreshed_write_all]
        show reg.setAgent agentId (refreshed o fields agent) = reg ↔ _
        rw [set_agent_eq_iff, hget]
        exact ⟨fun heq => (Option.some.inj heq).symm, fun heq => congrArg some heq.symm⟩
      rw [hsame]
      constructor
      · exact fun hthere => ⟨fields, agentId, agent, hbody, hfound, hthere⟩
      · rintro ⟨fields', agentId', agent', hbody', hfound', hthere⟩
        obtain rfl : fields = fields' := Json.dict.inj (Option.some.inj (hbody.symm.trans hbody'))
        rw [hfound] at hfound'
        cases hfound'
        exact hthere
  | added fields hostname os hbody _ _ _ houtcome hhostname hos hnone =>
      subst hhostname hos
      constructor
      · intro hsame
        rw [houtcome] at hsame
        have hthere := set_agent_eq_iff.mp hsame
        rw [hnew] at hthere
        cases hthere
      · rintro ⟨fields', agentId', agent', hbody', hfound', -⟩
        obtain rfl : fields = fields' := Json.dict.inj (Option.some.inj (hbody.symm.trans hbody'))
        rw [hnone] at hfound'
        cases hfound'

theorem disable_same_iff (hsaves : (disable agentId reg).saves = true) :
    (disable agentId reg).registry = reg ↔ NothingNew reg (.disable agentId) := by
  unfold disable at hsaves ⊢
  dsimp only at hsaves ⊢
  split at hsaves
  · cases hsaves
  · rename_i hlive
    rw [if_neg hlive]
    have hget := get_of_live hlive
    generalize (reg.agents.get? agentId).getD [] = agent at hget
    show reg.setAgent agentId (setItems "status" (.str "disabled") agent) = reg ↔
      ∃ agent, reg.agents.get? agentId = some agent ∧ agent.lookup "status" = some (.str "disabled")
    rw [set_agent_eq_iff, hget]
    constructor
    · exact fun hsame => ⟨agent, rfl, set_items_eq_iff.mp (Option.some.inj hsame).symm⟩
    · rintro ⟨agent', hsame, hthere⟩
      obtain rfl := Option.some.inj hsame
      exact congrArg some (set_items_of_lookup hthere).symm

theorem delete_same_iff (hsaves : (delete agentId reg).saves = true) :
    (delete agentId reg).registry = reg ↔ NothingNew reg (.delete agentId) := by
  unfold delete at hsaves ⊢
  split at hsaves
  · rename_i hthere
    rw [if_pos hthere]
    refine ⟨fun hsame => ?_, fun hfalse => hfalse.elim⟩
    have hagents : reg.agents.erase agentId = reg.agents := by
      have hkept := congrArg Document.agents hsame
      rwa [reconcile_agents] at hkept
    have hgone : (reg.agents.erase agentId).get? agentId = none := by
      rw [Dict.get?_erase, if_pos rfl]
    rw [hagents] at hgone
    rw [hgone] at hthere
    cases hthere
  · cases hsaves

theorem truthy_promote {caps glob : Fields} {providers : List Provider} {key : String}
    (hid : agentId ≠ "") (h : (getItem glob key).truthy = true) :
    (getItem (promote caps agentId providers glob).1 key).truthy = true := by
  induction providers generalizing glob with
  | nil => exact h
  | cons provider rest ih =>
      unfold promote
      split
      · have hwritten : (getItem (setProviderDefault provider.name agentId glob) key).truthy =
            true := by
          unfold setProviderDefault
          rw [get_item_set, get_item_set]
          have htext : (Json.str agentId).truthy = true := by simpa [Json.truthy] using hid
          split
          · exact htext
          · split
            · exact htext
            · exact h
        exact ih hwritten
      · exact ih h

theorem promote_same_iff {caps glob : Fields} {providers : List Provider} (hid : agentId ≠ "") :
    (promote caps agentId providers glob).1 = glob ↔
      ∀ provider ∈ providers, promotes caps glob provider = false := by
  induction providers with
  | nil => simp [promote]
  | cons provider rest ih =>
      unfold promote
      by_cases hpromotes : promotes caps glob provider = true
      · rw [if_pos hpromotes]
        refine ⟨fun hsame => ?_, fun hnone => ?_⟩
        · have hwritten : (getItem (setProviderDefault provider.name agentId glob)
              (primaryKey provider.name)).truthy = true := by
            unfold setProviderDefault
            rw [get_item_set, if_pos rfl]
            simpa [Json.truthy] using hid
          have hstays := @truthy_promote agentId caps _ rest _ hid hwritten
          have hsame : (promote caps agentId rest
            (setProviderDefault provider.name agentId glob)).1 = glob := hsame
          rw [hsame] at hstays
          simp [promotes, hstays] at hpromotes
        · rw [hnone provider (List.mem_cons_self ..)] at hpromotes
          cases hpromotes
      · rw [if_neg hpromotes, ih, List.forall_mem_cons]
        simp [hpromotes]

theorem approve_saved {approval : Approval} (hsaves : (approve approval agentId reg).saves = true) :
    ∃ agent caps, reg.agents.get? agentId = some agent ∧
      orElse (getItem agent "capabilities") (.dict []) = .dict caps ∧
      (approve approval agentId reg).registry =
        ⟨reg.agents.set agentId (approved approval agent),
          some (promote caps agentId PROVIDERS (reg.global.getD [])).1, reg.rest⟩ := by
  unfold approve at hsaves ⊢
  dsimp only at hsaves ⊢
  split at hsaves
  · cases hsaves
  rename_i hlive
  rw [if_neg hlive]
  split at hsaves
  · rename_i caps hcaps
    exact ⟨_, caps, get_of_live hlive, hcaps, rfl⟩
  · cases hsaves

theorem approve_same_iff {approval : Approval} (hid : agentId ≠ "")
    (hsaves : (approve approval agentId reg).saves = true) :
    (approve approval agentId reg).registry = reg ↔ NothingNew reg (.approve approval agentId) := by
  obtain ⟨agent, caps, hget, hcaps, hregistry⟩ := approve_saved hsaves
  have hkeys : ((approvalItems approval agent).map Prod.fst).Nodup := by simp [approvalItems]
  have hparts : (approve approval agentId reg).registry = reg ↔
      reg.agents.set agentId (approved approval agent) = reg.agents ∧
        some (promote caps agentId PROVIDERS (reg.global.getD [])).1 = reg.global := by
    rw [hregistry]
    obtain ⟨agents, global, rest⟩ := reg
    simp
  rw [hparts, Dict.set_eq_iff, hget, approved_write_all]
  constructor
  · rintro ⟨hsame, hglobal⟩
    refine ⟨agent, caps, (promote caps agentId PROVIDERS (reg.global.getD [])).1, hget,
      (write_all_eq_iff hkeys).mp (Option.some.inj hsame).symm, hcaps, hglobal.symm, ?_⟩
    have hglob : reg.global.getD [] = (promote caps agentId PROVIDERS (reg.global.getD [])).1 := by
      conv_lhs => rw [← hglobal]
      rfl
    have hnone := (promote_same_iff hid).mp hglob.symm
    rwa [← hglob]
  · rintro ⟨agent', caps', glob, hget', hthere, hcaps', hglob, hnone⟩
    obtain rfl : agent = agent' := Option.some.inj (hget.symm.trans hget')
    obtain rfl : caps = caps' := Json.dict.inj (hcaps.symm.trans hcaps')
    refine ⟨congrArg some ((write_all_eq_iff hkeys).mpr hthere).symm, ?_⟩
    rw [hglob]
    exact congrArg some ((promote_same_iff hid).mpr hnone)

theorem default_key_ne_primary {kind : String} : defaultKey kind ≠ primaryKey kind := by
  intro h
  have hhead := congrArg (fun text => text.toList.head?) h
  simp [defaultKey, primaryKey, String.toList_append] at hhead

theorem set_primary_same_iff {body : Json} (hsaves : (setPrimary agentId body reg).saves = true) :
    (setPrimary agentId body reg).registry = reg ↔ NothingNew reg (.setPrimary agentId body) := by
  have hwritten : ∀ {fields : Fields} {kind : String}, orElse body (.dict []) = .dict fields →
      ((PROVIDERS.map Provider.name).find? fun name => isText (getItem fields "kind") name) =
        some kind →
      (({ reg with global := some (setProviderDefault kind
        (if (getItemD fields "set" (.bool true)).truthy then agentId else "")
          (reg.global.getD [])) } : Document) = reg ↔
            NothingNew reg (.setPrimary agentId body)) := by
    intro fields kind hbody hkind
    have hnodup : (([defaultKey kind, primaryKey kind].map fun key => (key, Json.str
        (if (getItemD fields "set" (.bool true)).truthy then agentId else ""))).map
          Prod.fst).Nodup := by
      simpa using default_key_ne_primary
    have hwrites : ∀ glob : Fields, setProviderDefault kind
        (if (getItemD fields "set" (.bool true)).truthy then agentId else "") glob =
          writeAll ([defaultKey kind, primaryKey kind].map fun key => (key, Json.str
            (if (getItemD fields "set" (.bool true)).truthy then agentId else ""))) glob :=
      fun _ => rfl
    rw [write_global_eq_iff]
    constructor
    · rintro ⟨glob, hglob, hsame⟩
      rw [hwrites, write_all_eq_iff hnodup] at hsame
      exact ⟨fields, kind, glob, hbody, hkind, hglob, fun key hkey =>
        hsame _ (List.mem_map_of_mem hkey)⟩
    · rintro ⟨fields', kind', glob, hbody', hkind', hglob, hthere⟩
      obtain rfl : fields = fields' := Json.dict.inj (hbody.symm.trans hbody')
      obtain rfl : kind = kind' := Option.some.inj (hkind.symm.trans hkind')
      refine ⟨glob, hglob, ?_⟩
      rw [hwrites, write_all_eq_iff hnodup]
      intro write hwrite
      obtain ⟨key, hkey, rfl⟩ := List.mem_map.mp hwrite
      exact hthere key hkey
  unfold setPrimary at hsaves ⊢
  split at hsaves
  · rename_i fields hbody
    dsimp only at hsaves ⊢
    split at hsaves
    · cases hsaves
    rename_i kind hkind
    have hthis := hwritten hbody hkind
    split at hsaves
    · cases hsaves
    rename_i hlive
    rw [if_neg hlive]
    split at hsaves
    · rename_i hclear
      rw [if_pos hclear]
      rw [if_neg (by simpa using hclear)] at hthis
      exact hthis
    rename_i hset
    rw [if_neg hset]
    rw [if_pos (by simpa using hset)] at hthis
    split at hsaves
    · cases hsaves
    rename_i happroved
    rw [if_neg happroved]
    split at hsaves
    · rename_i caps hcaps
      split at hsaves
      · rename_i hcap
        rw [if_pos hcap]
        exact hthis
      · cases hsaves
    · cases hsaves
  · cases hsaves

theorem pop_same_iff {glob : Fields} {key : String} :
    (glob.filter fun item => item.1 != key) = glob ↔ glob.lookup key = none := by
  rw [List.filter_eq_self, List.lookup_eq_none_iff]
  refine forall_congr' fun item => forall_congr' fun _ => ?_
  rw [bne_iff_ne, bne_iff_ne, ne_comm]

theorem set_host_same_iff {body : Json} (hsaves : (setHost agentId body reg).saves = true) :
    (setHost agentId body reg).registry = reg ↔ NothingNew reg (.setHost agentId body) := by
  -- What is written is a function of the global fields, which the condition says changes nothing.
  have hwritten : ∀ {fields : Fields} {f : Fields → Fields}, orElse body (.dict []) = .dict fields →
      (∀ glob, reg.global.getD [] = glob → (f glob = glob ↔
        if (getItemD fields "set" (.bool true)).truthy then
          glob.lookup "host_agent_id" = some (.str agentId)
        else isText (getItem glob "host_agent_id") agentId = false)) →
      (({ reg with global := some (f (reg.global.getD [])) } : Document) = reg ↔
        NothingNew reg (.setHost agentId body)) := by
    intro fields f hbody hf
    rw [write_global_eq_iff]
    constructor
    · rintro ⟨glob, hglob, hsame⟩
      exact ⟨fields, glob, hbody, hglob, (hf glob (by rw [hglob]; rfl)).mp hsame⟩
    · rintro ⟨fields', glob, hbody', hglob, hthere⟩
      obtain rfl : fields = fields' := Json.dict.inj (hbody.symm.trans hbody')
      exact ⟨glob, hglob, (hf glob (by rw [hglob]; rfl)).mpr hthere⟩
  unfold setHost at hsaves ⊢
  split at hsaves
  · rename_i fields hbody
    dsimp only at hsaves ⊢
    split at hsaves
    · rename_i hset
      rw [if_pos hset]
      split at hsaves
      · cases hsaves
      rename_i hlive
      rw [if_neg hlive]
      split at hsaves
      · cases hsaves
      rename_i happroved
      rw [if_neg happroved]
      refine hwritten (f := fun glob => setItems "host_agent_id" (.str agentId) glob) hbody
        fun glob _ => ?_
      rw [if_pos hset]
      exact set_items_eq_iff
    rename_i hclear
    rw [if_neg hclear]
    split at hsaves
    · rename_i hhost
      rw [if_pos hhost]
      refine hwritten (f := fun glob => glob.filter fun item => item.1 != "host_agent_id") hbody
        fun glob hglob => ?_
      rw [if_neg hclear, pop_same_iff]
      rw [hglob] at hhost
      constructor
      · intro hnone
        unfold getItem at hhost
        rw [hnone] at hhost
        cases hhost
      · intro hother
        rw [hother] at hhost
        cases hhost
    · rename_i hhost
      rw [if_neg hhost]
      refine hwritten (f := id) hbody fun glob hglob => ?_
      rw [if_neg hclear, ← hglob]
      exact ⟨fun _ => by simpa using hhost, fun _ => rfl⟩
  · cases hsaves

theorem set_pool_same_iff {provider : String} {body : Json}
    (hsaves : (setPool agentId provider body reg).saves = true) :
    (setPool agentId provider body reg).registry = reg ↔
      NothingNew reg (.setPool agentId provider body) := by
  unfold setPool at hsaves ⊢
  split at hsaves
  · rename_i fields hbody
    unfold setPoolMembership at hsaves ⊢
    dsimp only at hsaves ⊢
    split at hsaves
    · cases hsaves
    · cases hsaves
    split at hsaves
    · cases hsaves
    rename_i pool hpool
    have hlist : ∀ {glob : Fields} {members : List Json}, reg.global.getD [] = glob →
        glob.lookup (poolKey provider) = some (.list members) → pool = members := by
      intro glob members hglob hlookup
      rw [hglob] at hpool
      unfold getItem orElse at hpool
      rw [hlookup] at hpool
      cases members with
      | nil => exact (Option.some.inj hpool).symm
      | cons first rest => exact (Option.some.inj hpool).symm
    refine (write_global_eq_iff (f := fun glob => setItems (poolKey provider)
      (.list (pooled agentId (getItemD fields "in_pool" (.bool true)).truthy
        (getItem fields "position") pool)) glob)).trans ?_
    constructor
    · rintro ⟨glob, hglob, hsame⟩
      have hthere := set_items_eq_iff.mp hsame
      have hpooled := hlist (by rw [hglob]; rfl) hthere
      refine ⟨fields, glob, pool, hbody, hglob, ?_, hpooled.symm⟩
      rw [hthere, ← hpooled]
    · rintro ⟨fields', glob, members, hbody', hglob, hthere, hsame⟩
      obtain rfl : fields = fields' := Json.dict.inj (hbody.symm.trans hbody')
      obtain rfl := hlist (by rw [hglob]; rfl) hthere
      refine ⟨glob, hglob, ?_⟩
      rw [hsame]
      exact set_items_of_lookup hthere
  · cases hsaves

theorem enrollment_same_iff {w : Window} {body : Json}
    (hsaves : (enrollment w body reg).saves = true) :
    (enrollment w body reg).registry = reg ↔ NothingNew reg (.enrollment w body) := by
  unfold enrollment at hsaves ⊢
  split at hsaves
  · rename_i fields hbody
    dsimp only at hsaves ⊢
    split at hsaves
    · rename_i haction
      rw [if_pos haction]
      refine (write_global_eq_iff (f := fun glob => setItems "enrollment"
        (windowRecord w (isText (getItem fields "action") "close")) glob)).trans ?_
      constructor
      · rintro ⟨glob, hglob, hsame⟩
        exact ⟨fields, glob, hbody, hglob, set_items_eq_iff.mp hsame⟩
      · rintro ⟨fields', glob, hbody', hglob, hthere⟩
        obtain rfl : fields = fields' := Json.dict.inj (hbody.symm.trans hbody')
        exact ⟨glob, hglob, set_items_of_lookup hthere⟩
    · cases hsaves
  · cases hsaves

theorem request_same_iff {call : Call} (hrequest : call.isRequest = true)
    (hrouted : Routed reg call)
    (hsaves : (call.outcome reg).saves = true) :
    (call.outcome reg).registry = reg ↔ NothingNew reg call := by
  cases call with
  | register o body => exact register_same_iff hrouted hsaves
  | approve approval agentId => exact approve_same_iff hrouted hsaves
  | disable agentId => exact disable_same_iff hsaves
  | delete agentId => exact delete_same_iff hsaves
  | setPrimary agentId body => exact set_primary_same_iff hsaves
  | setHost agentId body => exact set_host_same_iff hsaves
  | setPool agentId provider body => exact set_pool_same_iff hsaves
  | enrollment w body => exact enrollment_same_iff hsaves
  | heartbeat beat body => cases hrequest
  | sweep expired => cases hrequest

end Writes

/-- After a request whose save fails, `load_agents` and `agent_by_token` answer as they did before
exactly when the registry file is missing or all that the request writes is there already. -/
theorem failed_save_unnoticed {s : Process} {call : Call} (hrequest : call.isRequest = true)
    (hrouted : Routed s.load.1 call) (hsaves : (call.outcome s.load.1).saves = true) :
    Unnoticed call s ↔ s.file = none ∨ NothingNew s.load.1 call := by
  by_cases hfile : s.file = none
  · exact ⟨fun _ => Or.inl hfile, fun _ => unnoticed_missing hfile⟩
  · rw [unnoticed_iff_same hfile, request_same_iff hrequest hrouted hsaves]
    exact ⟨Or.inr, fun h => h.resolve_left hfile⟩

section OneAgent

/-- A registry of one agent, with the given status. -/
def oneAgent (status : String) : Document where
  agents := (∅ : Dict String Fields).set "a1" [("status", .str status), ("token", .str "t1")]
  global := some []
  rest := [("schema_version", .int 2)]

/-- A manager that has loaded it. -/
def loaded (status : String) : Process where
  file := some (oneAgent status, 1)
  cached := some (oneAgent status)
  mtime := 1
  byToken := tokenIndex (oneAgent status)

/-- A second request to disable the agent fails unnoticed. -/
theorem second_disable_unnoticed : Unnoticed (.disable "a1") (loaded "disabled") :=
  (@failed_save_unnoticed (loaded "disabled") (.disable "a1") rfl trivial
    (by decide)).mpr (Or.inr ⟨_, rfl, rfl⟩)

/-- The first one does not: the agent is disabled in the cache although the file was not written. -/
theorem first_disable_noticed :
    (((Call.disable "a1").outcome (loaded "approved").load.1).saves = true ∧
      (loaded "approved").load.1 = oneAgent "approved") ∧
    ¬ Unnoticed (.disable "a1") (loaded "approved") := by
  refine ⟨⟨by decide, rfl⟩, fun h => ?_⟩
  have hstatus := congrArg (fun doc : Document => (doc.agents.get? "a1").map fun agent =>
    isText (getItem agent "status") "disabled") h.1
  revert hstatus
  decide

end OneAgent

end SystemsManager.Registry
