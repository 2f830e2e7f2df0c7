import SystemsManager.Registry.Agents
import Mathlib.Logic.Function.Basic

/-!
# Fingerprints of old agents

An agent before `FP_REAUTH_FROM_VERSION` sends a fingerprint that is no secret, so one that such an
agent stored may not re-authenticate. `Followed` goes along with the requests and notes, for each
record, the version of the registration that stored its fingerprint. Read `old_fingerprint_refused`:
a record whose fingerprint is old answers to no fingerprint, in every run in which no registration
without a fingerprint takes an old version from a record that does not name the version of its
fingerprint. `bumped_fingerprint_accepted` is a run with such a registration.
-/

namespace SystemsManager.Registry

open Python

/-- A request of an agent. -/
inductive Request where
  | register (o : Outside) (body : Option Json)
  | heartbeat (beat : Beat) (body : Json)

/-- The end of a request. -/
def Request.outcome (reg : Document) : Request → Outcome
  | .register o body => Registry.register o body reg
  | .heartbeat beat body => Registry.heartbeat beat body reg

/-- A registry, and for each record the version of the registration that stored its fingerprint. -/
structure Followed where
  reg : Document
  storedBy : String → Json

/-- A registry that is found: a record that does not name the version of its fingerprint has the one
that stored it. -/
def Followed.found (reg : Document) : Followed where
  reg := reg
  storedBy agentId := storedVersion ((reg.agents.get? agentId).getD [])

/-- The record that a registration writes, and the version that it leaves there, are noted where it
brings a fingerprint. -/
def noteStored (f : Followed) (body : Option Json) (outcome : Outcome) : String → Json :=
  match body, outcome with
  | some (.dict body), ⟨.response _ fields, reg, true⟩ =>
      match getItem fields "agent_id" with
      | .str agentId =>
          let agent := (reg.agents.get? agentId).getD []
          if (getItem body "fingerprint").truthy then
            Function.update f.storedBy agentId (getItem agent "version")
          else if (getItem agent "fingerprint").truthy then f.storedBy
          -- A record without a fingerprint has none that anybody stored.
          else Function.update f.storedBy agentId .null
      | _ => f.storedBy
  | _, _ => f.storedBy

/-- One request. -/
def Followed.next (f : Followed) (request : Request) : Followed where
  reg := (request.outcome f.reg).registry
  storedBy := match request with
    | .register _ body => noteStored f body (request.outcome f.reg)
    | .heartbeat .. => f.storedBy

/-- The runs of requests that meet a condition. -/
inductive Run (ok : Request → Document → Prop) (start : Document) : Followed → Prop where
  | start : Run ok start (.found start)
  | next (f : Followed) (request : Request) (h : Run ok start f) (hok : ok request f.reg) :
      Run ok start (f.next request)

/-- A registration without a fingerprint does not take an old version from a record that does not
name the version of its fingerprint. -/
def KeepsOldVersion (request : Request) (reg : Document) : Prop :=
  match request with
  | .register o (some (.dict body)) => ∀ agentId agent,
      findExisting (suppliedToken o.authorization) (getItemD body "fingerprint" (.str ""))
        (reg.matches_ (bodyHostname body) (bodyOs body)) = .ok (some (agentId, agent)) →
      agent.lookup "fp_version" = none → (getItem body "fingerprint").truthy = false →
      oldVersion (getItem agent "version") = true →
        oldVersion (getItemD body "version" (getItem agent "version")) = true
  | _ => True

/-- Every record whose fingerprint was stored by an old agent names an old version for it. -/
def OldKept (f : Followed) : Prop :=
  ∀ agentId agent, f.reg.agents.get? agentId = some agent →
    oldVersion (f.storedBy agentId) = true → oldVersion (storedVersion agent) = true

section Records

variable {o : Outside} {body agent live : Fields} {beat : Beat}

theorem stored_version_congr {other : Fields}
    (hstored : other.lookup "fp_version" = agent.lookup "fp_version")
    (hversion : agent.lookup "fp_version" = none →
      getItem other "version" = getItem agent "version") :
    storedVersion other = storedVersion agent := by
  unfold storedVersion
  rw [hstored]
  cases hlookup : agent.lookup "fp_version" with
  | none => exact hversion hlookup
  | some version =>
      unfold getItem
      rw [hstored, hlookup]
      rfl

/-- A field that is written is there. -/
theorem stored_version_set {version : Json} :
    storedVersion (setItems "fp_version" version agent) = version := by
  unfold storedVersion
  rw [lookup_set_items, if_pos rfl, get_item_set, if_pos rfl]
  rfl

theorem stored_version_other {key : String} {value : Json} (hstored : key ≠ "fp_version")
    (hversion : key ≠ "version") :
    storedVersion (setItems key value agent) = storedVersion agent := by
  refine stored_version_congr ?_ fun _ => ?_
  · rw [lookup_set_items, if_neg (Ne.symm hstored)]
  · rw [get_item_set, if_neg (Ne.symm hversion)]

theorem stored_version_version {version : Json} (h : (agent.lookup "fp_version").isSome = true) :
    storedVersion (setItems "version" version agent) = storedVersion agent := by
  refine stored_version_congr ?_ fun hnone => ?_
  · rw [lookup_set_items, if_neg (by decide)]
  · rw [hnone] at h
    cases h

theorem stored_version_take : storedVersion (takeVersion body live) = storedVersion live := by
  unfold takeVersion
  split
  · split
    · rename_i hnamed
      exact stored_version_version hnamed
    · rename_i hnone
      have hnamed : ((setItems "fp_version" (getItem live "version") live).lookup
          "fp_version").isSome = true := by
        rw [lookup_set_items, if_pos rfl]
        rfl
      rw [stored_version_version hnamed, stored_version_set]
      unfold storedVersion
      rw [if_neg hnone]
  · rfl

theorem stored_version_beaten : storedVersion (beaten beat body live) = storedVersion live := by
  have htimes : storedVersion (setItems "last_heartbeat_data" beat.data
      (setItems "last_heartbeat" (.str beat.nowIso) live)) = storedVersion live := by
    rw [stored_version_other (by decide) (by decide), stored_version_other (by decide) (by decide)]
  unfold beaten takeCapabilities
  split
  · split
    · rw [stored_version_other (by decide) (by decide), stored_version_take, htimes]
    · rw [stored_version_take, htimes]
  · rw [stored_version_take, htimes]

theorem stored_version_refreshed : storedVersion (refreshed o body agent) =
    if (getItemD body "fingerprint" (.str "")).truthy = true then
      getItemD body "version" (getItem agent "version")
    else if (agent.lookup "fp_version").isSome = true then getItem agent "fp_version"
    else getItemD body "version" (getItem agent "version") := by
  unfold refreshed copyField
  dsimp only
  rw [stored_version_other (by decide) (by decide), stored_version_other (by decide) (by decide),
    stored_version_other (by decide) (by decide), stored_version_other (by decide) (by decide),
    stored_version_other (by decide) (by decide), stored_version_other (by decide) (by decide),
    stored_version_other (by decide) (by decide)]
  split
  · rw [stored_version_set]
    simp [get_item_set]
  · split
    · rename_i hnamed
      unfold storedVersion
      simp [lookup_set_items, get_item_set, hnamed]
    · rename_i hnone
      unfold storedVersion
      simp [lookup_set_items, get_item_set, hnone]

theorem version_refreshed : getItem (refreshed o body agent) "version" =
    getItemD body "version" (getItem agent "version") := by
  unfold refreshed copyField
  dsimp only
  split <;> simp [get_item_set]

theorem truthy_fingerprint : (getItemD body "fingerprint" (.str "")).truthy =
    (getItem body "fingerprint").truthy := by
  unfold getItem getItemD
  cases body.lookup "fingerprint" with
  | none => rfl
  | some _ => rfl

theorem reauth_of_old {fingerprint : Json} (h : oldVersion (storedVersion agent) = true) :
    reauthFactor agent fingerprint = none := by
  unfold reauthFactor
  rw [if_pos h]

end Records

section Steps

variable {ok : Request → Document → Prop} {start reg : Document} {f : Followed} {o : Outside}

theorem note_stored_again {fields : Fields} {agentId : String} {agent : Fields} :
    noteStored f (some (.dict fields)) (reRegister o fields agentId agent f.reg) =
      if (getItem fields "fingerprint").truthy then
        Function.update f.storedBy agentId (getItem (refreshed o fields agent) "version")
      else if (getItem (refreshed o fields agent) "fingerprint").truthy then f.storedBy
      else Function.update f.storedBy agentId .null := by
  have hwritten : ((f.reg.setAgent agentId (refreshed o fields agent)).agents.get? agentId) =
      some (refreshed o fields agent) := by
    unfold Document.setAgent
    rw [Dict.get?_set, if_pos rfl]
  show (if (getItem fields "fingerprint").truthy then
      Function.update f.storedBy agentId (getItem (((f.reg.setAgent agentId
        (refreshed o fields agent)).agents.get? agentId).getD []) "version")
    else if (getItem (((f.reg.setAgent agentId (refreshed o fields agent)).agents.get?
        agentId).getD []) "fingerprint").truthy then f.storedBy
    else Function.update f.storedBy agentId .null) = _
  rw [hwritten]
  rfl

/-- What is noted of a new record. -/
theorem note_stored_added {fields : Fields} {hostname os : String} :
    noteStored f (some (.dict fields)) (addAgent o fields hostname os f.reg) =
      if (getItem fields "fingerprint").truthy then
        Function.update f.storedBy o.newId (getItemD fields "version" (.str ""))
      else Function.update f.storedBy o.newId .null := by
  have hwritten : ((f.reg.setAgent o.newId (newAgent o fields hostname os)).agents.get? o.newId) =
      some (newAgent o fields hostname os) := by
    unfold Document.setAgent
    rw [Dict.get?_set, if_pos rfl]
  show (if (getItem fields "fingerprint").truthy then
      Function.update f.storedBy o.newId (getItem (((f.reg.setAgent o.newId
        (newAgent o fields hostname os)).agents.get? o.newId).getD []) "version")
    else if (getItem (((f.reg.setAgent o.newId (newAgent o fields hostname os)).agents.get?
        o.newId).getD []) "fingerprint").truthy then f.storedBy
    else Function.update f.storedBy o.newId .null) = _
  rw [hwritten, Option.getD_some]
  have hfp : (getItem (newAgent o fields hostname os) "fingerprint").truthy =
      (getItem fields "fingerprint").truthy := truthy_fingerprint
  rw [hfp]
  split
  · rfl
  · rfl

theorem written_record {agentId aid : String} {live written agent : Fields}
    (hlive : reg.agents.get? agentId = some live)
    (hversion : storedVersion written = storedVersion live)
    (h : (reg.setAgent agentId written).agents.get? aid = some agent) :
    reg.agents.get? aid = some agent ∨ ∃ live, reg.agents.get? aid = some live ∧
      storedVersion agent = storedVersion live := by
  unfold Document.setAgent at h
  rw [Dict.get?_set] at h
  split at h
  · rename_i haid
    subst haid
    obtain rfl := Option.some.inj h
    exact Or.inr ⟨live, hlive, hversion⟩
  · exact Or.inl h

theorem heartbeat_record {beat : Beat} {body : Json} {aid : String} {agent : Fields}
    (h : (heartbeat beat body reg).registry.agents.get? aid = some agent) :
    reg.agents.get? aid = some agent ∨ ∃ live, reg.agents.get? aid = some live ∧
      storedVersion agent = storedVersion live := by
  cases @heartbeat_cases beat body reg with
  | refused hregistry _ =>
      rw [hregistry] at h
      exact Or.inl h
  | taken agentId body live hlive hregistry =>
      rw [hregistry] at h
      exact written_record hlive stored_version_beaten h
  | halfway agentId live hlive hregistry _ =>
      rw [hregistry] at h
      exact written_record hlive (stored_version_other (by decide) (by decide)) h

theorem old_kept_again {fields : Fields} {agentId : String} {agent : Fields}
    (hkept : OldKept f) (hok : KeepsOldVersion (.register o (some (.dict fields))) f.reg)
    (hfound : findExisting (suppliedToken o.authorization) (getItemD fields "fingerprint" (.str ""))
      (f.reg.matches_ (bodyHostname fields) (bodyOs fields)) = .ok (some (agentId, agent))) :
    OldKept ⟨(reRegister o fields agentId agent f.reg).registry,
      noteStored f (some (.dict fields)) (reRegister o fields agentId agent f.reg)⟩ := by
  have hget : f.reg.agents.get? agentId = some agent := matches_get (find_existing_mem hfound).1
  intro aid other hother hold
  have hother : (if aid = agentId then some (refreshed o fields agent) else f.reg.agents.get? aid) =
      some other := by
    rw [← Dict.get?_set]
    exact hother
  have hold : oldVersion ((if (getItem fields "fingerprint").truthy then
        Function.update f.storedBy agentId (getItem (refreshed o fields agent) "version")
      else if (getItem (refreshed o fields agent) "fingerprint").truthy then f.storedBy
      else Function.update f.storedBy agentId .null) aid) = true := by
    rw [← note_stored_again]
    exact hold
  by_cases haid : aid = agentId
  · subst haid
    rw [if_pos rfl] at hother
    obtain rfl := Option.some.inj hother
    rw [stored_version_refreshed, truthy_fingerprint]
    split at hold
    · rename_i hfp
      rw [Function.update_self, version_refreshed] at hold
      rw [if_pos hfp]
      exact hold
    · rename_i hfp
      rw [if_neg hfp]
      split at hold
      · have hbefore : oldVersion (storedVersion agent) = true := hkept aid agent hget hold
        unfold storedVersion at hbefore
        split
        · rename_i hnamed
          rw [if_pos hnamed] at hbefore
          exact hbefore
        · rename_i hnone
          rw [if_neg hnone] at hbefore
          exact hok aid agent hfound (Option.not_isSome_iff_eq_none.mp hnone)
            (by simpa using hfp) hbefore
      · rw [Function.update_self] at hold
        cases hold
  · rw [if_neg haid] at hother
    have hsame : oldVersion (f.storedBy aid) = true := by
      split at hold
      · rwa [Function.update_of_ne haid] at hold
      · split at hold
        · exact hold
        · rwa [Function.update_of_ne haid] at hold
    exact hkept aid other hother hsame

theorem old_kept_added {fields : Fields} {hostname os : String} (hkept : OldKept f) :
    OldKept ⟨(addAgent o fields hostname os f.reg).registry,
      noteStored f (some (.dict fields)) (addAgent o fields hostname os f.reg)⟩ := by
  intro aid other hother hold
  have hother : (if aid = o.newId then some (newAgent o fields hostname os)
      else f.reg.agents.get? aid) = some other := by
    rw [← Dict.get?_set]
    exact hother
  have hold : oldVersion ((if (getItem fields "fingerprint").truthy then
        Function.update f.storedBy o.newId (getItemD fields "version" (.str ""))
      else Function.update f.storedBy o.newId .null) aid) = true := by
    rw [← note_stored_added]
    exact hold
  by_cases haid : aid = o.newId
  · subst haid
    rw [if_pos rfl] at hother
    obtain rfl := Option.some.inj hother
    split at hold
    · rw [Function.update_self] at hold
      exact hold
    · rw [Function.update_self] at hold
      cases hold
  · rw [if_neg haid] at hother
    have hsame : oldVersion (f.storedBy aid) = true := by
      split at hold <;> rwa [Function.update_of_ne haid] at hold
    exact hkept aid other hother hsame

theorem old_kept_beat {beat : Beat} {body : Json} (hkept : OldKept f) :
    OldKept ⟨(heartbeat beat body f.reg).registry, f.storedBy⟩ := by
  intro aid other hother hold
  rcases heartbeat_record hother with hsame | ⟨live, hlive, hversion⟩
  · exact hkept aid other hsame hold
  · rw [hversion]
    exact hkept aid live hlive hold

/-- A request keeps the old versions. -/
theorem old_kept_next {request : Request} (hkept : OldKept f)
    (hok : KeepsOldVersion request f.reg) :
    OldKept (f.next request) := by
  cases request with
  | heartbeat beat body => exact old_kept_beat hkept
  | register o body =>
      show OldKept ⟨(register o body f.reg).registry, noteStored f body (register o body f.reg)⟩
      cases @register_cases o body f.reg with
      | refused hregistry hsaves _ =>
          have hnote : noteStored f body (register o body f.reg) = f.storedBy := by
            unfold noteStored
            split
            · rename_i houtcome
              rw [houtcome] at hsaves
              cases hsaves
            · rfl
          rw [hregistry, hnote]
          exact hkept
      | again fields hostname os agentId agent hbody hfound houtcome hhostname hos =>
          subst hbody hhostname hos
          rw [houtcome]
          exact old_kept_again hkept hok hfound
      | added fields hostname os hbody _ _ _ houtcome =>
          subst hbody
          rw [houtcome]
          exact old_kept_added hkept

theorem run_keeps (h : Run KeepsOldVersion start f) : OldKept f := by
  induction h with
  | start =>
      intro aid agent hget hold
      have hold : oldVersion (storedVersion ((start.agents.get? aid).getD [])) = true := hold
      have hget : start.agents.get? aid = some agent := hget
      rw [hget] at hold
      exact hold
  | next f request _ hok ih => exact old_kept_next ih hok

end Steps

section Refused

variable {start : Document} {f : Followed} {aid : String} {agent : Fields}

theorem status_without_token {header : String} (hget : f.reg.agents.get? aid = some agent)
    (hrefused : ∀ fingerprint, reauthFactor agent fingerprint = none) :
    (getStatus aid header f.reg).field "token" = none := by
  unfold getStatus
  rw [hget, Option.getD_some]
  dsimp only
  split
  · rfl
  · rw [hrefused, Option.isSome_none, Bool.and_false]
    rfl

theorem register_without_token {o : Outside} {body : Option Json}
    (hget : f.reg.agents.get? aid = some agent)
    (hrefused : ∀ fingerprint, reauthFactor agent fingerprint = none)
    (htoken : tokenMatches agent (suppliedToken o.authorization) ≠ .ok true)
    (hnew : o.newId ≠ aid) :
    (register o body f.reg).registry.agents.get? aid = some agent ∧
      ((register o body f.reg).reply.field "agent_id" = some (.str aid) →
        (register o body f.reg).reply.field "token" = none) := by
  cases @register_cases o body f.reg with
  | refused hregistry _ hnone =>
      rw [hregistry]
      exact ⟨hget, fun _ => hnone⟩
  | again fields hostname os agentId other hbody hfound houtcome =>
      obtain ⟨hmem, hauth⟩ := find_existing_mem hfound
      have hother : agentId ≠ aid := by
        rintro rfl
        have hsame : agent = other := Option.some.inj (hget.symm.trans (matches_get hmem))
        subst hsame
        rcases hauth with hauth | hauth
        · exact htoken hauth
        · rw [hrefused] at hauth
          cases hauth
      rw [houtcome]
      refine ⟨?_, fun hnamed => ?_⟩
      · show ((f.reg.agents.set agentId (refreshed o fields other)).get? aid) = some agent
        rw [Dict.get?_set, if_neg (Ne.symm hother)]
        exact hget
      · cases hnamed
        exact absurd rfl hother
  | added fields hostname os hbody _ _ _ houtcome =>
      rw [houtcome]
      refine ⟨?_, fun hnamed => ?_⟩
      · show ((f.reg.agents.set o.newId (newAgent o fields hostname os)).get? aid) = some agent
        rw [Dict.get?_set, if_neg (Ne.symm hnew)]
        exact hget
      · cases hnamed
        exact absurd rfl hnew

/-- In a run in which no registration without a fingerprint takes an old version from a record that
does not name the version of its fingerprint, a fingerprint that an old agent stored never
re-authenticates: it gets no token by the status poll, and a registration with it that does not
bring the token of the record neither changes the record nor gets its token. -/
theorem old_fingerprint_refused (h : Run KeepsOldVersion start f)
    (hget : f.reg.agents.get? aid = some agent) (hold : oldVersion (f.storedBy aid) = true) :
    (∀ fingerprint, reauthFactor agent fingerprint = none) ∧
    (∀ header, (getStatus aid header f.reg).field "token" = none) ∧
    ∀ (o : Outside) (body : Option Json),
      tokenMatches agent (suppliedToken o.authorization) ≠ .ok true → o.newId ≠ aid →
      (register o body f.reg).registry.agents.get? aid = some agent ∧
        ((register o body f.reg).reply.field "agent_id" = some (.str aid) →
          (register o body f.reg).reply.field "token" = none) := by
  have hrefused : ∀ fingerprint, reauthFactor agent fingerprint = none := fun _ =>
    reauth_of_old (run_keeps h aid agent hget hold)
  exact ⟨hrefused, fun _ => status_without_token hget hrefused, fun _ _ htoken hnew =>
    register_without_token hget hrefused htoken hnew⟩

end Refused

section Legacy

/-- A record of a manager that did not name the version of the fingerprint yet. -/
def legacyAgent : Fields :=
  [("agent_id", .str "a1"), ("hostname", .str "box"), ("os", .str "linux"),
    ("fingerprint", .str "fp"), ("version", .str "v2026.01.01-1"), ("status", .str "approved"),
    ("token", .str "t0")]

/-- The registry with that record alone. -/
def legacyRegistry : Document := ⟨Dict.empty.set "a1" legacyAgent, none, []⟩

/-- The updated agent sends its new version with a heartbeat. -/
def upgradedBeat : Request :=
  .heartbeat ⟨"t0", "2026-09-02T00:00:00", .null, true, false, []⟩
    (.dict [("version", .str "v2026.09.01-1")])

/-- The updated agent registers with its token and without a fingerprint. -/
def withoutFingerprint : Request :=
  .register ⟨"10.0.0.5", "Bearer t0", false, false, none, true, false, "a2", "t2",
      "2026-09-02T00:00:00"⟩
    (some (.dict [("hostname", .str "box"), ("os", .str "linux"),
      ("version", .str "v2026.09.01-1")]))

/-- A heartbeat with a new version does not make the old fingerprint one that re-authenticates. -/
theorem old_fingerprint_refused_upgraded :
    reauthFactor ((((Followed.found legacyRegistry).next upgradedBeat).reg.agents.get?
      "a1").getD []) (.str "fp") = none := by
  have hrun : Run KeepsOldVersion legacyRegistry
    ((Followed.found legacyRegistry).next upgradedBeat) :=
    .next _ _ .start trivial
  have hthere :
    ((((Followed.found legacyRegistry).next upgradedBeat).reg.agents.get? "a1").isSome) =
      true := by decide +kernel
  obtain ⟨agent, hget⟩ := Option.isSome_iff_exists.mp hthere
  rw [hget]
  exact (old_fingerprint_refused hrun hget (by decide +kernel)).1 (.str "fp")

/-- A registration without a fingerprint does: nobody stored the fingerprint again, and the status
poll gives the token out for it. -/
theorem bumped_fingerprint_accepted :
    ∃ f : Followed, Run (fun _ _ => True) legacyRegistry f ∧
      oldVersion (f.storedBy "a1") = true ∧
      reauthFactor ((f.reg.agents.get? "a1").getD []) (.str "fp") = some "fp" ∧
      ((getStatus "a1" "fp" f.reg).field "token").isSome = true := by
  refine ⟨(Followed.found legacyRegistry).next withoutFingerprint, .next _ _ .start trivial, ?_, ?_,
    ?_⟩
  · decide +kernel
  · decide +kernel
  · decide +kernel

end Legacy

end SystemsManager.Registry
