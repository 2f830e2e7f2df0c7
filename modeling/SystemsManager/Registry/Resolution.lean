import SystemsManager.Autopilot.Fleet
import SystemsManager.Registry.PendingLimits

/-!
# Choosing an agent for a provider

The lookups of `agent_registry.py` by which a request finds its agent: a model's pin, an id that was
asked for, the pool in turn, and the default. Each of them gives a record of the registry: read
`found_pinned`, `found_picked` and `resolve_eq_some`. A record has the id under which it is stored;
every request to the registry keeps that (`keyed_call`). An empty text stands for a `None` that the
code treats alike.
-/

namespace SystemsManager.Registry

open Python
open Autopilot (Liveness)

/-- `ProviderSpec`, as far as a request is routed by it. -/
structure ProviderSpec where
  capabilityKey : String
  defaultPicker : String := "first_approved"
  pinDictKey : Option String := none
  deriving DecidableEq

/-- The records of a registry have the ids under which they are stored. -/
def Document.Keyed (data : Document) : Prop :=
  ∀ id a, data.agents.get? id = some a → getItem a "agent_id" = .str id ∧ id ≠ ""

/-- A registry whose records have their ids. -/
structure KeyedRegistry where
  document : Document
  keyed : document.Keyed

/-- The moment of a request: how old the time of a heartbeat is, where the value is one, and the
ages from which an agent counts as stale and as down. -/
structure Moment where
  age : Json → Option ℚ
  downAfter : ℚ
  staleAfter : ℚ

/-- `agent_liveness` -/
def Moment.agentLiveness (m : Moment) (agent : Fields) : Liveness :=
  if isText (getItem agent "status") "pending" then .pending
  else if isText (getItem agent "status") "disabled" then .disabled
  else if !(getItem agent "last_heartbeat").truthy then .down
  else match m.age (getItem agent "last_heartbeat") with
    | none => .down
    | some age => if m.downAfter ≤ age then .down else if m.staleAfter ≤ age then .stale else .live

/-- The agent is live. -/
def Moment.live (m : Moment) (agent : Fields) : Bool := m.agentLiveness agent = .live

/-- `a.get("agent_id")`, where it is a text -/
def agentIdOf (agent : Fields) : String := (getItem agent "agent_id").str?.getD ""

/-- `a.get("status") == "approved"` -/
def isApproved (agent : Fields) : Bool := isText (getItem agent "status") "approved"

/-- `(a.get("capabilities") or {}).get(capability)` -/
def hasCapability (agent : Fields) (capability : String) : Bool :=
  match getItem agent "capabilities" with
  | .dict capabilities => (getItem capabilities capability).truthy
  | _ => false

namespace Document

variable (data : Document)

/-- `data.get("global") or {}` -/
def glob : Fields := data.global.getD []

/-- A text of `data["global"]`, or nothing. -/
def globalText (key : String) : String := (getItem data.glob key).str?.getD ""

/-- `glob.get(f"{provider}_pool") or []`; an id that is no text is in no registry. -/
def pool (provider : String) : List String := match getItem data.glob (provider ++ "_pool") with
  | .list ids => ids.filterMap Json.str?
  | _ => []

/-- `resolve_agent_by_id` -/
def resolveAgentById (agentId capability : String) : Option Fields :=
  if agentId = "" then none
  else match data.agents.get? agentId with
    | none => none
    | some a => if isApproved a &&
        (capability = "" || hasCapability a capability) then some a else none

/-- The isApproved agent with an id. -/
def approvedAgent (agentId : String) : Option Fields := (data.agents.get? agentId).filter isApproved

end Document

section Providers

variable (providers : Dict String ProviderSpec) (m : Moment) (data : Document)

/-- The capability that the agents of a provider have. -/
def capabilityKeyOf (provider : String) : String := match providers.get? provider with
  | some spec => spec.capabilityKey
  | none => provider

/-- The provider has a pool. -/
def hasPool (provider : String) : Bool := match providers.get? provider with
  | some spec => spec.defaultPicker = "pool"
  | none => false

/-- `primary_agent` -/
def primaryAgent (kind : String) : Option Fields :=
  let fromPool := if hasPool providers kind then (data.pool kind).findSome?
    data.approvedAgent else none
  match fromPool with
  | some a => some a
  | none =>
      let aid := data.globalText ("primary_" ++ kind ++ "_id")
      if aid = "" then none else data.approvedAgent aid

/-- The default of a provider that is set. -/
def defaultSet (provider : String) : String :=
  let aid := data.globalText ("default_" ++ provider ++ "_id")
  if aid = "" then data.globalText ("primary_" ++ provider ++ "_id") else aid

/-- `default_agent_id_for`; an empty text is `None`. -/
def defaultAgentIdFor (provider : String) : String :=
  let aid := defaultSet data provider
  if aid ≠ "" ∧ (data.approvedAgent aid).isSome then aid
  else
    let capKey := capabilityKeyOf providers provider
    match data.agents.items.find? fun item => isApproved item.2 && hasCapability item.2 capKey with
    | some item => agentIdOf item.2
    | none => ""

/-- `pinned_agent` -/
def pinnedAgent (provider modelId : String) : Option Fields :=
  match (providers.get? provider).bind ProviderSpec.pinDictKey with
  | none => none
  | some pinKey =>
      if pinKey = "" ∨ modelId = "" then none
      else
        let pins := match getItem data.glob pinKey with
          | .dict pins => pins
          | _ => []
        (data.agents.get? ((getItem pins modelId).str?.getD "")).filter fun a =>
          isApproved a && m.live a

/-- The agents that the pool has to choose from: the live ones, or all where none is. -/
def poolCandidates (provider : String) : List Fields :=
  let members := (data.pool provider).filterMap data.approvedAgent
  if members.filter m.live = [] then members else members.filter m.live

/-- `pick_agent` with no model, from the turn of the pool: the agent and the next turn. -/
def pickAgent (turn : ℕ) (provider : String) : Option Fields × ℕ :=
  let candidates := poolCandidates m data provider
  let idx := turn % candidates.length
  match candidates[idx]? with
  | some a => (some a, (idx + 1) % candidates.length)
  | none => (primaryAgent providers data provider, turn)

end Providers

namespace KeyedRegistry

variable (reg : KeyedRegistry) {providers : Dict String ProviderSpec} {m : Moment}

/-- The record is one of the registry. -/
def Found (a : Fields) : Prop := reg.document.agents.get? (agentIdOf a) = some a

variable {reg}

theorem found_of_get {id : String} {a : Fields} (h : reg.document.agents.get? id = some a) :
    agentIdOf a = id ∧ reg.Found a := by
  have hid : agentIdOf a = id := by
    unfold agentIdOf
    rw [(reg.keyed id a h).1]
    rfl
  refine ⟨hid, ?_⟩
  unfold Found
  rw [hid]
  exact h

theorem Found.id_ne {a : Fields} (h : reg.Found a) : agentIdOf a ≠ "" := (reg.keyed _ a h).2

theorem Found.eq {a b : Fields} (ha : reg.Found a) (hb : reg.Found b)
    (hid : agentIdOf a = agentIdOf b) :
    a = b := by
  unfold Found at ha hb
  rw [hid, hb] at ha
  exact (Option.some.inj ha).symm

theorem found_approved {id : String} {a : Fields} (h : reg.document.approvedAgent id = some a) :
    agentIdOf a = id ∧ reg.Found a := by
  unfold Document.approvedAgent at h
  exact found_of_get (Option.filter_eq_some_iff.mp h).1

theorem resolve_eq_some {id capability : String} {a : Fields} :
    reg.document.resolveAgentById id capability = some a ↔
      reg.document.agents.get? id = some a ∧ isApproved a = true ∧
        (capability = "" ∨ hasCapability a capability = true) := by
  unfold Document.resolveAgentById
  by_cases hid : id = ""
  · rw [if_pos hid]
    refine ⟨fun h => (by cases h), fun h => ?_⟩
    exact absurd hid (reg.keyed id a h.1).2
  · rw [if_neg hid]
    cases hget : reg.document.agents.get? id with
    | none => exact ⟨fun h => (by cases h), fun h => (by cases h.1)⟩
    | some b =>
        dsimp only
        rw [Option.ite_none_right_eq_some, Bool.and_eq_true, Bool.or_eq_true, decide_eq_true_eq]
        constructor
        · rintro ⟨hb, heq⟩
          cases heq
          exact ⟨rfl, hb⟩
        · rintro ⟨heq, hb⟩
          cases heq
          exact ⟨hb, rfl⟩

theorem found_primary {kind : String} {a : Fields}
    (h : primaryAgent providers reg.document kind = some a) :
    reg.Found a := by
  unfold primaryAgent at h
  dsimp only at h
  split at h
  · rename_i b hpool
    cases h
    rw [Option.ite_none_right_eq_some] at hpool
    obtain ⟨id, -, hid⟩ := List.exists_of_findSome?_eq_some hpool.2
    exact (found_approved hid).2
  · rw [Option.ite_none_left_eq_some] at h
    exact (found_approved h.2).2

theorem found_pinned {provider modelId : String} {a : Fields}
    (h : pinnedAgent providers m reg.document provider modelId = some a) :
    reg.Found a ∧ m.live a = true := by
  unfold pinnedAgent at h
  split at h
  · cases h
  · rw [Option.ite_none_left_eq_some] at h
    obtain ⟨hget, hlive⟩ := Option.filter_eq_some_iff.mp h.2
    exact ⟨(found_of_get hget).2, (Bool.and_eq_true_iff.mp hlive).2⟩

theorem found_picked {turn : ℕ} {provider : String} {a : Fields}
    (h : (pickAgent providers m reg.document turn provider).1 = some a) : reg.Found a := by
  have hmembers : ∀ b ∈ poolCandidates m reg.document provider, reg.Found b := by
    intro b hb
    have hb : b ∈ (reg.document.pool provider).filterMap reg.document.approvedAgent := by
      unfold poolCandidates at hb
      dsimp only at hb
      split at hb
      · exact hb
      · exact (List.mem_filter.mp hb).1
    obtain ⟨id, -, hid⟩ := List.mem_filterMap.mp hb
    exact (found_approved hid).2
  unfold pickAgent at h
  dsimp only at h
  split at h
  · rename_i b hb
    cases h
    exact hmembers _ (List.mem_of_getElem? hb)
  · exact found_primary h

end KeyedRegistry

section Requests

variable {data after : Document}

/-- Records that were there before keep their ids. -/
theorem keyed_kept (h : data.Keyed) (hkept : AllKept data after) : after.Keyed := by
  intro id a ha
  obtain ⟨before, hbefore, hsame⟩ := hkept id a ha
  rw [hsame.agentId]
  exact h id before hbefore

/-- The id of a new record is no empty text. -/
def Call.idGiven : Call → Bool
  | .register o _ => o.newId != ""
  | _ => true

/-- A registration changes a record that was there, or adds one under its own id. -/
theorem keyed_register {o : Outside} {body : Option Json} (h : data.Keyed) (hid : o.newId ≠ "") :
    (register o body data).registry.Keyed := by
  cases @register_cases o body data with
  | refused hregistry _ _ =>
      rw [hregistry]
      exact h
  | again fields hostname os agentId agent _ hfound houtcome =>
      rw [houtcome]
      exact keyed_kept h (all_kept_set (matches_get (find_existing_mem hfound).1) .refreshed rfl)
  | added fields hostname os _ _ _ _ houtcome =>
      rw [houtcome]
      intro id a ha
      have hget : (data.agents.set o.newId (newAgent o fields hostname os)).get? id = some a := ha
      rw [Dict.get?_set] at hget
      split at hget
      · rename_i heq
        obtain rfl := Option.some.inj hget
        exact ⟨by rw [heq]; rfl, heq ▸ hid⟩
      · exact h id a hget

/-- Every request to the registry leaves the records with their ids. -/
theorem keyed_call {call : Call} (h : data.Keyed) (hid : call.idGiven = true) :
    (call.outcome data).registry.Keyed := by
  cases hcall : call.registers with
  | false => exact keyed_kept h (call_kept hcall)
  | true =>
      cases call with
      | register o body => exact keyed_register h (bne_iff_ne.mp hid)
      | heartbeat | approve | disable | delete | setPrimary | setHost | setPool | enrollment
          | sweep =>
          cases hcall

namespace KeyedRegistry

/-- A registry without agents. -/
def empty (glob : Option Fields) (rest : Fields) : KeyedRegistry where
  document := ⟨∅, glob, rest⟩
  keyed := by
    intro id a ha
    cases ha

/-- The registry after a request. -/
def next (reg : KeyedRegistry) (call : {call : Call // call.idGiven = true}) : KeyedRegistry where
  document := (call.val.outcome reg.document).registry
  keyed := keyed_call reg.keyed call.property

end KeyedRegistry

end Requests

end SystemsManager.Registry
