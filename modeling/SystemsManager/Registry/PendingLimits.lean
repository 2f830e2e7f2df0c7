import SystemsManager.Registry.Admin
import Mathlib.Data.List.Perm.Subperm

/-!
# Limits of the pending registrations

Registrations wait for an administrator, so their number is limited, in all and for each address.
Both are checked where a record is added. A registration that re-authenticates to a pending record
also takes it to the address that it comes from, by design, and `Watched` notes the records that
were moved so. Read `pending_limited`: in every run from a registry without agents the number of
pending records is limited, and the limit of an address and the uniqueness of host name, operating
system and address hold of the records that were never moved. `moved_over_the_limit` is a run in
which records are moved to an address that has its full number of them.
-/

namespace SystemsManager.Registry

open Python

/-- A registry, and the records that a re-registration has moved to another address. -/
structure Watched where
  reg : Document
  moved : String → Bool

/-- A record is moved by a request that leaves another address on it. -/
def Watched.noteMoved (w : Watched) (after : Document) : String → Bool := fun agentId =>
  match w.reg.agents.get? agentId, after.agents.get? agentId with
  | some before, some agent => w.moved agentId ||
      (getItem before "registered_from").str? != (getItem agent "registered_from").str?
  | _, _ => false

/-- One request. -/
def Watched.next (w : Watched) (call : Call) : Watched where
  reg := (call.outcome w.reg).registry
  moved := w.noteMoved (call.outcome w.reg).registry

/-- A run of requests. -/
def Watched.run (w : Watched) : List Call → Watched
  | [] => w
  | call :: rest => (w.next call).run rest

/-- A registry without agents. -/
def Watched.empty (global : Option Fields) (rest : Fields) : Watched :=
  ⟨⟨∅, global, rest⟩, fun _ => false⟩

/-- A pending record that was never moved. -/
def Watched.unmoved (w : Watched) (agentId : String) (agent : Fields) : Bool :=
  pending agent && !w.moved agentId

section Counts

variable {reg after : Document} {p q : String → Fields → Bool}

/-- The ids of the records that pass a test. -/
def Document.ids (reg : Document) (p : String → Fields → Bool) : List String :=
  (reg.agents.filter p).keys

theorem mem_ids {aid : String} : aid ∈ reg.ids p ↔
    ∃ agent, reg.agents.get? aid = some agent ∧ p aid agent = true := by
  unfold Document.ids
  rw [Dict.mem_keys_iff, Dict.get?_filter]
  cases reg.agents.get? aid with
  | none => simp
  | some agent => by_cases hp : p aid agent = true <;> simp [Option.filter, hp]

theorem length_ids : (reg.ids p).length = reg.agents.items.countP fun item => p item.1 item.2 := by
  unfold Document.ids Dict.keys Dict.filter
  rw [List.length_map, List.countP_eq_length_filter]

theorem length_ids_le (h : ∀ aid ∈ after.ids q, aid ∈ reg.ids p) :
    (after.ids q).length ≤ (reg.ids p).length :=
  ((Dict.keys_nodup _).subperm h).length_le

theorem length_ids_succ (new : String) (h : ∀ aid ∈ after.ids q, aid = new ∨ aid ∈ reg.ids p) :
    (after.ids q).length ≤ (reg.ids p).length + 1 := by
  have hsub : after.ids q ⊆ new :: reg.ids p := fun aid haid => List.mem_cons.mpr (h aid haid)
  exact ((Dict.keys_nodup _).subperm hsub).length_le

end Counts

/-- What a request leaves of a record that it does not add: no record waits again, and only the
address may change. -/
structure Kept (before agent : Fields) : Prop where
  agentId : getItem agent "agent_id" = getItem before "agent_id"
  waits : pending agent = true → pending before = true
  hostname : getItem agent "hostname" = getItem before "hostname"
  os : getItem agent "os" = getItem before "os"
  address : getItem agent "registered_from" = getItem before "registered_from" ∨
    ∃ remote, getItem agent "registered_from" = .str remote

/-- Every record of a registry was there before. -/
def AllKept (reg after : Document) : Prop :=
  ∀ aid agent, after.agents.get? aid = some agent →
    ∃ before, reg.agents.get? aid = some before ∧ Kept before agent

section Records

variable {before agent : Fields} {reg after : Document} {key : String} {value : Json}

theorem Kept.refl : Kept agent agent := ⟨rfl, id, rfl, rfl, Or.inl rfl⟩

/-- The fields that `Kept` is about. -/
def KEPT_FIELDS : List String := ["agent_id", "status", "hostname", "os", "registered_from"]

theorem Kept.write (h : Kept before agent) (hkey : key ∉ KEPT_FIELDS) :
    Kept before (setItems key value agent) := by
  have hother : ∀ kept ∈ KEPT_FIELDS, getItem (setItems key value agent) kept =
    getItem agent kept := by
    intro kept hkept
    rw [get_item_set, if_neg]
    rintro rfl
    exact hkey hkept
  constructor
  · rw [hother "agent_id" (by decide)]
    exact h.agentId
  · unfold pending
    rw [hother "status" (by decide)]
    exact h.waits
  · rw [hother "hostname" (by decide)]
    exact h.hostname
  · rw [hother "os" (by decide)]
    exact h.os
  · rw [hother "registered_from" (by decide)]
    exact h.address

/-- A status that is not pending. -/
theorem Kept.decide_status (h : Kept before agent) (hvalue : isText value "pending" = false) :
    Kept before (setItems "status" value agent) := by
  constructor
  · rw [get_item_set, if_neg (by decide)]
    exact h.agentId
  · unfold pending
    rw [get_item_set, if_pos rfl, hvalue]
    exact fun hfalse => nomatch hfalse
  · rw [get_item_set, if_neg (by decide)]
    exact h.hostname
  · rw [get_item_set, if_neg (by decide)]
    exact h.os
  · rw [get_item_set, if_neg (by decide)]
    exact h.address

/-- The address of the caller. -/
theorem Kept.take_address (h : Kept before agent) {remote : String} :
    Kept before (setItems "registered_from"
      (orElse (.str remote) (orElse (getItem agent "registered_from") (.str ""))) agent) := by
  constructor
  · rw [get_item_set, if_neg (by decide)]
    exact h.agentId
  · unfold pending
    rw [get_item_set, if_neg (by decide)]
    exact h.waits
  · rw [get_item_set, if_neg (by decide)]
    exact h.hostname
  · rw [get_item_set, if_neg (by decide)]
    exact h.os
  · rw [get_item_set, if_pos rfl]
    unfold orElse
    split
    · exact Or.inr ⟨remote, rfl⟩
    · split
      · exact h.address
      · exact Or.inr ⟨"", rfl⟩

theorem Kept.beaten {beat : Beat} {body : Fields} : Kept agent (beaten beat body agent) := by
  have htimes : Kept agent (setItems "last_heartbeat_data" beat.data
      (setItems "last_heartbeat" (.str beat.nowIso) agent)) :=
    (Kept.refl.write (by decide)).write (by decide)
  have htaken : ∀ {live}, Kept agent live → Kept agent (takeVersion body live) := by
    intro live hlive
    unfold takeVersion
    split
    · split
      · exact hlive.write (by decide)
      · exact (hlive.write (by decide)).write (by decide)
    · exact hlive
  unfold Registry.beaten takeCapabilities
  split
  · split
    · exact (htaken htimes).write (by decide)
    · exact htaken htimes
  · exact htaken htimes

theorem Kept.refreshed {o : Outside} {body : Fields} : Kept agent (refreshed o body agent) := by
  have hcopy : ∀ {live key}, Kept agent live → key ∉ KEPT_FIELDS →
      Kept agent (copyField body key live) := fun h hkey => h.write hkey
  have hfields : Kept agent (copyField body "version" (setItems "fingerprint"
      (orElse (getItemD body "fingerprint" (.str "")) (orElse (getItem (setItems "bind_url"
        (getItemD body "bind_url" (.str "")) agent) "fingerprint") (.str "")))
      (setItems "bind_url" (getItemD body "bind_url" (.str "")) agent))) :=
    hcopy ((Kept.refl.write (by decide)).write (by decide)) (by decide)
  have hrest : ∀ {live}, Kept agent live → Kept agent (copyField body "image_gen_port"
      (copyField body "role" (copyField body "agent_user" (copyField body "capabilities"
        (copyField body "description" live))))) := by
    intro live hlive
    refine hcopy (hcopy (hcopy (hcopy (hcopy hlive ?_) ?_) ?_) ?_) ?_
    all_goals decide
  unfold Registry.refreshed
  dsimp only
  split
  · exact (hrest (hfields.write (by decide))).take_address.write (by decide)
  · exact (hrest hfields).take_address.write (by decide)

theorem Kept.approved {approval : Approval} : Kept agent (approved approval agent) := by
  have hrest : ∀ {live}, Kept agent live → Kept agent (setItems "approved_by" approval.remote
      (setItems "approved_at" (.str approval.nowIso) (setItems "status" (.str "approved") live))) :=
    fun hlive => ((hlive.decide_status (by decide)).write (by decide)).write (by decide)
  unfold Registry.approved
  dsimp only
  split
  · exact hrest Kept.refl
  · exact hrest (Kept.refl.write (by decide))

/-- A write to one record. -/
theorem all_kept_set {agentId : String} (hget : reg.agents.get? agentId = some before)
    (hkept : Kept before agent) (hafter : after.agents = reg.agents.set agentId agent) :
    AllKept reg after := by
  intro aid other hother
  rw [hafter, Dict.get?_set] at hother
  split at hother
  · rename_i haid
    subst haid
    obtain rfl := Option.some.inj hother
    exact ⟨before, hget, hkept⟩
  · exact ⟨other, hother, .refl⟩

/-- The removal of records. -/
theorem all_kept_filter {p : String → Fields → Bool} (hafter : after.agents = reg.agents.filter p) :
    AllKept reg after := by
  intro aid other hother
  rw [hafter, Dict.get?_filter] at hother
  exact ⟨other, (Option.filter_eq_some_iff.mp hother).1, .refl⟩

theorem all_kept_same (hafter : after.agents = reg.agents) : AllKept reg after := by
  intro aid other hother
  rw [hafter] at hother
  exact ⟨other, hother, .refl⟩

end Records

section Calls

variable {reg : Document}

theorem reconcile_agents : reg.reconcile.agents = reg.agents := by
  unfold Document.reconcile
  split <;> rfl

variable {agentId : String} {body : Json}

theorem set_primary_agents : (setPrimary agentId body reg).registry.agents = reg.agents := by
  unfold setPrimary
  split
  · split
    · rfl
    · dsimp only
      split
      · rfl
      · split
        · rfl
        · split
          · rfl
          · split
            · split <;> rfl
            · rfl
  · rfl

theorem set_host_agents : (setHost agentId body reg).registry.agents = reg.agents := by
  unfold setHost
  split
  · dsimp only
    split
    · split
      · rfl
      · split <;> rfl
    · split <;> rfl
  · rfl

theorem set_pool_agents {agentId provider : String} :
    (setPool agentId provider body reg).registry.agents = reg.agents := by
  unfold setPool
  split
  · unfold setPoolMembership
    dsimp only
    split
    · rfl
    · rfl
    · split <;> rfl
  · rfl

theorem enrollment_agents {window : Window} :
    (enrollment window body reg).registry.agents = reg.agents := by
  unfold enrollment
  split
  · dsimp only
    split <;> rfl
  · rfl

/-- The ways in which a request changes the records. -/
inductive Changed (reg after : Document) : Prop where
  | kept (hkept : AllKept reg after)
  | added (o : Outside) (fields : Fields) (hostname os : String)
      (hother : ∀ item ∈ reg.matches_ hostname os, fromAddress o.remote item.2 = false)
      (hcap : o.loopback = true ∨ capReached o.remote reg = false)
      (hafter : after.agents = reg.agents.set o.newId (newAgent o fields hostname os))

theorem register_changed {o : Outside} {body : Option Json} :
    Changed reg (register o body reg).registry := by
  cases @register_cases o body reg with
  | refused hregistry _ _ =>
      rw [hregistry]
      exact .kept (all_kept_same rfl)
  | again fields hostname os agentId agent _ hfound houtcome =>
      rw [houtcome]
      have hget : reg.agents.get? agentId = some agent := matches_get (find_existing_mem hfound).1
      exact .kept (all_kept_set hget .refreshed rfl)
  | added fields hostname os _ _ hother hcap houtcome =>
      rw [houtcome]
      exact .added o fields hostname os hother hcap rfl

theorem heartbeat_kept {beat : Beat} : AllKept reg (heartbeat beat body reg).registry := by
  cases @heartbeat_cases beat body reg with
  | refused hregistry _ =>
      rw [hregistry]
      exact all_kept_same rfl
  | taken agentId body live hlive hregistry =>
      rw [hregistry]
      exact all_kept_set hlive .beaten rfl
  | halfway agentId live hlive hregistry _ =>
      rw [hregistry]
      exact all_kept_set hlive (Kept.refl.write (by decide)) rfl

theorem approve_kept {approval : Approval} :
    AllKept reg (approve approval agentId reg).registry := by
  unfold approve
  dsimp only
  split
  · exact all_kept_same rfl
  rename_i hlive
  split
  · exact all_kept_set (get_of_live hlive) .approved rfl
  · exact all_kept_set (get_of_live hlive) .approved rfl

theorem disable_kept : AllKept reg (disable agentId reg).registry := by
  unfold disable
  dsimp only
  split
  · exact all_kept_same rfl
  · rename_i hlive
    exact all_kept_set (get_of_live hlive) (Kept.refl.decide_status (by decide)) rfl

theorem delete_kept : AllKept reg (delete agentId reg).registry := by
  unfold delete
  split
  · exact all_kept_filter (p := fun other _ => other != agentId) reconcile_agents
  · exact all_kept_same rfl

/-- The request is a registration. -/
def Call.registers : Call → Bool
  | .register _ _ => true
  | _ => false

/-- Only a registration adds a record. -/
theorem call_kept {call : Call} (h : call.registers = false) :
    AllKept reg (call.outcome reg).registry := by
  cases call with
  | register o body => cases h
  | heartbeat beat body => exact heartbeat_kept
  | approve approval agentId => exact approve_kept
  | disable agentId => exact disable_kept
  | delete agentId => exact delete_kept
  | setPrimary agentId body => exact all_kept_same set_primary_agents
  | setHost agentId body => exact all_kept_same set_host_agents
  | setPool agentId provider body => exact all_kept_same set_pool_agents
  | enrollment w body => exact all_kept_same enrollment_agents
  | sweep expired =>
      exact all_kept_filter (p := fun _ agent =>
        !(pending agent && expired (lastRegister agent))) rfl

theorem call_changed {call : Call} : Changed reg (call.outcome reg).registry := by
  cases hcall : call.registers with
  | false => exact .kept (call_kept hcall)
  | true =>
      cases call with
      | register o body => exact register_changed
      | heartbeat | approve | disable | delete | setPrimary | setHost | setPool | enrollment
          | sweep =>
          cases hcall

end Calls

/-- The record of an agent that registered names its machine and its address as texts. -/
structure Named (agent : Fields) : Prop where
  hostname : ∃ text, getItem agent "hostname" = .str text
  os : ∃ text, getItem agent "os" = .str text
  address : ∃ text, getItem agent "registered_from" = .str text

/-- The machine and the address of two records are the same. -/
def SameOrigin (agent other : Fields) : Prop :=
  getItem agent "hostname" = getItem other "hostname" ∧ getItem agent "os" = getItem other "os" ∧
    getItem agent "registered_from" = getItem other "registered_from"

/-- The limits, as every request keeps them. -/
structure Limited (w : Watched) : Prop where
  named : ∀ aid agent, w.reg.agents.get? aid = some agent → Named agent
  total : (w.reg.ids fun _ agent => pending agent).length ≤ REG_PENDING_MAX
  perAddress : ∀ address, (w.reg.ids fun aid agent => w.unmoved aid agent &&
    fromAddress address agent).length ≤ REG_PENDING_PER_ADDR
  distinct : ∀ aid agent other otherAgent, w.reg.agents.get? aid = some agent →
    w.reg.agents.get? other = some otherAgent → w.unmoved aid agent = true →
    w.unmoved other otherAgent = true → SameOrigin agent otherAgent → aid = other

section Steps

variable {w : Watched} {call : Call} {aid : String} {before agent : Fields}

theorem Named.kept (hnamed : Named before) (hkept : Kept before agent) : Named agent := by
  constructor
  · rw [hkept.hostname]
    exact hnamed.hostname
  · rw [hkept.os]
    exact hnamed.os
  · rcases hkept.address with hsame | hremote
    · rw [hsame]
      exact hnamed.address
    · exact hremote

theorem unmoved_before (hget : w.reg.agents.get? aid = some before)
    (hafter : (w.next call).reg.agents.get? aid = some agent) (hbefore : Named before)
    (hagent : Named agent) (hwaits : pending agent = true → pending before = true)
    (h : (w.next call).unmoved aid agent = true) :
    w.unmoved aid before = true ∧
      getItem agent "registered_from" = getItem before "registered_from" := by
  obtain ⟨hpending, hmoved⟩ := Bool.and_eq_true_iff.mp h
  have hmoved : (w.next call).moved aid = false := by simpa using hmoved
  have hmoved : w.noteMoved (w.next call).reg aid = false := hmoved
  unfold Watched.noteMoved at hmoved
  rw [hget, hafter] at hmoved
  obtain ⟨hbeforeMoved, hsame⟩ := Bool.or_eq_false_iff.mp hmoved
  refine ⟨Bool.and_eq_true_iff.mpr ⟨hwaits hpending, by simpa using hbeforeMoved⟩, ?_⟩
  obtain ⟨from_, hfrom⟩ := hbefore.address
  obtain ⟨to_, hto⟩ := hagent.address
  rw [hfrom, hto] at hsame
  have hsame : from_ = to_ := by simpa [Json.str?] using hsame
  rw [hfrom, hto, hsame]

theorem limited_kept (h : Limited w) (hkept : AllKept w.reg (w.next call).reg) :
    Limited (w.next call) := by
  have hnamed : ∀ aid agent, (w.next call).reg.agents.get? aid = some agent → Named agent := by
    intro aid agent hget
    obtain ⟨before, hbefore, hrecord⟩ := hkept aid agent hget
    exact (h.named aid before hbefore).kept hrecord
  have hold : ∀ {aid agent}, (w.next call).reg.agents.get? aid = some agent →
      (w.next call).unmoved aid agent = true → ∃ before, w.reg.agents.get? aid = some before ∧
        w.unmoved aid before = true ∧ SameOrigin agent before := by
    intro aid agent hget hunmoved
    obtain ⟨before, hbefore, hrecord⟩ := hkept aid agent hget
    obtain ⟨hwas, hsame⟩ := unmoved_before hbefore hget (h.named aid before hbefore)
      (hnamed aid agent hget) hrecord.waits hunmoved
    exact ⟨before, hbefore, hwas, hrecord.hostname, hrecord.os, hsame⟩
  constructor
  · exact hnamed
  · refine (length_ids_le fun aid haid => ?_).trans h.total
    obtain ⟨agent, hget, hpending⟩ := mem_ids.mp haid
    obtain ⟨before, hbefore, hrecord⟩ := hkept aid agent hget
    exact mem_ids.mpr ⟨before, hbefore, hrecord.waits hpending⟩
  · intro address
    refine (length_ids_le fun aid haid => ?_).trans (h.perAddress address)
    obtain ⟨agent, hget, htest⟩ := mem_ids.mp haid
    obtain ⟨hunmoved, hfrom⟩ := Bool.and_eq_true_iff.mp htest
    obtain ⟨before, hbefore, hwas, -, -, hsame⟩ := hold hget hunmoved
    refine mem_ids.mpr ⟨before, hbefore, Bool.and_eq_true_iff.mpr ⟨hwas, ?_⟩⟩
    unfold fromAddress
    rw [← hsame]
    exact hfrom
  · intro aid agent other otherAgent hget hother hunmoved hotherUnmoved hsame
    obtain ⟨before, hbefore, hwas, hhost, hos, haddr⟩ := hold hget hunmoved
    obtain ⟨otherBefore, hotherBefore, hotherWas, hotherHost, hotherOs, hotherAddr⟩ :=
      hold hother hotherUnmoved
    refine h.distinct aid before other otherBefore hbefore hotherBefore hwas hotherWas ⟨?_, ?_, ?_⟩
    · rw [← hhost, hsame.1, hotherHost]
    · rw [← hos, hsame.2.1, hotherOs]
    · rw [← haddr, hsame.2.2, hotherAddr]

section Added

variable {o : Outside} {fields : Fields} {hostname os : String}

theorem Named.newAgent : Named (newAgent o fields hostname os) :=
  ⟨⟨hostname, rfl⟩, ⟨os, rfl⟩, ⟨o.remote, rfl⟩⟩

theorem pending_new : pending (newAgent o fields hostname os) = !o.loopback := by
  show isText (.str (if o.loopback then "approved" else "pending")) "pending" = _
  cases o.loopback <;> decide

/-- The address of a new record. -/
theorem from_address_new {address : String} :
    fromAddress address (newAgent o fields hostname os) = decide (o.remote = address) := by
  show isText (orElse (.str o.remote) (.str "")) address = _
  unfold orElse isText
  split
  · simp [Json.str?]
  · rename_i hempty
    have hempty : o.remote = "" := by simpa [Json.truthy] using hempty
    simp [Json.str?, hempty]

theorem room_of_cap {reg : Document} {remote : String} (h : capReached remote reg = false) :
    (reg.ids fun _ agent => pending agent).length < REG_PENDING_MAX ∧
    (reg.ids fun _ agent => pending agent && fromAddress remote agent).length <
      REG_PENDING_PER_ADDR := by
  unfold capReached at h
  obtain ⟨htotal, haddress⟩ := Bool.or_eq_false_iff.mp h
  have htotal : ¬REG_PENDING_MAX ≤ _ := of_decide_eq_false htotal
  have haddress : ¬REG_PENDING_PER_ADDR ≤ _ := of_decide_eq_false haddress
  rw [List.countP_filter] at haddress
  rw [length_ids, length_ids, List.countP_eq_length_filter]
  refine ⟨by omega, ?_⟩
  have hcount : (reg.agents.items.countP fun item => pending item.2 && fromAddress remote item.2) =
      reg.agents.items.countP fun item => fromAddress remote item.2 && pending item.2 :=
    List.countP_congr fun item _ => by rw [Bool.and_comm]
  omega

/-- A request that adds a record keeps the limits. -/
theorem limited_added (h : Limited w)
    (hother : ∀ item ∈ w.reg.matches_ hostname os, fromAddress o.remote item.2 = false)
    (hcap : o.loopback = true ∨ capReached o.remote w.reg = false)
    (hafter : (w.next call).reg.agents = w.reg.agents.set o.newId (newAgent o fields hostname os)) :
    Limited (w.next call) := by
  have hlookup : ∀ {aid agent}, (w.next call).reg.agents.get? aid = some agent →
      aid = o.newId ∧ agent = newAgent o fields hostname os ∨
        aid ≠ o.newId ∧ w.reg.agents.get? aid = some agent := by
    intro aid agent hget
    rw [hafter, Dict.get?_set] at hget
    split at hget
    · rename_i haid
      exact Or.inl ⟨haid, (Option.some.inj hget).symm⟩
    · rename_i haid
      exact Or.inr ⟨haid, hget⟩
  have hnamed : ∀ aid agent, (w.next call).reg.agents.get? aid = some agent → Named agent := by
    intro aid agent hget
    rcases hlookup hget with ⟨-, rfl⟩ | ⟨-, hwas⟩
    · exact .newAgent
    · exact h.named aid agent hwas
  -- A record that was there before is unmoved now only if it was unmoved before.
  have hold : ∀ {aid agent}, (w.next call).reg.agents.get? aid = some agent →
      w.reg.agents.get? aid = some agent → (w.next call).unmoved aid agent = true →
      w.unmoved aid agent = true := fun hget hwas hunmoved =>
    (unmoved_before hwas hget (h.named _ _ hwas) (h.named _ _ hwas) id hunmoved).1
  have hroom : pending (newAgent o fields hostname os) = true →
      (w.reg.ids fun _ agent => pending agent).length < REG_PENDING_MAX ∧
      (w.reg.ids fun _ agent => pending agent && fromAddress o.remote agent).length <
        REG_PENDING_PER_ADDR := by
    intro hpending
    rw [pending_new] at hpending
    rcases hcap with hloopback | hcap
    · rw [hloopback] at hpending
      cases hpending
    · exact room_of_cap hcap
  -- No record of the machine waits at the address of the new one.
  have hfree : ∀ {aid agent}, w.reg.agents.get? aid = some agent →
      ¬SameOrigin agent (newAgent o fields hostname os) := by
    intro aid agent hget hsame
    have hmatches : (aid, agent) ∈ w.reg.matches_ hostname os := by
      refine List.mem_filter.mpr ⟨Dict.mem_items_iff.mpr hget, Bool.and_eq_true_iff.mpr ⟨?_, ?_⟩⟩
      · rw [hsame.1]
        exact decide_eq_true rfl
      · rw [hsame.2.1]
        exact decide_eq_true rfl
    have hfrom : fromAddress o.remote agent = true := by
      unfold fromAddress
      rw [hsame.2.2]
      exact from_address_new.trans (decide_eq_true rfl)
    rw [hother _ hmatches] at hfrom
    cases hfrom
  constructor
  · exact hnamed
  · by_cases hpending : pending (newAgent o fields hostname os) = true
    · refine (length_ids_succ (p := fun _ agent => pending agent) o.newId fun aid haid => ?_).trans
        (hroom hpending).1
      obtain ⟨agent, hget, hwaits⟩ := mem_ids.mp haid
      rcases hlookup hget with ⟨haid, -⟩ | ⟨-, hwas⟩
      · exact Or.inl haid
      · exact Or.inr (mem_ids.mpr ⟨agent, hwas, hwaits⟩)
    · refine (length_ids_le fun aid haid => ?_).trans h.total
      obtain ⟨agent, hget, hwaits⟩ := mem_ids.mp haid
      rcases hlookup hget with ⟨-, rfl⟩ | ⟨-, hwas⟩
      · exact absurd hwaits hpending
      · exact mem_ids.mpr ⟨agent, hwas, hwaits⟩
  · intro address
    by_cases hnew : pending (newAgent o fields hostname os) = true ∧ o.remote = address
    · obtain ⟨hpending, rfl⟩ := hnew
      refine (length_ids_succ (p := fun _ agent => pending agent && fromAddress o.remote agent)
        o.newId fun aid haid => ?_).trans (hroom hpending).2
      obtain ⟨agent, hget, htest⟩ := mem_ids.mp haid
      obtain ⟨hunmoved, hfrom⟩ := Bool.and_eq_true_iff.mp htest
      rcases hlookup hget with ⟨haid, -⟩ | ⟨-, hwas⟩
      · exact Or.inl haid
      · exact Or.inr (mem_ids.mpr ⟨agent, hwas, Bool.and_eq_true_iff.mpr
          ⟨(Bool.and_eq_true_iff.mp hunmoved).1, hfrom⟩⟩)
    · refine (length_ids_le fun aid haid => ?_).trans (h.perAddress address)
      obtain ⟨agent, hget, htest⟩ := mem_ids.mp haid
      obtain ⟨hunmoved, hfrom⟩ := Bool.and_eq_true_iff.mp htest
      rcases hlookup hget with ⟨-, rfl⟩ | ⟨-, hwas⟩
      · rw [from_address_new] at hfrom
        exact absurd ⟨(Bool.and_eq_true_iff.mp hunmoved).1, of_decide_eq_true hfrom⟩ hnew
      · exact mem_ids.mpr ⟨agent, hwas, Bool.and_eq_true_iff.mpr ⟨hold hget hwas hunmoved, hfrom⟩⟩
  · intro aid agent other otherAgent hget hotherGet hunmoved hotherUnmoved hsame
    rcases hlookup hget with ⟨haid, rfl⟩ | ⟨-, hwas⟩
    · rcases hlookup hotherGet with ⟨hotherId, -⟩ | ⟨-, hotherWas⟩
      · rw [haid, hotherId]
      · exact absurd ⟨hsame.1.symm, hsame.2.1.symm, hsame.2.2.symm⟩ (hfree hotherWas)
    · rcases hlookup hotherGet with ⟨-, rfl⟩ | ⟨-, hotherWas⟩
      · exact absurd hsame (hfree hwas)
      · exact h.distinct aid agent other otherAgent hwas hotherWas (hold hget hwas hunmoved)
          (hold hotherGet hotherWas hotherUnmoved) hsame

end Added

theorem limited_next (h : Limited w) : Limited (w.next call) := by
  have hchanged : Changed w.reg (w.next call).reg := call_changed
  cases hchanged with
  | kept hkept => exact limited_kept h hkept
  | added o fields hostname os hother hcap hafter => exact limited_added h hother hcap hafter

theorem limited_run (h : Limited w) (calls : List Call) : Limited (w.run calls) := by
  induction calls generalizing w with
  | nil => exact h
  | cons call rest ih => exact ih (limited_next h)

theorem limited_empty {global : Option Fields} {rest : Fields} : Limited (.empty global rest) := by
  constructor
  · intro aid agent hget
    cases hget
  · exact Nat.zero_le _
  · exact fun _ => Nat.zero_le _
  · intro aid agent other otherAgent hget
    cases hget

end Steps

/-- From a registry without agents, after every run of requests: the pending records are at most
`_REG_PENDING_MAX`; those of one address that were never moved from another one are at most
`_REG_PENDING_PER_ADDR`; and no two pending records that were never moved share host name, operating
system and address. -/
theorem pending_limited (global : Option Fields) (rest : Fields) (calls : List Call) :
    let w := (Watched.empty global rest).run calls
    (w.reg.agents.items.countP fun item => pending item.2) ≤ REG_PENDING_MAX ∧
    (∀ address, (w.reg.agents.items.countP fun item =>
      pending item.2 && !w.moved item.1 && fromAddress address item.2) ≤ REG_PENDING_PER_ADDR) ∧
    ∀ aid agent other otherAgent, w.reg.agents.get? aid = some agent →
      w.reg.agents.get? other = some otherAgent → pending agent = true → pending otherAgent = true →
      w.moved aid = false → w.moved other = false → SameOrigin agent otherAgent → aid = other := by
  intro w
  have h : Limited w := limited_run limited_empty calls
  refine ⟨?_, fun address => ?_, ?_⟩
  · rw [← length_ids (p := fun _ agent => pending agent)]
    exact h.total
  · rw [← length_ids (p := fun aid agent => pending agent && !w.moved aid &&
      fromAddress address agent)]
    exact h.perAddress address
  · intro aid agent other otherAgent hget hother hpending hotherPending hmoved hotherMoved hsame
    refine h.distinct aid agent other otherAgent hget hother ?_ ?_ hsame
    · unfold Watched.unmoved
      rw [hpending, hmoved]
      rfl
    · unfold Watched.unmoved
      rw [hotherPending, hotherMoved]
      rfl

section Moved

/-- A registration of a Linux machine while enrollment is open. -/
def registration (hostname remote newId : String) : Call :=
  .register ⟨remote, "", false, false, none, true, false, newId, "", "2026-09-01T00:00:00"⟩
    (some (.dict [("hostname", .str hostname), ("os", .str "linux"),
      ("fingerprint", .str ("fp of " ++ newId))]))

/-- The same machine registers again from another address, with its fingerprint. -/
def fromElsewhere (hostname remote agentId : String) : Call :=
  .register ⟨remote, "", false, false, none, true, false, "", "", "2026-09-01T01:00:00"⟩
    (some (.dict [("hostname", .str hostname), ("os", .str "linux"),
      ("fingerprint", .str ("fp of " ++ agentId))]))

/-- Ten machines register at one address, and one of their names at another, which then moves to
the first. -/
def movedOver : List Call :=
  (["h0", "h1", "h2", "h3", "h4", "h5", "h6", "h7", "h8", "h9"].map fun hostname =>
    registration hostname "10.0.0.1" hostname) ++
    [registration "h0" "10.0.0.2" "x0", fromElsewhere "h0" "10.0.0.1" "x0"]

/-- Then eleven pending records carry the first address, and two of them the same host name,
operating system and address. -/
theorem moved_over_the_limit :
    let reg := ((Watched.empty none []).run movedOver).reg
    (reg.agents.items.countP fun item => pending item.2 && fromAddress "10.0.0.1" item.2) = 11 ∧
    (reg.agents.items.filter fun item => pending item.2 && fromAddress "10.0.0.1" item.2 &&
      isText (getItem item.2 "hostname") "h0" &&
        isText (getItem item.2 "os") "linux").map Prod.fst =
      ["h0", "x0"] := by
  decide +kernel

end Moved

end SystemsManager.Registry
