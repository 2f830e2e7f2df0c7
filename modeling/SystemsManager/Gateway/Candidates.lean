import Mathlib.Data.Prod.Lex
import SystemsManager.Python.Ordering
import SystemsManager.Registry.Resolution

/-!
# The candidates of a gateway request

`_candidates` lists the agents that a request is tried on: the resolved primary, then the pool, then
the default, each once; then the live ones are put first, and among them a chosen primary and those
that serve the model. To a request (`Gateway/Requests.lean`) the list is the answer of an operation.
Read `candidates_right`, which gives the list in terms of these sources.
-/

namespace SystemsManager.Gateway

open Python Registry

section Candidates

variable (providers : Dict String ProviderSpec) (m : Moment) (data : Document)

/-- `_default_agent` -/
def defaultAgent (pk : String) : Option Registry.Fields :=
  (data.resolveAgentById (defaultAgentIdFor providers data pk) "").or
    (primaryAgent providers data pk)

/-- `_resolve_target`, from the turn of the pool, without the name of what was overridden -/
def resolveTarget (turn : ℕ) (pk modelId agentId : String) (allowPool : Bool) :
    Option Registry.Fields × ℕ :=
  match pinnedAgent providers m data pk modelId with
  | some pinned => (some pinned, turn)
  | none => match data.resolveAgentById agentId (capabilityKeyOf providers pk) with
    | some a => (some a, turn)
    | none =>
        if allowPool && hasPool providers pk then
          match pickAgent providers m data turn pk with
          | (some a, next) => (some a, next)
          | (none, next) => (defaultAgent providers data pk, next)
        else (defaultAgent providers data pk, turn)

/-- `_add`; the ids that were seen are those of the list. -/
def add (ordered : List Registry.Fields) (agent : Option Registry.Fields) : List Registry.Fields :=
  match agent with
  | none => ordered
  | some a =>
      if agentIdOf a ≠ "" ∧ agentIdOf a ∉ ordered.map agentIdOf then ordered ++ [a] else ordered

/-- `_explicit_primary_id`; an empty text is `None`. -/
def explicitPrimaryId (primary : Option Registry.Fields)
    (agentId provider modelId : String) : String :=
  let pid := (primary.map agentIdOf).getD ""
  if pid = "" then ""
  else if agentId ≠ "" ∧ pid = agentId then pid
  else if (pinnedAgent providers m data provider modelId).map agentIdOf = some pid then pid
  else ""

/-- The primary of a request, and the next turn of the pool. -/
def primaryOf (turn : ℕ) (modelId agentId provider : String) (advanceRr : Bool) :
    Option Registry.Fields × ℕ :=
  if advanceRr ∨ modelId ≠ "" ∨ agentId ≠ "" then
    resolveTarget providers m data turn provider modelId agentId advanceRr
  else (none, turn)

/-- The ids of the pool, if there is one, and of the default. -/
def candidateIds (provider : String) : List String :=
  let ids := if hasPool providers provider then data.pool provider else []
  let did := defaultAgentIdFor providers data provider
  if did = "" then ids else ids ++ [did]

/-- `_serving_agent_ids`, from the serving index -/
def servingAgentIds (serving : Dict String (List String))
    (provider modelId : String) : List String :=
  (serving.get? (provider ++ ":" ++ modelId)).getD []

/-- `_candidates`, with the next turn of the pool -/
def candidates (serving : Dict String (List String)) (turn : ℕ) (modelId agentId provider : String)
    (advanceRr : Bool) : List Registry.Fields × ℕ :=
  let picked := primaryOf providers m data turn modelId agentId provider advanceRr
  let cap := capabilityKeyOf providers provider
  let ordered := (candidateIds providers data provider).foldl
    (fun ordered aid => add ordered (data.resolveAgentById aid cap)) (add [] picked.1)
  let live := ordered.filter m.live
  let rest := ordered.filter fun a => !m.live a
  let srv := if modelId = "" then [] else servingAgentIds serving provider modelId
  if srv = [] then (live ++ rest, picked.2)
  else
    let explicit := explicitPrimaryId providers m data picked.1 agentId provider modelId
    (sortedBy (fun a => toLex (agentIdOf a != explicit, !srv.contains (agentIdOf a)))
      live ++ rest, picked.2)

end Candidates

section Specification

variable (providers : Dict String ProviderSpec) (m : Moment) (reg : KeyedRegistry)

/-- The agent is approved and has the capability of the provider. -/
def Eligible (provider : String) (a : Registry.Fields) : Prop :=
  isApproved a = true ∧ (capabilityKeyOf providers provider = "" ∨
    hasCapability a (capabilityKeyOf providers provider) = true)

/-- The sources of the candidates in their order: the primary, the pool, and the default. -/
def sources (primary : Option Registry.Fields) (provider : String) : List Registry.Fields :=
  primary.toList ++ (candidateIds providers reg.document provider).filterMap fun aid =>
    reg.document.resolveAgentById aid (capabilityKeyOf providers provider)

/-- The agent is the primary, and it is pinned or was asked for. -/
def chosen (primary : Option Registry.Fields) (modelId agentId provider : String)
    (a : Registry.Fields) : Bool :=
  primary.map agentIdOf = some (agentIdOf a) &&
    (agentId = agentIdOf a ||
      (pinnedAgent providers m reg.document provider modelId).map agentIdOf = some (agentIdOf a))

/-- The agent serves the model, by the index. -/
def servesModel (serving : Dict String (List String)) (modelId provider : String)
    (a : Registry.Fields) : Bool :=
  modelId ≠ "" && (servingAgentIds serving provider modelId).contains (agentIdOf a)

end Specification

section Proofs

variable {providers : Dict String ProviderSpec} {m : Moment} {reg : KeyedRegistry}

variable {a : Registry.Fields}

theorem found_resolved {id capability : String}
    (h : reg.document.resolveAgentById id capability = some a) : agentIdOf a = id ∧ reg.Found a :=
  KeyedRegistry.found_of_get (KeyedRegistry.resolve_eq_some.mp h).1

theorem found_target {turn : ℕ} {pk modelId agentId : String} {allowPool : Bool}
    (h : (resolveTarget providers m reg.document turn pk modelId agentId allowPool).1 = some a) :
    reg.Found a := by
  have hdefault : ∀ {b : Registry.Fields}, defaultAgent providers reg.document pk = some b →
      reg.Found b := by
    intro b hb
    unfold defaultAgent at hb
    rcases Option.or_eq_some_iff.mp hb with hb | ⟨-, hb⟩
    · exact (found_resolved hb).2
    · exact KeyedRegistry.found_primary hb
  unfold resolveTarget at h
  split at h
  · rename_i pinned hpinned
    cases h
    exact (KeyedRegistry.found_pinned hpinned).1
  · split at h
    · rename_i b hb
      cases h
      exact (found_resolved hb).2
    · split at h
      · split at h
        · rename_i b next hpick
          cases h
          exact KeyedRegistry.found_picked (congrArg Prod.fst hpick)
        · exact hdefault h
      · exact hdefault h

variable {modelId agentId provider : String}

theorem found_primary_of {turn : ℕ} {advanceRr : Bool}
    (h : (primaryOf providers m reg.document turn modelId agentId provider advanceRr).1 = some a) :
    reg.Found a := by
  unfold primaryOf at h
  split at h
  · exact found_target h
  · cases h

variable {primary : Option Registry.Fields}

theorem found_sources (hprimary : ∀ a, primary = some a → reg.Found a)
    (h : a ∈ sources providers reg primary provider) : reg.Found a := by
  rcases List.mem_append.mp h with h | h
  · exact hprimary a (Option.mem_toList.mp h)
  · obtain ⟨aid, -, haid⟩ := List.mem_filterMap.mp h
    exact (found_resolved haid).2

variable {values : List Registry.Fields}

theorem add_found (h : reg.Found a) :
    add (distinctBy agentIdOf values) (some a) = distinctBy agentIdOf (values ++ [a]) := by
  rw [distinct_by_concat]
  unfold add
  dsimp only
  by_cases hmem : agentIdOf a ∈ (distinctBy agentIdOf values).map agentIdOf
  · rw [if_pos hmem, if_neg fun hnew => hnew.2 hmem]
  · rw [if_neg hmem, if_pos ⟨h.id_ne, hmem⟩]

theorem add_option {agent : Option Registry.Fields} (h : ∀ a, agent = some a → reg.Found a) :
    add (distinctBy agentIdOf values) agent = distinctBy agentIdOf (values ++ agent.toList) := by
  cases agent with
  | none =>
      rw [Option.toList_none, List.append_nil]
      rfl
  | some a => exact add_found (h a rfl)

theorem fold_add {ids : List String} {capability : String} (values : List Registry.Fields) :
    ids.foldl (fun ordered aid => add ordered (reg.document.resolveAgentById aid capability))
        (distinctBy agentIdOf values) =
      distinctBy agentIdOf (values ++ ids.filterMap fun aid =>
        reg.document.resolveAgentById aid capability) := by
  induction ids generalizing values with
  | nil => rw [List.foldl_nil, List.filterMap_nil, List.append_nil]
  | cons aid ids ih =>
      rw [List.foldl_cons, add_option fun a ha => (found_resolved ha).2, ih, List.append_assoc]
      rw [List.filterMap_cons]
      cases reg.document.resolveAgentById aid capability with
      | none => rfl
      | some a => rfl

theorem chosen_is_first :
    (distinctBy agentIdOf (primary.toList ++ values)).filter
          (chosen providers m reg primary modelId agentId provider) ++
        (distinctBy agentIdOf (primary.toList ++ values)).filter
          (fun a => !chosen providers m reg primary modelId agentId provider a) =
      distinctBy agentIdOf (primary.toList ++ values) := by
  have hother : ∀ tail : List Registry.Fields,
      (∀ a ∈ tail, primary.map agentIdOf ≠ some (agentIdOf a)) →
      tail.filter (chosen providers m reg primary modelId agentId provider) = [] ∧
        tail.filter (fun a => !chosen providers m reg primary modelId agentId provider a) =
          tail := by
    intro tail htail
    have hnot : ∀ a ∈ tail, chosen providers m reg primary modelId agentId provider a = false := by
      intro a ha
      unfold chosen
      rw [decide_eq_false (htail a ha)]
      exact Bool.false_and ..
    rw [List.filter_eq_nil_iff, List.filter_eq_self]
    refine ⟨fun a ha => ?_, fun a ha => ?_⟩
    · rw [hnot a ha]
      exact Bool.false_ne_true
    · rw [hnot a ha]
      rfl
  cases primary with
  | none =>
      obtain ⟨hnone, hall⟩ := hother (distinctBy agentIdOf values) fun _ _ => by rintro ⟨⟩
      rw [Option.toList_none, List.nil_append, hnone, hall]
      rfl
  | some first =>
      rw [Option.toList_some, List.singleton_append, distinctBy]
      obtain ⟨hnone, hall⟩ := hother ((distinctBy agentIdOf values).filter fun a =>
          agentIdOf a ≠ agentIdOf first) fun a ha heq =>
        of_decide_eq_true (List.mem_filter.mp ha).2 (Option.some.inj heq).symm
      cases hfirst : chosen providers m reg (some first) modelId agentId provider first with
      | true =>
          rw [List.filter_cons_of_pos hfirst, List.filter_cons_of_neg (by
            rw [hfirst]; decide), hnone, hall]
          rfl
      | false =>
          rw [List.filter_cons_of_neg (by
            rw [hfirst]; decide), List.filter_cons_of_pos (by rw [hfirst]; rfl),
            hnone, hall]
          rfl

theorem explicit_iff_chosen (ha : reg.Found a) :
    agentIdOf a = explicitPrimaryId providers m reg.document primary agentId provider modelId ↔
      chosen providers m reg primary modelId agentId provider a = true := by
  have hid := ha.id_ne
  unfold explicitPrimaryId chosen
  rw [Bool.and_eq_true, Bool.or_eq_true, decide_eq_true_eq, decide_eq_true_eq, decide_eq_true_eq]
  cases primary with
  | none =>
      rw [Option.map_none, Option.getD_none, if_pos rfl]
      exact ⟨fun h => absurd h hid, fun h => (by cases h.1)⟩
  | some p =>
      rw [Option.map_some, Option.getD_some]
      dsimp only
      rw [Option.some.injEq]
      by_cases hsame : agentIdOf p = agentIdOf a
      · rw [hsame, if_neg hid]
        by_cases hasked : agentId = agentIdOf a
        · rw [if_pos ⟨hasked ▸ hid, hasked.symm⟩]
          exact ⟨fun _ => ⟨rfl, Or.inl hasked⟩, fun _ => rfl⟩
        · rw [if_neg fun h => hasked h.2.symm]
          by_cases hpinned : (pinnedAgent providers m reg.document provider modelId).map agentIdOf =
              some (agentIdOf a)
          · rw [if_pos hpinned]
            exact ⟨fun _ => ⟨rfl, Or.inr hpinned⟩, fun _ => rfl⟩
          · rw [if_neg hpinned]
            exact ⟨fun h => absurd h hid, fun h => (h.2.elim hasked hpinned).elim⟩
      · refine ⟨fun h => ?_, fun h => absurd h.1 hsame⟩
        split at h
        · exact absurd h hid
        · split at h
          · exact absurd h.symm hsame
          · split at h
            · exact absurd h.symm hsame
            · exact absurd h hid

theorem key_lt {a b : Bool × Bool} (h : a.1 < b.1 ∨ a.1 = b.1 ∧ a.2 < b.2) : toLex a < toLex b :=
  Prod.Lex.lt_iff.mpr h

theorem sorted_candidates (values : List Registry.Fields) (explicit : String) (srv : List String) :
    sortedBy (fun a => toLex (agentIdOf a != explicit, !srv.contains (agentIdOf a))) values =
      values.filter (fun a => agentIdOf a == explicit) ++
        ((values.filter fun a => !(agentIdOf a == explicit)).filter (fun a =>
          srv.contains (agentIdOf a)) ++
          (values.filter fun a => !(agentIdOf a == explicit)).filter fun a =>
            !srv.contains (agentIdOf a)) := by
  have hfirst : sortedBy (fun a => toLex (agentIdOf a != explicit, !srv.contains (agentIdOf a)))
      (values.filter fun a => agentIdOf a == explicit) = values.filter fun a =>
        agentIdOf a == explicit := by
    refine sorted_by_const fun a ha b hb => ?_
    rw [beq_iff_eq.mp (List.mem_filter.mp ha).2, beq_iff_eq.mp (List.mem_filter.mp hb).2]
  have hpart : ∀ part : List Registry.Fields,
      (∀ a ∈ part, (agentIdOf a == explicit) = false) → ∀ b : Bool,
      (∀ a ∈ part, srv.contains (agentIdOf a) = b) →
      sortedBy (fun a => toLex (agentIdOf a != explicit, !srv.contains (agentIdOf a)))
        part = part := by
    intro part hother b hb
    refine sorted_by_const fun a ha c hc => ?_
    rw [hb a ha, hb c hc]
    unfold bne
    rw [hother a ha, hother c hc]
  have hother : ∀ a ∈ values.filter fun a => !(agentIdOf a == explicit),
      (agentIdOf a == explicit) = false :=
    fun a ha => (Bool.not_eq_true' _).mp (List.mem_filter.mp ha).2
  have hrest : sortedBy (fun a => toLex (agentIdOf a != explicit, !srv.contains (agentIdOf a)))
        (values.filter fun a => !(agentIdOf a == explicit)) =
      (values.filter fun a => !(agentIdOf a == explicit)).filter (fun a =>
        srv.contains (agentIdOf a)) ++
        (values.filter fun a => !(agentIdOf a == explicit)).filter fun a =>
          !srv.contains (agentIdOf a) := by
    rw [sorted_by_split (p := fun a => srv.contains (agentIdOf a)) fun a ha b hb hsrv hnot => key_lt
      (Or.inr ⟨?_, ?_⟩)]
    · refine congrArg₂ (· ++ ·) (hpart _ (fun a ha => hother a (List.mem_filter.mp ha).1) true
        fun a ha => (List.mem_filter.mp ha).2)
          (hpart _ (fun a ha => hother a (List.mem_filter.mp ha).1) false
          fun a ha => (Bool.not_eq_true' _).mp (List.mem_filter.mp ha).2)
    · show (agentIdOf a != explicit) = (agentIdOf b != explicit)
      unfold bne
      rw [hother a ha, hother b hb]
    · show (!srv.contains (agentIdOf a)) < !srv.contains (agentIdOf b)
      rw [hsrv, hnot]
      decide
  rw [sorted_by_split (p := fun a => agentIdOf a == explicit) fun a _ b _ hexplicit hnot =>
    key_lt (Or.inl ?_),
    hfirst, hrest]
  show (agentIdOf a != explicit) < (agentIdOf b != explicit)
  unfold bne
  rw [hexplicit, hnot]
  decide

end Proofs

/-- The candidates of a request: each agent is listed once; they are the primary and the approved,
capable agents of the pool and the default; and their order is: the live ones before the others, and
among the live ones a chosen primary, then those that serve the model, then the rest, each in the
order of the sources. -/
theorem candidates_right (providers : Dict String ProviderSpec) (m : Moment) (reg : KeyedRegistry)
    (serving : Dict String (List String)) (turn : ℕ) (modelId agentId provider : String)
    (advanceRr : Bool) :
    let listed :=
    (candidates providers m reg.document serving turn modelId agentId provider advanceRr).1
    let primary := (primaryOf providers m reg.document turn modelId agentId provider advanceRr).1
    let all := distinctBy agentIdOf (sources providers reg primary provider)
    let live := all.filter m.live
    let others := live.filter fun a => !chosen providers m reg primary modelId agentId provider a
    (listed.map agentIdOf).Nodup ∧
      (∀ a, a ∈ listed ↔ primary = some a ∨ ∃ id ∈ candidateIds providers reg.document provider,
        reg.document.agents.get? id = some a ∧ Eligible providers provider a) ∧
      listed = live.filter (chosen providers m reg primary modelId agentId provider) ++
        (others.filter (servesModel serving modelId provider) ++
          others.filter (fun a => !servesModel serving modelId provider a)) ++
        all.filter fun a => !m.live a := by
  intro listed primary all live others
  have hfound : ∀ a ∈ all, reg.Found a := fun a ha =>
    found_sources (fun _ => found_primary_of) ((distinct_by_sublist _).subset ha)
  have hordered : (candidateIds providers reg.document provider).foldl
      (fun ordered aid => add ordered
        (reg.document.resolveAgentById aid (capabilityKeyOf providers provider)))
      (add [] primary) = all := by
    have hprimary : add (distinctBy agentIdOf []) primary =
      distinctBy agentIdOf ([] ++ primary.toList) :=
      add_option fun _ => found_primary_of
    exact (congrArg (List.foldl _ · _) hprimary).trans (fold_add _)
  have hlive : live.filter (chosen providers m reg primary modelId agentId provider) ++
    others = live := by
    have hfirst : all.filter (chosen providers m reg primary modelId agentId provider) ++
        all.filter (fun a => !chosen providers m reg primary modelId agentId provider a) = all :=
      chosen_is_first
    have hboth := congrArg (List.filter m.live) hfirst
    rw [List.filter_append, List.filter_filter, List.filter_filter] at hboth
    show (all.filter m.live).filter _ ++ (all.filter m.live).filter _ = all.filter m.live
    rw [List.filter_filter, List.filter_filter, ← hboth]
    refine congrArg₂ (· ++ ·) (List.filter_congr fun a _ => Bool.and_comm ..)
      (List.filter_congr fun a _ => Bool.and_comm ..)
  have horder : listed = live.filter (chosen providers m reg primary modelId agentId provider) ++
      (others.filter (servesModel serving modelId provider) ++
        others.filter (fun a => !servesModel serving modelId provider a)) ++
      all.filter fun a => !m.live a := by
    show (candidates providers m reg.document serving turn modelId agentId provider advanceRr).1 = _
    unfold candidates
    dsimp only
    rw [hordered]
    by_cases hsrv : (if modelId = "" then [] else servingAgentIds serving provider modelId) = []
    · -- the index has nobody for the model, so that nobody serves it
      have hnobody : ∀ a ∈ others, servesModel serving modelId provider a = false := by
        intro a _
        unfold servesModel
        by_cases hmodel : modelId = ""
        · rw [decide_eq_false (not_not.mpr hmodel), Bool.false_and]
        · rw [if_neg hmodel] at hsrv
          rw [hsrv]
          exact Bool.and_false _
      have hnone : others.filter (servesModel serving modelId provider) = [] := by
        rw [List.filter_eq_nil_iff]
        intro a ha
        rw [hnobody a ha]
        exact Bool.false_ne_true
      have hall : others.filter (fun a => !servesModel serving modelId provider a) = others := by
        rw [List.filter_eq_self]
        intro a ha
        rw [hnobody a ha]
        rfl
      rw [if_pos hsrv, hnone, hall, List.nil_append, hlive]
    · have hmodel : modelId ≠ "" := fun hmodel => hsrv (if_pos hmodel)
      rw [if_neg hsrv, if_neg hmodel, sorted_candidates]
      have hchosen : ∀ a ∈ live,
        (agentIdOf a == explicitPrimaryId providers m reg.document primary agentId
          provider modelId) = chosen providers m reg primary modelId agentId provider a := by
        intro a ha
        rw [Bool.eq_iff_iff, beq_iff_eq]
        exact explicit_iff_chosen (hfound a (List.mem_filter.mp ha).1)
      have hserves : ∀ a, (servingAgentIds serving provider modelId).contains (agentIdOf a) =
          servesModel serving modelId provider a := by
        intro a
        unfold servesModel
        rw [decide_eq_true hmodel, Bool.true_and]
      have hothers : live.filter (fun a =>
        !(agentIdOf a == explicitPrimaryId providers m reg.document
          primary agentId provider modelId)) = others :=
        List.filter_congr fun a ha => by rw [hchosen a ha]
      dsimp only
      rw [List.filter_congr hchosen, hothers]
      simp only [hserves]
  have hperm : listed.Perm all := by
    rw [horder]
    refine List.Perm.trans (List.Perm.append_right _ ?_) (List.filter_append_perm m.live all)
    refine List.Perm.trans (List.Perm.append_left _ ?_) (List.Perm.of_eq hlive)
    exact List.filter_append_perm (servesModel serving modelId provider) others
  refine ⟨(hperm.map agentIdOf).nodup_iff.mpr (nodup_distinct_by _), fun a => ?_, horder⟩
  have hsources : ∀ b ∈ sources providers reg primary provider, reg.Found b :=
    fun b => found_sources fun _ => found_primary_of
  rw [hperm.mem_iff, mem_distinct_by fun b hb c hc => (hsources b hb).eq (hsources c hc)]
  unfold sources Eligible
  rw [List.mem_append, Option.mem_toList, List.mem_filterMap]
  simp only [KeyedRegistry.resolve_eq_some]

/-- A registration from the machine of the manager, which is approved at once. -/
def localAgent (id hostname : String) : Registry.Call :=
  .register
    { remote := "127.0.0.1", authorization := "", tooLarge := false, rateLimited := false
      gateProblem := none, enrollmentOpen := false, loopback := true, newId := id
      newToken := id ++ "-token", nowIso := "t0" }
    (some (.dict [("hostname", .str hostname), ("os", .str "linux"),
      ("capabilities", .dict [("lms", .bool true)])]))

/-- A heartbeat of an agent. -/
def beatOf (id : String) : Registry.Call :=
  .heartbeat
    { token := id ++ "-token", nowIso := "t1", data := .dict [], flushDue := false
      capabilitiesChanged := false, ack := [] } (.dict [])

/-- Three agents in the pool of their provider, of which the second and the third send heartbeats.
-/
def threeAgents : KeyedRegistry :=
  ([⟨localAgent "a1" "h1", rfl⟩, ⟨localAgent "a2" "h2", rfl⟩, ⟨localAgent "a3" "h3", rfl⟩,
    ⟨.setPool "a1" "lms" (.dict []), rfl⟩, ⟨.setPool "a2" "lms" (.dict []), rfl⟩,
    ⟨.setPool "a3" "lms" (.dict []), rfl⟩, ⟨beatOf "a2", rfl⟩, ⟨beatOf "a3", rfl⟩] :
      List {call : Registry.Call // call.idGiven = true}).foldl KeyedRegistry.next
    (KeyedRegistry.empty (some []) [])

/-- Every heartbeat is fresh. -/
def freshBeats : Moment where
  age _ := some 1
  downAfter := 90
  staleAfter := 60

/-- The provider of LM Studio, as far as it is looked at. -/
def lmsProviders : Dict String ProviderSpec :=
  (∅ : Dict String ProviderSpec).set "lms" { capabilityKey := "lms", defaultPicker := "pool" }

/-- The third agent serves the model. -/
def servedByThird : Dict String (List String) :=
  (∅ : Dict String (List String)).set "lms:m" ["a3"]

/-- Of three agents in the pool, the live one that serves the model comes first, then the other live
one, which the pool gave, and then the one that is down; each comes once. -/
theorem candidates_of_three :
    let listed := (candidates lmsProviders freshBeats threeAgents.document servedByThird 0 "m" ""
      "lms" true).1
    (listed.map agentIdOf).Nodup ∧ listed.map agentIdOf = ["a3", "a2", "a1"] :=
  ⟨(candidates_right lmsProviders freshBeats threeAgents servedByThird 0 "m" "" "lms" true).1,
    by decide +kernel⟩

end SystemsManager.Gateway
