import SystemsManager.Autopilot.Agreement

/-!
# What a plan touches

The planner queues one failover load at most, touches no agent twice in the scale pass, and acts
only on live agents past their cooldown, for entries that are not backing off. The counter of
failover loads and the set of touched agents are carried through both passes; `Disciplined` relates
them to the actions emitted so far. Read `plan_disciplined`.
-/

namespace SystemsManager.Autopilot

open Python

/-- The kind scales an entry. -/
def ActionKind.scales : ActionKind → Bool
  | .scaleUp => true
  | .scaleDown => true
  | .wake => false
  | .load => false

/-- A dead capable candidate makes every load of the entry a failover. -/
def Inputs.deadCandidate (inp : Inputs) (e : Entry) : Bool :=
  hasDeadCandidate e (baseCandidates e inp.observed) inp.observed

/-- The action loads an entry that has a dead capable candidate. An action names its entry by the
key, which only one entry of a validated state has. -/
def Action.failover (inp : Inputs) (act : Action) : Bool :=
  act.kind == .load &&
    inp.desired.entries.all fun e => e.key != act.entryKey || inp.deadCandidate e

/-- The action targets a live agent past its cooldown, for an entry that is not backing off. -/
structure Reached (inp : Inputs) (act : Action) : Prop where
  agent : ∃ a, inp.observed.agents.get? act.agentId = some a ∧ a.live = true
  not_cooling : inp.cooling act.agentId = false
  entry : ∃ e ∈ inp.desired.entries, e.key = act.entryKey ∧ e.provider = act.provider ∧
    e.model = act.model ∧ inp.backingOff e = false

/-- The loads of entries with a dead capable candidate. -/
def failovers (inp : Inputs) (acts : List Action) : List Action :=
  acts.filter fun act => act.failover inp

/-- The scale actions on an agent. -/
def scalesOn (aid : String) (acts : List Action) : List Action :=
  acts.filter fun act => act.kind.scales && act.agentId == aid

/-- The discipline of one plan. The ledger counts the migrations in flight. -/
structure Discipline (inp : Inputs) (acts : List Action) : Prop where
  one_failover : 0 ≤ inp.ledger.inFlightMigrations → (failovers inp acts).length ≤ 1
  no_failover : 1 ≤ inp.ledger.inFlightMigrations → failovers inp acts = []
  one_scale : ∀ aid, (scalesOn aid acts).length ≤ 1
  apart : ∀ act ∈ acts, ∀ act' ∈ acts, act.kind = .load → act'.kind.scales = true →
    act.agentId ≠ act'.agentId
  reached : ∀ act ∈ acts, Reached inp act

/-- What the passes know about the actions emitted so far. -/
structure Disciplined (inp : Inputs) (st : PassState) : Prop where
  counted : ((failovers inp st.actions).length : Int) ≤ st.migrations
  capped : st.migrations ≤ max 0 (1 - inp.ledger.inFlightMigrations)
  touched : ∀ act ∈ st.actions, act.kind ≠ .wake → act.agentId ∈ st.touched
  one_scale : ∀ aid, (scalesOn aid st.actions).length ≤ 1
  apart : ∀ act ∈ st.actions, ∀ act' ∈ st.actions, act.kind = .load → act'.kind.scales = true →
    act.agentId ≠ act'.agentId
  reached : ∀ act ∈ st.actions, Reached inp act

/-- No entry has been scaled yet. -/
def Unscaled (st : PassState) : Prop := ∀ act ∈ st.actions, act.kind.scales = false

variable {inp : Inputs} {e : Entry}

theorem scales_not_wake {kind : ActionKind} (h : kind.scales = true) : kind ≠ .wake := by
  rintro rfl
  cases h

theorem dead_candidate_eq {cands : List String} (h : inp.candidates e = .ok cands) :
    hasDeadCandidate e cands inp.observed = inp.deadCandidate e :=
  (candidates_perm h).any_eq

theorem disciplined_init (inp : Inputs) : Disciplined inp (initState inp) where
  counted := by simp [initState, failovers]
  capped := le_max_left _ _
  touched := by simp [initState]
  one_scale := by simp [initState, scalesOn]
  apart := by simp [initState]
  reached := by simp [initState]

theorem wakes_uncounted (inp : Inputs) {wakes : List Action} (h : ∀ act ∈ wakes, act.kind = .wake)
    (aid : String) :
    failovers inp wakes = [] ∧ scalesOn aid wakes = [] := by
  constructor
  · refine List.filter_eq_nil_iff.mpr fun act hact => ?_
    simp [Action.failover, h act hact]
  · refine List.filter_eq_nil_iff.mpr fun act hact => ?_
    simp [h act hact, ActionKind.scales]

/-- Wakes and one more action keep the discipline, if that action is a load before any scaling, or
a scale action on an agent that was not touched. -/
theorem Disciplined.extend {st st' : PassState} (wakes : List Action) (act : Action)
    (h : Disciplined inp st) (hacts : st'.actions = st.actions ++ wakes ++ [act])
    (htouched : st'.touched = st.touched ++ [act.agentId])
    (hwakes : ∀ w ∈ wakes, w.kind = .wake ∧ Reached inp w) (hreached : Reached inp act)
    (hkind : (act.kind = .load ∧ Unscaled st) ∨
      (act.kind.scales = true ∧ act.agentId ∉ st.touched))
    (hcounted : (failovers inp [act]).length + st.migrations ≤ st'.migrations)
    (hcapped : st'.migrations ≤ max 0 (1 - inp.ledger.inFlightMigrations)) :
    Disciplined inp st' := by
  have hmem : ∀ a ∈ st'.actions, a ∈ st.actions ∨ a ∈ wakes ∨ a = act := by
    intro a ha
    rw [hacts] at ha
    simpa [or_assoc] using ha
  refine ⟨?_, hcapped, ?_, ?_, ?_, ?_⟩
  · have hold := h.counted
    have hnil := (wakes_uncounted inp (fun w hw => (hwakes w hw).1) "").1
    unfold failovers at *
    rw [hacts, List.filter_append, List.filter_append, hnil, List.append_nil, List.length_append]
    omega
  · intro a ha hwake
    rw [htouched]
    rcases hmem a ha with ha | ha | rfl
    · exact List.mem_append_left _ (h.touched a ha hwake)
    · exact absurd (hwakes a ha).1 hwake
    · exact List.mem_append_right _ (List.mem_singleton_self _)
  · intro aid
    have hold := h.one_scale aid
    have hnil := (wakes_uncounted inp (fun w hw => (hwakes w hw).1) aid).2
    have hsplit : scalesOn aid st'.actions = scalesOn aid st.actions ++ scalesOn aid [act] := by
      unfold scalesOn at *
      rw [hacts, List.filter_append, List.filter_append, hnil, List.append_nil]
    rw [hsplit, List.length_append]
    rcases hkind with ⟨hload, -⟩ | ⟨hscales, hnew⟩
    · have hzero : scalesOn aid [act] = [] := by simp [scalesOn, hload, ActionKind.scales]
      rw [hzero]
      simpa using hold
    · by_cases haid : act.agentId = aid
      · -- an earlier scale action on the agent would have touched it
        have hnone : scalesOn aid st.actions = [] := by
          refine List.filter_eq_nil_iff.mpr fun a ha hscale => ?_
          simp only [Bool.and_eq_true, beq_iff_eq] at hscale
          have htouch := h.touched a ha (scales_not_wake hscale.1)
          rw [hscale.2, ← haid] at htouch
          exact hnew htouch
        rw [hnone]
        simp [scalesOn, hscales, haid]
      · have hzero : scalesOn aid [act] = [] := by simp [scalesOn, haid]
        rw [hzero]
        simpa using hold
  · intro a ha a' ha' hload hscale
    rcases hmem a ha with ha | ha | rfl
    · rcases hmem a' ha' with ha' | ha' | rfl
      · exact h.apart a ha a' ha' hload hscale
      · exact absurd (hwakes a' ha').1 (scales_not_wake hscale)
      · rcases hkind with ⟨hkind, -⟩ | ⟨-, hnew⟩
        · rw [hkind] at hscale
          cases hscale
        · have htouch := h.touched a ha (by rw [hload]; decide)
          intro heq
          rw [heq] at htouch
          exact hnew htouch
    · rw [(hwakes a ha).1] at hload
      cases hload
    · rcases hkind with ⟨-, hunscaled⟩ | ⟨hkind, -⟩
      · rcases hmem a' ha' with ha' | ha' | rfl
        · rw [hunscaled a' ha'] at hscale
          cases hscale
        · exact absurd (hwakes a' ha').1 (scales_not_wake hscale)
        · rw [hload] at hscale
          cases hscale
      · rw [hload] at hkind
        cases hkind
  · intro a ha
    rcases hmem a ha with ha | ha | rfl
    · exact h.reached a ha
    · exact (hwakes a ha).2
    · exact hreached

theorem reached_of_admits {b : Budgets} {aid : String} (he : e ∈ inp.desired.entries)
    (hback : inp.backingOff e = false) (hadmits : admits inp e b aid = true) {act : Action}
    (hkey : act.entryKey = e.key) (hprovider : act.provider = e.provider)
    (hmodel : act.model = e.model) (haid : act.agentId = aid) : Reached inp act := by
  subst haid
  simp only [admits, Bool.and_eq_true, Bool.not_eq_true'] at hadmits
  obtain ⟨⟨⟨hsome, hcool⟩, -⟩, hfit⟩ := hadmits
  obtain ⟨a, ha⟩ := Option.isSome_iff_exists.mp hsome
  simp only [fitAndSize, ha, fits, Bool.and_eq_true] at hfit
  exact ⟨⟨a, ha, hfit.1.1.1.2⟩, hcool, e, he, hkey.symm, hprovider.symm, hmodel.symm, hback⟩

theorem reached_wake {b : Budgets} {aid : String} (purpose : String)
    (he : e ∈ inp.desired.entries) (hback : inp.backingOff e = false)
    (hadmits : admits inp e b aid = true) :
    ∀ w ∈ wakeFirst inp e aid purpose, w.kind = .wake ∧ Reached inp w := by
  intro w hw
  refine ⟨(wake_first_mem hw).1, ?_⟩
  unfold wakeFirst at hw
  split at hw
  · split at hw
    · rw [List.mem_singleton.mp hw]
      exact reached_of_admits he hback hadmits rfl rfl rfl rfl
    · cases hw
  · cases hw

theorem load_candidate_disciplined {acc acc' : PassState × List String} {aid : String}
    (he : e ∈ inp.desired.entries) (hback : inp.backingOff e = false)
    (hdisc : Disciplined inp acc.1) (hunscaled : Unscaled acc.1)
    (h : loadCandidate inp e (inp.deadCandidate e) acc aid = .ok acc') :
    Disciplined inp acc'.1 ∧ Unscaled acc'.1 := by
  obtain ⟨rfl, -⟩ | ⟨-, -, hadmits, hcap, reason, rfl⟩ := load_candidate_cases h
  · exact ⟨hdisc, hunscaled⟩
  · have hwakes := reached_wake "placement" he hback hadmits
    constructor
    · refine Disciplined.extend _ (placeAction inp e .load reason aid) hdisc rfl rfl hwakes
        (reached_of_admits he hback hadmits rfl rfl rfl rfl) (Or.inl ⟨rfl, hunscaled⟩) ?_ ?_
      · show _ ≤ if inp.deadCandidate e = true then acc.1.migrations + 1 else acc.1.migrations
        have hone := List.length_filter_le (fun act => act.failover inp)
          [placeAction inp e .load reason aid]
        unfold failovers
        rw [List.length_singleton] at hone
        split
        next hdead => omega
        next hdead =>
            -- the entry itself has no dead candidate
            have hzero : ([placeAction inp e .load reason aid].filter fun act =>
                act.failover inp) = [] := by
              refine List.filter_eq_nil_iff.mpr fun act hact hfail => ?_
              rw [List.mem_singleton.mp hact] at hfail
              simp only [Action.failover, Bool.and_eq_true, List.all_eq_true] at hfail
              have := hfail.2 e he
              simp [placeAction, hdead] at this
            rw [hzero]
            simp
      · show (if inp.deadCandidate e = true then acc.1.migrations + 1 else acc.1.migrations) ≤ _
        have hold := hdisc.capped
        split
        next hdead =>
            simp only [failoverCapped, hdead, Bool.true_and, decide_eq_false_iff_not] at hcap
            omega
        next => exact hold
    · intro act hact
      simp only [placement, List.mem_append, List.mem_singleton] at hact
      rcases hact with (hact | hact) | rfl
      · exact hunscaled act hact
      · rw [(hwakes act hact).1]
        rfl
      · rfl

theorem load_entry_disciplined {st st' : PassState} (he : e ∈ inp.desired.entries)
    (hdisc : Disciplined inp st) (hunscaled : Unscaled st) (h : loadEntry inp st e = .ok st') :
    Disciplined inp st' ∧ Unscaled st' := by
  have hnote : Disciplined inp (notePlacements inp st e) := ⟨hdisc.counted, hdisc.capped,
    hdisc.touched, hdisc.one_scale, hdisc.apart, hdisc.reached⟩
  obtain ⟨-, rfl⟩ | ⟨-, -, rfl⟩ | ⟨hback, -, -, cands, placed, hcands, hfold⟩ := load_entry_cases h
  · exact ⟨hdisc, hunscaled⟩
  · exact ⟨hnote, hunscaled⟩
  · rw [dead_candidate_eq hcands] at hfold
    exact foldlM_ok_const (fun acc : PassState × List String =>
      Disciplined inp acc.1 ∧ Unscaled acc.1) hfold ⟨hnote, hunscaled⟩
      fun aid _ acc acc' hI hstep => load_candidate_disciplined he hback hI.1 hI.2 hstep

theorem scale_down_target_spec {observedPlaced touched : List String} {aid : String}
    (h : scaleDownTarget inp e observedPlaced touched = some aid) :
    (∃ a, inp.observed.agents.get? aid = some a ∧ a.live = true) ∧ aid ∉ touched ∧
      inp.cooling aid = false := by
  have hfound := List.find?_some h
  simp only [Bool.and_eq_true, Bool.not_eq_true', List.contains_eq_mem,
    decide_eq_false_iff_not] at hfound
  obtain ⟨⟨⟨hlive, htouched⟩, -⟩, hcool⟩ := hfound
  refine ⟨?_, htouched, hcool⟩
  split at hlive
  next a ha => exact ⟨a, ha, hlive⟩
  next => cases hlive

theorem scale_entry_disciplined {st st' : PassState} (he : e ∈ inp.desired.entries)
    (hnoted : Noted inp st) (hdisc : Disciplined inp st) (h : scaleEntry inp st e = .ok st') :
    Disciplined inp st' := by
  have hnone : ∀ act : Action, act.kind ≠ .load → failovers inp [act] = [] := by
    intro act hact
    simp [failovers, Action.failover, hact]
  obtain rfl | ⟨aid, heligible, -, hnew, hadmits, rfl⟩ |
    ⟨hback, -, -, aid, reason, htarget, rfl⟩ := scale_entry_cases hnoted h
  · exact hdisc
  · have hback := heligible.not_backing_off
    refine Disciplined.extend _ (placeAction inp e .scaleUp _ aid) hdisc rfl rfl
      (reached_wake "scale-up" he hback hadmits)
      (reached_of_admits he hback hadmits rfl rfl rfl rfl)
      (Or.inr ⟨rfl, hnew⟩) ?_ hdisc.capped
    rw [hnone _ (by simp [placeAction])]
    simp [placement]
  · obtain ⟨hlive, hnew, hcool⟩ := scale_down_target_spec htarget
    refine Disciplined.extend []
      { kind := .scaleDown, provider := e.provider, model := e.model, agentId := aid
        reason := reason, auto := mayAuto e inp.desired, entryKey := e.key }
      hdisc ?_ rfl ?_ ⟨hlive, hcool, e, he, rfl, rfl, rfl, hback⟩ (Or.inr ⟨rfl, hnew⟩) ?_
      hdisc.capped
    · rw [List.append_nil]
    · intro w hw
      cases hw
    · rw [hnone _ (fun hkind => by cases hkind), List.length_nil]
      exact le_of_eq (Int.zero_add _)

theorem passes_disciplined {st : PassState} (h : passes inp = .ok st) : Disciplined inp st := by
  simp only [passes, bind_eq_ok] at h
  obtain ⟨loaded, hload, hscale⟩ := h
  have hfirst := foldlM_ok_const
    (fun st => (Disciplined inp st ∧ Unscaled st) ∧ Noted inp st) hload
    ⟨⟨disciplined_init inp, by simp [Unscaled, initState]⟩, noted_init inp⟩ (by
      intro e he st st' hI hstep
      have he' := mem_priority_order.mp he
      exact ⟨load_entry_disciplined he' hI.1.1 hI.1.2 hstep, load_entry_noted he' hI.2 hstep⟩)
  have hlast := foldlM_ok_const (fun st => Disciplined inp st ∧ Noted inp st) hscale
    ⟨hfirst.1.1, hfirst.2⟩ (by
      intro e he st st' hI hstep
      have he' := mem_priority_order.mp he
      obtain ⟨-, hobs⟩ := scale_entry_moves he' hI.2 hstep
      refine ⟨scale_entry_disciplined he' hI.2 hI.1 hstep, ?_⟩
      intro k placed hk
      exact hI.2 k placed (hobs ▸ hk))
  exact hlast.1

/-- Every plan queues one failover load at most, and none while a migration is in flight; no agent
is scaled twice, or loaded and scaled; every action targets a live agent past its cooldown, for an
entry that is not backing off. -/
theorem plan_disciplined {desired : Desired} {observed : Observed} {ledger : Ledger} {now : ℚ}
    {acts : List Action} (h : plan desired observed ledger now = .ok acts) :
    Discipline ⟨desired, observed, ledger, now⟩ acts := by
  simp only [plan, bind_eq_ok, pure_eq_ok] at h
  obtain ⟨st, hst, rfl⟩ := h
  have hdisc := passes_disciplined hst
  have hcount := hdisc.counted
  have hcap := hdisc.capped
  refine ⟨?_, ?_, hdisc.one_scale, hdisc.apart, hdisc.reached⟩
  · intro hflight
    omega
  · intro hflight
    rw [← List.length_eq_zero_iff]
    omega

/-- A dead host and two live ones, which serve nothing. -/
def deadHostFleet : Observed :=
  llamaFleet ⟨[("a1", { llamaHost [] with live := false, liveness := some .down }),
    ("a2", llamaHost []), ("a3", llamaHost [])], by decide⟩

/-- The failover of `m1` to the first live host. -/
def recoverM1 : Action where
  kind := .load
  provider := .llama
  model := "m1"
  agentId := "a2"
  reason := "failover: m1/llama recovering onto a2"
  auto := false
  entryKey := "m1/llama"

/-- With a dead host, `m1` is recovered, and `m2` waits for the next plan. -/
theorem one_recovery_planned :
    plan shadowedDesired deadHostFleet noLedger 1000 = .ok [recoverM1] ∧
      failovers ⟨shadowedDesired, deadHostFleet, noLedger, 1000⟩ [recoverM1] = [recoverM1] ∧
      Discipline ⟨shadowedDesired, deadHostFleet, noLedger, 1000⟩ [recoverM1] :=
  ⟨by decide +kernel, by decide +kernel, plan_disciplined (by decide +kernel)⟩

end SystemsManager.Autopilot
