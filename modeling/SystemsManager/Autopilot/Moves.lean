import Mathlib.Logic.Relation
import SystemsManager.Python.Loop
import SystemsManager.Autopilot.Plan

/-!
# What a plan can do

`Move inp` lists everything that a step of either pass does to the pass state: note the
observed placements of an entry, place an entry on an agent that admits it and does not hold
it yet, or reclaim a copy. `plan_moves` turns every plan into a sequence of moves from the
initial state, so that a property of plans is an induction over three cases.
-/

namespace SystemsManager.Autopilot

open Python Relation

theorem key_inj {e e' : Entry} (h : e.key = e'.key) : e.Same e' := by
  have hlist := congrArg (fun s => s.toList.reverse) h
  unfold Entry.Same
  cases hp : e.provider <;> cases hp' : e'.provider <;>
    simp [Entry.key, Provider.name, hp, hp', String.toList_append] at hlist ⊢
  all_goals exact String.toList_inj.mp hlist

theorem Entry.Same.key_eq {e e' : Entry} (h : e.Same e') : e.key = e'.key := by
  unfold Entry.key
  rw [h.1, h.2]

theorem mem_priority_order {desired : Desired} {e : Entry} :
    e ∈ priorityOrder desired ↔ e ∈ desired.entries :=
  mem_sorted_by

/-- The kind puts a model on an agent. -/
def ActionKind.places : ActionKind → Bool
  | .load => true
  | .scaleUp => true
  | .wake => false
  | .scaleDown => false

/-- The entry may get a new replica in this plan: replicas are missing and no dwell blocks, or
there is room between its bounds. -/
def Inputs.Wants (inp : Inputs) (e : Entry) : Prop :=
  ((inp.effective e).length < e.minReplicas ∧
    dwellBlocks e.key inp.ledger.placedAt inp.observed inp.now = false) ∨
  (e.minReplicas ≤ (inp.effective e).length ∧ (inp.effective e).length < e.maxReplicas)

/-- The checks of a placement that do not depend on what the plan did before. -/
structure Inputs.Eligible (inp : Inputs) (e : Entry) (aid : String) : Prop where
  not_backing_off : inp.backingOff e = false
  wants : inp.Wants e
  candidate : aid ∈ baseCandidates e inp.observed
  not_placed : aid ∉ inp.effective e

/-- One step of a pass. -/
inductive Move (inp : Inputs) : PassState → PassState → Prop where
  | note (st : PassState) (k : String) (placed : List String) :
      Move inp st { st with observedByK := st.observedByK.set k placed }
  | place (st : PassState) (e : Entry) (kind : ActionKind) (purpose reason aid : String)
      (migrations : Int) :
      e ∈ inp.desired.entries → kind.places = true → inp.Eligible e aid →
      admits inp e st.budgets aid = true →
      Move inp st { placement inp e kind purpose reason st aid with migrations := migrations }
  | reclaim (st : PassState) (act : Action) :
      act.kind = .scaleDown →
      Move inp st
        { st with actions := st.actions ++ [act], touched := st.touched ++ [act.agentId] }

/-- The action with which an entry is placed. -/
def placeAction (inp : Inputs) (e : Entry) (kind : ActionKind) (reason aid : String) : Action where
  kind := kind
  provider := e.provider
  model := e.model
  agentId := aid
  reason := reason
  auto := mayAuto e inp.desired
  entryKey := e.key

/-- Waking a host places nothing. -/
theorem wake_first_places {inp : Inputs} {e : Entry} {aid purpose : String} {act : Action}
    (h : act ∈ wakeFirst inp e aid purpose) : act.kind.places = false := by
  unfold wakeFirst at h
  split at h
  · split at h
    · rw [List.mem_singleton.mp h]
      rfl
    · cases h
  · cases h

theorem mem_placement {inp : Inputs} {e : Entry} {kind : ActionKind} {purpose reason aid : String}
    {st : PassState} {act : Action} (h : act ∈ (placement inp e kind purpose reason st aid).actions)
    (hplaces : act.kind.places = true) :
    act ∈ st.actions ∨ act = placeAction inp e kind reason aid := by
  simp only [placement, List.mem_append, List.mem_singleton] at h
  rcases h with (h | h) | h
  · exact .inl h
  · rw [wake_first_places h] at hplaces
    cases hplaces
  · exact .inr h

/-- Any number of steps. -/
abbrev Moves (inp : Inputs) : PassState → PassState → Prop := ReflTransGen (Move inp)

variable {inp : Inputs} {e : Entry}

variable {acc acc' : PassState × List String} {isFailover : Bool}

theorem load_candidate_cases {aid : String}
    (h : loadCandidate inp e isFailover acc aid = .ok acc') :
    (acc' = acc ∧ (e.minReplicas ≤ acc.2.length ∨ aid ∈ acc.2 ∨
      failoverCapped inp isFailover acc.1 = true ∨ admits inp e acc.1.budgets aid = false)) ∨
    (acc.2.length < e.minReplicas ∧ aid ∉ acc.2 ∧ admits inp e acc.1.budgets aid = true ∧
      failoverCapped inp isFailover acc.1 = false ∧
      ∃ reason, acc' =
        ({ placement inp e .load "placement" reason acc.1 aid with
            migrations := if isFailover then acc.1.migrations + 1 else acc.1.migrations },
          acc.2 ++ [aid])) := by
  obtain ⟨st, placed⟩ := acc
  simp only [loadCandidate] at h
  split at h
  · rename_i hfull
    cases h
    exact .inl ⟨rfl, .inl hfull⟩
  · rename_i hshort
    split at h
    · rename_i hskip
      simp only [Bool.or_eq_true, List.contains_eq_mem, decide_eq_true_eq,
        Bool.not_eq_true', or_assoc] at hskip
      cases h
      exact .inl ⟨rfl, .inr hskip⟩
    · rename_i hskip
      simp only [Bool.or_eq_true, List.contains_eq_mem, decide_eq_true_eq, Bool.not_eq_true',
        not_or, Bool.not_eq_true, Bool.not_eq_false] at hskip
      rw [bind_eq_ok] at h
      obtain ⟨reason, -, h⟩ := h
      cases h
      exact .inr ⟨not_le.mp hshort, hskip.1.1, hskip.2, hskip.1.2, reason, rfl⟩

theorem load_candidate_moves {aid : String} (he : e ∈ inp.desired.entries)
    (hback : inp.backingOff e = false) (hwants : inp.Wants e)
    (haid : aid ∈ baseCandidates e inp.observed) (hplaced : ∀ a ∈ inp.effective e, a ∈ acc.2)
    (h : loadCandidate inp e isFailover acc aid = .ok acc') :
    Moves inp acc.1 acc'.1 ∧ ∀ a ∈ inp.effective e, a ∈ acc'.2 := by
  obtain ⟨rfl, -⟩ | ⟨-, hnew, hadmits, -, reason, rfl⟩ := load_candidate_cases h
  · exact ⟨.refl, hplaced⟩
  · refine ⟨.single (.place acc.1 e .load "placement" reason aid _ he rfl
      ⟨hback, hwants, haid, ?_⟩ hadmits), ?_⟩
    · intro hmem
      exact hnew (hplaced aid hmem)
    · intro a ha
      exact List.mem_append_left _ (hplaced a ha)

variable {st st' : PassState}

/-- What one entry of the load pass does: nothing while it backs off, else note its placements
and, when replicas are missing and no dwell blocks, run the loop over its candidates. -/
theorem load_entry_cases (h : loadEntry inp st e = .ok st') :
    (inp.backingOff e = true ∧ st' = st) ∨
    (inp.backingOff e = false ∧
      (e.minReplicas ≤ (inp.effective e).length ∨
        dwellBlocks e.key inp.ledger.placedAt inp.observed inp.now = true) ∧
      st' = notePlacements inp st e) ∨
    (inp.backingOff e = false ∧ (inp.effective e).length < e.minReplicas ∧
      dwellBlocks e.key inp.ledger.placedAt inp.observed inp.now = false ∧
      ∃ cands placed, inp.candidates e = .ok cands ∧
        cands.foldlM (loadCandidate inp e (hasDeadCandidate e cands inp.observed))
          (notePlacements inp st e, inp.effective e) = .ok (st', placed)) := by
  unfold loadEntry at h
  split at h
  · rename_i hback
    cases h
    exact .inl ⟨hback, rfl⟩
  · rename_i hback
    rw [Bool.not_eq_true] at hback
    simp only at h
    split at h
    · rename_i hfull
      cases h
      exact .inr (.inl ⟨hback, .inl hfull, rfl⟩)
    · rename_i hshort
      rw [bind_eq_ok] at h
      obtain ⟨cands, hcands, h⟩ := h
      split at h
      · rename_i hdwell
        cases h
        exact .inr (.inl ⟨hback, .inr hdwell, rfl⟩)
      · rename_i hdwell
        simp only [bind_eq_ok] at h
        obtain ⟨⟨last, placed⟩, hfold, h⟩ := h
        cases h
        exact .inr (.inr ⟨hback, not_le.mp hshort, by simpa using hdwell, cands, placed, hcands,
          hfold⟩)

theorem load_entry_moves (he : e ∈ inp.desired.entries) (h : loadEntry inp st e = .ok st') :
    Moves inp st st' := by
  have hnote : Move inp st (notePlacements inp st e) := .note st e.key _
  obtain ⟨-, rfl⟩ | ⟨-, -, rfl⟩ | ⟨hback, hshort, hdwell, cands, placed, hcands, hfold⟩ :=
    load_entry_cases h
  · exact .refl
  · exact .single hnote
  · have hloop := foldlM_ok_const
      (fun acc : PassState × List String =>
        Moves inp (notePlacements inp st e) acc.1 ∧ ∀ a ∈ inp.effective e, a ∈ acc.2)
      hfold ⟨.refl, fun a ha => ha⟩ (by
        intro aid haid acc acc' hI hstep
        obtain ⟨hmoves, hkeep⟩ := load_candidate_moves he hback (.inl ⟨hshort, hdwell⟩)
          ((candidates_perm hcands).mem_iff.mp haid) hI.2 hstep
        exact ⟨hI.1.trans hmoves, hkeep⟩)
    exact .trans (.single hnote) hloop.1

/-- What the load pass has noted: the observed placements of an entry with that key. -/
def Noted (inp : Inputs) (st : PassState) : Prop :=
  ∀ k placed, st.observedByK.get? k = some placed →
    ∃ e ∈ inp.desired.entries, e.key = k ∧ placed = placements e inp.observed

theorem noted_init (inp : Inputs) : Noted inp (initState inp) := by
  rintro k placed ⟨⟩

theorem load_candidate_noted {aid : String}
    (h : loadCandidate inp e isFailover acc aid = .ok acc') :
    acc'.1.observedByK = acc.1.observedByK := by
  obtain ⟨rfl, -⟩ | ⟨-, -, -, -, reason, rfl⟩ := load_candidate_cases h
  · rfl
  · rfl

theorem load_entry_observed (h : loadEntry inp st e = .ok st') :
    st'.observedByK = if inp.backingOff e then st.observedByK
      else st.observedByK.set e.key (placements e inp.observed) := by
  obtain ⟨hback, rfl⟩ | ⟨hback, -, rfl⟩ | ⟨hback, -, -, cands, placed, -, hfold⟩ :=
    load_entry_cases h
  · simp [hback]
  · simp [hback, notePlacements]
  · have hloop := foldlM_ok_const
      (fun acc : PassState × List String =>
        acc.1.observedByK = (notePlacements inp st e).observedByK)
      hfold rfl (by
        intro aid _ acc acc' hI hstep
        rw [load_candidate_noted hstep, hI])
    simpa [hback, notePlacements] using hloop

theorem load_entry_noted (he : e ∈ inp.desired.entries) (hnoted : Noted inp st)
    (h : loadEntry inp st e = .ok st') : Noted inp st' := by
  intro k placed hk
  rw [load_entry_observed h] at hk
  split at hk
  · exact hnoted k placed hk
  · rw [Dict.get?_set] at hk
    split at hk
    · rename_i hkey
      cases hk
      exact ⟨e, he, hkey.symm, rfl⟩
    · exact hnoted k placed hk

/-- Placements depend on the model and the provider only. -/
theorem Entry.Same.placements_eq {e' : Entry} (h : e.Same e') (observed : Observed) :
    placements e observed = placements e' observed := by
  unfold placements
  rw [h.1, h.2]

variable {placed : List String}

theorem Noted.placements_eq (hnoted : Noted inp st) (h : st.observedByK.get? e.key = some placed) :
    placed = placements e inp.observed := by
  obtain ⟨e', -, hkey, rfl⟩ := hnoted _ _ h
  exact (key_inj hkey).placements_eq _

theorem scale_decision_up (h : scaleDecision inp e placed = .ok .up) :
    e.minReplicas ≤ placed.length ∧ placed.length < e.maxReplicas := by
  unfold scaleDecision at h
  split at h
  · cases h
  · split at h
    · cases h
    · rename_i hrange
      rw [not_or, not_le, not_lt] at hrange
      exact ⟨hrange.2, evaluate_autoscale_up h⟩

/-- The decision to scale down leaves more than the minimum, unless the copies exceed the
maximum. -/
theorem scale_decision_down (h : scaleDecision inp e placed = .ok .down) :
    e.maxReplicas < placed.length ∨ e.minReplicas < placed.length := by
  unfold scaleDecision at h
  split at h
  · rename_i hsurplus
    exact .inl hsurplus
  · split at h
    · cases h
    · exact .inr (evaluate_autoscale_down h)

theorem scale_entry_cases (hnoted : Noted inp st) (h : scaleEntry inp st e = .ok st') :
    st' = st ∨
    (∃ aid, inp.Eligible e aid ∧ e.minReplicas ≤ (inp.effective e).length ∧
      aid ∉ st.touched ∧ admits inp e st.budgets aid = true ∧
      st' = placement inp e .scaleUp "scale-up" (e.key ++ ": autoscale up -> " ++ aid) st aid) ∨
    (inp.backingOff e = false ∧ scaleDecision inp e (inp.effective e) = .ok .down ∧
      settled inp (placements e inp.observed) (inp.effective e) = true ∧
      ∃ aid reason,
        scaleDownTarget inp e (placements e inp.observed) st.touched = some aid ∧
        st' = { st with
          actions := st.actions ++
            [{ kind := .scaleDown, provider := e.provider, model := e.model, agentId := aid
               reason := reason, auto := mayAuto e inp.desired, entryKey := e.key }]
          touched := st.touched ++ [aid] }) := by
  unfold scaleEntry at h
  split at h
  · cases h
    exact .inl rfl
  · rename_i hback
    rw [Bool.not_eq_true] at hback
    split at h
    · cases h
    · rename_i observedPlaced hobs
      have hplaced := hnoted.placements_eq hobs
      subst hplaced
      simp only [bind_eq_ok] at h
      obtain ⟨decision, hdecision, h⟩ := h
      cases decision with
      | hold =>
          cases h
          exact .inl rfl
      | up =>
          have hroom := scale_decision_up hdecision
          simp only [scaleUp, bind_eq_ok, pure_eq_ok] at h
          obtain ⟨cands, hcands, h⟩ := h
          split at h
          · rename_i aid hfind
            have hmem := List.mem_of_find?_eq_some hfind
            have hadmit := List.find?_some hfind
            simp only [Bool.and_eq_true, Bool.not_eq_true', List.contains_eq_mem,
              decide_eq_false_iff_not] at hadmit
            exact .inr (.inl ⟨aid,
              ⟨hback, .inr hroom, (candidates_perm hcands).mem_iff.mp hmem, hadmit.1.1⟩,
              hroom.1, hadmit.1.2, hadmit.2, h.symm⟩)
          · exact .inl h.symm
      | down =>
          simp only at h
          split at h
          · rename_i hsettled
            simp only [scaleDown, pure_eq_ok] at h
            split at h
            · exact .inl h.symm
            · split at h
              · exact .inl h.symm
              · rename_i aid htarget
                exact .inr (.inr ⟨hback, hdecision, hsettled, aid, _, htarget, h.symm⟩)
          · cases h
            exact .inl rfl

theorem scale_entry_moves (he : e ∈ inp.desired.entries) (hnoted : Noted inp st)
    (h : scaleEntry inp st e = .ok st') : Moves inp st st' ∧ st'.observedByK = st.observedByK := by
  obtain rfl | ⟨aid, heligible, -, -, hadmits, rfl⟩ | ⟨-, -, -, aid, reason, -, rfl⟩ :=
    scale_entry_cases hnoted h
  · exact ⟨.refl, rfl⟩
  · exact ⟨.single (.place st e .scaleUp _ _ aid st.migrations he rfl heligible hadmits), rfl⟩
  · exact ⟨.single (.reclaim st _ rfl), rfl⟩

theorem passes_moves (h : passes inp = .ok st) : Moves inp (initState inp) st := by
  simp only [passes, bind_eq_ok] at h
  obtain ⟨loaded, hload, hscale⟩ := h
  have hfirst := foldlM_ok_const (fun st => Moves inp (initState inp) st ∧ Noted inp st) hload
    ⟨.refl, noted_init inp⟩ (by
      intro e he st st' hI hstep
      have he' := mem_priority_order.mp he
      exact ⟨hI.1.trans (load_entry_moves he' hstep), load_entry_noted he' hI.2 hstep⟩)
  have hlast := foldlM_ok_const (fun st => Moves inp (initState inp) st ∧ Noted inp st) hscale
    hfirst (by
      intro e he st st' hI hstep
      obtain ⟨hmoves, hobs⟩ := scale_entry_moves (mem_priority_order.mp he) hI.2 hstep
      refine ⟨hI.1.trans hmoves, ?_⟩
      intro k placed hk
      exact hI.2 k placed (hobs ▸ hk))
  exact hlast.1

/-- Every plan is the list of actions of a sequence of moves. -/
theorem plan_moves {desired : Desired} {observed : Observed} {ledger : Ledger} {now : ℚ}
    {acts : List Action} (h : plan desired observed ledger now = .ok acts) :
    ∃ st, Moves ⟨desired, observed, ledger, now⟩ (initState ⟨desired, observed, ledger, now⟩) st ∧
      st.actions = acts := by
  simp only [plan, bind_eq_ok, pure_eq_ok] at h
  obtain ⟨st, hst, hacts⟩ := h
  exact ⟨st, passes_moves hst, hacts⟩

end SystemsManager.Autopilot
