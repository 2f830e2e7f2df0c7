import SystemsManager.Autopilot.Eviction

/-!
# The replicas of an entry

Every action of a plan carries the key of the entry it is for, and each pass visits an entry
once, so that the actions of an entry are one block of the load pass followed by one block of
the scale pass. `LoadBlock` and `ScaleBlock` say what such blocks look like, `pass_blocks`
cuts a pass into them, and `plan_replica_bounds` puts the two together.
-/

namespace SystemsManager.Autopilot

open Python

/-- The load actions for an entry. -/
def loadsOf (e : Entry) (acts : List Action) : List Action :=
  acts.filter fun act => act.kind == .load && act.entryKey == e.key

/-- The scale actions for an entry. -/
def scalesOf (e : Entry) (acts : List Action) : List Action :=
  acts.filter fun act =>
    (act.kind == .scaleUp || act.kind == .scaleDown) && act.entryKey == e.key

/-- The agent is observed and live. -/
def Observed.isLive (observed : Observed) (aid : String) : Prop :=
  ∃ a, observed.agents.get? aid = some a ∧ a.live = true

/-- What a plan may do to the replicas of an entry, whose effective placements are
`inp.effective e`. -/
structure ReplicaBounds (inp : Inputs) (acts : List Action) (e : Entry) : Prop where
  /-- The effective placements are a set. -/
  effective_nodup : (inp.effective e).Nodup
  /-- Loads go to distinct agents. -/
  loads_nodup : ((loadsOf e acts).map Action.agentId).Nodup
  /-- Loads go to agents without a copy. -/
  loads_new : ∀ act ∈ loadsOf e acts, act.agentId ∉ inp.effective e
  /-- Loads do not exceed the minimum. -/
  loads_le : ((inp.effective e).length + (loadsOf e acts).length : Int) ≤
    max ((inp.effective e).length : Int) e.minReplicas
  /-- A loaded entry is not scaled. -/
  loads_exclude : loadsOf e acts ≠ [] → scalesOf e acts = []
  /-- An entry is scaled at most once. -/
  scales_le : (scalesOf e acts).length ≤ 1
  /-- A scale-up goes to an agent without a copy and stays within the maximum. -/
  up : ∀ act ∈ scalesOf e acts, act.kind = .scaleUp →
    act.agentId ∉ inp.effective e ∧ ((inp.effective e).length + 1 : Int) ≤ e.maxReplicas
  /-- A scale-down takes an observed, live copy off another than the pinned host, when all
  copies are observed and live, and leaves the minimum. -/
  down : ∀ act ∈ scalesOf e acts, act.kind = .scaleDown →
    act.agentId ∈ placements e inp.observed ∧ inp.observed.isLive act.agentId ∧
    act.agentId ≠ e.placement ∧
    (∀ aid ∈ inp.effective e, aid ∈ placements e inp.observed ∧ inp.observed.isLive aid) ∧
    ((inp.effective e).length - 1 : Int) ≥ e.minReplicas

/-- The loads of a block. -/
def loads (acts : List Action) : List Action :=
  acts.filter fun act => act.kind == .load

/-- What the load pass adds for an entry. -/
structure LoadBlock (inp : Inputs) (e : Entry) (new : List Action) : Prop where
  key : ∀ act ∈ new, act.entryKey = e.key
  kind : ∀ act ∈ new, act.kind = .wake ∨ act.kind = .load
  nodup : (inp.effective e ++ (loads new).map Action.agentId).Nodup
  le : ((inp.effective e).length + (loads new).length : Int) ≤
    max ((inp.effective e).length : Int) e.minReplicas

/-- What the scale pass adds for an entry. -/
structure ScaleBlock (inp : Inputs) (e : Entry) (new : List Action) : Prop where
  key : ∀ act ∈ new, act.entryKey = e.key
  kind : ∀ act ∈ new, act.kind ≠ .load
  le : (scalesOf e new).length ≤ 1
  up : ∀ act ∈ new, act.kind = .scaleUp →
    act.agentId ∉ inp.effective e ∧ e.minReplicas ≤ (inp.effective e).length ∧
      (inp.effective e).length < e.maxReplicas
  down : ∀ act ∈ new, act.kind = .scaleDown →
    act.agentId ∈ placements e inp.observed ∧ inp.observed.isLive act.agentId ∧
    act.agentId ≠ e.placement ∧
    (∀ aid ∈ inp.effective e, aid ∈ placements e inp.observed ∧ inp.observed.isLive aid) ∧
    (e.maxReplicas < (inp.effective e).length ∨ e.minReplicas < (inp.effective e).length)

theorem placements_nodup (e : Entry) (observed : Observed) : (placements e observed).Nodup :=
  (List.filter_sublist.map Prod.fst).nodup observed.agents.nodup

theorem with_fresh_nodup {placed : List String} {k : String} {observed : Observed}
    {ledger : Option Ledger} {now : Option ℚ} (h : placed.Nodup) :
    (withFresh placed k observed ledger now).Nodup := by
  unfold withFresh
  generalize freshPlaced k ledger now = fresh
  induction fresh generalizing placed with
  | nil => exact h
  | cons aid rest ih =>
      rw [List.foldl_cons]
      apply ih
      split
      · rename_i hnew
        simp only [Bool.and_eq_true, Bool.not_eq_true', List.contains_eq_mem,
          decide_eq_false_iff_not] at hnew
        exact List.nodup_append.mpr ⟨h, List.nodup_singleton _, by
          rintro a ha b hb rfl
          rw [List.mem_singleton.mp hb] at ha
          exact hnew.1 ha⟩
      · exact h

/-- The given placements come first. -/
theorem prefix_with_fresh (placed : List String) (k : String) (observed : Observed)
    (ledger : Option Ledger) (now : Option ℚ) :
    placed <+: withFresh placed k observed ledger now := by
  unfold withFresh
  generalize freshPlaced k ledger now = fresh
  induction fresh generalizing placed with
  | nil => exact List.prefix_refl _
  | cons aid rest ih =>
      rw [List.foldl_cons]
      refine List.IsPrefix.trans ?_ (ih _)
      split
      · exact List.prefix_append _ _
      · exact List.prefix_refl _

variable {inp : Inputs} {e : Entry}

theorem effective_nodup : (inp.effective e).Nodup :=
  with_fresh_nodup (placements_nodup e inp.observed)

theorem wake_first_mem {aid purpose : String} {act : Action}
    (h : act ∈ wakeFirst inp e aid purpose) : act.kind = .wake ∧ act.entryKey = e.key := by
  unfold wakeFirst at h
  split at h
  · split at h
    · rw [List.mem_singleton.mp h]
      exact ⟨rfl, rfl⟩
    · cases h
  · cases h

theorem loads_placement (aid purpose reason : String) (kind : ActionKind) :
    loads (wakeFirst inp e aid purpose ++ [placeAction inp e kind reason aid]) =
      if kind = .load then [placeAction inp e kind reason aid] else [] := by
  have hwake : loads (wakeFirst inp e aid purpose) = [] := by
    unfold loads
    rw [List.filter_eq_nil_iff]
    intro act hact
    simp [(wake_first_mem hact).1]
  unfold loads at hwake ⊢
  rw [List.filter_append, hwake, List.nil_append, List.filter_cons, List.filter_nil]
  simp [placeAction]

/-- The loop over an entry's candidates has added the actions `new` to those of `st`, one load
for each agent it has put behind the effective placements. -/
structure Filling (inp : Inputs) (e : Entry) (st : PassState) (acc : PassState × List String)
    (new : List Action) : Prop where
  actions : acc.1.actions = st.actions ++ new
  key : ∀ act ∈ new, act.entryKey = e.key
  kind : ∀ act ∈ new, act.kind = .wake ∨ act.kind = .load
  placed : acc.2 = inp.effective e ++ (loads new).map Action.agentId
  nodup : acc.2.Nodup
  le : (acc.2.length : Int) ≤ max ((inp.effective e).length : Int) e.minReplicas

theorem Filling.step {st : PassState} {acc acc' : PassState × List String} {new : List Action}
    {isFailover : Bool} {aid : String} (hfill : Filling inp e st acc new)
    (h : loadCandidate inp e isFailover acc aid = .ok acc') :
    ∃ new', Filling inp e st acc' new' := by
  obtain ⟨rfl, -⟩ | ⟨hshort, hnew, -, -, reason, rfl⟩ := load_candidate_cases h
  · exact ⟨new, hfill⟩
  · refine ⟨new ++ (wakeFirst inp e aid "placement" ++ [placeAction inp e .load reason aid]),
      ?_, ?_, ?_, ?_, ?_, ?_⟩
    · show acc.1.actions ++ wakeFirst inp e aid "placement" ++
        [placeAction inp e .load reason aid] = _
      rw [hfill.actions]
      simp only [List.append_assoc]
    · intro act hact
      simp only [List.mem_append, List.mem_singleton] at hact
      rcases hact with hact | hact | rfl
      · exact hfill.key act hact
      · exact (wake_first_mem hact).2
      · rfl
    · intro act hact
      simp only [List.mem_append, List.mem_singleton] at hact
      rcases hact with hact | hact | rfl
      · exact hfill.kind act hact
      · exact .inl (wake_first_mem hact).1
      · exact .inr rfl
    · have hloads : loads (wakeFirst inp e aid "placement" ++
          [placeAction inp e .load reason aid]) = _ := loads_placement aid "placement" reason .load
      unfold loads at hloads ⊢
      rw [List.filter_append, hloads, if_pos rfl, hfill.placed]
      simp [loads, placeAction]
    · refine List.nodup_append.mpr ⟨hfill.nodup, List.nodup_singleton _, ?_⟩
      rintro a ha b hb rfl
      rw [List.mem_singleton.mp hb] at ha
      exact hnew ha
    · simp only [List.length_append, List.length_singleton]
      omega

theorem load_loop_filling {st st' : PassState} {cands placed : List String} {isFailover : Bool}
    (h : cands.foldlM (loadCandidate inp e isFailover) (notePlacements inp st e, inp.effective e) =
      .ok (st', placed)) : ∃ new, Filling inp e st (st', placed) new := by
  refine foldlM_ok_const (fun acc => ∃ new, Filling inp e st acc new) h ?_ ?_
  · exact ⟨[], by simp [notePlacements], by simp, by simp, by simp [loads], effective_nodup,
      le_max_left _ _⟩
  · rintro aid - acc acc' ⟨new, hfill⟩ hstep
    exact hfill.step hstep

theorem load_block_nil : LoadBlock inp e [] where
  key _ h := nomatch h
  kind _ h := nomatch h
  nodup := by simpa [loads] using effective_nodup
  le := by simp [loads]

theorem load_entry_block {st st' : PassState} (h : loadEntry inp st e = .ok st') :
    ∃ new, st'.actions = st.actions ++ new ∧ LoadBlock inp e new := by
  obtain ⟨-, rfl⟩ | ⟨-, -, rfl⟩ | ⟨-, -, -, cands, placed, -, hfold⟩ := load_entry_cases h
  · exact ⟨[], by simp, load_block_nil⟩
  · exact ⟨[], by simp [notePlacements], load_block_nil⟩
  · obtain ⟨new, hfill⟩ := load_loop_filling hfold
    refine ⟨new, hfill.actions, hfill.key, hfill.kind, ?_, ?_⟩
    · rw [← hfill.placed]
      exact hfill.nodup
    · have hplaced : placed = inp.effective e ++ (loads new).map Action.agentId := hfill.placed
      have hle : (placed.length : Int) ≤ _ := hfill.le
      rw [hplaced, List.length_append, List.length_map] at hle
      exact_mod_cast hle

theorem scale_down_target_mem {observedPlaced touched : List String} {aid : String}
    (h : scaleDownTarget inp e observedPlaced touched = some aid) :
    aid ∈ observedPlaced ∧ aid ≠ e.placement ∧ inp.observed.isLive aid := by
  unfold scaleDownTarget at h
  simp only at h
  have hmem := mem_sorted_by.mp (List.mem_of_find?_eq_some h)
  have hcheck := List.find?_some h
  have hothers : aid ∈ observedPlaced.filter fun aid => aid != e.placement := by
    split at hmem
    · split at hmem
      · exact List.mem_of_mem_erase hmem
      · exact hmem
    · exact hmem
  simp only [List.mem_filter, bne_iff_ne] at hothers
  refine ⟨hothers.1, hothers.2, ?_⟩
  simp only [Bool.and_eq_true] at hcheck
  cases ha : inp.observed.agents.get? aid with
  | none => simp [ha] at hcheck
  | some a => exact ⟨a, ha, by simpa [ha] using hcheck.1.1.1⟩

theorem settled_effective (h : settled inp (placements e inp.observed) (inp.effective e) = true) :
    ∀ aid ∈ inp.effective e, aid ∈ placements e inp.observed ∧ inp.observed.isLive aid := by
  simp only [settled, Bool.and_eq_true, beq_iff_eq, List.all_eq_true] at h
  have heq : placements e inp.observed = inp.effective e :=
    (prefix_with_fresh _ _ _ _ _).eq_of_length h.1
  intro aid haid
  refine ⟨heq ▸ haid, ?_⟩
  have hlive := h.2 aid haid
  cases ha : inp.observed.agents.get? aid with
  | none => simp [ha] at hlive
  | some a => exact ⟨a, ha, by simpa [ha] using hlive⟩

theorem scale_block_nil : ScaleBlock inp e [] where
  key _ h := nomatch h
  kind _ h := nomatch h
  le := by simp [scalesOf]
  up _ h := nomatch h
  down _ h := nomatch h

theorem scale_entry_block {st st' : PassState} (hnoted : Noted inp st)
    (h : scaleEntry inp st e = .ok st') :
    ∃ new, st'.actions = st.actions ++ new ∧ ScaleBlock inp e new := by
  obtain rfl | ⟨aid, heligible, hmin, -, -, rfl⟩ |
    ⟨-, hdecision, hsettled, aid, reason, htarget, rfl⟩ := scale_entry_cases hnoted h
  · exact ⟨[], by simp, scale_block_nil⟩
  · have hroom : (inp.effective e).length < e.maxReplicas := by
      rcases heligible.wants with ⟨hshort, -⟩ | ⟨-, hroom⟩
      · exact absurd hmin (not_le.mpr hshort)
      · exact hroom
    have hwake : ∀ act ∈ wakeFirst inp e aid "scale-up", act.kind = .wake :=
      fun act hact => (wake_first_mem hact).1
    refine ⟨wakeFirst inp e aid "scale-up" ++
      [placeAction inp e .scaleUp (e.key ++ ": autoscale up -> " ++ aid) aid],
      by simp [placement, placeAction], ?_, ?_, ?_, ?_, ?_⟩
    · intro act hact
      rcases List.mem_append.mp hact with hact | hact
      · exact (wake_first_mem hact).2
      · rw [List.mem_singleton.mp hact]
        rfl
    · intro act hact
      rcases List.mem_append.mp hact with hact | hact
      · simp [hwake act hact]
      · rw [List.mem_singleton.mp hact]
        simp [placeAction]
    · have hnone : scalesOf e (wakeFirst inp e aid "scale-up") = [] := by
        unfold scalesOf
        rw [List.filter_eq_nil_iff]
        intro act hact
        simp [hwake act hact]
      unfold scalesOf at hnone ⊢
      rw [List.filter_append, hnone, List.nil_append]
      exact List.length_filter_le _ _
    · intro act hact hup
      rcases List.mem_append.mp hact with hact | hact
      · rw [hwake act hact] at hup
        cases hup
      · rw [List.mem_singleton.mp hact]
        exact ⟨heligible.not_placed, hmin, hroom⟩
    · intro act hact hdown
      rcases List.mem_append.mp hact with hact | hact
      · rw [hwake act hact] at hdown
        cases hdown
      · rw [List.mem_singleton.mp hact] at hdown
        cases hdown
  · obtain ⟨hmem, hpin, hlive⟩ := scale_down_target_mem htarget
    refine ⟨_, rfl, ?_, ?_, ?_, ?_, ?_⟩
    · intro act hact
      rw [List.mem_singleton.mp hact]
    · intro act hact
      rw [List.mem_singleton.mp hact]
      simp
    · exact List.length_filter_le _ _
    · intro act hact hup
      rw [List.mem_singleton.mp hact] at hup
      cases hup
    · intro act hact _
      rw [List.mem_singleton.mp hact]
      exact ⟨hmem, hlive, hpin, settled_effective hsettled, scale_decision_down hdecision⟩

/-- The actions for an entry. -/
def actionsOf (e : Entry) (acts : List Action) : List Action :=
  acts.filter fun act => act.entryKey == e.key

/-- Actions that all are for one entry. -/
theorem actions_of_block {e' : Entry} {new : List Action}
    (h : ∀ act ∈ new, act.entryKey = e.key) :
    actionsOf e' new = if e'.key = e.key then new else [] := by
  unfold actionsOf
  split
  · rename_i hkey
    rw [List.filter_eq_self]
    intro act hact
    simp [h act hact, hkey]
  · rename_i hkey
    rw [List.filter_eq_nil_iff]
    intro act hact
    simp only [h act hact, beq_iff_eq]
    exact Ne.symm hkey

/-- A pass over entries with distinct keys that adds a block for each entry: the actions of an
entry are those from before the pass and its own block. -/
theorem pass_blocks {step : PassState → Entry → Py PassState} {entries : List Entry}
    {st st' : PassState} (B : Entry → List Action → Prop) (I : PassState → Prop)
    (h : entries.foldlM step st = .ok st') (hI : I st)
    (hkeys : entries.Pairwise fun e e' => e.key ≠ e'.key)
    (hstep : ∀ e ∈ entries, ∀ s s', I s → step s e = .ok s' →
      I s' ∧ ∃ new, s'.actions = s.actions ++ new ∧ (∀ act ∈ new, act.entryKey = e.key) ∧
        B e new) :
    I st' ∧ ∀ e ∈ entries, ∃ new,
      actionsOf e st'.actions = actionsOf e st.actions ++ new ∧ B e new := by
  -- An entry's actions change only when the pass visits it.
  have hloop := foldlM_ok (fun done s => I s ∧
      (∀ e ∈ done, ∃ new, actionsOf e s.actions = actionsOf e st.actions ++ new ∧ B e new) ∧
      ∀ e, (∀ d ∈ done, e.key ≠ d.key) → actionsOf e s.actions = actionsOf e st.actions)
    h ⟨hI, by simp, by simp⟩ (by
      rintro done a rest rfl s s' ⟨hIs, hdone, hrest⟩ hs
      obtain ⟨hIs', new, hacts, hkey, hB⟩ := hstep a (by simp) s s' hIs hs
      have hsplit : ∀ e, actionsOf e s'.actions = actionsOf e s.actions ++ actionsOf e new := by
        intro e
        rw [hacts]
        exact List.filter_append _ _
      have hbefore : ∀ d ∈ done, d.key ≠ a.key := fun d hd =>
        (List.pairwise_append.mp hkeys).2.2 d hd a (List.mem_cons_self ..)
      refine ⟨hIs', ?_, ?_⟩
      · intro e he
        rcases List.mem_append.mp he with he | he
        · obtain ⟨old, hold, hBold⟩ := hdone e he
          refine ⟨old, ?_, hBold⟩
          rw [hsplit, actions_of_block hkey, if_neg (hbefore e he), List.append_nil, hold]
        · rw [List.mem_singleton.mp he]
          refine ⟨new, ?_, hB⟩
          rw [hsplit, actions_of_block hkey, if_pos rfl,
            hrest a fun d hd => (hbefore d hd).symm]
      · intro e he
        have hea : e.key ≠ a.key := he a (by simp)
        rw [hsplit, actions_of_block hkey, if_neg hea, List.append_nil]
        exact hrest e fun d hd => he d (List.mem_append_left _ hd))
  exact ⟨hloop.1, hloop.2.1⟩

theorem Desired.Valid.keys_distinct {desired : Desired} (h : desired.Valid) :
    (priorityOrder desired).Pairwise fun e e' => e.key ≠ e'.key := by
  have hkeys : desired.entries.Pairwise fun e e' => e.key ≠ e'.key :=
    h.distinct.imp fun hdiff hkey => hdiff (key_inj hkey)
  exact ((sorted_by_perm _ _).pairwise_iff fun hne => hne.symm).mpr hkeys

theorem plan_blocks {desired : Desired} {observed : Observed} {ledger : Ledger} {now : ℚ}
    {acts : List Action} (hvalid : desired.Valid)
    (h : plan desired observed ledger now = .ok acts) (he : e ∈ desired.entries) :
    ∃ new new', actionsOf e acts = new ++ new' ∧
      LoadBlock ⟨desired, observed, ledger, now⟩ e new ∧
      ScaleBlock ⟨desired, observed, ledger, now⟩ e new' := by
  simp only [plan, passes, bind_eq_ok, pure_eq_ok] at h
  obtain ⟨st, ⟨loaded, hload, hscale⟩, rfl⟩ := h
  have hkeys := hvalid.keys_distinct
  have hmem : e ∈ priorityOrder desired := mem_priority_order.mpr he
  obtain ⟨hnoted, hloads⟩ := pass_blocks (LoadBlock ⟨desired, observed, ledger, now⟩)
    (Noted ⟨desired, observed, ledger, now⟩) hload (noted_init _) hkeys (by
      intro e he s s' hs hstep
      obtain ⟨new, hacts, hblock⟩ := load_entry_block hstep
      exact ⟨load_entry_noted (mem_priority_order.mp he) hs hstep, new, hacts, hblock.key,
        hblock⟩)
  obtain ⟨-, hscales⟩ := pass_blocks (ScaleBlock ⟨desired, observed, ledger, now⟩)
    (Noted ⟨desired, observed, ledger, now⟩) hscale hnoted hkeys (by
      intro e he s s' hs hstep
      obtain ⟨new, hacts, hblock⟩ := scale_entry_block hs hstep
      have hobs := (scale_entry_moves (mem_priority_order.mp he) hs hstep).2
      exact ⟨fun k placed hk => hs k placed (hobs ▸ hk), new, hacts, hblock.key, hblock⟩)
  obtain ⟨new, hnew, hblock⟩ := hloads e hmem
  obtain ⟨new', hnew', hblock'⟩ := hscales e hmem
  refine ⟨new, new', ?_, hblock, hblock'⟩
  rw [hnew', hnew]
  simp [initState, actionsOf]

theorem loads_of_eq (acts : List Action) : loadsOf e acts = loads (actionsOf e acts) := by
  unfold loadsOf loads actionsOf
  rw [List.filter_filter]

theorem scales_of_eq (acts : List Action) : scalesOf e acts = scalesOf e (actionsOf e acts) := by
  unfold scalesOf actionsOf
  rw [List.filter_filter]
  simp

/-- A plan respects the replica bounds of every entry. -/
theorem plan_replica_bounds {raw : List (String × Json)} {desired : Desired}
    {observed : Observed} {ledger : Ledger} {now : ℚ} {acts : List Action}
    (hraw : validateState raw = .ok desired)
    (h : plan desired observed ledger now = .ok acts) (he : e ∈ desired.entries) :
    ReplicaBounds ⟨desired, observed, ledger, now⟩ acts e := by
  have hvalid := validate_state_valid hraw
  have hrange := (hvalid.entry_valid e he).min_le_max
  obtain ⟨new, new', hacts, hload, hscale⟩ := plan_blocks hvalid h he
  have hloads : loadsOf e acts = loads new := by
    rw [loads_of_eq, hacts]
    unfold loads
    rw [List.filter_append, List.append_right_eq_self, List.filter_eq_nil_iff]
    intro act hact
    simpa using hscale.kind act hact
  have hscales : scalesOf e acts = scalesOf e new' := by
    rw [scales_of_eq, hacts]
    unfold scalesOf
    rw [List.filter_append, List.append_left_eq_self, List.filter_eq_nil_iff]
    intro act hact
    rcases hload.kind act hact with hkind | hkind
    · simp [hkind]
    · simp [hkind]
  have hmem : ∀ act ∈ scalesOf e acts, act ∈ new' := by
    intro act hact
    rw [hscales] at hact
    exact (List.mem_filter.mp hact).1
  have hnodup := List.nodup_append.mp hload.nodup
  refine ⟨hnodup.1, ?_, ?_, ?_, ?_, ?_, ?_, ?_⟩
  · rw [hloads]
    exact hnodup.2.1
  · intro act hact hplaced
    rw [hloads] at hact
    exact hnodup.2.2 _ hplaced _ (List.mem_map_of_mem hact) rfl
  · rw [hloads]
    exact hload.le
  · -- A load means that replicas are missing, a scale action that they are not.
    intro hne
    have hshort : (Inputs.effective ⟨desired, observed, ledger, now⟩ e).length < e.minReplicas := by
      have hpos : 0 < (loads new).length := List.length_pos_iff.mpr (hloads ▸ hne)
      have hle := hload.le
      omega
    rw [List.eq_nil_iff_forall_not_mem]
    intro act hact
    have hkind := (List.mem_filter.mp hact).2
    simp only [Bool.and_eq_true, Bool.or_eq_true, beq_iff_eq] at hkind
    rcases hkind.1 with hup | hdown
    · have := (hscale.up act (hmem act hact) hup).2.1
      omega
    · rcases (hscale.down act (hmem act hact) hdown).2.2.2.2 with hlt | hlt
      · omega
      · omega
  · rw [hscales]
    exact hscale.le
  · intro act hact hup
    obtain ⟨hnew, -, hroom⟩ := hscale.up act (hmem act hact) hup
    exact ⟨hnew, by omega⟩
  · intro act hact hdown
    obtain ⟨hobs, hlive, hpin, hall, hlt⟩ := hscale.down act (hmem act hact) hdown
    exact ⟨hobs, hlive, hpin, hall, by omega⟩

/-- The missing replica of `m2` is loaded once. -/
theorem serving_plan_replica_bounds :
    validateState shadowedRaw = .ok shadowedDesired ∧
      loadsOf (shadowedEntry "m2") [loadM2 "a2" ""] = [loadM2 "a2" ""] ∧
      ReplicaBounds ⟨shadowedDesired, servingFleet, shadowedLedger, 1000⟩ [loadM2 "a2" ""]
        (shadowedEntry "m2") :=
  ⟨rfl, by decide +kernel,
    plan_replica_bounds (show validateState shadowedRaw = _ from rfl) (by decide +kernel)
      (by simp [shadowedDesired])⟩

end SystemsManager.Autopilot
