import SystemsManager.Autopilot.EntryStatus
import SystemsManager.Autopilot.Replicas

/-!
# The status and the plan agree

`entry_status` and the load pass of `plan` visit the entries in the same order, but check an
entry's candidates in a different order and with different early exits. `Inputs.Calm` rules out
what only the planner looks at (backoff, cooldown, dwell and the failover cap). Then both loops
leave the same budgets behind after every entry, and an entry is reported blocked exactly when
the plan leaves it short: `entry_status_agrees`.
-/

namespace SystemsManager.Autopilot

open Python

/-- No entry backs off or dwells, no agent cools down, and no missing replica is a failover. -/
structure Inputs.Calm (inp : Inputs) : Prop where
  backoff : ∀ e ∈ inp.desired.entries, inp.backingOff e = false
  cooldown : ∀ aid ∈ inp.observed.agents.keys, inp.cooling aid = false
  dwell : ∀ e ∈ inp.desired.entries,
    dwellBlocks e.key inp.ledger.placedAt inp.observed inp.now = false
  failover : ∀ e ∈ inp.desired.entries, (inp.effective e).length < e.minReplicas →
    hasDeadCandidate e (baseCandidates e inp.observed) inp.observed = false

variable {inp : Inputs} {e : Entry}

/-- The agent is observed, capable and live. -/
def usable (e : Entry) (observed : Observed) (aid : String) : Bool :=
  match observed.agents.get? aid with
  | some a => a.providerCaps.contains e.provider && a.live
  | none => false

theorem live_capable_eq (cands : List String) (observed : Observed) :
    liveCapable e cands observed = cands.filter (usable e observed) :=
  rfl

variable {observed : Observed} {aid : String} {managed : Managed}

theorem fit_usable {b : Budgets} (h : (fitAndSize e aid b observed managed).1 = true) :
    usable e observed aid = true := by
  unfold usable
  simp only [fitAndSize] at h
  cases ha : observed.agents.get? aid with
  | none => simp [ha] at h
  | some a =>
      simp only [ha, fits, Bool.and_eq_true] at h ⊢
      exact h.1.1.1

theorem fit_answered {b : Budgets} {a : Agent} (ha : observed.agents.get? aid = some a)
    (h : (fitAndSize e aid b observed managed).1 = true) : unanswered a e.provider = false := by
  simp only [fitAndSize, ha, fits, Bool.and_eq_true, Bool.not_eq_true'] at h
  exact h.1.1.2

theorem fit_size {b : Budgets} (h : (fitAndSize e aid b observed managed).1 = true) :
    modelSizeMb observed e.provider e.model ≠ none := by
  simp only [fitAndSize] at h
  split at h
  · simp only [fits, Bool.and_eq_true] at h
    exact Option.isSome_iff_ne_none.mp h.1.2
  · cases h

theorem Inputs.Calm.admits_eq (hcalm : inp.Calm) (b : Budgets) (aid : String) :
    admits inp e b aid =
      (!residentConflict e.provider e.model aid b.residents inp.managed &&
        (fitAndSize e aid b inp.observed inp.managed).1) := by
  cases ha : inp.observed.agents.get? aid with
  | none => simp [admits, fitAndSize, ha]
  | some a => simp [admits, ha, hcalm.cooldown aid (Dict.mem_keys_of_get ha)]

/-- What one live candidate does to the counters. -/
theorem status_candidate_cases (e : Entry) (need : Int) (observed : Observed) (managed : Managed)
    (c : StatusCounts) (aid : String) :
    (need ≤ c.placeable ∧ statusCandidate e need observed managed c aid = c) ∨
    (c.placeable < need ∧
      (!residentConflict e.provider e.model aid c.budgets.residents managed &&
        (fitAndSize e aid c.budgets observed managed).1) = false ∧
      (statusCandidate e need observed managed c aid).budgets = c.budgets ∧
      (statusCandidate e need observed managed c aid).placeable = c.placeable) ∨
    (c.placeable < need ∧
      (!residentConflict e.provider e.model aid c.budgets.residents managed &&
        (fitAndSize e aid c.budgets observed managed).1) = true ∧
      (statusCandidate e need observed managed c aid).budgets =
        commitBudget e aid (fitAndSize e aid c.budgets observed managed).2.1 c.budgets observed ∧
      (statusCandidate e need observed managed c aid).placeable = c.placeable + 1) := by
  unfold statusCandidate
  by_cases hfull : (c.placeable : Int) ≥ need
  · exact .inl ⟨hfull, by rw [if_pos hfull]⟩
  · right
    have hshort : (c.placeable : Int) < need := not_le.mp hfull
    rw [if_neg hfull]
    cases ha : observed.agents.get? aid with
    | none => exact .inl ⟨hshort, by simp [fitAndSize, ha], rfl, rfl⟩
    | some a =>
        simp only
        by_cases hun : unanswered a e.provider = true
        · have hfit : (fitAndSize e aid c.budgets observed managed).1 = false := by
            rw [Bool.eq_false_iff]
            intro hfit
            rw [fit_answered ha hfit] at hun
            cases hun
          exact .inl ⟨hshort, by rw [hfit, Bool.and_false], by rw [if_pos hun], by rw [if_pos hun]⟩
        · rw [if_neg hun]
          by_cases hcon : residentConflict e.provider e.model aid c.budgets.residents managed = true
          · exact .inl ⟨hshort, by simp [hcon], by rw [if_pos hcon], by rw [if_pos hcon]⟩
          · rw [if_neg hcon]
            rw [Bool.not_eq_true] at hcon
            cases hfit : (fitAndSize e aid c.budgets observed managed).1 with
            | false => exact .inl ⟨hshort, by simp, by simp, by simp⟩
            | true => exact .inr ⟨hshort, by simp [hcon], by simp, by simp⟩

/-- The two loops over the candidates of an entry agree so far: same budgets, and as many
placements counted as made. -/
structure InStep (inp : Inputs) (e : Entry) (acc : PassState × List String) (c : StatusCounts) :
    Prop where
  budgets : c.budgets = acc.1.budgets
  count : acc.2.length = (inp.effective e).length + c.placeable

variable {acc acc' : PassState × List String}

theorem load_candidate_idle (hskip : aid ∈ acc.2 ∨ usable e inp.observed aid = false)
    (h : loadCandidate inp e false acc aid = .ok acc') : acc' = acc := by
  obtain ⟨hsame, -⟩ | ⟨-, hnew, hadmits, -⟩ := load_candidate_cases h
  · exact hsame
  · exfalso
    rcases hskip with hold | hun
    · exact hnew hold
    · simp only [admits, Bool.and_eq_true] at hadmits
      rw [fit_usable hadmits.2] at hun
      cases hun

variable {c : StatusCounts}

theorem InStep.candidate (hcalm : inp.Calm) (hin : InStep inp e acc c) (hnew : aid ∉ acc.2)
    (h : loadCandidate inp e false acc aid = .ok acc') :
    InStep inp e acc' (statusCandidate e (e.minReplicas - (inp.effective e).length) inp.observed
      inp.managed c aid) ∧ (acc' = acc ∨ acc'.2 = acc.2 ++ [aid]) := by
  have hbudgets := hin.budgets
  have hcount := hin.count
  have hadmit : admits inp e acc.1.budgets aid = _ := hcalm.admits_eq acc.1.budgets aid
  rw [← hbudgets] at hadmit
  obtain ⟨rfl, hwhy⟩ | ⟨hshort, -, hadmits, -, reason, rfl⟩ := load_candidate_cases h
  · refine ⟨?_, .inl rfl⟩
    rcases status_candidate_cases e (e.minReplicas - (inp.effective e).length) inp.observed
      inp.managed c aid with
      ⟨-, hc⟩ | ⟨-, -, hb, hp⟩ | ⟨hroom, hfit, -, -⟩
    · rw [hc]
      exact hin
    · exact ⟨hb.trans hbudgets, by rw [hp, hcount]⟩
    · exfalso
      rcases hwhy with hfull | hold | hcap | hno
      · omega
      · exact hnew hold
      · simp [failoverCapped] at hcap
      · rw [← hbudgets, hadmit, hfit] at hno
        cases hno
  · refine ⟨?_, .inr rfl⟩
    rw [← hbudgets, hadmit] at hadmits
    rcases status_candidate_cases e (e.minReplicas - (inp.effective e).length) inp.observed
      inp.managed c aid with
      ⟨hfull, -⟩ | ⟨-, hno, -, -⟩ | ⟨-, -, hb, hp⟩
    · exfalso
      omega
    · rw [hno] at hadmits
      cases hadmits
    · refine ⟨?_, ?_⟩
      · rw [hb, hbudgets]
        rfl
      · rw [hp]
        simp only [List.length_append, List.length_singleton, hcount]
        omega

theorem InStep.loop {cands : List String} (hcalm : inp.Calm) (hnodup : cands.Nodup)
    (hplaced : ∀ aid ∈ cands, aid ∈ acc.2 ↔ aid ∈ inp.effective e) (hin : InStep inp e acc c)
    (h : cands.foldlM (loadCandidate inp e false) acc = .ok acc') :
    InStep inp e acc' ((liveCapable e (cands.filter fun aid => !(inp.effective e).contains aid)
      inp.observed).foldl (statusCandidate e (e.minReplicas - (inp.effective e).length)
        inp.observed inp.managed) c) := by
  rw [live_capable_eq, List.filter_filter]
  induction cands generalizing acc c with
  | nil =>
      cases h
      exact hin
  | cons aid rest ih =>
      rw [List.foldlM_cons, bind_eq_ok] at h
      obtain ⟨next, hnext, h⟩ := h
      rw [List.nodup_cons] at hnodup
      have hrest : ∀ a ∈ rest, a ∈ acc.2 ↔ a ∈ inp.effective e :=
        fun a ha => hplaced a (List.mem_cons_of_mem _ ha)
      rw [List.filter_cons]
      by_cases hskip : aid ∈ acc.2 ∨ usable e inp.observed aid = false
      · have hno : ¬ ((usable e inp.observed aid && !(inp.effective e).contains aid) = true) := by
          rcases hskip with hold | hun
          · simp [(hplaced aid (List.mem_cons_self ..)).mp hold]
          · simp [hun]
        rw [if_neg hno]
        have hsame := load_candidate_idle hskip hnext
        subst hsame
        exact ih hnodup.2 hrest hin h
      · rw [not_or] at hskip
        have hout : aid ∉ inp.effective e :=
          fun hmem => hskip.1 ((hplaced aid (List.mem_cons_self ..)).mpr hmem)
        have hyes : (usable e inp.observed aid && !(inp.effective e).contains aid) = true := by
          simpa [hout] using hskip.2
        rw [if_pos hyes, List.foldl_cons]
        obtain ⟨hin', hnext'⟩ := hin.candidate hcalm hskip.1 hnext
        refine ih hnodup.2 ?_ hin' h
        intro a ha
        rcases hnext' with rfl | hnext'
        · exact hrest a ha
        · have hne : a ≠ aid := fun heq => hnodup.1 (heq ▸ ha)
          rw [hnext', List.mem_append, List.mem_singleton]
          simpa [hne] using hrest a ha

theorem status_loop_unknown (need : Int) (managed : Managed) (live : List String) (c : StatusCounts)
    (hsize : modelSizeMb observed e.provider e.model = none) :
    (live.foldl (statusCandidate e need observed managed) c).budgets = c.budgets ∧
      (live.foldl (statusCandidate e need observed managed) c).placeable = c.placeable := by
  induction live generalizing c with
  | nil => exact ⟨rfl, rfl⟩
  | cons aid rest ih =>
      rw [List.foldl_cons]
      obtain ⟨hb, hp⟩ := ih (statusCandidate e need observed managed c aid)
      rcases status_candidate_cases e need observed managed c aid with
        ⟨-, hc⟩ | ⟨-, -, hb', hp'⟩ | ⟨-, hfit, -, -⟩
      · rw [hc] at hb hp ⊢
        exact ⟨hb, hp⟩
      · exact ⟨hb.trans hb', hp.trans hp'⟩
      · rw [Bool.and_eq_true] at hfit
        exact absurd hsize (fit_size hfit.2)

/-- The counters the status loop starts from. -/
def startCounts (b : Budgets) : StatusCounts :=
  { budgets := b, placeable := 0, residentBlocked := 0, unanswered := 0, avail := ∅ }

theorem blocked_status_spec {placed cands : List String} (b : Budgets) (managed : Managed)
    (desired : Desired) (hshort : (placed.length : Int) < e.minReplicas)
    (hc : c = (liveCapable e cands observed).foldl
      (statusCandidate e (e.minReplicas - placed.length) observed managed) (startCounts b)) :
    ((blockedStatus e placed cands b observed managed desired).1 = none ↔
      e.minReplicas ≤ placed.length + c.placeable) ∧
    (blockedStatus e placed cands b observed managed desired).2 = c.budgets := by
  unfold blockedStatus
  have hneed : ¬ (e.minReplicas - (placed.length : Int) ≤ 0) := by omega
  simp only [if_neg hneed]
  by_cases hlive : liveCapable e cands observed = []
  · rw [hlive, List.foldl_nil] at hc
    rw [if_pos hlive, hc]
    refine ⟨?_, rfl⟩
    simp only [reduceCtorEq, startCounts, false_iff]
    omega
  · rw [if_neg hlive]
    by_cases hsize : modelSizeMb observed e.provider e.model = none ∧ placed = []
    · obtain ⟨hb, hp⟩ := status_loop_unknown (e.minReplicas - placed.length) managed
        (liveCapable e cands observed) (startCounts b) hsize.1
      rw [if_pos hsize, hc]
      refine ⟨?_, hb.symm⟩
      rw [hp]
      simp only [reduceCtorEq, startCounts, false_iff]
      omega
    · rw [if_neg hsize]
      rw [startCounts] at hc
      rw [← hc]
      refine ⟨?_, rfl⟩
      by_cases hlt : (c.placeable : Int) < e.minReplicas - placed.length
      · simp only [if_pos hlt, reduceCtorEq, false_iff]
        omega
      · simp only [if_neg hlt, true_iff]
        omega

/-- What one entry of `entry_status` does. -/
theorem status_entry_cases {b b' : Budgets} {out out' : Dict String Status}
    (h : statusEntry inp.desired inp.observed (some inp.ledger) (some inp.now) inp.managed (b, out)
      e = .ok (b', out')) :
    ∃ cands speed, inp.candidates e = .ok cands ∧
      b' = (blockedStatus e (inp.effective e)
        (cands.filter fun aid => !(inp.effective e).contains aid) b inp.observed inp.managed
        inp.desired).2 ∧
      out' = out.set e.key
        { placed := (inp.effective e).length, want := e.minReplicas
          blocked := (blockedStatus e (inp.effective e)
            (cands.filter fun aid => !(inp.effective e).contains aid) b inp.observed inp.managed
            inp.desired).1
          speed := speed } := by
  simp only [statusEntry, bind_eq_ok, pure_eq_ok, Prod.mk.injEq] at h
  obtain ⟨cands, hcands, pick, -, speed, -, hb, hout⟩ := h
  exact ⟨cands, speed, hcands, hb.symm, hout.symm⟩

theorem Inputs.Calm.no_failover (hcalm : inp.Calm) (he : e ∈ inp.desired.entries)
    (hshort : (inp.effective e).length < e.minReplicas) {cands : List String}
    (hcands : inp.candidates e = .ok cands) : hasDeadCandidate e cands inp.observed = false := by
  have hbase := hcalm.failover e he hshort
  unfold hasDeadCandidate at hbase ⊢
  rw [List.any_eq_false] at hbase ⊢
  intro aid haid
  exact hbase aid ((candidates_perm hcands).mem_iff.mp haid)

variable {st st' : PassState}

/-- After an entry both passes have the same budgets, and the entry is reported unblocked
exactly when its loads make up for the missing replicas. -/
theorem entry_agrees {b b' : Budgets} {out out' : Dict String Status} (hcalm : inp.Calm)
    (he : e ∈ inp.desired.entries) (hb : b = st.budgets) (hload : loadEntry inp st e = .ok st')
    (hstatus : statusEntry inp.desired inp.observed (some inp.ledger) (some inp.now) inp.managed
      (b, out) e = .ok (b', out')) :
    b' = st'.budgets ∧ ∃ new status, st'.actions = st.actions ++ new ∧
      (∀ act ∈ new, act.entryKey = e.key) ∧ out' = out.set e.key status ∧
      (status.blocked = none ↔
        e.minReplicas ≤ (inp.effective e).length + (loads new).length) := by
  obtain ⟨cands, speed, hcands, hb', rfl⟩ := status_entry_cases hstatus
  obtain ⟨hback, -⟩ | ⟨-, hfull, rfl⟩ | ⟨-, hshort, -, cands', placed, hcands', hfold⟩ :=
    load_entry_cases hload
  · rw [hcalm.backoff e he] at hback
    cases hback
  · rcases hfull with hfull | hdwell
    · -- Nothing is missing.
      have hneed : e.minReplicas - ((inp.effective e).length : Int) ≤ 0 := by omega
      have hnone : blockedStatus e (inp.effective e)
          (cands.filter fun aid => !(inp.effective e).contains aid) b inp.observed inp.managed
          inp.desired = (none, b) := by
        simp only [blockedStatus, if_pos hneed]
      rw [hnone] at hb' ⊢
      refine ⟨hb'.trans hb, [], _, by simp [notePlacements], by simp, rfl, ?_⟩
      simpa [loads] using hfull
    · rw [hcalm.dwell e he] at hdwell
      cases hdwell
  · rw [hcands] at hcands'
    cases hcands'
    rw [hcalm.no_failover he hshort hcands] at hfold
    obtain ⟨new, hfill⟩ := load_loop_filling hfold
    have hstart : InStep inp e (notePlacements inp st e, inp.effective e) (startCounts b) :=
      ⟨hb, rfl⟩
    have hin := hstart.loop hcalm (candidates_nodup hcands) (fun aid _ => Iff.rfl) hfold
    obtain ⟨hblocked, hbudgets⟩ := blocked_status_spec b inp.managed inp.desired hshort rfl
    have hcount : placed.length = _ := hin.count
    have hplaced : placed = inp.effective e ++ (loads new).map Action.agentId := hfill.placed
    rw [hplaced, List.length_append, List.length_map, Nat.add_left_cancel_iff] at hcount
    refine ⟨?_, new, _, hfill.actions, hfill.key, rfl, ?_⟩
    · rw [hb', hbudgets]
      exact hin.budgets
    · rw [hblocked, ← hcount]

theorem loads_of_block {e' : Entry} {acts new : List Action}
    (h : ∀ act ∈ new, act.entryKey = e.key) :
    loadsOf e' (acts ++ new) = loadsOf e' acts ++ if e'.key = e.key then loads new else [] := by
  rw [loads_of_eq, loads_of_eq]
  unfold actionsOf
  rw [List.filter_append]
  have hblock : actionsOf e' new = _ := actions_of_block h
  unfold actionsOf at hblock
  rw [hblock]
  unfold loads
  rw [List.filter_append]
  split
  · rfl
  · rfl

/-- The load pass and the status, entry by entry: the same budgets, a status for each entry
done, and no load yet for the others. -/
structure Agreed (inp : Inputs) (done : List Entry) (st : PassState)
    (acc : Budgets × Dict String Status) : Prop where
  budgets : acc.1 = st.budgets
  status : ∀ e ∈ done, ∃ status, acc.2.get? e.key = some status ∧
    (status.blocked = none ↔
      e.minReplicas ≤ (inp.effective e).length + (loadsOf e st.actions).length)
  rest : ∀ e, (∀ d ∈ done, e.key ≠ d.key) → loadsOf e st.actions = []

theorem Agreed.step {done : List Entry} {acc acc' : Budgets × Dict String Status} (hcalm : inp.Calm)
    (hagree : Agreed inp done st acc) (he : e ∈ inp.desired.entries)
    (hnew : ∀ d ∈ done, e.key ≠ d.key) (hload : loadEntry inp st e = .ok st')
    (hstatus : statusEntry inp.desired inp.observed (some inp.ledger) (some inp.now) inp.managed
      acc e = .ok acc') : Agreed inp (done ++ [e]) st' acc' := by
  obtain ⟨hb, new, status, hacts, hkey, hout, hblocked⟩ :=
    entry_agrees hcalm he hagree.budgets hload hstatus
  refine ⟨hb, ?_, ?_⟩
  · intro d hd
    rw [hout, hacts, Dict.get?_set, loads_of_block hkey]
    rcases List.mem_append.mp hd with hd | hd
    · rw [if_neg (hnew d hd).symm, if_neg (hnew d hd).symm, List.append_nil]
      exact hagree.status d hd
    · rw [List.mem_singleton.mp hd, if_pos rfl, if_pos rfl, hagree.rest e hnew, List.nil_append]
      exact ⟨status, rfl, hblocked⟩
  · intro d hd
    rw [hacts, loads_of_block hkey, if_neg (hd e (by simp)), List.append_nil]
    exact hagree.rest d fun d' hd' => hd d' (List.mem_append_left _ hd')

theorem passes_agree {acc : Budgets × Dict String Status} (hcalm : inp.Calm)
    (hvalid : inp.desired.Valid)
    (hload : (priorityOrder inp.desired).foldlM (loadEntry inp) (initState inp) = .ok st)
    (hstatus : (priorityOrder inp.desired).foldlM
      (statusEntry inp.desired inp.observed (some inp.ledger) (some inp.now) inp.managed)
      (initBudgets inp.desired inp.observed (some inp.ledger) (some inp.now), ∅) = .ok acc) :
    Agreed inp (priorityOrder inp.desired) st acc := by
  refine foldlM_ok_rel (Agreed inp) hload hstatus ⟨rfl, by simp, ?_⟩ ?_
  · intro e _
    simp [loadsOf, initState]
  · intro done e rest hsplit s s' t t' hagree hs ht
    have he : e ∈ inp.desired.entries := by
      rw [← mem_priority_order, hsplit]
      simp
    have hkeys := hvalid.keys_distinct
    rw [hsplit, List.pairwise_append] at hkeys
    exact hagree.step hcalm he (fun d hd => (hkeys.2.2 d hd e (by simp)).symm) hs ht

theorem scale_pass_loads (hnoted : Noted inp st)
    (h : (priorityOrder inp.desired).foldlM (scaleEntry inp) st = .ok st') :
    loadsOf e st'.actions = loadsOf e st.actions := by
  refine (foldlM_ok_const
    (fun s => Noted inp s ∧ loadsOf e s.actions = loadsOf e st.actions) h ⟨hnoted, rfl⟩ ?_).2
  rintro a ha s s' ⟨hs, hloads⟩ hstep
  obtain ⟨new, hacts, hblock⟩ := scale_entry_block hs hstep
  have hobs := (scale_entry_moves (mem_priority_order.mp ha) hs hstep).2
  have hnil : loadsOf e new = [] := by
    unfold loadsOf
    rw [List.filter_eq_nil_iff]
    intro act hact
    simp [hblock.kind act hact]
  refine ⟨fun k placed hk => hs k placed (hobs ▸ hk), ?_⟩
  rw [hacts, ← hloads]
  unfold loadsOf at hnil ⊢
  rw [List.filter_append, hnil, List.append_nil]

/-- An entry is reported unblocked exactly when the plan makes up for its missing replicas. -/
theorem entry_status_agrees {raw : List (String × Json)} {desired : Desired}
    {observed : Observed} {ledger : Ledger} {now : ℚ} {acts : List Action}
    {out : Dict String Status} (hraw : validateState raw = .ok desired)
    (hcalm : Inputs.Calm ⟨desired, observed, ledger, now⟩)
    (hplan : plan desired observed ledger now = .ok acts)
    (hstatus : entryStatus desired observed (some ledger) (some now) = .ok out)
    (he : e ∈ desired.entries) :
    ∃ status, out.get? e.key = some status ∧
      (status.blocked = none ↔
        (Inputs.effective ⟨desired, observed, ledger, now⟩ e).length + (loadsOf e acts).length ≥
          e.minReplicas) := by
  have hvalid := validate_state_valid hraw
  simp only [plan, passes, bind_eq_ok, pure_eq_ok] at hplan
  obtain ⟨st, ⟨loaded, hload, hscale⟩, rfl⟩ := hplan
  simp only [entryStatus, bind_eq_ok, pure_eq_ok] at hstatus
  obtain ⟨⟨b, out'⟩, hfold, rfl⟩ := hstatus
  have hagree := passes_agree hcalm hvalid hload hfold
  have hnoted := foldlM_ok_const (Noted ⟨desired, observed, ledger, now⟩) hload
    (noted_init _) fun e he s s' hs hstep =>
      load_entry_noted (mem_priority_order.mp he) hs hstep
  rw [scale_pass_loads hnoted hscale]
  exact hagree.status e (mem_priority_order.mpr he)

/-- The fleet with a host to spare is calm, and `m2` is reported unblocked. -/
theorem serving_status_agrees :
    ∃ out status, entryStatus shadowedDesired servingFleet (some shadowedLedger) (some 1000) =
        .ok out ∧
      out.get? "m2/llama" = some status ∧
      (status.blocked = none ↔ 0 + (loadsOf (shadowedEntry "m2") [loadM2 "a2" ""]).length ≥
        (1 : Int)) := by
  have hok : (entryStatus shadowedDesired servingFleet (some shadowedLedger)
      (some 1000)).toOption.isSome = true := by decide +kernel
  have hcalm : Inputs.Calm ⟨shadowedDesired, servingFleet, shadowedLedger, 1000⟩ :=
    ⟨by decide +kernel, by decide +kernel, by decide +kernel, by decide +kernel⟩
  cases hout : entryStatus shadowedDesired servingFleet (some shadowedLedger) (some 1000) with
  | error err => simp [hout, Except.toOption] at hok
  | ok out =>
      obtain ⟨status, hget, hiff⟩ := entry_status_agrees
        (show validateState shadowedRaw = .ok shadowedDesired from rfl) hcalm
        (show plan shadowedDesired servingFleet shadowedLedger 1000 = .ok [loadM2 "a2" ""] by
          decide +kernel) hout (show shadowedEntry "m2" ∈ shadowedDesired.entries by
            simp [shadowedDesired])
      exact ⟨out, status, rfl, hget, hiff⟩

end SystemsManager.Autopilot
