import SystemsManager.Autopilot.EntryStatus
import SystemsManager.Autopilot.Moves

/-!
# Desired states that the planner can work with

`plan` and `entry_status` compute with the numbers of the desired state. They raise for some fleet
unless the age limit converts to a float and every autoscale object is `Usable`: its windows are
numbers, and its target is one wherever a window can hold a point. Read `never_raises_iff`.
-/

namespace SystemsManager.Autopilot

open Python

section Autoscale

/-- The times that the clock of the reconciler gives, none of them before the epoch. -/
structure Clock where
  ticks : ℚ → Prop
  nonneg : ∀ now, ticks now → 0 ≤ now
  runs : ∃ now, ticks now

/-- A window of this length can hold a point: at some time of the clock it has begun, as its start
is rounded. -/
def Clock.Opens (clock : Clock) (w : PyFloat) : Prop :=
  ∃ now, clock.ticks now ∧ (PyFloat.subFrom now w).le (.finite now) = true

/-- The windows of the object are numbers that a float converts to; its target compares with a float
if the up window can hold a point, and multiplies with one if the down window can. -/
structure Autoscale.Usable (clock : Clock) (cfg : Autoscale) : Prop where
  up : ∃ w : PyFloat, cfg.upWindowS.toFloat = (.ok w : Py PyFloat) ∧
    (clock.Opens w → cfg.targetSaturation.number?.isSome = true)
  down : ∃ w : PyFloat, cfg.downWindowS.toFloat = (.ok w : Py PyFloat) ∧
    (clock.Opens w → ∃ x : PyFloat, cfg.targetSaturation.toFloat = (.ok x : Py PyFloat))

variable {clock : Clock} {e : Entry} {cfg : Autoscale} {placed : List String}
    {now : ℚ} {w : PyFloat}

theorem le_finite_trans {x : PyFloat} {t now : ℚ} (h : x.le (.finite t) = true) (hle : t ≤ now) :
    x.le (.finite now) = true := by
  cases x with
  | finite q => exact decide_eq_true ((of_decide_eq_true h).trans hle)
  | inf negative => exact h
  | nan => exact h

/-- A window that holds a point of the past has begun. -/
theorem opens_of_points {history : List (ℚ × ℚ)} (hnow : clock.ticks now)
    (hpast : ∀ point ∈ history, point.1 ≤ now)
    (h : windowPoints history (PyFloat.subFrom now w) ≠ []) : clock.Opens w := by
  obtain ⟨s, hs⟩ := List.exists_mem_of_ne_nil _ h
  unfold windowPoints at hs
  obtain ⟨⟨t, s'⟩, hpoint, -⟩ := List.mem_map.mp hs
  obtain ⟨hmem, hin⟩ := List.mem_filter.mp hpoint
  exact ⟨now, hnow, le_finite_trans hin (hpast _ hmem)⟩

theorem evaluate_autoscale_total (h : ∀ cfg, e.autoscale = some cfg → cfg.Usable clock)
    (placed : List String) {history : List (ℚ × ℚ)} (hnow : clock.ticks now)
    (hpast : ∀ point ∈ history, point.1 ≤ now) :
    ∃ decision, evaluateAutoscale e placed history now = .ok decision := by
  unfold evaluateAutoscale
  split
  · exact ⟨_, rfl⟩
  · exact ⟨_, rfl⟩
  · rename_i cfg t0 s0 rest hcfg
    obtain ⟨⟨up, hup, htarget⟩, ⟨down, hdown, hhalf⟩⟩ := h cfg hcfg
    have habove : ∃ above, allAbove (windowPoints ((t0, s0) :: rest) (PyFloat.subFrom now up))
        cfg.targetSaturation = .ok above := by
      unfold allAbove
      split
      · exact ⟨_, rfl⟩
      · rename_i hpoints
        obtain ⟨target, hnumber⟩ :=
          Option.isSome_iff_exists.mp (htarget (opens_of_points hnow hpast hpoints))
        rw [hnumber]
        exact ⟨_, rfl⟩
    have hbelow : ∃ below, allBelowHalf (windowPoints ((t0, s0) :: rest) (PyFloat.subFrom now down))
        cfg.targetSaturation = .ok below := by
      unfold allBelowHalf
      split
      · exact ⟨_, rfl⟩
      · rename_i hpoints
        obtain ⟨x, hx⟩ := hhalf (opens_of_points hnow hpast hpoints)
        rw [hx]
        exact ⟨_, rfl⟩
    obtain ⟨above, habove⟩ := habove
    obtain ⟨below, hbelow⟩ := hbelow
    have hupStart : windowStart now cfg.upWindowS = .ok (PyFloat.subFrom now up) := by
      rw [windowStart, hup]
      rfl
    have hdownStart : windowStart now cfg.downWindowS = .ok (PyFloat.subFrom now down) := by
      rw [windowStart, hdown]
      rfl
    simp only [bind_eq_ok, hupStart, Except.ok.injEq, exists_eq_left', habove]
    split
    · exact ⟨_, rfl⟩
    · simp only [bind_eq_ok, hdownStart, Except.ok.injEq, exists_eq_left', hbelow]
      split
      · exact ⟨_, rfl⟩
      · exact ⟨_, rfl⟩

theorem points_now {s : ℚ} (h : (PyFloat.subFrom now w).le (.finite now) = true) :
    windowPoints [(now, s)] (PyFloat.subFrom now w) = [s] := by
  unfold windowPoints
  rw [List.filter_cons_of_pos (by simpa using h)]
  rfl

/-- What one evaluation with a point of this moment says of the windows; with as many replicas as
there may be, the up window never decides. -/
theorem windows_of_evaluate {decision : Decision} (hcfg : e.autoscale = some cfg)
    (hfull : e.maxReplicas ≤ placed.length)
    (h : evaluateAutoscale e placed [(now, 0)] now = .ok decision) :
    (∃ up : PyFloat, cfg.upWindowS.toFloat = (.ok up : Py PyFloat) ∧
      ((PyFloat.subFrom now up).le (.finite now) = true →
        cfg.targetSaturation.number?.isSome = true)) ∧
    ∃ down : PyFloat, cfg.downWindowS.toFloat = (.ok down : Py PyFloat) ∧
      ((PyFloat.subFrom now down).le (.finite now) = true →
        ∃ x : PyFloat, cfg.targetSaturation.toFloat = (.ok x : Py PyFloat)) := by
  unfold evaluateAutoscale at h
  rw [hcfg] at h
  simp only [bind_eq_ok, windowStart, pure_eq_ok] at h
  obtain ⟨upStart, ⟨up, hupw, rfl⟩, above, habove, h⟩ := h
  have hhold : decide ((placed.length : Int) < e.maxReplicas) = false := by
    rw [decide_eq_false_iff_not]
    omega
  rw [hhold, Bool.and_false, if_neg Bool.false_ne_true] at h
  simp only [bind_eq_ok, pure_eq_ok] at h
  obtain ⟨downStart, ⟨down, hdownw, rfl⟩, below, hbelow, -⟩ := h
  refine ⟨⟨up, hupw, fun hopen => ?_⟩, ⟨down, hdownw, fun hopen => ?_⟩⟩
  · rw [points_now hopen] at habove
    unfold allAbove at habove
    rw [if_neg (List.cons_ne_nil _ _)] at habove
    split at habove
    · cases habove
    · rename_i target hnumber
      rw [hnumber]
      rfl
  · rw [points_now hopen, allBelowHalf, if_neg (List.cons_ne_nil _ _), bind_eq_ok] at hbelow
    obtain ⟨x, hx, -⟩ := hbelow
    exact ⟨x, hx⟩

theorem usable_of_evaluate (hcfg : e.autoscale = some cfg)
    (h : ∀ now, clock.ticks now → ∃ placed : List String, e.maxReplicas ≤ placed.length ∧
      ∃ decision, evaluateAutoscale e placed [(now, 0)] now = .ok decision) : cfg.Usable clock := by
  have hwindows := fun now hnow =>
    let ⟨_, hfull, hdecision⟩ := h now hnow
    windows_of_evaluate hcfg hfull hdecision.choose_spec
  obtain ⟨start, hstart⟩ := clock.runs
  obtain ⟨⟨up, hup, -⟩, ⟨down, hdown, -⟩⟩ := hwindows start hstart
  refine ⟨⟨up, hup, ?_⟩, ⟨down, hdown, ?_⟩⟩
  · rintro ⟨now, hnow, hopen⟩
    obtain ⟨⟨up', hup', htarget⟩, -⟩ := hwindows now hnow
    cases hup.symm.trans hup'
    exact htarget hopen
  · rintro ⟨now, hnow, hopen⟩
    obtain ⟨-, ⟨down', hdown', htarget⟩⟩ := hwindows now hnow
    cases hdown.symm.trans hdown'
    exact htarget hopen

end Autoscale

section Ranking

variable {desired : Desired} {maxAge : ℚ}

theorem speed_key_total (hage : maxAgeS desired = .ok maxAge) (e : Entry) (aid : String)
    (observed : Observed) (now : Option ℚ) :
    ∃ key, speedKey e aid observed desired now = .ok key := by
  unfold speedKey
  split
  · exact ⟨_, rfl⟩
  · rw [hage]
    exact ⟨_, rfl⟩

theorem sorted_by_speed_total (hage : maxAgeS desired = .ok maxAge) (e : Entry)
    (agents : List String) (observed : Observed) (now : Option ℚ) :
    ∃ sorted, sortedBySpeed e agents observed desired now = .ok sorted := by
  obtain ⟨keyed, hkeyed⟩ := mapM_total (l := agents)
    (f := fun aid => do
      let key ← speedKey e aid observed desired now
      pure (key, aid)) (by
      intro aid _
      obtain ⟨key, hkey⟩ := speed_key_total hage e aid observed now
      rw [hkey]
      exact ⟨_, rfl⟩)
  refine ⟨(sortedBy Prod.fst keyed).map Prod.snd, ?_⟩
  rw [sortedBySpeed, hkeyed]
  rfl

/-- An entry has its candidates. -/
theorem candidates_total (hage : maxAgeS desired = .ok maxAge) (e : Entry) (observed : Observed)
    (now : Option ℚ) : ∃ cands, candidates e observed desired now = .ok cands := by
  unfold candidates rankedCandidates
  split
  · exact ⟨_, rfl⟩
  · exact sorted_by_speed_total hage e _ observed now

/-- A load has its reason. -/
theorem load_reason_total {inp : Inputs} (hage : maxAgeS inp.desired = .ok maxAge) (e : Entry)
    (isFailover : Bool) (count : ℕ) (aid : String) (displaced : Option String) :
    ∃ reason, loadReason inp e isFailover count aid displaced = .ok reason := by
  have hnote : ∃ note, speedNote e aid inp.observed inp.desired (some inp.now) = .ok note := by
    unfold speedNote
    split
    · exact ⟨_, rfl⟩
    · split
      · exact ⟨_, rfl⟩
      · rw [hage]
        exact ⟨_, rfl⟩
  obtain ⟨note, hnote⟩ := hnote
  exact bind_total hnote ⟨_, rfl⟩

end Ranking

section Passes

/-- The planner can work with the desired state: its age limit converts to a float, unless no entry
asks for it, and its autoscale objects are usable. -/
structure Desired.Harmless (clock : Clock) (desired : Desired) : Prop where
  age : desired.entries ≠ [] → ∃ maxAge, maxAgeS desired = .ok maxAge
  autoscale : ∀ e ∈ desired.entries, ∀ cfg, e.autoscale = some cfg → cfg.Usable clock

/-- No point of the saturation histories is later than this: `_refresh_sat_history` adds a point at
the time of its tick. -/
def Observed.Gathered (observed : Observed) (now : ℚ) : Prop :=
  ∀ key points, observed.satHistory.get? key = some points → ∀ point ∈ points, point.1 ≤ now

variable {clock : Clock} {inp : Inputs} {maxAge : ℚ} {e : Entry}

theorem gathered_history {observed : Observed} {now : ℚ} (h : observed.Gathered now)
    (key : String) :
    ∀ point ∈ observed.satHistory.getD key [], point.1 ≤ now := by
  unfold Dict.getD
  cases hget : observed.satHistory.get? key with
  | none => exact fun point hpoint => by cases hpoint
  | some points => exact h key points hget

theorem load_candidate_total (hage : maxAgeS inp.desired = .ok maxAge) (isFailover : Bool)
    (acc : PassState × List String) (aid : String) :
    ∃ acc', loadCandidate inp e isFailover acc aid = .ok acc' := by
  obtain ⟨st, placed⟩ := acc
  simp only [loadCandidate]
  split
  · exact ⟨_, rfl⟩
  · split
    · exact ⟨_, rfl⟩
    · obtain ⟨reason, hreason⟩ := load_reason_total hage e isFailover (placed.length + 1) aid
        (displacedBy e.provider e.model aid st.budgets.residents inp.managed)
      exact bind_total hreason ⟨_, rfl⟩

/-- An entry of the load pass. -/
theorem load_entry_total (hage : maxAgeS inp.desired = .ok maxAge) (st : PassState) (e : Entry) :
    ∃ st', loadEntry inp st e = .ok st' := by
  unfold loadEntry
  split
  · exact ⟨_, rfl⟩
  · simp only
    split
    · exact ⟨_, rfl⟩
    · obtain ⟨cands, hcands⟩ := candidates_total hage e inp.observed (some inp.now)
      refine bind_total hcands ?_
      split
      · exact ⟨_, rfl⟩
      · obtain ⟨⟨last, placed⟩, hloop, -⟩ := foldlM_total_const
          (f := loadCandidate inp e (hasDeadCandidate e cands inp.observed)) (l := cands)
          (s := (notePlacements inp st e, inp.effective e)) (fun _ => True) trivial (by
            intro aid _ acc _
            obtain ⟨acc', hacc⟩ := load_candidate_total hage _ acc aid
            exact ⟨acc', hacc, trivial⟩)
        exact bind_total hloop ⟨_, rfl⟩

theorem scale_decision_total (h : ∀ cfg, e.autoscale = some cfg → cfg.Usable clock)
    (hnow : clock.ticks inp.now) (hpast : inp.observed.Gathered inp.now) (placed : List String) :
    ∃ decision, scaleDecision inp e placed = .ok decision := by
  unfold scaleDecision
  split
  · exact ⟨_, rfl⟩
  · split
    · exact ⟨_, rfl⟩
    · exact evaluate_autoscale_total h placed hnow (gathered_history hpast e.key)

theorem scale_entry_total (hage : maxAgeS inp.desired = .ok maxAge)
    (h : ∀ cfg, e.autoscale = some cfg → cfg.Usable clock) (hnow : clock.ticks inp.now)
    (hpast : inp.observed.Gathered inp.now) {st : PassState}
    (hnoted : inp.backingOff e = false → (st.observedByK.get? e.key).isSome = true) :
    ∃ st', scaleEntry inp st e = .ok st' := by
  unfold scaleEntry
  split
  · exact ⟨_, rfl⟩
  · rename_i hback
    obtain ⟨placed, hplaced⟩ :=
      Option.isSome_iff_exists.mp (hnoted (Bool.not_eq_true _ ▸ hback))
    rw [hplaced]
    simp only
    have hscale : ∃ decision, scaleDecision inp e
        (withFresh placed e.key inp.observed (some inp.ledger) (some inp.now)) = .ok decision :=
      scale_decision_total h hnow hpast _
    obtain ⟨decision, hdecision⟩ := hscale
    refine bind_total hdecision ?_
    cases decision with
    | hold => exact ⟨_, rfl⟩
    | up =>
        obtain ⟨cands, hcands⟩ := candidates_total hage e inp.observed (some inp.now)
        exact bind_total hcands ⟨_, rfl⟩
    | down =>
        simp only
        split
        · exact ⟨_, rfl⟩
        · exact ⟨_, rfl⟩

/-- The placements of an entry are noted, unless it backs off. -/
def NotedFor (inp : Inputs) (st : PassState) (e : Entry) : Prop :=
  inp.backingOff e = false → (st.observedByK.get? e.key).isSome = true

theorem load_entry_notes {st st' : PassState} (h : loadEntry inp st e = .ok st') :
    NotedFor inp st' e ∧ ∀ other, NotedFor inp st other → NotedFor inp st' other := by
  unfold NotedFor
  rw [load_entry_observed h]
  refine ⟨fun hback => ?_, fun other hother hback => ?_⟩
  · rw [hback, if_neg Bool.false_ne_true, Dict.get?_set, if_pos rfl]
    rfl
  · split
    · exact hother hback
    · rw [Dict.get?_set]
      split
      · rfl
      · exact hother hback

theorem passes_total (hage : maxAgeS inp.desired = .ok maxAge)
    (h : ∀ e ∈ inp.desired.entries, ∀ cfg, e.autoscale = some cfg → cfg.Usable clock)
    (hnow : clock.ticks inp.now) (hpast : inp.observed.Gathered inp.now) :
    ∃ st, passes inp = .ok st := by
  -- the load pass has noted each entry it has seen
  obtain ⟨loaded, hload, hnotes, hnoted⟩ := foldlM_total (f := loadEntry inp)
    (l := priorityOrder inp.desired) (s := initState inp)
    (fun done st => Noted inp st ∧ ∀ e ∈ done, NotedFor inp st e)
    ⟨noted_init inp, fun e he => nomatch he⟩ (by
      rintro done a rest hl st ⟨hnotes, hdone⟩
      obtain ⟨st', hst⟩ := load_entry_total hage st a
      have ha : a ∈ inp.desired.entries := mem_priority_order.mp (by rw [hl]; simp)
      obtain ⟨hthis, hothers⟩ := load_entry_notes hst
      refine ⟨st', hst, load_entry_noted ha hnotes hst, fun e he => ?_⟩
      rcases List.mem_append.mp he with he | he
      · exact hothers e (hdone e he)
      · rw [List.mem_singleton.mp he]
        exact hthis)
  obtain ⟨last, hscale, -⟩ := foldlM_total_const (f := scaleEntry inp)
    (l := priorityOrder inp.desired) (s := loaded)
    (fun st => Noted inp st ∧ ∀ e ∈ priorityOrder inp.desired, NotedFor inp st e)
    ⟨hnotes, hnoted⟩ (by
      rintro a ha st ⟨hnotes, hnoted⟩
      have ha' := mem_priority_order.mp ha
      obtain ⟨st', hst⟩ := scale_entry_total hage (h a ha') hnow hpast (hnoted a ha)
      obtain ⟨-, hsame⟩ := scale_entry_moves ha' hnotes hst
      refine ⟨st', hst, fun k placed hk => hnotes k placed (hsame ▸ hk), fun e he => ?_⟩
      unfold NotedFor
      rw [hsame]
      exact hnoted e he)
  exact bind_total hload ⟨last, hscale⟩

theorem plan_total {desired : Desired} (h : desired.Harmless clock) {observed : Observed}
    (ledger : Ledger) {now : ℚ} (hnow : clock.ticks now) (hpast : observed.Gathered now) :
    ∃ actions, plan desired observed ledger now = .ok actions := by
  have hpasses : ∃ st, passes ⟨desired, observed, ledger, now⟩ = .ok st := by
    by_cases hempty : desired.entries = []
    · have hnone : priorityOrder desired = [] := by
        unfold priorityOrder
        rw [hempty]
        rfl
      simp only [passes, hnone]
      exact ⟨_, rfl⟩
    · obtain ⟨maxAge, hage⟩ := h.age hempty
      exact passes_total hage h.autoscale hnow hpast
  obtain ⟨st, hst⟩ := hpasses
  exact bind_total hst ⟨_, rfl⟩

/-- An entry of the status loop. -/
theorem status_entry_total {desired : Desired} (hage : maxAgeS desired = .ok maxAge)
    (observed : Observed) (ledger : Option Ledger) (now : Option ℚ) (managed : Managed)
    (acc : Budgets × Dict String Status) (e : Entry) :
    ∃ acc', statusEntry desired observed ledger now managed acc e = .ok acc' := by
  obtain ⟨cands, hcands⟩ := candidates_total hage e observed now
  have hpick : ∀ placed cands b, ∃ pick,
      speedPick e placed cands b observed managed desired now = .ok pick := by
    intro placed cands b
    unfold speedPick
    split
    · exact ⟨_, rfl⟩
    · obtain ⟨sorted, hsorted⟩ := sorted_by_speed_total hage e placed observed now
      exact bind_total hsorted ⟨_, rfl⟩
  have hspeed : ∀ pick, ∃ speed, speedStatus e pick observed desired now = .ok speed := by
    intro pick
    obtain ⟨sorted, hsorted⟩ :=
      sorted_by_speed_total hage e (speedRows e observed).keys observed now
    exact bind_total hage (bind_total hsorted ⟨_, rfl⟩)
  obtain ⟨pick, hpick⟩ := hpick (effectivePlacements e e.key observed ledger now)
    (cands.filter fun aid => !(effectivePlacements e e.key observed ledger now).contains aid) acc.1
  obtain ⟨speed, hspeed⟩ := hspeed pick
  exact bind_total hcands (bind_total hpick (bind_total hspeed ⟨_, rfl⟩))

theorem entry_status_total {desired : Desired} (h : desired.Harmless clock) (observed : Observed)
    (ledger : Option Ledger) (now : Option ℚ) :
    ∃ out, entryStatus desired observed ledger now = .ok out := by
  have hloop : ∃ last, (priorityOrder desired).foldlM
      (statusEntry desired observed ledger now (managedSet desired observed ledger now))
      (initBudgets desired observed ledger now, ∅) = .ok last := by
    by_cases hempty : desired.entries = []
    · have hnone : priorityOrder desired = [] := by
        unfold priorityOrder
        rw [hempty]
        rfl
      rw [hnone]
      exact ⟨_, rfl⟩
    · obtain ⟨maxAge, hage⟩ := h.age hempty
      obtain ⟨last, hlast, -⟩ := foldlM_total_const (fun _ => True) trivial (by
        intro e _ acc _
        obtain ⟨acc', hacc⟩ := status_entry_total hage observed ledger now
          (managedSet desired observed ledger now) acc e
        exact ⟨acc', hacc, trivial⟩)
      exact ⟨last, hlast⟩
  obtain ⟨last, hlast⟩ := hloop
  exact bind_total hlast ⟨_, rfl⟩

end Passes

section Fleets

/-- Nobody reports. -/
def noFleet : Observed where
  agents := ∅
  modelSizesMb := ∅
  modelGpuLayers := ∅
  routePins _ := ∅
  satHistory := ∅
  speed := ∅

/-- A live agent that serves the entry's model. -/
def server (e : Entry) : Agent where
  providerCaps := [e.provider]
  live := true
  liveness := some .live
  vramTotalMb := 24576
  vramFreeMb := 8192
  ramFreeMb := some 8192
  loaded provider := if provider = e.provider then [e.model] else []
  answered := none
  serverState := some .awake
  llamaBuild := ""

/-- The id of the agent with this number. -/
def serverId (i : ℕ) : String := String.ofList (List.replicate (i + 1) 'a')

theorem server_id_injective : Function.Injective serverId := by
  intro i j h
  have hlist : List.replicate (i + 1) 'a' = List.replicate (j + 1) 'a' := String.ofList_injective h
  simpa using congrArg List.length hlist

/-- Agents that serve the entry's model, and a point of its saturation. -/
def serving (e : Entry) (replicas : ℕ) (t : ℚ) : Observed where
  agents := {
    items := (List.range replicas).map fun i => (serverId i, server e)
    nodup := by
      rw [List.map_map]
      exact List.nodup_range.map server_id_injective }
  modelSizesMb := ∅
  modelGpuLayers := ∅
  routePins _ := ∅
  satHistory := ⟨[(e.key, [(t, 0)])], List.nodup_singleton _⟩
  speed := ∅

theorem placements_serving (e : Entry) (replicas : ℕ) (t : ℚ) :
    (placements e (serving e replicas t)).length = replicas := by
  have hall : ∀ item ∈ (serving e replicas t).agents.items,
      (item.2.reporting && (item.2.loaded e.provider).contains e.model) = true := by
    intro item hitem
    obtain ⟨i, -, rfl⟩ := List.mem_map.mp hitem
    show (true || _) && (if e.provider = e.provider then [e.model] else []).contains e.model
    rw [if_pos rfl]
    simp
  have hfilter : (serving e replicas t).agents.items.filter (fun item =>
      item.2.reporting && (item.2.loaded e.provider).contains e.model) =
        (serving e replicas t).agents.items := List.filter_eq_self.mpr hall
  unfold placements
  rw [hfilter, List.length_map]
  show ((List.range replicas).map fun i => (serverId i, server e)).length = replicas
  rw [List.length_map, List.length_range]

/-- The planner raises nothing for any ledger, any time of the clock and any fleet observed by then.
-/
def Desired.NeverRaises (clock : Clock) (desired : Desired) : Prop :=
  ∀ observed : Observed,
    (∀ ledger now, clock.ticks now → observed.Gathered now →
      ∃ actions, plan desired observed ledger now = .ok actions) ∧
      ∀ ledger now, ∃ out, entryStatus desired observed ledger now = .ok out

variable {clock : Clock} {desired : Desired}

theorem gathered_serving {e : Entry} {replicas : ℕ} {t now : ℚ} (h : t ≤ now) :
    (serving e replicas t).Gathered now := by
  intro key points hget point hpoint
  have hitem : (key, points) ∈ [(e.key, [(t, (0 : ℚ))])] := Dict.mem_items_iff.mpr hget
  cases List.mem_singleton.mp hitem
  rw [List.mem_singleton.mp hpoint]
  exact h

theorem age_of_status {out : Dict String Status} (hsome : desired.entries ≠ [])
    (h : entryStatus desired noFleet none none = .ok out) :
    ∃ maxAge, maxAgeS desired = .ok maxAge := by
  simp only [entryStatus, bind_eq_ok] at h
  obtain ⟨last, hlast, -⟩ := h
  obtain ⟨e, he⟩ := List.exists_mem_of_ne_nil _ hsome
  obtain ⟨acc, acc', -, hstatus⟩ := foldlM_ok_step (fun _ => True) hlast trivial
    (fun _ _ _ _ _ _ => trivial) e (mem_priority_order.mpr he)
  simp only [statusEntry, bind_eq_ok] at hstatus
  obtain ⟨_, -, _, -, _, hspeed, -⟩ := hstatus
  obtain ⟨maxAge, hage, -⟩ := bind_eq_ok.mp hspeed
  exact ⟨maxAge, hage⟩

theorem evaluate_of_plan (hvalid : desired.Valid) {e : Entry} (he : e ∈ desired.entries)
    {cfg : Autoscale} (hcfg : e.autoscale = some cfg) {now : ℚ} (hstarted : 0 ≤ now)
    {actions : List Action}
    (h : plan desired (serving e e.maxReplicas.toNat now) noLedger now = .ok actions) :
    ∃ placed : List String, e.maxReplicas ≤ placed.length ∧
      ∃ decision, evaluateAutoscale e placed [(now, 0)] now = .ok decision := by
  generalize hinp : Inputs.mk desired (serving e e.maxReplicas.toNat now) noLedger now = inp
  simp only [plan, bind_eq_ok, hinp] at h
  obtain ⟨last, hpasses, -⟩ := h
  simp only [passes, bind_eq_ok] at hpasses
  obtain ⟨loaded, hload, hscale⟩ := hpasses
  have hentries : inp.desired.entries = desired.entries := by rw [← hinp]
  have hnoted : Noted inp loaded := foldlM_ok_const (Noted inp) hload
    (noted_init _) fun a ha st st' hst hstep =>
      load_entry_noted (mem_priority_order.mp ha) hst hstep
  obtain ⟨st, st', hst, hstep⟩ := foldlM_ok_step (Noted inp) hscale hnoted
    (fun a ha st st' hst hstep k placed hk => by
      obtain ⟨-, hsame⟩ := scale_entry_moves (mem_priority_order.mp ha) hst hstep
      exact hst k placed (hsame ▸ hk)) e (mem_priority_order.mpr (by rw [hentries]; exact he))
  -- nothing is backing off
  have hback : inp.backingOff e = false := by
    rw [← hinp]
    exact decide_eq_false (not_lt.mpr hstarted)
  rw [scaleEntry, hback, if_neg Bool.false_ne_true] at hstep
  split at hstep
  · cases hstep
  · rename_i placed hplaced
    have hplacements := hst.placements_eq hplaced
    rw [bind_eq_ok] at hstep
    obtain ⟨decision, hdecision, -⟩ := hstep
    have hmin := (hvalid.entry_valid e he).min_pos
    have hrange : e.minReplicas < e.maxReplicas := by
      refine (hvalid.entry_valid e he).autoscale_isSome.mp ?_
      rw [hcfg]
      rfl
    have hlength : (placed.length : Int) = e.maxReplicas := by
      rw [hplacements, ← hinp]
      show ((placements e (serving e e.maxReplicas.toNat now)).length : Int) = _
      rw [placements_serving]
      omega
    have hwith : withFresh placed e.key inp.observed (some inp.ledger) (some inp.now) = placed := by
      rw [← hinp]
      rfl
    rw [hwith, scaleDecision, if_neg (by omega), if_neg (by omega)] at hdecision
    have hhistory : inp.observed.satHistory.getD e.key [] = [(now, 0)] := by
      rw [← hinp]
      show ((List.lookup e.key [(e.key, [(now, (0 : ℚ))])]).getD []) = _
      rw [List.lookup_cons_self]
      rfl
    have hnow : inp.now = now := by rw [← hinp]
    rw [hhistory, hnow] at hdecision
    exact ⟨placed, hlength.ge, decision, hdecision⟩

theorem never_raises_iff (hvalid : desired.Valid) :
    desired.NeverRaises clock ↔ desired.Harmless clock := by
  constructor
  · intro h
    refine ⟨fun hsome => ?_, fun e he cfg hcfg => ?_⟩
    · obtain ⟨out, hout⟩ := (h noFleet).2 none none
      exact age_of_status hsome hout
    · refine usable_of_evaluate hcfg fun now hnow => ?_
      obtain ⟨actions, hactions⟩ := (h (serving e e.maxReplicas.toNat now)).1 noLedger now hnow
        (gathered_serving le_rfl)
      exact evaluate_of_plan hvalid he hcfg (clock.nonneg now hnow) hactions
  · intro h observed
    exact ⟨fun ledger now hnow hpast => plan_total h ledger hnow hpast,
      entry_status_total h observed⟩

end Fleets

end SystemsManager.Autopilot
