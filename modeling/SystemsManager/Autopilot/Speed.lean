import Mathlib.Data.Prod.Lex
import Mathlib.Order.WithBot
import SystemsManager.Autopilot.Fleet

/-!
# Speed ranking and autoscaling

The order in which the planner tries hosts (`_speed_key`, `_ranked_candidates`) and the
autoscale decision (`evaluate_autoscale`). Both compute with numbers that `validate_state`
passed through, so both may raise: the age limit when it does not convert to a float, the
autoscale thresholds when they are not numbers. The ranking is only ever a reordering of the
candidates (`candidates_perm`), which is all that the placement properties need.
-/

namespace SystemsManager.Autopilot

open Python

/-- A planner function that may raise. -/
abbrev Py := Except (Exc Unit)

/-- The tier of a measured host. -/
inductive SpeedTier where
  | measured
  | advisory
  deriving DecidableEq, Repr

/-- The tier's name. -/
def SpeedTier.name : SpeedTier → String
  | .measured => "measured"
  | .advisory => "advisory"

/-- `_speed_rows` -/
def speedRows (e : Entry) (observed : Observed) : Dict String SpeedRow :=
  observed.speed.getD (modelKey e.provider e.model) ∅

/-- `_max_age_s`: the product with a float converts the number of days first. -/
def maxAgeS (desired : Desired) : Py ℚ :=
  let days := desired.speedMaxAgeDays.getD 0
  let days := if days = 0 then SPEED_MAX_AGE_DAYS else days
  if floatable days then pure (days * 86400) else throw .overflowError

/-- `_speed_tier`: advisory when the run is old or the host's build changed since. -/
def speedTier (row : SpeedRow) (agent : Option Agent) (maxAge : ℚ) (now : Option ℚ) : SpeedTier :=
  let old := match now, row.ts with
    | some now, some ts => decide (now - ts > maxAge)
    | _, _ => false
  let cur := match agent with
    | some a => a.llamaBuild
    | none => ""
  if old then .advisory
  else if row.llamaBuild ≠ "" ∧ cur ≠ "" ∧ row.llamaBuild ≠ cur then .advisory
  else .measured

/-- The sort key of a candidate: its tier, then the objective, then the tie breaker. An unknown
energy figure sorts last. -/
abbrev SpeedKey := ℕ ×ₗ WithTop ℚ ×ₗ WithTop ℚ

/-- `_speed_key` -/
def speedKey (e : Entry) (aid : String) (observed : Observed) (desired : Desired)
    (now : Option ℚ) : Py SpeedKey :=
  match (speedRows e observed).get? aid with
  | none => pure (toLex (2, toLex (((0 : ℚ) : WithTop ℚ), ((0 : ℚ) : WithTop ℚ))))
  | some row => do
      let maxAge ← maxAgeS desired
      let tier := match speedTier row (observed.agents.get? aid) maxAge now with
        | .measured => 0
        | .advisory => 1
      let tps : WithTop ℚ := ↑(-(row.genTps.getD 0))
      let wh : WithTop ℚ := match row.whPerKtok with
        | some wh => ↑wh
        | none => ⊤
      pure (if e.rankBy = .energy then toLex (tier, toLex (wh, tps))
        else toLex (tier, toLex (tps, wh)))

/-- `sorted(agents, key=lambda aid: _speed_key(e, aid, ...))` -/
def sortedBySpeed (e : Entry) (agents : List String) (observed : Observed) (desired : Desired)
    (now : Option ℚ) : Py (List String) := do
  let keyed ← agents.mapM fun aid => do
    let key ← speedKey e aid observed desired now
    pure (key, aid)
  pure ((sortedBy Prod.fst keyed).map Prod.snd)

/-- `_ranked_candidates`: pins and `rank_by=capacity` pass through. -/
def rankedCandidates (e : Entry) (agents : List String) (observed : Observed)
    (desired : Desired) (now : Option ℚ) : Py (List String) :=
  if e.placement ≠ "auto" ∨ e.rankBy = .capacity ∨ (speedRows e observed).items = [] then
    pure agents
  else sortedBySpeed e agents observed desired now

/-- The agents an entry may go to, before ranking. -/
def baseCandidates (e : Entry) (observed : Observed) : List String :=
  if e.placement ≠ "auto" then [e.placement] else observed.agents.keys

/-- `_candidates` -/
def candidates (e : Entry) (observed : Observed) (desired : Desired) (now : Option ℚ) :
    Py (List String) :=
  rankedCandidates e (baseCandidates e observed) observed desired now

/-- `_speed_note`: the measured speed that a load reason quotes. -/
def speedNote (e : Entry) (aid : String) (observed : Observed) (desired : Desired)
    (now : Option ℚ) : Py String :=
  match (speedRows e observed).get? aid with
  | none => pure ""
  | some row => match row.genTps with
    | none => pure ""
    | some tps => do
        let maxAge ← maxAgeS desired
        let tier := speedTier row (observed.agents.get? aid) maxAge now
        pure (" · " ++ tier.name ++ " " ++ fixed1 tps ++ " t/s")

variable {e : Entry} {observed : Observed} {desired : Desired} {now : Option ℚ}

theorem sorted_by_speed_perm {agents result : List String}
    (h : sortedBySpeed e agents observed desired now = .ok result) : result.Perm agents := by
  rw [sortedBySpeed, bind_eq_ok] at h
  obtain ⟨keyed, hkeyed, h⟩ := h
  have hmap : keyed.map Prod.snd = agents := by
    clear h
    induction agents generalizing keyed with
    | nil =>
        cases hkeyed
        rfl
    | cons aid rest ih =>
        simp only [List.mapM_cons, bind_eq_ok, pure_eq_ok] at hkeyed
        obtain ⟨_, ⟨key, _, rfl⟩, tail, htail, rfl⟩ := hkeyed
        rw [List.map_cons, ih tail htail]
  cases h
  rw [← hmap]
  exact (sorted_by_perm Prod.fst keyed).map Prod.snd

theorem candidates_perm {result : List String}
    (h : candidates e observed desired now = .ok result) :
    result.Perm (baseCandidates e observed) := by
  unfold candidates rankedCandidates at h
  split at h
  · cases h
    exact List.Perm.refl _
  · exact sorted_by_speed_perm h

theorem candidates_nodup {result : List String}
    (h : candidates e observed desired now = .ok result) :
    result.Nodup := by
  rw [(candidates_perm h).nodup_iff, baseCandidates]
  split
  · exact List.nodup_singleton _
  · exact observed.agents.keys_nodup

/-- The outcomes of the autoscale evaluation. -/
inductive Decision where
  | up
  | down
  | hold
  deriving DecidableEq, Repr

/-- The start of a window that ends now: `now - w`. -/
def windowStart (now : ℚ) (w : Json) : Py PyFloat := do
  let w ← w.toFloat
  pure (PyFloat.subFrom now w)

/-- The saturation points of a window. -/
def windowPoints (history : List (ℚ × ℚ)) (start : PyFloat) : List ℚ :=
  (history.filter fun (t, _) => start.le (.finite t)).map Prod.snd

/-- `points and all(s > target for s in points)` -/
def allAbove (points : List ℚ) (target : Json) : Py Bool :=
  if points = [] then pure false
  else match target.number? with
    | none => throw .typeError
    | some target => pure (points.all fun s => target.lt (.finite s))

/-- `points and all(s < target * 0.5 for s in points)` -/
def allBelowHalf (points : List ℚ) (target : Json) : Py Bool :=
  if points = [] then pure false
  else do
    let target ← target.toFloat
    pure (points.all fun s => (PyFloat.finite s).lt (target.scale (1 / 2)))

/-- `evaluate_autoscale` -/
def evaluateAutoscale (e : Entry) (placed : List String) (history : List (ℚ × ℚ)) (now : ℚ) :
    Py Decision :=
  match e.autoscale, history with
  | none, _ => pure .hold
  | _, [] => pure .hold
  | some cfg, (t0, s0) :: rest => do
      let upStart ← windowStart now cfg.upWindowS
      let above ← allAbove (windowPoints ((t0, s0) :: rest) upStart) cfg.targetSaturation
      if above && (PyFloat.finite t0).le upStart && decide ((placed.length : Int) < e.maxReplicas)
      then pure .up
      else do
        let downStart ← windowStart now cfg.downWindowS
        let below ← allBelowHalf (windowPoints ((t0, s0) :: rest) downStart) cfg.targetSaturation
        if below && (PyFloat.finite t0).le downStart &&
            decide ((placed.length : Int) > e.minReplicas)
        then pure .down
        else pure .hold

theorem evaluate_autoscale_up {placed : List String} {history : List (ℚ × ℚ)} {now : ℚ}
    (h : evaluateAutoscale e placed history now = .ok .up) :
    (placed.length : Int) < e.maxReplicas := by
  unfold evaluateAutoscale at h
  split at h
  · cases h
  · cases h
  · simp only [bind_eq_ok] at h
    obtain ⟨upStart, -, above, -, h⟩ := h
    split at h
    · rename_i hup
      simp only [Bool.and_eq_true, decide_eq_true_eq] at hup
      exact hup.2
    · simp only [bind_eq_ok] at h
      obtain ⟨downStart, -, below, -, h⟩ := h
      split at h <;> cases h

theorem evaluate_autoscale_down {placed : List String} {history : List (ℚ × ℚ)} {now : ℚ}
    (h : evaluateAutoscale e placed history now = .ok .down) :
    e.minReplicas < (placed.length : Int) := by
  unfold evaluateAutoscale at h
  split at h
  · cases h
  · cases h
  · simp only [bind_eq_ok] at h
    obtain ⟨upStart, -, above, -, h⟩ := h
    split at h
    · cases h
    · simp only [bind_eq_ok] at h
      obtain ⟨downStart, -, below, -, h⟩ := h
      split at h
      · rename_i hdown
        simp only [Bool.and_eq_true, decide_eq_true_eq] at hdown
        exact hdown.2
      · cases h

end SystemsManager.Autopilot
