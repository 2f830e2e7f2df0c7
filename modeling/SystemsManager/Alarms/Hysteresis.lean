import SystemsManager.Alarms.Evaluation
import SystemsManager.Alarms.LifeCycle

/-!
# Hysteresis

The engine closes the alerts of a rule after several recovered evaluations in a row and creates one
after several breaching ones. It counts them in two maps that every other reading resets, except an
evaluation that raises, which leaves both. `hysteresis` is the theorem to read: along every run in
which an evaluation raises only while nothing is counted, an alert is closed or created only when
the last evaluations were all recovered, or all breaching.
-/

namespace SystemsManager.Alarms

open Python Sql

variable {Config : Type}

/-- The rule had data. -/
def Reading.hasData : Reading → Bool
  | .noData => false
  | _ => true

/-- A recovered evaluation. -/
def Reading.isRecovered : Reading → Bool
  | .ok recovered => recovered
  | _ => false

/-- A breaching evaluation. -/
def Reading.isBreach : Reading → Bool
  | .breach _ => true
  | _ => false

namespace Engine

open AlertRepository AlertManager

section Counting

/-- The reading of an evaluation of a rule that had data. -/
def readingOf (ruleId : String) : Work Config → Option Reading
  | .evaluate _ rule reading _ _ _ =>
      if rule.ruleId = ruleId ∧ reading.hasData = true then some reading else none
  | _ => none

/-- The readings of a rule, the cycles without data left out. -/
def readingsOf (ruleId : String) (works : List (Work Config)) : List Reading :=
  works.filterMap (readingOf ruleId)

/-- An evaluation has a reading that the engine takes. -/
def Taken : Work Config → Prop
  | .evaluate _ rule reading _ _ now => ∃ ev metricMaxAgeS points,
      reading = takeReading ev metricMaxAgeS rule points now
  | _ => True

/-- An evaluation raises only while nothing is counted for its rule. -/
def RaisesUncounted (eng : Engine) : Work Config → Prop
  | .evaluate _ rule .raised _ _ _ =>
      eng.okStreak.getD rule.ruleId 0 = 0 ∧ eng.breachStreak.getD rule.ruleId 0 = 0
  | _ => True

/-- The counts are at most the runs of evaluations that they count. -/
structure Counted (eng : Engine) (works : List (Work Config)) : Prop where
  ok : ∀ ruleId, eng.okStreak.getD ruleId 0 ≤
    trailing Reading.isRecovered (readingsOf ruleId works)
  breach : ∀ ruleId, eng.breachStreak.getD ruleId 0 ≤
    trailing Reading.isBreach (readingsOf ruleId works)

variable {eng : Engine} {works : List (Work Config)} {w : Work Config}

theorem recovered_of_never {ev : Evaluator Config} {metricMaxAgeS : ℚ} {rule : AlarmRule Config}
    {points : List MetricPoint} {now : ℚ} {recovered : Bool}
    (h : takeReading ev metricMaxAgeS rule points now = .ok recovered)
    (hnever : ¬ 0 < rule.autoResolveCycles) : recovered = true := by
  simp only [takeReading, hnever, decide_false, Bool.false_and, Bool.false_eq_true, if_false] at h
  split at h
  · cases h
  · split at h
    · cases h
    · split at h
      · cases h
      · split at h
        · cases h
        · cases h
        · cases h
          rfl

theorem readings_concat (ruleId : String) (works : List (Work Config)) (w : Work Config) :
    readingsOf ruleId (works ++ [w]) = readingsOf ruleId works ++ (readingOf ruleId w).toList := by
  rw [readingsOf, List.filterMap_append]
  cases hw : readingOf ruleId w with
  | none => simp [readingsOf, hw]
  | some reading => simp [readingsOf, hw]

theorem Counted.same (h : Counted eng works) {eng' : Engine}
    (hok : eng'.okStreak = eng.okStreak) (hbreach : eng'.breachStreak = eng.breachStreak)
    (hnone : ∀ ruleId, readingOf ruleId w = none) : Counted eng' (works ++ [w]) := by
  refine ⟨?_, ?_⟩
  · intro ruleId
    rw [hok, readings_concat, hnone]
    simpa using h.ok ruleId
  · intro ruleId
    rw [hbreach, readings_concat, hnone]
    simpa using h.breach ruleId

theorem Counted.evaluated (h : Counted eng works) {corr : Correlation} {rule : AlarmRule Config}
    {reading : Reading} {value : PyFloat} {alertId : String} {now : ℚ} {eng' : Engine}
    (hdata : reading.hasData = true)
    (hother : ∀ ruleId, ruleId ≠ rule.ruleId →
      eng'.okStreak.getD ruleId 0 = eng.okStreak.getD ruleId 0 ∧
      eng'.breachStreak.getD ruleId 0 = eng.breachStreak.getD ruleId 0)
    (hok : eng'.okStreak.getD rule.ruleId 0 ≤
      if reading.isRecovered then eng.okStreak.getD rule.ruleId 0 + 1 else 0)
    (hbreach : eng'.breachStreak.getD rule.ruleId 0 ≤
      if reading.isBreach then eng.breachStreak.getD rule.ruleId 0 + 1 else 0) :
    Counted eng' (works ++ [.evaluate corr rule reading value alertId now]) := by
  refine ⟨?_, ?_⟩
  · intro ruleId
    have hle := h.ok ruleId
    rw [readings_concat]
    by_cases hid : ruleId = rule.ruleId
    · subst hid
      simp only [readingOf, hdata, and_self, if_true, Option.toList_some, trailing_concat]
      split at hok
      · rename_i hrecovered
        rw [if_pos hrecovered]
        omega
      · rename_i hrecovered
        rw [if_neg hrecovered]
        exact hok
    · simp only [readingOf, Ne.symm hid, false_and, if_false, Option.toList_none, List.append_nil]
      rw [(hother ruleId hid).1]
      exact hle
  · intro ruleId
    have hle := h.breach ruleId
    rw [readings_concat]
    by_cases hid : ruleId = rule.ruleId
    · subst hid
      simp only [readingOf, hdata, and_self, if_true, Option.toList_some, trailing_concat]
      split at hbreach
      · rename_i hbreaching
        rw [if_pos hbreaching]
        omega
      · rename_i hbreaching
        rw [if_neg hbreaching]
        exact hbreach
    · simp only [readingOf, Ne.symm hid, false_and, if_false, Option.toList_none, List.append_nil]
      rw [(hother ruleId hid).2]
      exact hle

theorem auto_resolve_streaks (value : PyFloat) (now : ℚ) (alerts : List Alert) (eng : Engine) :
    (eng.autoResolve value now alerts).okStreak = eng.okStreak ∧
      (eng.autoResolve value now alerts).breachStreak = eng.breachStreak := by
  induction alerts generalizing eng with
  | nil => exact ⟨rfl, rfl⟩
  | cons a rest ih =>
      simp only [autoResolve]
      split
      · exact ih _
      · exact ih _

theorem after_ok_streaks (eng : Engine) (rule : AlarmRule Config) (recovered : Bool)
    (value : PyFloat) (now : ℚ) :
    (eng.afterOk rule recovered value now).okStreak = (eng.countOk rule recovered).okStreak ∧
      (eng.afterOk rule recovered value now).breachStreak =
        eng.breachStreak.erase rule.ruleId := by
  rw [after_ok_eq]
  split
  · exact auto_resolve_streaks value now _ (eng.countOk rule recovered)
  · exact ⟨rfl, rfl⟩

theorem fire_streaks (eng : Engine) (corr : Correlation) (rule : AlarmRule Config)
    (c : AlertCreate) (alertId : String) (now : ℚ) :
    (eng.fire corr rule c alertId now).2.okStreak = eng.okStreak ∧
      (eng.fire corr rule c alertId now).2.breachStreak = eng.breachStreak.erase rule.ruleId := by
  simp only [fire]
  split
  · exact ⟨rfl, rfl⟩
  · exact ⟨rfl, rfl⟩
  · exact ⟨rfl, rfl⟩

/-- The streaks after a cycle in which the rule breaches: that of recovered cycles has ended, and
that of breaches has grown at most by one. -/
theorem after_breach_streaks (eng : Engine) (corr : Correlation) (rule : AlarmRule Config)
    (c : AlertCreate) (value : PyFloat) (alertId : String) (now : ℚ) :
    (eng.afterBreach corr rule c value alertId now).2.okStreak = eng.okStreak.erase rule.ruleId ∧
      (∀ ruleId, ruleId ≠ rule.ruleId →
        (eng.afterBreach corr rule c value alertId now).2.breachStreak.getD ruleId 0 =
          eng.breachStreak.getD ruleId 0) ∧
      (eng.afterBreach corr rule c value alertId now).2.breachStreak.getD rule.ruleId 0 ≤
        eng.breachStreak.getD rule.ruleId 0 + 1 := by
  rw [after_breach_eq]
  split
  · split
    · refine ⟨rfl, ?_, ?_⟩
      · intro ruleId hid
        simp [hid]
      · simp
    · obtain ⟨hok, hbreach⟩ := fire_streaks (eng.notOk rule.ruleId) corr rule c alertId now
      rw [hok, hbreach]
      refine ⟨rfl, ?_, ?_⟩
      · intro ruleId hid
        simp [hid, notOk]
      · simp
  · exact ⟨rfl, fun _ _ => rfl, Nat.le_succ _⟩

theorem Counted.step (h : Counted eng works) (htaken : Taken w) (hraises : eng.RaisesUncounted w) :
    Counted (eng.step w) (works ++ [w]) := by
  have hserve : ∀ result : Option (Alert × AlertRepository),
      (eng.serve result).okStreak = eng.okStreak ∧
        (eng.serve result).breachStreak = eng.breachStreak := by
    intro result
    simp only [serve]
    split <;> exact ⟨rfl, rfl⟩
  cases w with
  | evaluate corr rule reading value alertId now =>
      cases reading with
      | noData => exact h.same rfl rfl fun ruleId => by simp [readingOf, Reading.hasData]
      | stale =>
          refine h.evaluated rfl ?_ ?_ ?_
          · intro ruleId hid
            simp [Engine.step, evaluateRule, hid]
          · simp [Engine.step, evaluateRule]
          · simp [Engine.step, evaluateRule]
      | suppressed =>
          refine h.evaluated rfl ?_ ?_ ?_
          · intro ruleId hid
            simp [Engine.step, evaluateRule, hid]
          · simp [Engine.step, evaluateRule]
          · simp [Engine.step, evaluateRule]
      | raised =>
          refine h.evaluated rfl (fun _ _ => ⟨rfl, rfl⟩) ?_ ?_
          · exact le_of_eq hraises.1
          · exact le_of_eq hraises.2
      | ok recovered =>
          obtain ⟨hok, hbreach⟩ := after_ok_streaks eng rule recovered value now
          have hstep : eng.step (.evaluate corr rule (.ok recovered) value alertId now) =
              eng.afterOk rule recovered value now := rfl
          refine h.evaluated rfl ?_ ?_ ?_
          · intro ruleId hid
            rw [hstep, hok, hbreach]
            refine ⟨?_, by simp [hid]⟩
            simp only [countOk]
            split
            · split <;> simp [hid]
            · rfl
          · rw [hstep, hok]
            simp only [countOk, Reading.isRecovered]
            split
            · exact (getD_streak _ _ _).le
            · rename_i hnever
              obtain ⟨ev, metricMaxAgeS, points, hreading⟩ := htaken
              rw [recovered_of_never hreading.symm hnever]
              exact Nat.le_succ _
          · rw [hstep, hbreach]
            simp
      | breach c =>
          obtain ⟨hok, hother, hbreach⟩ := after_breach_streaks eng corr rule c value alertId now
          have hstep : eng.step (.evaluate corr rule (.breach c) value alertId now) =
              (eng.afterBreach corr rule c value alertId now).2 := rfl
          refine h.evaluated rfl ?_ ?_ ?_
          · intro ruleId hid
            rw [hstep, hok]
            exact ⟨by simp [hid], hother ruleId hid⟩
          · rw [hstep, hok]
            simp
          · rw [hstep]
            exact hbreach
  | acknowledge alertId now => exact h.same (hserve _).1 (hserve _).2 fun _ => rfl
  | close alertId reason now => exact h.same (hserve _).1 (hserve _).2 fun _ => rfl
  | ignore alertId durationHours now => exact h.same (hserve _).1 (hserve _).2 fun _ => rfl
  | resume alertId now => exact h.same (hserve _).1 (hserve _).2 fun _ => rfl
  | process corr c alertId now =>
      refine h.same ?_ ?_ fun _ => rfl
      · simp only [Engine.step]
        split <;> rfl
      · simp only [Engine.step]
        split <;> rfl
  | expireWindows now =>
      refine h.same ?_ ?_ fun _ => rfl
      · simp only [Engine.step, expireIgnoreWindows]
        split <;> rfl
      · simp only [Engine.step, expireIgnoreWindows]
        split <;> rfl
  | _ => exact h.same rfl rfl fun _ => rfl

theorem Counted.run (hok : eng.okStreak = ∅) (hbreach : eng.breachStreak = ∅)
    (htaken : ∀ w ∈ works, Taken w)
    (hraises : Each (fun before w => (eng.run before).RaisesUncounted w) works) :
    Counted (eng.run works) works := by
  induction works using List.reverseRecOn with
  | nil =>
      refine ⟨fun ruleId => ?_, fun ruleId => ?_⟩
      · show eng.okStreak.getD ruleId 0 ≤ _
        rw [hok]
        exact Nat.zero_le _
      · show eng.breachStreak.getD ruleId 0 ≤ _
        rw [hbreach]
        exact Nat.zero_le _
  | append_singleton works w ih =>
      rw [each_concat] at hraises
      rw [run_concat]
      exact (ih (fun w hw => htaken w (List.mem_append_left _ hw)) hraises.1).step
        (htaken w (by simp)) hraises.2

end Counting

section Hysteresis

/-- The work records that an alert is closed. -/
def ClosesAlert (eng : Engine) (w : Work Config) : Prop :=
  ∃ id, closedEvents (eng.step w).repo.db id ≠ closedEvents eng.repo.db id

/-- The work stores a new alert. -/
def CreatesAlert (eng : Engine) (w : Work Config) : Prop :=
  ∃ row ∈ (eng.step w).repo.db.unionAll, eng.Unused row.alertId

/-- An evaluation closes an alert only if the last evaluations of the rule, as many as its
auto-resolve cycles, were all recovered; and it creates one only if the last ones, as many as its
trigger cycles, were all breaching. -/
def Steady (eng : Engine) (before : List (Work Config)) : Work Config → Prop
  | .evaluate corr rule reading value alertId now =>
      let w := Work.evaluate corr rule reading value alertId now
      (eng.ClosesAlert w → Recent Reading.isRecovered rule.autoResolveCycles
        (readingsOf rule.ruleId (before ++ [w]))) ∧
      (eng.CreatesAlert w → Recent Reading.isBreach (max 1 rule.minTriggerCycles)
        (readingsOf rule.ruleId (before ++ [w])))
  | _ => True

variable {eng : Engine} {works : List (Work Config)} {w : Work Config}

theorem steady_of_counted (h : Counted eng works) (hfresh : ∀ id ∈ w.newId, eng.Unused id) :
    eng.Steady works w := by
  cases w with
  | evaluate corr rule reading value alertId now =>
      have hserves := step_serves eng _ hfresh
      refine ⟨?_, ?_⟩
      · rintro ⟨id, hevents⟩
        have hcloses : (eng.scope (.evaluate corr rule reading value alertId now)).closes id := by
          by_contra hno
          exact hevents (hserves.store.events id hno)
        cases reading with
        | ok recovered =>
            obtain ⟨⟨hresolves, -⟩, -⟩ := hcloses
            simp only [resolves, Bool.and_eq_true, decide_eq_true_eq] at hresolves
            refine recent_of_trailing ?_
            rw [readings_concat]
            simp only [readingOf, Reading.hasData, and_self, if_true, Option.toList_some,
              trailing_concat, Reading.isRecovered]
            have hle := h.ok rule.ruleId
            cases recovered with
            | true =>
                simp only [if_true] at hresolves ⊢
                omega
            | false => exact hresolves.2
        | _ => cases hcloses
      · rintro ⟨row, hrow, hunused⟩
        rcases hserves.store.rows row hrow with ⟨old, hold, hfollows⟩ | hborn
        · exact absurd hfollows.alertId.symm (hunused old hold)
        · have hcreates := hborn.creates
          cases reading with
          | breach c =>
              obtain ⟨-, -, hfires, -⟩ := hcreates
              simp only [fires, Bool.and_eq_true, decide_eq_true_eq] at hfires
              refine recent_of_trailing ?_
              rw [readings_concat]
              simp only [readingOf, Reading.hasData, and_self, if_true, Option.toList_some,
                trailing_concat, Reading.isBreach]
              have hle := h.breach rule.ruleId
              omega
          | _ => cases hcreates
  | _ => trivial

/-- In every run from empty streaks in which an evaluation raises only while nothing is counted for
its rule, alerts are closed and created with hysteresis. -/
theorem hysteresis {eng : Engine} (hok : eng.okStreak = ∅) (hbreach : eng.breachStreak = ∅)
    (works : List (Work Config)) (hnew : eng.NewIds works) (htaken : ∀ w ∈ works, Taken w)
    (hraises : Each (fun before w => (eng.run before).RaisesUncounted w) works) :
    Each (fun before w => (eng.run before).Steady before w) works := by
  rintro before w after rfl
  rw [← List.singleton_append, ← List.append_assoc] at hnew
  refine steady_of_counted (Counted.run hok hbreach ?_ hraises.part) hnew.part.unused_next
  exact fun w hw => htaken w (List.mem_append_left _ hw)

theorem raises_of_recovered {corr : Correlation} {rule : AlarmRule Config} {reading : Reading}
    {value : PyFloat} {alertId : String} {now : ℚ} (h : reading.isRecovered = true) :
    eng.RaisesUncounted (.evaluate corr rule reading value alertId now) := by
  cases reading with
  | raised => cases h
  | _ => trivial

/-- A z-score rule over the last minute that closes its alerts after two recovered cycles. -/
def spikeRule : AlarmRule RuleSpecificConfig where
  ruleId := "r"
  name := "spike"
  description := none
  sourceHost := none
  metricSource := "gpu"
  metricName := "temperature"
  ruleType := .zScore
  config := { zScore := some { windowMinutes := 1, minDataPoints := 2 } }
  severity := .warning
  enabled := true
  notificationChannelIds := []
  quietHoursStart := none
  quietHoursEnd := none
  autoResolveCycles := 2
  minTriggerCycles := 1
  correlationGroup := none
  createdAt := 0
  updatedAt := 0
  lastEvaluatedAt := none
  lastAlertAt := none

/-- An evaluation of the rule on samples with their times, the last of them just taken. -/
def spikeCycle (samples : List (ℚ × ℚ)) (alertId : String) (now : ℚ) : Work RuleSpecificConfig :=
  .evaluate {} spikeRule
    (takeReading (Evaluator.ofConfig (fun _ _ => false)
      (fun _ _ _ => violation "r") now) 60 spikeRule
      (samples.map fun sample => ⟨.finite sample.1, some sample.2⟩) now) (.finite 70) alertId now

/-- An ongoing alert, and then two cycles with a quiet metric. -/
def quietCycles : List (Work RuleSpecificConfig) :=
  [] ++ [.process {} (violation "r") "a" 0] ++ [.takeSnapshot] ++
    [spikeCycle [(70, 80), (71, 90), (70, 100)] "b" 100] ++
    [spikeCycle [(70, 80), (71, 90), (70, 100), (71, 120), (70, 130)] "c" 130]

/-- The alert is closed after the two cycles. -/
theorem hysteresis_quiet_cycles :
    Each (fun before w => (idle.run before).Steady before w) quietCycles := by
  refine hysteresis rfl rfl quietCycles ⟨by decide, fun id _ row hrow => by cases hrow⟩ ?_ ?_
  · intro w hw
    simp only [quietCycles, List.nil_append, List.cons_append, List.mem_cons, List.not_mem_nil,
      or_false] at hw
    rcases hw with rfl | rfl | rfl | rfl
    · trivial
    · trivial
    · exact ⟨_, _, _, rfl⟩
    · exact ⟨_, _, _, rfl⟩
  · rw [quietCycles]
    simp only [each_concat]
    refine ⟨⟨⟨⟨each_nil, trivial⟩, trivial⟩, ?_⟩, ?_⟩
    · exact raises_of_recovered (by decide +kernel)
    · exact raises_of_recovered (by decide +kernel)

/-- One of the samples is so large that the variance overflows in the second cycle, and in the third
it is no longer in the window. -/
theorem closed_after_raised : ¬ ∀ (eng : Engine) (works : List (Work RuleSpecificConfig)),
    eng.okStreak = ∅ → eng.breachStreak = ∅ → eng.NewIds works → (∀ w ∈ works, Taken w) →
    Each (fun before w => (eng.run before).Steady before w) works := by
  intro h
  have heach := h idle ([.process {} (violation "r") "a" 0, .takeSnapshot,
    spikeCycle [(70, 80), (71, 90), (70, 100)] "b" 100,
    spikeCycle [(70, 80), (71, 90), (70, 100), (10 ^ 200, 120), (70, 130)] "c" 130] ++
    [spikeCycle [(70, 100), (10 ^ 200, 120), (70, 130), (70, 180), (71, 190), (70, 200)] "d" 200])
    rfl rfl ⟨by decide, fun id _ row hrow => by cases hrow⟩ ?_
  · rw [each_concat] at heach
    have hrecent := (heach.2.1 ⟨"a", by decide +kernel⟩).le_trailing
    revert hrecent
    decide +kernel
  · intro w hw
    simp only [List.cons_append, List.nil_append, List.mem_cons, List.not_mem_nil, or_false] at hw
    rcases hw with rfl | rfl | rfl | rfl | rfl
    · trivial
    · trivial
    · exact ⟨_, _, _, rfl⟩
    · exact ⟨_, _, _, rfl⟩
    · exact ⟨_, _, _, rfl⟩

end Hysteresis

end Engine

end SystemsManager.Alarms
