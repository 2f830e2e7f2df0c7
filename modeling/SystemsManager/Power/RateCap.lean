import Mathlib.Tactic.Linarith
import SystemsManager.History
import SystemsManager.Power.Arbiter

/-!
# The switch rate cap

`_apply` drops the entries of `_switch_times` that are more than a minute old and calls
`_switch` only when fewer than `cap` entries are left; the entry of an attempt is the reading of
the clock after it. `switch_rate_capped` states what that buys over whole runs: whatever moment
between its two readings an attempt is said to happen at, no closed minute holds more than `cap`
attempts.
-/

namespace SystemsManager.Power

open Python

/-- A moment at which the attempt may be said to happen: not before it started and, once it is
recorded, not after that. -/
def Attempt.During (x : Attempt) (t : ℚ) : Prop :=
  x.started ≤ t ∧ ∀ r, x.recorded = some r → t ≤ r

/-- The earlier attempt `y` was recorded within the minute before `x` started. -/
def Attempt.Near (x y : Attempt) : Prop := ∃ r ∈ y.recorded, x.started ≤ r + 60

instance (x y : Attempt) : Decidable (x.Near y) :=
  match h : y.recorded with
  | none => isFalse (by simp [Attempt.Near, h])
  | some r => decidable_of_iff (x.started ≤ r + 60) (by simp [Attempt.Near, h])

/-- The attempt is over and was recorded after it started. -/
def Attempt.Done (x : Attempt) : Prop := ∃ r, x.recorded = some r ∧ x.started ≤ r

/-- The readings that went into `_switch_times`. -/
def recordedTimes (attempts : List Attempt) : List ℚ := attempts.filterMap Attempt.recorded

theorem length_filter_near (x : Attempt) (attempts : List Attempt) :
    (attempts.filter fun y => x.Near y).length =
      ((recordedTimes attempts).filter fun r => x.started ≤ r + 60).length := by
  induction attempts with
  | nil => rfl
  | cons y rest ih =>
      cases hy : y.recorded with
      | none =>
          have hnear : ¬ x.Near y := by simp [Attempt.Near, hy]
          simpa [recordedTimes, hnear, hy] using ih
      | some r =>
          have hnear : x.Near y ↔ x.started ≤ r + 60 := by simp [Attempt.Near, hy]
          simp only [recordedTimes] at ih
          by_cases hr : x.started ≤ r + 60
          · simp [recordedTimes, hnear, hy, hr, ih]
          · simp [recordedTimes, hnear, hy, hr, ih]

/-- An attempt with those before it: all of them are over, and fewer than `k` are near. -/
def Apart (k : ℕ) (before : List Attempt) (x : Attempt) : Prop :=
  (∀ y ∈ before, y.Done) ∧ (before.filter fun y => x.Near y).length < k

/-- The worker waits for `_switch`. -/
def Phase.isSwitching : Phase → Bool
  | .switching _ _ => true
  | _ => false

/-- The attempts and the phase of a worker belong together: only the last attempt may be under
way, and it is while the worker waits for `_switch`. -/
def InStep (switching : Bool) (attempts : List Attempt) (clock : ℚ) : Prop :=
  match switching with
  | true => ∃ before started, attempts = before ++ [⟨started, none⟩] ∧ started ≤ clock ∧
      ∀ y ∈ before, y.Done
  | false => ∀ y ∈ attempts, y.Done

/-- What the worker of arbiter `n` keeps true about its attempts. -/
structure Capped (k : ℕ) (n : ℕ) (w : World) : Prop where
  cap : (w.arbiter n).cap = k
  times : ∃ dropped, recordedTimes (w.attempts n) = dropped ++ (w.arbiter n).switchTimes ∧
    ∀ r ∈ dropped, 60 < w.clock - r
  apart : Each (Apart k) (w.attempts n)
  phase : InStep (w.phase n).isSwitching (w.attempts n) w.clock

namespace Capped

variable {k n : ℕ} {w w' : World}

theorem frame (h : Capped k n w) (hcap : (w'.arbiter n).cap = (w.arbiter n).cap)
    (htimes : (w'.arbiter n).switchTimes = (w.arbiter n).switchTimes)
    (hattempts : w'.attempts n = w.attempts n)
    (hphase : (w'.phase n).isSwitching = (w.phase n).isSwitching) (hclock : w.clock ≤ w'.clock) :
    Capped k n w' := by
  refine ⟨hcap.trans h.cap, ?_, ?_, ?_⟩
  · obtain ⟨dropped, hsplit, hold⟩ := h.times
    refine ⟨dropped, by rw [hattempts, htimes, hsplit], ?_⟩
    intro r hr
    have := hold r hr
    linarith
  · rw [hattempts]
    exact h.apart
  · rw [hattempts, hphase]
    have hstep := h.phase
    cases hs : (w.phase n).isSwitching with
    | false =>
        rw [hs] at hstep
        exact hstep
    | true =>
        rw [hs] at hstep
        obtain ⟨before, started, heq, hstarted, hdone⟩ := hstep
        exact ⟨before, started, heq, hstarted.trans hclock, hdone⟩

theorem update_field {β : Type} (f : Arbiter → β) {arbiter : ℕ → Arbiter} {m : ℕ} {a : Arbiter}
    (h : f a = f (arbiter m)) : f (Function.update arbiter m a n) = f (arbiter n) := by
  by_cases hn : n = m
  · subst hn
    rw [Function.update_self, h]
  · rw [Function.update_of_ne hn]

theorem put (h : Capped k n w) {m : ℕ} {a : Arbiter} (hcap : a.cap = (w.arbiter m).cap)
    (htimes : a.switchTimes = (w.arbiter m).switchTimes) : Capped k n (w.put m a) :=
  h.frame (update_field Arbiter.cap hcap) (update_field Arbiter.switchTimes htimes) rfl rfl le_rfl

theorem goto (h : Capped k n w) {m : ℕ} {p : Phase}
    (hp : p.isSwitching = (w.phase m).isSwitching) : Capped k n (w.goto m p) := by
  refine h.frame rfl rfl rfl ?_ le_rfl
  by_cases hn : n = m
  · subst hn
    simpa using hp
  · simp [hn]

theorem clocked (h : Capped k n w) {now : ℚ} (hnow : w.clock ≤ now) :
    Capped k n (w.clocked now) :=
  h.frame rfl rfl rfl rfl hnow

theorem look (h : Capped k n w) {m : ℕ} (hidle : w.phase m = .idle) (now : ℚ) :
    Capped k n (w.look m now) := by
  have hconverge : Capped k n (w.put m (w.arbiter m).converge) := by
    unfold Arbiter.converge
    split <;> exact h.put rfl rfl
  have hpick : ∀ desired source, Capped k n
      ((w.put m { w.arbiter m with busy := true }).goto m (.picked desired source)) := by
    intro desired source
    have hbusy : Capped k n (w.put m { w.arbiter m with busy := true }) := h.put rfl rfl
    exact hbusy.goto (by simp [hidle, Phase.isSwitching])
  unfold World.look
  dsimp only
  split
  · exact h.goto (by simp [hidle, Phase.isSwitching])
  · split
    · exact hconverge
    · split
      · exact hconverge
      · split
        · exact h
        · split
          · split
            · exact h
            · exact hpick _ _
          · exact hpick _ _

theorem times_prune (times : List ℚ) (now : ℚ) :
    ∃ dropped, times = dropped ++ Arbiter.prune now times ∧ ∀ r ∈ dropped, 60 < now - r := by
  refine ⟨times.takeWhile fun t => 60 < now - t, ?_, ?_⟩
  · exact (List.takeWhile_append_dropWhile).symm
  · intro r hr
    have hlate := List.all_takeWhile (p := fun t => decide (60 < now - t)) (l := times)
    simpa using List.all_eq_true.mp hlate r hr

theorem other (h : Capped k n w) (harbiter : w'.arbiter n = w.arbiter n)
    (hphase : w'.phase n = w.phase n) (hattempts : w'.attempts n = w.attempts n)
    (hclock : w.clock ≤ w'.clock) : Capped k n w' :=
  h.frame (by rw [harbiter]) (by rw [harbiter]) hattempts (by rw [hphase]) hclock

theorem all_done (h : Capped k n w) (hphase : (w.phase n).isSwitching = false) :
    ∀ y ∈ w.attempts n, y.Done := by
  have hstep := h.phase
  rw [hphase] at hstep
  exact hstep

theorem prune (h : Capped k n w) {now : ℚ} (hnow : w.clock ≤ now) :
    ∃ dropped, recordedTimes (w.attempts n) =
        dropped ++ Arbiter.prune now (w.arbiter n).switchTimes ∧ ∀ r ∈ dropped, 60 < now - r := by
  obtain ⟨dropped, hsplit, hold⟩ := h.times
  obtain ⟨pruned, hpruned, hlate⟩ := times_prune (w.arbiter n).switchTimes now
  refine ⟨dropped ++ pruned, ?_, ?_⟩
  · rw [List.append_assoc, ← hpruned, hsplit]
  · intro r hr
    rcases List.mem_append.mp hr with hr | hr
    · have := hold r hr
      linarith
    · exact hlate r hr

theorem near_lt (h : Capped k n w) {now : ℚ} (hnow : w.clock ≤ now)
    (hfew : (Arbiter.prune now (w.arbiter n).switchTimes).length < k) :
    ((w.attempts n).filter fun y => (Attempt.mk now none).Near y).length < k := by
  obtain ⟨dropped, hsplit, hold⟩ := h.prune hnow
  have hnone : dropped.filter (fun r => now ≤ r + 60) = [] := by
    rw [List.filter_eq_nil_iff]
    intro r hr hle
    have := hold r hr
    have hle : now ≤ r + 60 := by simpa using hle
    linarith
  rw [length_filter_near, hsplit, List.filter_append, hnone, List.nil_append]
  exact (List.length_filter_le _ _).trans_lt hfew

theorem begin_attempt (h : Capped k n w) {now : ℚ} (hnow : w.clock ≤ now)
    (hphase : (w.phase n).isSwitching = false)
    (hfew : (Arbiter.prune now (w.arbiter n).switchTimes).length < k)
    (hcap : (w'.arbiter n).cap = (w.arbiter n).cap)
    (htimes : (w'.arbiter n).switchTimes = Arbiter.prune now (w.arbiter n).switchTimes)
    (hswitching : (w'.phase n).isSwitching = true)
    (hattempts : w'.attempts n = w.attempts n ++ [⟨now, none⟩]) (hclock : w'.clock = now) :
    Capped k n w' := by
  have hdone := h.all_done hphase
  refine ⟨hcap.trans h.cap, ?_, ?_, ?_⟩
  · obtain ⟨dropped, hsplit, hold⟩ := h.prune hnow
    refine ⟨dropped, ?_, by rwa [hclock]⟩
    rw [hattempts, htimes, ← hsplit]
    simp [recordedTimes]
  · rw [hattempts, each_concat]
    exact ⟨h.apart, hdone, h.near_lt hnow hfew⟩
  · rw [hswitching, hattempts, hclock]
    exact ⟨w.attempts n, now, rfl, le_rfl, hdone⟩

/-- An attempt is put off. -/
theorem defer_attempt (h : Capped k n w) {now : ℚ} (hnow : w.clock ≤ now)
    (hcap : (w'.arbiter n).cap = (w.arbiter n).cap)
    (htimes : (w'.arbiter n).switchTimes = Arbiter.prune now (w.arbiter n).switchTimes)
    (hphase : (w.phase n).isSwitching = false) (hphase' : (w'.phase n).isSwitching = false)
    (hattempts : w'.attempts n = w.attempts n) (hclock : w'.clock = now) : Capped k n w' := by
  refine ⟨hcap.trans h.cap, ?_, by rw [hattempts]; exact h.apart, ?_⟩
  · obtain ⟨dropped, hsplit, hold⟩ := h.prune hnow
    exact ⟨dropped, by rw [hattempts, htimes, hsplit], by rwa [hclock]⟩
  · rw [hphase', hattempts]
    exact h.all_done hphase

theorem apply (h : Capped k n w) (hk : 0 < k) {m : ℕ} {profile : Profile}
    {source : Option Source} (hpicked : w.phase m = .picked profile source) {now : ℚ}
    (hnow : w.clock ≤ now) : Capped k n ((w.apply m profile source now).clocked now) := by
  by_cases hn : n = m
  · subst hn
    have hphase : (w.phase n).isSwitching = false := by simp [hpicked, Phase.isSwitching]
    unfold World.apply
    dsimp only
    split
    · split
      · refine h.defer_attempt hnow ?_ ?_ hphase ?_ rfl rfl
        · simp [Arbiter.defer]
        · simp [Arbiter.defer]
        · simp [Phase.isSwitching]
      · rename_i hfew
        refine h.begin_attempt hnow hphase ?_ ?_ ?_ ?_ ?_ rfl
        · rw [← h.cap]
          exact Nat.lt_of_not_le hfew
        · simp
        · simp
        · simp [Phase.isSwitching]
        · simp
    · rename_i hnil
      refine h.begin_attempt hnow hphase ?_ ?_ ?_ ?_ ?_ rfl
      · rw [hnil]
        exact hk
      · simp
      · simp
      · simp [Phase.isSwitching]
      · simp
  · unfold World.apply
    dsimp only
    split
    · split
      · exact h.other (by simp [hn])
          (by simp [hn]) rfl hnow
      · exact h.other (by simp [hn])
          (by simp [hn])
          (by simp [hn]) hnow
    · exact h.other (by simp [hn])
        (by simp [hn])
        (by simp [hn]) hnow

/-- The attempt under way is recorded. -/
theorem settle (h : Capped k n w) {m : ℕ} {profile : Profile} {source : Option Source}
    (hswitching : w.phase m = .switching profile source) (verdict : Verdict) {recorded later : ℚ}
    (hrecorded : w.clock ≤ recorded) (hlater : recorded ≤ later) :
    Capped k n ((((w.put m ((w.arbiter m).settle profile verdict recorded later)).goto m
      .applied).note m (World.recordLast recorded (w.attempts m))).clocked later) := by
  by_cases hn : n = m
  · subst hn
    have hstep := h.phase
    rw [hswitching] at hstep
    obtain ⟨before, started, heq, hstarted, hdone⟩ := hstep
    have hlast : World.recordLast recorded (w.attempts n) = before ++
      [⟨started, some recorded⟩] := by
      simp [World.recordLast, heq]
    have htimes : ((w.arbiter n).settle profile verdict recorded later).switchTimes =
        (w.arbiter n).switchTimes ++ [recorded] := by
      unfold Arbiter.settle
      dsimp only
      split <;> rfl
    have hcap : ((w.arbiter n).settle profile verdict recorded later).cap =
        (w.arbiter n).cap := by
      unfold Arbiter.settle
      dsimp only
      split <;> rfl
    have hapart := h.apart
    rw [heq, each_concat] at hapart
    refine ⟨?_, ?_, ?_, ?_⟩
    · simpa [hcap] using h.cap
    · obtain ⟨dropped, hsplit, hold⟩ := h.times
      refine ⟨dropped, ?_, ?_⟩
      · have hsplit : before.filterMap Attempt.recorded =
            dropped ++ (w.arbiter n).switchTimes := by
          simpa [recordedTimes, heq] using hsplit
        simp [hlast, htimes, recordedTimes, hsplit]
      · intro r hr
        have := hold r hr
        show 60 < later - r
        linarith
    · simp only [World.clocked, World.note, Function.update_self, hlast]
      rw [each_concat]
      exact hapart
    · simp only [World.clocked, World.note, World.goto, Function.update_self, hlast,
        Phase.isSwitching]
      show ∀ y ∈ before ++ [⟨started, some recorded⟩], y.Done
      intro y hy
      rcases List.mem_append.mp hy with hy | hy
      · exact hdone y hy
      · rw [List.mem_singleton] at hy
        subst hy
        exact ⟨recorded, rfl, hstarted.trans hrecorded⟩
  · exact h.other (by simp [hn]) (by simp [hn]) (by simp [hn]) (hrecorded.trans hlater)

/-- Every event keeps what is known about the attempts. -/
theorem step (h : Capped k n w) (hk : 0 < k) {e : Event} (hstep : w.step e = some w') :
    Capped k n w' := by
  cases e with
  | request m profile owner holder =>
      simp only [World.step, Arbiter.request] at hstep
      split at hstep
      · rename_i a ha
        cases hstep
        split at ha
        · cases ha
          exact h.put rfl rfl
        · cases ha
      · cases hstep
        exact h
  | release m owner holder =>
      simp only [World.step, Arbiter.release] at hstep
      split at hstep
      · rename_i a ha
        cases hstep
        split at ha
        · cases ha
          exact h.put rfl rfl
        · cases ha
      · cases hstep
        exact h
  | setPolicy m profile =>
      cases hstep
      cases profile with
      | none => exact h.put rfl rfl
      | some profile => exact h.put rfl rfl
  | onAggregate m aggregate =>
      cases hstep
      unfold Arbiter.onAggregate
      split <;> exact h.put rfl rfl
  | adoptHolds m other =>
      cases hstep
      exact h.put rfl rfl
  | start m =>
      simp only [World.step] at hstep
      split at hstep
      · rename_i hended
        cases hstep
        have hput : Capped k n (w.put m { w.arbiter m with stop := false }) := h.put rfl rfl
        exact hput.goto (by simp [hended, Phase.isSwitching])
      · cases hstep
        exact h
  | stop m =>
      cases hstep
      exact h.put rfl rfl
  | look m now =>
      simp only [World.step] at hstep
      split at hstep
      · rename_i hidle
        cases hstep
        have hclock : (w.look m now).clock = w.clock := by
          unfold World.look
          dsimp only
          repeat' split
          all_goals rfl
        exact (h.look hidle.1 now).clocked (hclock.trans_le hidle.2)
      · cases hstep
  | apply m now =>
      simp only [World.step] at hstep
      split at hstep
      · rename_i hphase
        split at hstep
        · rename_i hnow
          cases hstep
          exact h.apply hk hphase hnow
        · cases hstep
      · cases hstep
  | settle m verdict recorded later =>
      simp only [World.step] at hstep
      split at hstep
      · rename_i hphase
        split at hstep
        · rename_i htime
          cases hstep
          exact h.settle hphase verdict htime.1 htime.2
        · cases hstep
      · cases hstep
  | finish m =>
      simp only [World.step] at hstep
      split at hstep
      · rename_i happlied
        cases hstep
        have hput : Capped k n (w.put m { w.arbiter m with busy := false }) := h.put rfl rfl
        exact hput.goto (by simp [happlied, Phase.isSwitching])
      · cases hstep

end Capped

theorem capped_of_runs {allow : World → Event → Prop} {settings : ℕ → Settings} {clock : ℚ}
    {events : List Event} {w : World} (h : Runs allow (World.boot settings clock) events w)
    (n : ℕ) : Capped (max 1 (settings n).maxSwitchesPerMin).toNat n w := by
  induction h with
  | nil =>
      exact ⟨rfl, ⟨[], rfl, by simp⟩, each_nil, by simp [World.boot, InStep, Phase.isSwitching]⟩
  | snoc _ _ hstep ih => exact ih.step (by omega) hstep

/-- In every run of the arbiter, with any requests, any policy and any outcomes of the switches,
and whatever moment each attempt is said to happen at, no closed window of a minute holds more
attempts than the configured cap. -/
theorem switch_rate_capped (settings : ℕ → Settings) (clock : ℚ) (events : List Event)
    (w : World) (h : Runs (fun _ _ => True) (World.boot settings clock) events w) (n : ℕ)
    (marks : List (Attempt × ℚ)) (hmarks : marks.map Prod.fst = w.attempts n)
    (hduring : ∀ m ∈ marks, m.1.During m.2) (opening : ℚ) :
    (marks.filter fun m => opening ≤ m.2 ∧ m.2 ≤ opening + 60).length ≤
      (max 1 (settings n).maxSwitchesPerMin).toNat := by
  have hapart := (capped_of_runs h n).apart
  rw [← hmarks] at hapart
  have hapart := each_of_map hapart
  refine length_filter_le_of_each (r := fun x y => x.1.Near y.1) ?_ ?_
  · intro before x after hsplit
    have hfew := (hapart before x after hsplit).2
    rwa [List.filter_map, List.length_map] at hfew
  · intro before x after hsplit hx y hy hyw
    -- the later attempt starts no later than the window closes, a minute after the earlier moment
    obtain ⟨r, hr, _⟩ := (hapart before x after hsplit).1 y.1 (List.mem_map_of_mem hy)
    have hxd := hduring x (by simp [hsplit])
    have hyd := hduring y (by simp [hsplit, hy])
    refine ⟨r, hr, ?_⟩
    calc x.1.started ≤ x.2 := hxd.1
      _ ≤ opening + 60 := hx.2
      _ ≤ y.2 + 60 := by linarith [hyw.1]
      _ ≤ r + 60 := by linarith [hyd.2 r hr]

/-- One switch under a cap of one a minute; the next one is put off. -/
def twoRequests : List Event :=
  [.start 0, .request 0 "performance" "manual" none, .look 0 1, .apply 0 1,
    .settle 0 ⟨.verified, none, some "performance", []⟩ 2 2, .finish 0,
    .request 0 "powersave" "manual" none, .look 0 62, .apply 0 62]

/-- The second request of the minute is deferred: exactly a minute after the recorded switch its
entry still counts. -/
theorem two_requests_capped :
    ∃ w, Runs (fun _ _ => True) (World.boot (fun _ => { maxSwitchesPerMin := 1 }) 0) twoRequests w ∧
      w.attempts 0 = [⟨1, some 2⟩] ∧ (w.arbiter 0).counters.deferred = 1 ∧
      ([((⟨1, some 2⟩ : Attempt), (2 : ℚ))].filter fun m => 2 ≤ m.2 ∧ m.2 ≤ 2 + 60).length ≤ 1 := by
  have hplays : ((World.boot (fun _ => { maxSwitchesPerMin := 1 }) 0).plays twoRequests).any
      (fun w => w.attempts 0 = [⟨1, some 2⟩] ∧ (w.arbiter 0).counters.deferred = 1) = true := by
    decide +kernel
  obtain ⟨w, hw, hstate⟩ := (Option.any_eq_true _ _).mp hplays
  have hruns := runs_of_plays hw
  have hstate : w.attempts 0 = [⟨1, some 2⟩] ∧ (w.arbiter 0).counters.deferred = 1 := by
    simpa using hstate
  refine ⟨w, hruns, hstate.1, hstate.2, ?_⟩
  exact switch_rate_capped _ _ _ _ hruns 0 [(⟨1, some 2⟩, 2)] hstate.1.symm
    (by simp [Attempt.During]) 2

end SystemsManager.Power
