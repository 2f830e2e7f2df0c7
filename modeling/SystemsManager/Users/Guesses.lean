import SystemsManager.Users.Lockout
import Mathlib.Tactic.Linarith

/-!
# How many passwords a lockout lets through

The lock is checked before the password and the failure is recorded after it, so calls that overlap
may all pass the check. Read `guesses_bounded`: of the calls whose lock is checked early, at most as
many go on as the threshold allows and further calls overlap; `six_guesses` shows that more than the
threshold do. `Bounded` is the invariant: while no lock can have run out, the tracker counts every
failure, and the guesses are counted by the failures and by the calls under way.
-/

namespace SystemsManager.Users

open Python Concurrency

variable {limits : Limits} {watched key : String} {t : ℕ} {now first : ℚ} {recorded : ℕ}
variable {tracker : LockoutTracker}

/-- Until then no failure leaves the window and no lock runs out. -/
def Limits.horizon (limits : Limits) (first : ℚ) : ℚ :=
  first + min (limits.windowS : ℚ) limits.durationS

/-- The tracker has counted every failure of the key: they are in the list, or the key is locked. -/
structure Tracked (limits : Limits) (watched : String) (first : ℚ) (recorded : ℕ)
    (tracker : LockoutTracker) : Prop where
  times : ∀ x ∈ tracker.fails watched, first ≤ x
  counted : recorded < limits.threshold → (tracker.fails watched).length = recorded
  locked : limits.threshold ≤ recorded →
    ∃ till, tracker.lockedUntil watched = some till ∧ first + limits.durationS ≤ till

section Tracker

theorem Tracked.passed (h : Tracked limits watched first recorded tracker) (hne : watched ≠ "")
    (hnow : now < first + limits.durationS) (hpass : (tracker.isLocked watched now).1 = false) :
    recorded < limits.threshold := by
  by_contra hmany
  obtain ⟨till, htill, hlate⟩ := h.locked (by omega)
  have hlocked : ¬ (tracker.lockedUntil watched).getD 0 ≤ now := by
    rw [htill, Option.getD_some]
    linarith
  unfold LockoutTracker.isLocked at hpass
  rw [if_neg hne, if_neg hlocked] at hpass
  cases hpass

theorem Tracked.is_locked (h : Tracked limits watched first recorded tracker)
    (hnow : now < first + limits.durationS) :
    Tracked limits watched first recorded (tracker.isLocked key now).2 := by
  unfold LockoutTracker.isLocked
  split
  · exact h
  · split
    · rename_i hrun
      refine ⟨h.times, h.counted, fun hmany => ?_⟩
      obtain ⟨till, htill, hlate⟩ := h.locked hmany
      refine ⟨till, ?_, hlate⟩
      have hother : watched ≠ key := by
        rintro rfl
        rw [htill, Option.getD_some] at hrun
        linarith
      show Function.update tracker.lockedUntil key none watched = some till
      rw [Function.update_of_ne hother]
      exact htill
    · exact h

theorem Tracked.record_other (h : Tracked limits watched first recorded tracker)
    (hother : watched ≠ key) :
    Tracked limits watched first recorded (tracker.recordFailure limits key now) := by
  unfold LockoutTracker.recordFailure
  split
  · exact h
  · dsimp only
    split
    · exact ⟨by simpa [Function.update_of_ne hother] using h.times,
        by simpa [Function.update_of_ne hother] using h.counted,
        by simpa [Function.update_of_ne hother] using h.locked⟩
    · exact ⟨by simpa [Function.update_of_ne hother] using h.times,
        by simpa [Function.update_of_ne hother] using h.counted, h.locked⟩

theorem Tracked.record (h : Tracked limits watched first recorded tracker) (hne : watched ≠ "")
    (hfirst : first ≤ now) (hnow : now < first + limits.windowS) :
    Tracked limits watched first (recorded + 1) (tracker.recordFailure limits watched now) := by
  have hrecent : tracker.recent limits watched now = tracker.fails watched := by
    refine List.filter_eq_self.mpr fun x hx => ?_
    have hx := h.times x hx
    simp only [decide_eq_true_eq]
    linarith
  unfold LockoutTracker.recordFailure
  rw [if_neg hne, hrecent]
  dsimp only
  split
  · rename_i hfull
    rw [List.length_append, List.length_singleton] at hfull
    refine ⟨by simp, fun hfew => ?_, fun _ => ⟨now + limits.durationS, by simp, by linarith⟩⟩
    have hcount := h.counted (by omega)
    omega
  · rename_i hroom
    rw [List.length_append, List.length_singleton] at hroom
    refine ⟨fun x hx => ?_, fun hfew => ?_, fun hmany => ?_⟩
    · replace hx : x ∈ tracker.fails watched ++ [now] := by simpa using hx
      rcases List.mem_append.mp hx with hx | hx
      · exact h.times x hx
      · rw [List.mem_singleton.mp hx]
        exact hfirst
    · show (Function.update tracker.fails watched (tracker.fails watched ++ [now]) watched).length =
        _
      rw [Function.update_self, List.length_append, List.length_singleton, h.counted (by omega)]
    · refine h.locked ?_
      by_contra hfew
      have hcount := h.counted (by omega)
      omega

theorem Tracked.clear_other (h : Tracked limits watched first recorded tracker)
    (hother : watched ≠ key) : Tracked limits watched first recorded (tracker.clear key) := by
  unfold LockoutTracker.clear
  exact ⟨by simpa [Function.update_of_ne hother] using h.times,
    by simpa [Function.update_of_ne hother] using h.counted,
    by simpa [Function.update_of_ne hother] using h.locked⟩

end Tracker

/-- The guesses of calls whose lock was checked early. -/
def Watch.early (w : Watch) (limit : ℚ) : List ℚ := w.guesses.filter (· < limit)

/-- The waiting calls whose lock was checked early. -/
def Watch.earlyWaiting (w : Watch) (limit : ℚ) : Finset ℕ :=
  w.waiting.filter fun t => w.checkedAt t < limit

/-- The invariant of the runs. -/
structure Bounded (limits : Limits) (watched : String) (s : World) : Prop where
  fresh : s.watch.first = none → s.watch.waiting = ∅ ∧ s.watch.guessing = ∅ ∧ s.watch.guesses = [] ∧
    s.watch.recorded = 0 ∧ s.tracker.fails watched = []
  begun : ∀ first, s.watch.first = some first → first ≤ s.clock
  made : s.watch.guesses.length ≤ s.watch.recorded + s.watch.guessing.card
  peak : s.watch.waiting.card + s.watch.guessing.card ≤ s.watch.peak
  bound : ∀ first, s.watch.first = some first →
    (s.watch.early (limits.horizon first)).length +
      (s.watch.earlyWaiting (limits.horizon first)).card + 1 ≤ limits.threshold + s.watch.peak
  tracked : ∀ first, s.watch.first = some first → s.clock < limits.horizon first →
    Tracked limits watched first s.watch.recorded s.tracker

/-- Where a thread is in a call for the watched key. -/
inductive Stage where
  | out
  | waiting
  | guessing

/-- The thread is there. -/
def Watch.at_ (w : Watch) (t : ℕ) : Stage → Prop
  | .out => t ∉ w.waiting ∧ t ∉ w.guessing
  | .waiting => t ∈ w.waiting ∧ t ∉ w.guessing
  | .guessing => t ∉ w.waiting ∧ t ∈ w.guessing

/-- The threads keep the count, and none moves another. -/
def lockoutContract (limits : Limits) (watched : String) : Contract ℕ World where
  inv := Bounded limits watched
  guar t s s' := ∀ u, u ≠ t → ∀ stage, s.watch.at_ u stage → s'.watch.at_ u stage
  idle t s := s.watch.at_ t .out

section Horizon

theorem lt_first_window (h : now < limits.horizon first) : now < first + limits.windowS := by
  have hmin := min_le_left (limits.windowS : ℚ) limits.durationS
  unfold Limits.horizon at h
  linarith

theorem lt_first_duration (h : now < limits.horizon first) : now < first + limits.durationS := by
  have hmin := min_le_right (limits.windowS : ℚ) limits.durationS
  unfold Limits.horizon at h
  linarith

end Horizon

section Watching

variable {s : World} {locked : Bool} {stage : Stage}

/-- The first lock check of the key starts the count; time may pass. -/
theorem Bounded.begin_ (h : Bounded limits watched s) (hclock : s.clock ≤ now) :
    Bounded limits watched { s with clock := now, watch := s.watch.begin_ now } := by
  cases hfirst : s.watch.first with
  | some first =>
      have hsame : s.watch.begin_ now = s.watch := by
        unfold Watch.begin_
        rw [hfirst, Option.getD_some, ← hfirst]
      rw [hsame]
      exact ⟨h.fresh, fun first hfirst => (h.begun first hfirst).trans hclock, h.made,
        h.peak, h.bound,
        fun first hfirst hearly => h.tracked first hfirst (lt_of_le_of_lt hclock hearly)⟩
  | none =>
      obtain ⟨hwaiting, hguessing, hguesses, hrecorded, hfails⟩ := h.fresh hfirst
      have hnow : (s.watch.begin_ now).first = some now := by
        unfold Watch.begin_
        rw [hfirst, Option.getD_none]
      refine ⟨fun hnone => ?_, fun first heq => ?_, h.made, h.peak, fun first heq => ?_,
        fun first heq hearly => ?_⟩
      · rw [hnow] at hnone
        cases hnone
      · rw [hnow] at heq
        exact (Option.some.inj heq).ge
      · have hpos := limits.threshold_pos
        have hnone : (s.watch.begin_ now).early (limits.horizon first) = [] := by
          show s.watch.guesses.filter _ = []
          rw [hguesses]
          rfl
        have hempty : (s.watch.begin_ now).earlyWaiting (limits.horizon first) = ∅ := by
          show s.watch.waiting.filter _ = ∅
          rw [hwaiting]
          rfl
        rw [hnone, hempty, List.length_nil, Finset.card_empty]
        omega
      · have hrec : (s.watch.begin_ now).recorded = 0 := hrecorded
        refine ⟨fun x hx => ?_, fun _ => ?_, fun hmany => ?_⟩
        · replace hx : x ∈ s.tracker.fails watched := hx
          rw [hfails] at hx
          cases hx
        · show (s.tracker.fails watched).length = _
          rw [hfails, hrec, List.length_nil]
        · have hpos := limits.threshold_pos
          rw [hrec] at hmany
          omega

theorem Bounded.is_locked (h : Bounded limits watched s) (key : String) :
    Bounded limits watched { s with tracker := (s.tracker.isLocked key s.clock).2 } := by
  have hfails : (s.tracker.isLocked key s.clock).2.fails = s.tracker.fails := by
    unfold LockoutTracker.isLocked
    split
    · rfl
    · split <;> rfl
  refine ⟨fun hnone => ?_, h.begun, h.made, h.peak, h.bound, fun first hfirst hearly => ?_⟩
  · show _ ∧ _ ∧ _ ∧ _ ∧ (s.tracker.isLocked key s.clock).2.fails watched = []
    rw [hfails]
    exact h.fresh hnone
  · exact (h.tracked first hfirst hearly).is_locked (lt_first_duration hearly)

theorem Bounded.passed (h : Bounded limits watched s) (hat : s.watch.at_ t .out) (hfirst :
    s.watch.first = some first) (hfew : s.clock < limits.horizon first →
      s.watch.recorded < limits.threshold) :
    Bounded limits watched { s with watch := s.watch.passed t s.clock } := by
  have hwait : (insert t s.watch.waiting).card = s.watch.waiting.card + 1 :=
    Finset.card_insert_of_notMem hat.1
  have hpeak : s.watch.waiting.card + s.watch.guessing.card + 1 ≤
      (s.watch.passed t s.clock).peak := le_max_right _ _
  have hmono : s.watch.peak ≤ (s.watch.passed t s.clock).peak := le_max_left _ _
  refine ⟨fun hnone => ?_, h.begun, h.made, ?_, fun other hother => ?_, h.tracked⟩
  · replace hnone : s.watch.first = none := hnone
    rw [hfirst] at hnone
    cases hnone
  · show (insert t s.watch.waiting).card + s.watch.guessing.card ≤ (s.watch.passed t s.clock).peak
    omega
  · replace hother : s.watch.first = some other := hother
    rw [hfirst] at hother
    obtain rfl := Option.some.inj hother
    have hkept : ∀ u ∈ s.watch.waiting, Function.update s.watch.checkedAt t s.clock u =
        s.watch.checkedAt u := by
      intro u hu
      have hne : u ≠ t := fun heq => hat.1 (heq ▸ hu)
      exact Function.update_of_ne hne ..
    have hold : s.watch.waiting.filter (fun u => Function.update s.watch.checkedAt t s.clock u <
        limits.horizon first) = s.watch.earlyWaiting (limits.horizon first) := by
      refine Finset.filter_congr fun u hu => ?_
      rw [hkept u hu]
    have hnew : (s.watch.passed t s.clock).earlyWaiting (limits.horizon first) =
        if s.clock < limits.horizon first then
          insert t (s.watch.earlyWaiting (limits.horizon first))
        else s.watch.earlyWaiting (limits.horizon first) := by
      show (insert t s.watch.waiting).filter (fun u =>
        Function.update s.watch.checkedAt t s.clock u <
        limits.horizon first) = _
      rw [Finset.filter_insert, hold, Function.update_self]
    show (s.watch.early (limits.horizon first)).length +
      ((s.watch.passed t s.clock).earlyWaiting (limits.horizon first)).card + 1 ≤ _
    rw [hnew]
    split
    · rename_i hearly
      have hout : t ∉ s.watch.earlyWaiting (limits.horizon first) := fun hmem =>
        hat.1 (Finset.mem_filter.mp hmem).1
      rw [Finset.card_insert_of_notMem hout]
      have hguesses : (s.watch.early (limits.horizon first)).length ≤ s.watch.guesses.length :=
        List.length_filter_le _ _
      have hwaiting : (s.watch.earlyWaiting (limits.horizon first)).card ≤ s.watch.waiting.card :=
        Finset.card_filter_le _ _
      have hmade := h.made
      have hfew := hfew hearly
      show _ ≤ limits.threshold + (s.watch.passed t s.clock).peak
      omega
    · have hbound := h.bound first hfirst
      show _ ≤ limits.threshold + (s.watch.passed t s.clock).peak
      omega

theorem Bounded.later (h : Bounded limits watched s) (hclock : s.clock ≤ now) :
    Bounded limits watched { s with clock := now } :=
  ⟨h.fresh, fun first hfirst => (h.begun first hfirst).trans hclock, h.made, h.peak, h.bound,
    fun first hfirst hearly => h.tracked first hfirst (lt_of_le_of_lt hclock hearly)⟩

/-- A waiting call is refused. -/
theorem Bounded.leave (h : Bounded limits watched s) :
    Bounded limits watched {
      s with watch := { s.watch with waiting := s.watch.waiting.erase t } } := by
  have hcard : (s.watch.waiting.erase t).card ≤ s.watch.waiting.card :=
    Finset.card_le_card (Finset.erase_subset _ _)
  refine ⟨fun hnone => ?_, h.begun, h.made, ?_, fun first hfirst => ?_, h.tracked⟩
  · obtain ⟨hwaiting, hrest⟩ := h.fresh hnone
    exact ⟨by simp [hwaiting], hrest⟩
  · have hpeak := h.peak
    show (s.watch.waiting.erase t).card + s.watch.guessing.card ≤ s.watch.peak
    omega
  · have hsub : ((s.watch.waiting.erase t).filter fun u => s.watch.checkedAt u <
        limits.horizon first).card ≤ (s.watch.earlyWaiting (limits.horizon first)).card :=
      Finset.card_le_card (Finset.filter_subset_filter _ (Finset.erase_subset _ _))
    have hbound := h.bound first hfirst
    show (s.watch.early (limits.horizon first)).length + ((s.watch.waiting.erase t).filter fun u =>
      s.watch.checkedAt u < limits.horizon first).card + 1 ≤ limits.threshold + s.watch.peak
    omega

theorem Bounded.verified (h : Bounded limits watched s) (hat : s.watch.at_ t .waiting) :
    Bounded limits watched { s with watch := s.watch.verified t } := by
  have hsome : s.watch.first ≠ none := by
    intro hnone
    have hwaiting := (h.fresh hnone).1
    have hmem := hat.1
    rw [hwaiting] at hmem
    cases hmem
  have hguess : (insert t s.watch.guessing).card = s.watch.guessing.card + 1 :=
    Finset.card_insert_of_notMem hat.2
  have hwait : (s.watch.waiting.erase t).card + 1 = s.watch.waiting.card :=
    Finset.card_erase_add_one hat.1
  unfold Watch.verified
  rw [if_pos hat.1]
  refine ⟨fun hnone => absurd hnone hsome, h.begun, ?_, ?_, fun first hfirst => ?_, h.tracked⟩
  · have hmade := h.made
    show (s.watch.guesses ++ [s.watch.checkedAt t]).length ≤
      s.watch.recorded + (insert t s.watch.guessing).card
    rw [List.length_append, List.length_singleton]
    omega
  · have hpeak := h.peak
    show (s.watch.waiting.erase t).card + (insert t s.watch.guessing).card ≤ s.watch.peak
    omega
  · have hbound := h.bound first hfirst
    have herase : ((s.watch.waiting.erase t).filter fun u => s.watch.checkedAt u <
        limits.horizon first) = (s.watch.earlyWaiting (limits.horizon first)).erase t :=
      Finset.filter_erase ..
    show ((s.watch.guesses ++ [s.watch.checkedAt t]).filter (· < limits.horizon first)).length +
      ((s.watch.waiting.erase t).filter fun u =>
        s.watch.checkedAt u < limits.horizon first).card + 1 ≤
        limits.threshold + s.watch.peak
    rw [List.filter_append, List.length_append, herase]
    by_cases hearly : s.watch.checkedAt t < limits.horizon first
    · have hmem : t ∈ s.watch.earlyWaiting (limits.horizon first) :=
        Finset.mem_filter.mpr ⟨hat.1, hearly⟩
      have hcard := Finset.card_erase_add_one hmem
      have hone : ([s.watch.checkedAt t].filter (· < limits.horizon first)).length = 1 := by
        simp [hearly]
      rw [hone]
      unfold Watch.early at hbound
      omega
    · have hcard : ((s.watch.earlyWaiting (limits.horizon first)).erase t).card ≤
          (s.watch.earlyWaiting (limits.horizon first)).card :=
        Finset.card_le_card (Finset.erase_subset _ _)
      have hzero : ([s.watch.checkedAt t].filter (· < limits.horizon first)).length = 0 := by
        simp [hearly]
      rw [hzero]
      unfold Watch.early at hbound
      omega

theorem Bounded.failed (h : Bounded limits watched s) (hne : watched ≠ "")
    (hat : s.watch.at_ t .guessing) :
    Bounded limits watched { s with
      tracker := s.tracker.recordFailure limits watched s.clock, watch := s.watch.failed t } := by
  have hsome : s.watch.first ≠ none := by
    intro hnone
    have hguessing := (h.fresh hnone).2.1
    have hmem := hat.2
    rw [hguessing] at hmem
    cases hmem
  have hguess : (s.watch.guessing.erase t).card + 1 = s.watch.guessing.card :=
    Finset.card_erase_add_one hat.2
  refine ⟨fun hnone => absurd hnone hsome, h.begun, ?_, ?_, h.bound, fun first hfirst hearly => ?_⟩
  · have hmade := h.made
    show s.watch.guesses.length ≤ s.watch.recorded + 1 + (s.watch.guessing.erase t).card
    omega
  · have hpeak := h.peak
    show s.watch.waiting.card + (s.watch.guessing.erase t).card ≤ s.watch.peak
    omega
  · exact (h.tracked first hfirst hearly).record hne (h.begun first hfirst) (lt_first_window hearly)

theorem Bounded.other (h : Bounded limits watched s) {tracker : LockoutTracker}
    (hfails : tracker.fails watched = s.tracker.fails watched)
    (htracked : ∀ first recorded, Tracked limits watched first recorded s.tracker →
      Tracked limits watched first recorded tracker) :
    Bounded limits watched { s with tracker } :=
  ⟨fun hnone => by
      obtain ⟨hwaiting, hguessing, hguesses, hrecorded, hnofails⟩ := h.fresh hnone
      exact ⟨hwaiting, hguessing, hguesses, hrecorded, hfails.trans hnofails⟩,
    h.begun, h.made, h.peak, h.bound,
    fun first hfirst hearly => htracked _ _ (h.tracked first hfirst hearly)⟩

end Watching

section Operations

variable {s s' : World} {stage : Stage}

/-- A change of the watch that moves one thread only. -/
def Moves (t : ℕ) (w w' : Watch) : Prop :=
  ∀ u, u ≠ t → (u ∈ w'.waiting ↔ u ∈ w.waiting) ∧ (u ∈ w'.guessing ↔ u ∈ w.guessing)

theorem Moves.at_ {w w' : Watch} (h : Moves t w w') {u : ℕ} (hu : u ≠ t) (hat : w.at_ u stage) :
    w'.at_ u stage := by
  obtain ⟨hwaiting, hguessing⟩ := h u hu
  cases stage with
  | out => exact ⟨fun hmem => hat.1 (hwaiting.mp hmem), fun hmem => hat.2 (hguessing.mp hmem)⟩
  | waiting => exact ⟨hwaiting.mpr hat.1, fun hmem => hat.2 (hguessing.mp hmem)⟩
  | guessing => exact ⟨fun hmem => hat.1 (hwaiting.mp hmem), hguessing.mpr hat.2⟩

/-- What an operation has to keep. -/
def Keeping (limits : Limits) (watched : String) (t : ℕ) (stage : Stage) (s s' : World) : Prop :=
  Bounded limits watched s' ∧ Moves t s.watch s'.watch ∧ s'.watch.at_ t stage

theorem exec_is_locked (h : Bounded limits watched s) (hne : watched ≠ "")
    (hat : s.watch.at_ t .out) {locked : Bool}
    (hexec : exec limits watched t (.isLocked watched) now s = some (locked, s')) :
    Keeping limits watched t (if locked then .out else .waiting) s s' := by
  unfold exec at hexec
  dsimp only at hexec
  split at hexec
  case isFalse => cases hexec
  rename_i hclock
  rw [if_pos rfl, Option.some.injEq, Prod.mk.injEq] at hexec
  obtain ⟨rfl, rfl⟩ := hexec
  have hbegun := (h.begin_ hclock).is_locked watched
  obtain ⟨first, hfirst⟩ : ∃ first, (s.watch.begin_ now).first = some first := ⟨_, rfl⟩
  cases hlocked : (s.tracker.isLocked watched now).1 with
  | true => exact ⟨hbegun, fun u hu => ⟨Iff.rfl, Iff.rfl⟩, hat⟩
  | false =>
      have hfew : now < limits.horizon first → (s.watch.begin_ now).recorded < limits.threshold :=
        fun hearly => ((h.begin_ hclock).tracked first hfirst hearly).passed hne
          (lt_first_duration hearly) hlocked
      refine ⟨hbegun.passed hat hfirst hfew, fun u hu => ⟨?_, Iff.rfl⟩, ?_⟩
      · show u ∈ insert t s.watch.waiting ↔ u ∈ s.watch.waiting
        rw [Finset.mem_insert, or_iff_right hu]
      · exact ⟨Finset.mem_insert_self .., hat.2⟩

/-- A lock check of another key. -/
theorem exec_is_locked_other (h : Bounded limits watched s) (hkey : key ≠ watched)
    (hstage : stage ≠ .guessing) (hat : s.watch.at_ t stage) {locked : Bool}
    (hexec : exec limits watched t (.isLocked key) now s = some (locked, s')) :
    Keeping limits watched t (if locked then .out else stage) s s' := by
  unfold exec at hexec
  dsimp only at hexec
  split at hexec
  case isFalse => cases hexec
  rename_i hclock
  rw [Option.some.injEq, Prod.mk.injEq] at hexec
  obtain ⟨rfl, rfl⟩ := hexec
  have hlater := (h.later hclock).is_locked key
  cases hlocked : (s.tracker.isLocked key now).1 with
  | false => exact ⟨hlater, fun u hu => ⟨Iff.rfl, Iff.rfl⟩, hat⟩
  | true =>
      refine ⟨hlater.leave, fun u hu => ⟨?_, Iff.rfl⟩, ?_⟩
      · show u ∈ s.watch.waiting.erase t ↔ u ∈ s.watch.waiting
        rw [Finset.mem_erase, and_iff_right hu]
      · have hout : t ∉ s.watch.guessing := by
          cases stage with
          | out => exact hat.2
          | waiting => exact hat.2
          | guessing => exact absurd rfl hstage
        exact ⟨fun hmem => Finset.notMem_erase _ _ hmem, hout⟩

/-- Where a password check takes a thread. -/
def Stage.verified : Stage → Stage
  | .out => .out
  | .waiting => .guessing
  | .guessing => .guessing

theorem exec_verify (h : Bounded limits watched s) (hstage : stage ≠ .guessing)
    (hat : s.watch.at_ t stage) {password : String} {passwordHash : Json} {pwOk answer : Bool}
    (hexec : exec limits watched t (.scryptVerify password passwordHash) answer s =
      some (pwOk, s')) : Keeping limits watched t stage.verified s s' := by
  unfold exec at hexec
  rw [Option.some.injEq, Prod.mk.injEq] at hexec
  obtain ⟨-, rfl⟩ := hexec
  cases stage with
  | out =>
      have hsame : s.watch.verified t = s.watch := by
        unfold Watch.verified
        rw [if_neg hat.1]
      rw [hsame]
      exact ⟨h, fun u hu => ⟨Iff.rfl, Iff.rfl⟩, hat⟩
  | waiting =>
      have hmoved : s.watch.verified t = { s.watch with
          waiting := s.watch.waiting.erase t
          guessing := insert t s.watch.guessing
          guesses := s.watch.guesses ++ [s.watch.checkedAt t] } := by
        unfold Watch.verified
        rw [if_pos hat.1]
      refine ⟨h.verified hat, fun u hu => ?_, ?_⟩
      · rw [hmoved]
        exact ⟨by
          rw [Finset.mem_erase, and_iff_right hu], by rw [Finset.mem_insert, or_iff_right hu]⟩
      · rw [hmoved]
        exact ⟨fun hmem => Finset.notMem_erase _ _ hmem, Finset.mem_insert_self ..⟩
  | guessing => exact absurd rfl hstage

/-- The record of a failure. -/
theorem exec_record (h : Bounded limits watched s) (hne : watched ≠ "")
    (hat : s.watch.at_ t .guessing)
    (hexec : exec limits watched t (.recordFailure watched) now s = some ((), s')) :
    Keeping limits watched t .out s s' := by
  unfold exec at hexec
  dsimp only at hexec
  split at hexec
  case isFalse => cases hexec
  rename_i hclock
  rw [if_pos rfl, Option.some.injEq, Prod.mk.injEq] at hexec
  obtain ⟨-, rfl⟩ := hexec
  refine ⟨(h.later hclock).failed hne hat, fun u hu => ⟨Iff.rfl, ?_⟩, ?_⟩
  · show u ∈ s.watch.guessing.erase t ↔ u ∈ s.watch.guessing
    rw [Finset.mem_erase, and_iff_right hu]
  · exact ⟨hat.1, fun hmem => Finset.notMem_erase _ _ hmem⟩

theorem exec_record_other (h : Bounded limits watched s) (hkey : key ≠ watched)
    (hat : s.watch.at_ t .out)
    (hexec : exec limits watched t (.recordFailure key) now s = some ((), s')) :
    Keeping limits watched t .out s s' := by
  unfold exec at hexec
  dsimp only at hexec
  split at hexec
  case isFalse => cases hexec
  rename_i hclock
  rw [Option.some.injEq, Prod.mk.injEq] at hexec
  obtain ⟨-, rfl⟩ := hexec
  have hfails : (s.tracker.recordFailure limits key now).fails watched =
    s.tracker.fails watched := by
    unfold LockoutTracker.recordFailure
    split
    · rfl
    · dsimp only
      split
      · exact Function.update_of_ne hkey.symm ..
      · exact Function.update_of_ne hkey.symm ..
  exact ⟨(h.later hclock).other hfails fun _ _ htracked => htracked.record_other hkey.symm,
    fun u hu => ⟨Iff.rfl, Iff.rfl⟩, hat⟩

theorem exec_clear_other (h : Bounded limits watched s) (hkey : key ≠ watched)
    (hat : s.watch.at_ t .out) :
    Keeping limits watched t .out s { s with tracker := s.tracker.clear key } :=
  ⟨h.other (Function.update_of_ne hkey.symm ..) fun _ _ htracked => htracked.clear_other hkey.symm,
    fun _ _ => ⟨Iff.rfl, Iff.rfl⟩, hat⟩

end Operations

section Logins

variable {lower : String → String} {decoyHash : Json} {s : World} {stage : Stage} {α : Type}

/-- A thread is safe to run its code. -/
abbrev SafeAuth (lower : String → String) (decoyHash : Json) (limits : Limits) (watched : String)
    (t : ℕ) (p : Auth α) (Q : α → World → Prop) (s : World) : Prop :=
  Safe (logins lower decoyHash limits watched) (NotCleared watched)
    (lockoutContract limits watched) t p Q s

theorem at_stable : (lockoutContract limits watched).Stable t fun s => s.watch.at_ t stage :=
  fun _ hu _ _ _ _ hguar hat => hguar t (Ne.symm hu) stage hat

theorem idle_stable : (lockoutContract limits watched).Stable t
    ((lockoutContract limits watched).idle t) :=
  fun _ hu _ _ _ _ hguar hat => hguar t (Ne.symm hu) .out hat

theorem Keeping.safe {s s' : World} {p : Auth α} {Q : α → World → Prop}
    (h : Keeping limits watched t stage s s')
    (hrest : s'.watch.at_ t stage → SafeAuth lower decoyHash limits watched t p Q s') :
    (lockoutContract limits watched).inv s' ∧ (lockoutContract limits watched).guar t s s' ∧
      SafeAuth lower decoyHash limits watched t p Q s' :=
  ⟨h.1, fun _ hu _ hat => h.2.1.at_ hu hat, hrest h.2.2⟩

theorem keeping_later {s : World} {now : ℚ} (h : Bounded limits watched s) (hclock : s.clock ≤ now)
    (hat : s.watch.at_ t stage) : Keeping limits watched t stage s { s with clock := now } :=
  ⟨h.later hclock, fun _ _ => ⟨Iff.rfl, Iff.rfl⟩, hat⟩

theorem safe_any_locked {keys : List String} (hkeys : watched ∉ keys) (hstage : stage ≠ .guessing)
    (hat : s.watch.at_ t stage) :
    SafeAuth lower decoyHash limits watched t (anyLocked keys)
      (fun locked s => s.watch.at_ t (if locked then .out else stage)) s := by
  induction keys generalizing s with
  | nil => exact safe_ret at_stable hat fun _ h => h
  | cons key rest ih =>
      refine safe_call at_stable hat ?_
      intro s now locked s' hinv hat hexec _
      have hkey : key ≠ watched := fun heq => hkeys (heq ▸ List.mem_cons_self ..)
      refine (exec_is_locked_other hinv hkey hstage hat hexec).safe fun hat' => ?_
      cases locked with
      | true => exact safe_ret at_stable hat' fun _ h => h
      | false => exact ih (fun hmem => hkeys (List.mem_cons_of_mem _ hmem)) hat'

/-- The lock checks of a login. -/
theorem safe_lock_check {name remoteIp : String} (hne : watched ≠ "")
    (hips : watched ∉ ipKeys remoteIp) (hat : s.watch.at_ t .out) :
    SafeAuth lower decoyHash limits watched t (anyLocked (userKey name :: ipKeys remoteIp))
      (fun locked s => s.watch.at_ t
        (if locked then .out else if userKey name = watched then .waiting else .out)) s := by
  refine safe_call at_stable hat ?_
  intro s now locked s' hinv hat hexec _
  by_cases hkey : userKey name = watched
  · rw [hkey] at hexec
    refine (exec_is_locked hinv hne hat hexec).safe fun hat' => ?_
    rw [if_pos hkey]
    cases locked with
    | true => exact safe_ret at_stable hat' fun _ h => h
    | false => exact safe_any_locked hips (fun heq => by cases heq) hat'
  · refine (exec_is_locked_other hinv hkey (fun heq => by cases heq) hat hexec).safe fun hat' => ?_
    rw [if_neg hkey]
    cases locked with
    | true => exact safe_ret at_stable hat' fun _ h => h
    | false => exact safe_any_locked hips (fun heq => by cases heq) hat'

/-- The answer of a refused call. -/
theorem safe_longest_retry {keys : List String} {longest : ℤ} (hat : s.watch.at_ t .out) :
    SafeAuth lower decoyHash limits watched t (longestRetry keys longest)
      (fun _ s => s.watch.at_ t .out) s := by
  induction keys generalizing s longest with
  | nil => exact safe_ret at_stable hat fun _ h => h
  | cons key rest ih =>
      refine safe_call at_stable hat ?_
      intro s now seconds s' hinv hat hexec _
      replace hexec : exec limits watched t (.retryAfter key) now s = some (seconds, s') := hexec
      unfold exec at hexec
      dsimp only at hexec
      split at hexec
      case isFalse => cases hexec
      rename_i hclock
      rw [Option.some.injEq, Prod.mk.injEq] at hexec
      obtain ⟨-, rfl⟩ := hexec
      exact (keeping_later hinv hclock hat).safe fun hat' => ih hat'

/-- The operations at the end of a login that do not touch the watched key. -/
def Elsewhere (watched : String) : Check → Prop
  | .recordFailure key => key ≠ watched
  | .clear key => key ≠ watched
  | .stampLogin _ => True
  | _ => False

theorem safe_elsewhere {p : Auth α} (hp : p.All (Elsewhere watched)) (hat : s.watch.at_ t .out) :
    SafeAuth lower decoyHash limits watched t p (fun _ s => s.watch.at_ t .out) s := by
  refine safe_of_all hp at_stable hat ?_ fun _ _ h => h
  intro op hop s a r s' hinv hat hexec _
  have hkeeping : Keeping limits watched t .out s s' := by
    cases op with
    | recordFailure key => exact exec_record_other hinv hop hat hexec
    | clear key =>
        cases hexec
        exact exec_clear_other hinv hop hat
    | stampLogin name =>
        cases hexec
        exact ⟨hinv, fun _ _ => ⟨Iff.rfl, Iff.rfl⟩, hat⟩
    | isLocked _ | retryAfter _ | getUser _ | scryptVerify _ _ => exact hop.elim
  exact ⟨hkeeping.1, fun _ hu _ hat => hkeeping.2.1.at_ hu hat, hkeeping.2.2⟩

theorem safe_settle {name remoteIp : String} {u : Option Fields} {pwOk : Bool} (hne : watched ≠ "")
    (hips : watched ∉ ipKeys remoteIp)
    (hat : s.watch.at_ t (if userKey name = watched then .guessing else .out)) :
    SafeAuth lower decoyHash limits watched t
      (settleLogin name (userKey name :: ipKeys remoteIp) u pwOk)
      (fun _ s => s.watch.at_ t .out) s := by
  have hips' : ∀ key ∈ ipKeys remoteIp, key ≠ watched := fun key hmem heq => hips (heq ▸ hmem)
  unfold settleLogin
  split
  · have hrest : (Prog.forEach (ipKeys remoteIp) fun key => operate (.recordFailure key)).All
        (Elsewhere watched) := Prog.All.forEach fun key hmem => ⟨hips' key hmem, fun _ => trivial⟩
    refine safe_call at_stable hat ?_
    intro s now r s' hinv hat hexec _
    by_cases hkey : userKey name = watched
    · rw [if_pos hkey] at hat
      rw [hkey] at hexec
      refine (exec_record hinv hne hat hexec).safe fun hat' => ?_
      exact safe_elsewhere (Prog.All.bind hrest fun _ => trivial) hat'
    · rw [if_neg hkey] at hat
      refine (exec_record_other hinv hkey hat hexec).safe fun hat' => ?_
      exact safe_elsewhere (Prog.All.bind hrest fun _ => trivial) hat'
  · have hrest : (Prog.forEach (ipKeys remoteIp) fun key => operate (.clear key)).All
        (Elsewhere watched) := Prog.All.forEach fun key hmem => ⟨hips' key hmem, fun _ => trivial⟩
    refine safe_call at_stable hat ?_
    -- A login for the watched name may not get here.
    intro s a r s' hinv hat hexec hallow
    have hkey : userKey name ≠ watched := hallow
    rw [if_neg hkey] at hat
    cases hexec
    refine (exec_clear_other hinv hkey hat).safe fun hat' => ?_
    exact safe_elsewhere (Prog.All.bind hrest fun _ => ⟨trivial, fun _ => trivial⟩) hat'

theorem safe_authenticate {username password remoteIp : String} (hne : watched ≠ "")
    (hips : watched ∉ ipKeys remoteIp) (hat : s.watch.at_ t .out) :
    SafeAuth lower decoyHash limits watched t
      (authenticate lower decoyHash username password remoteIp)
      (fun _ s => s.watch.at_ t .out) s := by
  refine safe_bind ((safe_lock_check hne hips hat).mono fun locked s hat => ?_)
  cases locked with
  | true =>
      exact safe_bind ((safe_longest_retry hat).mono fun _ s hat =>
        safe_ret at_stable hat fun _ h => h)
  | false =>
      let stage : Stage := if userKey (normalize lower username) = watched then .waiting else .out
      have hstage : stage ≠ .guessing := by
        show (if _ then _ else _) ≠ _
        split <;> exact fun heq => by cases heq
      replace hat : s.watch.at_ t stage := hat
      refine safe_call at_stable hat ?_
      intro s answer u s' hinv hat hexec _
      cases hexec
      refine ⟨hinv, fun _ _ _ hat => hat, safe_call at_stable hat ?_⟩
      intro s answer pwOk s' hinv hat hexec _
      refine (exec_verify hinv hstage hat hexec).safe fun hat' => safe_settle hne hips ?_
      have hverified : stage.verified =
          if userKey (normalize lower username) = watched then .guessing else .out := by
        show Stage.verified (if _ then _ else _) = _
        split <;> rfl
      rw [← hverified]
      exact hat'

end Logins

/-- The start: nothing is recorded for the key. -/
def World.start (tracker : LockoutTracker) (clock : ℚ) : World := ⟨tracker, clock, Watch.start⟩

theorem user_key_not_mem_ip {name remoteIp : String} : userKey name ∉ ipKeys remoteIp := by
  intro hmem
  unfold ipKeys at hmem
  split at hmem
  · cases hmem
  · have heq : userKey name = "ip:" ++ remoteIp := List.mem_singleton.mp hmem
    have hchars := congrArg String.toList heq
    simp [userKey] at hchars

theorem user_key_ne {name : String} : userKey name ≠ "" := by
  intro heq
  have hchars := congrArg String.toList heq
  simp [userKey] at hchars

theorem bounded_start {tracker : LockoutTracker} {clock : ℚ} (h : tracker.fails watched = []) :
    Bounded limits watched (World.start tracker clock) := by
  have hnever : ∀ first, (World.start tracker clock).watch.first ≠ some first := by
    intro first hfirst
    cases hfirst
  refine ⟨fun _ => ⟨rfl, rfl, rfl, rfl, h⟩, fun first hfirst => ?_, Nat.zero_le _, Nat.zero_le _,
    fun first hfirst => ?_, fun first hfirst => ?_⟩
  · exact absurd hfirst (hnever first)
  · exact absurd hfirst (hnever first)
  · exact absurd hfirst (hnever first)

/-- Of the calls for one name whose lock is checked early, those that go on to check a password are
at most as many as the threshold, one less and the most calls that were under way at a time. -/
theorem guesses_bounded {lower : String → String} {decoyHash : Json} {name : String}
    {tracker : LockoutTracker} {clock : ℚ} {c : Config ℕ Check Check.Answer World}
    (hnone : tracker.fails (userKey name) = [])
    (h : Reachable (logins lower decoyHash limits (userKey name)) (NotCleared (userKey name))
      (World.start tracker clock) c) (hfirst : c.state.watch.first = some first) :
    (c.state.watch.guesses.filter (· < first + min (limits.windowS : ℚ) limits.durationS)).length ≤
      limits.threshold - 1 + c.state.watch.peak := by
  have hholds : (lockoutContract limits (userKey name)).Holds (logins lower decoyHash limits
      (userKey name)) (NotCleared (userKey name)) c := by
    have hout : ∀ t, (World.start tracker clock).watch.at_ t .out := fun t =>
      ⟨Finset.notMem_empty t, Finset.notMem_empty t⟩
    refine Contract.sound (bounded_start hnone) hout (fun t => idle_stable) ?_ h
    intro t attempt s p _ hidle hstart
    cases hstart
    exact safe_bind ((safe_authenticate user_key_ne user_key_not_mem_ip hidle).mono fun _ s hat =>
      safe_ret at_stable hat fun _ h => h)
  have hbound := hholds.inv.bound first hfirst
  have hpos := limits.threshold_pos
  unfold Watch.early Limits.horizon at hbound
  omega

section Overlapping

/-- Wrong passwords for an unknown user, all at one time. -/
def wrong : (op : Check) → op.Outside
  | .isLocked _ => (0 : ℚ)
  | .retryAfter _ => (0 : ℚ)
  | .getUser _ => none
  | .scryptVerify .. => false
  | .recordFailure _ => (0 : ℚ)
  | .clear _ => ()
  | .stampLogin _ => ()

/-- Six calls pass the lock check before the first failure is recorded. -/
def overlapping : List (Choice ℕ Check.Outside Attempt) :=
  (List.range 6).flatMap (fun t => [.start t ⟨"a", "x", ""⟩, .perform t wrong]) ++
    (List.range 6).flatMap fun t => [.perform t wrong, .perform t wrong]

/-- What is read off the end of a run: the guesses, when the first lock check was, and how many
calls overlapped. -/
def seen (c : Config ℕ Check Check.Answer World) : Option (List ℚ × Option ℚ × ℕ) :=
  some (c.state.watch.guesses, c.state.watch.first, c.state.watch.peak)

theorem overlapping_run : ∃ c, Reachable (logins id .null .default (userKey "a"))
      (NotCleared (userKey "a")) (World.start .new 0) c ∧
    seen c = some (List.replicate 6 0, some 0, 6) := by
  have hrun : ((Config.idle (World.start .new 0)).plays (logins id .null .default (userKey "a"))
      (NotCleared (userKey "a")) overlapping).bind seen = some (List.replicate 6 0, some 0, 6) := by
    decide +kernel
  exact exists_run_of_plays hrun

/-- Under the default limits six guesses are made at once. -/
theorem six_guesses : ∃ c, Reachable (logins id .null .default (userKey "a"))
      (NotCleared (userKey "a")) (World.start .new 0) c ∧ c.state.watch.first = some 0 ∧
    Limits.default.threshold < (c.state.watch.guesses.filter (· <
      0 + min (Limits.default.windowS : ℚ) Limits.default.durationS)).length := by
  obtain ⟨c, hc, hseen⟩ := overlapping_run
  obtain ⟨hguesses, hfirst, -⟩ : c.state.watch.guesses = List.replicate 6 0 ∧
      c.state.watch.first = some 0 ∧ c.state.watch.peak = 6 := by
    simpa [seen] using hseen
  refine ⟨c, hc, hfirst, ?_⟩
  rw [hguesses]
  decide +kernel

/-- That is as many as the bound allows. -/
theorem guesses_bounded_six : ∃ c, Reachable (logins id .null .default (userKey "a"))
      (NotCleared (userKey "a")) (World.start .new 0) c ∧ (c.state.watch.guesses.filter (· <
      0 + min (Limits.default.windowS : ℚ) Limits.default.durationS)).length ≤
        Limits.default.threshold - 1 + c.state.watch.peak := by
  obtain ⟨c, hc, hseen⟩ := overlapping_run
  obtain ⟨-, hfirst, -⟩ : c.state.watch.guesses = List.replicate 6 0 ∧
      c.state.watch.first = some 0 ∧ c.state.watch.peak = 6 := by
    simpa [seen] using hseen
  exact ⟨c, hc, guesses_bounded rfl hc hfirst⟩

end Overlapping

end SystemsManager.Users
