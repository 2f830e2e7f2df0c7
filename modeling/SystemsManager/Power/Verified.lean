import SystemsManager.Power.Arbiter

/-!
# Verified answers

`request` answers "verified" for a switch that it has waited for, or because its profile is the
applied one already. In the second case it reads the outcome of the arbiter, which a failed switch
to the other profile overwrites and the worker restores later from the saved state. `Told` follows a
run with the outcome of the last successful application of every profile. Read `verified_answers`:
the answer agrees with it except where a request finds its profile applied and the outcome
overwritten.
-/

namespace SystemsManager.Power

open Python

/-- The successful application that an event ends: the arbiter, the profile and the outcome. -/
def applies (w : World) : Event → Option (ℕ × Profile × Outcome)
  | .settle n verdict _ _ => match w.phase n with
      | .switching profile _ =>
          if verdict.outcome = .failed then none else some (n, profile, verdict.outcome)
      | _ => none
  | _ => none

/-- A run with the outcome of the last successful application of every profile. -/
structure Told where
  world : World
  last : ℕ → Profile → Option Outcome

/-- Before the first event an arbiter has applied what it has recovered. -/
def Told.boot (settings : ℕ → Settings) (clock : ℚ) : Told where
  world := .boot settings clock
  last n profile := (settings n).recovered.bind fun r =>
    if r.1 = profile then some r.2.outcome else none

/-- One event more. -/
def Told.next (t : Told) (e : Event) : Told :=
  match t.world.step e with
  | none => t
  | some w =>
      { world := w
        last := match applies t.world e with
          | none => t.last
          | some (n, profile, outcome) =>
              Function.update t.last n (Function.update (t.last n) profile (some outcome)) }

/-- The outcome of the last successful application of the profile by arbiter `n`. -/
def lastApplication (settings : ℕ → Settings) (clock : ℚ) (events : List Event) (n : ℕ)
    (profile : Profile) : Option Outcome :=
  (events.foldl Told.next (Told.boot settings clock)).last n profile

namespace Arbiter

/-- A request finds its profile applied: the arbiter switches, no attempt was made for the request,
its hold stands and wins. -/
def AlreadyApplied (a : Arbiter) (profile : Profile) (owner : Owner) (seq0 : ℕ) : Prop :=
  a.mode = .full ∧ a.busy = false ∧ a.latestAttempt profile seq0 = none ∧
    a.holds owner = some profile ∧ a.effective.2 = some (.owner owner) ∧ a.applied = some profile

/-- The outcome does not tell of the application, which was not verified: it is that of a failed
switch to the other profile, and the worker has not restored it. -/
def Overwritten (a : Arbiter) : Prop :=
  a.outcome ≠ some .unverifiable ∧ a.appliedState.1 ≠ some .verified

/-- What an arbiter knows of its applications. -/
structure Knows (last : Profile → Option Outcome) (a : Arbiter) : Prop where
  saved : ∀ profile, a.applied = some profile → a.appliedState.1 = last profile
  switched : ∀ s, a.lastSwitch = some s → s.outcome ≠ .failed → last s.profile = some s.outcome
  deferred : ∀ s, a.lastDefer = some s → s.outcome = .deferred

variable {last : Profile → Option Outcome} {a a' : Arbiter} {profile : Profile} {owner : Owner}
variable {seq0 : ℕ}

theorem Knows.of_same (h : Knows last a) (happlied : a'.applied = a.applied)
    (hstate : a'.appliedState = a.appliedState) (hswitch : a'.lastSwitch = a.lastSwitch)
    (hdefer : a'.lastDefer = a.lastDefer) : Knows last a' := by
  refine ⟨?_, ?_, ?_⟩
  · rw [happlied, hstate]
    exact h.saved
  · rw [hswitch]
    exact h.switched
  · rw [hdefer]
    exact h.deferred

theorem Knows.failed (h : Knows last a) {v : Verdict} {recorded later : ℚ}
    (hv : v.outcome = .failed) : Knows last (a.settle profile v recorded later) := by
  unfold settle
  rw [if_pos hv]
  refine ⟨h.saved, ?_, h.deferred⟩
  intro s hs hnot
  cases hs
  exact absurd hv hnot

theorem Knows.succeeded (h : Knows last a) {v : Verdict} {recorded later : ℚ}
    (hv : v.outcome ≠ .failed) :
    Knows (Function.update last profile (some v.outcome)) (a.settle profile v recorded later) := by
  unfold settle
  rw [if_neg hv]
  refine ⟨?_, ?_, h.deferred⟩
  · intro applied happlied
    cases happlied
    rw [Function.update_self]
  · intro s hs _
    cases hs
    rw [Function.update_self]

theorem Knows.converge (h : Knows last a) : Knows last a.converge := by
  unfold Arbiter.converge
  split
  · exact h.of_same rfl rfl rfl rfl
  · exact h.of_same rfl rfl rfl rfl

theorem latest_attempt_cases {s : Settlement} (h : a.latestAttempt profile seq0 = some s) :
    (a.lastSwitch = some s ∨ a.lastDefer = some s) ∧ s.profile = profile := by
  have hmem : ∀ step : Option Settlement → Settlement → Option Settlement,
      (∀ best first, step best first = some s → best = some s ∨ first = s) →
      ∀ (seen : List Settlement) (best : Option Settlement), seen.foldl step best = some s →
        best = some s ∨ s ∈ seen := by
    intro step hstep seen
    induction seen with
    | nil => exact fun best hbest => Or.inl hbest
    | cons first rest ih =>
        intro best hbest
        rcases ih _ hbest with hfirst | hrest
        · rcases hstep best first hfirst with hbest | rfl
          · exact Or.inl hbest
          · exact Or.inr List.mem_cons_self
        · exact Or.inr (List.mem_cons_of_mem _ hrest)
  have hlatest := hmem _ (by
    intro best first hbest
    split at hbest
    · exact Or.inr (Option.some.inj hbest)
    · split at hbest
      · exact Or.inr (Option.some.inj hbest)
      · exact Or.inl hbest) _ _ h
  rcases hlatest with hnone | hseen
  · cases hnone
  · rw [List.mem_filter, List.mem_append, Option.mem_toList, Option.mem_toList] at hseen
    exact ⟨hseen.1, (of_decide_eq_true hseen.2).1⟩

/-- A request that finds its profile applied answers "verified", unless the outcome says that this
cannot be told. -/
theorem wait_settled_applied (h : a.AlreadyApplied profile owner seq0)
    (hshown : a.outcome ≠ some .unverifiable) :
    a.waitSettled profile owner seq0 = some (.verified, none) := by
  obtain ⟨hmode, hbusy, hnone, hheld, hwins, happlied⟩ := h
  unfold waitSettled
  rw [if_neg (fun hne => hne hmode), hbusy, if_neg Bool.false_ne_true, hnone]
  dsimp only
  rw [if_neg (fun hne => hne hheld), if_neg (fun hne => hne hwins), if_pos happlied]
  cases houtcome : a.outcome with
  | none => rfl
  | some outcome =>
      cases outcome with
      | unverifiable => exact absurd houtcome hshown
      | verified => rfl
      | failed => rfl
      | skipped => rfl
      | deferred => rfl

theorem verified_cases {error : Option String}
    (h : a.waitSettled profile owner seq0 = some (.verified, error)) :
    (∃ s, a.latestAttempt profile seq0 = some s ∧ s.outcome = .verified) ∨
      (a.AlreadyApplied profile owner seq0 ∧ a.outcome ≠ some .unverifiable) := by
  unfold waitSettled at h
  split at h
  · cases h
  rename_i hmode
  split at h
  · cases h
  rename_i hbusy
  split at h
  · rename_i s hattempt
    cases hs : s.outcome with
    | verified => exact Or.inl ⟨s, hattempt, hs⟩
    | unverifiable => simp [hs] at h
    | failed => simp [hs] at h
    | skipped => simp [hs] at h
    | deferred => simp [hs] at h
  rename_i hnone
  split at h
  · cases h
  rename_i hheld
  split at h
  · cases h
  rename_i hwins
  split at h
  · rename_i happlied
    refine Or.inr ⟨⟨not_not.mp hmode, Bool.eq_false_iff.mpr hbusy, hnone, not_not.mp hheld,
      not_not.mp hwins, happlied⟩, fun hshown => ?_⟩
    rw [hshown] at h
    cases h
  · cases h

theorem Knows.answers (h : Knows last a) :
    (∀ error, a.waitSettled profile owner seq0 = some (.verified, error) →
      last profile = some .verified) ↔
    ¬ (a.AlreadyApplied profile owner seq0 ∧ a.Overwritten) := by
  constructor
  · rintro hright ⟨happlied, hshown, hsaved⟩
    apply hsaved
    rw [h.saved profile happlied.2.2.2.2.2]
    exact hright none (wait_settled_applied happlied hshown)
  · intro hnot error hanswer
    rcases verified_cases hanswer with ⟨s, hattempt, hs⟩ | ⟨happlied, hshown⟩
    · obtain ⟨hswitch | hdefer, hprofile⟩ := latest_attempt_cases hattempt
      · rw [← hprofile, h.switched s hswitch (by simp [hs]), hs]
      · have := h.deferred s hdefer
        rw [hs] at this
        cases this
    · rw [← h.saved profile happlied.2.2.2.2.2]
      by_contra hsaved
      exact hnot ⟨happlied, hshown, hsaved⟩

end Arbiter

section Runs

variable {t : Told} {w w' : World}

/-- Every arbiter knows of its applications. -/
def AllKnow (last : ℕ → Profile → Option Outcome) (w : World) : Prop :=
  ∀ n, (w.arbiter n).Knows (last n)

variable {last : ℕ → Profile → Option Outcome}

theorem AllKnow.put (h : AllKnow last w) {n : ℕ} {a : Arbiter}
    (hw : w'.arbiter = Function.update w.arbiter n a) (hn : a.Knows (last n)) :
    AllKnow last w' := by
  intro m
  rw [hw]
  by_cases hm : m = n
  · subst hm
    rw [Function.update_self]
    exact hn
  · rw [Function.update_of_ne hm]
    exact h m

theorem AllKnow.of_arbiter (h : AllKnow last w) (hw : w'.arbiter = w.arbiter) :
    AllKnow last w' := by
  intro n
  rw [hw]
  exact h n

theorem AllKnow.look (h : AllKnow last w) (n : ℕ) (now : ℚ) : AllKnow last (w.look n now) := by
  unfold World.look
  dsimp only
  split
  · exact h.of_arbiter rfl
  · split
    · exact h.put rfl (h n).converge
    · split
      · exact h.put rfl (h n).converge
      · split
        · exact h
        · split
          · split
            · exact h
            · exact h.put rfl ((h n).of_same rfl rfl rfl rfl)
          · exact h.put rfl ((h n).of_same rfl rfl rfl rfl)

theorem AllKnow.apply (h : AllKnow last w) (n : ℕ) (profile : Profile) (source : Option Source)
    (now : ℚ) : AllKnow last (w.apply n profile source now) := by
  unfold World.apply
  dsimp only
  split
  · split
    · refine h.put rfl ⟨(h n).saved, (h n).switched, ?_⟩
      intro s hs
      cases hs
      rfl
    · exact h.put rfl ((h n).of_same rfl rfl rfl rfl)
  · exact h.put rfl ((h n).of_same rfl rfl rfl rfl)

/-- One event. Only the end of a switch tells of an application. -/
theorem AllKnow.next (h : AllKnow t.last t.world) (e : Event) :
    AllKnow (t.next e).last (t.next e).world := by
  unfold Told.next
  cases hstep : t.world.step e with
  | none => exact h
  | some w =>
      dsimp only
      cases e with
      | request n profile owner holder =>
          simp only [World.step, Arbiter.request] at hstep
          split at hstep
          · rename_i a hok
            cases hstep
            split at hok
            · cases hok
              exact h.put rfl ((h n).of_same rfl rfl rfl rfl)
            · cases hok
          · cases hstep
            exact h
      | release n owner holder =>
          simp only [World.step, Arbiter.release] at hstep
          split at hstep
          · rename_i a hok
            cases hstep
            split at hok
            · cases hok
              exact h.put rfl ((h n).of_same rfl rfl rfl rfl)
            · cases hok
          · cases hstep
            exact h
      | setPolicy n profile =>
          cases hstep
          cases profile with
          | none => exact h.put rfl ((h n).of_same rfl rfl rfl rfl)
          | some profile => exact h.put rfl ((h n).of_same rfl rfl rfl rfl)
      | onAggregate n aggregate =>
          cases hstep
          refine h.put rfl ?_
          unfold Arbiter.onAggregate
          split
          · exact (h n).of_same rfl rfl rfl rfl
          · exact (h n).of_same rfl rfl rfl rfl
      | adoptHolds n other =>
          cases hstep
          exact h.put rfl ((h n).of_same rfl rfl rfl rfl)
      | start n =>
          simp only [World.step] at hstep
          split at hstep
          · cases hstep
            exact h.put rfl ((h n).of_same rfl rfl rfl rfl)
          · cases hstep
            exact h
      | stop n =>
          cases hstep
          exact h.put rfl ((h n).of_same rfl rfl rfl rfl)
      | look n now =>
          simp only [World.step] at hstep
          split at hstep
          · cases hstep
            exact (h.look n now).of_arbiter rfl
          · cases hstep
      | apply n now =>
          simp only [World.step] at hstep
          split at hstep
          · split at hstep
            · cases hstep
              exact (h.apply n _ _ now).of_arbiter rfl
            · cases hstep
          · cases hstep
      | settle n verdict recorded later =>
          simp only [World.step] at hstep
          split at hstep
          · rename_i profile source hphase
            split at hstep
            · cases hstep
              simp only [applies, hphase]
              by_cases hv : verdict.outcome = .failed
              · rw [if_pos hv]
                exact h.put rfl ((h n).failed hv)
              · rw [if_neg hv]
                intro m
                by_cases hm : m = n
                · subst hm
                  simpa using (h m).succeeded hv
                · simpa [hm] using h m
            · cases hstep
          · cases hstep
      | finish n =>
          simp only [World.step] at hstep
          split at hstep
          · cases hstep
            exact h.put rfl ((h n).of_same rfl rfl rfl rfl)
          · cases hstep

theorem all_know_boot (settings : ℕ → Settings) (clock : ℚ) :
    AllKnow (Told.boot settings clock).last (Told.boot settings clock).world := by
  intro n
  refine ⟨?_, ?_, ?_⟩
  · intro profile happlied
    simp only [Told.boot, World.boot, Arbiter.new] at happlied ⊢
    cases hrecovered : (settings n).recovered with
    | none => simp [hrecovered] at happlied
    | some r =>
        rw [hrecovered] at happlied
        obtain rfl : r.1 = profile := Option.some.inj happlied
        simp
  · intro s hs
    cases hs
  · intro s hs
    cases hs

theorem told_of_runs {settings : ℕ → Settings} {clock : ℚ} {events : List Event}
    (h : Runs (fun _ _ => True) (World.boot settings clock) events w) :
    (events.foldl Told.next (Told.boot settings clock)).world = w ∧
      AllKnow (lastApplication settings clock events) w := by
  induction h with
  | nil => exact ⟨rfl, all_know_boot settings clock⟩
  | @snoc events w w' e hrun _ hstep ih =>
      obtain ⟨hworld, hknow⟩ := ih
      have hsame : Told.next (events.foldl Told.next (Told.boot settings clock)) e =
          (events ++ [e]).foldl Told.next (Told.boot settings clock) := by
        rw [List.foldl_append]
        rfl
      have hnext : (Told.next (events.foldl Told.next (Told.boot settings clock)) e).world =
        w' := by
        rw [Told.next, hworld, hstep]
      refine ⟨hsame ▸ hnext, ?_⟩
      have hall := AllKnow.next (t := events.foldl Told.next (Told.boot settings clock))
        (hworld.symm ▸ hknow) e
      rw [hnext, hsame] at hall
      exact hall

end Runs

/-- In every run, at every look of a request at the arbiter, whatever the number of attempts was
when it was made: an answer "verified" means that the last successful application of the profile was
verified, unless the request finds its profile applied and the outcome overwritten. -/
theorem verified_answers (settings : ℕ → Settings) (clock : ℚ) (events : List Event) (w : World)
    (h : Runs (fun _ _ => True) (World.boot settings clock) events w) (n : ℕ) (profile : Profile)
    (owner : Owner) (seq0 : ℕ) :
    (∀ error, (w.arbiter n).waitSettled profile owner seq0 = some (.verified, error) →
      lastApplication settings clock events n profile = some .verified) ↔
    ¬ ((w.arbiter n).AlreadyApplied profile owner seq0 ∧ (w.arbiter n).Overwritten) :=
  ((told_of_runs h).2 n).answers

section Unrestored

/-- What a switch comes to on a host without a governor that can be read. -/
def verdict (outcome : Outcome) : Verdict := ⟨outcome, none, none, []⟩

/-- The policy has the host switched, and then wants the other profile, whose switch fails. -/
def policySwitches (first : Outcome) : List Event :=
  [.setPolicy 0 (some .performance), .setPolicy 0 (some .performance), .start 0, .look 0 0,
    .apply 0 0, .settle 0 (verdict first) 1 1, .finish 0, .setPolicy 0 (some .powersave),
    .setPolicy 0 (some .powersave), .look 0 2, .apply 0 2,
      .settle 0 (verdict .failed) 3 3, .finish 0,
    .request 0 "performance" "job" (some "bench")]

/-- Where the first switch was verified the answer is right. -/
theorem verified_answers_policy :
    ∃ w, World.plays (.boot (fun _ => {}) 0) (policySwitches .verified) = some w ∧
      (w.arbiter 0).waitSettled .performance .job 2 = some (.verified, none) ∧
      lastApplication (fun _ => {}) 0 (policySwitches .verified) 0 .performance =
        some .verified := by
  have hplays : ((World.boot (fun _ => {}) 0).plays (policySwitches .verified)).any
      (fun w => (w.arbiter 0).waitSettled .performance .job 2 = some (.verified, none) ∧
        (w.arbiter 0).appliedState.1 = some .verified) = true := by
    decide +kernel
  obtain ⟨w, hw, hstate⟩ := (Option.any_eq_true _ _).mp hplays
  obtain ⟨hanswer, hsaved⟩ := of_decide_eq_true hstate
  refine ⟨w, hw, hanswer, ?_⟩
  refine (verified_answers _ _ _ _ (runs_of_plays hw) _ _ _ _).mpr ?_ none hanswer
  exact fun hlost => hlost.2.2 hsaved

/-- Where it could not be verified the request is answered "verified" all the same, before the
worker has restored the outcome. -/
theorem unverifiable_answered_verified :
    ((World.boot (fun _ => {}) 0).plays (policySwitches .unverifiable)).any (fun w =>
      (w.arbiter 0).waitSettled .performance .job 2 = some (.verified, none)) = true ∧
    lastApplication (fun _ => {}) 0 (policySwitches .unverifiable) 0 .performance =
      some .unverifiable := by
  constructor
  · decide +kernel
  · decide +kernel

end Unrestored

end SystemsManager.Power
