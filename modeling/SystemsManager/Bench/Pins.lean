import SystemsManager.Concurrency.Reaches
import SystemsManager.Bench.WatcherSteps

/-!
# The operator's pins

A pin request and a promotion write the same column under two locks, and the watcher promotes by the
pins that it has read at the beginning of its poll. `Chosen` is the watcher with the choices of the
operator that nothing has ended yet. Read `choice_stands`: they stay pinned as long as each
promotion finds the pins of its model and host as the poll has read them.
-/

namespace SystemsManager.BenchBaseline

open Python Sql Concurrency

/-- A run that the operator has pinned, with its model and host. -/
structure Choice where
  runId : String
  modelId : String
  agentId : String
  deriving DecidableEq

/-- The watcher and the choices that stand. -/
structure Chosen where
  watcher : Watcher
  standing : List Choice

/-- The choices that stand after an event: a pin request ends those for its model and host and makes
one, a deletion ends those of the deleted runs, and a promotion that of the baseline of its check.
-/
def Chosen.standingAfter (c : Chosen) (e : Event) : List Choice :=
  match e, c.watcher.phase with
  | .pin runId, _ =>
      match c.watcher.readRun runId with
      | some r =>
          ⟨runId, r.modelId, r.agentId⟩ ::
            c.standing.filter fun d => ¬(d.modelId = r.modelId ∧ d.agentId = r.agentId)
      | none => c.standing
  | .delete runId, _ => c.standing.filter fun d => d.runId ≠ runId
  | .clear modelId agentId, _ =>
      c.standing.filter fun d => ¬(d.modelId = modelId ∧ d.agentId = agentId)
  | .promote, .promoting _ _ _ _ b _ => c.standing.filter fun d => d.runId ≠ b.runId
  | _, _ => c.standing

/-- One event. -/
def Chosen.step (tz : ℚ) (c : Chosen) (e : Event) : Option Chosen :=
  (c.watcher.step tz e).map fun s => ⟨s, c.standingAfter e⟩

/-- The run is the pinned baseline of its model and host. -/
def Stands (s : Watcher) (d : Choice) : Prop :=
  (∃ r ∈ s.runs, r.runId = d.runId ∧ r.modelId = d.modelId ∧ r.agentId = d.agentId ∧
    r.baseline = true) ∧
  ∀ r ∈ s.runs, r.modelId = d.modelId → r.agentId = d.agentId → r.baseline = true →
    r.runId = d.runId

/-- When a check is promoted, no other run than its baseline is pinned for the model and the host,
and the run of the check is one of that model and host. -/
def pinsUnchanged (s : Watcher) (e : Event) : Bool :=
  match e, s.phase with
  | .promote, .promoting _ _ _ _ b runId =>
      s.runs.all fun r =>
        (!(r.modelId = b.modelId && r.agentId = b.agentId && r.baseline) || r.runId = b.runId) &&
        (r.runId ≠ runId || r.modelId = b.modelId && r.agentId = b.agentId)
  | _, _ => true

/-- The choices stand, in a table that has each run once. -/
def AllStand (c : Chosen) : Prop :=
  (c.watcher.runs.map (·.runId)).Nodup ∧ ∀ d ∈ c.standing, Stands c.watcher d

section Steps

variable {tz : ℚ} {s s' : Watcher} {d : Choice} {modelId agentId runId : String}

theorem repinned_same (r : Run) : ∀ r' : Run,
    r' = (if r.runId = runId then { r with baseline := true }
      else if r.modelId = modelId ∧ r.agentId = agentId then { r with baseline := false } else r) →
    r'.runId = r.runId ∧ r'.modelId = r.modelId ∧ r'.agentId = r.agentId := by
  rintro r' rfl
  split
  · exact ⟨rfl, rfl, rfl⟩
  · split <;> exact ⟨rfl, rfl, rfl⟩

theorem pin_run_ids (s : Watcher) (modelId agentId runId : String) :
    (s.pinRun modelId agentId runId).runs.map (·.runId) = s.runs.map (·.runId) := by
  show (s.runs.map _).map _ = _
  rw [List.map_map]
  exact List.map_congr_left fun r _ => (repinned_same r _ rfl).1

theorem read_run_id {r : Run} (h : s.readRun runId = some r) : r.runId = runId := by
  simpa using List.find?_some h

theorem stands_pin_of_ne (hstands : Stands s d)
    (hpair : ¬(d.modelId = modelId ∧ d.agentId = agentId))
    (hrun : ∀ r ∈ s.runs, r.runId = runId → r.modelId = modelId ∧ r.agentId = agentId) :
    Stands (s.pinRun modelId agentId runId) d := by
  obtain ⟨⟨r, hr, hid, hmodel, hagent, hpinned⟩, honly⟩ := hstands
  -- Whatever run of the choice's model and host is neither pinned nor unpinned.
  have hsame : ∀ r ∈ s.runs, r.modelId = d.modelId → r.agentId = d.agentId →
      ¬r.runId = runId ∧ ¬(r.modelId = modelId ∧ r.agentId = agentId) := by
    intro r hr hmodel hagent
    rw [hmodel, hagent]
    refine ⟨fun e => hpair ?_, hpair⟩
    rw [← hmodel, ← hagent]
    exact hrun r hr e
  refine ⟨⟨r, List.mem_map.mpr ⟨r, hr, ?_⟩, hid, hmodel, hagent, hpinned⟩, ?_⟩
  · obtain ⟨hne, hother⟩ := hsame r hr hmodel hagent
    rw [if_neg hne, if_neg hother]
  · intro r' hr' hmodel' hagent' hpinned'
    obtain ⟨r, hr, rfl⟩ := List.mem_map.mp hr'
    obtain ⟨-, hmodel, hagent⟩ := repinned_same r _ rfl
    have hold : r.modelId = d.modelId ∧ r.agentId = d.agentId :=
      ⟨hmodel.symm.trans hmodel', hagent.symm.trans hagent'⟩
    obtain ⟨hne, hother⟩ := hsame r hr hold.1 hold.2
    rw [if_neg hne, if_neg hother] at hpinned' ⊢
    exact honly r hr hold.1 hold.2 hpinned'

theorem stands_pin_self {r : Run}
    (hr : s.readRun runId = some r) :
    Stands (s.pinRun r.modelId r.agentId runId) ⟨runId, r.modelId, r.agentId⟩ := by
  have hmem := List.mem_of_find?_eq_some hr
  have hid := read_run_id hr
  refine ⟨⟨{ r with baseline := true }, List.mem_map.mpr ⟨r, hmem, if_pos hid⟩, hid, rfl, rfl, rfl⟩,
    ?_⟩
  intro r' hr' hmodel' hagent' hpinned'
  obtain ⟨q, hq, rfl⟩ := List.mem_map.mp hr'
  obtain ⟨hsame, hmodel, hagent⟩ := repinned_same q _ rfl
  rw [hsame]
  by_contra hne
  rw [if_neg hne, if_pos ⟨hmodel.symm.trans hmodel', hagent.symm.trans hagent'⟩] at hpinned'
  cases hpinned'

theorem stands_runs (hstands : Stands s d)
    (hkeeps : ∀ r ∈ s.runs, r.runId = d.runId → r.modelId = d.modelId → r.agentId = d.agentId →
      r.baseline = true → r ∈ s'.runs)
    (hpinned : ∀ r ∈ s'.runs, r.baseline = true → r ∈ s.runs) : Stands s' d := by
  obtain ⟨⟨r, hr, hid, hmodel, hagent, hbaseline⟩, honly⟩ := hstands
  refine ⟨⟨r, hkeeps r hr hid hmodel hagent hbaseline, hid, hmodel, hagent, hbaseline⟩, ?_⟩
  exact fun q hq hm ha hb => honly q (hpinned q hq hb) hm ha hb

/-- The event writes the runs table. -/
def Event.writesRuns : Event → Bool
  | .promote => true
  | .pin _ => true
  | .delete _ => true
  | .clear _ _ => true
  | .store _ => true
  | _ => false

attribute [local simp] Watcher.step in
theorem step_runs {e : Event} (he : e.writesRuns = false) (hstep : s.step tz e = some s') :
    s'.runs = s.runs := by
  cases e with
  | wait now =>
      simp only [Watcher.step] at hstep
      split at hstep <;> cases hstep
      exact rfl
  | begin cfg =>
      simp only [Watcher.step] at hstep
      split at hstep <;> cases hstep
      exact rfl
  | poll =>
      simp only [Watcher.step] at hstep
      split at hstep
      · rename_i cfg now pins rid act todo hphase
        cases hstep
        exact (polled cfg now pins rid act s).same.1
      · cases hstep
  | promote => cases he
  | plan buildOf hosts =>
      simp only [Watcher.step] at hstep
      split at hstep
      · rename_i cfg now pins hphase
        cases hstep
        obtain ⟨schedule, hschedule⟩ := schedule_since_eq
          (s.detectBuildChanges cfg s.pinned now buildOf) cfg now
        show ((s.detectBuildChanges cfg s.pinned now buildOf).scheduleSince cfg now).1.runs = s.runs
        rw [hschedule]
        exact (queued_detect s).runs
      · cases hstep
  | prep build =>
      simp only [Watcher.step] at hstep
      split at hstep
      · rename_i cfg now since hosts b todo live items hphase
        cases hstep
        exact (planned cfg now since hosts build s b).same.1
      · cases hstep
        exact rfl
      · cases hstep
  | call answer =>
      simp only [Watcher.step] at hstep
      split at hstep <;> cases hstep
      exact rfl
  | apply =>
      simp only [Watcher.step] at hstep
      split at hstep
      · rename_i now item answer items hphase
        cases hstep
        exact (launched s now item answer).same.1
      · cases hstep
  | recheck runId =>
      simp only [Watcher.step] at hstep
      split at hstep <;> cases hstep
      exact (queued_recheck runId).runs
  | quiet agentId seconds =>
      simp only [Watcher.step] at hstep
      split at hstep <;> cases hstep
      exact rfl
  | restart =>
      cases hstep
      exact rfl
  | pin runId => cases he
  | delete runId => cases he
  | clear modelId agentId => cases he
  | store run => cases he

end Steps

theorem AllStand.step {tz : ℚ} {c c' : Chosen} {e : Event} (h : AllStand c)
    (hpins : pinsUnchanged c.watcher e = true) (hstep : c.step tz e = some c') : AllStand c' := by
  obtain ⟨hunique, hall⟩ := h
  obtain ⟨s, hs, rfl⟩ := Option.map_eq_some_iff.mp hstep
  by_cases hwrites : e.writesRuns = true
  · cases e with
    | promote =>
        simp only [Watcher.step] at hs
        split at hs
        · rename_i cfg now pins todo b x hphase
          cases hs
          simp only [pinsUnchanged, hphase, List.all_eq_true, Bool.and_eq_true, Bool.or_eq_true,
            Bool.not_eq_true', decide_eq_true_eq, ne_eq] at hpins
          refine ⟨(pin_run_ids _ _ _ _).symm ▸ hunique, fun d hd => ?_⟩
          simp only [Chosen.standingAfter, hphase] at hd
          obtain ⟨hd, hne⟩ := List.mem_filter.mp hd
          have hne : d.runId ≠ b.runId := of_decide_eq_true hne
          have hstands := hall d hd
          refine stands_pin_of_ne hstands ?_ ?_
          · -- The run of the choice is pinned, so it would be the baseline of the check.
            rintro ⟨hmodel, hagent⟩
            obtain ⟨⟨r, hr, hid, hmodel', hagent', hbaseline⟩, -⟩ := hstands
            rcases (hpins r hr).1 with hnot | hsame
            · rw [hmodel', hagent', hmodel, hagent, hbaseline] at hnot
              simp at hnot
            · exact hne (hid.symm.trans hsame)
          · intro r hr hid
            exact (hpins r hr).2.resolve_left fun hne => hne hid
        · cases hs
    | pin runId =>
        simp only [Watcher.step] at hs
        split at hs
        · rename_i r hread
          cases hs
          refine ⟨(pin_run_ids _ _ _ _).symm ▸ hunique, fun d hd => ?_⟩
          simp only [Chosen.standingAfter, hread] at hd
          rcases List.mem_cons.mp hd with rfl | hd
          · exact stands_pin_self hread
          · obtain ⟨hd, hpair⟩ := List.mem_filter.mp hd
            refine stands_pin_of_ne (hall d hd) (of_decide_eq_true hpair) fun q hq hid => ?_
            have hsame : q = r := by
              refine List.inj_on_of_nodup_map hunique hq (List.mem_of_find?_eq_some hread) ?_
              rw [hid, read_run_id hread]
            rw [hsame]
            exact ⟨rfl, rfl⟩
        · rename_i hread
          cases hs
          refine ⟨hunique, fun d hd => ?_⟩
          simp only [Chosen.standingAfter, hread] at hd
          exact hall d hd
    | delete runId =>
        cases hs
        refine ⟨(List.filter_sublist.map _).nodup hunique, fun d hd => ?_⟩
        obtain ⟨hd, hne⟩ := List.mem_filter.mp hd
        refine stands_runs (hall d hd) ?_ fun r hr _ => (List.mem_filter.mp hr).1
        intro r hr hid _ _ _
        exact List.mem_filter.mpr ⟨hr, decide_eq_true (hid ▸ of_decide_eq_true hne)⟩
    | clear modelId agentId =>
        cases hs
        refine ⟨(List.filter_sublist.map _).nodup hunique, fun d hd => ?_⟩
        obtain ⟨hd, hpair⟩ := List.mem_filter.mp hd
        refine stands_runs (hall d hd) ?_ fun r hr _ => (List.mem_filter.mp hr).1
        intro r hr _ hmodel hagent _
        have hpair : ¬(d.modelId = modelId ∧ d.agentId = agentId) := of_decide_eq_true hpair
        refine List.mem_filter.mpr ⟨hr, decide_eq_true ?_⟩
        rw [hmodel, hagent]
        exact hpair
    | store run =>
        cases hs
        obtain ⟨hunique', hpinned, hkeeps⟩ := stored_runs hunique run
          (fun r => r.modelId = run.modelId && r.agentId = run.agentId) KEEP_PER_MODEL
        exact ⟨hunique', fun d hd => stands_runs (hall d hd)
          (fun r hr _ _ _ hbaseline => hkeeps r hr hbaseline) hpinned⟩
    | _ => cases hwrites
  · have hwrites := Bool.eq_false_iff.mpr hwrites
    have hruns := step_runs hwrites hs
    have hstanding : c.standingAfter e = c.standing := by
      cases e <;> first | rfl | cases hwrites
    refine ⟨by rw [hruns]; exact hunique, fun d hd => ?_⟩
    rw [hstanding] at hd
    unfold Stands
    rw [hruns]
    exact hall d hd

/-- In every run of ticks, pin requests and whatever else goes on, in which each promotion finds no
other run pinned for the model and host of its check than the baseline that the check was started
with, and has a run of that model and host: a run that the operator has pinned stays the pinned
baseline until another pin request for its model and host, its deletion, or the promotion of a check
that was started with it as its baseline. -/
theorem choice_stands (tz : ℚ) (s : Watcher) (hunique : (s.runs.map (·.runId)).Nodup) (c : Chosen)
    (h : Reaches (Chosen.step tz) (fun c e => pinsUnchanged c.watcher e = true) ⟨s, []⟩ c) :
    ∀ d ∈ c.standing, Stands c.watcher d := by
  have hall : AllStand c := by
    refine h.invariant (I := AllStand) ⟨hunique, fun d hd => ?_⟩ ?_
    · cases hd
    · exact fun hall hpins hstep => hall.step hpins hstep
  exact hall.2

/-- The check is promoted, and then the operator pins the second run, which stays pinned. -/
theorem second_run_stands : ∃ c : Chosen, c.standing = [⟨"r2", "m", "a1"⟩] ∧
    Stands c.watcher ⟨"r2", "m", "a1"⟩ := by
  have hrun : (play (Chosen.step 0) (fun c e => pinsUnchanged c.watcher e) ⟨twoRuns, []⟩
      (buildCheck ++ [.poll, .promote, .pin "r2"])).any
        (fun c => c.standing = [⟨"r2", "m", "a1"⟩]) = true := by
    decide +kernel
  obtain ⟨c, hc, hstanding⟩ := (Option.any_eq_true _ _).mp hrun
  have hstanding : c.standing = [⟨"r2", "m", "a1"⟩] := of_decide_eq_true hstanding
  refine ⟨c, hstanding, ?_⟩
  refine choice_stands 0 twoRuns (by decide) c (reaches_of_play (fun _ _ h => h) hc) _ ?_
  rw [hstanding]
  exact List.mem_singleton_self _

/-- The operator pins the second run after the check was recorded and before its promotion, which
unpins it. -/
theorem second_run_unpinned : ∃ c : Chosen,
    Reaches (Chosen.step 0) (fun _ _ => True) ⟨twoRuns, []⟩ c ∧
      ∃ d ∈ c.standing, ¬Stands c.watcher d := by
  have hrun : (play (Chosen.step 0) (fun _ _ => true) ⟨twoRuns, []⟩
      (buildCheck ++ [.poll, .pin "r2", .promote])).any
        (fun c => c.standing = [⟨"r2", "m", "a1"⟩] &&
          c.watcher.runs.all fun r => r.runId ≠ "r2" || !r.baseline) = true := by
    decide +kernel
  obtain ⟨c, hc, htest⟩ := (Option.any_eq_true _ _).mp hrun
  simp only [Bool.and_eq_true, decide_eq_true_eq, List.all_eq_true, Bool.or_eq_true,
    Bool.not_eq_true', ne_eq] at htest
  obtain ⟨hstanding, hunpinned⟩ := htest
  refine ⟨c, reaches_of_play (fun _ _ _ => trivial) hc, ⟨"r2", "m", "a1"⟩, ?_, ?_⟩
  · rw [hstanding]
    exact List.mem_singleton_self _
  · rintro ⟨⟨r, hr, hid, -, -, hbaseline⟩, -⟩
    rcases hunpinned r hr with hne | hnot
    · exact hne hid
    · rw [hbaseline] at hnot
      cases hnot

end SystemsManager.BenchBaseline
