import Mathlib.Algebra.Order.Field.Rat
import Mathlib.Logic.Function.Basic
import SystemsManager.Concurrency.Reaches

/-!
# The turns of the users

`Runs` of `backend/tower.py` starts a worker thread for each turn and remembers which turn of a user
is under way. `start` looks twice, in two sections under the lock; ends of workers, `stop` and `_gc`
come in between. Read `one_turn_per_user`.
-/

namespace SystemsManager.Tower.Turns

open Concurrency

/-- `_RUN_TTL_S` -/
def RUN_TTL_S : ℚ := 600

/-- `_RATE_PER_MIN` -/
def RATE_PER_MIN : ℕ := 10

/-- `_RATE_WINDOW_S` -/
def RATE_WINDOW_S : ℚ := 60

/-- A run, with what the registry reads of it. -/
structure Run where
  user : String
  done : Bool
  stopped : Bool
  awaiting : Bool
  started : ℚ
  finished : Option ℚ

/-- `Runs`. A user without an entry in `_rate` has no stamps. The ids that `uuid4` gave, and those
whose workers have ended, are history. -/
structure Runs where
  runs : String → Option Run := fun _ => none
  activeUser : String → Option String := fun _ => none
  rate : String → List ℚ := fun _ => []
  issued : List String := []
  ended : List String := []

/-- The stamps of the last minute. -/
def recent (now : ℚ) (stamps : List ℚ) : List ℚ :=
  stamps.filter fun t => decide (now - t < RATE_WINDOW_S)

/-- `_gc` drops the run. -/
def Run.expired (r : Run) (now : ℚ) : Bool :=
  r.done && decide (RUN_TTL_S < now - (r.finished.filter (· ≠ 0)).getD r.started)

namespace Runs

variable (s : Runs)

/-- `_active_run`, by its id. -/
def activeRun (user : String) : Option String :=
  (s.activeUser user).filter fun rid => (s.runs rid).any fun r => !r.done

/-- `_gc` -/
def gc (now : ℚ) : Runs :=
  { s with
    runs := fun rid => (s.runs rid).filter fun r => !r.expired now
    activeUser := s.activeRun
    rate := fun user => recent now (s.rate user) }

/-- An assignment to fields of a run. -/
def modify (rid : String) (f : Run → Run) : Runs :=
  { s with runs := Function.update s.runs rid ((s.runs rid).map f) }

end Runs

/-- What happens to the registry: a section under its lock, or what a worker does to its run. -/
inductive Event where
  /-- The first section of `start`, whose tests the second one repeats. -/
  | look (now : ℚ)
  /-- The second section of `start`: the clocks that it reads, and the id that `uuid4` gives. -/
  | start (user rid : String) (now started : ℚ)
  /-- `count_tick` -/
  | countTick (user : String) (now : ℚ)
  /-- `_emit` of an event that parks the run or takes it up again. -/
  | emit (rid : String) (awaiting : Bool)
  /-- The end of `_work`. -/
  | finish (rid : String) (now : ℚ)
  /-- The section of `stop`. -/
  | stop (rid user : String)

/-- `stop` releases the user. -/
def Run.releases (r : Run) (user : String) : Bool :=
  r.user == user && !r.done && !r.awaiting && !r.stopped

/-- The registry after an event. -/
def Runs.step (s : Runs) : Event → Option Runs
  | .look now => some (s.gc now)
  | .start user rid now started =>
      if RATE_PER_MIN ≤ (s.rate user).length ∨ s.activeRun user ≠ none then some s
      else if rid ∈ s.issued then none
      else
        some { s with
          runs := Function.update s.runs rid (some ⟨user, false, false, false, started, none⟩)
          activeUser := Function.update s.activeUser user (some rid)
          rate := Function.update s.rate user (s.rate user ++ [now])
          issued := rid :: s.issued }
  | .countTick user now =>
      let stamps := recent now (s.rate user)
      let kept := if RATE_PER_MIN ≤ stamps.length then stamps else stamps ++ [now]
      some { s with rate := Function.update s.rate user kept }
  | .emit rid awaiting => some (s.modify rid fun r => { r with awaiting := awaiting })
  | .finish rid now =>
      some { (s.modify rid fun r => { r with done := true, finished := some now }) with
        ended := rid :: s.ended }
  | .stop rid user =>
      if (s.runs rid).any (·.releases user) then
        some { (s.modify rid fun r => { r with stopped := true }) with
          activeUser := if s.activeUser user = some rid then Function.update s.activeUser user none
            else s.activeUser }
      else some s

/-- The turn of the user is under way: its worker runs, and it was not stopped. -/
def Runs.Live (s : Runs) (user rid : String) : Prop :=
  ∃ r, s.runs rid = some r ∧ r.user = user ∧ r.done = false ∧ r.stopped = false

/-- What every event keeps. -/
structure Inv (s : Runs) : Prop where
  live : ∀ rid r, s.runs rid = some r → r.done = false → r.stopped = false →
    s.activeUser r.user = some rid
  active : ∀ user rid r, s.activeUser user = some rid → s.runs rid = some r → r.done = false →
    r.user = user ∧ r.stopped = false
  known : ∀ user rid, s.activeUser user = some rid → rid ∈ s.issued
  issued : ∀ rid r, s.runs rid = some r → rid ∈ s.issued
  kept : ∀ rid ∈ s.issued, rid ∉ s.ended → (s.runs rid).map Run.done = some false
  rate : ∀ user, (s.rate user).length ≤ RATE_PER_MIN

variable {s s' : Runs} {user rid : String}

theorem active_run_eq_some : s.activeRun user = some rid ↔
    s.activeUser user = some rid ∧ ∃ r, s.runs rid = some r ∧ r.done = false := by
  simp [Runs.activeRun, Option.filter_eq_some_iff, Option.any_eq_true]

theorem Inv.active_run (h : Inv s) : s.activeRun user = some rid ↔ s.Live user rid := by
  rw [active_run_eq_some]
  constructor
  · rintro ⟨hget, r, hr, hdone⟩
    obtain ⟨huser, hstopped⟩ := h.active user rid r hget hr hdone
    exact ⟨r, hr, huser, hdone, hstopped⟩
  · rintro ⟨r, hr, rfl, hdone, hstopped⟩
    exact ⟨h.live rid r hr hdone hstopped, r, hr, hdone⟩

theorem Inv.gc (h : Inv s) (now : ℚ) : Inv (s.gc now) := by
  have hruns : ∀ {rid r}, (s.gc now).runs rid = some r → s.runs rid = some r := by
    intro rid r hr
    exact (Option.filter_eq_some_iff.mp hr).1
  have hactive : ∀ {user rid}, (s.gc now).activeUser user = some rid →
    s.activeUser user = some rid :=
    fun hget => (active_run_eq_some.mp hget).1
  refine ⟨?_, ?_, ?_, ?_, ?_, ?_⟩
  · intro rid r hr hdone hstopped
    exact h.active_run.mpr ⟨r, hruns hr, rfl, hdone, hstopped⟩
  · exact fun user rid r hget hr => h.active user rid r (hactive hget) (hruns hr)
  · exact fun user rid hget => h.known user rid (hactive hget)
  · exact fun rid r hr => h.issued rid r (hruns hr)
  · intro rid hrid hnot
    obtain ⟨r, hr, hdone⟩ := Option.map_eq_some_iff.mp (h.kept rid hrid hnot)
    simp [Runs.gc, Run.expired, Option.filter, hr, hdone]
  · exact fun user => (List.length_filter_le ..).trans (h.rate user)

theorem Inv.step {e : Event} (h : Inv s) (hstep : s.step e = some s') : Inv s' := by
  cases e with
  | look now =>
      cases hstep
      exact h.gc now
  | start user rid now started =>
      have hidle : ∀ other r, s.runs other = some r → r.done = false → r.stopped = false →
          s.activeRun user = none → r.user ≠ user := by
        rintro other r hr hdone hstopped hnone rfl
        rw [h.active_run.mpr ⟨r, hr, rfl, hdone, hstopped⟩] at hnone
        cases hnone
      simp only [Runs.step] at hstep
      split at hstep
      · cases hstep
        exact h
      · split at hstep
        · cases hstep
        · obtain ⟨hlive, hactive, hknown, hissued, hkept, hrate⟩ := h
          cases hstep
          constructor <;> grind [Function.update_apply]
  | countTick user now =>
      cases hstep
      refine ⟨h.live, h.active, h.known, h.issued, h.kept, fun other => ?_⟩
      have hrecent : (recent now (s.rate user)).length ≤ (s.rate user).length :=
        List.length_filter_le ..
      have := h.rate user
      have := h.rate other
      grind [Function.update_apply]
  | emit rid awaiting =>
      cases hstep
      obtain ⟨hlive, hactive, hknown, hissued, hkept, hrate⟩ := h
      cases hr : s.runs rid <;> constructor <;> simp only [Runs.modify, hr, Option.map] <;>
        grind [Function.update_apply]
  | finish rid now =>
      cases hstep
      obtain ⟨hlive, hactive, hknown, hissued, hkept, hrate⟩ := h
      cases hr : s.runs rid <;> constructor <;> simp only [Runs.modify, hr, Option.map] <;>
        grind [Function.update_apply]
  | stop rid user =>
      simp only [Runs.step] at hstep
      by_cases hreleases : (s.runs rid).any (·.releases user) = true
      · rw [if_pos hreleases] at hstep
        cases hstep
        obtain ⟨r, hr, hreleases⟩ := Option.any_eq_true _ _ |>.mp hreleases
        obtain ⟨hlive, hactive, hknown, hissued, hkept, hrate⟩ := h
        simp only [Run.releases, Bool.and_eq_true, beq_iff_eq, Bool.not_eq_true'] at hreleases
        constructor <;> simp only [Runs.modify, hr, Option.map] <;> grind [Function.update_apply]
      · rw [if_neg hreleases] at hstep
        cases hstep
        exact h

/-- In every interleaving of starts, ticks, stops and ends of workers, the run that `_active_run`
finds for a user is the one turn of that user that is under way, and it finds none only where there
is none; a run whose worker has not ended is never dropped; and no user has more than
`_RATE_PER_MIN` stamps. -/
theorem one_turn_per_user (h : Reaches Runs.step (fun _ _ => True) {} s) :
    (∀ user rid, s.activeRun user = some rid ↔ s.Live user rid) ∧
      (∀ rid ∈ s.issued, rid ∉ s.ended → (s.runs rid).map Run.done = some false) ∧
      ∀ user, (s.rate user).length ≤ RATE_PER_MIN := by
  have hinv : Inv s := by
    refine h.invariant ⟨?_, ?_, ?_, ?_, ?_, ?_⟩ fun hinv _ hstep => hinv.step hstep
    all_goals simp
  exact ⟨fun _ _ => hinv.active_run, hinv.kept, hinv.rate⟩

/-- A second turn after the first was stopped, whose worker still runs. -/
theorem one_turn_per_user_stopped : ∃ s : Runs, s.ended = [] ∧ s.issued = ["b", "a"] ∧
    (s.activeRun "u" = some "b" ↔ s.Live "u" "b") := by
  have hplay : (play Runs.step (fun _ _ => true) {} [.start "u" "a" 0 0, .stop "a" "u",
      .start "u" "b" 1 1]).any (fun s => s.ended = [] ∧ s.issued = ["b", "a"]) = true := by
    decide +kernel
  obtain ⟨s, hs, hstate⟩ := (Option.any_eq_true _ _).mp hplay
  have hstate : s.ended = [] ∧ s.issued = ["b", "a"] := by simpa using hstate
  exact ⟨s, hstate.1, hstate.2,
    (one_turn_per_user (reaches_of_play (fun _ _ _ => trivial) hs)).1 "u" "b"⟩

end SystemsManager.Tower.Turns
