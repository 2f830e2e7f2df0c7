import Mathlib.Data.Rat.Floor
import Mathlib.Algebra.Order.Ring.Rat
import SystemsManager.Forecast.Run
import SystemsManager.Python.Value
import SystemsManager.Stats.Alignment

/-!
# The slots of the forecast

`next_slot` and `digest_slot` of `backend/forecast.py` on exact times, and how `Forecast.run_once`
carries the slot of the weekly digest through the rows of `forecast_runs`. A weekly slot is the
point of a grid like every other slot, with an anchor that depends on the weekday; `weekly_next` and
`digest_last` say so. Read `slots_and_digests`.
-/

namespace SystemsManager.Forecast

open Python Alignment

/-! ### Schedules -/

/-- The presets of `PERIODS`, and the custom period. -/
inductive Every where
  | hour | sixHours | twelveHours | daily | weekly | custom
  deriving DecidableEq

/-- The name of a preset in the settings. -/
def Every.ofName : String → Option Every
  | "1h" => some .hour
  | "6h" => some .sixHours
  | "12h" => some .twelveHours
  | "daily" => some .daily
  | "weekly" => some .weekly
  | "custom" => some .custom
  | _ => none

/-- `WEEKDAYS` -/
def weekdays : List String := ["mon", "tue", "wed", "thu", "fri", "sat", "sun"]

/-- `WEEKDAYS.index` -/
def weekdayIndex? (name : String) : Option ℕ :=
  if name ∈ weekdays then some (weekdays.idxOf name) else none

/-- The hour of an `HH:MM` setting: `[01]?\d|2[0-3]`. -/
def hour? : List Char → Option ℕ
  | [d] => digitValue d
  | [c, d] =>
      if c = '0' ∨ c = '1' then (digitValue d).map fun digit => (c.toNat - '0'.toNat) * 10 + digit
      else if c = '2' ∧ d ∈ ['0', '1', '2', '3'] then some (20 + (d.toNat - '0'.toNat))
      else none
  | _ => none

/-- The minute of an `HH:MM` setting: `[0-5]\d`. -/
def minute? (c d : Char) : Option ℕ :=
  if c ∈ ['0', '1', '2', '3', '4', '5'] then
    (digitValue d).map fun digit => (c.toNat - '0'.toNat) * 10 + digit
  else none

/-- Hour and minute, when both were read. -/
def hourMinute (hour minute : Option ℕ) (default : ℕ × ℕ) : ℕ × ℕ :=
  match hour, minute with
  | some h, some m => (h, m)
  | _, _ => default

/-- `_hm` -/
def hm (text : String) (default : ℕ × ℕ) : ℕ × ℕ :=
  match stripChars text with
  | [d, ':', m, n] => hourMinute (hour? [d]) (minute? m n) default
  | [c, d, ':', m, n] => hourMinute (hour? [c, d]) (minute? m n) default
  | _ => default

/-- `f"{n:02d}"` -/
def twoDigits (n : ℕ) : String := if n < 10 then "0" ++ toString n else toString n

/-- `Schedule`: a preset or custom period, the weekly day, and the local time of day. -/
structure Schedule where
  every : Every
  hours : ℕ
  hours_pos : 0 < hours
  /-- The index of `day` in `WEEKDAYS`. -/
  day : Fin 7
  atTime : String

/-- `Schedule.of`, for the texts of the settings and their number of hours. -/
def Schedule.of (every : String) (everyHours : ℤ) (runDay atTime : String) : Schedule where
  every := (Every.ofName every).getD .daily
  hours := (max 1 (min 720 (if everyHours = 0 then 8 else everyHours))).toNat
  hours_pos := by omega
  day := if h : runDay ∈ weekdays then ⟨weekdays.idxOf runDay, List.idxOf_lt_length_of_mem h⟩ else 0
  atTime := twoDigits (hm atTime (3, 0)).1 ++ ":" ++ twoDigits (hm atTime (3, 0)).2

/-- `period_s` -/
def Schedule.periodS (sched : Schedule) : ℚ :=
  match sched.every with
  | .hour => 3600
  | .sixHours => 21600
  | .twelveHours => 43200
  | .daily => 86400
  | .weekly => 604800
  | .custom => sched.hours * 3600

/-! ### Slots -/

/-- The number of the local day. -/
def localDay (here : ℚ) : ℤ := ⌊here / DAY⌋

/-- `weekday()` of the day with this number; day 0 was a Thursday. -/
def weekday (day : ℤ) : ℤ := (day + 3) % 7

/-- The seconds of `h` hours and `m` minutes. -/
def clockSeconds (h m : ℕ) : ℚ := h * 3600 + m * 60

/-- `next_slot` -/
def nextSlot (now : ℚ) (sched : Schedule) (off : ℚ) : ℚ :=
  let here := now + off
  let hm := hm sched.atTime (3, 0)
  match sched.every with
  | .weekly =>
      let today := localDay here
      let ahead := ((sched.day : ℤ) - weekday today) % 7
      let slot : ℚ := (today + ahead : ℤ) * DAY + clockSeconds hm.1 hm.2
      if slot ≤ here then slot + 7 * DAY - off else slot - off
  | _ =>
      let period := sched.periodS
      let anchor := clockSeconds hm.1 hm.2
      anchor + (⌊(here - anchor) / period⌋ + 1) * period - off

/-- `digest_slot` -/
def digestSlot (now : ℚ) (day atTime : String) (off : ℚ) : ℚ :=
  let here := now + off
  let hm := hm atTime (8, 0)
  let want := (weekdayIndex? (if day = "" then "mon" else day)).getD 0
  let today := localDay here
  let slot : ℚ := (today - (weekday today - want) % 7 : ℤ) * DAY + clockSeconds hm.1 hm.2
  if here < slot then slot - 7 * DAY - off else slot - off

/-! ### The weekly digest over the runs -/

namespace Digest

/-- The checks of the service; their ids differ. -/
structure Checks where
  ids : List String
  nodup : ids.Nodup

/-- The state of a check in a run. -/
inductive VisitState where
  | pending | ok | collecting | failed | off
  deriving DecidableEq

/-- What came of a check's `detect`. -/
inductive Detected where
  | found | collecting | failed

/-- The state that an outcome leaves. -/
def Detected.state : Detected → VisitState
  | .found => .ok
  | .collecting => .collecting
  | .failed => .failed

/-- The state says that the check ran. -/
def VisitState.ran (s : VisitState) : Bool := s == .ok || s == .collecting || s == .failed

/-- What a run meets: its times, the settings, and how the checks answer. -/
structure Pass where
  started : ℚ
  finished : ℚ
  digestDay : String
  digestAt : String
  tz : ℚ
  disabled : List String
  /-- `cancelled()`, or forecasts are no longer enabled, when the run comes to this check. -/
  stops : String → Bool
  detected : String → Detected

/-- A row of `forecast_runs`, with the columns that the digest's slot needs. -/
structure RunRow where
  started : ℚ
  digestAt : Option ℚ
  deriving DecidableEq

/-- The loop of `run_once` over the checks, with the states that they are left in. -/
def visit (p : Pass) (due : Bool) : List String → List (String × VisitState)
  | [] => []
  | c :: rest =>
      if p.stops c then (c :: rest).map fun c => (c, .pending)
      else if p.disabled.contains c || (c == DIGEST_ID && !due) then (c, .off) :: visit p due rest
      else (c, (p.detected c).state) :: visit p due rest

/-- The state that the outcome of a check leaves. -/
def outcomeState : Outcome → VisitState
  | .off => .off
  | .collecting => .collecting
  | .failed => .failed
  | .ok .. => .ok

/-- The checks of a run as `Code.runOnce` is given them, up to the one before which it stops. -/
def checkRuns (p : Pass) (due : Bool) (outcome : String → Outcome) : List String → List CheckRun
  | [] => []
  | c :: rest =>
      if p.stops c then []
      else if p.disabled.contains c || (c == DIGEST_ID && !due) then
        ⟨c, .off⟩ :: checkRuns p due outcome rest
      else ⟨c, outcome c⟩ :: checkRuns p due outcome rest

/-- `Store.last_run`: the latest start, and among those the newest row. The newest row comes
first. -/
def lastRun (rows : List RunRow) : Option RunRow :=
  rows.find? fun row => rows.all fun other => other.started ≤ row.started

/-- `Store.sweep` -/
def sweep (now : ℚ) (rows : List RunRow) : List RunRow :=
  rows.filter fun row => !(row.started < now - SWEEP_DAYS * DAY)

/-- The digest's slot of a run: `slot`. -/
def Pass.slot (p : Pass) : ℚ := digestSlot p.started p.digestDay p.digestAt p.tz

/-- A completed `run_once`, for what it does with the runs table and the digest: the rows that it
leaves, and the slot once for every time that the digest's check ran. What the same function does
with findings and alerts is `Code.runOnce` of `Forecast/Run.lean`. -/
def runOnce (checks : Checks) (rows : List RunRow) (p : Pass) : List RunRow × List ℚ :=
  let was := (lastRun rows).bind RunRow.digestAt
  let due := was.any fun was => was < p.slot
  let states := visit p due checks.ids
  let ran := states.filter fun entry => entry.1 == DIGEST_ID && entry.2.ran
  let row : RunRow := ⟨p.started, if !ran.isEmpty || was.isNone then some p.slot else was⟩
  (sweep p.finished (row :: rows), ran.map fun _ => p.slot)

/-- The slots for which the digest's check ran, over completed runs one after the other. -/
def digestRuns (checks : Checks) : List RunRow → List Pass → List ℚ
  | _, [] => []
  | rows, p :: rest => (runOnce checks rows p).2 ++ digestRuns checks (runOnce checks rows p).1 rest

/-- The runs come one after the other, from this time on. -/
def InTurn : ℚ → List Pass → Prop
  | _, [] => True
  | t, p :: rest => t ≤ p.started ∧ p.started ≤ p.finished ∧ InTurn p.finished rest

end Digest

/-! ### Weekly slots as grid points -/

theorem digit_value_lt {c : Char} {n : ℕ} (h : digitValue c = some n) : n < 10 := by
  unfold digitValue at h
  obtain ⟨start, hfind, rfl⟩ := Option.map_eq_some_iff.mp h
  have hrange := List.find?_some hfind
  simp only [Bool.and_eq_true, decide_eq_true_eq] at hrange
  omega

theorem hour_lt {cs : List Char} {h : ℕ} (hread : hour? cs = some h) : h < 24 := by
  unfold hour? at hread
  split at hread
  next d =>
      have := digit_value_lt hread
      omega
  next c d =>
      split_ifs at hread with h₁ h₂
      · obtain ⟨digit, hdigit, rfl⟩ := Option.map_eq_some_iff.mp hread
        have hlt := digit_value_lt hdigit
        rcases h₁ with rfl | rfl
        · show ('0'.toNat - '0'.toNat) * 10 + digit < 24
          rw [Nat.sub_self]
          omega
        · show 1 * 10 + digit < 24
          omega
      · obtain ⟨-, hd⟩ := h₂
        cases hread
        simp only [List.mem_cons, List.not_mem_nil, or_false] at hd
        rcases hd with rfl | rfl | rfl | rfl <;> decide
  next => cases hread

theorem minute_lt {c d : Char} {m : ℕ} (hread : minute? c d = some m) : m < 60 := by
  unfold minute? at hread
  split_ifs at hread with hc
  obtain ⟨digit, hdigit, rfl⟩ := Option.map_eq_some_iff.mp hread
  have hlt := digit_value_lt hdigit
  have htens : c.toNat - '0'.toNat ≤ 5 := by
    simp only [List.mem_cons, List.not_mem_nil, or_false] at hc
    rcases hc with rfl | rfl | rfl | rfl | rfl | rfl <;> decide
  omega

theorem hm_within (text : String) {default : ℕ × ℕ} (hdefault : default.1 < 24 ∧ default.2 < 60) :
    (hm text default).1 < 24 ∧ (hm text default).2 < 60 := by
  have hpair : ∀ cs c d, (hourMinute (hour? cs) (minute? c d) default).1 < 24 ∧
      (hourMinute (hour? cs) (minute? c d) default).2 < 60 := by
    intro cs c d
    unfold hourMinute
    split
    next h m hh hmin => exact ⟨hour_lt hh, minute_lt hmin⟩
    next => exact hdefault
  unfold hm
  split
  · exact hpair _ _ _
  · exact hpair _ _ _
  · exact hdefault

theorem clock_seconds_lt {h m : ℕ} (hh : h < 24) (hmin : m < 60) :
    0 ≤ clockSeconds h m ∧ clockSeconds h m < DAY := by
  have hhours : (h : ℚ) ≤ 23 := by exact_mod_cast Nat.lt_succ_iff.mp hh
  have hminutes : (m : ℚ) ≤ 59 := by exact_mod_cast Nat.lt_succ_iff.mp hmin
  have hh0 : (0 : ℚ) ≤ h := Nat.cast_nonneg h
  have hm0 : (0 : ℚ) ≤ m := Nat.cast_nonneg m
  unfold clockSeconds DAY
  constructor
  · linarith
  · linarith

theorem local_day_spec (here : ℚ) :
    (localDay here : ℚ) * DAY ≤ here ∧
      here < (localDay here : ℚ) * DAY + DAY := by
  have hday : (0 : ℚ) < DAY := by norm_num [DAY]
  have hle := (le_div_iff₀ hday).mp (Int.floor_le (here / DAY))
  have hlt := (div_lt_iff₀ hday).mp (Int.lt_floor_add_one (here / DAY))
  unfold localDay
  constructor
  · exact hle
  · linarith

/-- The start of the weekly grid: the time of day on the day with this weekday in the first week. -/
def weekAnchor (index : ℕ) (seconds : ℚ) : ℚ := ((index : ℤ) - 3 : ℤ) * DAY + seconds

theorem on_week_grid {index : ℕ} (day : ℤ) (seconds : ℚ) (hday : (day + 3 - index) % 7 = 0) :
    OnGrid (weekAnchor index seconds) 604800 (day * DAY + seconds) := by
  obtain ⟨k, hk⟩ := Int.dvd_of_emod_eq_zero hday
  refine ⟨k, ?_⟩
  have hcast : (day : ℚ) = index - 3 + 7 * k := by
    have : day = (index : ℤ) - 3 + 7 * k := by omega
    rw [this]
    push_cast
    ring
  unfold weekAnchor DAY
  push_cast
  rw [hcast]
  ring

theorem weekly_next (sched : Schedule) (here : ℚ) (seconds : ℚ)
    (hseconds : 0 ≤ seconds ∧ seconds < DAY) (slot : ℚ)
    (hslot : slot = ((localDay here +
      ((sched.day : ℤ) - weekday (localDay here)) % 7 : ℤ) : ℚ) * DAY + seconds) :
    Next (weekAnchor sched.day seconds) 604800 here
      (if slot ≤ here then slot + 7 * DAY else slot) := by
  obtain ⟨hstart, hend⟩ := local_day_spec here
  set ahead : ℤ := ((sched.day : ℤ) - weekday (localDay here)) % 7 with hahead
  have hahead0 : 0 ≤ ahead := Int.emod_nonneg _ (by norm_num)
  have hahead6 : ahead ≤ 6 := by
    have := Int.emod_lt_of_pos ((sched.day : ℤ) - weekday (localDay here))
      (by norm_num : (0 : ℤ) < 7)
    omega
  have hweekday : (localDay here + ahead + 3 - (sched.day : ℕ)) % 7 = 0 := by
    unfold weekday at hahead
    omega
  have hgrid : OnGrid (weekAnchor sched.day seconds) 604800 slot := by
    rw [hslot]
    exact on_week_grid _ _ hweekday
  have hahead0' : (0 : ℚ) ≤ ahead := by exact_mod_cast hahead0
  have hahead6' : (ahead : ℚ) ≤ 6 := by exact_mod_cast hahead6
  push_cast at hslot
  unfold DAY at *
  split
  next hle =>
      -- the slot of this week is over: it was today's
      refine ⟨?_, by linarith, by linarith⟩
      have := hgrid.add_period
      rwa [show (7 : ℚ) * 86400 = 604800 by norm_num]
  next hlt =>
      exact ⟨hgrid, by linarith, by linarith⟩

theorem digest_last (want : ℕ) (here : ℚ) (seconds : ℚ)
    (hseconds : 0 ≤ seconds ∧ seconds < DAY) (slot : ℚ)
    (hslot : slot = ((localDay here - (weekday (localDay here) - want) % 7 : ℤ) : ℚ) * DAY +
      seconds) :
    Last (weekAnchor want seconds) 604800 here
      (if here < slot then slot - 7 * DAY else slot) := by
  obtain ⟨hstart, hend⟩ := local_day_spec here
  set behind : ℤ := (weekday (localDay here) - want) % 7 with hbehind
  have hbehind0 : 0 ≤ behind := Int.emod_nonneg _ (by norm_num)
  have hbehind6 : behind ≤ 6 := by
    have := Int.emod_lt_of_pos (weekday (localDay here) - want) (by norm_num : (0 : ℤ) < 7)
    omega
  have hweekday : (localDay here - behind + 3 - want) % 7 = 0 := by
    unfold weekday at hbehind
    omega
  have hgrid : OnGrid (weekAnchor want seconds) 604800 slot := by
    rw [hslot]
    exact on_week_grid _ _ hweekday
  have hbehind0' : (0 : ℚ) ≤ behind := by exact_mod_cast hbehind0
  have hbehind6' : (behind : ℚ) ≤ 6 := by exact_mod_cast hbehind6
  push_cast at hslot
  unfold DAY at *
  split
  next hlt =>
      -- today is the day, and the time of day is still to come
      obtain ⟨k, hk⟩ := hgrid
      refine ⟨⟨k - 1, ?_⟩, by linarith, by linarith⟩
      rw [hk]
      push_cast
      ring
  next hle =>
      exact ⟨hgrid, by linarith, by linarith⟩

/-- The anchor of a schedule's grid, in local time. -/
def Schedule.anchor (sched : Schedule) : ℚ :=
  let seconds := clockSeconds (hm sched.atTime (3, 0)).1 (hm sched.atTime (3, 0)).2
  if sched.every = .weekly then weekAnchor sched.day seconds else seconds

/-- A period has a length. -/
theorem Schedule.period_pos (sched : Schedule) : 0 < sched.periodS := by
  unfold Schedule.periodS
  split
  case h_6 =>
      have : (0 : ℚ) < sched.hours := Nat.cast_pos.mpr sched.hours_pos
      linarith
  all_goals norm_num

theorem next_slot_next (now : ℚ) (sched : Schedule) (off : ℚ) :
    Next sched.anchor sched.periodS (now + off) (nextSlot now sched off + off) := by
  have hclock := clock_seconds_lt (hm_within sched.atTime (show (3, 0).1 < 24 ∧ _ by decide)).1
    (hm_within sched.atTime (show (3, 0).1 < 24 ∧ (3, 0).2 < 60 by decide)).2
  by_cases hweekly : sched.every = .weekly
  · have hnext := weekly_next sched (now + off) _ hclock _ rfl
    have hperiod : sched.periodS = 604800 := by
      unfold Schedule.periodS
      rw [hweekly]
    have hanchor : sched.anchor = weekAnchor sched.day
        (clockSeconds (hm sched.atTime (3, 0)).1 (hm sched.atTime (3, 0)).2) := by
      unfold Schedule.anchor
      rw [if_pos hweekly]
    rw [hperiod, hanchor]
    convert hnext using 1
    unfold nextSlot
    rw [hweekly]
    dsimp only
    split
    · ring
    · ring
  · have hnext := @next_aligned ℚ _ _ _ _ sched.anchor sched.periodS (now + off) sched.period_pos
    convert hnext using 1
    have hanchor : sched.anchor =
        clockSeconds (hm sched.atTime (3, 0)).1 (hm sched.atTime (3, 0)).2 := by
      unfold Schedule.anchor
      rw [if_neg hweekly]
    rw [hanchor]
    unfold nextSlot nextAligned
    split
    next h => exact absurd h hweekly
    next => ring

theorem digest_slot_last (now : ℚ) (day atTime : String) (off : ℚ) :
    ∃ anchor, Last anchor 604800 (now + off) (digestSlot now day atTime off + off) := by
  have hclock := clock_seconds_lt (hm_within atTime (show (8, 0).1 < 24 ∧ _ by decide)).1
    (hm_within atTime (show (8, 0).1 < 24 ∧ (8, 0).2 < 60 by decide)).2
  obtain ⟨want, hwant⟩ : ∃ want, (weekdayIndex? (if day = "" then "mon" else day)).getD 0 = want :=
    ⟨_, rfl⟩
  refine ⟨weekAnchor want (clockSeconds (hm atTime (8, 0)).1 (hm atTime (8, 0)).2), ?_⟩
  convert digest_last want (now + off) _ hclock _ rfl using 1
  unfold digestSlot
  rw [hwant]
  dsimp only
  split
  · ring
  · ring

theorem digest_slot_bounds (now : ℚ) (day atTime : String) (off : ℚ) :
    digestSlot now day atTime off ≤ now ∧
      now < digestSlot now day atTime off + 7 * DAY := by
  obtain ⟨anchor, -, hle, hlt⟩ := digest_slot_last now day atTime off
  unfold DAY
  constructor
  · linarith
  · linarith

theorem next_slot_bounds (now : ℚ) (sched : Schedule) (off : ℚ) :
    now < nextSlot now sched off ∧ nextSlot now sched off ≤ now + sched.periodS ∧
      nextSlot (nextSlot now sched off) sched off = nextSlot now sched off + sched.periodS := by
  obtain ⟨hgrid, hlt, hle⟩ := next_slot_next now sched off
  have hnext := next_next sched.period_pos hgrid (next_slot_next (nextSlot now sched off) sched off)
  exact ⟨by linarith, by linarith, by linarith⟩

/-! ### The digest's slots over the runs -/

namespace Digest

/-- The two views of a run agree: the checks that it comes to are left in the states of their
outcomes. -/
theorem check_runs_states {p : Pass} {outcome : String → Outcome}
    (houtcome : ∀ c, outcomeState (outcome c) = (p.detected c).state) (due : Bool)
    (ids : List String) :
    (checkRuns p due outcome ids).map (fun check => (check.id, outcomeState check.outcome)) =
      (visit p due ids).filter fun entry => entry.2 != .pending := by
  induction ids with
  | nil => rfl
  | cons c rest ih =>
      unfold checkRuns visit
      split_ifs
      · exact (List.filter_eq_nil_iff.mpr (by simp)).symm
      · rw [List.map_cons, ih]
        rfl
      · have hrun : ((p.detected c).state != .pending) = true := by
          cases p.detected c <;> rfl
        rw [List.map_cons, ih, List.filter_cons, if_pos hrun, houtcome]

theorem visit_ran (p : Pass) (due : Bool) (ids : List String) (hnodup : ids.Nodup) :
    ((visit p due ids).filter fun entry => entry.1 == DIGEST_ID && entry.2.ran).length ≤ 1 := by
  have hfst : (visit p due ids).map Prod.fst = ids := by
    clear hnodup
    induction ids with
    | nil => rfl
    | cons c rest ih =>
        unfold visit
        split_ifs
        · rw [List.map_map]
          exact List.map_id _
        · rw [List.map_cons, ih]
        · rw [List.map_cons, ih]
  have hsub : (((visit p due ids).filter fun entry => entry.1 == DIGEST_ID && entry.2.ran).map
      Prod.fst).Nodup := by
    refine List.Nodup.sublist (List.Sublist.map _ List.filter_sublist) ?_
    rw [hfst]
    exact hnodup
  have hall : ∀ c ∈ ((visit p due ids).filter fun entry => entry.1 == DIGEST_ID && entry.2.ran).map
      Prod.fst, c = DIGEST_ID := by
    intro c hc
    obtain ⟨entry, hentry, rfl⟩ := List.mem_map.mp hc
    have := (List.mem_filter.mp hentry).2
    simp only [Bool.and_eq_true, beq_iff_eq] at this
    exact this.1
  rw [← List.length_map Prod.fst]
  exact (List.nodup_iff_count_le_one.mp hsub DIGEST_ID).trans' <| by
    rw [List.eq_replicate_iff.mpr ⟨rfl, hall⟩, List.count_replicate_self]
    simp

theorem visit_not_due (p : Pass) (ids : List String) :
    ((visit p false ids).filter fun entry => entry.1 == DIGEST_ID && entry.2.ran) = [] := by
  refine List.filter_eq_nil_iff.mpr fun entry hentry => ?_
  induction ids with
  | nil => cases hentry
  | cons c rest ih =>
      unfold visit at hentry
      split_ifs at hentry with hstop hoff
      · obtain ⟨c', -, rfl⟩ := List.mem_map.mp hentry
        simp [VisitState.ran]
      · rcases List.mem_cons.mp hentry with rfl | hrest
        · simp [VisitState.ran]
        · exact ih hrest
      · rcases List.mem_cons.mp hentry with rfl | hrest
        · have hid : ¬(c == DIGEST_ID) = true := by
            intro hid
            exact hoff (by simp [hid])
          simp [hid]
        · exact ih hrest

/-- A week is over long before a row is swept. -/
theorem week_le_sweep : 7 * DAY ≤ SWEEP_DAYS * DAY := by
  norm_num [SWEEP_DAYS, DAY]

theorem last_run_cons {rows : List RunRow} {row : RunRow}
    (h : ∀ other ∈ rows, other.started ≤ row.started) : lastRun (row :: rows) = some row := by
  unfold lastRun
  rw [List.find?_cons_of_pos]
  simpa using h

/-- Of a row that is the newest, and of the older ones, the sweep leaves it or none. -/
theorem last_run_sweep {rows : List RunRow} {row : RunRow} (finished : ℚ)
    (h : ∀ other ∈ rows, other.started ≤ row.started) :
    lastRun (sweep finished (row :: rows)) =
      if row.started < finished - SWEEP_DAYS * DAY then none else some row := by
  by_cases hold : row.started < finished - SWEEP_DAYS * DAY
  · have hall : sweep finished (row :: rows) = [] := by
      refine List.filter_eq_nil_iff.mpr fun other hother => ?_
      have hle : other.started ≤ row.started := by
        rcases List.mem_cons.mp hother with rfl | hother
        · exact le_refl _
        · exact h other hother
      rw [decide_eq_true (hle.trans_lt hold)]
      exact Bool.false_ne_true
    rw [if_pos hold, hall]
    rfl
  · rw [if_neg hold]
    unfold sweep
    rw [List.filter_cons_of_pos (by simpa using hold)]
    exact last_run_cons fun other hother => h other (List.mem_filter.mp hother).1

/-- What holds between two runs: `past` are the slots for which the digest's check ran, and no run
is after `t`. A last run without a slot means that the check has not run; without any rows it has
not run for more than a week. -/
structure Kept (rows : List RunRow) (past : List ℚ) (t : ℚ) : Prop where
  nodup : past.Nodup
  rows_le : ∀ row ∈ rows, row.started ≤ t
  past_le : ∀ slot ∈ past, slot ≤ t
  none_past : lastRun rows = none → ∀ slot ∈ past, slot + 7 * DAY ≤ t
  last_past : ∀ row, lastRun rows = some row → ∀ slot ∈ past, ∃ d, row.digestAt = some d ∧ slot ≤ d

theorem Kept.before_slot {rows : List RunRow} {past : List ℚ} {t : ℚ} (h : Kept rows past t)
    (p : Pass) (ht : t ≤ p.started) (hwas : (lastRun rows).bind RunRow.digestAt = none) :
    ∀ slot ∈ past, slot ≤ p.slot := by
  intro slot hslot
  have hbounds := digest_slot_bounds p.started p.digestDay p.digestAt p.tz
  cases hlast : lastRun rows with
  | none =>
      have hold := h.none_past hlast slot hslot
      unfold Pass.slot
      linarith
  | some row =>
      obtain ⟨d, hd, -⟩ := h.last_past row hlast slot hslot
      rw [hlast] at hwas
      rw [Option.bind_some, hd] at hwas
      cases hwas

theorem Kept.le_stored {rows : List RunRow} {past : List ℚ} {t was : ℚ} (h : Kept rows past t)
    (hwas : (lastRun rows).bind RunRow.digestAt = some was) : ∀ slot ∈ past, slot ≤ was := by
  obtain ⟨last, hlast, hdigest⟩ := Option.bind_eq_some_iff.mp hwas
  intro slot hslot
  obtain ⟨d, hd, hle⟩ := h.last_past last hlast slot hslot
  rw [hdigest] at hd
  cases hd
  exact hle

/-- What a run adds to the past: nothing, or its slot, which is after every slot of the past and
after the stored one. -/
theorem run_once_ran (checks : Checks) (rows : List RunRow) (p : Pass) :
    (runOnce checks rows p).2 = [] ∨
      ((runOnce checks rows p).2 = [p.slot] ∧
        ∃ was, (lastRun rows).bind RunRow.digestAt = some was ∧ was < p.slot) := by
  cases hdue : ((lastRun rows).bind RunRow.digestAt).any fun was => was < p.slot with
  | false =>
      left
      show List.map _ (List.filter _ (visit p _ _)) = []
      rw [hdue, visit_not_due]
      rfl
  | true =>
      obtain ⟨was, hwas, hlt⟩ := (Option.any_eq_true (fun was => decide (was < p.slot)) _).mp hdue
      have hle := visit_ran p true checks.ids checks.nodup
      have hran : (runOnce checks rows p).2 =
          ((visit p true checks.ids).filter fun entry => entry.1 == DIGEST_ID && entry.2.ran).map
            fun _ => p.slot := by
        show List.map _ (List.filter _ (visit p _ _)) = _
        rw [hdue]
      rw [hran]
      generalize (visit p true checks.ids).filter _ = ran at hle
      match ran, hle with
      | [], _ => exact Or.inl rfl
      | [entry], _ => exact Or.inr ⟨rfl, was, hwas, of_decide_eq_true hlt⟩

theorem run_once_row (checks : Checks) (rows : List RunRow) (p : Pass) :
    ∃ row : RunRow, row.started = p.started ∧
      (runOnce checks rows p).1 = sweep p.finished (row :: rows) ∧
      ((runOnce checks rows p).2 ≠ [] → row.digestAt = some p.slot) ∧
      ((lastRun rows).bind RunRow.digestAt = none → row.digestAt = some p.slot) ∧
      ((runOnce checks rows p).2 = [] → ∀ was, (lastRun rows).bind RunRow.digestAt = some was →
        row.digestAt = some was) := by
  refine ⟨_, rfl, rfl, ?_, ?_, ?_⟩
  · intro hran
    have hne : ((visit p (((lastRun rows).bind RunRow.digestAt).any fun was => was < p.slot)
        checks.ids).filter fun entry => entry.1 == DIGEST_ID && entry.2.ran).isEmpty = false := by
      rw [List.isEmpty_eq_false_iff]
      intro hempty
      apply hran
      show List.map _ (List.filter _ _) = []
      rw [hempty]
      rfl
    dsimp only
    rw [hne]
    rfl
  · intro hwas
    dsimp only
    rw [hwas]
    simp
  · intro hran was hwas
    have hempty := List.map_eq_nil_iff.mp (show List.map _ (List.filter _ _) = [] from hran)
    dsimp only
    rw [hempty, hwas]
    rfl

/-- Everything that the check ran for is stored with the row of the run. -/
theorem Kept.run_row (checks : Checks) {rows : List RunRow} {past : List ℚ} {t : ℚ} {p : Pass}
    (h : Kept rows past t) (ht : t ≤ p.started) :
    ∃ row : RunRow, row.started = p.started ∧
      (runOnce checks rows p).1 = sweep p.finished (row :: rows) ∧
      ∀ slot ∈ past ++ (runOnce checks rows p).2, ∃ d, row.digestAt = some d ∧ slot ≤ d := by
  obtain ⟨row, hstarted, hrows, hstored, hfirst, hcarried⟩ := run_once_row checks rows p
  refine ⟨row, hstarted, hrows, ?_⟩
  intro slot hmem
  rcases run_once_ran checks rows p with hran | ⟨hran, was, hwas, hlt⟩
  · rw [hran, List.append_nil] at hmem
    cases hwas : (lastRun rows).bind RunRow.digestAt with
    | none => exact ⟨p.slot, hfirst hwas, h.before_slot p ht hwas slot hmem⟩
    | some was => exact ⟨was, hcarried hran was hwas, h.le_stored hwas slot hmem⟩
  · refine ⟨p.slot, hstored (by rw [hran]; simp), ?_⟩
    rw [hran] at hmem
    rcases List.mem_append.mp hmem with hmem | hmem
    · have := h.le_stored hwas slot hmem
      linarith
    · rw [List.mem_singleton.mp hmem]

theorem Kept.run {checks : Checks} {rows : List RunRow} {past : List ℚ} {t : ℚ} {p : Pass}
    (h : Kept rows past t) (ht : t ≤ p.started) (hp : p.started ≤ p.finished) :
    Kept (runOnce checks rows p).1 (past ++ (runOnce checks rows p).2) p.finished := by
  obtain ⟨row, hstarted, hrows, hpast⟩ := h.run_row checks ht
  have hbounds := digest_slot_bounds p.started p.digestDay p.digestAt p.tz
  have hran := run_once_ran checks rows p
  have hslot : p.slot ≤ p.started := hbounds.1
  have hlater : ∀ other ∈ rows, other.started ≤ row.started := by
    intro other hother
    have := h.rows_le other hother
    linarith
  have hlast := last_run_sweep p.finished hlater
  have hpast_le : ∀ slot ∈ past ++ (runOnce checks rows p).2, slot ≤ p.started := by
    intro slot hmem
    rcases List.mem_append.mp hmem with hmem | hmem
    · have := h.past_le slot hmem
      linarith
    · rcases hran with hran | ⟨hran, -⟩
      · rw [hran] at hmem
        cases hmem
      · rw [hran] at hmem
        rw [List.mem_singleton.mp hmem]
        exact hslot
  rw [hrows]
  refine ⟨?_, ?_, fun slot hmem => (hpast_le slot hmem).trans hp, ?_, ?_⟩
  · rcases hran with hran | ⟨hran, was, hwas, hlt⟩
    · rw [hran, List.append_nil]
      exact h.nodup
    · rw [hran]
      refine List.nodup_append.mpr ⟨h.nodup, List.nodup_singleton _, ?_⟩
      -- a slot of the past is stored, and the stored slot is before this one
      intro slot hslot other hother heq
      rw [List.mem_singleton.mp hother] at heq
      have := h.le_stored hwas slot hslot
      linarith
  · intro other hother
    rcases List.mem_cons.mp (List.mem_filter.mp hother).1 with rfl | hother
    · linarith
    · have := hlater other hother
      linarith
  · -- only a run that takes longer than the sweep leaves no row, not even its own
    intro hnone slot hmem
    rw [hlast] at hnone
    split at hnone
    · have := hpast_le slot hmem
      have := week_le_sweep
      linarith
    · cases hnone
  · intro last hsome slot hmem
    rw [hlast] at hsome
    split at hsome
    · cases hsome
    · cases hsome
      exact hpast slot hmem

theorem Kept.runs {checks : Checks} (passes : List Pass) :
    ∀ {rows : List RunRow} {past : List ℚ} {t : ℚ}, Kept rows past t → InTurn t passes →
      (past ++ digestRuns checks rows passes).Nodup := by
  induction passes with
  | nil =>
      intro rows past t h _
      rw [digestRuns, List.append_nil]
      exact h.nodup
  | cons p rest ih =>
      rintro rows past t h ⟨ht, hp, hrest⟩
      rw [digestRuns, ← List.append_assoc]
      exact ih (h.run ht hp) hrest

end Digest

/-- For every schedule, time zone and time, the next slot is after now and at most a period later,
and the slot after it follows a period later. The slot of the weekly digest is not after now, and
less than a week before it. Over completed runs one after the other, with rows of earlier runs in
the table, the check of the digest runs once at most for each slot, whatever the settings, the
switched off checks and the cancelled runs. -/
theorem slots_and_digests :
    (∀ (sched : Schedule) (off now : ℚ),
      now < nextSlot now sched off ∧ nextSlot now sched off ≤ now + sched.periodS ∧
        nextSlot (nextSlot now sched off) sched off = nextSlot now sched off + sched.periodS) ∧
    (∀ (day atTime : String) (off now : ℚ),
      digestSlot now day atTime off ≤ now ∧
        now < digestSlot now day atTime off + 7 * DAY) ∧
    ∀ (checks : Digest.Checks) (t : ℚ) (rows : List Digest.RunRow) (passes : List Digest.Pass),
      (∀ row ∈ rows, row.started ≤ t) → Digest.InTurn t passes →
        (Digest.digestRuns checks rows passes).Nodup := by
  refine ⟨fun sched off now => next_slot_bounds now sched off,
    fun day atTime off now => digest_slot_bounds now day atTime off, ?_⟩
  intro checks t rows passes hrows hturn
  have hkept : Digest.Kept rows [] t :=
    ⟨List.nodup_nil, hrows, by simp, by simp, by simp⟩
  exact hkept.runs passes hturn

/-- A run at this time that nothing stops, and whose checks find nothing. -/
def quietPass (started : ℚ) : Digest.Pass where
  started := started
  finished := started + 60
  digestDay := "mon"
  digestAt := "08:00"
  tz := 0
  disabled := []
  stops := fun _ => false
  detected := fun _ => .found

/-- A Saturday, the Monday after it at eight o'clock, and an hour later: the digest's check runs
once, for that Monday. -/
theorem monday_digest_once :
    (Digest.digestRuns ⟨[DIGEST_ID], by decide⟩ [] [quietPass 172800, quietPass 374400,
        quietPass 378000]).Nodup ∧
      Digest.digestRuns ⟨[DIGEST_ID], by decide⟩ [] [quietPass 172800, quietPass 374400,
        quietPass 378000] = [374400] := by
  refine ⟨slots_and_digests.2.2 _ 0 _ _ (by simp) ?_, by decide +kernel⟩
  refine ⟨?_, ?_, ?_, ?_, ?_, ?_, trivial⟩ <;> norm_num [quietPass]

end SystemsManager.Forecast
