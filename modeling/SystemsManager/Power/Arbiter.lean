import Mathlib.Data.Rat.Defs
import Mathlib.Algebra.Order.Ring.Rat
import Mathlib.Data.List.Induction
import SystemsManager.Python.Dict

/-!
# The host power arbiter

The agent's `PowerArbiter`: holds that owners place on a power profile, a policy below them, and
one worker thread that switches the host to the profile that wins. `Arbiter` is the state under
the arbiter's lock, `Phase` is where the worker stands between two critical sections, and
`World.step` is one event of a run: a call of some thread, a step of a worker, or the hand-over
of the holds to a successor. The clock is read inside the worker's steps and never goes back.

Outside the model: log lines, the durable record file, and how `systemctl` and the governor
readback come to their answer (`Verdict` is that answer, any value is possible).
-/

namespace SystemsManager.Power

open Python

/-- `PROFILES`. -/
inductive Profile where
  | performance
  | powersave
  deriving DecidableEq, Repr

/-- The owners that may place a hold. -/
inductive Owner where
  | job
  | manual
  deriving DecidableEq, Repr

/-- Who asked for the profile that wins: an owner or the policy. -/
inductive Source where
  | owner (owner : Owner)
  | policy
  deriving DecidableEq, Repr

/-- The outcomes of an attempt. -/
inductive Outcome where
  | verified
  | unverifiable
  | failed
  | skipped
  | deferred
  deriving DecidableEq, Repr

/-- What `select_mode` chose. -/
inductive Mode where
  | full
  | observe
  | disabled
  deriving DecidableEq, Repr

/-- The profile that a string names. -/
def Profile.parse : String → Option Profile
  | "performance" => some .performance
  | "powersave" => some .powersave
  | _ => none

/-- The owner that a string names. -/
def Owner.parse : String → Option Owner
  | "job" => some .job
  | "manual" => some .manual
  | _ => none

/-- The word for a mode in an answer. -/
def Mode.name : Mode → String
  | .full => "full"
  | .observe => "observe"
  | .disabled => "disabled"

/-- The word for an owner in an answer. -/
def Owner.name : Owner → String
  | .job => "job"
  | .manual => "manual"

/-- The word for the side that wins in an answer. -/
def Source.name : Source → String
  | .owner o => o.name
  | .policy => "policy"

/-- One line of a readback. -/
structure Check where
  label : String
  expected : String
  actual : String
  ok : Bool
  deriving DecidableEq

/-- The answer of `_switch`: the outcome with its error and what the readback showed. -/
structure Verdict where
  outcome : Outcome
  error : Option String
  governor : Option String
  checks : List Check
  deriving DecidableEq

/-- `_last_switch` and `_last_defer`: the attempt with this sequence number. -/
structure Settlement where
  profile : Profile
  seq : Nat
  outcome : Outcome
  error : Option String
  deriving DecidableEq

/-- The counters of a snapshot that the worker moves. -/
structure Counters where
  switches : Nat := 0
  failures : Nat := 0
  unverifiable : Nat := 0
  deferred : Nat := 0
  deriving DecidableEq

/-- The state of an arbiter. -/
structure Arbiter where
  mode : Mode
  dwell : Nat
  cap : Nat
  holds : Owner → Option Profile
  holders : Owner → Dict String Profile
  policy : Option Profile
  pending : Option Profile × Nat
  applied : Option Profile
  outcome : Option Outcome
  error : Option String
  governor : Option String
  readbackLast : List Check
  appliedState : Option Outcome × Option String × List Check
  lastSwitch : Option Settlement
  lastDefer : Option Settlement
  lastAggregate : Option String
  counters : Counters
  attempts : Nat
  switchTimes : List ℚ
  failStreak : Nat
  retryAt : Option ℚ
  busy : Bool
  stop : Bool

/-- What an arbiter is built from, and what `recover` found in the durable record: the applied
profile with its readback, when the record and the host agree. -/
structure Settings where
  mode : Mode := .full
  dwellTicks : Int := 2
  maxSwitchesPerMin : Int := 6
  recovered : Option (Profile × Verdict) := none

/-- `__init__` and `recover`: no holds, no attempts. -/
def Arbiter.new (c : Settings) : Arbiter where
  mode := c.mode
  dwell := (max 1 c.dwellTicks).toNat
  cap := (max 1 c.maxSwitchesPerMin).toNat
  holds := fun _ => none
  holders := fun _ => ∅
  policy := none
  pending := (none, 0)
  applied := c.recovered.map Prod.fst
  outcome := c.recovered.map fun r => r.2.outcome
  error := none
  governor := c.recovered.bind fun r => r.2.governor
  readbackLast := (c.recovered.map fun r => r.2.checks).getD []
  appliedState := match c.recovered with
    | none => (none, none, [])
    | some r => (some r.2.outcome, none, r.2.checks)
  lastSwitch := none
  lastDefer := none
  lastAggregate := none
  counters := {}
  attempts := 0
  switchTimes := []
  failStreak := 0
  retryAt := none
  busy := false
  stop := false

/-- `next(reversed(names.values()), None)`: the profile of the holder inserted last. -/
def newest (names : Dict String Profile) : Option Profile :=
  names.items.getLast?.map Prod.snd

namespace Arbiter

/-- `request`, up to the wait for its attempt: the named holder's hold on the owner. -/
def request (a : Arbiter) (profile owner : String) (holder : Option String) :
    Except String Arbiter :=
  match Profile.parse profile, Owner.parse owner with
  | some p, some o =>
      .ok { a with
        holds := Function.update a.holds o (some p)
        holders := Function.update a.holders o ((a.holders o).set (holder.getD "") p) }
  | _, _ => .error ("bad request " ++ owner ++ ":" ++ profile)

/-- The holders that a release leaves: none without a name, else all but the named one. -/
def remaining (names : Dict String Profile) : Option String → Dict String Profile
  | none => ∅
  | some holder => names.erase holder

/-- `release`. -/
def release (a : Arbiter) (owner : String) (holder : Option String) : Except String Arbiter :=
  match Owner.parse owner with
  | some o =>
      .ok { a with
        holds := Function.update a.holds o (newest (remaining (a.holders o) holder))
        holders := Function.update a.holders o (remaining (a.holders o) holder) }
  | none => .error ("bad release " ++ owner)

/-- `set_policy`; `none` is `HOLD`. -/
def setPolicy (a : Arbiter) : Option Profile → Arbiter
  | none => a
  | some profile =>
      let n := if a.pending.1 = some profile then a.pending.2 + 1 else 1
      { a with
        pending := (some profile, n)
        policy := if a.dwell ≤ n then some profile else a.policy }

/-- `on_aggregate`: a change of the aggregate drops the manual hold. -/
def onAggregate (a : Arbiter) (aggregate : String) : Arbiter :=
  if a.lastAggregate ≠ none ∧ some aggregate ≠ a.lastAggregate ∧ a.holds .manual ≠ none then
    { a with
      holds := Function.update a.holds .manual none
      holders := Function.update a.holders .manual ∅
      lastAggregate := some aggregate }
  else { a with lastAggregate := some aggregate }

/-- `adopt_holds`. -/
def adoptHolds (a other : Arbiter) : Arbiter :=
  { a with
    holds := other.holds
    holders := other.holders
    lastAggregate := other.lastAggregate }

/-- `_effective`: the profile that wins and who asked for it. -/
def effective (a : Arbiter) : Option Profile × Option Source :=
  match a.holds .job with
  | some p => (some p, some (.owner .job))
  | none =>
      match a.holds .manual with
      | some p => (some p, some (.owner .manual))
      | none => (a.policy, a.policy.map fun _ => .policy)

/-- `_latest_attempt`: the newest switch or deferral for the profile after `seq0`. -/
def latestAttempt (a : Arbiter) (profile : Profile) (seq0 : Nat) : Option Settlement :=
  let seen := (a.lastSwitch.toList ++ a.lastDefer.toList).filter fun s =>
    s.profile = profile ∧ seq0 < s.seq
  seen.foldl (fun best s =>
    match best with
    | none => some s
    | some b => if b.seq < s.seq then some s else some b) none

/-- One look of `_wait_settled` at the state: the answer of a request that was made when
`_attempts` was `seq0`, or `none` while it has to wait. -/
def waitSettled (a : Arbiter) (profile : Profile) (owner : Owner) (seq0 : Nat) :
    Option (Outcome × Option String) :=
  if a.mode ≠ .full then some (.skipped, some ("arbiter mode is " ++ a.mode.name))
  else if a.busy then none
  else
    match a.latestAttempt profile seq0 with
    | some settled => some (settled.outcome, settled.error)
    | none =>
        if a.holds owner ≠ some profile then
          some (.skipped, some (owner.name ++ " hold released"))
        else if a.effective.2 ≠ some (.owner owner) then
          some (.skipped, some ("outranked by " ++ ((a.effective.2.map Source.name).getD "None")))
        else if a.applied = some profile then
          match a.outcome with
          | some .unverifiable => some (.unverifiable, none)
          | _ => some (.verified, none)
        else none

/-- A worker that finds nothing to do: no retry is due any more, and a failed attempt is
forgotten once the applied profile is wanted again. -/
def converge (a : Arbiter) : Arbiter :=
  if a.outcome = some .failed ∧ a.applied ≠ none then
    { a with
      retryAt := none
      outcome := a.appliedState.1
      error := a.appliedState.2.1
      readbackLast := a.appliedState.2.2 }
  else { a with retryAt := none }

/-- `_switch_times` without the entries more than a minute old. -/
def prune (now : ℚ) (times : List ℚ) : List ℚ := times.dropWhile fun t => 60 < now - t

/-- The rate cap is reached: the attempt is put off until the oldest entry expires. -/
def defer (a : Arbiter) (profile : Profile) (oldest : ℚ) : Arbiter :=
  { a with
    attempts := a.attempts + 1
    counters := { a.counters with deferred := a.counters.deferred + 1 }
    retryAt := some (oldest + 60)
    lastDefer := some ⟨profile, a.attempts + 1, .deferred,
      some ("switch rate cap reached (" ++ toString a.cap ++ "/min)")⟩ }

/-- `_RETRY_S`, by the length of the streak of failures. -/
def retryDelay : Nat → ℚ
  | 0 | 1 => 5
  | 2 => 15
  | _ => 60

/-- The critical section after `_switch`: `recorded` and `later` are its two readings of the
clock. -/
def settle (a : Arbiter) (profile : Profile) (v : Verdict) (recorded later : ℚ) : Arbiter :=
  let a := { a with
    switchTimes := a.switchTimes ++ [recorded]
    governor := v.governor
    readbackLast := v.checks
    attempts := a.attempts + 1
    outcome := some v.outcome
    error := v.error
    lastSwitch := some ⟨profile, a.attempts + 1, v.outcome, v.error⟩ }
  if v.outcome = .failed then
    { a with
      counters := { a.counters with failures := a.counters.failures + 1 }
      failStreak := a.failStreak + 1
      retryAt := some (later + retryDelay (a.failStreak + 1)) }
  else
    { a with
      counters := { a.counters with
        switches := a.counters.switches + 1
        unverifiable := if v.outcome = Outcome.unverifiable then a.counters.unverifiable + 1
          else a.counters.unverifiable }
      applied := some profile
      appliedState := (some v.outcome, v.error, v.checks)
      failStreak := 0
      retryAt := none }

end Arbiter

/-- Where the worker of an arbiter stands: not running, at the top of `_loop`, with a profile to
apply, waiting for `_switch`, or back from `_apply`. -/
inductive Phase where
  | ended
  | idle
  | picked (profile : Profile) (source : Option Source)
  | switching (profile : Profile) (source : Option Source)
  | applied
  deriving DecidableEq

/-- A call of `_switch`: the reading of the clock before it and, once it is over, the reading
that `_switch_times` gets. -/
structure Attempt where
  started : ℚ
  recorded : Option ℚ
  deriving DecidableEq

/-- Arbiters with their workers, the last reading of the clock, and the history of attempts. -/
structure World where
  arbiter : ℕ → Arbiter
  phase : ℕ → Phase
  clock : ℚ
  attempts : ℕ → List Attempt

/-- Before the first event. -/
def World.boot (settings : ℕ → Settings) (clock : ℚ) : World where
  arbiter n := .new (settings n)
  phase _ := .ended
  clock := clock
  attempts _ := []

/-- One event of a run, at arbiter `n`. -/
inductive Event where
  | request (n : ℕ) (profile owner : String) (holder : Option String)
  | release (n : ℕ) (owner : String) (holder : Option String)
  | setPolicy (n : ℕ) (profile : Option Profile)
  | onAggregate (n : ℕ) (aggregate : String)
  | adoptHolds (n other : ℕ)
  | start (n : ℕ)
  | stop (n : ℕ)
  | look (n : ℕ) (now : ℚ)
  | apply (n : ℕ) (now : ℚ)
  | settle (n : ℕ) (verdict : Verdict) (recorded later : ℚ)
  | finish (n : ℕ)
  deriving DecidableEq

namespace World

variable (w : World)

/-- The arbiter `n` changes. -/
@[simp] def put (n : ℕ) (a : Arbiter) : World := { w with arbiter := Function.update w.arbiter n a }

/-- The worker of `n` goes on from another point. -/
@[simp] def goto (n : ℕ) (p : Phase) : World := { w with phase := Function.update w.phase n p }

/-- A later reading of the clock. -/
@[simp] def clocked (now : ℚ) : World := { w with clock := now }

/-- The attempts of `n` become these. -/
@[simp] def note (n : ℕ) (l : List Attempt) : World :=
  { w with attempts := Function.update w.attempts n l }

/-- The critical section of `_loop`: end, wait (for a change or for the end of a backoff), or
take the profile that wins. -/
def look (n : ℕ) (now : ℚ) : World :=
  let a := w.arbiter n
  if a.stop then w.goto n .ended
  else
    match a.effective with
    | (none, _) => w.put n a.converge
    | (some desired, source) =>
        if a.applied = some desired then w.put n a.converge
        else if a.mode ≠ .full then w
        else
          match a.retryAt with
          | some t => if now < t then w
              else (w.put n { a with busy := true }).goto n (.picked desired source)
          | none => (w.put n { a with busy := true }).goto n (.picked desired source)

/-- `_apply` up to its call of `_switch`. -/
def apply (n : ℕ) (profile : Profile) (source : Option Source) (now : ℚ) : World :=
  let a := { w.arbiter n with switchTimes := Arbiter.prune now (w.arbiter n).switchTimes }
  match a.switchTimes with
  | oldest :: _ =>
      if a.cap ≤ a.switchTimes.length then (w.put n (a.defer profile oldest)).goto n .applied
      else ((w.put n a).goto n (.switching profile source)).note n
        (w.attempts n ++ [⟨now, none⟩])
  | [] =>
      ((w.put n a).goto n (.switching profile source)).note n (w.attempts n ++ [⟨now, none⟩])

/-- The history once the attempt that is under way has been recorded. -/
def recordLast (recorded : ℚ) (l : List Attempt) : List Attempt :=
  match l.getLast? with
  | some attempt => l.dropLast ++ [{ attempt with recorded := some recorded }]
  | none => l

/-- What an event does; `none` when it is not possible in this state. -/
def step : Event → Option World
  | .request n profile owner holder =>
      match (w.arbiter n).request profile owner holder with
      | .ok a => some (w.put n a)
      | .error _ => some w
  | .release n owner holder =>
      match (w.arbiter n).release owner holder with
      | .ok a => some (w.put n a)
      | .error _ => some w
  | .setPolicy n profile => some (w.put n ((w.arbiter n).setPolicy profile))
  | .onAggregate n aggregate => some (w.put n ((w.arbiter n).onAggregate aggregate))
  | .adoptHolds n other => some (w.put n ((w.arbiter n).adoptHolds (w.arbiter other)))
  | .start n =>
      if w.phase n = .ended then
        some ((w.put n { w.arbiter n with stop := false }).goto n .idle)
      else some w
  | .stop n => some (w.put n { w.arbiter n with stop := true })
  | .look n now =>
      if w.phase n = .idle ∧ w.clock ≤ now then some ((w.look n now).clocked now) else none
  | .apply n now =>
      match w.phase n with
      | .picked profile source =>
          if w.clock ≤ now then some ((w.apply n profile source now).clocked now) else none
      | _ => none
  | .settle n verdict recorded later =>
      match w.phase n with
      | .switching profile _ =>
          if w.clock ≤ recorded ∧ recorded ≤ later then
            some ((((w.put n ((w.arbiter n).settle profile verdict recorded later)).goto n
              .applied).note n (recordLast recorded (w.attempts n))).clocked later)
          else none
      | _ => none
  | .finish n =>
      if w.phase n = .applied then
        some ((w.put n { w.arbiter n with busy := false }).goto n .idle)
      else none

/-- One sequence of events, if it is possible. -/
def plays (events : List Event) : Option World := events.foldlM step w

end World

/-- The runs from a state all of whose events meet a condition on the event and the state before
it, with the events in order. -/
inductive Runs (allow : World → Event → Prop) (start : World) : List Event → World → Prop where
  | nil : Runs allow start [] start
  | snoc {events : List Event} {w w' : World} {e : Event} :
      Runs allow start events w → allow w e → w.step e = some w' →
      Runs allow start (events ++ [e]) w'

/-- A sequence of events that is possible is a run. -/
theorem runs_of_plays {w w' : World} {events : List Event} (h : w.plays events = some w') :
    Runs (fun _ _ => True) w events w' := by
  induction events using List.reverseRecOn generalizing w' with
  | nil =>
      cases h
      exact .nil
  | append_singleton events e ih =>
      rw [World.plays, List.foldlM_append] at h
      obtain ⟨middle, hmiddle, hlast⟩ := Option.bind_eq_some_iff.mp h
      obtain ⟨final, hfinal, hsame⟩ := Option.bind_eq_some_iff.mp hlast
      cases hsame
      exact .snoc (ih hmiddle) trivial hfinal

end SystemsManager.Power
