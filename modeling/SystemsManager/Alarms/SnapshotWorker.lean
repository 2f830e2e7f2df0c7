import SystemsManager.Alarms.Silence

/-!
# The worker thread that reads the snapshot

A cycle has `get_active` run on a worker thread, and while that thread reads, the event loop goes on
to serve requests. A worker that finds a cached list returns it, which is `Work.takeSnapshot`;
otherwise it reads the rows, and later stores the list of them over whatever the repository has
cached by then. `Move` has these two as steps of their own. Where no row has changed in between, the
second one does what `dropCache` and `takeSnapshot` do (`Served.run_eng`), so that what holds along
runs of atomic work holds here as well. Read `life_cycle` and `handled_stay_silent`.
-/

namespace SystemsManager.Alarms

open Python Sql

variable {Config : Type}

namespace Engine

open AlertRepository AlertManager

section Moves

/-- The list that `get_active` makes of the rows. -/
def readActiveRows (repo : AlertRepository) : List Alert :=
  (repo.db.queryActive activeLimit).filter isReadable

/-- The engine, and the list that the worker of the cycle has read and not yet stored. -/
structure Served where
  eng : Engine
  read : Option (List Alert) := none

/-- The event loop does a piece of work, or the worker of the cycle one of its two steps. -/
inductive Move (Config : Type) where
  | work (w : Work Config)
  | readRows
  | storeList

/-- One move. -/
def Served.step (v : Served) : Move Config → Served
  | .work w => { v with eng := v.eng.step w }
  | .readRows => { v with read := some (readActiveRows v.eng.repo) }
  | .storeList =>
      match v.read with
      | none => v
      | some alerts =>
          { eng := { v.eng with
              repo := { v.eng.repo with activeCache := some alerts }
              snapshot := alerts } }

/-- Some moves. -/
def Served.run (eng : Engine) (moves : List (Move Config)) : Served :=
  moves.foldl Served.step ⟨eng, none⟩

/-- The worker stores its list while the rows are still those that it has read. -/
def Served.Timely (v : Served) : Move Config → Prop
  | .storeList => v.read = some (readActiveRows v.eng.repo)
  | _ => True

/-- The atomic work that a move amounts to. -/
def Move.works : Move Config → List (Work Config)
  | .work w => [w]
  | .readRows => []
  | .storeList => [.dropCache, .takeSnapshot]

/-- The atomic work that some moves amount to. -/
def worksOf (moves : List (Move Config)) : List (Work Config) := moves.flatMap Move.works

variable {eng : Engine} {moves : List (Move Config)} {m : Move Config}

theorem works_of_concat (moves : List (Move Config)) (m : Move Config) :
    worksOf (moves ++ [m]) = worksOf moves ++ m.works := by
  simp [worksOf]

theorem works_of_append (moves more : List (Move Config)) :
    worksOf (moves ++ more) = worksOf moves ++ worksOf more := List.flatMap_append

theorem Served.run_concat (eng : Engine) (moves : List (Move Config)) (m : Move Config) :
    Served.run eng (moves ++ [m]) = (Served.run eng moves).step m := by
  simp [Served.run]

/-- A worker that nothing comes in between stores its list in time. -/
theorem timely_at_once (eng : Engine) (moves : List (Move Config)) :
    (Served.run eng (moves ++ [.readRows])).Timely (.storeList : Move Config) := by
  rw [Served.run_concat]
  rfl

/-- A timely move changes the engine as its atomic work does. -/
theorem Served.step_eng {v : Served} (h : v.Timely m) : (v.step m).eng = v.eng.run m.works := by
  cases m with
  | work w => rfl
  | readRows => rfl
  | storeList =>
      have hread : v.read = some (readActiveRows v.eng.repo) := h
      rw [Served.step, hread]
      rfl

/-- Along timely moves the engine is that of the atomic work. -/
theorem Served.run_eng (htimely : Each (fun before m => (Served.run eng before).Timely m) moves) :
    (Served.run eng moves).eng = eng.run (worksOf moves) := by
  induction moves using List.reverseRecOn with
  | nil => rfl
  | append_singleton moves m ih =>
      rw [each_concat] at htimely
      rw [Served.run_concat, Served.step_eng htimely.2, ih htimely.1, works_of_concat, Engine.run,
        Engine.run, Engine.run, List.foldl_append]

/-- A property of atomic work that the worker's two pieces have holds along the work of some moves,
if it holds of the work of the event loop. -/
theorem each_works {P : List (Work Config) → Work Config → Prop}
    (hdrop : ∀ past, P past .dropCache) (htake : ∀ past, P past .takeSnapshot)
    (h : Each (fun before m => ∀ w, m = .work w → P (worksOf before) w) moves) :
    Each P (worksOf moves) := by
  induction moves using List.reverseRecOn with
  | nil => exact each_nil
  | append_singleton moves m ih =>
      rw [each_concat] at h
      rw [works_of_concat]
      cases m with
      | work w => exact each_concat.mpr ⟨ih h.1, h.2 w rfl⟩
      | readRows =>
          rw [Move.works, List.append_nil]
          exact ih h.1
      | storeList =>
          rw [Move.works, ← List.singleton_append, ← List.append_assoc, each_concat, each_concat]
          exact ⟨⟨ih h.1, hdrop _⟩, htake _⟩

end Moves

section LifeCycle

/-- The move is timely, and careful if it is work of the event loop. -/
def Served.Careful (v : Served) (m : Move Config) : Prop :=
  v.Timely m ∧ ∀ w, m = .work w → v.eng.Careful w

/-- In every run of careful moves, started with the life cycle in order, a rule has at most one
ongoing alert at every point, and an alert that is closed at one point is closed at all later
ones. -/
theorem life_cycle {eng : Engine} (horderly : eng.Orderly) (moves more : List (Move Config))
    (hnew : eng.NewIds (worksOf (moves ++ more)))
    (hcareful : Each (fun before m => (Served.run eng before).Careful m) (moves ++ more)) :
    OneOngoing (Served.run eng moves).eng.repo.db ∧
      ∀ row ∈ (Served.run eng moves).eng.repo.db.unionAll, row.status = .closed →
        ∀ row' ∈ (Served.run eng (moves ++ more)).eng.repo.db.unionAll,
          row'.alertId = row.alertId → row'.status = .closed := by
  have htimely : Each (fun before m => (Served.run eng before).Timely m) (moves ++ more) :=
    fun before m after hmoves => (hcareful before m after hmoves).1
  have hworks : Each (fun before w => (eng.run before).Careful w) (worksOf (moves ++ more)) := by
    refine each_works (fun _ => trivial) (fun _ => trivial) ?_
    intro before m after hmoves w hw
    have hpast : Each (fun before m => (Served.run eng before).Timely m) before := by
      rw [hmoves] at htimely
      exact htimely.part
    -- the engine before a move of a careful run is that of the atomic work before it
    rw [← Served.run_eng hpast]
    exact (hcareful before m after hmoves).2 w hw
  rw [Served.run_eng htimely, Served.run_eng htimely.part]
  rw [works_of_append] at hnew hworks ⊢
  exact orderly_life horderly _ _ hnew hworks

/-- A first cycle, and a violation after it. -/
def firstCycle : List (Move Unit) :=
  [] ++ [.readRows] ++ [.storeList] ++ [.work (.process {} (violation "r") "a" 0)]

/-- An alert is created after the first cycle, and then closed. -/
theorem life_cycle_close :
    OneOngoing (Served.run idle firstCycle).eng.repo.db ∧
      ∀ row ∈ (Served.run idle firstCycle).eng.repo.db.unionAll, row.status = .closed →
        ∀ row' ∈ (Served.run idle
            (firstCycle ++ [.work (.close "a" (some "manual") 1)])).eng.repo.db.unionAll,
          row'.alertId = row.alertId → row'.status = .closed := by
  refine life_cycle idle_orderly firstCycle [.work (.close "a" (some "manual") 1)]
    ⟨by decide, fun id _ row hrow => by cases hrow⟩ ?_
  rw [each_concat, firstCycle, each_concat, each_concat, each_concat]
  refine ⟨⟨⟨⟨each_nil, ?_⟩, ?_⟩, ?_⟩, ?_⟩
  · exact ⟨True.intro, fun w hw => by cases hw⟩
  · exact ⟨timely_at_once idle [], fun w hw => by cases hw⟩
  · refine ⟨True.intro, ?_⟩
    rintro w ⟨⟩ row hrow
    cases hrow
  · refine ⟨True.intro, ?_⟩
    rintro w ⟨⟩
    exact True.intro

/-- A closed alert is resumed after the rule has got another one. -/
theorem resumed_beside_another : ¬ ∀ (eng : Engine) (moves more : List (Move Unit)),
    eng.Orderly → eng.NewIds (worksOf (moves ++ more)) →
      OneOngoing (Served.run eng moves).eng.repo.db ∧
        ∀ row ∈ (Served.run eng moves).eng.repo.db.unionAll, row.status = .closed →
          ∀ row' ∈ (Served.run eng (moves ++ more)).eng.repo.db.unionAll,
            row'.alertId = row.alertId → row'.status = .closed := by
  intro h
  have hone := (h idle [.work (.process {} (violation "r") "a" 0),
    .work (.close "a" (some "manual") 1), .work (.process {} (violation "r") "b" 2),
    .work (.resume "a" 3)] [] idle_orderly ⟨by decide, fun id _ row hrow => by cases hrow⟩).1
  revert hone
  unfold OneOngoing
  decide +kernel

-- The worker stores an empty list after the first alert has been created, and the rule gets a
-- second.
example : ¬ OneOngoing (Served.run idle [.readRows, .work (.process {} (violation "r") "a" 0),
    .storeList, (.work (.process {} (violation "r") "b" 1) : Move Unit)]).eng.repo.db := by
  unfold OneOngoing
  decide +kernel

end LifeCycle

section Silence

/-- In every run in which the worker stores its lists in time, and in which the alert that a
breaching rule refreshes has not been handled since the snapshot was read, whatever the dispatcher
and its policies are: where a firing notification goes to a channel, the alert is not stored as
acknowledged, ignored or closed. -/
theorem handled_stay_silent {eng : Engine} (hsplit : eng.repo.db.Split)
    (hcoherent : Coherent eng.repo) (hsnapshot : eng.snapshot = []) (moves : List (Move Config))
    (hnew : eng.NewIds (worksOf moves))
    (htimely : Each (fun before m => (Served.run eng before).Timely m) moves)
    (hunhandled : Each (fun before m => ∀ w, m = .work w →
      Unhandled (Watched.run eng (worksOf before)) w) moves) :
    Each (fun before m => ∀ a ∈ ((Served.run eng before).step m).eng.firings.drop
        (Served.run eng before).eng.firings.length,
      ∀ (d : Dispatcher) (n : Dispatcher.Notification), n.alert = a → n.event = .firing →
        (d.send n).1.channels ≠ [] →
        ∀ row ∈ ((Served.run eng before).step m).eng.repo.db.unionAll, row.alertId = a.alertId →
          row.status.handled = false) moves := by
  have hworks := silent_while_unhandled hsplit hcoherent hsnapshot (worksOf moves) hnew
    (each_works (fun _ => trivial) (fun _ => trivial) hunhandled)
  rintro before m after rfl a ha
  have hpast := htimely.part
  cases m with
  | work w =>
      have hsilent := hworks (worksOf before) w (worksOf after) (by simp [worksOf, Move.works])
      beta_reduce at hsilent
      rw [← Served.run_eng hpast] at hsilent
      exact hsilent a ha
  -- the worker notifies nobody
  | readRows =>
      have hnone : a ∈ (Served.run eng before).eng.firings.drop
          (Served.run eng before).eng.firings.length := ha
      rw [List.drop_length] at hnone
      cases hnone
  | storeList =>
      have hsame : ((Served.run eng before).step (.storeList : Move Config)).eng.firings =
          (Served.run eng before).eng.firings := by
        rw [Served.step]
        split <;> rfl
      rw [hsame, List.drop_length] at ha
      cases ha

/-- A rule that breaches in two cycles. -/
def breachTwice : List (Move Unit) :=
  [] ++ [.work (.process {} (violation "r") "a" 0)] ++ [.readRows] ++ [.storeList] ++
    [.work (.evaluate {} hotRule (.breach (violation "r")) (.finite 96) "b" 2)]

/-- Without requests in between, the alert is notified of again while it is active. -/
theorem handled_stay_silent_breach :
    Each (fun before m => ∀ a ∈ ((Served.run idle before).step m).eng.firings.drop
        (Served.run idle before).eng.firings.length,
      ∀ (d : Dispatcher) (n : Dispatcher.Notification), n.alert = a → n.event = .firing →
        (d.send n).1.channels ≠ [] →
        ∀ row ∈ ((Served.run idle before).step m).eng.repo.db.unionAll, row.alertId = a.alertId →
          row.status.handled = false) breachTwice := by
  refine handled_stay_silent idle_orderly.split idle_orderly.coherent rfl breachTwice
    ⟨by decide, fun id _ row hrow => by cases hrow⟩ ?_ ?_
  · rw [breachTwice, each_concat, each_concat, each_concat, each_concat]
    refine ⟨⟨⟨⟨each_nil, ?_⟩, ?_⟩, ?_⟩, ?_⟩
    · exact True.intro
    · exact True.intro
    · exact timely_at_once idle ([] ++ [.work (.process {} (violation "r") "a" 0)])
    · exact True.intro
  · rw [breachTwice, each_concat, each_concat, each_concat, each_concat]
    refine ⟨⟨⟨⟨each_nil, ?_⟩, fun w hw => by cases hw⟩, fun w hw => by cases hw⟩, ?_⟩
    · rintro w ⟨⟩
      trivial
    · rintro w ⟨⟩ a - - hhandled
      rw [show worksOf _ = [.process {} (violation "r") "a" 0, .dropCache] ++
        [.takeSnapshot] from rfl,
        Watched.run_concat] at hhandled
      cases hhandled.1

/-- The alert is acknowledged after the snapshot has been read, and notified of when its rule is
evaluated. -/
theorem acknowledged_not_silent : ¬ ∀ (eng : Engine) (moves : List (Move Unit)),
    eng.repo.db.Split → Coherent eng.repo → eng.snapshot = [] → eng.NewIds (worksOf moves) →
    Each (fun before m => ∀ a ∈ ((Served.run eng before).step m).eng.firings.drop
        (Served.run eng before).eng.firings.length,
      ∀ (d : Dispatcher) (n : Dispatcher.Notification), n.alert = a → n.event = .firing →
        (d.send n).1.channels ≠ [] →
        ∀ row ∈ ((Served.run eng before).step m).eng.repo.db.unionAll, row.alertId = a.alertId →
          row.status.handled = false) moves := by
  intro h
  have heach := h idle ([.work (.process {} (violation "r") "a" 0), .readRows, .storeList,
    .work (.acknowledge "a" 1)] ++
      [.work (.evaluate {} hotRule (.breach (violation "r")) (.finite 96) "b" 2)])
        idle_orderly.split
    idle_orderly.coherent rfl ⟨by decide, fun id _ row hrow => by cases hrow⟩
  rw [each_concat] at heach
  have hsilent := heach.2 (refreshed ((violation "r").toAlert "a" 0) (.finite 96) 2)
    (by decide +kernel) {} ⟨.firing, refreshed ((violation "r").toAlert "a" 0) (.finite 96) 2,
      [Dispatcher.mailPolicy], by decide, [], true, 0, 0⟩ rfl rfl (by decide +kernel)
  revert hsilent
  decide +kernel

end Silence

end Engine

end SystemsManager.Alarms
