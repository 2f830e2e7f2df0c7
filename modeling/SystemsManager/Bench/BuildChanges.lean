import SystemsManager.Concurrency.Reaches
import SystemsManager.Bench.Lineage

/-!
# Build changes

The watcher records a build change once per host and queues a check for each pinned run of the host,
but the end of an earlier check may replace the pinned run and take its queue entry away. `Changes`
is the watcher with the time of the last recorded change of each host. Read `change_covered`: at
every moment each pinned run of a host whose build has changed has a check that is pending or in
flight, or a row since then, its own or that of the check that promoted it.
-/

namespace SystemsManager.BenchBaseline

open Python Sql Concurrency

/-- The watcher and when it last recorded that the build of a host had changed. -/
structure Changes where
  observed : Observed
  changed : String → Option ℚ

namespace Changes

/-- The watcher. -/
abbrev watcher (c : Changes) : Watcher := c.observed.watcher

/-- A build that is recorded in place of another one is a change. -/
def changedAfter (c : Changes) (s : Watcher) (agentId : String) : Option ℚ :=
  match c.watcher.builds.get? agentId, s.builds.get? agentId with
  | some old, some new => if old.1 = new.1 then c.changed agentId else some new.2
  | _, _ => c.changed agentId

/-- Nothing has happened yet. -/
def start (runs : List Run) (clock : ℚ) : Changes := ⟨Observed.start runs clock, fun _ => none⟩

/-- One event. -/
def step (tz : ℚ) (c : Changes) (e : Event) : Option Changes :=
  (c.observed.step tz e).map fun o => ⟨o, c.changedAfter o.watcher⟩

end Changes

/-- The schedule and its two settings are on, agents answer new run ids, and there are no pins by
hand, quiet windows and restarts. -/
def Undisturbed (c : Changes) : Event → Prop
  | .begin cfg => cfg.enabled = true ∧ cfg.onBuildChange = true ∧ cfg.promoteOnBuildChange = true
  | .quiet _ _ => False
  | .restart => False
  | e => Ordinary c.observed e

instance (c : Changes) (e : Event) : Decidable (Undisturbed c e) :=
  match e with
  | .begin _ => inferInstanceAs (Decidable (_ ∧ _ ∧ _))
  | .call (.ok _) => inferInstanceAs (Decidable (_ ∧ _))
  | .quiet _ _ | .restart | .pin _ => inferInstanceAs (Decidable False)
  | .call (.error _) | .wait _ | .poll | .promote | .plan _ _ | .prep _ | .apply | .recheck _
  | .delete _ | .clear _ _ | .store _ => isTrue trivial

/-- A check of the baseline is pending or in flight, or it or the check that promoted it has been
launched or recorded since. -/
def Covered (s : Watcher) (b : String) (t : ℚ) : Prop :=
  (s.pending.get? b).isSome = true ∨ (s.active.get? b).isSome = true ∨
    ∃ row ∈ s.checks, t ≤ row.ts ∧
      (row.baselineRunId = b ∨ row.runId = some b ∧ row.promoted = true)

/-- The same, with the promoting check being one of a baseline that was replaced. -/
def Secured (replaced : List String) (s : Watcher) (b : String) (t : ℚ) : Prop :=
  (s.pending.get? b).isSome = true ∨ (s.active.get? b).isSome = true ∨
    ∃ row ∈ s.checks, t ≤ row.ts ∧
      (row.baselineRunId = b ∨
        row.runId = some b ∧ row.promoted = true ∧ row.baselineRunId ∈ replaced)

/-- What the part of the tick that is under way knows: a poll is later than all changes, a check
that is to be promoted was recorded later, and the loop over the pinned runs knows them all. -/
def Timely (changed : String → Option ℚ) (s : Watcher) : Prop :=
  match s.phase with
  | .polling cfg now _ _ =>
      cfg.enabled = true ∧ cfg.onBuildChange = true ∧ 0 ≤ now ∧ now ≤ s.clock ∧
        ∀ a t, changed a = some t → t ≤ now
  | .promoting cfg now _ _ b x =>
      (cfg.enabled = true ∧ cfg.onBuildChange = true ∧ 0 ≤ now ∧ now ≤ s.clock ∧
        ∀ a t, changed a = some t → t ≤ now) ∧
      ∃ row ∈ s.checks, row.baselineRunId = b.runId ∧ row.runId = some x ∧ row.promoted = true ∧
        ∀ a t, changed a = some t → t ≤ row.ts
  | .planning _ _ _ _ _ live _ => ∀ r ∈ s.runs, r.baseline = true → r.runId ∈ live
  | _ => True

/-- What holds of the watcher at every moment. -/
structure Caught (c : Changes) : Prop where
  sound : Sound c.observed
  quiet : ∀ a, c.watcher.quietUntil.getD a 0 = 0
  clock : 0 ≤ c.watcher.clock
  builds : ∀ a build, c.watcher.builds.get? a = some build → build.1 ≠ ""
  past : ∀ a t, c.changed a = some t → t ≤ c.watcher.clock
  timely : Timely c.changed c.watcher
  secured : ∀ r ∈ c.watcher.runs, r.baseline = true → ∀ t, c.changed r.agentId = some t →
    Secured c.observed.replaced c.watcher r.runId t

theorem timely_unlocked {changed : String → Option ℚ} {s : Watcher} (h : s.phase.unlocked = true) :
    Timely changed s := by
  unfold Timely
  cases hphase : s.phase with
  | polling cfg now pins todo =>
      rw [hphase] at h
      cases h
  | promoting cfg now pins todo b x =>
      rw [hphase] at h
      cases h
  | planning cfg now since hosts todo live items =>
      rw [hphase] at h
      cases h
  | idle => trivial
  | launching now items => trivial
  | answered now item answer items => trivial

section Secured

variable {baselines answered replaced : List String} {s s' : Watcher} {b : String} {t : ℚ}

theorem Secured.mono (h : Secured replaced s b t)
    (hpending : (s.pending.get? b).isSome = true → (s'.pending.get? b).isSome = true)
    (hactive : s'.active = s.active) (hchecks : s'.checks = s.checks) :
    Secured replaced s' b t := by
  rcases h with hp | ha | hrow
  · exact Or.inl (hpending hp)
  · exact Or.inr (Or.inl (hactive ▸ ha))
  · exact Or.inr (Or.inr (hchecks ▸ hrow))

theorem Secured.settle (h : Secured replaced s b t) {rid : String} {act : Active}
    (hrows : Rows baselines answered s.checks s.active) (hact : s.active.get? rid = some act)
    (hlive : rid ∉ replaced) {f : Check → Check}
    (hf : ∀ c, (f c).id = c.id ∧ (f c).baselineRunId = c.baselineRunId ∧ (f c).runId = c.runId ∧
      (f c).status ≠ .running ∧ t ≤ (f c).ts) {checks : List Check}
    (hkeeps : ∀ c ∈ s.checks.map fun c => if c.id = act.checkId then f c else c,
      (c.baselineRunId ≠ rid ∨ c.id = act.checkId) → c ∈ checks)
    (hpending : s'.pending = s.pending) (hactive : s'.active = s.active.erase rid)
    (hchecks : s'.checks = checks) : Secured replaced s' b t := by
  obtain ⟨c, hc, hid, hbase, -⟩ := hrows.active rid act hact
  by_cases hb : b = rid
  · -- The settled row is one of this baseline.
    refine Or.inr (Or.inr ⟨f c, ?_, (hf c).2.2.2.2, Or.inl ?_⟩)
    · rw [hchecks]
      refine hkeeps (f c) (List.mem_map.mpr ⟨c, hc, if_pos hid⟩) (Or.inr ?_)
      exact (hf c).1.trans hid
    · exact (hf c).2.1.trans (hbase.trans hb.symm)
  · rcases h with hp | ha | ⟨row, hrow, ht, hwhose⟩
    · exact Or.inl (hpending ▸ hp)
    · refine Or.inr (Or.inl ?_)
      rw [hactive, Dict.get?_erase, if_neg hb]
      exact ha
    · -- The row is of another baseline, so it is neither settled nor pruned.
      have hother : row.baselineRunId ≠ rid := by
        rcases hwhose with hown | ⟨-, -, hreplaced⟩
        · exact fun e => hb (hown.symm.trans e)
        · exact fun e => hlive (e ▸ hreplaced)
      have hne : row.id ≠ act.checkId := by
        intro e
        exact hother ((hrows.row hact hrow e).1)
      refine Or.inr (Or.inr ⟨row, ?_, ht, hwhose⟩)
      rw [hchecks]
      exact hkeeps row (List.mem_map.mpr ⟨row, hrow, if_neg hne⟩) (Or.inl hother)

theorem Secured.insert (h : Secured replaced s b t) {row : Check}
    (hlive : row.baselineRunId ∉ replaced) (ht : t ≤ row.ts)
    (hpending : s'.pending = s.pending.erase row.baselineRunId)
    (hactive : ∀ a, (s.active.get? a).isSome = true → (s'.active.get? a).isSome = true)
    (hchecks : s'.checks = pruneChecks row.baselineRunId (row :: s.checks)) :
    Secured replaced s' b t := by
  by_cases hb : b = row.baselineRunId
  · refine Or.inr (Or.inr ⟨row, ?_, ht, Or.inl hb.symm⟩)
    rw [hchecks]
    exact mem_prune_head ..
  · rcases h with hp | ha | ⟨old, hold, hts, hwhose⟩
    · refine Or.inl ?_
      rw [hpending, Dict.get?_erase, if_neg hb]
      exact hp
    · exact Or.inr (Or.inl (hactive b ha))
    · have hother : old.baselineRunId ≠ row.baselineRunId := by
        rcases hwhose with hown | ⟨-, -, hreplaced⟩
        · exact fun e => hb (hown.symm.trans e)
        · exact fun e => hlive (e ▸ hreplaced)
      refine Or.inr (Or.inr ⟨old, ?_, hts, hwhose⟩)
      rw [hchecks]
      exact mem_prune_of_ne (List.mem_cons_of_mem _ hold) hother

theorem Secured.started (h : Secured replaced s b t) {r : Run} {pend : Pending}
    {item : Option Item} (hlive : r.runId ∉ replaced) (ht : t ≤ s.clock)
    (hstart : Started r pend s s' item) : Secured replaced s' b t := by
  cases hstart with
  | waits => exact h
  | skips error build => exact h.insert hlive ht rfl (fun _ ha => ha) rfl
  | item body build hfree =>
      refine h.mono (fun hp => ?_) rfl rfl
      show ((s.pending.set r.runId _).get? b).isSome = true
      rw [Dict.get?_set]
      split
      · rfl
      · exact hp

theorem Secured.launched (h : Secured replaced s b t) {now : ℚ} {item : Item}
    {answer : Except String String} (hlive : item.run.runId ∉ replaced) (ht : t ≤ s.clock)
    (hlaunched : Launched now item answer s s') : Secured replaced s' b t := by
  cases hlaunched with
  | stale hstale => exact h
  | accepted x pend hanswer hpend =>
      refine h.insert hlive ht rfl (fun a ha => ?_) rfl
      show ((s.active.set item.run.runId _).get? a).isSome = true
      rw [Dict.get?_set]
      split
      · rfl
      · exact ha
  | settled text error status pend hanswer hpend hstatus =>
      exact h.insert hlive ht rfl (fun _ ha => ha) rfl
  | retried text pend pend' hanswer hpend htrigger hident hfree =>
      refine h.mono (fun hp => ?_) rfl rfl
      show ((s.pending.set item.run.runId pend').get? b).isSome = true
      rw [Dict.get?_set]
      split
      · rfl
      · exact hp

/-- What is secured is covered. -/
theorem Secured.covered (h : Secured replaced s b t) : Covered s b t := by
  rcases h with hp | ha | ⟨row, hrow, ht, hwhose⟩
  · exact Or.inl hp
  · exact Or.inr (Or.inl ha)
  · refine Or.inr (Or.inr ⟨row, hrow, ht, hwhose.imp_right ?_⟩)
    exact fun h => ⟨h.1, h.2.1⟩

end Secured

namespace Caught

variable {c : Changes}

theorem changed_of_builds {c : Changes} {s : Watcher} (hbuilds : s.builds = c.watcher.builds) :
    c.changedAfter s = c.changed := by
  funext a
  unfold Changes.changedAfter
  rw [hbuilds]
  cases c.watcher.builds.get? a with
  | none => rfl
  | some build => exact if_pos rfl

theorem keep (h : Caught c) {o : Observed} (hsound : Sound o)
    (hquiet : o.watcher.quietUntil = c.watcher.quietUntil)
    (hclock : c.watcher.clock ≤ o.watcher.clock) (hbuilds : o.watcher.builds = c.watcher.builds)
    (htimely : Timely c.changed o.watcher)
    (hsecured : ∀ r ∈ o.watcher.runs, r.baseline = true → ∀ t, c.changed r.agentId = some t →
      Secured o.replaced o.watcher r.runId t) : Caught ⟨o, c.changedAfter o.watcher⟩ := by
  rw [changed_of_builds hbuilds]
  refine ⟨hsound, ?_, h.clock.trans hclock, ?_, ?_, htimely, hsecured⟩
  · intro a
    show o.watcher.quietUntil.getD a 0 = 0
    rw [hquiet]
    exact h.quiet a
  · intro a build hbuild
    exact h.builds a build (hbuilds ▸ hbuild)
  · exact fun a t ht => (h.past a t ht).trans hclock

section Poll

variable {cfg : Config} {now : ℚ} {pins : List Run} {rid : String} {act : Active}
  {todo : List (String × Active)}

theorem poll (h : Caught c) (hphase : c.watcher.phase = .polling cfg now pins ((rid, act) :: todo))
    {s : Watcher} {promoted : Option (Run × String)}
    (hpolled : Polled now pins rid act c.watcher s promoted) :
    Caught ⟨{ c.observed with
        watcher := { s with phase := Phase.polled cfg now pins todo promoted } },
      c.changedAfter { s with phase := Phase.polled cfg now pins todo promoted }⟩ := by
  have hsound := h.sound.poll hphase hpolled
  obtain ⟨hruns, hclock, hquiet, hbuilds⟩ := hpolled.same
  have htimely := h.timely
  unfold Timely at htimely
  rw [hphase] at htimely
  dsimp only at htimely
  obtain ⟨henabled, hon, hnow, hle, hpast⟩ := htimely
  have hact : c.watcher.active.get? rid = some act :=
    h.sound.todo (rid, act) (by
      rw [show c.observed.watcher.phase = _ from hphase]; exact List.mem_cons_self ..)
  have hlive : rid ∉ c.observed.replaced := by
    intro hmem
    have hfree := (h.sound.dead rid hmem).2.1
    rw [hact] at hfree
    cases hfree
  have hrows := h.sound.rows
  refine h.keep hsound hquiet (le_of_eq hclock.symm) hbuilds ?_ ?_
  · cases hpolled with
    | unpinned hpins => exact ⟨henabled, hon, hnow, hle, hpast⟩
    | waiting => exact ⟨henabled, hon, hnow, hle, hpast⟩
    | settled b out hb hid hstatus hpromoted => exact ⟨henabled, hon, hnow, hle, hpast⟩
    | promotes b out hb hid hstatus hpromoted htrigger =>
        refine ⟨⟨henabled, hon, hnow, hle, hpast⟩, ?_⟩
        obtain ⟨row, hrow, hrid, hbase, hrun, -⟩ := hrows.active rid act hact
        refine ⟨row.settled c.watcher.clock out, ?_, hbase.trans hid.symm, hrun, hpromoted,
          h.past⟩
        show _ ∈ pruneChecks b.runId _
        rw [hid]
        exact hrows.mem_prune_settled hact (f := fun row => row.settled c.watcher.clock out)
          (fun row => ⟨rfl, rfl, rfl, hstatus⟩) (List.mem_map.mpr ⟨row, hrow, if_pos hrid⟩) hrid
  · intro r hr hbaseline t ht
    have hold := h.secured r (hruns ▸ hr) hbaseline t ht
    -- The settled row of the two endings that prune.
    have hsettle : ∀ (b : Run) (out : Outcome), b.runId = rid → out.status ≠ .running →
        ∀ phase : Phase, Secured c.observed.replaced
          { (c.watcher.dropActive rid).settleCheck b act.checkId out with phase := phase }
          r.runId t := by
      intro b out hid hstatus phase
      refine hold.settle hrows hact hlive (f := fun row => row.settled c.watcher.clock out)
        (fun row => ⟨rfl, rfl, rfl, hstatus, h.past _ t ht⟩) ?_ rfl rfl rfl
      intro row hrow hwhose
      show row ∈ pruneChecks b.runId _
      rw [hid]
      rcases hwhose with hother | hrid
      · exact mem_prune_of_ne hrow hother
      · exact hrows.mem_prune_settled hact (f := fun row => row.settled c.watcher.clock out)
          (fun row => ⟨rfl, rfl, rfl, hstatus⟩) hrow hrid
    cases hpolled with
    | unpinned hpins =>
        refine hold.settle hrows hact hlive (f := fun row =>
          { row with ts := now, status := .skipped, error := some "baseline unpinned" })
          (fun row => ⟨rfl, rfl, rfl, by simp, hpast _ t ht⟩) ?_ rfl rfl rfl
        exact fun row hrow _ => hrow
    | waiting => exact hold.mono id rfl rfl
    | settled b out hb hid hstatus hpromoted => exact hsettle b out hid hstatus _
    | promotes b out hb hid hstatus hpromoted htrigger => exact hsettle b out hid hstatus _

theorem promote (h : Caught c) {b : Run} {x : String}
    (hphase : c.watcher.phase = .promoting cfg now pins todo b x) :
    Caught ⟨{ c.observed with
        watcher := { c.watcher.pinRun b.modelId b.agentId x with
          phase := .polling cfg now pins todo }
        baselines := x :: c.observed.baselines
        replaced := b.runId :: c.observed.replaced },
      c.changedAfter { c.watcher.pinRun b.modelId b.agentId x with
        phase := .polling cfg now pins todo }⟩ := by
  have htimely := h.timely
  unfold Timely at htimely
  rw [hphase] at htimely
  obtain ⟨hpoll, row, hrow, hbase, hrun, hpromoted, hts⟩ := htimely
  refine h.keep (h.sound.promote hphase) rfl le_rfl rfl hpoll ?_
  intro r' hr' hbaseline t ht
  obtain ⟨r, hr, rfl⟩ := List.mem_map.mp hr'
  by_cases hx : r.runId = x
  · rw [if_pos hx] at ht ⊢
    refine Or.inr (Or.inr ⟨row, hrow, hts _ t ht, Or.inr ⟨?_, hpromoted, ?_⟩⟩)
    · exact hrun.trans (congrArg some hx.symm)
    · exact hbase ▸ List.mem_cons_self ..
  · rw [if_neg hx] at hbaseline ht ⊢
    by_cases hpair : r.modelId = b.modelId ∧ r.agentId = b.agentId
    · rw [if_pos hpair] at hbaseline
      cases hbaseline
    · rw [if_neg hpair] at hbaseline ht ⊢
      rcases h.secured r hr hbaseline t ht with hp | ha | ⟨row, hrow, hts, hwhose⟩
      · exact Or.inl hp
      · exact Or.inr (Or.inl ha)
      · refine Or.inr (Or.inr ⟨row, hrow, hts, hwhose.imp_right ?_⟩)
        exact fun hwhose => ⟨hwhose.1, hwhose.2.1, List.mem_cons_of_mem _ hwhose.2.2⟩

end Poll

section Plan

variable {tz : ℚ} {cfg : Config} {now : ℚ} {since : Option ℚ} {hosts : List Host} {todo : List Run}
  {live : List String} {items : List Item}

theorem plan (h : Caught c) {pins : List Run} (hphase : c.watcher.phase = .polling cfg now pins [])
    (buildOf : String → String) {o : Observed} (hsound : Sound o)
    (hreplaced : o.replaced = c.observed.replaced)
    (hwatcher : ∃ schedule since hosts, o.watcher =
      { c.watcher.detectBuildChanges cfg c.watcher.pinned now buildOf with
        schedule := schedule
        phase := .planning cfg now since hosts c.watcher.pinned
          (c.watcher.pinned.map (·.runId)) [] }) :
    Caught ⟨o, c.changedAfter o.watcher⟩ := by
  obtain ⟨schedule, since, hosts, howatcher⟩ := hwatcher
  have htimely := h.timely
  unfold Timely at htimely
  rw [hphase] at htimely
  dsimp only at htimely
  obtain ⟨henabled, hon, hnow, hle, hpast⟩ := htimely
  have hqueued := @queued_detect cfg c.watcher.pinned now buildOf c.watcher
  have hnoticed : Noticed c.watcher.pinned now buildOf c.watcher
      (c.watcher.detectBuildChanges cfg c.watcher.pinned now buildOf) :=
    noticed_detect henabled hon fun a => (h.quiet a).le.trans hnow
  generalize c.watcher.detectBuildChanges cfg c.watcher.pinned now buildOf = s
    at hqueued hnoticed howatcher
  -- Either nothing has changed for a host, or its change is of now and its runs are pending.
  have hchanged : ∀ a, c.changedAfter o.watcher a = c.changed a ∨
      c.changedAfter o.watcher a = some now ∧
        ∀ b ∈ c.watcher.pinned, b.agentId = a → (s.pending.get? b.runId).isSome = true := by
    intro a
    unfold Changes.changedAfter
    rw [howatcher]
    dsimp only
    rcases hnoticed a with hsame | ⟨hnew, -, hother, hpending⟩
    · rw [hsame]
      cases c.watcher.builds.get? a with
      | none => exact Or.inl rfl
      | some build => exact Or.inl (if_pos rfl)
    · rw [hnew]
      cases hold : c.watcher.builds.get? a with
      | none => exact Or.inl rfl
      | some build =>
          rw [hold] at hother hpending
          have hne : build.1 ≠ buildOf a := fun e => hother (congrArg some e)
          exact Or.inr ⟨if_neg hne, hpending (h.builds a build hold)⟩
  have hclock : o.watcher.clock = c.watcher.clock := by
    rw [howatcher]
    exact hqueued.clock
  refine ⟨hsound, ?_, ?_, ?_, ?_, ?_, ?_⟩
  · intro a
    show o.watcher.quietUntil.getD a 0 = 0
    rw [howatcher]
    exact (congrArg (fun quiet => quiet.getD a 0) hqueued.quiet).trans (h.quiet a)
  · show 0 ≤ o.watcher.clock
    rw [hclock]
    exact h.clock
  · intro a build hbuild
    have hbuild : s.builds.get? a = some build := by
      rw [← hbuild]
      show _ = o.watcher.builds.get? a
      rw [howatcher]
    rcases hnoticed a with hsame | ⟨hnew, hne, -⟩
    · exact h.builds a build (hsame ▸ hbuild)
    · rw [hnew] at hbuild
      cases hbuild
      exact hne
  · intro a t ht
    show t ≤ o.watcher.clock
    rw [hclock]
    rcases hchanged a with hsame | ⟨hnew, -⟩
    · exact h.past a t (hsame ▸ ht)
    · have ht : some now = some t := hnew.symm.trans ht
      cases ht
      exact hle
  · show Timely _ o.watcher
    unfold Timely
    rw [howatcher]
    intro r hr hbaseline
    refine List.mem_map.mpr ⟨r, mem_pinned.mpr ⟨?_, hbaseline⟩, rfl⟩
    exact hqueued.runs ▸ hr
  · intro r hr hbaseline t ht
    have hr : r ∈ c.watcher.runs := by
      have hr : r ∈ o.watcher.runs := hr
      rw [howatcher] at hr
      exact hqueued.runs ▸ hr
    show Secured o.replaced o.watcher r.runId t
    rw [howatcher, hreplaced]
    rcases hchanged r.agentId with hsame | ⟨-, hpending⟩
    · exact (h.secured r hr hbaseline t (hsame ▸ ht)).mono
        (fun hp => hqueued.pending_some hp) hqueued.active hqueued.checks
    · exact Or.inl (hpending r (mem_pinned.mpr ⟨hr, hbaseline⟩) rfl)

/-- A round of the loop over the pinned runs. -/
theorem prep (h : Caught c) {b : Run}
    (hphase : c.watcher.phase = .planning cfg now since hosts (b :: todo) live items) {s : Watcher}
    {item : Option Item} (hplanned : Planned tz cfg now since b c.watcher s item) :
    Caught ⟨{ c.observed with
        watcher := { s with
          phase := .planning cfg now since hosts todo live (items ++ item.toList) } },
      c.changedAfter { s with
        phase := .planning cfg now since hosts todo live (items ++ item.toList) }⟩ := by
  obtain ⟨hruns, hclock, hquiet, hbuilds⟩ := hplanned.same
  have hlives := h.timely
  unfold Timely at hlives
  rw [hphase] at hlives
  refine h.keep (h.sound.prep hphase hplanned) hquiet (le_of_eq hclock.symm) hbuilds ?_ ?_
  · exact fun r hr => hlives r (hruns ▸ hr)
  · intro r hr hbaseline t ht
    have hlive : b.runId ∉ c.observed.replaced := by
      intro hmem
      refine (h.sound.dead _ hmem).2.2 ?_
      rw [show c.observed.watcher.phase = _ from hphase]
      exact List.mem_append_left _ (List.mem_cons_self ..)
    have hold := h.secured r (hruns ▸ hr) hbaseline t ht
    have hts := h.past _ t ht
    have hnew : Secured c.observed.replaced s r.runId t := by
      cases hplanned with
      | stays => exact hold
      | known pend _ _ hactive hpend hstart => exact hold.started hlive hts hstart
      | due _ _ hactive hpend hdue hstart =>
          have hqueued : Queued [b.runId] .nightly c.watcher
              (c.watcher.enqueue b.runId .nightly "") :=
            Queued.enqueue "" (List.mem_singleton_self _) (by rw [hpend]; rfl)
          have hqueue : Secured c.observed.replaced (c.watcher.enqueue b.runId .nightly "")
              r.runId t := hold.mono (fun hp => hqueued.pending_some hp) rfl rfl
          exact hqueue.started hlive hts hstart
    exact hnew

theorem planned (h : Caught c)
    (hphase : c.watcher.phase = .planning cfg now since hosts [] live items) :
    Caught ⟨{ c.observed with
        watcher := { c.watcher with
          pending := c.watcher.pending.filter fun rid _ => live.contains rid
          phase := .after now items } },
      c.changedAfter { c.watcher with
        pending := c.watcher.pending.filter fun rid _ => live.contains rid
        phase := .after now items }⟩ := by
  have hlives := h.timely
  unfold Timely at hlives
  rw [hphase] at hlives
  refine h.keep (h.sound.planned hphase) rfl le_rfl rfl ?_ ?_
  · cases items <;> trivial
  · intro r hr hbaseline t ht
    refine (h.secured r hr hbaseline t ht).mono (fun hp => ?_) rfl rfl
    show ((c.watcher.pending.filter fun rid _ => live.contains rid).get? r.runId).isSome = true
    obtain ⟨p, hp⟩ := Option.isSome_iff_exists.mp hp
    rw [Dict.get?_filter, hp, Option.filter_some_pos]
    · rfl
    · exact List.contains_iff_mem.mpr (hlives r hr hbaseline)

end Plan

theorem apply (h : Caught c) {now : ℚ} {item : Item} {answer : Except String String}
    {items : List Item} (hphase : c.watcher.phase = .answered now item answer items) {s : Watcher}
    (hlaunched : Launched now item answer c.watcher s) :
    Caught ⟨{ c.observed with watcher := { s with phase := .after now items } },
      c.changedAfter { s with phase := .after now items }⟩ := by
  obtain ⟨hruns, hclock, hquiet, hbuilds⟩ := hlaunched.same
  refine h.keep (h.sound.apply hphase hlaunched) hquiet (le_of_eq hclock.symm) hbuilds ?_ ?_
  · cases items <;> trivial
  · intro r hr hbaseline t ht
    have hlive : item.run.runId ∉ c.observed.replaced := by
      intro hmem
      refine (h.sound.dead _ hmem).2.2 ?_
      rw [show c.observed.watcher.phase = _ from hphase]
      exact List.mem_cons_self ..
    have hnew : Secured c.observed.replaced s r.runId t :=
      (h.secured r (hruns ▸ hr) hbaseline t ht).launched hlive (h.past _ t ht) hlaunched
    exact hnew

theorem runsChange (h : Caught c) {runs : List Run} (hunique : (runs.map (·.runId)).Nodup)
    (hpinned : ∀ r ∈ runs, r.baseline = true → r ∈ c.watcher.runs) :
    Caught ⟨{ c.observed with watcher := { c.watcher with runs := runs } },
      c.changedAfter { c.watcher with runs := runs }⟩ := by
  refine h.keep (h.sound.runsChange hunique hpinned) rfl le_rfl rfl ?_ ?_
  · have htimely := h.timely
    unfold Timely at htimely ⊢
    cases hphase : c.watcher.phase with
    | planning cfg now since hosts todo live items =>
        rw [hphase] at htimely
        exact fun r hr hbaseline => htimely r (hpinned r hr hbaseline) hbaseline
    | idle => trivial
    | polling cfg now pins todo =>
        rw [hphase] at htimely
        exact htimely
    | promoting cfg now pins todo b x =>
        rw [hphase] at htimely
        exact htimely
    | launching now items => trivial
    | answered now item answer items => trivial
  · exact fun r hr hbaseline t ht => h.secured r (hpinned r hr hbaseline) hbaseline t ht

theorem wait (h : Caught c) {now : ℚ} (hnow : c.watcher.clock ≤ now) :
    Caught ⟨{ c.observed with watcher := { c.watcher with clock := now } },
      c.changedAfter { c.watcher with clock := now }⟩ := by
  refine h.keep (h.sound.frame rfl rfl rfl rfl rfl) rfl hnow rfl ?_ h.secured
  have htimely := h.timely
  unfold Timely at htimely ⊢
  cases hphase : c.watcher.phase with
  | polling cfg now' pins todo =>
      rw [hphase] at htimely
      obtain ⟨henabled, hon, hpos, hle, hpast⟩ := htimely
      exact ⟨henabled, hon, hpos, hle.trans hnow, hpast⟩
  | promoting cfg now' pins todo b x =>
      rw [hphase] at htimely
      obtain ⟨⟨henabled, hon, hpos, hle, hpast⟩, hrow⟩ := htimely
      exact ⟨⟨henabled, hon, hpos, hle.trans hnow, hpast⟩, hrow⟩
  | planning cfg now' since hosts todo live items =>
      rw [hphase] at htimely
      exact htimely
  | idle => trivial
  | launching now' items => trivial
  | answered now' item answer items => trivial

theorem recheck (h : Caught c) (runId : Option String)
    (hunlocked : c.watcher.phase.unlocked = true) :
    Caught ⟨{ c.observed with watcher := c.watcher.recheck runId },
      c.changedAfter (c.watcher.recheck runId)⟩ := by
  have hqueued := @queued_recheck c.watcher runId
  have hsound := h.sound.queued hqueued fun b hb => (h.sound.mem_pinned hb).1
  refine h.keep hsound hqueued.quiet (le_of_eq hqueued.clock.symm) (recheck_builds runId) ?_ ?_
  · exact timely_unlocked ((congrArg Phase.unlocked hqueued.phase).trans hunlocked)
  · intro r hr hbaseline t ht
    exact (h.secured r (hqueued.runs ▸ hr) hbaseline t ht).mono (fun hp => hqueued.pending_some hp)
      hqueued.active hqueued.checks

/-- Every event that does not disturb the watcher keeps the invariant. -/
theorem step (h : Caught c) {tz : ℚ} {e : Event} {c' : Changes} (hcalm : Undisturbed c e)
    (hstep : c.step tz e = some c') : Caught c' := by
  obtain ⟨o, ho, rfl⟩ := Option.map_eq_some_iff.mp hstep
  have hordinary : Ordinary c.observed e := by
    cases e <;> first | exact hcalm | trivial
  have hsound := h.sound.step hordinary ho
  obtain ⟨s, hs, rfl⟩ := Option.map_eq_some_iff.mp ho
  cases e with
  | wait now =>
      simp only [Watcher.step] at hs
      split at hs
      · rename_i hnow
        cases hs
        exact h.wait hnow
      · cases hs
  | begin cfg =>
      simp only [Watcher.step] at hs
      split at hs
      · cases hs
        exact h.keep hsound rfl le_rfl rfl ⟨hcalm.1, hcalm.2.1, h.clock, le_rfl, h.past⟩ h.secured
      · cases hs
  | poll =>
      simp only [Watcher.step] at hs
      split at hs
      · rename_i cfg now pins rid act todo hphase
        cases hs
        exact h.poll hphase (polled cfg now pins rid act c.watcher)
      · cases hs
  | promote =>
      simp only [Watcher.step] at hs
      split at hs
      · rename_i cfg now pins todo b x hphase
        cases hs
        simp only [Observed.after, hphase]
        exact h.promote hphase
      · cases hs
  | plan buildOf hosts =>
      simp only [Watcher.step] at hs
      split at hs
      · rename_i cfg now pins hphase
        cases hs
        obtain ⟨schedule, hschedule⟩ := schedule_since_eq
          (c.watcher.detectBuildChanges cfg c.watcher.pinned now buildOf) cfg now
        refine h.plan hphase buildOf hsound rfl ⟨schedule,
          ((c.watcher.detectBuildChanges cfg c.watcher.pinned now buildOf).scheduleSince cfg now).2,
          hosts, ?_⟩
        show ({ ((c.watcher.detectBuildChanges cfg c.watcher.pinned now buildOf).scheduleSince
          cfg now).1 with phase := _ } : Watcher) = _
        rw [hschedule]
      · cases hs
  | prep build =>
      simp only [Watcher.step] at hs
      split at hs
      · rename_i cfg now since hosts b todo live items hphase
        cases hs
        exact h.prep hphase (BenchBaseline.planned cfg now since hosts build c.watcher b)
      · rename_i cfg now since hosts live items hphase
        cases hs
        exact h.planned hphase
      · cases hs
  | call answer =>
      simp only [Watcher.step] at hs
      split at hs
      · rename_i now item items hphase
        cases hs
        cases answer with
        | ok x => exact h.keep hsound rfl le_rfl rfl (timely_unlocked rfl) h.secured
        | error text => exact h.keep hsound rfl le_rfl rfl (timely_unlocked rfl) h.secured
      · cases hs
  | apply =>
      simp only [Watcher.step] at hs
      split at hs
      · rename_i now item answer items hphase
        cases hs
        exact h.apply hphase (launched c.watcher now item answer)
      · cases hs
  | recheck runId =>
      simp only [Watcher.step] at hs
      split at hs
      · rename_i hunlocked
        cases hs
        exact h.recheck runId hunlocked
      · cases hs
  | quiet agentId seconds => cases hcalm
  | restart => cases hcalm
  | pin runId => cases hcalm
  | delete runId =>
      cases hs
      exact h.runsChange ((List.filter_sublist.map _).nodup h.sound.unique) fun r hr _ =>
        (List.mem_filter.mp hr).1
  | clear modelId agentId =>
      cases hs
      exact h.runsChange ((List.filter_sublist.map _).nodup h.sound.unique) fun r hr _ =>
        (List.mem_filter.mp hr).1
  | store run =>
      cases hs
      obtain ⟨hunique, hpinned, -⟩ := stored_runs h.sound.unique run
        (fun r => r.modelId = run.modelId && r.agentId = run.agentId) KEEP_PER_MODEL
      exact h.runsChange hunique hpinned

theorem start {runs : List Run} (hruns : (runs.map (·.runId)).Nodup) {clock : ℚ}
    (hclock : 0 ≤ clock) : Caught (Changes.start runs clock) where
  sound := Sound.start hruns clock
  quiet a := rfl
  clock := hclock
  builds a build hbuild := by cases hbuild
  past a t ht := by cases ht
  timely := trivial
  secured r hr hbaseline t ht := by cases ht

end Caught

/-- In every run of the watcher with its schedule and both settings on, without pins by hand, quiet
windows and restarts, whatever builds are reported and however checks end, with new run ids from the
agents: at every moment, for every pinned run of a host whose last recorded build change was at time
`t`, a check of the run is pending or in flight, or a check of it, or the one that promoted it, was
launched or recorded at `t` or later. -/
theorem change_covered (tz : ℚ) (runs : List Run) (hruns : (runs.map (·.runId)).Nodup) (clock : ℚ)
    (hclock : 0 ≤ clock) (c : Changes)
    (h : Reaches (Changes.step tz) Undisturbed (Changes.start runs clock) c) :
    ∀ r ∈ c.watcher.runs, r.baseline = true → ∀ t, c.changed r.agentId = some t →
      Covered c.watcher r.runId t := by
  have hcaught : Caught c := h.invariant (I := Caught) (Caught.start hruns hclock)
    fun hcaught hcalm hstep => hcaught.step hcalm hstep
  exact fun r hr hbaseline t ht => (hcaught.secured r hr hbaseline t ht).covered

/-- The run of a check that a build change has started is pinned, and covered by that check. -/
theorem promoted_run_covered : ∃ c : Changes, (∃ r ∈ c.watcher.runs, r.runId = "x" ∧
    r.baseline = true ∧ c.changed r.agentId = some 100000) ∧ Covered c.watcher "x" 100000 := by
  have hrun : (play (Changes.step 0) (fun c e => decide (Undisturbed c e))
      (Changes.start twoRuns.runs 100000) (buildCheck ++ [.poll, .promote])).any
        (fun c => c.watcher.runs.any fun r =>
          r.runId = "x" && r.baseline && c.changed r.agentId = some 100000) = true := by
    decide +kernel
  obtain ⟨c, hc, htest⟩ := (Option.any_eq_true _ _).mp hrun
  obtain ⟨r, hr, htest⟩ := List.any_eq_true.mp htest
  simp only [Bool.and_eq_true, decide_eq_true_eq] at htest
  obtain ⟨⟨hid, hbaseline⟩, hchanged⟩ := htest
  refine ⟨c, ⟨r, hr, hid, hbaseline, hchanged⟩, ?_⟩
  rw [← hid]
  exact change_covered 0 twoRuns.runs (by decide) 100000 (by decide) c
    (reaches_of_play (fun _ _ h => of_decide_eq_true h) hc) r hr hbaseline 100000 hchanged

end SystemsManager.BenchBaseline
