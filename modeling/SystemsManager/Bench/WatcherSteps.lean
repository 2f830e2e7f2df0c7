import SystemsManager.Bench.Watcher

/-!
# What the steps of the watcher do

For each event of a tick the ways in which it can end, written with the primitive writes of the
watcher, so that an invariant is proved from them without a look into the loops. The two loops that
only queue checks, over the agents whose build has changed and over the runs of a re-check, have the
common description `Queued`.
-/

namespace SystemsManager.BenchBaseline

open Python Sql

variable {tz : ℚ} {s s' : Watcher}

/-- Between the two states only checks of these runs were queued, with this trigger; an entry whose
launch is under way has stayed. -/
structure Queued (runIds : List String) (trigger : Trigger) (s s' : Watcher) : Prop where
  runs : s'.runs = s.runs
  checks : s'.checks = s.checks
  active : s'.active = s.active
  clock : s'.clock = s.clock
  quiet : s'.quietUntil = s.quietUntil
  phase : s'.phase = s.phase
  idents : s.nextIdent ≤ s'.nextIdent
  pending : ∀ b, s'.pending.get? b = s.pending.get? b ∨
    b ∈ runIds ∧ (s.pending.get? b).any (·.starting) = false ∧
      ∃ p, s'.pending.get? b = some p ∧ p.trigger = trigger ∧ p.starting = false ∧
        p.ident < s'.nextIdent

namespace Queued

variable {runIds : List String} {trigger : Trigger} {t : Watcher}

theorem refl (s : Watcher) : Queued runIds trigger s s :=
  ⟨rfl, rfl, rfl, rfl, rfl, rfl, Nat.le_refl _, fun _ => Or.inl rfl⟩

theorem trans (h : Queued runIds trigger s s') (h' : Queued runIds trigger s' t) :
    Queued runIds trigger s t where
  runs := h'.runs.trans h.runs
  checks := h'.checks.trans h.checks
  active := h'.active.trans h.active
  clock := h'.clock.trans h.clock
  quiet := h'.quiet.trans h.quiet
  phase := h'.phase.trans h.phase
  idents := h.idents.trans h'.idents
  pending b := by
    rcases h'.pending b with hsame | ⟨hb, hfree, p, hp⟩
    · rw [hsame]
      refine (h.pending b).imp_right ?_
      rintro ⟨hb, hfree, p, hp, htrigger, hstarting, hident⟩
      exact ⟨hb, hfree, p, hp, htrigger, hstarting, hident.trans_le h'.idents⟩
    · refine Or.inr ⟨hb, ?_, p, hp⟩
      rcases h.pending b with hsame | ⟨-, hfree, -⟩
      · rwa [← hsame]
      · exact hfree

theorem enqueue {runId : String} (buildFrom : String) (hmem : runId ∈ runIds)
    (hfree : (s.pending.get? runId).any (·.starting) = false) :
    Queued runIds trigger s (s.enqueue runId trigger buildFrom) where
  runs := rfl
  checks := rfl
  active := rfl
  clock := rfl
  quiet := rfl
  phase := rfl
  idents := Nat.le_succ _
  pending b := by
    show (s.pending.set runId _).get? b = _ ∨ _
    by_cases hb : b = runId
    · subst hb
      refine Or.inr ⟨hmem, hfree, ?_⟩
      refine ⟨{ trigger := trigger, buildFrom := buildFrom, ident := s.nextIdent }, ?_, rfl, rfl,
        Nat.lt_succ_self _⟩
      show (s.pending.set b _).get? b = _
      rw [Dict.get?_set, if_pos rfl]
    · left
      rw [Dict.get?_set, if_neg hb]

theorem foldl {α : Type} {f : Watcher → α → Watcher} {values : List α}
    (hf : ∀ s, ∀ a ∈ values, Queued runIds trigger s (f s a)) :
    Queued runIds trigger s (values.foldl f s) := by
  induction values generalizing s with
  | nil => exact refl s
  | cons a rest ih =>
      have hrest : ∀ s, ∀ a ∈ rest, Queued runIds trigger s (f s a) :=
        fun s a ha => hf s a (List.mem_cons_of_mem _ ha)
      exact (hf s a (List.mem_cons_self ..)).trans (ih hrest)

/-- What is pending stays pending. -/
theorem pending_some (h : Queued runIds trigger s s') {b : String}
    (hb : (s.pending.get? b).isSome = true) : (s'.pending.get? b).isSome = true := by
  rcases h.pending b with hsame | ⟨-, -, p, hp, -⟩
  · rwa [hsame]
  · rw [hp]
    rfl

end Queued

theorem mem_pinned {r : Run} : r ∈ s.pinned ↔ r ∈ s.runs ∧ r.baseline = true := by
  rw [Watcher.pinned, mem_sorted_by, List.mem_filter]

/-- `recheck` queues pinned runs. -/
theorem queued_recheck (runId : Option String) :
    Queued (s.pinned.map (·.runId)) .manual s (s.recheck runId) := by
  unfold Watcher.recheck
  -- The pinned runs stay the same during the loop, so the loop is generalised over its state.
  suffices h : ∀ (want : List String) (t : Watcher), t.pinned = s.pinned →
      Queued (s.pinned.map (·.runId)) .manual t
        (want.foldl (fun s rid => if (s.recheckSkips rid).isSome then s
          else s.enqueue rid .manual "") t) from h _ s rfl
  intro want
  induction want with
  | nil => exact fun t _ => Queued.refl t
  | cons rid rest ih =>
      intro t ht
      rw [List.foldl_cons]
      by_cases hskip : (t.recheckSkips rid).isSome = true
      · rw [if_pos hskip]
        exact ih t ht
      · rw [if_neg hskip]
        refine Queued.trans ?_ (ih (t.enqueue rid .manual "") ht)
        have hskip : t.recheckSkips rid = none := Option.not_isSome_iff_eq_none.mp hskip
        unfold Watcher.recheckSkips at hskip
        split at hskip
        · cases hskip
        · rename_i hpinned
          split at hskip
          · cases hskip
          · rename_i hfree
            rw [not_or] at hfree
            rw [Bool.not_eq_false, ht] at hpinned
            obtain ⟨b, hb, hid⟩ := List.any_eq_true.mp hpinned
            refine Queued.enqueue "" ?_ (Bool.eq_false_iff.mpr hfree.2)
            exact List.mem_map.mpr ⟨b, hb, of_decide_eq_true hid⟩

/-- `recheck` records no build. -/
theorem recheck_builds (runId : Option String) : (s.recheck runId).builds = s.builds := by
  unfold Watcher.recheck
  suffices h : ∀ (want : List String) (t : Watcher),
      (want.foldl (fun s rid => if (s.recheckSkips rid).isSome then s
        else s.enqueue rid .manual "") t).builds = t.builds from h _ s
  intro want
  induction want with
  | nil => exact fun _ => rfl
  | cons rid rest ih =>
      intro t
      rw [List.foldl_cons, ih]
      split <;> rfl

section Builds

variable {cfg : Config} {pins : List Run} {now : ℚ} {buildOf : String → String}

/-- The checks that a build change queues, for the runs of one agent. -/
def queueBuild (pins : List Run) (agentId prev : String) (s : Watcher) : Watcher :=
  (pins.filter fun b => b.agentId = agentId).foldl (fun s b =>
    if (s.pending.get? b.runId).isSome then s else s.enqueue b.runId .build prev) s

/-- A build change queues pinned runs. -/
theorem queued_queue_build (agentId prev : String) (s : Watcher) :
    Queued (pins.map (·.runId)) .build s (queueBuild pins agentId prev s) := by
  refine Queued.foldl ?_
  intro t b hb
  by_cases hpending : (t.pending.get? b.runId).isSome = true
  · rw [if_pos hpending]
    exact Queued.refl t
  · rw [if_neg hpending]
    refine Queued.enqueue prev (List.mem_map_of_mem (List.mem_filter.mp hb).1) ?_
    rw [Option.not_isSome_iff_eq_none.mp hpending]
    rfl

theorem queue_build_builds (agentId prev : String) (s : Watcher) :
    (queueBuild pins agentId prev s).builds = s.builds := by
  unfold queueBuild
  induction pins.filter fun b => b.agentId = agentId generalizing s with
  | nil => rfl
  | cons b rest ih =>
      rw [List.foldl_cons, ih]
      split <;> rfl

theorem queue_build_pending (agentId prev : String) (s : Watcher) {b : Run} (hb : b ∈ pins)
    (hagent : b.agentId = agentId) :
    ((queueBuild pins agentId prev s).pending.get? b.runId).isSome = true := by
  have hmem : b ∈ pins.filter fun b => b.agentId = agentId :=
    List.mem_filter.mpr ⟨hb, decide_eq_true hagent⟩
  unfold queueBuild
  -- Before its round anything may be pending, after its round the run is and stays so.
  have hkeeps : ∀ (rest : List Run) (t : Watcher), (t.pending.get? b.runId).isSome = true →
      ((rest.foldl (fun s b => if (s.pending.get? b.runId).isSome then s
        else s.enqueue b.runId .build prev) t).pending.get? b.runId).isSome = true := by
    intro rest
    induction rest with
    | nil => exact fun _ ht => ht
    | cons c rest ih =>
        intro t ht
        rw [List.foldl_cons]
        apply ih
        split
        · exact ht
        · show ((t.pending.set c.runId _).get? b.runId).isSome = true
          rw [Dict.get?_set]
          split
          · rfl
          · exact ht
  generalize pins.filter (fun b => b.agentId = agentId) = mine at hmem ⊢
  induction mine generalizing s with
  | nil => cases hmem
  | cons c rest ih =>
      rw [List.foldl_cons]
      rcases List.mem_cons.mp hmem with rfl | hmem
      · apply hkeeps
        split
        · assumption
        · show ((s.pending.set b.runId _).get? b.runId).isSome = true
          rw [Dict.get?_set, if_pos rfl]
          rfl
      · exact ih _ hmem

/-- `noticeBuild` with its loop named. -/
theorem notice_build_eq (s : Watcher) (agentId : String) :
    Watcher.noticeBuild cfg pins now buildOf s agentId =
      if buildOf agentId = "" ∨ (s.builds.get? agentId).map Prod.fst = some (buildOf agentId) then s
      else if ((s.builds.get? agentId).map Prod.fst).getD "" ≠ "" ∧ cfg.enabled ∧
          cfg.onBuildChange ∧ s.quietUntil.getD agentId 0 ≤ now then
        queueBuild pins agentId (((s.builds.get? agentId).map Prod.fst).getD "")
          { s with builds := s.builds.set agentId (buildOf agentId, now) }
      else { s with builds := s.builds.set agentId (buildOf agentId, now) } := rfl

theorem queued_notice_build (s : Watcher) (agentId : String) :
    Queued (pins.map (·.runId)) .build s (Watcher.noticeBuild cfg pins now buildOf s agentId) := by
  have hrecord : Queued (pins.map (·.runId)) .build s
      { s with builds := s.builds.set agentId (buildOf agentId, now) } :=
    ⟨rfl, rfl, rfl, rfl, rfl, rfl, Nat.le_refl _, fun _ => Or.inl rfl⟩
  rw [notice_build_eq]
  split
  · exact Queued.refl s
  · split
    · exact hrecord.trans (queued_queue_build _ _ _)
    · exact hrecord

theorem queued_detect (s : Watcher) :
    Queued (pins.map (·.runId)) .build s (s.detectBuildChanges cfg pins now buildOf) :=
  Queued.foldl fun t agentId _ => queued_notice_build t agentId

/-- What the loop over the agents has recorded so far: an agent has its old entry, or a new build;
where a build was known before, every pinned run of the agent is pending. -/
def Noticed (pins : List Run) (now : ℚ) (buildOf : String → String) (s t : Watcher) : Prop :=
  ∀ agentId, t.builds.get? agentId = s.builds.get? agentId ∨
    t.builds.get? agentId = some (buildOf agentId, now) ∧ buildOf agentId ≠ "" ∧
      (s.builds.get? agentId).map Prod.fst ≠ some (buildOf agentId) ∧
      (((s.builds.get? agentId).map Prod.fst).getD "" ≠ "" →
        ∀ b ∈ pins, b.agentId = agentId → (t.pending.get? b.runId).isSome = true)

theorem noticed_detect (henabled : cfg.enabled = true) (hon : cfg.onBuildChange = true)
    (hquiet : ∀ agentId, s.quietUntil.getD agentId 0 ≤ now) :
    Noticed pins now buildOf s (s.detectBuildChanges cfg pins now buildOf) := by
  unfold Watcher.detectBuildChanges
  -- The invariant of the loop also says that the quiet windows have stayed.
  suffices h : ∀ (agents : List String) (t : Watcher), t.quietUntil = s.quietUntil →
      Noticed pins now buildOf s t →
      Noticed pins now buildOf s (agents.foldl (Watcher.noticeBuild cfg pins now buildOf) t) from
    h _ s rfl fun _ => Or.inl rfl
  intro agents
  induction agents with
  | nil => exact fun _ _ ht => ht
  | cons agentId rest ih =>
      intro t hquiets ht
      rw [List.foldl_cons]
      have hqueued : Queued (pins.map (·.runId)) .build t
          (Watcher.noticeBuild cfg pins now buildOf t agentId) := queued_notice_build t agentId
      apply ih _ (hqueued.quiet.trans hquiets)
      intro other
      by_cases hother : other = agentId
      · subst hother
        by_cases hsame : buildOf other = "" ∨
            (t.builds.get? other).map Prod.fst = some (buildOf other)
        · rw [notice_build_eq, if_pos hsame]
          exact ht other
        · rcases ht other with hold | ⟨hnew, -⟩
          · right
            rw [notice_build_eq, if_neg hsame]
            rw [not_or] at hsame
            rw [← hold]
            refine ⟨?_, hsame.1, hsame.2, ?_⟩
            · split
              · rw [queue_build_builds]
                show (t.builds.set other _).get? other = _
                rw [Dict.get?_set, if_pos rfl]
              · show (t.builds.set other _).get? other = _
                rw [Dict.get?_set, if_pos rfl]
            · intro hprev b hb hagent
              rw [if_pos ⟨hprev, henabled, hon, hquiets ▸ hquiet other⟩]
              exact queue_build_pending _ _ _ hb hagent
          · exact absurd (Or.inr (by rw [hnew]; rfl)) hsame
      · have hbuilds : (Watcher.noticeBuild cfg pins now buildOf t agentId).builds.get? other =
            t.builds.get? other := by
          have hset : (t.builds.set agentId (buildOf agentId, now)).get? other =
              t.builds.get? other := by
            rw [Dict.get?_set, if_neg hother]
          rw [notice_build_eq]
          split
          · rfl
          · split
            · rw [queue_build_builds]
              exact hset
            · exact hset
        rw [hbuilds]
        refine (ht other).imp_right ?_
        rintro ⟨hnew, hbuild, hprev, hpending⟩
        exact ⟨hnew, hbuild, hprev, fun hknown b hb hagent =>
          hqueued.pending_some (hpending hknown b hb hagent)⟩

end Builds

/-- How the round of `_poll_active` for one check can end. -/
inductive Polled (now : ℚ) (pins : List Run) (rid : String) (act : Active) (s : Watcher) :
    Watcher → Option (Run × String) → Prop
  | unpinned (hpins : ∀ b ∈ pins, b.runId ≠ rid) :
      Polled now pins rid act s
        { s.dropActive rid with
          checks := s.checks.map fun c =>
            if c.id = act.checkId then
              { c with ts := now, status := .skipped, error := some "baseline unpinned" }
            else c } none
  | waiting : Polled now pins rid act s s none
  | settled (b : Run) (o : Outcome) (hb : b ∈ pins) (hid : b.runId = rid)
      (hstatus : o.status ≠ .running) (hpromoted : o.promoted = false) :
      Polled now pins rid act s ((s.dropActive rid).settleCheck b act.checkId o) none
  | promotes (b : Run) (o : Outcome) (hb : b ∈ pins) (hid : b.runId = rid)
      (hstatus : o.status ≠ .running) (hpromoted : o.promoted = true)
      (htrigger : act.trigger = .build) :
      Polled now pins rid act s ((s.dropActive rid).settleCheck b act.checkId o)
        (some (b, act.runId))

/-- A finished check is settled. -/
theorem finished_status (cfg : Config) (b : Run) (act : Active) (run : Run) :
    (Watcher.finished cfg b act run).status ≠ .running := by
  have h : ∀ regressed measured : Bool,
      (if regressed then Status.regressed else if measured then .ok else .failed) ≠ .running := by
    decide
  exact h _ _

theorem polled (cfg : Config) (now : ℚ) (pins : List Run) (rid : String) (act : Active)
    (s : Watcher) :
    Polled now pins rid act s (s.pollOne cfg now pins rid act).1
      (s.pollOne cfg now pins rid act).2 := by
  unfold Watcher.pollOne
  split
  · rename_i hnone
    refine .unpinned fun b hb => ?_
    simpa using List.find?_eq_none.mp hnone b hb
  · rename_i b hb
    have hmem := List.mem_of_find?_eq_some hb
    have hid : b.runId = rid := by simpa using List.find?_some hb
    split
    · split
      · exact .settled b { status := .failed, error := some "timed out" } hmem hid (by simp) rfl
      · exact .waiting
    · rename_i run hrun
      dsimp only
      split
      · rename_i hpromoted
        refine .promotes b _ hmem hid (finished_status _ _ _ _) hpromoted ?_
        simp only [Watcher.finished, Bool.and_eq_true, decide_eq_true_eq] at hpromoted
        exact hpromoted.1.1
      · rename_i hpromoted
        exact .settled b _ hmem hid (finished_status _ _ _ _) (Bool.eq_false_iff.mpr hpromoted)

/-- How `_prep_start` can end for an entry, or that it is not called yet. -/
inductive Started (b : Run) (pend : Pending) (s : Watcher) : Watcher → Option Item → Prop
  | waits : Started b pend s s none
  | skips (error build : String) :
      Started b pend s
        ((s.insertCheck b pend.trigger { status := .skipped, error := some error } none build
          "").dropPending b.runId) none
  | item (body : List (String × Json)) (build : String) (hfree : pend.starting = false) :
      Started b pend s (s.putPending b.runId { pend with starting := true })
        (some { run := b, pend := pend, body := body, build := build })

/-- How the round of the loop over the pinned runs can end. -/
inductive Planned (tz : ℚ) (cfg : Config) (now : ℚ) (since : Option ℚ) (b : Run) (s : Watcher) :
    Watcher → Option Item → Prop
  | stays : Planned tz cfg now since b s s none
  | known (pend : Pending) (s' : Watcher) (item : Option Item)
      (hactive : s.active.get? b.runId = none) (hpend : s.pending.get? b.runId = some pend)
      (hstart : Started b pend s s' item) : Planned tz cfg now since b s s' item
  | due (s' : Watcher) (item : Option Item) (hactive : s.active.get? b.runId = none)
      (hpend : s.pending.get? b.runId = none)
      (hdue : nightlyDue tz now cfg.nightlyAt (s.lastAutoTs b.runId) since = true)
      (hstart : Started b { trigger := .nightly, ident := s.nextIdent }
        (s.enqueue b.runId .nightly "") s' item) : Planned tz cfg now since b s s' item

theorem started (s : Watcher) (b : Run) (pend : Pending) (hosts : List Host) (build : String)
    (hfree : pend.starting = false) :
    Started b pend s (s.prepStart b pend hosts build).1 (s.prepStart b pend hosts build).2 := by
  unfold Watcher.prepStart
  dsimp only
  split
  · exact .skips "host offline" build
  · split
    · exact .skips "model not loaded on the host" build
    · split
      · exact .skips "baseline has no stored config" build
      · exact .item _ build hfree

theorem planned (cfg : Config) (now : ℚ) (since : Option ℚ) (hosts : List Host) (build : String)
    (s : Watcher) (b : Run) :
    Planned tz cfg now since b s (Watcher.planOne tz cfg now since hosts build s b).1
      (Watcher.planOne tz cfg now since hosts build s b).2 := by
  have hstart : ∀ (t : Watcher) (pend : Pending), Started b pend t
      (if pend.starting ∨ now < pend.retryAt then (t, none) else t.prepStart b pend hosts build).1
      (if pend.starting ∨ now < pend.retryAt then (t, none)
        else t.prepStart b pend hosts build).2 := by
    intro t pend
    split
    · exact .waits
    · rename_i hready
      rw [not_or] at hready
      exact started t b pend hosts build (Bool.eq_false_iff.mpr hready.1)
  unfold Watcher.planOne
  dsimp only
  split
  · exact .stays
  · rename_i hactive
    have hactive := Option.not_isSome_iff_eq_none.mp hactive
    split
    · rename_i pend hpend
      exact .known pend _ _ hactive hpend (hstart s pend)
    · rename_i hpend
      split
      · rename_i hdue
        exact .due _ _ hactive hpend hdue.2 (hstart _ _)
      · exact .stays

/-- How `_launch` can end. -/
inductive Launched (now : ℚ) (item : Item) (answer : Except String String) (s : Watcher) :
    Watcher → Prop
  | stale (hstale : (s.pending.get? item.run.runId).all fun p => p.ident ≠ item.pend.ident) :
      Launched now item answer s s
  | accepted (runId : String) (pend : Pending) (hanswer : answer = .ok runId)
      (hpend : s.pending.get? item.run.runId = some pend) :
      Launched now item answer s
        { (s.insertCheck item.run pend.trigger { status := .running } (some runId) item.build
            pend.buildFrom).dropPending item.run.runId with
          active := s.active.set item.run.runId
            { runId := runId, started := now, trigger := pend.trigger, build := item.build
              buildFrom := pend.buildFrom, checkId := nextId s.checks } }
  | settled (text error : String) (status : Status) (pend : Pending)
      (hanswer : answer = .error text) (hpend : s.pending.get? item.run.runId = some pend)
      (hstatus : status ≠ .running) :
      Launched now item answer s
        ((s.insertCheck item.run pend.trigger { status := status, error := some error } none
          item.build "").dropPending item.run.runId)
  | retried (text : String) (pend pend' : Pending) (hanswer : answer = .error text)
      (hpend : s.pending.get? item.run.runId = some pend) (htrigger : pend'.trigger = pend.trigger)
      (hident : pend'.ident = pend.ident) (hfree : pend'.starting = false) :
      Launched now item answer s (s.putPending item.run.runId pend')

theorem launched (s : Watcher) (now : ℚ) (item : Item) (answer : Except String String) :
    Launched now item answer s (s.launched now item answer) := by
  unfold Watcher.launched
  dsimp only
  split
  · rename_i hnone
    exact .stale (by rw [hnone]; rfl)
  · rename_i pend hpend
    split
    · rename_i hident
      exact .stale (by rw [hpend]; simpa using hident)
    · cases answer with
      | ok runId => exact .accepted runId pend rfl hpend
      | error text =>
          dsimp only
          split
          · split
            · exact .settled text _ .skipped pend rfl hpend (by simp)
            · exact .retried text pend _ rfl hpend rfl rfl rfl
          · split
            · exact .settled text _ .failed pend rfl hpend (by simp)
            · exact .retried text pend _ rfl hpend rfl rfl rfl

theorem schedule_since_eq (s : Watcher) (cfg : Config) (now : ℚ) :
    ∃ schedule, (s.scheduleSince cfg now).1 = { s with schedule := schedule } := by
  unfold Watcher.scheduleSince
  split
  · split
    · split
      · exact ⟨s.schedule, rfl⟩
      · exact ⟨_, rfl⟩
    · exact ⟨_, rfl⟩
  · exact ⟨_, rfl⟩

/-- The two states have the same runs, clock, quiet windows and recorded builds. -/
def SameOutside (s s' : Watcher) : Prop :=
  s'.runs = s.runs ∧ s'.clock = s.clock ∧ s'.quietUntil = s.quietUntil ∧ s'.builds = s.builds

theorem Polled.same {now : ℚ} {pins : List Run} {rid : String} {act : Active}
    {promoted : Option (Run × String)} (h : Polled now pins rid act s s' promoted) :
    SameOutside s s' := by
  cases h <;> exact ⟨rfl, rfl, rfl, rfl⟩

theorem Planned.same {cfg : Config} {now : ℚ} {since : Option ℚ} {b : Run} {item : Option Item}
    (h : Planned tz cfg now since b s s' item) : SameOutside s s' := by
  cases h with
  | stays => exact ⟨rfl, rfl, rfl, rfl⟩
  | known pend _ _ hactive hpend hstart => cases hstart <;> exact ⟨rfl, rfl, rfl, rfl⟩
  | due _ _ hactive hpend hdue hstart => cases hstart <;> exact ⟨rfl, rfl, rfl, rfl⟩

theorem Launched.same {now : ℚ} {item : Item} {answer : Except String String}
    (h : Launched now item answer s s') : SameOutside s s' := by
  cases h <;> exact ⟨rfl, rfl, rfl, rfl⟩

theorem stored_runs (hunique : (s.runs.map (·.runId)).Nodup) (run : Run)
    (mine : Run → Bool) (n : ℕ) :
    let runs := keepNewest mine (·.baseline) n
      (if (s.readRun run.runId).isSome then s.runs else { run with baseline := false } :: s.runs)
    (runs.map (·.runId)).Nodup ∧ (∀ r ∈ runs, r.baseline = true → r ∈ s.runs) ∧
      ∀ r ∈ s.runs, r.baseline = true → r ∈ runs := by
  refine ⟨((keep_newest_sublist _ _).map _).nodup ?_, ?_, ?_⟩
  · split
    · exact hunique
    · rename_i hnone
      refine List.nodup_cons.mpr ⟨fun hmem => ?_, hunique⟩
      obtain ⟨r, hr, hid⟩ := List.mem_map.mp hmem
      have hnone := List.find?_eq_none.mp (Option.not_isSome_iff_eq_none.mp hnone) r hr
      exact hnone (decide_eq_true hid)
  · intro r hr hpinned
    have hr := mem_of_keep_newest hr
    split at hr
    · exact hr
    · rcases List.mem_cons.mp hr with rfl | hr
      · cases hpinned
      · exact hr
  · intro r hr hpinned
    refine keep_newest_others ?_ (Or.inr hpinned)
    split
    · exact hr
    · exact List.mem_cons_of_mem _ hr

end SystemsManager.BenchBaseline
