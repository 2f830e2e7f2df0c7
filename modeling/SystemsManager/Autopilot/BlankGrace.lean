import SystemsManager.Autopilot.Debounce
import SystemsManager.Autopilot.LedgerChain
import SystemsManager.Autopilot.Proposals
import SystemsManager.Autopilot.Replicas

/-!
# Blank samples

A provider that does not answer for a while lists nothing, and a confirmed placement survives that
for `BLANK_GRACE_S`: the debounce puts it back into the observation, from which the same tick prunes
the ledger and plans. `Holds` is what this feedback keeps of a placement. Read `blank_samples_held`:
while every stretch of blank samples is shorter than the grace, each plan counts the agent among the
placements of the entry, counts as many as if each blank sample had shown the model, and places
nothing of the entry on the agent.
-/

namespace SystemsManager.Autopilot

open Python

/-- The placement of an entry on an agent is confirmed, and since when the agent is blank. -/
structure Holds (e : Entry) (aid : String) (r : Reconciler) (start : Option ℚ) : Prop where
  confirmed : aid ∈ r.ledger.confirmed.getD e.key []
  placed : ((r.ledger.placedAt.getD e.key ∅).get? aid).isSome = true
  since : (r.ledger.blankSince.getD e.key ∅).get? aid = start

/-- A tick in which the entry stays desired and the agent reports, with a sample that shows the
model or is blank. -/
structure Steady (e : Entry) (aid : String) (t : TickInput) : Prop where
  desired : t.desired.keys.contains e.key = true
  sampled : t.observed.shows e aid = true ∨ t.observed.blank aid e.provider = true

/-- No action that the tick runs is one for the entry on the agent. -/
def Untouched (e : Entry) (aid : String) (t : TickInput) (r : Reconciler) : Prop :=
  ∀ actions, plannedBy t r = .ok actions →
    ∀ a ∈ actions, a.auto = true → a.entryKey = e.key → a.agentId ≠ aid

/-- A run of such ticks. -/
def SteadyRun (newId : ℕ → String) (e : Entry) (aid : String) : Reconciler → List TickInput → Prop
  | _, [] => True
  | r, t :: rest => Steady e aid t ∧ Untouched e aid t r ∧
      SteadyRun newId e aid (r.tick newId t).1 rest

/-- When the stretch of blank samples that is under way after a tick began. -/
def stretchAfter (aid : String) (p : Provider) (start : Option ℚ) (t : TickInput) : Option ℚ :=
  if t.observed.blank aid p then some (start.getD t.now) else none

/-- Every stretch of blank samples lasts less than the grace. -/
def ShortStretches (aid : String) (p : Provider) : Option ℚ → List TickInput → Prop
  | _, [] => True
  | start, t :: rest =>
      (t.observed.blank aid p = true → t.now - start.getD t.now < BLANK_GRACE_S) ∧
      ShortStretches aid p (stretchAfter aid p start t) rest

/-- The tick as it would be had the sample of the agent shown the model. -/
def TickInput.showing (t : TickInput) (e : Entry) (aid : String) : TickInput :=
  match t.observed.agents.get? aid with
  | some a => { t with observed := { t.observed with
      agents := t.observed.agents.set aid { a with
        loaded := fun p => if p = e.provider then [e.model] else a.loaded p } } }
  | none => t

/-- The inputs of the plan of a tick. -/
def inputsOf (t : TickInput) (r : Reconciler) : Inputs :=
  ⟨t.desired, (prepare t r).2, (prepare t r).1.toLedger, t.now⟩

section Ledger

variable {e : Entry} {aid : String} {t : TickInput} {r : Reconciler} {start : Option ℚ}

/-- The ledger that a tick debounces. -/
def pruned (t : TickInput) (r : Reconciler) : FullLedger :=
  pruneStaleKeys t.desired t.observed r.ledger

/-- The observation that a tick plans with, but for the saturation history. -/
def debounced (t : TickInput) (r : Reconciler) : Observed :=
  (debounceBlank t.observed t.now (pruned t r)).2

/-- The agent is observed. -/
theorem Steady.observed (h : Steady e aid t) : (t.observed.agents.get? aid).isSome = true := by
  rcases h.sampled with hshows | hblank
  · unfold Observed.shows at hshows
    split at hshows
    · rename_i hget
      rw [hget]
      rfl
    · cases hshows
  · unfold Observed.blank at hblank
    split at hblank
    · rename_i hget
      rw [hget]
      rfl
    · cases hblank

theorem getD_known {ν : Type} {d : Dict String ν} {desired : Desired} {k : String} {default : ν}
    (h : desired.keys.contains k = true) :
    (d.filter fun k _ => desired.keys.contains k).getD k default = d.getD k default := by
  unfold Dict.getD
  rw [Dict.get?_filter]
  cases d.get? k with
  | none => rfl
  | some value => rw [Option.filter_some, if_pos h]

theorem holds_pruned (h : Holds e aid r start) (hsteady : Steady e aid t) :
    aid ∈ (pruned t r).confirmed.getD e.key [] ∧
    (((pruned t r).placedAt.getD e.key ∅).get? aid).isSome = true ∧
    ((pruned t r).blankSince.getD e.key ∅).get? aid = start := by
  refine ⟨?_, ?_, ?_⟩
  · show aid ∈ (r.ledger.confirmed.filter fun k _ => t.desired.keys.contains k).getD e.key []
    rw [getD_known hsteady.desired]
    exact h.confirmed
  · show (((r.ledger.placedAt.filter fun k _ => t.desired.keys.contains k).getD e.key ∅).get?
      aid).isSome = true
    rw [getD_known hsteady.desired]
    exact h.placed
  · show (((r.ledger.blankSince.filter fun k _ => t.desired.keys.contains k).mapItems
      fun _ amap => amap.filter fun aid _ => (t.observed.agents.get? aid).isSome).getD e.key ∅).get?
        aid = start
    rw [rows_map_filter (p := fun _ aid _ => (t.observed.agents.get? aid).isSome),
      getD_known hsteady.desired, h.since]
    cases start with
    | none => rfl
    | some since => rw [Option.filter_some, if_pos hsteady.observed]

theorem held_shows (h : Holds e aid r start) (hsteady : Steady e aid t)
    (hshort : t.observed.blank aid e.provider = true → t.now - start.getD t.now < BLANK_GRACE_S) :
    (debounced t r).shows e aid = true := by
  obtain ⟨hconfirmed, -, hsince⟩ := holds_pruned h hsteady
  refine debounced_shows.mpr ?_
  rcases hsteady.sampled with hshows | hblank
  · exact Or.inl hshows
  · refine Or.inr (kept_of_confirmed hconfirmed hblank ?_)
    have hread : ((pruned t r).blankSince.getD e.key ∅).getD aid t.now = start.getD t.now := by
      show (Dict.get? _ aid).getD t.now = _
      rw [hsince]
    rw [hread]
    exact hshort hblank

theorem answers_of_shows {observed : Observed} (h : observed.shows e aid = true) :
    observed.answers aid e.provider = true := by
  unfold Observed.shows at h
  unfold Observed.answers
  split at h
  · obtain ⟨hreporting, hloaded⟩ := Bool.and_eq_true_iff.mp h
    rename_i a _
    have hsome : (a.loaded e.provider).isEmpty = false := by
      cases hlist : a.loaded e.provider with
      | nil =>
          rw [hlist] at hloaded
          cases hloaded
      | cons _ _ => rfl
    simp [sampleBlank, hsome, hreporting]
  · cases h

theorem debounced_since (h : Holds e aid r start) (hsteady : Steady e aid t) :
    ((debounceBlank t.observed t.now (pruned t r)).1.blankSince.getD e.key ∅).get? aid =
      stretchAfter aid e.provider start t := by
  obtain ⟨hconfirmed, -, hsince⟩ := holds_pruned h hsteady
  obtain ⟨aids, haids, hmem⟩ : ∃ aids, (pruned t r).confirmed.get? e.key = some aids ∧
    aid ∈ aids := by
    unfold Dict.getD at hconfirmed
    cases hget : (pruned t r).confirmed.get? e.key with
    | none =>
        rw [hget] at hconfirmed
        cases hconfirmed
    | some aids =>
        rw [hget] at hconfirmed
        exact ⟨aids, rfl, hconfirmed⟩
  have hp : Provider.ofName? (keyParts e.key).2 = some e.provider := by
    rw [key_parts_entry]
    exact of_name_name e.provider
  show ((scanConfirmed t.observed t.now (pruned t r).confirmed.items
    (pruned t r).blankSince).1.getD e.key ∅).get? aid = _
  rw [scan_confirmed_since (pruned t r).confirmed.nodup (Dict.mem_items_iff.mpr haids) hp,
    scan_blank_since]
  unfold stretchAfter
  by_cases hblank : t.observed.blank aid e.provider = true
  · rw [if_pos ⟨hmem, hblank⟩, if_pos hblank]
    show some ((Dict.get? _ aid).getD t.now) = _
    rw [hsince]
  · have hanswers : t.observed.answers aid e.provider = true := by
      rcases hsteady.sampled with hshows | hwas
      · exact answers_of_shows hshows
      · exact absurd hwas hblank
    rw [if_neg fun hboth => hblank hboth.2, if_pos ⟨hmem, hanswers⟩, if_neg hblank]

theorem mem_confirm_rows {observed : Observed} {rows : List (String × Dict String ℚ)}
    {confirmed : Dict String (List String)} {k : String} (h : aid ∈ confirmed.getD k []) :
    aid ∈ (rows.foldl (confirmRows observed) confirmed).getD k [] := by
  have hone : ∀ {confirmed : Dict String (List String)} {key other : String},
      aid ∈ confirmed.getD k [] → aid ∈ (confirm key other confirmed).getD k [] := by
    intro confirmed key other hmem
    unfold confirm
    dsimp only
    rw [Dict.getD_set]
    split
    · rename_i hk
      subst hk
      split
      · exact hmem
      · exact List.mem_append_left _ hmem
    · exact hmem
  have hrow : ∀ {aids : List String} {key : String} {confirmed : Dict String (List String)},
      aid ∈ confirmed.getD k [] → aid ∈ (aids.foldl (fun confirmed other =>
        if (reportedKey key observed).contains other then confirm key other confirmed
        else confirmed) confirmed).getD k [] := by
    intro aids key confirmed hmem
    induction aids generalizing confirmed with
    | nil => exact hmem
    | cons other rest ih =>
        refine ih ?_
        dsimp only
        split
        · exact hone hmem
        · exact hmem
  induction rows generalizing confirmed with
  | nil => exact h
  | cons row rest ih => exact ih (hrow h)

theorem holds_prepared (h : Holds e aid r start) (hsteady : Steady e aid t)
    (hshort : t.observed.blank aid e.provider = true → t.now - start.getD t.now < BLANK_GRACE_S) :
    Holds e aid { r with ledger := (prepare t r).1 } (stretchAfter aid e.provider start t) := by
  obtain ⟨hconfirmed, hplaced, -⟩ := holds_pruned h hsteady
  have hreported : (reportedKey e.key (debounced t r)).contains aid = true := by
    rw [reported_key_entry, placements_shown, List.contains_iff_mem, List.mem_filter]
    have hshows := held_shows h hsteady hshort
    refine ⟨?_, hshows⟩
    unfold Observed.shows at hshows
    split at hshows
    · rename_i hget
      exact Dict.mem_keys_of_get hget
    · cases hshows
  have hrow : (((prepare t r).1.placedAt.getD e.key ∅).get? aid).isSome = true := by
    show ((((pruned t r).placedAt.mapItems fun k amap =>
      amap.filter (keepsRow (debounced t r) t.now k)).getD e.key ∅).get? aid).isSome = true
    rw [rows_map_filter (p := keepsRow (debounced t r) t.now)]
    obtain ⟨ts, hts⟩ := Option.isSome_iff_exists.mp hplaced
    have hkeeps : keepsRow (debounced t r) t.now e.key aid ts = true := by
      unfold keepsRow
      rw [hreported]
      rfl
    rw [hts, Option.filter_some, if_pos hkeeps]
    rfl
  have hstill : aid ∈ (prepare t r).1.confirmed.getD e.key [] := by
    show aid ∈ (((((pruned t r).placedAt.items.foldl (confirmRows (debounced t r))
      (pruned t r).confirmed).mapItems fun k aids => aids.filter fun aid =>
        (((prepare t r).1.placedAt.getD k ∅).get? aid).isSome).filter
          fun _ aids => !aids.isEmpty).getD e.key [])
    rw [members_filter_nonempty, members_map_filter
      (p := fun k aid => (((prepare t r).1.placedAt.getD k ∅).get? aid).isSome)]
    exact List.mem_filter.mpr ⟨mem_confirm_rows hconfirmed, hrow⟩
  refine ⟨hstill, hrow, ?_⟩
  show ((((debounceBlank t.observed t.now (pruned t r)).1.blankSince.mapItems fun k amap =>
    amap.filter fun aid _ => ((prepare t r).1.confirmed.getD k []).contains aid).filter
      fun _ amap => !amap.items.isEmpty).getD e.key ∅).get? aid = _
  rw [rows_filter_nonempty, rows_map_filter
    (p := fun k aid _ => ((prepare t r).1.confirmed.getD k []).contains aid),
    debounced_since h hsteady]
  cases stretchAfter aid e.provider start t with
  | none => rfl
  | some since => rw [Option.filter_some, if_pos (List.contains_iff_mem.mpr hstill)]

end Ledger

section Runs

variable {newId : ℕ → String} {e : Entry} {aid : String} {t : TickInput} {r : Reconciler}
  {start : Option ℚ}

theorem holds_run_action {a : Action} {attempt : Attempt} {now : ℚ} (h : Holds e aid r start)
    (hother : ¬(e.key = a.entryKey ∧ aid = a.agentId)) :
    Holds e aid { r with ledger := (runAction a attempt now r.ledger).1 } start := by
  cases attempt with
  | busy => exact ⟨h.confirmed, h.placed, h.since⟩
  | busyRaises => exact ⟨h.confirmed, h.placed, h.since⟩
  | raises => exact ⟨h.confirmed, h.placed, h.since⟩
  | returns ok =>
      show Holds e aid { r with ledger := settleRun a now ok ((r.ledger.enter a).leave a) } start
      unfold settleRun
      split
      · refine ⟨mem_confirmed_after.mpr ⟨h.confirmed, hother⟩, ?_, ?_⟩
        · show (((placedAfter a now r.ledger.placedAt).getD e.key ∅).get? aid).isSome = true
          rw [placed_after_other hother]
          exact h.placed
        · show ((blankAfter a r.ledger.blankSince).getD e.key ∅).get? aid = start
          rw [blank_after, if_neg hother]
          exact h.since
      split
      · exact ⟨h.confirmed, h.placed, h.since⟩
      split
      · exact ⟨h.confirmed, h.placed, h.since⟩
      · exact ⟨h.confirmed, h.placed, h.since⟩

theorem holds_handle {actions : List Action} {n : ℕ} (h : Holds e aid r start)
    (huntouched : ∀ a ∈ actions, a.auto = true → a.entryKey = e.key → a.agentId ≠ aid) :
    Holds e aid (handleActions newId t n actions r).1 start := by
  induction actions generalizing n r with
  | nil => exact h
  | cons a rest ih =>
      have hrest : ∀ b ∈ rest, b.auto = true → b.entryKey = e.key → b.agentId ≠ aid :=
        fun b hb => huntouched b (List.mem_cons_of_mem _ hb)
      unfold handleActions
      by_cases hauto : a.auto = true
      · rw [if_pos hauto]
        have hother : ¬(e.key = a.entryKey ∧ aid = a.agentId) := fun hsame =>
          huntouched a (List.mem_cons_self ..) hauto hsame.1.symm hsame.2.symm
        have hran : Holds e aid { r with ledger := (runAction a (t.attempt n) t.now r.ledger).1 }
            start := holds_run_action h hother
        split
        · rename_i ledger hraised
          rw [hraised] at hran
          exact hran
        · rename_i ledger ok hdone
          rw [hdone] at hran
          exact ih hran hrest
      · rw [if_neg hauto]
        have hproposed : Holds e aid (propose newId a t.now r) start := by
          unfold propose
          split
          · exact h
          · exact ⟨h.confirmed, h.placed, h.since⟩
        exact ih hproposed hrest

/-- A tick keeps the placement. -/
theorem holds_tick (h : Holds e aid r start) (hsteady : Steady e aid t)
    (huntouched : Untouched e aid t r)
    (hshort : t.observed.blank aid e.provider = true → t.now - start.getD t.now < BLANK_GRACE_S) :
    Holds e aid (r.tick newId t).1 (stretchAfter aid e.provider start t) := by
  have hprepared := holds_prepared h hsteady hshort
  unfold Reconciler.tick
  dsimp only
  split
  · exact ⟨hprepared.confirmed, hprepared.placed, hprepared.since⟩
  · rename_i actions hplan
    have hkept : Holds e aid { r with
        ledger := (prepare t r).1
        satHistory := (prepare t r).2.satHistory
        proposals := r.proposals.filter fun _ p => (actions.map Action.sig).contains p.sig }
        (stretchAfter aid e.provider start t) :=
      ⟨hprepared.confirmed, hprepared.placed, hprepared.since⟩
    have hhandled := @holds_handle newId e aid t _ _ actions 0 hkept (huntouched actions hplan)
    split
    · rename_i hend
      rw [hend] at hhandled
      exact hhandled
    · rename_i hend
      rw [hend] at hhandled
      exact hhandled

theorem holds_at {ticks before after : List TickInput} (h : Holds e aid r start)
    (hsteady : SteadyRun newId e aid r ticks) (hshort : ShortStretches aid e.provider start ticks)
    (hticks : ticks = before ++ t :: after) :
    ∃ start', Holds e aid (r.run newId (before.map .tick)) start' ∧ Steady e aid t ∧
      (t.observed.blank aid e.provider = true → t.now - start'.getD t.now < BLANK_GRACE_S) := by
  induction before generalizing r start ticks with
  | nil =>
      subst hticks
      exact ⟨start, h, hsteady.1, hshort.1⟩
  | cons first rest ih =>
      subst hticks
      obtain ⟨hfirst, huntouched, hrest⟩ := hsteady
      exact ih (holds_tick h hfirst huntouched hshort.1) hrest hshort.2 rfl

end Runs

section Plans

variable {inp : Inputs} {e : Entry}

theorem effective_of_key {e' : Entry} (h : e'.key = e.key) :
    inp.effective e' = inp.effective e := by
  obtain ⟨hmodel, hprovider⟩ := key_inj h
  unfold Inputs.effective effectivePlacements placements
  rw [h, hmodel, hprovider]

theorem plan_places_wanted {actions : List Action}
    (h : plan inp.desired inp.observed inp.ledger inp.now = .ok actions) {a : Action}
    (ha : a ∈ actions) (hplaces : a.kind.places = true) (hkey : a.entryKey = e.key) :
    a.agentId ∉ inp.effective e ∧ ∃ e' ∈ inp.desired.entries, e'.key = e.key ∧ inp.Wants e' := by
  obtain ⟨st, hmoves, rfl⟩ := plan_moves h
  have hall : ∀ {st}, Moves inp (initState inp) st → ∀ a ∈ st.actions, a.kind.places = true →
      ∃ e' ∈ inp.desired.entries, a.entryKey = e'.key ∧ inp.Eligible e' a.agentId := by
    intro st hst
    induction hst with
    | refl => exact fun a ha => nomatch ha
    | tail _ hmove ih =>
        cases hmove with
        | note k placed => exact ih
        | place e' kind purpose reason aid migrations hentry _ heligible _ =>
            intro a ha hplaces
            rcases mem_placement ha hplaces with hold | rfl
            · exact ih a hold hplaces
            · exact ⟨e', hentry, rfl, heligible⟩
        | reclaim act hkind =>
            intro a ha hplaces
            rcases List.mem_append.mp ha with hold | hnew
            · exact ih a hold hplaces
            · rw [List.mem_singleton.mp hnew, hkind] at hplaces
              cases hplaces
  obtain ⟨e', hentry, hkey', heligible⟩ := hall hmoves a ha hplaces
  have hsame : e'.key = e.key := hkey'.symm.trans hkey
  rw [← effective_of_key hsame]
  exact ⟨heligible.not_placed, e', hentry, hsame, heligible.wants⟩

end Plans

section Showing

variable {e : Entry} {aid other : String} {t : TickInput} {r : Reconciler} {start : Option ℚ}

/-- The other agents are as they were. -/
theorem showing_other (h : other ≠ aid) :
    (t.showing e aid).observed.agents.get? other = t.observed.agents.get? other := by
  unfold TickInput.showing
  split
  · exact (Dict.get?_set ..).trans (if_neg h)
  · rfl

theorem showing_keys : (t.showing e aid).observed.agents.keys = t.observed.agents.keys := by
  unfold TickInput.showing
  split
  · rename_i a hget
    exact (keys_set_items _ _ _).trans (if_pos (Dict.mem_keys_of_get hget))
  · rfl

theorem showing_agent {f : Agent → Bool}
    (hf : ∀ (a : Agent) (loaded : Provider → List String), f { a with loaded := loaded } = f a) :
    ((t.showing e aid).observed.agents.get? other).map f =
      (t.observed.agents.get? other).map f := by
  by_cases h : other = aid
  · subst h
    unfold TickInput.showing
    cases hget : t.observed.agents.get? other with
    | none =>
        dsimp only
        rw [hget]
    | some a =>
        dsimp only
        rw [Dict.get?_set, if_pos rfl]
        exact congrArg some (hf a _)
  · rw [showing_other h]

/-- The same ledger is debounced. -/
theorem pruned_showing : pruned (t.showing e aid) r = pruned t r := by
  have hthere : ∀ id, ((t.showing e aid).observed.agents.get? id).isSome =
      (t.observed.agents.get? id).isSome := by
    intro id
    have hmap := @showing_agent e aid id t (fun _ => true) fun _ _ => rfl
    have hsome := congrArg Option.isSome hmap
    simpa using hsome
  have hdesired : (t.showing e aid).desired = t.desired := by
    unfold TickInput.showing
    split <;> rfl
  unfold pruned pruneStaleKeys
  rw [hdesired]
  simp only [hthere]

theorem showing_now : (t.showing e aid).now = t.now := by
  unfold TickInput.showing
  split <;> rfl

/-- The agent shows the model. -/
theorem showing_shows (h : Steady e aid t) : (t.showing e aid).observed.shows e aid = true := by
  obtain ⟨a, hget⟩ := Option.isSome_iff_exists.mp h.observed
  have hreporting : a.reporting = true := by
    rcases h.sampled with hshows | hblank
    · unfold Observed.shows at hshows
      rw [hget] at hshows
      exact (Bool.and_eq_true_iff.mp hshows).1
    · unfold Observed.blank at hblank
      rw [hget] at hblank
      exact (Bool.and_eq_true_iff.mp hblank).1
  unfold TickInput.showing Observed.shows
  rw [hget]
  dsimp only
  rw [Dict.get?_set, if_pos rfl]
  have hsame : Agent.reporting { a with
      loaded := fun p => if p = e.provider then [e.model] else a.loaded p } = true := hreporting
  simp [hsame]

/-- Such a tick is steady too. -/
theorem showing_steady (h : Steady e aid t) : Steady e aid (t.showing e aid) := by
  refine ⟨?_, Or.inl (showing_shows h)⟩
  have hdesired : (t.showing e aid).desired = t.desired := by
    unfold TickInput.showing
    split <;> rfl
  rw [hdesired]
  exact h.desired

theorem kept_showing {p : Provider} {model : String} (h : other ≠ aid) :
    (other, p, model) ∈ keptPlaces (t.showing e aid).observed t.now (pruned t r) ↔
      (other, p, model) ∈ keptPlaces t.observed t.now (pruned t r) := by
  have hblank : (t.showing e aid).observed.blank other p = t.observed.blank other p := by
    unfold Observed.blank
    rw [showing_other h]
  unfold keptPlaces
  rw [mem_scan_confirmed (pruned t r).confirmed.nodup,
    mem_scan_confirmed (pruned t r).confirmed.nodup]
  refine exists_congr fun row => and_congr_right fun _ => exists_congr fun q =>
    and_congr_right fun _ => exists_congr fun id => and_congr_right fun _ =>
      and_congr_right fun hplace => and_congr_left fun _ => ?_
  cases hplace
  rw [hblank]

theorem shows_showing (h : Holds e aid r start) (hsteady : Steady e aid t)
    (hshort : t.observed.blank aid e.provider = true → t.now - start.getD t.now < BLANK_GRACE_S) :
    (debounced (t.showing e aid) r).shows e other = (debounced t r).shows e other := by
  by_cases hother : other = aid
  · subst hother
    have hnever : (t.showing e other).observed.blank other e.provider = true →
        (t.showing e other).now - start.getD (t.showing e other).now < BLANK_GRACE_S := by
      intro hblank
      have hanswers := answers_of_shows (showing_shows hsteady)
      rw [answers_of_blank hblank] at hanswers
      cases hanswers
    rw [held_shows h hsteady hshort, held_shows h (showing_steady hsteady) hnever]
  · refine Bool.eq_iff_iff.mpr ?_
    unfold debounced
    rw [debounced_shows, debounced_shows, pruned_showing, showing_now, kept_showing hother]
    unfold Observed.shows
    rw [showing_other hother]

theorem placements_showing (h : Holds e aid r start) (hsteady : Steady e aid t)
    (hshort : t.observed.blank aid e.provider = true → t.now - start.getD t.now < BLANK_GRACE_S) :
    placements e (debounced (t.showing e aid) r) = placements e (debounced t r) := by
  rw [placements_shown, placements_shown]
  have hkeys : (debounced (t.showing e aid) r).agents.keys = (debounced t r).agents.keys := by
    unfold debounced
    rw [debounced_observed, debounced_observed, inject_all_keys, inject_all_keys, showing_keys]
  rw [hkeys]
  exact List.filter_congr fun other _ => shows_showing h hsteady hshort

theorem prepared_placed : (prepare t r).1.placedAt.getD e.key ∅ =
    ((pruned t r).placedAt.getD e.key ∅).filter (keepsRow (debounced t r) t.now e.key) := by
  show Dict.getD ((pruned t r).placedAt.mapItems fun k amap =>
    amap.filter (keepsRow (debounced t r) t.now k)) e.key ∅ = _
  unfold Dict.getD
  rw [Dict.get?_map_items]
  cases (pruned t r).placedAt.get? e.key with
  | none => rfl
  | some amap => rfl

theorem prepared_confirmed : (prepare t r).1.confirmed.getD e.key [] =
    (((pruned t r).placedAt.items.foldl (confirmRows (debounced t r))
      (pruned t r).confirmed).getD e.key []).filter fun aid =>
        (((prepare t r).1.placedAt.getD e.key ∅).get? aid).isSome := by
  show Dict.getD ((((pruned t r).placedAt.items.foldl (confirmRows (debounced t r))
      (pruned t r).confirmed).mapItems fun k aids => aids.filter fun aid =>
        (((prepare t r).1.placedAt.getD k ∅).get? aid).isSome).filter
          fun _ aids => !aids.isEmpty) e.key [] = _
  rw [members_filter_nonempty, members_map_filter
    (p := fun k aid => (((prepare t r).1.placedAt.getD k ∅).get? aid).isSome)]

theorem confirm_rows_congr {first second : Observed} {rows : List (String × Dict String ℚ)}
    {k : String} {confirmed confirmed' : Dict String (List String)}
    (hreported : reportedKey k first = reportedKey k second)
    (h : confirmed.getD k [] = confirmed'.getD k []) :
    (rows.foldl (confirmRows first) confirmed).getD k [] =
      (rows.foldl (confirmRows second) confirmed').getD k [] := by
  induction rows generalizing confirmed confirmed' with
  | nil => exact h
  | cons row rest ih =>
      refine ih ?_
      unfold confirmRows
      generalize row.2.keys = aids
      induction aids generalizing confirmed confirmed' with
      | nil => exact h
      | cons aid rest ih =>
          refine ih ?_
          dsimp only
          have hread : ∀ {c : Dict String (List String)}, (confirm row.1 aid c).getD k [] =
              if k = row.1 then (if (c.getD k []).contains aid then c.getD k []
                else c.getD k [] ++ [aid]) else c.getD k [] := by
            intro c
            unfold confirm
            dsimp only
            rw [Dict.getD_set]
            split
            · rename_i hk
              rw [hk]
            · rfl
          by_cases hk : k = row.1
          · rw [← hk] at hread
            rw [← hk, hreported]
            split
            · rw [hread, hread, if_pos rfl, if_pos rfl, h]
            · exact h
          · have hsame : ∀ {o : Observed} {c : Dict String (List String)},
                (if (reportedKey row.1 o).contains aid then confirm row.1 aid c else c).getD k [] =
                  c.getD k [] := by
              intro o c
              split
              · rw [hread, if_neg hk]
              · rfl
            rw [hsame, hsame, h]

theorem debounced_showing {f : Agent → Bool}
    (hf : ∀ (a : Agent) (loaded : Provider → List String), f { a with loaded := loaded } = f a) :
    ((debounced (t.showing e aid) r).agents.get? other).map f =
      ((debounced t r).agents.get? other).map f := by
  obtain ⟨more, hagent, -⟩ := @debounced_agent t.observed other (pruned t r) t.now
  obtain ⟨more', hagent', -⟩ := @debounced_agent (t.showing e aid).observed other
    (pruned (t.showing e aid) r) (t.showing e aid).now
  unfold debounced
  rw [hagent, hagent', Option.map_map, Option.map_map]
  have hsame := @showing_agent e aid other t f hf
  simp only [Function.comp_def, hf]
  exact hsame

theorem debounced_showing_cases {f : Agent → Bool}
    (hf : ∀ (a : Agent) (loaded : Provider → List String), f { a with loaded := loaded } = f a) :
    (match (debounced (t.showing e aid) r).agents.get? other with
      | some a => f a
      | none => false) =
    match (debounced t r).agents.get? other with
      | some a => f a
      | none => false := by
  have hsame := @debounced_showing e aid other t r f hf
  cases hget : (debounced t r).agents.get? other with
  | none =>
      rw [hget] at hsame
      rw [Option.map_eq_none_iff.mp hsame]
  | some a =>
      rw [hget] at hsame
      obtain ⟨a', hget', hvalue⟩ := Option.map_eq_some_iff.mp hsame
      rw [hget']
      exact hvalue

theorem rows_showing (h : Holds e aid r start) (hsteady : Steady e aid t)
    (hshort : t.observed.blank aid e.provider = true → t.now - start.getD t.now < BLANK_GRACE_S) :
    (prepare (t.showing e aid) r).1.placedAt.getD e.key ∅ =
      (prepare t r).1.placedAt.getD e.key ∅ := by
  have hkeeps : keepsRow (debounced (t.showing e aid) r) (t.showing e aid).now e.key =
      keepsRow (debounced t r) t.now e.key := by
    funext other ts
    have hlive := @debounced_showing_cases e aid other t r (fun a => !a.live) fun _ _ => rfl
    unfold keepsRow
    rw [reported_key_entry, reported_key_entry, placements_showing h hsteady hshort, showing_now]
    congr 1
  rw [prepared_placed, prepared_placed, pruned_showing, hkeeps]

theorem effective_showing (h : Holds e aid r start) (hsteady : Steady e aid t)
    (hshort : t.observed.blank aid e.provider = true → t.now - start.getD t.now < BLANK_GRACE_S) :
    (inputsOf (t.showing e aid) r).effective e = (inputsOf t r).effective e := by
  have hplaces := placements_showing h hsteady hshort
  have hrows := rows_showing h hsteady hshort
  have hreported : reportedKey e.key (debounced (t.showing e aid) r) =
      reportedKey e.key (debounced t r) := by
    rw [reported_key_entry, reported_key_entry, hplaces]
  have hconfirmed : (prepare (t.showing e aid) r).1.confirmed.getD e.key [] =
      (prepare t r).1.confirmed.getD e.key [] := by
    rw [prepared_confirmed, prepared_confirmed, hrows, pruned_showing,
      confirm_rows_congr hreported rfl]
  have hfresh : freshPlaced e.key (some (prepare (t.showing e aid) r).1.toLedger)
      (some (t.showing e aid).now) = freshPlaced e.key (some (prepare t r).1.toLedger)
        (some t.now) := by
    unfold freshPlaced
    dsimp only
    rw [hrows, hconfirmed, showing_now]
  have hreports : ∀ other, (prepare (t.showing e aid) r).2.reports other =
      (prepare t r).2.reports other := fun _ => debounced_showing_cases fun _ _ => rfl
  show withFresh (placements e (debounced (t.showing e aid) r)) e.key
      (prepare (t.showing e aid) r).2 (some (prepare (t.showing e aid) r).1.toLedger)
      (some (t.showing e aid).now) =
    withFresh (placements e (debounced t r)) e.key (prepare t r).2
      (some (prepare t r).1.toLedger) (some t.now)
  unfold withFresh
  rw [hplaces, hfresh]
  simp only [hreports]

theorem wants_showing {e' : Entry} (hkey : e'.key = e.key) (h : Holds e aid r start)
    (hsteady : Steady e aid t)
    (hshort : t.observed.blank aid e.provider = true → t.now - start.getD t.now < BLANK_GRACE_S)
    (hwants : (inputsOf t r).Wants e') : (inputsOf (t.showing e aid) r).Wants e' := by
  have hcount : (inputsOf (t.showing e aid) r).effective e' = (inputsOf t r).effective e' := by
    rw [effective_of_key hkey, effective_of_key hkey]
    exact effective_showing h hsteady hshort
  have hdwell : dwellBlocks e'.key (prepare (t.showing e aid) r).1.placedAt
      (prepare (t.showing e aid) r).2 (t.showing e aid).now =
        dwellBlocks e'.key (prepare t r).1.placedAt (prepare t r).2 t.now := by
    have hdead : ∀ other, (match (prepare (t.showing e aid) r).2.agents.get? other with
          | some a => !a.live
          | none => true) =
        match (prepare t r).2.agents.get? other with
          | some a => !a.live
          | none => true := by
      intro other
      have hsame := @debounced_showing e aid other t r Agent.live fun _ _ => rfl
      have hsame : ((prepare (t.showing e aid) r).2.agents.get? other).map Agent.live =
          ((prepare t r).2.agents.get? other).map Agent.live := hsame
      cases hget : (prepare t r).2.agents.get? other with
      | none =>
          rw [hget] at hsame
          rw [Option.map_eq_none_iff.mp hsame]
      | some a =>
          rw [hget] at hsame
          obtain ⟨a', hget', hvalue⟩ := Option.map_eq_some_iff.mp hsame
          rw [hget']
          exact congrArg Bool.not hvalue
    unfold dwellBlocks
    rw [hkey, rows_showing h hsteady hshort, showing_now]
    refine congrArg _ (funext fun row => ?_)
    exact congrArg (· && decide (t.now - row.2 < DWELL_S)) (hdead row.1)
  unfold Inputs.Wants at hwants ⊢
  rw [hcount]
  rcases hwants with ⟨hfew, hfree⟩ | hroom
  · exact Or.inl ⟨hfew, hdwell.trans hfree⟩
  · exact Or.inr hroom

end Showing

/-- Ticks in which an entry stays desired and an agent, on which its placement is confirmed, reports
with samples that show the model or are blank, no action touches the entry on the agent, and every
stretch of blank samples lasts less than the grace. At each of them the agent is among the
placements of the entry in the observation that is planned with; the entry has the placements that
it would have if the sample had shown the model; and the plan loads or scales it up only where it
would want that as well if the sample had shown the model, and on another agent. -/
theorem blank_samples_held {newId : ℕ → String} {e : Entry} {aid : String} {r : Reconciler}
    {start : Option ℚ} {before after : List TickInput} {t : TickInput} (h : Holds e aid r start)
    (hsteady : SteadyRun newId e aid r (before ++ t :: after))
    (hshort : ShortStretches aid e.provider start (before ++ t :: after)) :
    let now := r.run newId (before.map .tick)
    aid ∈ placements e (inputsOf t now).observed ∧
    (inputsOf t now).effective e = (inputsOf (t.showing e aid) now).effective e ∧
    ∀ actions, plannedBy t now = .ok actions →
      ∀ a ∈ actions, a.kind.places = true → a.entryKey = e.key → a.agentId ≠ aid ∧
        ∃ e' ∈ t.desired.entries, e'.key = e.key ∧ (inputsOf (t.showing e aid) now).Wants e' := by
  intro now
  obtain ⟨start', hnow, htick, hgrace⟩ := holds_at h hsteady hshort rfl
  have hshows := held_shows hnow htick hgrace
  have hplaced : aid ∈ placements e (inputsOf t now).observed := by
    show aid ∈ placements e (debounced t now)
    rw [placements_shown, List.mem_filter]
    refine ⟨?_, hshows⟩
    unfold Observed.shows at hshows
    split at hshows
    · rename_i hget
      exact Dict.mem_keys_of_get hget
    · cases hshows
  refine ⟨hplaced, (effective_showing hnow htick hgrace).symm, ?_⟩
  intro actions hplan a ha hplaces hkey
  obtain ⟨helsewhere, e', hentry, hsame, hwants⟩ :=
    @plan_places_wanted (inputsOf t now) e actions hplan a ha hplaces hkey
  refine ⟨?_, e', hentry, hsame, wants_showing hsame hnow htick hgrace hwants⟩
  rintro rfl
  exact helsewhere ((prefix_with_fresh _ _ _ _ _).subset hplaced)

section Silent

/-- A llama host that does not answer. -/
def silentHost : Agent :=
  { llamaHost [] with answered := some fun _ => some false, serverState := none }

/-- An entry for `m1`, a host with a sample and an idle one. -/
def hostTick (host : Agent) (now : ℚ) : TickInput where
  desired := ⟨true, false, [loneEntry], some 30⟩
  observed := llamaFleet (((∅ : Dict String Agent).set "a1" host).set "a2" (llamaHost []))
  saturation _ _ := none
  now := now
  attempt _ := .returns true

/-- The entry is loaded on the host, and the host then shows it. -/
def confirmedM1 : Reconciler :=
  Reconciler.fresh.run plainId [.tick (idleTick true 1000),
    .tick (hostTick (llamaHost ["m1"]) 1200)]

theorem untouched_of_nothing {e : Entry} {aid : String} {t : TickInput} {r : Reconciler}
    (h : plannedBy t r = .ok []) : Untouched e aid t r := by
  intro actions hplan a ha
  rw [h] at hplan
  obtain rfl := Except.ok.inj hplan
  cases ha

/-- Two blank samples 80 s apart: the second plan still counts the host. -/
theorem blank_samples_held_silent :
    "a1" ∈ placements loneEntry (inputsOf (hostTick silentHost 1310)
      (confirmedM1.run plainId ([hostTick silentHost 1230].map .tick))).observed := by
  have hstart : Holds loneEntry "a1" confirmedM1 none :=
    ⟨by decide +kernel, by decide +kernel, by decide +kernel⟩
  have hfirst : Steady loneEntry "a1" (hostTick silentHost 1230) :=
    ⟨by decide +kernel, Or.inr (by decide +kernel)⟩
  have hsecond : Steady loneEntry "a1" (hostTick silentHost 1310) :=
    ⟨by decide +kernel, Or.inr (by decide +kernel)⟩
  have hsteady : SteadyRun plainId loneEntry "a1" confirmedM1
      ([hostTick silentHost 1230] ++ hostTick silentHost 1310 :: []) :=
    ⟨hfirst, untouched_of_nothing (by decide +kernel), hsecond,
      untouched_of_nothing (by decide +kernel), trivial⟩
  have hshort : ShortStretches "a1" .llama none
      ([hostTick silentHost 1230] ++ hostTick silentHost 1310 :: []) :=
    ⟨fun _ => by decide +kernel, fun _ => by decide +kernel, trivial⟩
  exact (blank_samples_held hstart hsteady hshort).1

end Silent

end SystemsManager.Autopilot
