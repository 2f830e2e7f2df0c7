import SystemsManager.Autopilot.Reconciler

/-!
# The chain of the ledger

What is blank was confirmed, what is confirmed has a placement row, and no migration is in flight:
`Chained` holds of the ledger after every operation of the reconciler, however it ends. A tick
restores the first two by itself (`chained_prune`), so the work is in what a run of one action does
to the three maps; `chained_run` is the step of the loop over a plan. Read `ledger_chained`.
-/

namespace SystemsManager.Autopilot

open Python

/-- `blank_since[k]` is within `confirmed[k]`, which is within the agents of `placed_at[k]`, and no
migration is in flight. -/
structure Chained (ledger : FullLedger) : Prop where
  blank : ∀ k aid, ((ledger.blankSince.getD k ∅).get? aid).isSome = true →
    aid ∈ ledger.confirmed.getD k []
  placed : ∀ k aid, aid ∈ ledger.confirmed.getD k [] →
    ((ledger.placedAt.getD k ∅).get? aid).isSome = true
  inFlight : ledger.inFlightMigrations = 0

section Reading

variable {ν : Type} {d : Dict String (Dict String ν)} {sets : Dict String (List String)}
  {k aid : String}

theorem rows_filter_nonempty :
    (d.filter fun _ amap => !amap.items.isEmpty).getD k ∅ = d.getD k ∅ := by
  unfold Dict.getD
  rw [Dict.get?_filter]
  cases d.get? k with
  | none => rfl
  | some amap =>
      by_cases hempty : amap.items = []
      · have hamap : amap = ∅ := Dict.ext hempty
        subst hamap
        rfl
      · rw [Option.filter_some_pos (by simpa using hempty)]

theorem members_filter_nonempty :
    (sets.filter fun _ aids => !aids.isEmpty).getD k [] = sets.getD k [] := by
  unfold Dict.getD
  rw [Dict.get?_filter]
  cases sets.get? k with
  | none => rfl
  | some aids => cases aids <;> rfl

theorem rows_map_filter {p : String → String → ν → Bool} :
    ((d.mapItems fun k amap => amap.filter (p k)).getD k ∅).get? aid =
      ((d.getD k ∅).get? aid).filter (p k aid) := by
  unfold Dict.getD
  rw [Dict.get?_map_items]
  cases d.get? k with
  | none => rfl
  | some amap => exact Dict.get?_filter amap (p k) aid

theorem members_map_filter {p : String → String → Bool} :
    (sets.mapItems fun k aids => aids.filter (p k)).getD k [] = (sets.getD k []).filter (p k) := by
  unfold Dict.getD
  rw [Dict.get?_map_items]
  cases sets.get? k with
  | none => rfl
  | some aids => rfl

end Reading

section Steps

variable {ledger : FullLedger} {observed : Observed} {now : ℚ} {a : Action} {t : TickInput}

theorem chained_prune (h : ledger.inFlightMigrations = 0) :
    Chained (prunePlacedAt observed now ledger) := by
  constructor
  · intro k aid hblank
    unfold prunePlacedAt at hblank ⊢
    dsimp only at hblank ⊢
    rw [rows_filter_nonempty, rows_map_filter (p := fun k aid _ => _)] at hblank
    obtain ⟨since, hsince⟩ := Option.isSome_iff_exists.mp hblank
    simpa using (Option.filter_eq_some_iff.mp hsince).2
  · intro k aid hconfirmed
    unfold prunePlacedAt at hconfirmed ⊢
    dsimp only at hconfirmed ⊢
    rw [members_filter_nonempty, members_map_filter (p := fun k aid => _)] at hconfirmed
    exact (List.mem_filter.mp hconfirmed).2
  · exact h

theorem chained_prepare {r : Reconciler} (h : r.ledger.inFlightMigrations = 0) :
    Chained (prepare t r).1 :=
  chained_prune h

theorem placed_after_other {d : Dict String (Dict String ℚ)} {k aid : String}
    (h : ¬(k = a.entryKey ∧ aid = a.agentId)) :
    ((placedAfter a now d).getD k ∅).get? aid = (d.getD k ∅).get? aid := by
  have hrow : ∀ {amap : Dict String ℚ}, amap = d.getD a.entryKey ∅ →
      ((d.set a.entryKey (amap.set a.agentId now)).getD k ∅).get? aid = (d.getD k ∅).get? aid := by
    intro amap hamap
    rw [Dict.getD_set]
    split
    · rename_i hk
      subst hk
      rw [Dict.get?_set, if_neg fun haid => h ⟨rfl, haid⟩, hamap]
    · rfl
  unfold placedAfter
  split
  · exact hrow rfl
  split
  · unfold popAgent
    split
    · rename_i amap hamap
      rw [Dict.getD_set]
      split
      · rename_i hk
        subst hk
        rw [Dict.get?_erase, if_neg fun haid => h ⟨rfl, haid⟩]
        unfold Dict.getD
        rw [hamap]
        rfl
      · rfl
    · rfl
  · rfl

theorem mem_confirmed_after {sets : Dict String (List String)} {k aid : String} :
    aid ∈ (confirmedAfter a sets).getD k [] ↔
      aid ∈ sets.getD k [] ∧ ¬(k = a.entryKey ∧ aid = a.agentId) := by
  unfold confirmedAfter
  split
  · rename_i aids haids
    rw [Dict.getD_set]
    split
    · rename_i hk
      subst hk
      have hsame : sets.getD a.entryKey [] = aids := by
        unfold Dict.getD
        rw [haids]
        rfl
      rw [hsame, List.mem_filter]
      simp
    · rename_i hk
      simp [hk]
  · rename_i hnone
    refine ⟨fun hmem => ⟨hmem, ?_⟩, fun hmem => hmem.1⟩
    rintro ⟨rfl, -⟩
    unfold Dict.getD at hmem
    rw [hnone] at hmem
    cases hmem

theorem blank_after {d : Dict String (Dict String ℚ)} {k aid : String} :
    ((blankAfter a d).getD k ∅).get? aid =
      if k = a.entryKey ∧ aid = a.agentId then none else (d.getD k ∅).get? aid := by
  have hread : ∀ {since : Dict String ℚ}, d.get? a.entryKey = some since →
      (since.erase a.agentId).get? aid =
        if aid = a.agentId then none else (d.getD a.entryKey ∅).get? aid := by
    intro since hsince
    rw [Dict.get?_erase]
    unfold Dict.getD
    rw [hsince]
    rfl
  unfold blankAfter
  split
  · rename_i since hsince
    split
    · rename_i hempty
      rw [Dict.getD_erase]
      by_cases hk : k = a.entryKey
      · have hnone : (since.erase a.agentId).get? aid = none := by
          have hnil : since.erase a.agentId = ∅ := Dict.ext (List.isEmpty_iff.mp hempty)
          rw [hnil]
          rfl
        rw [hread hsince] at hnone
        subst hk
        by_cases haid : aid = a.agentId
        · simp [haid]
        · rw [if_neg haid] at hnone
          simp [haid, hnone]
      · simp [hk]
    · rw [Dict.getD_set]
      by_cases hk : k = a.entryKey
      · subst hk
        rw [if_pos rfl, hread hsince]
        simp
      · simp [hk]
  · rename_i hnone
    by_cases hk : k = a.entryKey
    · subst hk
      unfold Dict.getD
      rw [hnone]
      simp
    · simp [hk]

/-- What an action leaves of the chain. -/
theorem chained_settle {ok : Bool} (h : Chained ledger) : Chained (settleRun a now ok ledger) := by
  unfold settleRun
  split
  · constructor
    · intro k aid hblank
      dsimp only at hblank ⊢
      rw [blank_after] at hblank
      split at hblank
      · cases hblank
      · rename_i hother
        exact mem_confirmed_after.mpr ⟨h.blank k aid hblank, hother⟩
    · intro k aid hconfirmed
      obtain ⟨hmem, hother⟩ := mem_confirmed_after.mp hconfirmed
      dsimp only
      rw [placed_after_other hother]
      exact h.placed k aid hmem
    · exact h.inFlight
  split
  · exact ⟨h.blank, h.placed, h.inFlight⟩
  split
  · exact h
  · exact ⟨h.blank, h.placed, h.inFlight⟩

theorem chained_leave (h : Chained ledger) : Chained ((ledger.enter a).leave a) := by
  refine ⟨h.blank, h.placed, ?_⟩
  unfold FullLedger.leave FullLedger.enter
  dsimp only
  rw [h.inFlight]
  cases a.migration <;> decide

theorem chained_run {attempt : Attempt} (h : Chained ledger) :
    Chained (runAction a attempt now ledger).1 := by
  cases attempt with
  | busy => exact h
  | busyRaises => exact h
  | returns ok => exact chained_settle (chained_leave h)
  | raises => exact chained_leave h

variable {newId : ℕ → String}

theorem chained_handle {actions : List Action} {n : ℕ} {r : Reconciler} (h : Chained r.ledger) :
    Chained (handleActions newId t n actions r).1.ledger := by
  induction actions generalizing n r with
  | nil => exact h
  | cons a rest ih =>
      have hrun : Chained (runAction a (t.attempt n) t.now r.ledger).1 := chained_run h
      unfold handleActions
      split
      · split
        · rename_i ledger hraised
          rw [hraised] at hrun
          exact hrun
        · rename_i ledger ok hdone
          rw [hdone] at hrun
          exact ih hrun
      · refine ih ?_
        unfold propose
        split <;> exact h

/-- Every operation keeps the chain. -/
theorem chained_step {r : Reconciler} {operation : Operation} (h : Chained r.ledger) :
    Chained (r.step newId operation).ledger := by
  cases operation with
  | dismiss pid => exact h
  | apply pid now attempt =>
      show Chained (r.apply pid now attempt).ledger
      unfold Reconciler.apply
      split
      · exact h
      · exact chained_run h
  | tick t =>
      show Chained (r.tick newId t).1.ledger
      have hprepared : Chained (prepare t r).1 := chained_prepare h.inFlight
      unfold Reconciler.tick
      dsimp only
      split
      · exact hprepared
      · rename_i actions _
        have hhandled : Chained (handleActions newId t 0 actions
            { r with
              ledger := (prepare t r).1
              satHistory := (prepare t r).2.satHistory
              proposals := r.proposals.filter fun _ p =>
                (actions.map Action.sig).contains p.sig }).1.ledger := chained_handle hprepared
        split
        · rename_i hend
          rw [hend] at hhandled
          exact hhandled
        · rename_i hend
          rw [hend] at hhandled
          exact hhandled

end Steps

/-- The empty ledger is in order. -/
theorem chained_empty : Chained .empty := by
  constructor
  · intro k aid hblank
    cases hblank
  · intro k aid hconfirmed
    cases hconfirmed
  · rfl

/-- After every sequence of ticks, applied and dismissed proposals, whether the executor returns or
raises: `blank_since[k]` is within `confirmed[k]`, which is within the agents of `placed_at[k]`, and
no migration is in flight. -/
theorem ledger_chained (newId : ℕ → String) (operations : List Operation) :
    Chained (Reconciler.fresh.run newId operations).ledger := by
  have hrun : ∀ {r : Reconciler}, Chained r.ledger →
      Chained (r.run newId operations).ledger := by
    induction operations with
    | nil => exact fun h => h
    | cons operation rest ih => exact fun h => ih (chained_step h)
  exact hrun chained_empty

end SystemsManager.Autopilot
