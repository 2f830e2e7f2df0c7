import Mathlib.Data.List.Pairwise
import SystemsManager.Autopilot.Eviction

/-!
# Routing writes

`route_sync_writes` of `backend/autopilot.py`: the writes that bring the pins and the pools of the
routing table to the current placements. A pin is written for one entry only, because a validated
state names each model of a provider once, and a pool only grows. Read `route_sync_converges`.
-/

namespace SystemsManager.Autopilot

open Python

/-- The part of the global routing table that is synchronised: for each provider its pins, by model,
and its pool. -/
structure RoutingTable where
  pins : Provider → Dict String String
  pools : Provider → List String

/-- A write to the routing table. A pin without an agent is cleared. -/
inductive RouteWrite where
  | pin (provider : Provider) (model : String) (aid : Option String)
  | poolAdd (provider : Provider) (aid : String)
  deriving DecidableEq

/-- The table after one write. -/
def RoutingTable.apply (glob : RoutingTable) : RouteWrite → RoutingTable
  | .pin provider model (some aid) =>
      { glob with pins := Function.update glob.pins provider ((glob.pins provider).set model aid) }
  | .pin provider model none =>
      { glob with pins := Function.update glob.pins provider ((glob.pins provider).erase model) }
  | .poolAdd provider aid =>
      { glob with pools := Function.update glob.pools provider (glob.pools provider ++ [aid]) }

/-- The table after all writes. -/
def RoutingTable.applyAll (glob : RoutingTable) (writes : List RouteWrite) : RoutingTable :=
  writes.foldl RoutingTable.apply glob

/-- The pool writes of an entry with several replicas. -/
def poolWrites (e : Entry) (placed : List String) (glob : RoutingTable) (busy : List String) :
    List RouteWrite :=
  if e.maxReplicas > 1 then
    (placed.filter fun aid => !(glob.pools e.provider).contains aid && !busy.contains aid).map
      (.poolAdd e.provider)
  else []

/-- The pin write of an entry, given where it is placed. -/
def pinWrites (e : Entry) (placed : List String) (glob : RoutingTable) (busy : List String) :
    List RouteWrite :=
  let cur := (glob.pins e.provider).get? e.model
  if e.maxReplicas > 1 ∧ placed.length > 1 then
    -- several replicas serve: a pin would defeat the round robin of the pool
    if cur.isSome then [.pin e.provider e.model none] else []
  else if cur.any placed.contains then []
  else match placed.find? fun aid => !busy.contains aid with
    | some target => [.pin e.provider e.model (some target)]
    | none => []

/-- The writes of one entry. -/
def entryWrites (observed : Observed) (glob : RoutingTable) (ledger : Option Ledger)
    (now : Option ℚ) (busy : List String) (e : Entry) : List RouteWrite :=
  let placed := effectivePlacements e e.key observed ledger now
  if placed = [] then []
  else poolWrites e placed glob busy ++ pinWrites e placed glob busy

/-- `route_sync_writes` -/
def routeSyncWrites (desired : Desired) (observed : Observed) (glob : RoutingTable)
    (ledger : Option Ledger) (now : Option ℚ) (busy : List String) : List RouteWrite :=
  if desired.enabled then desired.entries.flatMap (entryWrites observed glob ledger now busy)
  else []

/-! ### What the writes leave -/

variable {p : Provider} {model : String}

theorem apply_pin_other {glob : RoutingTable} {w : RouteWrite} (h : ∀ aid, w ≠ .pin p model aid) :
    ((glob.apply w).pins p).get? model = (glob.pins p).get? model := by
  cases w with
  | poolAdd provider aid => rfl
  | pin provider other aid =>
      by_cases hp : p = provider
      · subst hp
        have hne : model ≠ other := by
          rintro rfl
          exact h aid rfl
        cases aid with
        | none => simp [RoutingTable.apply, hne]
        | some aid => simp [RoutingTable.apply, hne]
      · cases aid with
        | none => simp [RoutingTable.apply, hp]
        | some aid => simp [RoutingTable.apply, hp]

theorem apply_pin_same (glob : RoutingTable) (p : Provider) (model : String) (aid : Option String) :
    ((glob.apply (.pin p model aid)).pins p).get? model = aid := by
  cases aid with
  | none => simp [RoutingTable.apply]
  | some aid => simp [RoutingTable.apply]

variable {writes : List RouteWrite}

theorem apply_all_pin_other :
    ∀ {glob : RoutingTable}, (∀ aid, .pin p model aid ∉ writes) →
      ((glob.applyAll writes).pins p).get? model = (glob.pins p).get? model := by
  induction writes with
  | nil => exact fun _ => rfl
  | cons w rest ih =>
      intro glob h
      have hrest : ∀ aid, RouteWrite.pin p model aid ∉ rest :=
        fun aid hmem => h aid (List.mem_cons_of_mem _ hmem)
      have hw : ∀ aid, w ≠ .pin p model aid := by
        rintro aid rfl
        exact h aid (List.mem_cons_self ..)
      show (((glob.apply w).applyAll rest).pins p).get? model = _
      rw [ih hrest, apply_pin_other hw]

theorem apply_all_pin_same {value : Option String} :
    ∀ {glob : RoutingTable}, .pin p model value ∈ writes →
      (∀ aid, .pin p model aid ∈ writes → aid = value) →
      ((glob.applyAll writes).pins p).get? model = value := by
  induction writes with
  | nil => exact fun h => by cases h
  | cons w rest ih =>
      intro glob hmem hall
      have hall' : ∀ aid, RouteWrite.pin p model aid ∈ rest → aid = value :=
        fun aid h => hall aid (List.mem_cons_of_mem _ h)
      show (((glob.apply w).applyAll rest).pins p).get? model = value
      by_cases hrest : RouteWrite.pin p model value ∈ rest
      · exact ih hrest hall'
      · -- this is the last write that names the pin
        have hnone : ∀ aid, RouteWrite.pin p model aid ∉ rest := by
          intro aid h
          rw [hall' aid h] at h
          exact hrest h
        rcases List.mem_cons.mp hmem with rfl | h
        · rw [apply_all_pin_other hnone, apply_pin_same]
        · exact absurd h hrest

theorem mem_apply_all_pool {aid : String} :
    ∀ {glob : RoutingTable}, aid ∈ (glob.applyAll writes).pools p ↔
      aid ∈ glob.pools p ∨ .poolAdd p aid ∈ writes := by
  induction writes with
  | nil => simp [RoutingTable.applyAll]
  | cons w rest ih =>
      intro glob
      show aid ∈ ((glob.apply w).applyAll rest).pools p ↔ _
      rw [ih, List.mem_cons]
      cases w with
      | pin provider model value =>
          cases value <;> simp [RoutingTable.apply]
      | poolAdd provider other =>
          by_cases hp : p = provider
          · subst hp
            simp only [RoutingTable.apply, Function.update_self, List.mem_append,
              List.mem_singleton, RouteWrite.poolAdd.injEq, true_and]
            tauto
          · simp [RoutingTable.apply, hp]

/-! ### One synchronisation is enough -/

variable {observed : Observed} {glob glob' : RoutingTable} {ledger : Option Ledger}
  {now : Option ℚ} {busy : List String} {e : Entry}

theorem entry_writes_of_placed (hplaced : effectivePlacements e e.key observed ledger now ≠ []) :
    entryWrites observed glob ledger now busy e =
      poolWrites e (effectivePlacements e e.key observed ledger now) glob busy ++
        pinWrites e (effectivePlacements e e.key observed ledger now) glob busy :=
  if_neg hplaced

theorem entry_pin {aid : Option String}
    (h : .pin p model aid ∈ entryWrites observed glob ledger now busy e) :
    e.provider = p ∧ e.model = model ∧ .pin p model aid ∈
      pinWrites e (effectivePlacements e e.key observed ledger now) glob busy := by
  have hplaced : effectivePlacements e e.key observed ledger now ≠ [] := by
    intro hplaced
    rw [entryWrites, if_pos hplaced] at h
    cases h
  rw [entry_writes_of_placed hplaced] at h
  rcases List.mem_append.mp h with hpool | hpin
  · unfold poolWrites at hpool
    split at hpool
    · simp at hpool
    · cases hpool
  · refine ⟨?_, ?_, hpin⟩ <;>
    · unfold pinWrites at hpin
      dsimp only at hpin
      repeat' split at hpin
      all_goals simp_all

variable {placed : List String}

theorem pin_writes_unique {aid aid' : Option String}
    (h : .pin p model aid ∈ pinWrites e placed glob busy)
    (h' : .pin p model aid' ∈ pinWrites e placed glob busy) : aid' = aid := by
  unfold pinWrites at h h'
  dsimp only at h h'
  split at h
  next hmulti =>
      rw [if_pos hmulti] at h'
      split at h
      next hcur =>
          rw [if_pos hcur] at h'
          simp_all
      next => cases h
  next hsingle =>
      rw [if_neg hsingle] at h'
      split at h
      next => cases h
      next hcur =>
          rw [if_neg hcur] at h'
          split at h
          next target htarget => simp_all
          next => cases h

/-- Once the pin of an entry is the one that it wrote, or stays when it wrote none, it writes no
pin. -/
theorem pin_writes_settled (glob : RoutingTable)
    (hwritten : ∀ aid, .pin e.provider e.model aid ∈ pinWrites e placed glob busy →
      (glob'.pins e.provider).get? e.model = aid) (hkept : pinWrites e placed glob busy = [] →
      (glob'.pins e.provider).get? e.model = (glob.pins e.provider).get? e.model) :
    pinWrites e placed glob' busy = [] := by
  by_cases hmulti : e.maxReplicas > 1 ∧ placed.length > 1
  · have hcases : pinWrites e placed glob busy =
        if ((glob.pins e.provider).get? e.model).isSome then [.pin e.provider e.model none]
        else [] := if_pos hmulti
    have hnone : (glob'.pins e.provider).get? e.model = none := by
      by_cases hcur : ((glob.pins e.provider).get? e.model).isSome
      · rw [if_pos hcur] at hcases
        exact hwritten none (by rw [hcases]; exact List.mem_singleton_self _)
      · rw [if_neg hcur] at hcases
        rw [hkept hcases]
        simpa using hcur
    unfold pinWrites
    dsimp only
    rw [if_pos hmulti, hnone]
    rfl
  · have hcases : pinWrites e placed glob busy =
        if ((glob.pins e.provider).get? e.model).any placed.contains then []
        else match placed.find? fun aid => !busy.contains aid with
          | some target => [.pin e.provider e.model (some target)]
          | none => [] := if_neg hmulti
    unfold pinWrites
    dsimp only
    rw [if_neg hmulti]
    by_cases hcur : ((glob.pins e.provider).get? e.model).any placed.contains
    · rw [if_pos hcur] at hcases
      rw [hkept hcases, if_pos hcur]
    · rw [if_neg hcur] at hcases
      cases htarget : placed.find? fun aid => !busy.contains aid with
      | none =>
          rw [htarget] at hcases
          rw [hkept hcases, if_neg hcur]
      | some target =>
          rw [htarget] at hcases
          have hpin := hwritten (some target) (by rw [hcases]; exact List.mem_singleton_self _)
          have hplaced := List.mem_of_find?_eq_some htarget
          rw [hpin, if_pos]
          simpa using hplaced

theorem pool_writes_settled (glob : RoutingTable)
    (hpool : ∀ aid, aid ∈ glob.pools e.provider ∨ .poolAdd e.provider aid ∈
      poolWrites e placed glob busy → aid ∈ glob'.pools e.provider) :
    poolWrites e placed glob' busy = [] := by
  unfold poolWrites
  split
  next hmulti =>
      rw [List.map_eq_nil_iff, List.filter_eq_nil_iff]
      intro aid haid hadd
      simp only [Bool.and_eq_true, Bool.not_eq_true', List.contains_eq_mem,
        decide_eq_false_iff_not] at hadd
      refine hadd.1 (hpool aid ?_)
      by_cases hin : aid ∈ glob.pools e.provider
      · exact Or.inl hin
      · refine Or.inr ?_
        unfold poolWrites
        rw [if_pos hmulti]
        refine List.mem_map_of_mem (List.mem_filter.mpr ⟨haid, ?_⟩)
        simp [hin, hadd.2]
  next => rfl

/-- For every validated desired state, after the routing writes have been applied there is nothing
left to write. -/
theorem route_sync_converges {raw : List (String × Json)} {desired : Desired}
    (hvalid : validateState raw = .ok desired) (observed : Observed) (ledger : Option Ledger)
    (now : Option ℚ) (busy : List String) (glob : RoutingTable) :
    routeSyncWrites desired observed
      (glob.applyAll (routeSyncWrites desired observed glob ledger now busy)) ledger now busy =
        [] := by
  have hdistinct := (validate_state_valid hvalid).distinct
  have hsymm : Std.Symm fun e e' : Entry => ¬e.Same e' :=
    ⟨fun _ _ hne hsame => hne ⟨hsame.1.symm, hsame.2.symm⟩⟩
  by_cases henabled : desired.enabled = true
  · have hwrites : routeSyncWrites desired observed glob ledger now busy =
        desired.entries.flatMap (entryWrites observed glob ledger now busy) := if_pos henabled
    rw [hwrites]
    unfold routeSyncWrites
    rw [if_pos henabled, List.flatMap_eq_nil_iff]
    intro e he
    by_cases hplaced : effectivePlacements e e.key observed ledger now = []
    · exact if_pos hplaced
    · -- a pin of this entry's model on this provider is written for this entry only
      have hown : ∀ aid, RouteWrite.pin e.provider e.model aid ∈
          desired.entries.flatMap (entryWrites observed glob ledger now busy) ↔
          .pin e.provider e.model aid ∈
            pinWrites e (effectivePlacements e e.key observed ledger now) glob busy := by
        intro aid
        constructor
        · intro hmem
          obtain ⟨e', he', hmem⟩ := List.mem_flatMap.mp hmem
          obtain ⟨hprovider, hmodel, hpin⟩ := entry_pin hmem
          have heq : e' = e := by
            by_contra hne
            exact hdistinct.forall he' he hne ⟨hmodel, hprovider⟩
          rw [heq] at hpin
          exact hpin
        · intro hpin
          refine List.mem_flatMap.mpr ⟨e, he, ?_⟩
          rw [entry_writes_of_placed hplaced]
          exact List.mem_append_right _ hpin
      rw [entry_writes_of_placed hplaced, pool_writes_settled glob, pin_writes_settled glob]
      · rfl
      · intro aid hpin
        refine apply_all_pin_same ((hown aid).mpr hpin) fun aid' h => ?_
        exact pin_writes_unique hpin ((hown aid').mp h)
      · intro hnone
        refine apply_all_pin_other fun aid h => ?_
        have := (hown aid).mp h
        rw [hnone] at this
        cases this
      · intro aid hadd
        refine mem_apply_all_pool.mpr (hadd.imp_right fun h => ?_)
        refine List.mem_flatMap.mpr ⟨e, he, ?_⟩
        rw [entry_writes_of_placed hplaced]
        exact List.mem_append_left _ h
  · unfold routeSyncWrites
    rw [if_neg henabled]

/-- A host that serves `m1` gets its pin, and that is all. -/
theorem serving_pin_converges :
    routeSyncWrites shadowedDesired servingFleet ⟨fun _ => ∅, fun _ => []⟩ none none [] =
        [.pin .llama "m1" (some "a1")] ∧
      routeSyncWrites shadowedDesired servingFleet
        (RoutingTable.applyAll ⟨fun _ => ∅, fun _ => []⟩
          (routeSyncWrites shadowedDesired servingFleet ⟨fun _ => ∅, fun _ => []⟩ none none []))
        none none [] = [] := by
  have hraw : validateState shadowedRaw = .ok shadowedDesired := rfl
  exact ⟨by decide +kernel, route_sync_converges hraw _ _ _ _ _⟩

end SystemsManager.Autopilot
