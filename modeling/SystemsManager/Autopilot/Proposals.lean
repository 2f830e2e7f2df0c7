import SystemsManager.Autopilot.Reconciler
import SystemsManager.Autopilot.Eviction

/-!
# The pending proposals

A tick keeps the pending proposals whose signature is that of any action of its plan, adds one for
each action that may not run alone, and runs the others. `pending_handled` says which signatures are
pending afterwards. Read `proposals_mirror`: in every reachable state the signatures of the pending
proposals are pairwise distinct, and after a tick they are those of the actions that may not run
alone exactly when the tick runs no action that was pending. `enabled_while_pending` is a tick that
does.
-/

namespace SystemsManager.Autopilot

open Python

/-- The signatures of the pending proposals. -/
def Reconciler.pendingSigs (r : Reconciler) : List Sig :=
  r.proposals.items.map fun item => item.2.sig

/-- The signatures of the actions of a plan that may not run alone. -/
def proposedSigs (actions : List Action) : List Sig :=
  (actions.filter fun a => !a.auto).map Action.sig

/-- The tick runs no action by itself that is pending as a proposal when it starts, and that its
plan does not also propose. -/
def RunsNoPending (t : TickInput) (r : Reconciler) : Prop :=
  ∀ actions, plannedBy t r = .ok actions → ∀ a ∈ actions, a.auto = true →
    a.sig ∈ r.pendingSigs → a.sig ∈ proposedSigs actions

/-- The ids of the pending proposals are among those that were drawn, and no two of them have one
signature. -/
structure Orderly (newId : ℕ → String) (r : Reconciler) : Prop where
  drawn : ∀ pid ∈ r.proposals.keys, ∃ n < r.drawn, pid = newId n
  distinct : r.pendingSigs.Nodup

section Steps

variable {newId : ℕ → String} {r : Reconciler} {a : Action} {t : TickInput} {now : ℚ}

theorem new_id_fresh (hids : Function.Injective newId) (h : Orderly newId r) :
    newId r.drawn ∉ r.proposals.keys := by
  intro hmem
  obtain ⟨n, hn, heq⟩ := h.drawn _ hmem
  have hsame : r.drawn = n := hids heq
  omega

theorem pending_propose (hids : Function.Injective newId) (h : Orderly newId r) :
    (propose newId a now r).pendingSigs =
      if a.sig ∈ r.pendingSigs then r.pendingSigs else r.pendingSigs ++ [a.sig] := by
  have hany : (r.proposals.items.any fun item => item.2.sig = a.sig) = true ↔
      a.sig ∈ r.pendingSigs := by
    simp [Reconciler.pendingSigs]
  unfold propose
  by_cases hpending : a.sig ∈ r.pendingSigs
  · rw [if_pos (hany.mpr hpending), if_pos hpending]
  · rw [if_neg fun htrue => hpending (hany.mp htrue), if_neg hpending]
    show (setItems _ _ r.proposals.items).map _ = _
    rw [set_items_of_not_mem _ (new_id_fresh hids h), List.map_append]
    rfl

theorem orderly_propose (hids : Function.Injective newId) (h : Orderly newId r) :
    Orderly newId (propose newId a now r) := by
  constructor
  · intro pid hpid
    unfold propose at hpid ⊢
    split at hpid
    · rename_i hany
      rw [if_pos hany]
      exact h.drawn pid hpid
    · rename_i hany
      rw [if_neg hany]
      rw [Dict.mem_keys_iff, Dict.get?_set] at hpid
      split at hpid
      · rename_i hnew
        exact ⟨r.drawn, Nat.lt_succ_self _, hnew⟩
      · obtain ⟨n, hn, heq⟩ := h.drawn pid (Dict.mem_keys_iff.mpr hpid)
        exact ⟨n, Nat.lt_succ_of_lt hn, heq⟩
  · rw [pending_propose hids h]
    split
    · exact h.distinct
    · rename_i hnew
      exact List.nodup_append.mpr ⟨h.distinct, List.nodup_singleton _, by
        intro sig hsig other hother
        rw [List.mem_singleton] at hother
        rintro rfl
        exact hnew (hother ▸ hsig)⟩

/-- The loop over a plan: the order stays, and where it gets to its end, what was pending and what
is proposed is pending. -/
theorem pending_handled (hids : Function.Injective newId) {actions : List Action} {n : ℕ}
    (h : Orderly newId r) :
    Orderly newId (handleActions newId t n actions r).1 ∧
      ((handleActions newId t n actions r).2 = true → ∀ sig,
        sig ∈ (handleActions newId t n actions r).1.pendingSigs ↔
          sig ∈ r.pendingSigs ∨ sig ∈ proposedSigs actions) := by
  induction actions generalizing n r with
  | nil => exact ⟨h, fun _ sig => by simp [handleActions, proposedSigs]⟩
  | cons a rest ih =>
      unfold handleActions
      by_cases hauto : a.auto = true
      · have hskip : proposedSigs (a :: rest) = proposedSigs rest := by
          simp [proposedSigs, hauto]
        rw [if_pos hauto, hskip]
        split
        · exact ⟨⟨h.drawn, h.distinct⟩, fun hend => nomatch hend⟩
        · exact ih ⟨h.drawn, h.distinct⟩
      · have hadd : proposedSigs (a :: rest) = a.sig :: proposedSigs rest := by
          simp [proposedSigs, hauto]
        rw [if_neg hauto, hadd]
        have hproposed : Orderly newId (propose newId a t.now r) := orderly_propose hids h
        obtain ⟨horder, hpending⟩ := @ih _ (n + 1) hproposed
        refine ⟨horder, fun hend sig => ?_⟩
        rw [hpending hend sig, pending_propose hids h, List.mem_cons]
        by_cases hknown : a.sig ∈ r.pendingSigs
        · rw [if_pos hknown]
          constructor
          · exact Or.imp_right Or.inr
          · rintro (hold | rfl | hnew)
            · exact Or.inl hold
            · exact Or.inl hknown
            · exact Or.inr hnew
        · rw [if_neg hknown, List.mem_append, List.mem_singleton, or_assoc]

theorem orderly_filter (ledger : FullLedger) (p : String → Proposal → Bool)
    (history : Dict String (List (ℚ × ℚ))) (h : Orderly newId r) :
    Orderly newId ⟨ledger, r.proposals.filter p, history, r.drawn⟩ := by
  constructor
  · intro pid hpid
    refine h.drawn pid ?_
    rw [Dict.mem_keys_iff, Dict.get?_filter] at hpid
    obtain ⟨proposal, hget⟩ := Option.isSome_iff_exists.mp hpid
    exact Dict.mem_keys_of_get (Option.filter_eq_some_iff.mp hget).1
  · exact (List.filter_sublist.map _).nodup h.distinct

theorem pending_kept {actions : List Action} {ledger : FullLedger}
    {history : Dict String (List (ℚ × ℚ))} {sig : Sig} :
    sig ∈ (Reconciler.mk ledger (r.proposals.filter fun _ p =>
        (actions.map Action.sig).contains p.sig) history r.drawn).pendingSigs ↔
      sig ∈ r.pendingSigs ∧ sig ∈ actions.map Action.sig := by
  unfold Reconciler.pendingSigs Dict.filter
  simp only [List.mem_map, List.mem_filter, List.contains_iff_mem]
  constructor
  · rintro ⟨item, ⟨hitem, hplanned⟩, rfl⟩
    exact ⟨⟨item, hitem, rfl⟩, hplanned⟩
  · rintro ⟨⟨item, hitem, rfl⟩, hplanned⟩
    exact ⟨item, ⟨hitem, hplanned⟩, rfl⟩

theorem orderly_step (hids : Function.Injective newId) {operation : Operation}
    (h : Orderly newId r) : Orderly newId (r.step newId operation) := by
  cases operation with
  | dismiss pid => exact orderly_filter _ _ _ h
  | apply pid now attempt =>
      show Orderly newId (r.apply pid now attempt)
      unfold Reconciler.apply
      split
      · exact h
      · exact orderly_filter _ _ _ h
  | tick t =>
      show Orderly newId (r.tick newId t).1
      unfold Reconciler.tick
      dsimp only
      split
      · exact ⟨h.drawn, h.distinct⟩
      · rename_i actions _
        have hkept := orderly_filter (prepare t r).1
          (fun _ p => (actions.map Action.sig).contains p.sig) (prepare t r).2.satHistory h
        have hhandled := (@pending_handled _ _ t hids actions 0 hkept).1
        split
        · rename_i hend
          rw [hend] at hhandled
          exact hhandled
        · rename_i hend
          rw [hend] at hhandled
          exact hhandled

theorem pending_tick (hids : Function.Injective newId) {actions : List Action}
    (h : Orderly newId r) (hend : (r.tick newId t).2 = some actions) :
    plannedBy t r = .ok actions ∧ ∀ sig, sig ∈ (r.tick newId t).1.pendingSigs ↔
      (sig ∈ r.pendingSigs ∧ sig ∈ actions.map Action.sig) ∨ sig ∈ proposedSigs actions := by
  unfold Reconciler.tick at hend ⊢
  dsimp only at hend ⊢
  split at hend
  · cases hend
  · rename_i planned hplan
    rw [hplan]
    have hkept := orderly_filter (prepare t r).1
      (fun _ p => (planned.map Action.sig).contains p.sig) (prepare t r).2.satHistory h
    obtain ⟨-, hpending⟩ := @pending_handled _ _ t hids planned 0 hkept
    split at hend
    · rename_i after hhandled
      obtain rfl := Option.some.inj hend
      rw [hhandled] at hpending
      refine ⟨rfl, fun sig => ?_⟩
      exact (hpending rfl sig).trans (or_congr_left pending_kept)
    · cases hend

end Steps

theorem orderly_fresh {newId : ℕ → String} : Orderly newId .fresh :=
  ⟨fun _ hpid => (nomatch hpid), List.nodup_nil⟩

/-- After every sequence of operations and a tick that gets to its end, the signatures of the
pending proposals are pairwise distinct, and they are those of the actions of the plan that may not
run alone exactly when the tick runs no action that was pending. -/
theorem proposals_mirror (newId : ℕ → String) (hids : Function.Injective newId)
    (operations : List Operation) (t : TickInput) (actions : List Action)
    (hend : ((Reconciler.fresh.run newId operations).tick newId t).2 = some actions) :
    ((Reconciler.fresh.run newId operations).tick newId t).1.pendingSigs.Nodup ∧
      ((∀ sig, sig ∈ ((Reconciler.fresh.run newId operations).tick newId t).1.pendingSigs ↔
          sig ∈ proposedSigs actions) ↔
        RunsNoPending t (Reconciler.fresh.run newId operations)) := by
  have hrun : ∀ {r : Reconciler}, Orderly newId r → Orderly newId (r.run newId operations) := by
    clear hend
    induction operations with
    | nil => exact fun h => h
    | cons operation rest ih => exact fun h => ih (orderly_step hids h)
  have horder := hrun orderly_fresh
  obtain ⟨hplan, hpending⟩ := pending_tick hids horder hend
  refine ⟨(@orderly_step _ _ hids (.tick t) horder).distinct, ?_⟩
  constructor
  · intro hmirror planned hplanned a ha hauto hwas
    obtain rfl : actions = planned := Except.ok.inj (hplan.symm.trans hplanned)
    exact (hmirror a.sig).mp ((hpending a.sig).mpr (Or.inl ⟨hwas, List.mem_map_of_mem ha⟩))
  · intro hruns sig
    rw [hpending sig]
    refine ⟨?_, Or.inr⟩
    rintro (⟨hwas, hplanned⟩ | hproposed)
    · obtain ⟨a, ha, rfl⟩ := List.mem_map.mp hplanned
      by_cases hauto : a.auto = true
      · exact hruns actions hplan a ha hauto hwas
      · exact List.mem_map_of_mem (List.mem_filter.mpr ⟨ha, by simpa using hauto⟩)
    · exact hproposed

section Enabled

/-- An entry for `m1` on llama that may fail over alone. -/
def loneEntry : Entry := { shadowedEntry "m1" with failover := .auto }

/-- Two idle llama hosts, looked at before the autopilot is enabled or after; every action that is
run succeeds. -/
def idleTick (enabled : Bool) (now : ℚ) : TickInput where
  desired := ⟨enabled, false, [loneEntry], some 30⟩
  observed := llamaFleet ⟨[("a1", llamaHost []), ("a2", llamaHost [])], by decide⟩
  saturation _ _ := none
  now := now
  attempt _ := .returns true

/-- Ids for proposals. -/
def plainId (n : ℕ) : String := String.ofList (List.replicate n 'p')

theorem plain_id_injective : Function.Injective plainId := by
  intro m n h
  have hlists : List.replicate m 'p' = List.replicate n 'p' := String.ofList_injective h
  simpa using congrArg List.length hlists

/-- A load of `m1` on the first host. -/
def loadM1 (auto : Bool) : Action where
  kind := .load
  provider := .llama
  model := "m1"
  agentId := "a1"
  reason := "m1/llama: 1/1 replicas placed"
  auto := auto
  entryKey := "m1/llama"

/-- While the autopilot is disabled the load is proposed. -/
theorem proposals_mirror_disabled :
    (((Reconciler.fresh.run plainId []).tick plainId (idleTick false 1000)).1.pendingSigs.Nodup ∧
      ((∀ sig, sig ∈ ((Reconciler.fresh.run plainId []).tick plainId
          (idleTick false 1000)).1.pendingSigs ↔ sig ∈ proposedSigs [loadM1 false]) ↔
        RunsNoPending (idleTick false 1000) (Reconciler.fresh.run plainId []))) ∧
      proposedSigs [loadM1 false] = [(loadM1 false).sig] :=
  ⟨proposals_mirror plainId plain_id_injective [] (idleTick false 1000) [loadM1 false]
    (by decide +kernel), rfl⟩

/-- Once it is enabled the tick runs the load by itself, and the proposal stays: it is pending
although the plan proposes nothing. -/
theorem enabled_while_pending :
    let r := Reconciler.fresh.run plainId [.tick (idleTick false 1000)]
    (r.tick plainId (idleTick true 1030)).2 = some [loadM1 true] ∧
      proposedSigs [loadM1 true] = [] ∧
      (r.tick plainId (idleTick true 1030)).1.pendingSigs = [(loadM1 true).sig] := by
  refine ⟨?_, rfl, ?_⟩
  · decide +kernel
  · decide +kernel

end Enabled

end SystemsManager.Autopilot
