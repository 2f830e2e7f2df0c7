import SystemsManager.Alarms.Notifications

/-!
# The rate limit

A policy that was selected for an alert is selected again when its repeat interval is over, or when
the alert has been resolved in between. Read `selected_iff`: which policies are selected for a
firing alert is a function of the log alone, whatever was sent, delivered and swept in between.
-/

namespace SystemsManager.Alarms

open Python

namespace Dispatcher

/-- When the policy was last selected for the alert, since the alert was last resolved. -/
def lastSelected (log : List Record) (configId alertId : String) : Option ℚ :=
  log.foldl (fun last r =>
    if r.notification.alert.alertId ≠ alertId then last
    else if r.notification.event = .resolved then none
    else if r.outcome.selected.any fun p => p.configId = configId then some r.notification.now
    else last) none

/-- The repeat interval of the policy is over, or it has none. -/
def RepeatOver (log : List Record) (n : Notification) (p : NotificationConfig) : Prop :=
  p.repeatIntervalMinutes = 0 ∨ ∀ last ∈ lastSelected log p.configId n.alert.alertId,
    (p.repeatIntervalMinutes * 60 : ℚ) ≤ n.now - last

/-- When the dispatcher thinks that a policy has dispatched for an alert. -/
def dispatchedAt (d : Dispatcher) (configId alertId : String) : Option ℚ :=
  if d.dispatchedFirst.contains (configId, alertId) then
    some (d.lastDispatchTs.getD (configId, alertId) 0)
  else none

variable {d d' : Dispatcher} {p : NotificationConfig} {a : Alert} {breaches : Nat} {now : ℚ}
  {configId alertId : String}

theorem SameMemory.dispatched_at (h : SameMemory d d') (configId alertId : String) :
    d'.dispatchedAt configId alertId = d.dispatchedAt configId alertId := by
  rw [dispatchedAt, h.dispatchedFirst, h.lastDispatchTs, dispatchedAt]

theorem dispatched_at_counts (d : Dispatcher) (counts : Dict String Nat)
    (configId alertId : String) :
    dispatchedAt { d with breachCount := counts } configId alertId =
      d.dispatchedAt configId alertId :=
  rfl

theorem is_due_iff : d.isDue p a breaches now = true ↔
    (p.matchesAlert a = true ∧ p.channels ≠ [] ∧ p.minCount ≤ breaches) ∧
      (p.repeatIntervalMinutes = 0 ∨ ∀ last ∈ d.dispatchedAt p.configId a.alertId,
        (p.repeatIntervalMinutes * 60 : ℚ) ≤ now - last) := by
  have hrepeat : d.isRepeat p a.alertId now = false ↔ p.repeatIntervalMinutes = 0 ∨
      ∀ last ∈ d.dispatchedAt p.configId a.alertId,
        (p.repeatIntervalMinutes * 60 : ℚ) ≤ now - last := by
    unfold isRepeat dispatchedAt
    by_cases hzero : p.repeatIntervalMinutes = 0
    · simp [hzero]
    · by_cases hfirst : (p.configId, a.alertId) ∈ d.dispatchedFirst
      · simp [hzero, hfirst, Nat.pos_of_ne_zero hzero]
      · simp [hfirst]
  rw [← hrepeat]
  simp only [isDue, Bool.and_eq_true, decide_eq_true_eq, Bool.not_eq_true',
    List.isEmpty_eq_false_iff]
  tauto

theorem dispatched_at_forget (d : Dispatcher) {resolved : String} :
    (d.forget resolved).dispatchedAt configId alertId =
      if resolved ≠ alertId then d.dispatchedAt configId alertId else none := by
  simp only [dispatchedAt, List.contains_iff_mem, forget, List.mem_filter, decide_eq_true_eq,
    Dict.getD, Dict.get?_filter]
  by_cases halert : resolved = alertId
  · simp [halert]
  · cases d.lastDispatchTs.get? (configId, alertId) with
    | none => simp [halert, Ne.symm halert]
    | some last => simp [Option.filter, halert, Ne.symm halert]

theorem dispatched_at_stamp (d : Dispatcher) :
    (d.stamp p a.alertId now).dispatchedAt configId alertId =
    if alertId = a.alertId ∧ p.configId = configId then some now
    else d.dispatchedAt configId alertId := by
  simp only [dispatchedAt, List.contains_iff_mem, mem_stamp]
  by_cases hkey : (configId, alertId) = (p.configId, a.alertId)
  · cases hkey
    simp [stamp]
  · have hother : ¬ (alertId = a.alertId ∧ p.configId = configId) := by
      rintro ⟨rfl, rfl⟩
      exact hkey rfl
    rw [if_neg hother]
    simp [stamp, hkey]

theorem dispatched_at_firing (policies : List NotificationConfig) (d : Dispatcher) :
    (firing a breaches now policies d).2.dispatchedAt configId alertId =
      if alertId = a.alertId ∧
          ((firing a breaches now policies d).1.any fun p => p.configId = configId) =
            true then some now
      else d.dispatchedAt configId alertId := by
  induction policies generalizing d with
  | nil => simp [firing]
  | cons p rest ih =>
      simp only [firing]
      split
      · rw [ih, dispatched_at_stamp]
        by_cases halert : alertId = a.alertId
        · by_cases hp : p.configId = configId
          · simp [halert, hp]
          · simp [halert, hp]
        · simp [halert]
      · exact ih d

/-- Each policy of the loop is tested as if it were alone. -/
theorem mem_firing_iff {policies : List NotificationConfig}
    (hdistinct : (policies.map NotificationConfig.configId).Nodup) :
    p ∈ (firing a breaches now policies d).1 ↔ p ∈ policies ∧ d.isDue p a breaches now = true := by
  induction policies generalizing d with
  | nil => simp [firing]
  | cons first rest ih =>
      obtain ⟨hfirst, hrest⟩ := List.nodup_cons.mp hdistinct
      simp only [firing]
      split
      · rename_i hdue
        have hsame : p ∈ rest → ((d.stamp first a.alertId now).isDue p a breaches now = true ↔
            d.isDue p a breaches now = true) := by
          intro hp
          have hother : ¬ (a.alertId = a.alertId ∧ first.configId = p.configId) := by
            rintro ⟨-, hid⟩
            exact hfirst (hid ▸ List.mem_map_of_mem hp)
          rw [is_due_iff, is_due_iff, dispatched_at_stamp, if_neg hother]
        rw [List.mem_cons, List.mem_cons, ih hrest, and_congr_right hsame]
        constructor
        · rintro (rfl | ⟨hp, hpdue⟩)
          · exact ⟨.inl rfl, hdue⟩
          · exact ⟨.inr hp, hpdue⟩
        · rintro ⟨rfl | hp, hpdue⟩
          · exact .inl rfl
          · exact .inr ⟨hp, hpdue⟩
      · rename_i hdue
        rw [ih hrest, List.mem_cons]
        constructor
        · rintro ⟨hp, hpdue⟩
          exact ⟨.inr hp, hpdue⟩
        · rintro ⟨rfl | hp, hpdue⟩
          · exact absurd hpdue hdue
          · exact ⟨hp, hpdue⟩

theorem last_selected_concat (log : List Record) (r : Record) (configId alertId : String) :
    lastSelected (log ++ [r]) configId alertId =
      if r.notification.alert.alertId ≠ alertId then lastSelected log configId alertId
      else if r.notification.event = .resolved then none
      else if r.outcome.selected.any fun p => p.configId = configId then some r.notification.now
      else lastSelected log configId alertId := by
  simp [lastSelected]

/-- The dispatcher remembers what the log says. -/
structure Keeps (w : Logged) : Prop where
  last : ∀ configId alertId, w.dispatcher.dispatchedAt configId alertId =
    lastSelected w.log configId alertId
  count : ∀ alertId, w.dispatcher.breachCount.getD alertId 0 = breachesIn w.log alertId

variable {w : Logged}

theorem Keeps.send (h : Keeps w) (n : Notification) : Keeps (w.step (.send n)) := by
  refine ⟨fun configId alertId => ?_, send_count h.count n⟩
  obtain ⟨hselected, hmemory⟩ := send_filters w.dispatcher n
  have hbefore := h.last configId alertId
  simp only [Logged.step]
  rw [hmemory.dispatched_at, last_selected_concat, ← hbefore, hselected]
  cases hevent : n.event with
  | acknowledged =>
      simp only [policiesThatShouldDispatch, List.any_nil]
      simp [dispatched_at_counts]
  | resolved =>
      simp only [policiesThatShouldDispatch, if_true]
      exact dispatched_at_forget w.dispatcher
  | firing =>
      simp only [policiesThatShouldDispatch]
      split
      · simp [dispatched_at_counts]
      · rw [dispatched_at_firing, dispatched_at_counts]
        by_cases halert : n.alert.alertId = alertId
        · simp [halert]
        · simp [halert, Ne.symm halert]

theorem Keeps.same (h : Keeps w) {d : Dispatcher} (hd : SameMemory w.dispatcher d) :
    Keeps ⟨d, w.log⟩ :=
  ⟨fun configId alertId => (hd.dispatched_at configId alertId).trans (h.last configId alertId),
    fun alertId => (congrArg (fun counts => counts.getD alertId 0) hd.breachCount).trans
      (h.count alertId)⟩

theorem keeps_run (activities : List Activity) : Keeps (run activities) := by
  induction activities using List.reverseRecOn with
  | nil => exact ⟨fun _ _ => rfl, fun _ => rfl⟩
  | append_singleton activities act ih =>
      rw [run_concat]
      cases act with
      | send n => exact ih.send n
      | delivered a event clock => exact ih.same (same_memory_delivered _ a event clock)
      | finish alertId claimed => exact ih.same (same_memory_finish _ alertId claimed)

/-- A firing alert that nobody has handled selects a policy exactly if the policy is eligible and
its repeat interval is over since it was last selected for the alert. -/
theorem selected_iff (activities : List Activity) :
    Each (fun before r => r.notification.event = .firing →
      r.notification.alert.status.handled = false → ∀ p, p ∈ r.outcome.selected ↔
        Eligible before r.notification p ∧ RepeatOver before r.notification p)
      (run activities).log := by
  refine each_log ?_
  rintro before n after rfl hfiring hhandled p
  have hkeeps := keeps_run before
  dsimp only at hfiring hhandled ⊢
  have hselected := (send_filters (run before).dispatcher n).1
  rw [hfiring] at hselected
  simp only [policiesThatShouldDispatch, hhandled, Bool.false_eq_true, if_false] at hselected
  have hdistinct : (n.policies.map NotificationConfig.configId).Nodup :=
    n.distinct.sublist (List.filter_sublist.map _)
  rw [hselected, mem_firing_iff hdistinct, is_due_iff, dispatched_at_counts,
    hkeeps.last, hkeeps.count]
  constructor
  · rintro ⟨henabled, ⟨hmatch, hchannels, hcount⟩, hover⟩
    exact ⟨⟨henabled, hmatch, hchannels, hcount⟩, hover⟩
  · rintro ⟨heligible, hover⟩
    exact ⟨heligible.enabled, ⟨heligible.isMatch, heligible.channels, heligible.count⟩, hover⟩

/-- The selection for an alert that fires every quarter of an hour under a repeat interval of half
an hour. -/
example : (run [signal .firing rootAlert [rootAlert] 0, signal .firing rootAlert [rootAlert] 15,
    signal .firing rootAlert [rootAlert] 30]).log.map (fun r =>
      r.outcome.selected.length) = [1, 0, 1] := by
  decide +kernel

end Dispatcher

end SystemsManager.Alarms
