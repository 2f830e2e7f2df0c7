import SystemsManager.Alarms.Dispatcher
import SystemsManager.History

/-!
# Clears and first notifications

A policy that was selected for a firing alert is remembered before the incident of the alert is
asked, and so a policy can be remembered without having notified. Two things rest on that memory:
a clear goes to the policies that have notified (`clears_follow`), and the rate limit holds back
only a policy that has notified (`first_not_delayed`). Both hold along every run in which an
incident silences no policy that has not notified for the alert yet.
-/

namespace SystemsManager.Alarms

open Python

namespace Dispatcher

/-- What a dispatch was asked, and what it came to. -/
structure Record where
  notification : Notification
  outcome : Outcome

/-- What the dispatcher does, step by step. -/
inductive Activity where
  | send (n : Notification)
  | delivered (a : Alert) (event : AlertSignal) (clock : ℚ)
  | finish (alertId : String) (claimed : Option String)

/-- The dispatcher with the log of its dispatches. -/
structure Logged where
  dispatcher : Dispatcher := {}
  log : List Record := []

/-- One step. -/
def Logged.step (w : Logged) : Activity → Logged
  | .send n =>
      ⟨(w.dispatcher.send n).2, w.log ++ [⟨n, (w.dispatcher.send n).1⟩]⟩
  | .delivered a event clock => { w with dispatcher := w.dispatcher.delivered a event clock }
  | .finish alertId claimed => { w with dispatcher := w.dispatcher.finish alertId claimed }

/-- The dispatcher after some steps from the start. -/
def run (activities : List Activity) : Logged := activities.foldl Logged.step {}

/-- A dispatch is about an alert. -/
def Record.about (r : Record) (alertId : String) (event : AlertSignal) : Prop :=
  r.notification.alert.alertId = alertId ∧ r.notification.event = event

/-- The policy notified of the firing alert: it was selected, and the incident did not silence
it. -/
def Record.notified (r : Record) (configId alertId : String) : Prop :=
  r.about alertId .firing ∧ r.outcome.silenced = false ∧
    ∃ p ∈ r.outcome.selected, p.configId = configId

/-- The policy has notified of the alert since the alert was last resolved. -/
def NotifiedSince (log : List Record) (configId alertId : String) : Prop :=
  ∃ before r after, log = before ++ r :: after ∧ r.notified configId alertId ∧
    ∀ later ∈ after, ¬ later.about alertId .resolved

/-- The firing events of an alert in a row: acknowledged, resolved and handled alerts start over. -/
def breachesIn (log : List Record) (alertId : String) : Nat :=
  log.foldl (fun count r =>
    if r.notification.alert.alertId = alertId then
      if r.notification.event = .firing ∧ r.notification.alert.status.handled = false then count + 1
      else 0
    else count) 0

section Memory

variable {d d' : Dispatcher} {n : Notification} {log : List Record} {r : Record}
  {configId alertId : String}

theorem NotifiedSince.concat (h : NotifiedSince log configId alertId)
    (hr : ¬ r.about alertId .resolved) : NotifiedSince (log ++ [r]) configId alertId := by
  obtain ⟨before, first, after, rfl, hnotified, hafter⟩ := h
  refine ⟨before, first, after ++ [r], by simp, hnotified, ?_⟩
  intro later hlater
  rw [List.mem_append, List.mem_singleton] at hlater
  rcases hlater with hlater | rfl
  · exact hafter later hlater
  · exact hr

theorem notified_since_last (hr : r.notified configId alertId) :
    NotifiedSince (log ++ [r]) configId alertId :=
  ⟨log, r, [], rfl, hr, fun later hlater => by cases hlater⟩

/-- The rest of a dispatch leaves the memory of the filters alone. -/
structure SameMemory (d d' : Dispatcher) : Prop where
  breachCount : d'.breachCount = d.breachCount
  lastDispatchTs : d'.lastDispatchTs = d.lastDispatchTs
  dispatchedFirst : d'.dispatchedFirst = d.dispatchedFirst

theorem same_memory_record_incident (d : Dispatcher) (incident : Option String) (clock : ℚ) :
    SameMemory d (d.recordIncident incident clock) := by
  simp only [recordIncident]
  split
  · exact ⟨rfl, rfl, rfl⟩
  · exact ⟨rfl, rfl, rfl⟩

theorem same_memory_sweep (d : Dispatcher) (active : List Alert) (clock : ℚ) :
    SameMemory d (d.sweepIncidentDispatched active clock) := by
  simp only [sweepIncidentDispatched]
  split
  · exact ⟨rfl, rfl, rfl⟩
  · split
    · exact ⟨rfl, rfl, rfl⟩
    · exact ⟨rfl, rfl, rfl⟩

theorem same_memory_delivered (d : Dispatcher) (a : Alert) (event : AlertSignal) (clock : ℚ) :
    SameMemory d (d.delivered a event clock) := by
  simp only [delivered]
  split
  · have hrecord := same_memory_record_incident { d with sendOk := d.sendOk.insert a.alertId }
      a.incidentId clock
    exact ⟨hrecord.breachCount, hrecord.lastDispatchTs, hrecord.dispatchedFirst⟩
  · exact ⟨rfl, rfl, rfl⟩

theorem same_memory_finish (d : Dispatcher) (alertId : String) (claimed : Option String) :
    SameMemory d (d.finish alertId claimed) := by
  simp only [finish]
  split
  · split
    · exact ⟨rfl, rfl, rfl⟩
    · exact ⟨rfl, rfl, rfl⟩
  · exact ⟨rfl, rfl, rfl⟩

theorem send_filters (d : Dispatcher) (n : Notification) :
    (d.send n).1.selected =
      (d.policiesThatShouldDispatch n.alert n.event n.policies n.now).1 ∧
    SameMemory (d.policiesThatShouldDispatch n.alert n.event n.policies n.now).2 (d.send n).2 := by
  simp only [send]
  generalize d.policiesThatShouldDispatch n.alert n.event n.policies n.now = filtered
  have hsweep := same_memory_sweep filtered.2 n.active n.clock
  split
  · refine ⟨rfl, ?_⟩
    have hrecord :=
      same_memory_record_incident (filtered.2.sweepIncidentDispatched n.active n.clock)
      n.alert.incidentId n.clock
    exact ⟨hrecord.breachCount.trans hsweep.breachCount,
      hrecord.lastDispatchTs.trans hsweep.lastDispatchTs,
      hrecord.dispatchedFirst.trans hsweep.dispatchedFirst⟩
  · exact ⟨rfl, hsweep⟩

variable {now : ℚ} {p : NotificationConfig}

theorem mem_stamp {key : String × String} :
    key ∈ (d.stamp p alertId now).dispatchedFirst ↔
      key = (p.configId, alertId) ∨ key ∈ d.dispatchedFirst := by
  simp [stamp]

variable {breaches : Nat} {a : Alert}

attribute [local simp] firing in
theorem mem_firing (policies : List NotificationConfig) (d : Dispatcher) (key : String × String) :
    key ∈ (firing a breaches now policies d).2.dispatchedFirst ↔
      key ∈ d.dispatchedFirst ∨
        ∃ p ∈ (firing a breaches now policies d).1, key = (p.configId, a.alertId) := by
  induction policies generalizing d with
  | nil => simp [firing]
  | cons p rest ih =>
      simp only [firing]
      split
      · rw [ih, mem_stamp]
        simp only [List.mem_cons, exists_eq_or_imp]
        tauto
      · exact ih d

theorem breach_count_firing (policies : List NotificationConfig) (d : Dispatcher) :
    (firing a breaches now policies d).2.breachCount = d.breachCount := by
  induction policies generalizing d with
  | nil => rfl
  | cons p rest ih =>
      simp only [firing]
      split
      · exact ih (d.stamp p a.alertId now)
      · exact ih d

theorem firing_sublist (policies : List NotificationConfig) (d : Dispatcher) :
    (firing a breaches now policies d).1.Sublist policies := by
  induction policies generalizing d with
  | nil => exact .slnil
  | cons p rest ih =>
      simp only [firing]
      split
      · exact (ih _).cons_cons p
      · exact (ih d).cons p

/-- A policy that has not dispatched for the alert is selected by the loop once its other tests
pass: itself, or an entry with its id before it. -/
theorem firing_selects {policies : List NotificationConfig} {d : Dispatcher} (hp : p ∈ policies)
    (hnew : (p.configId, a.alertId) ∉ d.dispatchedFirst) (hmatches : p.matchesAlert a = true)
    (hcount : p.minCount ≤ breaches) (hchannels : p.channels ≠ []) :
    ∃ q ∈ (firing a breaches now policies d).1, q.configId = p.configId := by
  induction policies generalizing d with
  | nil => cases hp
  | cons first rest ih =>
      simp only [firing]
      by_cases hsame : first.configId = p.configId ∧ d.isDue first a breaches now = true
      · rw [if_pos hsame.2]
        exact ⟨first, List.mem_cons_self, hsame.1⟩
      · have hp' : p ∈ rest := by
          rcases List.mem_cons.mp hp with rfl | hp
          · exfalso
            refine hsame ⟨rfl, ?_⟩
            simp [isDue, isRepeat, hmatches, hcount, hchannels, hnew]
          · exact hp
        split
        · rename_i hdue
          have hother : (p.configId,
            a.alertId) ∉ (d.stamp first a.alertId now).dispatchedFirst := by
            rw [mem_stamp]
            rintro (hkey | hkey)
            · exact hsame ⟨(congrArg Prod.fst hkey).symm, hdue⟩
            · exact hnew hkey
          obtain ⟨q, hq, hqid⟩ := ih hp' hother
          exact ⟨q, List.mem_cons_of_mem _ hq, hqid⟩
        · exact ih hp' hnew

theorem due_of_firing {policies : List NotificationConfig} {d : Dispatcher}
    (hp : p ∈ (firing a breaches now policies d).1) :
    p.matchesAlert a = true ∧ p.channels ≠ [] ∧ p.minCount ≤ breaches := by
  induction policies generalizing d with
  | nil => cases hp
  | cons first rest ih =>
      simp only [firing] at hp
      split at hp
      · rename_i hdue
        rcases List.mem_cons.mp hp with rfl | hp
        · simp only [isDue, Bool.and_eq_true, decide_eq_true_eq, Bool.not_eq_true',
            List.isEmpty_eq_false_iff] at hdue
          exact ⟨hdue.1.1.1, hdue.2, hdue.1.1.2⟩
        · exact ih hp
      · exact ih hp

theorem filters_incidents (d : Dispatcher) (a : Alert) (event : AlertSignal)
    (policies : List NotificationConfig) (now : ℚ) :
    (d.policiesThatShouldDispatch a event policies now).2.incidentDispatched =
      d.incidentDispatched ∧
    (d.policiesThatShouldDispatch a event policies now).2.lastSweepTs = d.lastSweepTs := by
  have hloop : ∀ (breaches : Nat) (policies : List NotificationConfig) (d : Dispatcher),
      (firing a breaches now policies d).2.incidentDispatched = d.incidentDispatched ∧
        (firing a breaches now policies d).2.lastSweepTs = d.lastSweepTs := by
    intro breaches policies
    induction policies with
    | nil => exact fun d => ⟨rfl, rfl⟩
    | cons p rest ih =>
        intro d
        simp only [firing]
        split
        · exact ih (d.stamp p a.alertId now)
        · exact ih d
  cases event with
  | acknowledged => exact ⟨rfl, rfl⟩
  | resolved => exact ⟨rfl, rfl⟩
  | firing =>
      simp only [policiesThatShouldDispatch]
      split
      · exact ⟨rfl, rfl⟩
      · exact hloop _ _ _

theorem send_silenced (d : Dispatcher) (n : Notification) : (d.send n).1.silenced =
    (d.sweepIncidentDispatched n.active n.clock).incidentChannelSuppressed n.alert n.event
      n.notifyPerIncident := by
  obtain ⟨hincidents, hlast⟩ := filters_incidents d n.alert n.event n.policies n.now
  have hswept : ((d.policiesThatShouldDispatch n.alert n.event n.policies
      n.now).2.sweepIncidentDispatched n.active n.clock).incidentDispatched =
      (d.sweepIncidentDispatched n.active n.clock).incidentDispatched := by
    simp only [sweepIncidentDispatched, hincidents, hlast]
    split
    · exact hincidents
    · split
      · exact hincidents
      · rfl
  simp only [send]
  split <;> simp only [incidentChannelSuppressed, hswept]

theorem Outcome.mem_channels {out : Outcome} (h : out.silenced = false) {channel : String} :
    channel ∈ out.channels ↔ ∃ p ∈ out.selected, channel ∈ p.channels := by
  simp [Outcome.channels, h]

end Memory

section Runs

/-- The alert has joined an incident that has already notified, after the sweep. -/
def Silenced (d : Dispatcher) (n : Notification) : Prop :=
  (d.sweepIncidentDispatched n.active n.clock).incidentChannelSuppressed n.alert n.event
    n.notifyPerIncident = true

/-- An enabled policy with channels that matches the alert, which has fired often enough. -/
structure Eligible (log : List Record) (n : Notification) (p : NotificationConfig) : Prop where
  enabled : p ∈ n.policies
  isMatch : p.matchesAlert n.alert = true
  channels : p.channels ≠ []
  count : p.minCount ≤ breachesIn log n.alert.alertId + 1

/-- An incident silences a firing alert only for policies that have notified of it. -/
def SilencesHeard (w : Logged) : Activity → Prop
  | .send n => n.event = .firing → n.alert.status.handled = false → Silenced w.dispatcher n →
      ∀ p, Eligible w.log n p → NotifiedSince w.log p.configId n.alert.alertId
  | _ => True

/-- What is remembered of a policy and an alert is that it has notified, and the counts are those
of the log. -/
structure Remembers (w : Logged) : Prop where
  first : ∀ configId alertId, (configId, alertId) ∈ w.dispatcher.dispatchedFirst →
    NotifiedSince w.log configId alertId
  count : ∀ alertId, w.dispatcher.breachCount.getD alertId 0 = breachesIn w.log alertId

variable {w : Logged} {act : Activity} {activities : List Activity}

theorem breaches_concat (log : List Record) (r : Record) (alertId : String) :
    breachesIn (log ++ [r]) alertId =
      if r.notification.alert.alertId = alertId then
        if r.notification.event = .firing ∧ r.notification.alert.status.handled = false then
          breachesIn log alertId + 1
        else 0
      else breachesIn log alertId := by
  simp [breachesIn]

theorem send_count
    (h : ∀ alertId, w.dispatcher.breachCount.getD alertId 0 = breachesIn w.log alertId)
    (n : Notification) (alertId : String) :
    (w.dispatcher.send n).2.breachCount.getD alertId 0 =
      breachesIn (w.log ++ [⟨n, (w.dispatcher.send n).1⟩]) alertId := by
  rw [(send_filters w.dispatcher n).2.breachCount, breaches_concat, ← h alertId]
  cases hevent : n.event with
  | acknowledged =>
      simp only [policiesThatShouldDispatch, Dict.getD, Dict.get?_erase]
      by_cases hid : alertId = n.alert.alertId
      · simp [hid]
      · simp [hid, Ne.symm hid]
  | resolved =>
      simp only [policiesThatShouldDispatch, forget, Dict.getD, Dict.get?_erase]
      by_cases hid : alertId = n.alert.alertId
      · simp [hid]
      · simp [hid, Ne.symm hid]
  | firing =>
      simp only [policiesThatShouldDispatch]
      cases hhandled : n.alert.status.handled with
      | true =>
          simp only [if_true, Dict.getD, Dict.get?_erase]
          by_cases hid : alertId = n.alert.alertId
          · simp [hid]
          · simp [hid, Ne.symm hid]
      | false =>
          simp only [Bool.false_eq_true, if_false, breach_count_firing, Dict.getD_set]
          by_cases hid : alertId = n.alert.alertId
          · simp [hid]
          · simp [hid, Ne.symm hid]

theorem Remembers.send_first (h : Remembers w) {n : Notification}
    (hheard : SilencesHeard w (.send n)) {configId alertId : String}
    (hkey : (configId, alertId) ∈ (w.dispatcher.send n).2.dispatchedFirst) :
    NotifiedSince (w.log ++ [⟨n, (w.dispatcher.send n).1⟩]) configId alertId := by
  obtain ⟨hselected, hmemory⟩ := send_filters w.dispatcher n
  rw [hmemory.dispatchedFirst] at hkey
  cases hevent : n.event with
  | acknowledged =>
      rw [hevent] at hkey
      refine (h.first _ _ hkey).concat ?_
      rintro ⟨-, hresolved⟩
      rw [hevent] at hresolved
      cases hresolved
  | resolved =>
      -- What is left is about other alerts.
      rw [hevent] at hkey
      simp only [policiesThatShouldDispatch, forget, List.mem_filter, decide_eq_true_eq] at hkey
      refine (h.first _ _ hkey.1).concat ?_
      rintro ⟨habout, -⟩
      exact hkey.2 habout.symm
  | firing =>
      have hkept : ∀ configId alertId, NotifiedSince w.log configId alertId →
          NotifiedSince (w.log ++ [⟨n, (w.dispatcher.send n).1⟩]) configId alertId := by
        intro configId alertId hsince
        refine hsince.concat ?_
        rintro ⟨-, hresolved⟩
        rw [hevent] at hresolved
        cases hresolved
      rw [hevent] at hkey hselected
      simp only [policiesThatShouldDispatch] at hkey hselected
      split at hkey
      · exact hkept _ _ (h.first _ _ hkey)
      · rename_i hhandled
        rw [if_neg hhandled] at hselected
        rw [Bool.not_eq_true] at hhandled
        rw [mem_firing] at hkey
        rcases hkey with hkey | ⟨p, hp, hkey⟩
        · exact hkept _ _ (h.first _ _ hkey)
        · cases hkey
          cases hsilenced : (w.dispatcher.send n).1.silenced with
          | false =>
              refine notified_since_last ⟨⟨rfl, hevent⟩, hsilenced, p, ?_, rfl⟩
              rw [hselected]
              exact hp
          | true =>
              obtain ⟨hmatch, hchannels, hcount⟩ := due_of_firing hp
              rw [h.count] at hcount
              refine hkept _ _ (hheard hevent hhandled ?_ p ⟨?_, hmatch, hchannels, hcount⟩)
              · rw [send_silenced] at hsilenced
                exact hsilenced
              · exact (firing_sublist _ _).subset hp

theorem Remembers.step (h : Remembers w) (hheard : SilencesHeard w act) :
    Remembers (w.step act) := by
  cases act with
  | send n => exact ⟨fun _ _ hkey => h.send_first hheard hkey, send_count h.count n⟩
  | delivered a event clock =>
      have hsame := same_memory_delivered w.dispatcher a event clock
      exact ⟨fun configId alertId hkey => h.first _ _ (hsame.dispatchedFirst ▸ hkey),
        fun alertId => (congrArg (fun counts => counts.getD alertId 0) hsame.breachCount).trans
          (h.count alertId)⟩
  | finish alertId claimed =>
      have hsame := same_memory_finish w.dispatcher alertId claimed
      exact ⟨fun configId alertId hkey => h.first _ _ (hsame.dispatchedFirst ▸ hkey),
        fun alertId => (congrArg (fun counts => counts.getD alertId 0) hsame.breachCount).trans
          (h.count alertId)⟩

theorem run_concat (activities : List Activity) (act : Activity) :
    run (activities ++ [act]) = (run activities).step act := by
  simp [run]

theorem remembers_run (hheard :
    Each (fun before act => SilencesHeard (run before) act) activities) :
    Remembers (run activities) := by
  induction activities using List.reverseRecOn with
  | nil =>
      refine ⟨?_, fun _ => rfl⟩
      intro configId alertId hkey
      cases hkey
  | append_singleton activities act ih =>
      rw [each_concat] at hheard
      rw [run_concat]
      exact (ih hheard.1).step hheard.2

theorem each_log {Q : List Record → Record → Prop}
    (hsend : ∀ before n after, activities = before ++ .send n :: after →
      Q (run before).log ⟨n, ((run before).dispatcher.send n).1⟩) :
    Each Q (run activities).log := by
  induction activities using List.reverseRecOn with
  | nil => exact each_nil
  | append_singleton activities act ih =>
      have hearlier := ih fun before n after heq => hsend before n (after ++ [act]) (by simp [heq])
      rw [run_concat]
      cases act with
      | send n => exact each_concat.mpr ⟨hearlier, hsend activities n [] rfl⟩
      | delivered a event clock => exact hearlier
      | finish alertId claimed => exact hearlier

/-- A clear goes only to policies that have notified of the alert since it was last resolved. -/
theorem clears_follow (activities : List Activity)
    (hheard : Each (fun before act => SilencesHeard (run before) act) activities) :
    Each (fun before r => r.notification.event = .resolved → ∀ p ∈ r.outcome.selected,
      NotifiedSince before p.configId r.notification.alert.alertId) (run activities).log := by
  refine each_log ?_
  rintro before n after rfl hresolved p hp
  have hremembers := remembers_run hheard.part
  rw [(send_filters _ n).1, hresolved] at hp
  have hcleared := (List.mem_filter.mp hp).2
  simp only [isCleared, Bool.and_eq_true, List.contains_iff_mem] at hcleared
  exact hremembers.first _ _ hcleared.1.2

/-- A policy that has not notified of an alert since it was last resolved has its channels selected
when the alert fires often enough, unless the alert has joined an incident that has notified. -/
theorem first_not_delayed (activities : List Activity)
    (hheard : Each (fun before act => SilencesHeard (run before) act) activities) :
    Each (fun before r => r.notification.event = .firing →
      r.notification.alert.status.handled = false → ∀ p, Eligible before r.notification p →
      ¬ NotifiedSince before p.configId r.notification.alert.alertId →
      r.outcome.silenced = false → ∀ channel ∈ p.channels, channel ∈ r.outcome.channels)
      (run activities).log := by
  refine each_log ?_
  rintro before n after rfl hfiring hhandled p hp hnew hsilenced channel hchannel
  have hremembers := remembers_run hheard.part
  have hselected := (send_filters (run before).dispatcher n).1
  rw [hfiring] at hselected
  simp only [policiesThatShouldDispatch, hhandled, Bool.false_eq_true, if_false] at hselected
  have hcount : p.minCount ≤ (run before).dispatcher.breachCount.getD n.alert.alertId 0 + 1 := by
    rw [hremembers.count]
    exact hp.count
  obtain ⟨q, hq, hqid⟩ := firing_selects (d := { (run before).dispatcher with
      breachCount := (run before).dispatcher.breachCount.set n.alert.alertId
        ((run before).dispatcher.breachCount.getD n.alert.alertId 0 + 1) }) hp.enabled
    (fun hkey => hnew (hremembers.first _ _ hkey)) hp.isMatch hcount hp.channels
  have hsame : q = p := by
    have hmem := (firing_sublist _ _).subset hq
    exact List.inj_on_of_nodup_map n.distinct (List.mem_filter.mp hmem).1
      (List.mem_filter.mp hp.enabled).1 hqid
  subst hsame
  have hq' : q ∈ ((run before).dispatcher.send n).1.selected := by
    rw [hselected]
    exact hq
  exact (Outcome.mem_channels hsilenced).mpr ⟨q, hq', hchannel⟩

/-- A policy that also sends clears. -/
def mailPolicy : NotificationConfig where
  configId := "p"
  channels := ["mail"]
  notifyOnClear := true

/-- What happens to an alert, one minute after the other, while some alerts are ongoing. -/
def signal (event : AlertSignal) (a : Alert) (active : List Alert) (minute : ℚ) : Activity :=
  .send ⟨event, a, [mailPolicy], by decide, active, true, 60 * minute, 60 * minute⟩

/-- The alert that begins the incident. -/
def rootAlert : Alert := AeAlarmsDB.plainAlert "a" "r" .active

/-- An alert that joins the incident. -/
def joiner : Alert := { AeAlarmsDB.plainAlert "b" "s" .active with incidentId := some "a" }

/-- A single alert is notified of and cleared. -/
theorem clears_follow_single :
    Each (fun before r => r.notification.event = .resolved → ∀ p ∈ r.outcome.selected,
      NotifiedSince before p.configId r.notification.alert.alertId)
      (run ([] ++ [signal .firing rootAlert [rootAlert] 0] ++
        [signal .resolved rootAlert [] 1])).log := by
  refine clears_follow _ ?_
  rw [each_concat, each_concat]
  refine ⟨⟨each_nil, ?_⟩, ?_⟩
  · intro _ _ hsilenced
    exact absurd hsilenced (by unfold Silenced; decide +kernel)
  · intro hfiring
    cases hfiring

/-- The incident notifies, and then silences the alert that joins it. -/
def silencedJoiner : List Activity :=
  [signal .firing rootAlert [rootAlert] 0, .delivered rootAlert .firing 1, .finish "a" (some "a"),
    signal .firing joiner [rootAlert, joiner] 1, .finish "b" none]

/-- The clear of an alert of which the incident silenced every notification. -/
theorem stray_clear : ¬ ∀ activities : List Activity,
    Each (fun before r => r.notification.event = .resolved → ∀ p ∈ r.outcome.selected,
      NotifiedSince before p.configId r.notification.alert.alertId) (run activities).log := by
  intro h
  have heach := h (silencedJoiner ++ [signal .resolved joiner [rootAlert] 2])
  rw [run_concat] at heach
  obtain ⟨before, r, after, hlog, ⟨habout, hsilenced, -⟩, -⟩ :=
    (each_concat.mp heach).2 rfl mailPolicy (by decide +kernel)
  have hall : ∀ r ∈ (run silencedJoiner).log,
      r.notification.alert.alertId = "b" → r.outcome.silenced = true := by decide +kernel
  have hmem : r ∈ (run silencedJoiner).log := by
    rw [hlog]
    simp
  rw [hall r hmem habout.1] at hsilenced
  cases hsilenced

/-- A single alert is notified of. -/
theorem first_not_delayed_single :
    Each (fun before r => r.notification.event = .firing →
      r.notification.alert.status.handled = false → ∀ p, Eligible before r.notification p →
      ¬ NotifiedSince before p.configId r.notification.alert.alertId →
      r.outcome.silenced = false → ∀ channel ∈ p.channels, channel ∈ r.outcome.channels)
      (run ([] ++ [signal .firing rootAlert [rootAlert] 0])).log := by
  refine first_not_delayed _ ?_
  rw [each_concat]
  refine ⟨each_nil, ?_⟩
  intro _ _ hsilenced
  exact absurd hsilenced (by unfold Silenced; decide +kernel)

/-- The alert that began the incident is resolved. -/
def incidentOver : List Activity :=
  silencedJoiner ++ [signal .resolved rootAlert [joiner] 2, .delivered rootAlert .resolved 121,
    .finish "a" none]

/-- The incident is over, and the alert that had joined it is held back by the rate limit. -/
theorem delayed_first : ¬ ∀ activities : List Activity,
    Each (fun before r => r.notification.event = .firing →
      r.notification.alert.status.handled = false → ∀ p, Eligible before r.notification p →
      ¬ NotifiedSince before p.configId r.notification.alert.alertId →
      r.outcome.silenced = false → ∀ channel ∈ p.channels, channel ∈ r.outcome.channels)
      (run activities).log := by
  intro h
  have heach := h (incidentOver ++ [signal .firing joiner [joiner] 3])
  rw [run_concat] at heach
  have hsent := (each_concat.mp heach).2 rfl rfl mailPolicy ⟨by decide +kernel, by decide +kernel,
    by decide +kernel, by decide +kernel⟩ ?_ (by decide +kernel) "mail" (by decide)
  · revert hsent
    decide +kernel
  · rintro ⟨before, r, after, hlog, ⟨habout, hsilenced, -⟩, -⟩
    have hall : ∀ r ∈ (run incidentOver).log,
        r.notification.alert.alertId = "b" → r.outcome.silenced = true := by decide +kernel
    have hmem : r ∈ (run incidentOver).log := by
      rw [hlog]
      simp
    rw [hall r hmem habout.1] at hsilenced
    cases hsilenced

end Runs

end Dispatcher

end SystemsManager.Alarms
