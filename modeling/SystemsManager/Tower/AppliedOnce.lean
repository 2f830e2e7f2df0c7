import SystemsManager.Tower.Insights

/-!
# A playbook is applied once

An insight is claimed only from the statuses `new` and `seen`, and only a run leaves `applying`.
`Phase` says what each status tells of the notes, and `Good` collects it with the order of the
notes. Read `playbook_applied_once`.
-/

namespace SystemsManager.Tower

open Concurrency

section Notes

/-- The threads that run the steps. -/
def inProgress (history : List Event) : List ℕ :=
  history.foldl (fun running e =>
    match e with
    | .started t => running ++ [t]
    | .ended t _ => running.erase t
    | .step _ | .dismissed => running) []

/-- A run of the steps has succeeded. -/
def Succeeded (history : List Event) : Prop := ∃ t, Event.ended t true ∈ history

/-- A dismissal took effect after a run that succeeded. -/
def DismissedAfterSuccess (history : List Event) : Prop :=
  ∃ before t after, history = before ++ .ended t true :: after ∧ Event.dismissed ∈ after

/-- When an event may happen: a run starts while no other is in progress, and neither after one that
succeeded nor after a dismissal; it takes its steps and ends while it is the one in progress. -/
def Allowed (before : List Event) : Event → Prop
  | .started _ => inProgress before = [] ∧ ¬ Succeeded before ∧ Event.dismissed ∉ before
  | .step t => inProgress before = [t]
  | .ended t _ => inProgress before = [t]
  | .dismissed => inProgress before = []

/-- What a status tells of the notes. -/
def Phase (history : List Event) : Option InsightStatus → Prop
  | none | some .new | some .seen =>
      inProgress history = [] ∧ ¬ Succeeded history ∧ Event.dismissed ∉ history
  | some .applying =>
      (∃ t, inProgress history = [t]) ∧ ¬ Succeeded history ∧ Event.dismissed ∉ history
  | some .applied => inProgress history = [] ∧ Succeeded history
  | some .dismissed =>
      inProgress history = [] ∧ (Succeeded history → DismissedAfterSuccess history)

/-- The notes of an insight are in order, and its status agrees with them. -/
structure Good (status : Option InsightStatus) (history : List Event) : Prop where
  each : Each Allowed history
  phase : Phase history status

variable {history : List Event} {e : Event} {t : ℕ}

/-- The runs in progress after one more event. -/
theorem in_progress_concat (history : List Event) (e : Event) : inProgress (history ++ [e]) =
    match e with
    | .started t => inProgress history ++ [t]
    | .ended t _ => (inProgress history).erase t
    | .step _ | .dismissed => inProgress history := by
  unfold inProgress
  rw [List.foldl_append]
  rfl

/-- Success after one more event. -/
theorem succeeded_concat : Succeeded (history ++ [e]) ↔ Succeeded history ∨
    ∃ t, e = .ended t true := by
  constructor
  · rintro ⟨t, hmem⟩
    rcases List.mem_append.mp hmem with hmem | hmem
    · exact Or.inl ⟨t, hmem⟩
    · exact Or.inr ⟨t, (List.mem_singleton.mp hmem).symm⟩
  · rintro (⟨t, hmem⟩ | ⟨t, rfl⟩)
    · exact ⟨t, List.mem_append_left _ hmem⟩
    · exact ⟨t, List.mem_append_right _ (List.mem_singleton_self _)⟩

/-- A dismissal after success. -/
theorem dismissed_after_success (h : Succeeded history) :
    DismissedAfterSuccess (history ++ [.dismissed]) := by
  obtain ⟨t, hmem⟩ := h
  obtain ⟨before, after, rfl⟩ := List.append_of_mem hmem
  refine ⟨before, t, after ++ [.dismissed], ?_, List.mem_append_right _ (List.mem_singleton_self _)⟩
  rw [List.append_assoc, List.cons_append]

theorem DismissedAfterSuccess.succeeded (h : DismissedAfterSuccess history) :
    Succeeded history := by
  obtain ⟨before, t, after, rfl, _⟩ := h
  exact ⟨t, List.mem_append_right _ (List.mem_cons_self ..)⟩

/-- The thread in progress holds the claim. -/
theorem Good.claimed {status : Option InsightStatus} (h : Good status history)
    (hrun : inProgress history = [t]) : status = some .applying := by
  have hphase := h.phase
  cases status with
  | none => exact absurd (hrun.symm.trans hphase.1) (List.cons_ne_nil _ _)
  | some status =>
      cases status with
      | applying => rfl
      | new | seen | applied | dismissed =>
          exact absurd (hrun.symm.trans hphase.1) (List.cons_ne_nil _ _)

/-- An open insight is claimed. -/
theorem Good.start {status : InsightStatus} (h : Good (some status) history)
    (hopen : status = .new ∨ status = .seen) (t : ℕ) :
    Good (some .applying) (history ++ [.started t]) := by
  have hphase : inProgress history = [] ∧ ¬ Succeeded history ∧ Event.dismissed ∉ history := by
    rcases hopen with rfl | rfl
    · exact h.phase
    · exact h.phase
  obtain ⟨hidle, hnot, hkept⟩ := hphase
  refine ⟨each_concat.mpr ⟨h.each, hidle, hnot, hkept⟩, ⟨t, ?_⟩, ?_, ?_⟩
  · rw [in_progress_concat, hidle]
    rfl
  · rw [succeeded_concat, not_or]
    exact ⟨hnot, fun ⟨u, hu⟩ => by cases hu⟩
  · rw [List.mem_append, not_or]
    exact ⟨hkept, fun hmem => by cases List.mem_singleton.mp hmem⟩

theorem Good.step {status : Option InsightStatus} (h : Good status history)
    (hrun : inProgress history = [t]) : Good status (history ++ [.step t]) := by
  have hstatus := h.claimed hrun
  subst hstatus
  obtain ⟨-, hnot, hkept⟩ := h.phase
  refine ⟨each_concat.mpr ⟨h.each, hrun⟩, ⟨t, ?_⟩, ?_, ?_⟩
  · rw [in_progress_concat]
    exact hrun
  · rw [succeeded_concat, not_or]
    exact ⟨hnot, fun ⟨u, hu⟩ => by cases hu⟩
  · rw [List.mem_append, not_or]
    exact ⟨hkept, fun hmem => by cases List.mem_singleton.mp hmem⟩

/-- A run ends, and writes whether it has succeeded. -/
theorem Good.finish {status : Option InsightStatus} (h : Good status history)
    (hrun : inProgress history = [t]) {ok : Bool} {back : InsightStatus}
    (hback : back = .new ∨ back = .seen) :
    Good (some (if ok then .applied else back)) (history ++ [.ended t ok]) := by
  have hstatus := h.claimed hrun
  subst hstatus
  obtain ⟨-, hnot, hkept⟩ := h.phase
  have hidle : inProgress (history ++ [.ended t ok]) = [] := by
    rw [in_progress_concat]
    show (inProgress history).erase t = []
    rw [hrun, List.erase_cons_head]
  refine ⟨each_concat.mpr ⟨h.each, hrun⟩, ?_⟩
  cases ok with
  | true => exact ⟨hidle, succeeded_concat.mpr (Or.inr ⟨t, rfl⟩)⟩
  | false =>
      have hopen : inProgress (history ++ [.ended t false]) = [] ∧
          ¬ Succeeded (history ++ [.ended t false]) ∧
          Event.dismissed ∉ history ++ [.ended t false] := by
        refine ⟨hidle, ?_, ?_⟩
        · rw [succeeded_concat, not_or]
          exact ⟨hnot, fun ⟨u, hu⟩ => by cases hu⟩
        · rw [List.mem_append, not_or]
          exact ⟨hkept, fun hmem => by cases List.mem_singleton.mp hmem⟩
      rcases hback with rfl | rfl
      · exact hopen
      · exact hopen

theorem Good.dismiss {status : InsightStatus} (h : Good (some status) history)
    (hopen : status = .new ∨ status = .seen ∨ status = .applied) :
    Good (some .dismissed) (history ++ [.dismissed]) := by
  have hidle : inProgress history = [] := by
    rcases hopen with rfl | rfl | rfl
    · exact h.phase.1
    · exact h.phase.1
    · exact h.phase.1
  refine ⟨each_concat.mpr ⟨h.each, hidle⟩, ?_, fun hdone => ?_⟩
  · rw [in_progress_concat]
    exact hidle
  · rcases succeeded_concat.mp hdone with hdone | ⟨t, ht⟩
    · exact dismissed_after_success hdone
    · cases ht

theorem Good.see (h : Good (some .new) history) : Good (some .seen) history := ⟨h.each, h.phase⟩

end Notes

section Operations

/-- The status of an insight. -/
def World.statusOf (w : World) (iid : String) : Option InsightStatus :=
  (w.table iid).map Insight.status

-- the insights that are watched
variable {P : String → Prop}

/-- Every insight that is watched is good. -/
def AllGood (P : String → Prop) (w : World) : Prop :=
  ∀ iid, P iid → Good (w.statusOf iid) (w.history iid)

/-- The thread runs the steps of the insight, if it is watched. -/
def Runs (P : String → Prop) (t : ℕ) (iid : String) (w : World) : Prop :=
  P iid → inProgress (w.history iid) = [t]

/-- Nobody ends the runs of others. -/
def Leaves (P : String → Prop) (t : ℕ) (w w' : World) : Prop :=
  ∀ iid u, u ≠ t → Runs P u iid w → Runs P u iid w'

/-- What the threads promise each other. -/
def runs (P : String → Prop) : Contract ℕ World where
  inv := AllGood P
  guar := Leaves P
  idle _ _ := True

variable {t : ℕ} {iid : String} {w w' : World}

theorem runs_stable (t : ℕ) (iid : String) : (runs P).Stable t (Runs P t iid) :=
  fun _ hu _ _ _ _ hguar h => hguar iid t (Ne.symm hu) h

/-- Only one insight has changed. -/
structure Only (iid : String) (w w' : World) : Prop where
  table : ∀ other, other ≠ iid → w'.table other = w.table other
  history : ∀ other, other ≠ iid → w'.history other = w.history other

theorem Only.good (h : Only iid w w') (hgood : AllGood P w)
    (hiid : P iid → Good (w'.statusOf iid) (w'.history iid)) : AllGood P w' := by
  intro other hP
  by_cases hother : other = iid
  · subst hother
    exact hiid hP
  · rw [World.statusOf, h.table other hother, h.history other hother]
    exact hgood other hP

theorem Only.leaves (h : Only iid w w')
    (hiid : ∀ u, u ≠ t → Runs P u iid w → Runs P u iid w') : Leaves P t w w' := by
  intro other u hu hrun
  by_cases hother : other = iid
  · subst hother
    exact hiid u hu hrun
  · unfold Runs
    rw [h.history other hother]
    exact hrun

theorem only_put (w : World) (iid : String) (row : Insight) : Only iid w (w.put iid row) where
  table _ hother := Function.update_of_ne hother _ _
  history _ _ := rfl

theorem only_note (w : World) (iid : String) (e : Event) : Only iid w (w.note iid e) where
  table _ _ := rfl
  history _ hother := Function.update_of_ne hother _ _

theorem Only.trans {w'' : World} (h : Only iid w w') (h' : Only iid w' w'') : Only iid w w'' where
  table other hother := (h'.table other hother).trans (h.table other hother)
  history other hother := (h'.history other hother).trans (h.history other hother)

@[simp] theorem status_put (w : World) (iid : String) (row : Insight) :
    (w.put iid row).statusOf iid = some row.status := by
  show (Function.update w.table iid (some row) iid).map Insight.status = _
  rw [Function.update_self]
  rfl

@[simp] theorem history_note (w : World) (iid : String) (e : Event) :
    (w.note iid e).history iid = w.history iid ++ [e] :=
  Function.update_self iid _ w.history

/-- The operation asks only. -/
def Quiet : Op → Prop
  | .gate | .settings | .playbook _ | .permitted _ | .current .. | .validateArgs
    _ | .getInsight _ =>
      True
  | .runTool .. | .createInsight .. | .claimInsight _ | .setInsightStatus .. | .markInsightsSeen
  | .dismissInsights => False

/-- Such an operation changes nothing. -/
theorem exec_quiet {op : Op} {a : op.Ans} {r : op.Res} (hquiet : Quiet op)
    (h : exec t op a w = some (r, w')) : w' = w := by
  cases op with
  | gate | settings | playbook | permitted | current | validateArgs | getInsight =>
      cases h
      rfl
  | runTool | createInsight | claimInsight | setInsightStatus | markInsightsSeen
      | dismissInsights =>
      exact hquiet.elim

theorem exec_create {insight : NewInsight} {created : Bool} (hgood : AllGood P w)
    (h : exec t (.createInsight iid insight) () w = some (created, w')) :
    AllGood P w' ∧ Leaves P t w w' := by
  rw [exec] at h
  split at h
  · cases h
    exact ⟨hgood, fun _ _ _ hrun => hrun⟩
  · rename_i hnone
    cases h
    have honly : Only iid w
        { w.put iid insight.row with alerts := w.alerts ++ [insight.alertId] } :=
      ⟨(only_put w iid insight.row).table, (only_put w iid insight.row).history⟩
    have hmissing : w.statusOf iid = none := by
      have hrow : ¬ (w.table iid).isSome = true := fun hsome => hnone (by rw [hsome]; rfl)
      rw [World.statusOf, Option.not_isSome_iff_eq_none.mp hrow]
      rfl
    refine ⟨honly.good hgood fun hP => ?_, honly.leaves fun _ _ hrun => hrun⟩
    have hiid := hgood iid hP
    rw [hmissing] at hiid
    have hnew : ({ w.put iid insight.row with alerts := w.alerts ++ [insight.alertId] } :
        World).statusOf iid = some .new := status_put w iid insight.row
    rw [hnew]
    exact ⟨hiid.each, hiid.phase⟩

theorem exec_claim {claimed : Bool} (hgood : AllGood P w)
    (h : exec t (.claimInsight iid) () w = some (claimed, w')) :
    AllGood P w' ∧ Leaves P t w w' ∧ (claimed = true → Runs P t iid w') := by
  rw [exec] at h
  split at h
  · cases h
    exact ⟨hgood, fun _ _ _ hrun => hrun, fun hclaimed => by cases hclaimed⟩
  · rename_i row hrow
    split at h
    · rename_i hopen
      cases h
      have hiid : P iid → Good (some row.status) (w.history iid) := by
        intro hP
        have hgood := hgood iid hP
        rwa [World.statusOf, hrow] at hgood
      have hidle : P iid → inProgress (w.history iid) = [] := by
        intro hP
        have hphase := (hiid hP).phase
        rcases hopen with hnew | hseen
        · rw [hnew] at hphase
          exact hphase.1
        · rw [hseen] at hphase
          exact hphase.1
      have honly := (only_put w iid { row with status := .applying }).trans
        (only_note _ iid (.started t))
      refine ⟨honly.good hgood fun hP => ?_, honly.leaves fun u _ hrun hP => ?_, fun _ hP => ?_⟩
      · rw [history_note]
        show Good ((w.put iid { row with status := .applying }).statusOf iid) _
        rw [status_put]
        exact (hiid hP).start hopen t
      · exact absurd ((hrun hP).symm.trans (hidle hP)) (List.cons_ne_nil _ _)
      · show inProgress
          (((w.put iid { row with status := .applying }).note iid (.started t)).history
          iid) = [t]
        rw [history_note, in_progress_concat]
        show inProgress (w.history iid) ++ [t] = [t]
        rw [hidle hP, List.nil_append]
    · cases h
      exact ⟨hgood, fun _ _ _ hrun => hrun, fun hclaimed => by cases hclaimed⟩

theorem exec_step {step : Step} {answer : ToolAnswer} (hgood : AllGood P w) (hrun : Runs P t iid w)
    (h : exec t (.runTool iid step) answer w = some (answer, w')) :
    AllGood P w' ∧ Leaves P t w w' ∧ Runs P t iid w' := by
  cases h
  have honly := only_note w iid (.step t)
  have hsame : inProgress ((w.note iid (.step t)).history iid) = inProgress (w.history iid) := by
    rw [history_note, in_progress_concat]
  refine ⟨honly.good hgood fun hP => ?_, honly.leaves fun u _ hother hP => hsame.trans (hother hP),
    fun hP => hsame.trans (hrun hP)⟩
  rw [history_note]
  exact (hgood iid hP).step (hrun hP)

theorem exec_set_only {status : InsightStatus} {actor : Option String} {res : Outcome}
    {states : List InsightStatus} {now : ℚ} {moved : Bool}
    (h : exec t (.setInsightStatus iid status actor (some res) states) now w = some (moved, w')) :
    Only iid w w' := by
  have hended := only_note w iid (.ended t res.ok)
  rw [exec] at h
  dsimp only at h
  split at h
  · cases h
    exact hended
  · split at h
    · cases h
      split
      · exact (hended.trans (only_put ..)).trans (only_note ..)
      · exact hended.trans (only_put ..)
    · cases h
      exact hended

theorem exec_finish {res : Outcome} {back : InsightStatus} {actor : Option String} {now : ℚ}
    {moved : Bool} (hback : back = .new ∨ back = .seen) (hgood : AllGood P w)
    (hrun : Runs P t iid w)
    (h : exec t (.setInsightStatus iid (if res.ok then .applied else back) actor (some res)
      [.applying]) now w = some (moved, w')) : AllGood P w' ∧ Leaves P t w w' := by
  have honly := exec_set_only h
  by_cases hP : P iid
  · have hclaimed := (hgood iid hP).claimed (hrun hP)
    rw [World.statusOf] at hclaimed
    rw [exec] at h
    cases hrow : w.table iid with
    | none =>
        rw [hrow] at hclaimed
        cases hclaimed
    | some row =>
        rw [hrow] at hclaimed h
        have hstatus : row.status ∈ [InsightStatus.applying] :=
          List.mem_singleton.mpr (Option.some.inj hclaimed)
        have hkept : ¬ (if res.ok then InsightStatus.applied else back) = .dismissed := by
          rcases hback with rfl | rfl
          · cases res.ok with
            | true | false => exact fun h => by cases h
          · cases res.ok with
            | true | false => exact fun h => by cases h
        dsimp only at h
        rw [if_pos hstatus, if_neg hkept] at h
        cases h
        refine ⟨honly.good hgood fun _ => ?_, honly.leaves fun u hu hother => ?_⟩
        · rw [status_put]
          show Good _ ((w.note iid (.ended t res.ok)).history iid)
          rw [history_note]
          exact (hgood iid hP).finish (hrun hP) hback
        · exact absurd (List.head_eq_of_cons_eq ((hrun hP).symm.trans (hother hP))) (Ne.symm hu)
  · exact ⟨honly.good hgood fun h => absurd h hP, honly.leaves fun _ _ _ h => absurd h hP⟩

theorem exec_dismiss {now : ℚ} {moved : Bool} (hgood : AllGood P w)
    (h : exec t (.setInsightStatus iid .dismissed none none [.new, .seen, .applied]) now w =
      some (moved, w')) : AllGood P w' ∧ Leaves P t w w' := by
  rw [exec] at h
  dsimp only at h
  cases hrow : w.table iid with
  | none =>
      rw [hrow] at h
      cases h
      exact ⟨hgood, fun _ _ _ hrun => hrun⟩
  | some row =>
      rw [hrow] at h
      dsimp only at h
      split at h
      · rename_i hopen
        rw [if_pos rfl] at h
        cases h
        have honly := (only_put w iid (row.move .dismissed none none now)).trans
          (only_note _ iid .dismissed)
        refine ⟨honly.good hgood fun hP => ?_, honly.leaves fun u _ hrun hP => ?_⟩
        · have hiid := hgood iid hP
          rw [World.statusOf, hrow] at hiid
          rw [history_note]
          show Good ((w.put iid (row.move .dismissed none none now)).statusOf iid) _
          rw [status_put]
          exact hiid.dismiss (by simpa using hopen)
        · rw [history_note, in_progress_concat]
          exact hrun hP
      · cases h
        exact ⟨hgood, fun _ _ _ hrun => hrun⟩

/-- What marking as seen makes of a status. -/
theorem see_status (now : ℚ) (row : Insight) :
    (row.see now).status = row.status ∨ row.status = .new ∧ (row.see now).status = .seen := by
  unfold Insight.see
  split
  · dsimp only
    split
    · rename_i hnew
      exact Or.inr ⟨hnew, rfl⟩
    · exact Or.inl rfl
  · exact Or.inl rfl

theorem exec_seen {now : ℚ} (hgood : AllGood P w)
    (h : exec t .markInsightsSeen now w = some ((), w')) : AllGood P w' ∧ Leaves P t w w' := by
  cases h
  refine ⟨fun iid hP => ?_, fun _ _ _ hrun => hrun⟩
  have hiid := hgood iid hP
  show Good (((w.table iid).map (Insight.see now)).map Insight.status) (w.history iid)
  rw [World.statusOf] at hiid
  cases hrow : w.table iid with
  | none =>
      rw [hrow] at hiid
      exact hiid
  | some row =>
      rw [hrow, Option.map_some] at hiid
      rw [Option.map_some, Option.map_some]
      rcases see_status now row with hsame | ⟨hnew, hseen⟩
      · rw [hsame]
        exact hiid
      · rw [hnew] at hiid
        rw [hseen]
        exact hiid.see

theorem exec_dismiss_all {now : ℚ} (hgood : AllGood P w)
    (h : exec t .dismissInsights now w = some ((), w')) : AllGood P w' ∧ Leaves P t w w' := by
  cases h
  refine ⟨fun iid hP => ?_, fun iid u _ hrun hP => ?_⟩
  · have hiid := hgood iid hP
    show Good (((w.table iid).map (Insight.dismiss now)).map Insight.status)
      (if (w.table iid).any Insight.open_ then w.history iid ++ [.dismissed] else w.history iid)
    rw [World.statusOf] at hiid
    cases hrow : w.table iid with
    | none =>
        rw [hrow] at hiid
        exact hiid
    | some row =>
        rw [hrow, Option.map_some] at hiid
        rw [Option.map_some, Option.map_some, Option.any_some, Insight.dismiss]
        by_cases hopen : row.open_ = true
        · rw [if_pos hopen, if_pos hopen]
          refine hiid.dismiss ?_
          unfold Insight.open_ at hopen
          rw [Bool.or_eq_true, Bool.or_eq_true, or_assoc] at hopen
          simpa using hopen
        · rw [if_neg hopen, if_neg hopen]
          exact hiid
  · show inProgress (if (w.table iid).any Insight.open_ then w.history iid ++ [.dismissed]
      else w.history iid) = [u]
    split
    · rw [in_progress_concat]
      exact hrun hP
    · exact hrun hP

end Operations

section Threads

/-- Every operation is allowed. -/
def anything : Condition ℕ Op World := fun _ _ _ _ => True

variable {P : String → Prop} {t : ℕ} {iid : String} {w : World} {α : Type}

theorem safe_ask {op : Op} {k : op.Res → Prog Op Op.Res α} {R : World → Prop} {Q : α → World → Prop}
    (hquiet : Quiet op) (hstable : (runs P).Stable t R) (hR : R w)
    (hk : ∀ r w, R w → Safe insights anything (runs P) t (k r) Q w) :
    Safe insights anything (runs P) t (.call op k) Q w := by
  refine safe_call hstable hR ?_
  intro w a r w' hgood hRw hexec _
  rw [exec_quiet hquiet hexec]
  exact ⟨hgood, fun _ _ _ hrun => hrun, hk r w hRw⟩

theorem safe_free {op : Op} {k : op.Res → Prog Op Op.Res Unit}
    (hop : ∀ w a r w', AllGood P w → exec t op a w = some (r, w') → AllGood P w' ∧ Leaves P t w w')
    (hk : ∀ r w, Safe insights anything (runs P) t (k r) (fun _ _ => True) w) :
    Safe insights anything (runs P) t (.call op k) (fun _ _ => True) w := by
  refine safe_call (P := fun _ => True) (Contract.stable_const True) trivial ?_
  intro w a r w' hgood _ hexec _
  obtain ⟨hgood', hleaves⟩ := hop w a r w' hgood hexec
  exact ⟨hgood', hleaves, hk r w'⟩

theorem safe_end : Safe insights anything (runs P) t (.ret ()) (fun _ _ => True) w :=
  safe_ret (P := fun _ => True) (Contract.stable_const True) trivial fun _ _ => trivial

theorem run_loop_safe (steps : List Step) (done : List StepReport) (hrun : Runs P t iid w) :
    Safe insights anything (runs P) t (runLoop iid steps done) (fun _ => Runs P t iid) w := by
  have hret : ∀ (out : Option Outcome) w, Runs P t iid w →
      Safe insights anything (runs P) t (Prog.ret out) (fun _ => Runs P t iid) w :=
    fun out w hw => safe_ret (runs_stable t iid) hw fun _ h => h
  induction steps generalizing done w with
  | nil => exact hret _ w hrun
  | cons step rest ih =>
      refine safe_ask trivial (runs_stable t iid) hrun fun checked w hw => ?_
      cases checked with
      | raised => exact hret _ w hw
      | refused message => exact hret _ w hw
      | accepted =>
          refine safe_call (runs_stable t iid) hw ?_
          intro w a answer w' hgood hPw hexec _
          have hanswer : a = answer := by
            cases hexec
            rfl
          subst hanswer
          obtain ⟨hgood', hleaves, hrun'⟩ := exec_step hgood hPw hexec
          refine ⟨hgood', hleaves, ?_⟩
          cases a with
          | raised => exact hret _ w' hrun'
          | answered ok message =>
              cases ok with
              | true => exact ih _ hrun'
              | false => exact hret _ w' hrun'

theorem apply_claimed_safe {steps : List Step} {actor : String} {back : InsightStatus}
    (hback : back = .new ∨ back = .seen) (hrun : Runs P t iid w) :
    Safe insights anything (runs P) t (applyClaimed iid steps actor back) (fun _ _ => True) w := by
  have hsteps :
      Safe insights anything (runs P) t (runSteps iid steps) (fun _ => Runs P t iid) w := by
    by_cases hempty : steps.isEmpty = true
    · have hnothing : runSteps iid steps = Prog.ret (some ⟨false, "nothing to run", []⟩) :=
        if_pos hempty
      rw [hnothing]
      exact safe_ret (runs_stable t iid) hrun fun _ h => h
    · have hsome : runSteps iid steps = Prog.call (.permitted steps) fun (allowed : Bool) =>
          if allowed then runLoop iid steps [] else .ret (some ⟨false, "not allowed", []⟩) :=
        if_neg hempty
      rw [hsome]
      refine safe_ask trivial (runs_stable t iid) hrun fun allowed w hw => ?_
      cases allowed with
      | true => exact run_loop_safe steps [] hw
      | false => exact safe_ret (runs_stable t iid) hw fun _ h => h
  refine safe_bind (hsteps.mono fun outcome w hw => ?_)
  refine safe_call (runs_stable t iid) hw ?_
  intro w now moved w' hgood hPw hexec _
  obtain ⟨hgood', hleaves⟩ := exec_finish hback hgood hPw hexec
  exact ⟨hgood', hleaves, safe_end⟩

theorem claim_safe {steps : List Step} {actor : String} {back : InsightStatus}
    (hback : back = .new ∨ back = .seen) :
    Safe insights anything (runs P) t (.call (.claimInsight iid) fun (claimed : Bool) =>
      if !claimed then .ret () else applyClaimed iid steps actor back) (fun _ _ => True) w := by
  refine safe_call (P := fun _ => True) (Contract.stable_const True) trivial ?_
  intro w a claimed w' hgood _ hexec _
  obtain ⟨hgood', hleaves, hruns⟩ := exec_claim hgood hexec
  refine ⟨hgood', hleaves, ?_⟩
  cases claimed with
  | true => exact apply_claimed_safe hback (hruns rfl)
  | false => exact safe_end

theorem free_ask {op : Op} {k : op.Res → Prog Op Op.Res Unit} (hquiet : Quiet op)
    (hk : ∀ r w, Safe insights anything (runs P) t (k r) (fun _ _ => True) w) :
    Safe insights anything (runs P) t (.call op k) (fun _ _ => True) w :=
  safe_ask (R := fun _ => True) hquiet (Contract.stable_const True) trivial fun r w _ => hk r w

theorem auto_apply_safe (alertId : String) (steps : List Step) :
    Safe insights anything (runs P) t (autoApply iid alertId steps) (fun _ _ => True) w := by
  refine free_ask trivial fun allowed w => ?_
  cases allowed with
  | false => exact safe_end
  | true =>
      refine free_ask trivial fun fresh w => ?_
      cases fresh with
      | false => exact safe_end
      | true => exact claim_safe (Or.inl rfl)

theorem apply_safe (user : String) :
    Safe insights anything (runs P) t (Tower.apply iid user) (fun _ _ => True) w := by
  refine free_ask trivial fun passes w => ?_
  cases passes with
  | false => exact safe_end
  | true =>
      refine free_ask trivial fun row w => ?_
      cases row with
      | none => exact safe_end
      | some row =>
          refine free_ask trivial fun known w => ?_
          split
          · exact safe_end
          · split
            · exact safe_end
            · rename_i hopen
              refine free_ask trivial fun allowed w => ?_
              cases allowed with
              | false => exact safe_end
              | true =>
                  refine free_ask trivial fun fresh w => ?_
                  cases fresh with
                  | false => exact safe_end
                  | true =>
                      -- the status that a failed run restores was `new` or `seen` when it was read
                      refine claim_safe ?_
                      by_contra hnot
                      exact hopen (not_or.mp hnot)

theorem request_safe (request : Request) :
    Safe insights anything (runs P) t request.code (fun _ _ => True) w := by
  cases request with
  | watch iid insight =>
      refine safe_free (fun w a created w' hgood hexec => exec_create hgood hexec) fun created w =>
        ?_
      refine free_ask trivial fun auto w => ?_
      split
      · exact auto_apply_safe insight.alertId insight.steps
      · exact safe_end
  | apply iid user => exact apply_safe user
  | dismiss iid =>
      refine free_ask trivial fun passes w => ?_
      cases passes with
      | false => exact safe_end
      | true =>
          refine free_ask trivial fun row w => ?_
          cases row with
          | none => exact safe_end
          | some row =>
              refine safe_free ?_ fun _ _ => safe_end
              exact fun w now moved w' hgood hexec => exec_dismiss hgood hexec
  | seen =>
      refine free_ask trivial fun passes w => ?_
      cases passes with
      | false => exact safe_end
      | true =>
          exact safe_free (fun w _ _ w' hgood hexec => exec_seen hgood hexec) fun _ _ => safe_end
  | dismissAll =>
      refine free_ask trivial fun passes w => ?_
      cases passes with
      | false => exact safe_end
      | true =>
          exact safe_free (fun w _ _ w' hgood hexec => exec_dismiss_all hgood hexec)
            fun _ _ => safe_end

/-- The insight is not there yet, or nobody has applied or dismissed it yet. -/
def Untouched (table : String → Option Insight) (iid : String) : Prop :=
  ∀ row, table iid = some row → row.status = .new ∨ row.status = .seen

theorem all_good {table : String → Option Insight} {alerts : List String}
    {c : Config ℕ Op Op.Res World}
    (h : Reachable insights anything (World.start table alerts) c) :
    AllGood (Untouched table) c.state := by
  have hstart : AllGood (Untouched table) (World.start table alerts) := by
    intro iid huntouched
    refine ⟨each_nil, ?_⟩
    have hnothing : inProgress [] = [] ∧ ¬ Succeeded [] ∧ Event.dismissed ∉ ([] : List Event) :=
      ⟨rfl, fun ⟨t, ht⟩ => List.not_mem_nil ht, List.not_mem_nil⟩
    show Phase [] ((table iid).map Insight.status)
    cases hrow : table iid with
    | none => exact hnothing
    | some row =>
        rw [Option.map_some]
        rcases huntouched row hrow with hnew | hseen
        · rw [hnew]
          exact hnothing
        · rw [hseen]
          exact hnothing
  refine ((runs (Untouched table)).sound hstart (fun _ => trivial)
    (fun t => Contract.stable_const True) ?_ h).inv
  intro t request w p _ _ hp
  cases hp
  exact request_safe request

theorem Good.at_rest {status : InsightStatus} {history : List Event}
    (h : Good (some status) history)
    (hidle : inProgress history = []) :
    (status = .new ∨ status = .seen ∨ status = .applied ∨ status = .dismissed) ∧
      (status = .applied ∨ status = .dismissed ∧ DismissedAfterSuccess history ↔
        Succeeded history) := by
  have hphase := h.phase
  cases status with
  | new | seen =>
      refine ⟨by simp, ?_, fun hdone => absurd hdone hphase.2.1⟩
      rintro (happlied | ⟨hdismissed, -⟩)
      · cases happlied
      · cases hdismissed
  | applying =>
      -- a claimed insight has a run in progress
      obtain ⟨t, ht⟩ := hphase.1
      exact absurd (ht.symm.trans hidle) (List.cons_ne_nil _ _)
  | applied => exact ⟨by simp, fun _ => hphase.2, fun _ => Or.inl rfl⟩
  | dismissed =>
      refine ⟨by simp, ?_, fun hdone => Or.inr ⟨rfl, hphase.2 hdone⟩⟩
      rintro (happlied | ⟨-, hafter⟩)
      · cases happlied
      · exact hafter.succeeded

theorem Good.one_run {status : Option InsightStatus} {history : List Event}
    (h : Good status history) : (inProgress history).length ≤ 1 := by
  have hphase := h.phase
  have hnone : inProgress history = [] → (inProgress history).length ≤ 1 := by
    intro hidle
    rw [hidle]
    exact Nat.zero_le 1
  cases status with
  | none => exact hnone hphase.1
  | some status =>
      cases status with
      | applying =>
          obtain ⟨t, ht⟩ := hphase.1
          rw [ht]
          exact Nat.le_refl 1
      | new | seen | applied | dismissed => exact hnone hphase.1

/-- In every interleaving of the watcher with requests to apply, to dismiss and to mark as seen,
and for every insight: at most one run of its steps is in progress; every run starts while none
is, and neither after one that succeeded nor after a dismissal; and while none is in progress the
status is one of `new`, `seen`, `applied` and `dismissed`, and says whether a run has succeeded.
-/
theorem playbook_applied_once {table : String → Option Insight} {alerts : List String}
    {c : Config ℕ Op Op.Res World}
    (h : Reachable insights anything (World.start table alerts) c) (iid : String)
    (huntouched : Untouched table iid) :
    (inProgress (c.state.history iid)).length ≤ 1 ∧
      Each Allowed (c.state.history iid) ∧
      (inProgress (c.state.history iid) = [] → ∀ row, c.state.table iid = some row →
        (row.status = .new ∨ row.status = .seen ∨ row.status = .applied ∨ row.status = .dismissed) ∧
        (row.status = .applied ∨
            row.status = .dismissed ∧ DismissedAfterSuccess (c.state.history iid) ↔
          Succeeded (c.state.history iid))) := by
  have hgood := all_good h iid huntouched
  refine ⟨hgood.one_run, hgood.each, fun hidle row hrow => ?_⟩
  have hrest : Good (some row.status) (c.state.history iid) := by
    rw [World.statusOf, hrow] at hgood
    exact hgood
  exact hrest.at_rest hidle

instance (t : ℕ) (op : Op) (w w' : World) : Decidable (anything t op w w') :=
  inferInstanceAs (Decidable True)

/-- Every request may pass, everything is permitted and fresh, the watcher does not apply, and
each tool succeeds. -/
def agreeing : (op : Op) → op.Ans
  | .gate => true
  | .settings => false
  | .playbook _ => true
  | .permitted _ => true
  | .current .. => true
  | .validateArgs _ => .accepted
  | .runTool .. => .answered true "restarted"
  | .setInsightStatus .. => (1 : ℚ)
  | .markInsightsSeen => (1 : ℚ)
  | .dismissInsights => (1 : ℚ)
  | .getInsight _ => ()
  | .createInsight .. => ()
  | .claimInsight _ => ()

/-- An insight that proposes to restart an agent. -/
def restartInsight : NewInsight where
  alertId := "alert-1"
  playbookId := some "restart"
  steps := [("restart_agent", .dict [])]

/-- Two users apply the same insight, one of them in time, and then it is dismissed. -/
theorem applied_then_dismissed : ∃ c,
    Reachable insights anything (World.start (fun _ => none) []) c ∧
      (c.state.table "i1").map Insight.status = some .dismissed ∧
      c.state.history "i1" = [.started 2, .step 2, .ended 2 true, .dismissed] ∧
      (inProgress (c.state.history "i1")).length ≤ 1 ∧
      Each Allowed (c.state.history "i1") ∧
      (inProgress (c.state.history "i1") = [] → ∀ row, c.state.table "i1" = some row →
        (row.status = .new ∨ row.status = .seen ∨ row.status = .applied ∨ row.status = .dismissed) ∧
        (row.status = .applied ∨
            row.status = .dismissed ∧ DismissedAfterSuccess (c.state.history "i1") ↔
          Succeeded (c.state.history "i1"))) := by
  have hrun : ((Config.idle (World.start (fun _ => none) [])).plays insights anything
      (.start 1 (.watch "i1" restartInsight) :: List.replicate 2 (.perform 1 agreeing) ++
        .start 2 (.apply "i1" "ada") :: .start 3 (.apply "i1" "bob") ::
          List.replicate 5 (.perform 3 agreeing) ++ List.replicate 10 (.perform 2 agreeing) ++
        .perform 3 agreeing :: .start 4 (.dismiss "i1") ::
          List.replicate 3 (.perform 4 agreeing))).bind (fun c =>
        if (c.state.table "i1").map Insight.status = some .dismissed ∧
            c.state.history "i1" = [.started 2, .step 2, .ended 2 true, .dismissed]
          then some () else none) = some () := by decide +kernel
  obtain ⟨c, hc, hend⟩ := exists_run_of_plays hrun
  obtain ⟨hstatus, hhistory⟩ := (ite_eq_iff.mp hend).elim And.left fun hno => nomatch hno.2
  have huntouched : Untouched (fun _ => none) "i1" := fun _ hrow => nomatch hrow
  exact ⟨c, hc, hstatus, hhistory, playbook_applied_once hc "i1" huntouched⟩

end Threads

end SystemsManager.Tower
