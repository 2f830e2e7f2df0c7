import SystemsManager.Tower.Approvals

/-!
# An action runs once, when it is approved

The decision is latched in the entry of `Approvals`, and only the worker that waits for it moves the
row past `pending`. `Good` is what holds of an action between any two operations, `Others` what the
other threads may do to it, and `At` what its worker knows after the wait. Read
`tool_runs_once_approved`.
-/

namespace SystemsManager.Tower.Approvals

open Python Concurrency

section Notes

/-- The calls of `resolve` that returned `True`. -/
def resolutions (history : List Event) : List Verdict :=
  history.filterMap fun
    | .resolved verdict => some verdict
    | .invoked | .returned _ | .reported _ | .left => none

/-- When an event may happen: a decision is the first one and comes before the tool is invoked; the
tool is invoked when the one decision was an approval, not before, and before any report; and it
returns after it was invoked. -/
def Allowed (before : List Event) : Event → Prop
  | .resolved _ => resolutions before = [] ∧ Event.invoked ∉ before
  | .invoked => resolutions before = [.approved] ∧ Event.invoked ∉ before ∧
      ∀ status, Event.reported status ∉ before
  | .returned _ => Event.invoked ∈ before
  | .reported _ | .left => True

variable {history : List Event} {e : Event}

theorem resolutions_concat (history : List Event) (e : Event) : resolutions (history ++ [e]) =
    match e with
    | .resolved verdict => resolutions history ++ [verdict]
    | .invoked | .returned _ | .reported _ | .left => resolutions history := by
  unfold resolutions
  rw [List.filterMap_append]
  cases e with
  | resolved verdict => rfl
  | invoked | returned | reported | left => exact List.append_nil _

/-- The tool is invoked at most once. -/
theorem count_invoked_le (h : Each Allowed history) : history.count .invoked ≤ 1 := by
  induction history using List.reverseRecOn with
  | nil => exact Nat.zero_le 1
  | append_singleton before e ih =>
      obtain ⟨hbefore, he⟩ := each_concat.mp h
      rw [List.count_append, List.count_singleton]
      by_cases hinvoked : e = .invoked
      · subst hinvoked
        rw [List.count_eq_zero_of_not_mem he.2.1]
        exact Nat.le_refl 1
      · have hcount := ih hbefore
        rw [if_neg (by simpa using hinvoked)]
        omega

theorem resolutions_of_invoked (h : Each Allowed history) (hinvoked : Event.invoked ∈ history) :
    resolutions history = [.approved] := by
  induction history using List.reverseRecOn with
  | nil => cases hinvoked
  | append_singleton before e ih =>
      obtain ⟨hbefore, he⟩ := each_concat.mp h
      rw [resolutions_concat]
      cases e with
      | resolved verdict =>
          -- a decision comes before the tool is invoked
          rcases List.mem_append.mp hinvoked with hmem | hmem
          · exact absurd hmem he.2
          · cases List.mem_singleton.mp hmem
      | invoked => exact he.1
      | returned | reported | left =>
          refine ih hbefore ?_
          rcases List.mem_append.mp hinvoked with hmem | hmem
          · exact hmem
          · cases List.mem_singleton.mp hmem

/-- What has returned was invoked. -/
theorem invoked_of_returned {ok : Bool} (h : Each Allowed history)
    (hreturned : Event.returned ok ∈ history) : Event.invoked ∈ history := by
  obtain ⟨before, after, rfl⟩ := List.append_of_mem hreturned
  exact List.mem_append_left _ (h before _ after rfl)

end Notes

section Contract

/-- What holds of an action between any two operations. -/
structure Good (aid : String) (w : World) : Prop where
  each : Each Allowed (w.history aid)
  fresh : w.owner aid = none → w.approvals aid = none ∧ w.history aid = []
  waiting : w.approvals aid = some ⟨none⟩ →
    resolutions (w.history aid) = [] ∧ Event.invoked ∉ w.history aid
  done : w.owner aid ≠ none → ∀ row, w.actions aid = some row → row.status = .done →
    Event.returned true ∈ w.history aid
  left : Event.left ∈ w.history aid → ∀ row, w.actions aid = some row → row.status.live = false

/-- Every action is good. -/
def AllGood (w : World) : Prop := ∀ aid, Good aid w

/-- What other threads than its worker may do to an action: its row expires or is deleted, and a
decision is made where there is none. -/
structure Others (aid : String) (w w' : World) : Prop where
  owner : w'.owner aid = w.owner aid
  row : ∀ row', w'.actions aid = some row' → row'.status = .expired ∨ w.actions aid = some row'
  decision : w'.approvals aid = w.approvals aid ∧ w'.history aid = w.history aid ∨
    ∃ d : Decision, w.approvals aid = some ⟨none⟩ ∧ w'.approvals aid = some ⟨some d⟩ ∧
      w'.history aid = w.history aid ++ [.resolved d.status]

/-- The thread does no more than that to the actions of other workers. -/
def Respects (t : ℕ) (w w' : World) : Prop :=
  ∀ aid u, w.owner aid = some u → u ≠ t → Others aid w w'

/-- What the threads promise each other. -/
def cards : Contract ℕ World where
  inv := AllGood
  guar := Respects
  idle _ _ := True

variable {t : ℕ} {aid : String} {w w' : World}

/-- A good action stays good. -/
theorem Others.good (h : Others aid w w') (hgood : Good aid w) : Good aid w' := by
  rcases h.decision with ⟨hentry, hhistory⟩ | ⟨d, hnone, hentry, hhistory⟩
  · refine ⟨?_, ?_, ?_, ?_, ?_⟩
    · rw [hhistory]
      exact hgood.each
    · rw [h.owner, hentry, hhistory]
      exact hgood.fresh
    · rw [hentry, hhistory]
      exact hgood.waiting
    · rw [h.owner, hhistory]
      intro howner row hrow hdone
      rcases h.row row hrow with hexpired | hsame
      · cases hdone.symm.trans hexpired
      · exact hgood.done howner row hsame hdone
    · rw [hhistory]
      intro hleft row hrow
      rcases h.row row hrow with hexpired | hsame
      · rw [hexpired]
        rfl
      · exact hgood.left hleft row hsame
  · have hidle := hgood.waiting hnone
    refine ⟨?_, ?_, ?_, ?_, ?_⟩
    · rw [hhistory]
      exact each_concat.mpr ⟨hgood.each, hidle⟩
    · intro howner
      rw [h.owner] at howner
      cases (hgood.fresh howner).1.symm.trans hnone
    · intro hwaiting
      cases hentry.symm.trans hwaiting
    · rw [h.owner, hhistory]
      intro howner row hrow hdone
      rcases h.row row hrow with hexpired | hsame
      · cases hdone.symm.trans hexpired
      · exact List.mem_append_left _ (hgood.done howner row hsame hdone)
    · rw [hhistory]
      intro hleft row hrow
      rcases h.row row hrow with hexpired | hsame
      · rw [hexpired]
        rfl
      · rcases List.mem_append.mp hleft with hleft | hleft
        · exact hgood.left hleft row hsame
        · cases List.mem_singleton.mp hleft

theorem others_all (h : ∀ aid, Others aid w w') (hgood : AllGood w) :
    AllGood w' ∧ Respects t w w' :=
  ⟨fun aid => (h aid).good (hgood aid), fun aid _ _ _ => h aid⟩

/-- Nothing has happened to an action. -/
structure Same (aid : String) (w w' : World) : Prop where
  owner : w'.owner aid = w.owner aid
  row : w'.actions aid = w.actions aid
  entry : w'.approvals aid = w.approvals aid
  history : w'.history aid = w.history aid

/-- Others may do nothing. -/
theorem Same.others (h : Same aid w w') : Others aid w w' where
  owner := h.owner
  row _ hrow := Or.inr (h.row ▸ hrow)
  decision := Or.inl ⟨h.entry, h.history⟩

theorem alone (hsame : ∀ other, other ≠ aid → Same other w w') (hgood : AllGood w)
    (hown : ∀ u, w.owner aid = some u → u = t) (haid : Good aid w') :
    AllGood w' ∧ Respects t w w' := by
  refine ⟨fun other => ?_, fun other u howner hu => ?_⟩
  · by_cases hother : other = aid
    · rw [hother]
      exact haid
    · exact (hsame other hother).others.good (hgood other)
  · by_cases hother : other = aid
    · subst hother
      exact absurd (hown u howner) hu
    · exact (hsame other hother).others

/-- The worker of an action that nobody has been asked about. -/
structure Created (t : ℕ) (aid : String) (w : World) : Prop where
  owner : w.owner aid = some t
  entry : w.approvals aid = none
  history : w.history aid = []
  row : ∀ row, w.actions aid = some row → row.status ≠ .running

/-- The worker waits, and the action may have been decided. -/
structure Waiting (t : ℕ) (aid : String) (w : World) : Prop where
  owner : w.owner aid = some t
  entry : w.approvals aid = some ⟨none⟩ ∧ w.history aid = [] ∨
    ∃ d : Decision, w.approvals aid = some ⟨some d⟩ ∧ w.history aid = [.resolved d.status]
  row : ∀ row, w.actions aid = some row → row.status ≠ .running

/-- The action is decided; the worker knows what has been noted and something about the row, where
it still exists. -/
structure At (t : ℕ) (aid : String) (ok : ActionStatus → Prop) (history : List Event) (w : World) :
    Prop where
  owner : w.owner aid = some t
  entry : ∃ d : Decision, w.approvals aid = some ⟨some d⟩
  history : w.history aid = history
  row : ∀ row, w.actions aid = some row → ok row.status

variable {ok ok' : ActionStatus → Prop} {history : List Event}

theorem at_stable (hexpired : ok .expired) : cards.Stable t (At t aid ok history) := by
  intro u hu w w' _ _ hguar h
  have hothers := hguar aid t h.owner (Ne.symm hu)
  obtain ⟨d, hd⟩ := h.entry
  rcases hothers.decision with ⟨hentry, hhistory⟩ | ⟨_, hnone, _, _⟩
  · refine ⟨hothers.owner.trans h.owner, ⟨d, hentry.trans hd⟩, hhistory.trans h.history, ?_⟩
    intro row hrow
    rcases hothers.row row hrow with hrow | hrow
    · rw [hrow]
      exact hexpired
    · exact h.row row hrow
  · cases hd.symm.trans hnone

theorem At.weaken (h : At t aid ok history w) (hle : ∀ status, ok status → ok' status) :
    At t aid ok' history w :=
  ⟨h.owner, h.entry, h.history, fun row hrow => hle _ (h.row row hrow)⟩

theorem created_stable : cards.Stable t (Created t aid) := by
  intro u hu w w' _ _ hguar h
  have hothers := hguar aid t h.owner (Ne.symm hu)
  rcases hothers.decision with ⟨hentry, hhistory⟩ | ⟨_, hnone, _, _⟩
  · refine ⟨hothers.owner.trans h.owner, hentry.trans h.entry, hhistory.trans h.history, ?_⟩
    intro row hrow
    rcases hothers.row row hrow with hrow | hrow
    · rw [hrow]
      exact fun heq => nomatch heq
    · exact h.row row hrow
  · cases h.entry.symm.trans hnone

theorem waiting_stable : cards.Stable t (Waiting t aid) := by
  intro u hu w w' _ _ hguar h
  have hothers := hguar aid t h.owner (Ne.symm hu)
  have hrow : ∀ row, w'.actions aid = some row → row.status ≠ .running := by
    intro row hrow
    rcases hothers.row row hrow with hrow | hrow
    · rw [hrow]
      exact fun heq => nomatch heq
    · exact h.row row hrow
  refine ⟨hothers.owner.trans h.owner, ?_, hrow⟩
  rcases hothers.decision with ⟨hentry, hhistory⟩ | ⟨d, hnone, hentry, hhistory⟩
  · rw [hentry, hhistory]
    exact h.entry
  · rcases h.entry with ⟨_, hnothing⟩ | ⟨d', hd', _⟩
    · refine Or.inr ⟨d, hentry, ?_⟩
      rw [hhistory, hnothing]
      rfl
    · cases hd'.symm.trans hnone

end Contract

section Operations

variable {t : ℕ} {aid : String} {w w' : World} {ok ok' : ActionStatus → Prop}
variable {history : List Event}

theorem same_put {other : String} (hother : other ≠ aid) (row : Action) :
    Same other w (w.put aid row) where
  owner := rfl
  row := Function.update_of_ne hother _ _
  entry := rfl
  history := rfl

/-- A change of one entry. -/
theorem same_enter {other : String} (hother : other ≠ aid) (entry : Option Entry) :
    Same other w (w.enter aid entry) where
  owner := rfl
  row := rfl
  entry := Function.update_of_ne hother _ _
  history := rfl

theorem same_note {other : String} (hother : other ≠ aid) (e : Event) :
    Same other w (w.note aid e) where
  owner := rfl
  row := rfl
  entry := rfl
  history := Function.update_of_ne hother _ _

theorem same_refl (aid : String) (w : World) : Same aid w w := ⟨rfl, rfl, rfl, rfl⟩

/-- One change after another. -/
theorem Same.trans {w'' : World} (h : Same aid w w') (h' : Same aid w' w'') : Same aid w w'' where
  owner := h'.owner.trans h.owner
  row := h'.row.trans h.row
  entry := h'.entry.trans h.entry
  history := h'.history.trans h.history

@[simp] theorem actions_put (w : World) (aid : String) (row : Action) :
    (w.put aid row).actions aid = some row :=
  Function.update_self aid _ w.actions

@[simp] theorem approvals_enter (w : World) (aid : String) (entry : Option Entry) :
    (w.enter aid entry).approvals aid = entry :=
  Function.update_self aid _ w.approvals

@[simp] theorem history_note (w : World) (aid : String) (e : Event) :
    (w.note aid e).history aid = w.history aid ++ [e] :=
  Function.update_self aid _ w.history

theorem At.keep (h : At t aid ok history w) (hgood : AllGood w)
    (hsame : ∀ other, other ≠ aid → Same other w w') {history' : List Event}
    (h' : At t aid ok' history' w') (heach : Each Allowed history') (hleft : Event.left ∉ history')
    (hdone : ∀ row, w'.actions aid = some row → row.status = .done →
      Event.returned true ∈ history') : AllGood w' ∧ Respects t w w' := by
  have hown : ∀ u, w.owner aid = some u → u = t := by
    intro u hu
    exact Option.some.inj (hu.symm.trans h.owner)
  refine alone hsame hgood hown ⟨?_, ?_, ?_, ?_, ?_⟩
  · rw [h'.history]
    exact heach
  · intro hnone
    cases hnone.symm.trans h'.owner
  · intro hwaiting
    obtain ⟨d, hd⟩ := h'.entry
    cases hwaiting.symm.trans hd
  · intro _ row hrow hstatus
    rw [h'.history]
    exact hdone row hrow hstatus
  · intro hmem
    rw [h'.history] at hmem
    exact absurd hmem hleft

theorem At.note (h : At t aid ok history w) (hgood : AllGood w) {e : Event}
    (he : Allowed history e) (hleft : Event.left ∉ history ++ [e]) :
    AllGood (w.note aid e) ∧ Respects t w (w.note aid e) ∧
      At t aid ok (history ++ [e]) (w.note aid e) := by
  have h' : At t aid ok (history ++ [e]) (w.note aid e) :=
    ⟨h.owner, h.entry, by rw [history_note, h.history], h.row⟩
  have heach : Each Allowed history := h.history ▸ (hgood aid).each
  obtain ⟨hgood', hrespects⟩ := h.keep hgood (fun other hother => same_note hother e) h'
    (each_concat.mpr ⟨heach, he⟩) hleft (fun row hrow hstatus => by
      have hmem := (hgood aid).done (by rw [h.owner]; exact Option.some_ne_none t) row hrow hstatus
      rw [h.history] at hmem
      exact List.mem_append_left _ hmem)
  exact ⟨hgood', hrespects, h'⟩

/-- The row, where it exists, is in an end state. -/
def Closed (status : ActionStatus) : Prop := status.live = false

theorem closed_expired : Closed .expired := rfl

theorem At.stays (h : At t aid ok history w) (hgood : AllGood w) (hleft : Event.left ∉ history)
    (hrow : ∀ row, w.actions aid = some row → ok' row.status) :
    AllGood w ∧ Respects t w w ∧ At t aid ok' history w := by
  have h' : At t aid ok' history w := ⟨h.owner, h.entry, h.history, hrow⟩
  have heach : Each Allowed history := h.history ▸ (hgood aid).each
  have hdone : ∀ row, w.actions aid = some row → row.status = .done →
      Event.returned true ∈ history := by
    intro row hrow hstatus
    have hmem := (hgood aid).done (by rw [h.owner]; exact Option.some_ne_none t) row hrow hstatus
    rwa [h.history] at hmem
  obtain ⟨hgood', hrespects⟩ := h.keep hgood (fun other _ => same_refl other w) h' heach hleft hdone
  exact ⟨hgood', hrespects, h'⟩

theorem At.put (h : At t aid ok history w) (hgood : AllGood w) (hleft : Event.left ∉ history)
    {row : Action} (hrow : ok' row.status)
    (hdone : row.status = .done → Event.returned true ∈ history) :
    AllGood (w.put aid row) ∧ Respects t w (w.put aid row) ∧
      At t aid ok' history (w.put aid row) := by
  have hput : ∀ row', (w.put aid row).actions aid = some row' → row' = row := by
    intro row' hrow'
    rw [actions_put] at hrow'
    exact (Option.some.inj hrow').symm
  have h' : At t aid ok' history (w.put aid row) :=
    ⟨h.owner, h.entry, h.history, fun row' hrow' => hput row' hrow' ▸ hrow⟩
  obtain ⟨hgood', hrespects⟩ := h.keep hgood (fun other hother => same_put hother _) h'
    (h.history ▸ (hgood aid).each) hleft fun row' hrow' => hput row' hrow' ▸ hdone
  exact ⟨hgood', hrespects, h'⟩

attribute [local simp] exec in
theorem exec_resolve_action {status : ActionStatus} {actor : Option String} {result : Json}
    {ms : Option ℤ} {now : ℚ} {moved : Bool} (hclosed : Closed status)
    (hdone : status = .done → Event.returned true ∈ history) (hleft : Event.left ∉ history)
    (hgood : AllGood w) (h : At t aid ok history w)
    (hexec : exec t (.resolveAction aid status actor result ms) now w = some (moved, w')) :
    AllGood w' ∧ Respects t w w' ∧ At t aid Closed history w' := by
  rw [exec] at hexec
  split at hexec
  · -- the row has been deleted
    rename_i hrow
    cases hexec
    exact h.stays hgood hleft fun row hrow' => by cases hrow.symm.trans hrow'
  · rename_i row hrow
    split at hexec
    · cases hexec
      exact h.put hgood hleft hclosed hdone
    · -- somebody else has resolved it
      rename_i hlive
      cases hexec
      refine h.stays hgood hleft fun row' hrow' => ?_
      cases hrow.symm.trans hrow'
      exact Bool.eq_false_iff.mpr hlive

theorem exec_mark_running {actor : Option String} {claimed : Bool} (hleft : Event.left ∉ history)
    (hgood : AllGood w) (h : At t aid (· ≠ .running) history w)
    (hexec : exec t (.markRunning aid actor) () w = some (claimed, w')) :
    AllGood w' ∧ Respects t w w' ∧
      At t aid (fun status => claimed = true ∨ Closed status) history w' := by
  rw [exec] at hexec
  split at hexec
  · rename_i hrow
    cases hexec
    exact h.stays hgood hleft fun row hrow' => by cases hrow.symm.trans hrow'
  · rename_i row hrow
    split at hexec
    · cases hexec
      exact h.put hgood hleft (Or.inl rfl) nofun
    · -- neither pending nor running: the row has been resolved
      rename_i hpending
      cases hexec
      refine h.stays hgood hleft fun row' hrow' => Or.inr ?_
      have hrunning := h.row row' hrow'
      cases hrow.symm.trans hrow'
      unfold Closed ActionStatus.live
      simp [hpending, hrunning]

theorem Created.good (h : Created t aid w)
    (hrow : ∀ row, w.actions aid = some row → row.status ≠ .done) : Good aid w := by
  refine ⟨?_, ?_, ?_, ?_, ?_⟩
  · rw [h.history]
    exact each_nil
  · intro hnone
    cases hnone.symm.trans h.owner
  · intro hwaiting
    cases hwaiting.symm.trans h.entry
  · intro _ row hrow' hstatus
    exact absurd hstatus (hrow row hrow')
  · intro hmem
    rw [h.history] at hmem
    cases hmem

theorem exec_create {threadId runId tool : String} {args : Dict String Json} {card : Json} {now : ℚ}
    (hgood : AllGood w)
    (hexec : exec t (.createAction aid threadId runId tool args card) now w = some ((), w')) :
    AllGood w' ∧ Respects t w w' ∧ Created t aid w' := by
  rw [exec] at hexec
  split at hexec
  · rename_i hnew
    cases hexec
    generalize hrow : Action.mk threadId runId tool args card .pending none now
      (now + APPROVAL_TTL_S) none none none = row
    have hpending : ∀ row', (w.create aid t row).actions aid = some row' →
      row'.status = .pending := by
      intro row' hrow'
      cases (actions_put w aid row).symm.trans hrow'
      rw [← hrow]
    obtain ⟨hentry, hnothing⟩ := (hgood aid).fresh hnew.1
    have hcreated : Created t aid (w.create aid t row) := by
      refine ⟨Function.update_self aid _ w.owner, hentry, hnothing, fun row' hrow' => ?_⟩
      rw [hpending row' hrow']
      exact fun heq => nomatch heq
    have hsame : ∀ other, other ≠ aid → Same other w (w.create aid t row) := fun other hother =>
      ⟨Function.update_of_ne hother _ _, Function.update_of_ne hother _ _, rfl, rfl⟩
    have haid : Good aid (w.create aid t row) := by
      refine hcreated.good fun row' hrow' => ?_
      rw [hpending row' hrow']
      exact fun heq => nomatch heq
    obtain ⟨hgood', hrespects⟩ := alone hsame hgood
      (fun u hu => by cases hnew.1.symm.trans hu) haid
    exact ⟨hgood', hrespects, hcreated⟩
  · cases hexec

/-- The operation asks only. -/
def Quiet : Op → Prop
  | .clock | .lookup _ | .waitEnds .. | .isCancelled _ | .getAction _ | .applyOptions ..
  | .permitted .. | .known _ => True
  | .emit _ event => match event with
      | .confirm .. => True
      | .action .. => False
  | .createAction .. | .register _ | .latch _ | .resolveAction .. | .markRunning .. | .invoke ..
  | .toolReturns _ | .forget _ | .resolve .. | .setCancelled
    _ | .expirePending | .deleteThread .. =>
      False

theorem exec_quiet {op : Op} {a : op.Ans} {r : op.Res} (hquiet : Quiet op)
    (h : exec t op a w = some (r, w')) : w' = w := by
  cases op with
  | clock | lookup | isCancelled | getAction | applyOptions | permitted | known =>
      cases h
      rfl
  | waitEnds aid runId deadline =>
      rw [exec] at h
      split at h
      · cases h
        rfl
      · cases h
  | emit aid event =>
      cases event with
      | confirm =>
          cases h
          rfl
      | action => exact hquiet.elim
  | createAction | register | latch | resolveAction | markRunning | invoke | toolReturns | forget
  | resolve | setCancelled | expirePending | deleteThread => exact hquiet.elim

theorem exec_resolve {decision : Decision} {done : Bool}
    (h : exec t (.resolve aid decision) () w = some (done, w')) (other : String) :
    Others other w w' := by
  rw [exec] at h
  split at h
  · rename_i hwaiting
    cases h
    by_cases hother : other = aid
    · subst hother
      refine ⟨rfl, fun _ hrow => Or.inr hrow, Or.inr ⟨decision, hwaiting, ?_, ?_⟩⟩
      · exact approvals_enter w other _
      · exact history_note (w.enter other (some ⟨some decision⟩)) other _
    · exact ((same_enter hother _).trans (same_note hother _)).others
  · cases h
    exact (same_refl other w).others

theorem exec_expire {actor : Option String} {result : Json} {ms : Option ℤ} {now : ℚ} {moved : Bool}
    (h : exec t (.resolveAction aid .expired actor result ms) now w = some (moved, w'))
    (other : String) : Others other w w' := by
  rw [exec] at h
  split at h
  · cases h
    exact (same_refl other w).others
  · split at h
    · cases h
      by_cases hother : other = aid
      · subst hother
        refine ⟨rfl, fun row hrow => Or.inl ?_, Or.inl ⟨rfl, rfl⟩⟩
        rw [actions_put] at hrow
        cases hrow
        rfl
      · exact (same_put hother _).others
    · cases h
      exact (same_refl other w).others

theorem exec_expire_pending {now : ℚ} (h : exec t .expirePending now w = some ((), w'))
    (other : String) : Others other w w' := by
  cases h
  refine ⟨rfl, fun row hrow => ?_, Or.inl ⟨rfl, rfl⟩⟩
  obtain ⟨was, hwas, rfl⟩ := Option.map_eq_some_iff.mp hrow
  unfold Action.expire
  split
  · exact Or.inl rfl
  · exact Or.inr hwas

theorem exec_delete_thread {user threadId : String} {deleted : Bool}
    (h : exec t (.deleteThread user threadId) () w = some (deleted, w')) (other : String) :
    Others other w w' := by
  rw [exec] at h
  split at h
  · cases h
    refine ⟨rfl, fun row hrow => Or.inr ?_, Or.inl ⟨rfl, rfl⟩⟩
    exact (Option.filter_eq_some_iff.mp hrow).1
  · cases h
    exact (same_refl other w).others

end Operations

section Threads

/-- Every operation is allowed. -/
def anything : Condition ℕ Op World := fun _ _ _ _ => True

variable {t : ℕ} {aid : String} {w : World} {ok : ActionStatus → Prop} {history : List Event}
variable {α : Type} {Q : α → World → Prop}

/-- An operation that only asks. -/
theorem safe_ask {op : Op} {k : op.Res → Code α} {P : World → Prop} (hquiet : Quiet op)
    (hstable : cards.Stable t P) (hP : P w)
    (hk : ∀ r w, P w → Safe approvals anything cards t (k r) Q w) :
    Safe approvals anything cards t (.call op k) Q w := by
  refine safe_call hstable hP ?_
  intro w a r w' hgood hPw hexec _
  have hquiet' := exec_quiet hquiet hexec
  subst hquiet'
  exact ⟨hgood, fun _ _ _ _ => (same_refl _ _).others, hk r _ hPw⟩

theorem safe_report {tool status : String} {message : Json} {ms : ℤ} {actor : Option String}
    {ended : Ended} (hleft : Event.left ∉ history) (hAt : At t aid Closed history w) :
    Safe approvals anything cards t
      (.call (.emit aid (.action tool status message ms actor)) fun _ => .ret ended)
      (fun _ => At t aid Closed (history ++ [.reported status])) w := by
  have hleft' : Event.left ∉ history ++ [.reported status] := by
    rw [List.mem_append, not_or]
    exact ⟨hleft, fun hmem => by cases List.mem_singleton.mp hmem⟩
  refine safe_call (at_stable closed_expired) hAt ?_
  intro w a r w' hgood hAtw hexec _
  cases hexec
  obtain ⟨hgood', hrespects, hAt'⟩ := hAtw.note hgood (e := .reported status) trivial hleft'
  exact ⟨hgood', hrespects, safe_ret (at_stable closed_expired) hAt' fun _ h => h⟩

/-- What is known when the turn is about to leave the action. -/
def Over (t : ℕ) (aid : String) (w : World) : Prop :=
  ∃ history, At t aid Closed history w ∧ Event.left ∉ history

theorem safe_resolve_report {status : ActionStatus} {who actor : Option String}
    {result message : Json}
    {ms : Option ℤ} {tool told : String} {shown : ℤ} {ended : Ended} (hexpired : ok .expired)
    (hclosed : Closed status) (hdone : status = .done → Event.returned true ∈ history)
    (hleft : Event.left ∉ history) (hAt : At t aid ok history w) :
    Safe approvals anything cards t (.call (.resolveAction aid status who result ms) fun _ =>
      .call (.emit aid (.action tool told message shown actor)) fun _ => .ret ended)
      (fun _ => Over t aid) w := by
  refine safe_call (at_stable hexpired) hAt ?_
  intro w now moved w' hgood hAtw hexec _
  obtain ⟨hgood', hrespects, hAt'⟩ := exec_resolve_action hclosed hdone hleft hgood hAtw hexec
  refine ⟨hgood', hrespects, (safe_report hleft hAt').mono fun _ w hover => ⟨_, hover, ?_⟩⟩
  rw [List.mem_append, not_or]
  exact ⟨hleft, fun hmem => by cases List.mem_singleton.mp hmem⟩

theorem run_allowed_safe (a : Asked) (d : Decision) (picks : Dict String Json)
    (hAt : At t a.aid (fun _ => True) [.resolved .approved] w) :
    Safe approvals anything cards t (runAllowed a d picks) (fun _ => Over t a.aid) w := by
  refine safe_call (at_stable trivial) hAt ?_
  intro w _ _ w' hgood hAtw hexec _
  cases hexec
  -- the one decision is an approval, and nothing else has happened
  have hallowed : Allowed [.resolved .approved] .invoked := by
    refine ⟨rfl, ?_, fun status => ?_⟩
    · decide
    · intro hmem
      cases List.mem_singleton.mp hmem
  obtain ⟨hgood', hrespects, hAt'⟩ := hAtw.note hgood hallowed (by decide)
  refine ⟨hgood', hrespects, safe_call (at_stable trivial) hAt' ?_⟩
  intro w answer r w' hgood hAtw hexec _
  cases hexec
  obtain ⟨result, ran, ms⟩ := answer
  have hreturned : Allowed [.resolved .approved, .invoked] (.returned (ran && reportsOk result)) :=
    List.mem_cons_of_mem _ (List.mem_cons_self ..)
  obtain ⟨hgood', hrespects, hAt'⟩ := hAtw.note hgood hreturned (by simp)
  refine ⟨hgood', hrespects, safe_resolve_report trivial ?_ ?_ (by simp) hAt'⟩
  · cases ran && reportsOk result with
    | true => rfl
    | false => rfl
  · intro hdone
    cases hok : ran && reportsOk result with
    | true => simp
    | false =>
        rw [hok] at hdone
        cases hdone

theorem approved_action_safe (a : Asked) (d : Decision)
    (hAt : At t a.aid (· ≠ .running) [.resolved .approved] w) :
    Safe approvals anything cards t (approvedAction a d) (fun _ => Over t a.aid) w := by
  refine safe_call (at_stable (fun heq => nomatch heq)) hAt ?_
  intro w _ claimed w' hgood hAtw hexec _
  obtain ⟨hgood', hrespects, hAt'⟩ := exec_mark_running (by decide) hgood hAtw hexec
  refine ⟨hgood', hrespects, ?_⟩
  cases claimed with
  | false =>
      have hover : At t a.aid Closed [.resolved .approved] w' :=
        hAt'.weaken fun status h => h.resolve_left (fun heq => nomatch heq)
      refine safe_ask trivial (at_stable closed_expired) hover fun row w hover => ?_
      exact (safe_report (by decide) hover).mono fun _ w hover => ⟨_, hover, by simp⟩
  | true =>
      have hfree : At t a.aid (fun _ => True) [.resolved .approved] w' :=
        hAt'.weaken fun _ _ => trivial
      refine safe_ask trivial (at_stable trivial) hfree fun picked w hfree => ?_
      cases picked with
      | error bad =>
          exact safe_resolve_report trivial rfl (fun heq => nomatch heq) (by decide) hfree
      | ok picks => exact run_allowed_safe a d picks hfree

/-- What has been noted at the end of the wait. -/
def afterWait : Option Decision → List Event
  | none => []
  | some d => [.resolved d.status]

/-- What follows the wait. -/
theorem decided_safe (a : Asked) (decision : Option Decision)
    (hAt : At t a.aid (· ≠ .running) (afterWait decision) w) :
    Safe approvals anything cards t (decided a decision) (fun _ => Over t a.aid) w := by
  have hexpired : ActionStatus.expired ≠ .running := fun heq => nomatch heq
  cases decision with
  | none =>
      refine safe_ask trivial (at_stable hexpired) hAt fun stopped w hAt => ?_
      cases stopped with
      | true =>
          exact safe_resolve_report hexpired rfl (fun heq => nomatch heq) (by simp [afterWait]) hAt
      | false =>
          exact safe_resolve_report hexpired rfl (fun heq => nomatch heq) (by simp [afterWait]) hAt
  | some d =>
      by_cases happroved : d.status = .approved
      · have hcode : decided a (some d) = approvedAction a d := if_neg (not_not.mpr happroved)
        rw [afterWait, happroved] at hAt
        rw [hcode]
        exact approved_action_safe a d hAt
      · have hcode : decided a (some d) = Prog.call (.resolveAction a.aid .denied d.actor
            (failure "denied by the operator") none) fun _ =>
              Prog.call (.emit a.aid (.action a.tool.name "denied"
                (.str "denied by the operator") 0 d.actor)) fun _ =>
                  .ret (.returned (failure "denied by the operator") false) := if_pos happroved
        rw [hcode]
        exact safe_resolve_report hexpired rfl (fun heq => nomatch heq) (by simp [afterWait]) hAt

theorem exec_latch {w' : World} {decision : Option Decision} (hgood : AllGood w)
    (h : Waiting t aid w) (hexec : exec t (.latch aid) () w = some (decision, w')) :
    AllGood w' ∧ Respects t w w' ∧ At t aid (· ≠ .running) (afterWait decision) w' := by
  rcases h.entry with ⟨hnone, hnothing⟩ | ⟨d, hd, hresolved⟩
  · simp only [exec, hnone] at hexec
    cases hexec
    have hdecided : At t aid (· ≠ .running) []
      (w.enter aid (some ⟨some ⟨.timeout, none, none, []⟩⟩)) :=
      ⟨h.owner, ⟨_, approvals_enter w aid _⟩, hnothing, h.row⟩
    have hsame : ∀ other, other ≠ aid →
        Same other w (w.enter aid (some ⟨some ⟨.timeout, none, none, []⟩⟩)) :=
      fun other hother => same_enter hother _
    have haid := hgood aid
    have hown : ∀ u, w.owner aid = some u → u = t := fun u hu =>
      Option.some.inj (hu.symm.trans h.owner)
    have haid' : Good aid (w.enter aid (some ⟨some ⟨.timeout, none, none, []⟩⟩)) := by
      refine ⟨haid.each, fun hno => ?_, fun hwaiting => ?_, haid.done, haid.left⟩
      · cases hno.symm.trans h.owner
      · cases (approvals_enter w aid _).symm.trans hwaiting
    obtain ⟨hgood', hrespects⟩ := alone hsame hgood hown haid'
    exact ⟨hgood', hrespects, hdecided⟩
  · simp only [exec, hd] at hexec
    cases hexec
    exact ⟨hgood, fun _ _ _ _ => (same_refl _ _).others, h.owner, ⟨d, hd⟩, hresolved, h.row⟩

theorem wait_safe {runId : String} {deadline : ℚ} (h : Waiting t aid w) :
    Safe approvals anything cards t (wait aid runId deadline)
      (fun decision => At t aid (· ≠ .running) (afterWait decision)) w := by
  have hexpired : ActionStatus.expired ≠ .running := fun heq => nomatch heq
  refine safe_call waiting_stable h ?_
  intro w _ found w' hgood hwaiting hexec _
  have hfound : found = true := by
    cases hexec
    rcases hwaiting.entry with ⟨hentry, -⟩ | ⟨d, hentry, -⟩
    · rw [hentry]
      rfl
    · rw [hentry]
      rfl
  cases hexec
  refine ⟨hgood, fun _ _ _ _ => (same_refl _ _).others, ?_⟩
  rw [hfound]
  refine safe_ask trivial waiting_stable hwaiting fun _ w hwaiting => ?_
  refine safe_call waiting_stable hwaiting ?_
  intro w _ decision w' hgood hwaiting hexec _
  obtain ⟨hgood', hrespects, hAt⟩ := exec_latch hgood hwaiting hexec
  exact ⟨hgood', hrespects, safe_ret (at_stable hexpired) hAt fun _ h => h⟩

theorem exec_register {w' : World} (hgood : AllGood w) (h : Created t aid w)
    (hexec : exec t (.register aid) () w = some ((), w')) :
    AllGood w' ∧ Respects t w w' ∧ Waiting t aid w' := by
  cases hexec
  have hwaiting : Waiting t aid (w.enter aid (some ⟨none⟩)) :=
    ⟨h.owner, Or.inl ⟨approvals_enter w aid _, h.history⟩, h.row⟩
  have haid := hgood aid
  have hown : ∀ u, w.owner aid = some u → u = t := fun u hu =>
    Option.some.inj (hu.symm.trans h.owner)
  have haid' : Good aid (w.enter aid (some ⟨none⟩)) := by
    refine ⟨haid.each, fun hno => ?_, fun _ => ?_, haid.done, haid.left⟩
    · cases hno.symm.trans h.owner
    · show resolutions (w.history aid) = [] ∧ Event.invoked ∉ w.history aid
      rw [h.history]
      exact ⟨rfl, List.not_mem_nil⟩
  obtain ⟨hgood', hrespects⟩ := alone (fun other hother => same_enter hother _) hgood hown haid'
  exact ⟨hgood', hrespects, hwaiting⟩

/-- The turn leaves the action. -/
theorem exec_forget {w' : World} (hgood : AllGood w) (h : Over t aid w)
    (hexec : exec t (.forget aid) () w = some ((), w')) : AllGood w' ∧ Respects t w w' := by
  cases hexec
  obtain ⟨history, hAt, hleft⟩ := h
  have haid := hgood aid
  have hown : ∀ u, w.owner aid = some u → u = t := fun u hu =>
    Option.some.inj (hu.symm.trans hAt.owner)
  have hhistory : ((w.enter aid none).note aid .left).history aid = w.history aid ++ [.left] :=
    history_note _ aid .left
  refine alone (fun other hother => (same_enter hother none).trans (same_note hother .left)) hgood
    hown ?_
  refine ⟨?_, fun hno => ?_, fun hwaiting => ?_, fun _ row hrow hstatus => ?_, fun _ row hrow => ?_⟩
  · rw [hhistory]
    exact each_concat.mpr ⟨haid.each, trivial⟩
  · cases hno.symm.trans hAt.owner
  · cases (approvals_enter w aid none).symm.trans hwaiting
  · rw [hhistory]
    refine List.mem_append_left _ (haid.done ?_ row hrow hstatus)
    rw [hAt.owner]
    exact Option.some_ne_none t
  · exact hAt.row row hrow

theorem safe_end : Safe approvals anything cards t (.ret ()) (fun _ _ => True) w :=
  safe_ret (P := fun _ => True) (Contract.stable_const True) trivial fun _ _ => trivial

theorem run_action_safe (a : Asked) :
    Safe approvals anything cards t (Prog.bind (runAction a) fun _ => .ret ())
      (fun _ _ => True) w := by
  refine safe_call (P := fun _ => True) (Contract.stable_const True) trivial ?_
  intro w now _ w' hgood _ hexec _
  obtain ⟨hgood', hrespects, hcreated⟩ := exec_create hgood hexec
  refine ⟨hgood', hrespects, safe_call created_stable hcreated ?_⟩
  intro w _ _ w' hgood hcreated hexec _
  obtain ⟨hgood', hrespects, hwaiting⟩ := exec_register hgood hcreated hexec
  refine ⟨hgood', hrespects, safe_bind (safe_bind ?_)⟩
  have hbody : Safe approvals anything cards t
    (Prog.call (.emit a.aid (.confirm a.tool a.args a.card
      ("tower via " ++ a.actor) 600)) fun _ => Prog.call .clock fun (now : ℚ) =>
        Prog.bind (wait a.aid a.runId (now + APPROVAL_TTL_S)) fun decision => decided a decision)
      (fun _ => Over t a.aid) w' := by
    refine safe_ask trivial waiting_stable hwaiting fun _ w hwaiting => ?_
    refine safe_ask trivial waiting_stable hwaiting fun now w hwaiting => ?_
    exact safe_bind ((wait_safe hwaiting).mono fun decision w hAt => decided_safe a decision hAt)
  refine hbody.mono fun ended w hover => ?_
  -- what is known at the end of the turn is known for the notes there are
  obtain ⟨history, hAt, hleft⟩ := hover
  refine safe_call (at_stable closed_expired) hAt ?_
  intro w _ _ w' hgood hAt hexec _
  obtain ⟨hgood', hrespects⟩ := exec_forget hgood ⟨history, hAt, hleft⟩ hexec
  exact ⟨hgood', hrespects, safe_ret (P := fun _ => True) (Contract.stable_const True) trivial
    fun _ _ => safe_end⟩

theorem safe_free {op : Op} {k : op.Res → Code Unit}
    (hop : ∀ w a r w', exec t op a w = some (r, w') → ∀ other, Others other w w')
    (hk : ∀ r w, Safe approvals anything cards t (k r) (fun _ _ => True) w) :
    Safe approvals anything cards t (.call op k) (fun _ _ => True) w := by
  refine safe_call (P := fun _ => True) (Contract.stable_const True) trivial ?_
  intro w a r w' hgood _ hexec _
  obtain ⟨hgood', hrespects⟩ := others_all (hop w a r w' hexec) hgood
  exact ⟨hgood', hrespects, hk r w'⟩

theorem free_ask {op : Op} {k : op.Res → Code Unit} (hquiet : Quiet op)
    (hk : ∀ r w, Safe approvals anything cards t (k r) (fun _ _ => True) w) :
    Safe approvals anything cards t (.call op k) (fun _ _ => True) w :=
  safe_ask (P := fun _ => True) hquiet (Contract.stable_const True) trivial fun r w _ => hk r w

theorem approve_safe (user role : String) (verdict : Verdict) (options : List (String × Json)) :
    Safe approvals anything cards t (Approvals.approve aid user role verdict options)
      (fun _ _ => True) w := by
  refine free_ask trivial fun row w => ?_
  cases row with
  | none => exact safe_end
  | some row =>
      refine free_ask trivial fun allowed w => ?_
      split
      · exact safe_end
      · refine safe_free (fun w _ _ w' hexec => exec_resolve hexec) fun done w => ?_
        cases done with
        | true => exact safe_end
        | false =>
            refine free_ask trivial fun known w => ?_
            cases known with
            | true => exact safe_end
            | false =>
                refine safe_free ?_ fun _ _ => safe_end
                exact fun w now moved w' hexec => exec_expire hexec

/-- Every request keeps the contract. -/
theorem request_safe (request : Request) :
    Safe approvals anything cards t request.code (fun _ _ => True) w := by
  cases request with
  | action a => exact run_action_safe a
  | approve aid user role verdict options => exact approve_safe user role verdict options
  | resolve aid decision =>
      exact safe_free (fun w _ _ w' hexec => exec_resolve hexec) fun _ _ => safe_end
  | cancel runId =>
      refine safe_free (fun w _ _ w' hexec other => ?_) fun _ _ => safe_end
      cases hexec
      exact Same.others ⟨rfl, rfl, rfl, rfl⟩
  | expirePending =>
      exact safe_free (fun w _ _ w' hexec => exec_expire_pending hexec) fun _ _ => safe_end
  | deleteThread user threadId =>
      exact safe_free (fun w _ _ w' hexec => exec_delete_thread hexec) fun _ _ => safe_end

variable {threads : String → Option String} {actions : String → Option Action}

theorem all_good {c : Config ℕ Op Op.Res World}
    (h : Reachable approvals anything (World.start threads actions) c) : AllGood c.state := by
  have hstart : AllGood (World.start threads actions) := by
    intro aid
    refine ⟨each_nil, fun _ => ⟨rfl, rfl⟩, ?_, fun howner => absurd rfl howner, ?_⟩
    · intro hwaiting
      cases hwaiting
    · intro hleft
      cases hleft
  refine (cards.sound hstart (fun _ => trivial) (fun t => Contract.stable_const True) ?_ h).inv
  intro t request w p _ _ hp
  cases hp
  exact request_safe request

instance (t : ℕ) (op : Op) (w w' : World) : Decidable (anything t op w w') :=
  inferInstanceAs (Decidable True)

/-- Time stands still, the requests may decide, and each tool succeeds. -/
def smooth : (op : Op) → op.Ans
  | .applyOptions .. => .ok ⟨[], List.nodup_nil⟩
  | .toolReturns _ => (.dict [("ok", .bool true)], true, 12)
  | .permitted .. => true
  | .clock => (100 : ℚ)
  | .createAction .. => (100 : ℚ)
  | .waitEnds .. => (100 : ℚ)
  | .resolveAction .. => (100 : ℚ)
  | .expirePending => (100 : ℚ)
  | .register _ => ()
  | .emit .. => ()
  | .lookup _ => ()
  | .latch _ => ()
  | .isCancelled _ => ()
  | .markRunning .. => ()
  | .getAction _ => ()
  | .invoke .. => ()
  | .forget _ => ()
  | .resolve .. => ()
  | .known _ => ()
  | .setCancelled _ => ()
  | .deleteThread .. => ()

/-- A turn asks to wake a server. -/
def wakeServer : Asked where
  aid := "a1"
  threadId := "t1"
  runId := "r1"
  actor := "ada"
  tool := ⟨"wake_server", "operate", "operator"⟩
  args := ⟨[], List.nodup_nil⟩
  card := .dict []

end Threads

end SystemsManager.Tower.Approvals
