import SystemsManager.Jobs.Consistent

/-!
# Each ended job is finished once

Three paths end a job: an outcome is applied, the job fails or times out, or it is cancelled.
Each ends it with a guarded write and then calls the kind's `on_finish`. The contract
`finishContract` gives the job to the thread whose write ended it: nobody else may finish it,
and the thread owes the call until it is idle again. `_apply` calls `on_finish` for a done
outcome without looking whether its write took effect; `DoneLive` is the condition that it did.
Under it `finished_once` holds, and `finished_twice` is a run without it.
-/

namespace SystemsManager.Jobs

open Python Concurrency Relation

variable {W : World}

/-- The events that end the job. -/
def endingsOf (id : String) (log : List (Tid × Event W)) : List (Tid × Event W) :=
  log.filter fun (_, e) => match e with
    | .ended row => row.id == id
    | _ => false

/-- The events that call `on_finish` for the job. -/
def finishesOf (id : String) (log : List (Tid × Event W)) : List (Tid × Event W) :=
  log.filter fun (_, e) => match e with
    | .hooked .onFinish row _ => row.id == id
    | _ => false

/-- The event ends a job or calls `on_finish`. -/
def Event.ends : Event W → Bool
  | .ended _ => true
  | .hooked .onFinish _ _ => true
  | _ => false

/-- The write with which `_apply` makes a job done finds the row running. -/
def doneLive (op : Op W) (s : Sys W) : Bool :=
  match op with
  | .update (.outcome .done) id _ _ => s.status id == some .running
  | _ => true

/-- No `cancel` falls between the read of `_apply` and its write of a done outcome. -/
abbrev DoneLive : Condition Tid (Op W) (Sys W) := fun _ op s _ => doneLive op s = true

/-- The kind has an `on_finish` hook. -/
def Service.finishes (svc : Service W) (kind : String) : Prop :=
  ∃ f, ((svc.kinds kind).bind fun k => k.hook .onFinish) = some f

/-- What is known of the history of endings. -/
structure FinishInv (s : Sys W) : Prop where
  ledger : ledgerContract.inv s
  unique : ∀ id, (endingsOf id s.log).length ≤ 1
  ended : ∀ t row, (t, Event.ended row) ∈ s.log → row.status.terminal = true ∧ row.id ∈ s.ids ∧
    ∀ r, s.rows.get? row.id = some r → r.status = row.status ∧ r.kind = row.kind
  owned : ∀ t row st, (t, Event.hooked .onFinish row st) ∈ s.log →
    (∃ row', (t, Event.ended row') ∈ s.log ∧ row'.id = row.id) ∧
    (st = none ∨ st = some row.status ∧ row.status.terminal = true)
  once : ∀ id, (finishesOf id s.log).length ≤ 1

/-- What a thread may do: end live jobs, and finish the jobs that it has ended. -/
structure FinishGuar (t : Tid) (s s' : Sys W) : Prop where
  keeps : Keeps s s'
  log : ∃ new, s'.log = s.log ++ new ∧
    (∀ u row, (u, Event.ended row) ∈ new → u = t) ∧
    ∀ u row st, (u, Event.hooked .onFinish row st) ∈ new →
      u = t ∧ ∃ row', (t, Event.ended row') ∈ s.log ∧ row'.id = row.id

/-- An idle thread has finished every job that it has ended, where the kind has a hook. -/
def FinishIdle (svc : Service W) (t : Tid) (s : Sys W) : Prop :=
  ∀ row, (t, Event.ended row) ∈ s.log → svc.finishes row.kind → finishesOf row.id s.log ≠ []

/-- The promise of every thread about endings. -/
def finishContract (svc : Service W) : Contract Tid (Sys W) where
  inv := FinishInv
  guar := FinishGuar
  idle := FinishIdle svc

/-- What happens in a step that neither ends nor finishes a job. -/
structure Calm (s s' : Sys W) : Prop where
  keeps : Keeps s s'
  ledger : ledgerContract.inv s'
  log : ∃ new, s'.log = s.log ++ new ∧ ∀ u e, (u, e) ∈ new → e.ends = false

theorem finishes_of_append (id : String) (log new : List (Tid × Event W)) :
    finishesOf id (log ++ new) = finishesOf id log ++ finishesOf id new :=
  List.filter_append _ _

theorem endings_of_append (id : String) (log new : List (Tid × Event W)) :
    endingsOf id (log ++ new) = endingsOf id log ++ endingsOf id new :=
  List.filter_append _ _

variable {t : Tid} {id : String}

theorem mem_endings_of {log : List (Tid × Event W)} {e : Event W} :
    (t, e) ∈ endingsOf id log ↔ ∃ row, e = .ended row ∧ row.id = id ∧ (t, e) ∈ log := by
  simp only [endingsOf, List.mem_filter]
  cases e with
  | ended row => simp [and_comm]
  | _ => simp

theorem mem_finishes_of {log : List (Tid × Event W)} {e : Event W} :
    (t, e) ∈ finishesOf id log ↔
      ∃ row st, e = .hooked .onFinish row st ∧ row.id = id ∧ (t, e) ∈ log := by
  simp only [finishesOf, List.mem_filter]
  cases e with
  | hooked name row st =>
      cases name with
      | onFinish => simp [and_comm]
      | onCancel => simp
  | _ => simp

theorem ends_of_append {log new : List (Tid × Event W)} (h : ∀ u e, (u, e) ∈ new → e.ends = false) :
    endingsOf id (log ++ new) = endingsOf id log ∧
      finishesOf id (log ++ new) = finishesOf id log := by
  have hend : endingsOf id new = [] := by
    rw [List.eq_nil_iff_forall_not_mem]
    rintro ⟨u, e⟩ hmem
    obtain ⟨row, rfl, -, hnew⟩ := mem_endings_of.mp hmem
    exact absurd (h u _ hnew) (by simp [Event.ends])
  have hfin : finishesOf id new = [] := by
    rw [List.eq_nil_iff_forall_not_mem]
    rintro ⟨u, e⟩ hmem
    obtain ⟨row, st, rfl, -, hnew⟩ := mem_finishes_of.mp hmem
    exact absurd (h u _ hnew) (by simp [Event.ends])
  rw [endings_of_append, finishes_of_append, hend, hfin, List.append_nil, List.append_nil]
  exact ⟨rfl, rfl⟩

/-- A job that a thread has ended was not ended by another. -/
theorem FinishInv.same_thread {s : Sys W} (h : FinishInv s) {t u : Tid} {row row' : Row}
    (ht : (t, Event.ended row) ∈ s.log) (hu : (u, Event.ended row') ∈ s.log)
    (hid : row.id = row'.id) : t = u ∧ row = row' := by
  have h1 : (t, Event.ended row) ∈ endingsOf row.id s.log := mem_endings_of.mpr ⟨row, rfl, rfl, ht⟩
  have h2 : (u, Event.ended row') ∈ endingsOf row.id s.log :=
    mem_endings_of.mpr ⟨row', rfl, hid.symm, hu⟩
  have hlen := h.unique row.id
  match hl : endingsOf row.id s.log, hlen with
  | [], _ =>
      rw [hl] at h1
      cases h1
  | [x], _ =>
      rw [hl, List.mem_singleton] at h1 h2
      have heq := h1.trans h2.symm
      simp only [Prod.mk.injEq, Event.ended.injEq] at heq
      exact heq
  | _ :: _ :: _, hlen => simp at hlen

variable {s s' : Sys W}

theorem FinishInv.over_keeps (h : FinishInv s) (hkeeps : Keeps s s') {row : Row}
    (hrow : (t, Event.ended row) ∈ s.log) :
    row.status.terminal = true ∧ row.id ∈ s'.ids ∧
      ∀ r, s'.rows.get? row.id = some r → r.status = row.status ∧ r.kind = row.kind := by
  obtain ⟨hterm, hid, hstored⟩ := h.ended t row hrow
  refine ⟨hterm, hkeeps.ids _ hid, ?_⟩
  intro r' hr'
  cases hr : s.rows.get? row.id with
  | none =>
      rw [hkeeps.absent _ hid hr] at hr'
      cases hr'
  | some r =>
      obtain ⟨hst, hkind⟩ := hstored r hr
      refine ⟨?_, ?_⟩
      · rw [hkeeps.terminal _ r r' hr (hst ▸ hterm) hr', hst]
      · rw [(hkeeps.job _ r r' hr hr').kind, hkind]

theorem Calm.inv (hcalm : Calm s s') (h : FinishInv s) : FinishInv s' := by
  obtain ⟨new, hlog, hnew⟩ := hcalm.log
  have hold : ∀ u e, (u, e) ∈ s'.log → e.ends = true → (u, e) ∈ s.log := by
    intro u e hmem hends
    rw [hlog] at hmem
    rcases List.mem_append.mp hmem with hmem | hmem
    · exact hmem
    · rw [hnew u e hmem] at hends
      cases hends
  refine ⟨hcalm.ledger, ?_, ?_, ?_, ?_⟩
  · intro id
    rw [hlog, (ends_of_append hnew).1]
    exact h.unique id
  · intro t row hrow
    exact h.over_keeps hcalm.keeps (hold t _ hrow rfl)
  · intro t row st hrow
    obtain ⟨⟨row', hmem, hid⟩, hst⟩ := h.owned t row st (hold t _ hrow rfl)
    refine ⟨⟨row', ?_, hid⟩, hst⟩
    rw [hlog]
    exact List.mem_append_left _ hmem
  · intro id
    rw [hlog, (ends_of_append hnew).2]
    exact h.once id

theorem Calm.guar (hcalm : Calm s s') (t : Tid) : FinishGuar t s s' := by
  obtain ⟨new, hlog, hnew⟩ := hcalm.log
  refine ⟨hcalm.keeps, new, hlog, ?_, ?_⟩
  · intro u row hmem
    exact absurd (hnew u _ hmem) (by simp [Event.ends])
  · intro u row st hmem
    exact absurd (hnew u _ hmem) (by simp [Event.ends])

theorem write_log_same {r r' : Row} (h : r.status.terminal = false → r'.status.terminal = false) :
    (s.write t r r').log = s.log := by
  rw [Sys.write_log, if_neg, List.append_nil]
  simp only [Bool.and_eq_true, Bool.not_eq_true']
  rintro ⟨hlive, hterm⟩
  rw [h hlive] at hterm
  cases hterm

theorem UpdateShape.calm_live {site : Write} {only : Option (List Status)} {set : Row → Row}
    (h : UpdateShape site only set) (hcalm : (Op.update site id only set : Op W).ends = false)
    {r : Row} (hlive : r.status.terminal = false) : (set r).status.terminal = false := by
  cases h with
  | claim now => rfl
  | waiting message => exact hlive
  | outcome row o now hleads =>
      rw [outcome_row_status hleads]
      cases hl : o.leadsTo row with
      | queued => rfl
      | running => rfl
      | done =>
          rw [hl] at hcalm
          cases hcalm
      | failed => exact absurd hl hleads
      | cancelled =>
          unfold Outcome.leadsTo at hl
          split at hl
          · split at hl <;> cases hl
          · cases hl
          · cases hl
          · split at hl <;> cases hl
  | failed row message now attempts => cases hcalm
  | lease now => exact hlive

theorem update_log_calm {site : Write} {only : Option (List Status)} {set : Row → Row}
    (hop : UpdateShape site only set) (hcalm : (Op.update site id only set : Op W).ends = false) :
    ∃ new, (s.update t site id only set).2.log = s.log ++ new ∧
      ∀ u e, (u, e) ∈ new → e.ends = false := by
  unfold Sys.update
  split
  · exact ⟨[], by simp, by simp⟩
  · rename_i r hr
    have hwrite : (s.write t r (set r)).log = s.log :=
      write_log_same fun hlive => hop.calm_live hcalm hlive
    dsimp only
    split
    · refine ⟨[(t, .claimed id)], by simp [Sys.note, hwrite], ?_⟩
      intro u e hmem
      rw [List.mem_singleton] at hmem
      cases hmem
      rfl
    · exact ⟨[], by simp [hwrite], by simp⟩

theorem calm_exec {op : Op W} {a : Ans W op} {r : Res W op} (hcalm : op.ends = false)
    (hlawful : Lawful op s s') (hexec : exec t op a s = some (r, s')) : Calm s s' := by
  suffices ∃ new, s'.log = s.log ++ new ∧ ∀ u e, (u, e) ∈ new → e.ends = false from
    ⟨hlawful.keeps, hlawful.after, this⟩
  have hsame : s'.log = s.log → ∃ new, s'.log = s.log ++ new ∧
      ∀ u e, (u, e) ∈ new → e.ends = false := fun h => ⟨[], by simp [h], by simp⟩
  have hone : ∀ e : Event W, e.ends = false → s'.log = s.log ++ [(t, e)] →
      ∃ new, s'.log = s.log ++ new ∧ ∀ u e, (u, e) ∈ new → e.ends = false := by
    intro e he h
    refine ⟨_, h, ?_⟩
    intro u e' hmem
    rw [List.mem_singleton] at hmem
    cases hmem
    exact he
  cases op with
  | get site id =>
      cases site with
      | after =>
          cases hexec
          exact hone _ rfl rfl
      | other =>
          cases hexec
          exact hsame rfl
  | update site id only set =>
      simp only [exec, Option.some.injEq] at hexec
      have hs' : s' = (s.update t site id only set).2 := by rw [hexec]
      rw [hs']
      rcases hlawful.issued with hshape | ⟨hno, -⟩
      · exact update_log_calm hshape hcalm
      · cases hno
  | insert row =>
      simp only [exec] at hexec
      split at hexec
      · cases hexec
      · cases hexec
        exact hone _ rfl rfl
  | sweepDue now =>
      simp only [exec] at hexec
      split at hexec
      · cases hexec
        exact hsame rfl
      · cases hexec
        exact hsame rfl
  | cancelRow id now message => cases hcalm
  | ackRow id now =>
      simp only [exec] at hexec
      split at hexec
      · cases hexec
        exact hsame rfl
      · split at hexec
        · cases hexec
          exact hsame rfl
        · cases hexec
          exact hsame (write_log_same fun h => h)
  | setState id state =>
      simp only [exec] at hexec
      split at hexec
      · cases hexec
        exact hsame rfl
      · cases hexec
        exact hsame (write_log_same fun h => h)
  | annotate id message =>
      simp only [exec] at hexec
      split at hexec
      · cases hexec
        exact hsame rfl
      · cases hexec
        exact hsame (write_log_same fun h => h)
  | register id =>
      cases hexec
      exact hone _ rfl rfl
  | startThread ref =>
      simp only [exec] at hexec
      split at hexec
      · cases hexec
        exact hsame rfl
      · cases hexec
  | enter ref row =>
      cases hexec
      exact hone _ rfl rfl
  | hook name row =>
      cases name with
      | onFinish => cases hcalm
      | onCancel =>
          cases hexec
          exact hone _ rfl rfl
  | returned id =>
      cases hexec
      exact hone _ rfl rfl
  | ext e =>
      cases hexec
      exact hone _ rfl rfl
  | never => cases hexec
  | _ =>
      cases hexec
      exact hsame rfl

/-- The condition under which endings are looked at. -/
abbrev FinishRun : Condition Tid (Op W) (Sys W) := fun t op s s' =>
  DoneLive t op s s' ∧ Lawful op s s'

section Endings

variable {svc : Service W} {permits : Call → Bool} {t : Tid} {s : Sys W}

/-- The thread has finished everything it has ended. -/
structure Rested (svc : Service W) (t : Tid) (s : Sys W) : Prop where
  inv : FinishInv s
  idle : FinishIdle svc t s

/-- The thread has ended the job of `e`, nobody has finished it, and everything else that the
thread has ended is finished. -/
structure Ending (svc : Service W) (t : Tid) (e : Row) (s : Sys W) : Prop where
  inv : FinishInv s
  mine : (t, Event.ended e) ∈ s.log
  unfinished : finishesOf e.id s.log = []
  rest : ∀ row, (t, Event.ended row) ∈ s.log → row.id ≠ e.id → svc.finishes row.kind →
    finishesOf row.id s.log ≠ []

theorem FinishGuar.other {u : Tid} {s s' : Sys W} (h : FinishGuar u s s') (hu : u ≠ t) {row : Row}
    (hrow : (t, Event.ended row) ∈ s'.log) : (t, Event.ended row) ∈ s.log := by
  obtain ⟨new, hlog, hended, -⟩ := h.log
  rw [hlog] at hrow
  rcases List.mem_append.mp hrow with hmem | hmem
  · exact hmem
  · exact absurd (hended t row hmem) hu.symm

variable {id : String}

theorem FinishGuar.finished {u : Tid} {s s' : Sys W} (h : FinishGuar u s s')
    (hid : finishesOf id s.log ≠ []) : finishesOf id s'.log ≠ [] := by
  obtain ⟨new, hlog, -⟩ := h.log
  rw [hlog, finishes_of_append]
  exact fun hnil => hid (List.append_eq_nil_iff.mp hnil).1

/-- What the thread has ended is finished by nobody else. -/
theorem FinishGuar.unfinished {u : Tid} {s s' : Sys W} (h : FinishGuar u s s') (hu : u ≠ t)
    (hinv : FinishInv s) {e : Row} (hmine : (t, Event.ended e) ∈ s.log)
    (hun : finishesOf e.id s.log = []) : finishesOf e.id s'.log = [] := by
  obtain ⟨new, hlog, -, hfinish⟩ := h.log
  rw [hlog, finishes_of_append, hun, List.nil_append, List.eq_nil_iff_forall_not_mem]
  rintro ⟨v, ev⟩ hmem
  obtain ⟨row, st, rfl, hid, hnew⟩ := mem_finishes_of.mp hmem
  obtain ⟨-, row', hrow', hid'⟩ := hfinish v row st hnew
  exact hu (hinv.same_thread hrow' hmine (hid'.trans hid)).1

/-- Having nothing to finish is stable. -/
theorem rested_stable : (finishContract svc).Stable t (Rested svc t) := by
  intro u hu s s' _ hinv' hguar h
  refine ⟨hinv', ?_⟩
  intro row hrow hkind
  exact hguar.finished (h.idle row (hguar.other hu hrow) hkind)

/-- Owing a call of `on_finish` is stable. -/
theorem ending_stable (e : Row) : (finishContract svc).Stable t (Ending svc t e) := by
  intro u hu s s' hinv hinv' hguar h
  refine ⟨hinv', ?_, hguar.unfinished hu hinv h.mine h.unfinished, ?_⟩
  · obtain ⟨new, hlog, -⟩ := hguar.log
    rw [hlog]
    exact List.mem_append_left _ h.mine
  · intro row hrow hid hkind
    exact hguar.finished (h.rest row (hguar.other hu hrow) hid hkind)

variable {P : Sys W → Prop}

theorem calm_safe {α : Type} {p : Code W α} (hp : p.All fun op => op.ends = false)
    (hstable : (finishContract svc).Stable t P) (hP : P s) :
    Safe (machine svc permits) FinishRun (finishContract svc) t p (fun _ => P) s := by
  refine safe_of_all hp hstable hP ?_ fun _ _ h => h
  intro op hop s a r s' hinv hPs hexec hallow
  have hcalm := calm_exec hop hallow.2 hexec
  obtain ⟨u, hu⟩ := exists_other t
  have hinv' : (finishContract svc).inv s' := hcalm.inv hinv
  exact ⟨hinv', hcalm.guar t, hstable.anyone hu hinv hinv' hcalm.guar hPs⟩

/-- A write that ends a live job: the thread owes the call of `on_finish`. -/
theorem Rested.ends (h : Rested svc t s) {s' : Sys W} (hkeeps : Keeps s s')
    (hledger : ledgerContract.inv s') {r e : Row} (hr : s.rows.get? e.id = some r)
    (hlive : r.status.terminal = false) (hterm : e.status.terminal = true)
    (hstored : s'.rows.get? e.id = some e) (hlog : s'.log = s.log ++ [(t, .ended e)]) :
    FinishInv s' ∧ FinishGuar t s s' ∧ Ending svc t e s' := by
  -- A live job has not been ended before, and so not finished either.
  have hfirst : endingsOf e.id s.log = [] := by
    rw [List.eq_nil_iff_forall_not_mem]
    rintro ⟨u, ev⟩ hmem
    obtain ⟨row, rfl, hid, hmem⟩ := mem_endings_of.mp hmem
    obtain ⟨hover, -, hst⟩ := h.inv.ended u row hmem
    rw [(hst r (hid ▸ hr)).1, hover] at hlive
    cases hlive
  have hun : finishesOf e.id s.log = [] := by
    rw [List.eq_nil_iff_forall_not_mem]
    rintro ⟨u, ev⟩ hmem
    obtain ⟨row, st, rfl, hid, hmem⟩ := mem_finishes_of.mp hmem
    obtain ⟨⟨row', hrow', hid'⟩, -⟩ := h.inv.owned u row st hmem
    have : (u, Event.ended row') ∈ endingsOf e.id s.log :=
      mem_endings_of.mpr ⟨row', rfl, hid'.trans hid, hrow'⟩
    rw [hfirst] at this
    cases this
  have hfin : ∀ id, finishesOf id s'.log = finishesOf id s.log := by
    intro id
    rw [hlog, finishes_of_append]
    simp [finishesOf]
  have hmine : (t, Event.ended e) ∈ s'.log := by
    rw [hlog]
    exact List.mem_append_right _ (List.mem_singleton_self _)
  have hold : ∀ u ev, (u, ev) ∈ s'.log → (u, ev) ∈ s.log ∨ (u, ev) = (t, .ended e) := by
    intro u ev hmem
    rw [hlog, List.mem_append, List.mem_singleton] at hmem
    exact hmem
  have hinv : FinishInv s' := by
    refine ⟨hledger, ?_, ?_, ?_, ?_⟩
    · intro id
      rw [hlog, endings_of_append, List.length_append]
      by_cases hid : e.id = id
      · rw [← hid, hfirst, List.length_nil, Nat.zero_add]
        exact List.length_filter_le _ _
      · have hnil : endingsOf id [(t, (.ended e : Event W))] = [] := by simp [endingsOf, hid]
        rw [hnil, List.length_nil, Nat.add_zero]
        exact h.inv.unique id
    · intro u row hrow
      rcases hold u _ hrow with hrow | hrow
      · exact h.inv.over_keeps hkeeps hrow
      · cases hrow
        refine ⟨hterm, hledger.2 e.id e hstored, ?_⟩
        intro r' hr'
        rw [hstored] at hr'
        cases hr'
        exact ⟨rfl, rfl⟩
    · intro u row st hrow
      rcases hold u _ hrow with hrow | hrow
      · obtain ⟨⟨row', hrow', hid⟩, hst⟩ := h.inv.owned u row st hrow
        refine ⟨⟨row', ?_, hid⟩, hst⟩
        rw [hlog]
        exact List.mem_append_left _ hrow'
      · cases hrow
    · intro id
      rw [hfin]
      exact h.inv.once id
  refine ⟨hinv, ⟨hkeeps, _, hlog, ?_, ?_⟩, hinv, hmine, by rw [hfin, hun], ?_⟩
  · intro u row hmem
    rw [List.mem_singleton] at hmem
    cases hmem
    rfl
  · intro u row st hmem
    rw [List.mem_singleton] at hmem
    cases hmem
  · intro row hrow hid hkind
    rw [hfin]
    rcases hold t _ hrow with hrow | hrow
    · exact h.idle row hrow hkind
    · cases hrow
      exact absurd rfl hid

/-- The thread owes the call of `on_finish` for the job of `e`, with this row: it carries the
status that the ledger holds. -/
structure Owes (svc : Service W) (t : Tid) (e row : Row) (s : Sys W) : Prop where
  ending : Ending svc t e s
  id : row.id = e.id
  status : ∀ st, s.status row.id = some st → st = row.status

/-- The status of an ended job stays. -/
theorem owes_stable (e row : Row) : (finishContract svc).Stable t (Owes svc t e row) := by
  intro u hu s s' hinv hinv' hguar h
  refine ⟨ending_stable e u hu s s' hinv hinv' hguar h.ending, h.id, ?_⟩
  intro st hst
  obtain ⟨hterm, hmem, hover⟩ := h.ending.inv.ended t e h.ending.mine
  simp only [Sys.status, Option.map_eq_some_iff] at hst
  obtain ⟨r', hr', rfl⟩ := hst
  cases hr : s.rows.get? row.id with
  | none =>
      rw [hguar.keeps.absent row.id (h.id ▸ hmem) hr] at hr'
      cases hr'
  | some r =>
      have hst := h.status r.status (by simp [Sys.status, hr])
      have hrterm : r.status.terminal = true := by
        rw [(hover r (h.id ▸ hr)).1]
        exact hterm
      rw [hguar.keeps.terminal row.id r r' hr hrterm hr', hst]

/-- The finishes after one more call of `on_finish`. -/
theorem finishes_of_hooked (id : String) (log : List (Tid × Event W)) (row : Row)
    (st : Option Status) :
    finishesOf id (log ++ [(t, Event.hooked .onFinish row st)]) =
      finishesOf id log ++ if row.id = id then [(t, Event.hooked .onFinish row st)] else [] := by
  rw [finishes_of_append]
  congr 1
  by_cases hr : row.id = id
  · simp [finishesOf, hr]
  · simp [finishesOf, hr]

variable {e row : Row}

theorem Owes.hooked_inv (h : Owes svc t e row s) (hledger : ledgerContract.inv s) :
    FinishInv (s.note t (.hooked .onFinish row (s.status row.id))) := by
  obtain ⟨hterm, hmem, hover⟩ := h.ending.inv.ended t e h.ending.mine
  refine ⟨hledger, ?_, ?_, ?_, ?_⟩
  · intro id
    show (endingsOf id (s.log ++ _)).length ≤ 1
    rw [endings_of_append]
    simpa [endingsOf] using h.ending.inv.unique id
  · intro u row' hrow'
    exact h.ending.inv.ended u row' (by simpa [Sys.note] using hrow')
  · intro u row' st' hrow'
    rcases List.mem_append.mp hrow' with hrow' | hrow'
    · obtain ⟨⟨e', he', hid'⟩, hst'⟩ := h.ending.inv.owned u row' st' hrow'
      exact ⟨⟨e', List.mem_append_left _ he', hid'⟩, hst'⟩
    · rw [List.mem_singleton] at hrow'
      cases hrow'
      refine ⟨⟨e, List.mem_append_left _ h.ending.mine, h.id.symm⟩, ?_⟩
      cases hstored : s.rows.get? row.id with
      | none => exact .inl (by simp [Sys.status, hstored])
      | some r =>
          right
          have hr := h.status r.status (by simp [Sys.status, hstored])
          refine ⟨by simp [Sys.status, hstored, hr], ?_⟩
          rw [← hr, (hover r (h.id ▸ hstored)).1]
          exact hterm
  · intro id
    show (finishesOf id (s.log ++ _)).length ≤ 1
    rw [finishes_of_hooked]
    by_cases hr : row.id = id
    · rw [if_pos hr, ← hr, h.id, h.ending.unfinished]
      simp
    · rw [if_neg hr, List.append_nil]
      exact h.ending.inv.once id

theorem Owes.hooked_idle (h : Owes svc t e row s) :
    FinishIdle svc t (s.note t (.hooked .onFinish row (s.status row.id))) := by
  intro row' hrow' hkind'
  show finishesOf row'.id (s.log ++ _) ≠ []
  rw [finishes_of_hooked]
  by_cases hr : row.id = row'.id
  · rw [if_pos hr]
    simp
  · rw [if_neg hr, List.append_nil]
    exact h.ending.rest row' (by simpa [Sys.note] using hrow')
      (fun heq => hr (h.id.trans heq.symm)) hkind'

theorem Owes.finish_safe {kind : String} (h : Owes svc t e row s) (hkind : kind = e.kind) :
    Safe (machine svc permits) FinishRun (finishContract svc) t
      (Service.callHook (svc.kinds kind) .onFinish row) (fun _ => Rested svc t) s := by
  subst hkind
  unfold Service.callHook
  split
  · rename_i hnone
    -- The kind has no hook, so that nothing is owed.
    refine safe_ret (ending_stable e) h.ending ?_
    intro s hs
    refine ⟨hs.inv, ?_⟩
    intro row' hrow' hkind'
    by_cases hsame : row'.id = e.id
    · obtain ⟨-, rfl⟩ := hs.inv.same_thread hrow' hs.mine hsame
      obtain ⟨f, hf⟩ := hkind'
      rw [hnone] at hf
      cases hf
    · exact hs.rest row' hrow' hsame hkind'
  · rename_i f hf
    refine safe_call (owes_stable e row) h ?_
    intro s a r s' hinv hs hexec hallow
    cases hexec
    have hinv' := hs.hooked_inv hinv.ledger
    refine ⟨hinv', ⟨hallow.2.keeps, _, rfl, ?_, ?_⟩, ?_⟩
    · intro u row' hrow'
      simp at hrow'
    · intro u row' st' hrow'
      rw [List.mem_singleton] at hrow'
      cases hrow'
      exact ⟨rfl, e, hs.ending.mine, hs.id.symm⟩
    · have hops : (f row).All fun op => op.ofHandler = true := by
        rw [Option.bind_eq_some_iff] at hf
        obtain ⟨k, -, hf⟩ := hf
        exact k.on_finish_ops f hf row
      exact calm_safe (hops.mono fun _ h => (Op.plain_of_handler h).2) rested_stable
        ⟨hinv', hs.hooked_idle⟩

theorem calm_call {α : Type} {op : Op W} {k : Res W op → Code W α} {Q : α → Sys W → Prop}
    (hop : op.ends = false) (hstable : (finishContract svc).Stable t P) (hP : P s)
    (h : ∀ s a r s', FinishInv s → P s → P s' → Lawful op s s' → exec t op a s = some (r, s') →
      Safe (machine svc permits) FinishRun (finishContract svc) t (k r) Q s') :
    Safe (machine svc permits) FinishRun (finishContract svc) t (.call op k) Q s := by
  refine safe_call hstable hP ?_
  intro s a r s' hinv hs hexec hallow
  have hcalm := calm_exec hop hallow.2 hexec
  obtain ⟨u, hu⟩ := exists_other t
  have hinv' : (finishContract svc).inv s' := hcalm.inv hinv
  have hs' := hstable.anyone hu hinv hinv' hcalm.guar hs
  exact ⟨hinv', hcalm.guar t, h s a r s' hinv hs hs' hallow.2 hexec⟩

theorem calm_ask {β : Type} {op : Op W} {f : Res W op → Code W β} {Q : β → Sys W → Prop}
    (hop : op.ends = false) (hstable : (finishContract svc).Stable t P) (hP : P s)
    (h : ∀ s a r s', FinishInv s → P s → P s' → Lawful op s s' → exec t op a s = some (r, s') →
      Safe (machine svc permits) FinishRun (finishContract svc) t (f r) Q s') :
    Safe (machine svc permits) FinishRun (finishContract svc) t (Code.ask op >>= f) Q s :=
  calm_call hop hstable hP h

theorem calm_act {β : Type} {op : Op W} {f : Unit → Code W β} {Q : β → Sys W → Prop}
    (hop : op.ends = false) (hstable : (finishContract svc).Stable t P) (hP : P s)
    (h : ∀ s, P s → Safe (machine svc permits) FinishRun (finishContract svc) t (f ()) Q s) :
    Safe (machine svc permits) FinishRun (finishContract svc) t (Code.act op >>= f) Q s :=
  calm_call hop hstable hP fun _ _ _ s' _ _ hs' _ _ => h s' hs'

theorem knows_kept (row : Row) : (finishContract svc).Kept (Knows row) :=
  fun _ _ _ _ _ hguar h => hguar.keeps.knows h

theorem Ending.owes (h : Ending svc t e s) (hid : row.id = e.id) (hkind : row.kind = e.kind) :
    Owes svc t e ((s.rows.get? e.id).getD row) s ∧ ((s.rows.get? e.id).getD row).kind = e.kind := by
  obtain ⟨-, -, hover⟩ := h.inv.ended t e h.mine
  cases hr : s.rows.get? e.id with
  | none =>
      refine ⟨⟨h, hid, ?_⟩, hkind⟩
      intro st hst
      simp [Sys.status, hid, hr] at hst
  | some r =>
      have hrid := (h.inv.ledger.1 e.id r hr).1
      refine ⟨⟨h, hrid, ?_⟩, (hover r hr).2⟩
      intro st hst
      simpa [Sys.status, hrid, hr] using hst.symm

theorem Rested.update_ends {s' : Sys W} {site : Write} {set : Row → Row} {ok : Bool} {a : Unit}
    (h : Rested svc t s) (hsite : site ≠ .claim)
    (hlawful : Lawful (.update site id (some [.running]) set) s s')
    (hterm : ∀ r, (set r).status.terminal = true)
    (hexec : exec t (.update site id (some [.running]) set) a s = some (ok, s')) :
    (ok = false ∧ s' = s ∧ s.status id ≠ some .running) ∨
    (ok = true ∧ FinishInv s' ∧ FinishGuar t s s' ∧ ∃ e, e.id = id ∧ Ending svc t e s' ∧
      s'.rows.get? id = some e) := by
  simp only [exec, Sys.update, Option.some.injEq] at hexec
  cases hr : s.rows.matching id (some [.running]) with
  | none =>
      rw [hr] at hexec
      cases hexec
      refine .inl ⟨rfl, rfl, ?_⟩
      intro hst
      simp only [Sys.status, Option.map_eq_some_iff] at hst
      obtain ⟨r, hget, hrunning⟩ := hst
      have hmatch : s.rows.matching id (some [.running]) = some r :=
        Ledger.matching_eq_some.mpr ⟨hget, by simp [hrunning]⟩
      rw [hr] at hmatch
      cases hmatch
  | some r =>
      rw [hr] at hexec
      simp only [hsite, if_false, Prod.mk.injEq] at hexec
      obtain ⟨rfl, rfl⟩ := hexec
      obtain ⟨hget, hrunning⟩ := Ledger.matching_eq_some.mp hr
      have hlive : r.status.terminal = false := by
        have : r.status = .running := by simpa using hrunning [.running] rfl
        rw [this]
        rfl
      have hid := (h.inv.ledger.1 id r hget).1
      obtain ⟨hinv', hguar, hending⟩ := h.ends (e := { set r with id := r.id }) hlawful.keeps
        hlawful.after (by simpa [hid] using hget) hlive (hterm r)
        (by rw [Sys.write_rows, Dict.get?_set, if_pos rfl])
        (by rw [Sys.write_log, if_pos (by simp [hlive, hterm r])])
      refine .inr ⟨rfl, hinv', hguar, { set r with id := r.id }, hid, hending, ?_⟩
      rw [Sys.write_rows, Dict.get?_set, if_pos hid.symm]

theorem resolve_failed_end_safe {payload : Alert} {message : String} {alert : Bool}
    (h : Owes svc t e row s) (hkind : row.kind = e.kind) :
    Safe (machine svc permits) FinishRun (finishContract svc) t
      (do if alert then Code.act (.alert payload)
          Service.log "jobs.failed" row false (Service.orElse row.user "system") (some message)
          Service.callHook (svc.kinds row.kind) .onFinish row) (fun _ => Rested svc t) s := by
  have hend : ∀ s, Owes svc t e row s →
      Safe (machine svc permits) FinishRun (finishContract svc) t
        (do Service.log "jobs.failed" row false (Service.orElse row.user "system") (some message)
            Service.callHook (svc.kinds row.kind) .onFinish row) (fun _ => Rested svc t) s := by
    intro s hs
    refine calm_act rfl (owes_stable e row) hs ?_
    intro s hs
    exact hs.finish_safe hkind
  split
  · refine calm_act rfl (owes_stable e row) h ?_
    intro s hs
    exact hend s hs
  · exact hend s h

variable {now : ℚ}

theorem resolve_failed_safe {message : String} {attempts : Option Nat} {alert : Bool}
    (h : Rested svc t s) (hrow : Knows row s) :
    Safe (machine svc permits) FinishRun (finishContract svc) t
      (svc.resolveFailed row message now attempts alert) (fun _ => Rested svc t) s := by
  refine safe_call (rested_stable.and ((knows_kept row).stable t)) ⟨h, hrow⟩ ?_
  intro s a ok s' hinv hs hexec hallow
  rcases hs.1.update_ends (a := a) (by decide) hallow.2 (fun _ => rfl) hexec with
    ⟨rfl, rfl, -⟩ | ⟨rfl, hinv', hguar, e, hid, hending, hstored⟩
  · have hcalm : Calm s' s' := ⟨hallow.2.keeps, hallow.2.after, [], by simp, by simp⟩
    exact ⟨hinv, hcalm.guar t, safe_ret rested_stable hs.1 fun _ h => h⟩
  · refine ⟨hinv', hguar, ?_⟩
    have hkind : row.kind = e.kind := ((hallow.2.keeps.knows hs.2).2 e (hid ▸ hstored)).kind.symm
    refine calm_ask rfl (ending_stable e) hending ?_
    intro s a last s' _ hs _ _ hexec
    cases hexec
    have hfailed : (failedRow row message now attempts row).id = e.id := hid.symm
    obtain ⟨howes, hkind'⟩ := hs.owes hfailed hkind
    rw [hid] at howes hkind'
    exact resolve_failed_end_safe howes hkind'

theorem plain_rested {α : Type} {p : Code W α} (hp : p.All Op.Plain) (h : Rested svc t s) :
    Safe (machine svc permits) FinishRun (finishContract svc) t p (fun _ => Rested svc t) s :=
  calm_safe (hp.mono fun _ hop => hop.2) rested_stable h

theorem plain_seq {α β : Type} {p : Code W α} {f : α → Code W β} {Q : β → Sys W → Prop}
    (hp : p.All Op.Plain) (hstable : (finishContract svc).Stable t P) (hP : P s)
    (h : ∀ a s, P s → Safe (machine svc permits) FinishRun (finishContract svc) t (f a) Q s) :
    Safe (machine svc permits) FinishRun (finishContract svc) t (p >>= f) Q s :=
  safe_bind ((calm_safe (hp.mono fun _ hop => hop.2) hstable hP).mono h)

theorem apply_done_safe {outcome : Outcome} (h : Rested svc t s) (hrow : Knows row s)
    (hid : row.id = id) (hdone : outcome.leadsTo row = .done) :
    Safe (machine svc permits) FinishRun (finishContract svc) t
      (do let _ ← Code.update (.outcome (outcome.leadsTo row)) id [.running]
            (outcomeRow row outcome now)
          Code.act (.forget id)
          if outcome.leadsTo row = .done then
            let last := (← Code.get id).getD row
            Service.callHook (svc.kinds row.kind) .onFinish last) (fun _ => Rested svc t) s := by
  refine safe_call (rested_stable.and ((knows_kept row).stable t)) ⟨h, hrow⟩ ?_
  intro s a ok s' hinv hs hexec hallow
  have hterm : ∀ r, (outcomeRow row outcome now r).status.terminal = true := by
    intro r
    rw [outcome_row_status (by rw [hdone]; decide), hdone]
    rfl
  rcases hs.1.update_ends (a := a) (by simp) hallow.2 hterm hexec with
    ⟨-, -, hnot⟩ | ⟨rfl, hinv', hguar, e, heid, hending, hstored⟩
  · -- The condition says that the row is running.
    have hlive : doneLive _ s = true := hallow.1
    rw [hdone] at hlive
    exact absurd (by simpa [doneLive] using hlive) hnot
  · refine ⟨hinv', hguar, ?_⟩
    have hkind : row.kind = e.kind :=
      ((hallow.2.keeps.knows hs.2).2 e (hid ▸ hstored)).kind.symm
    refine calm_act rfl (ending_stable e) hending ?_
    intro s hs
    rw [if_pos hdone]
    refine calm_call rfl (ending_stable e) hs ?_
    intro s a last s' _ hs _ _ hexec
    cases hexec
    obtain ⟨howes, -⟩ := hs.owes (hid.trans heid.symm) hkind
    rw [heid] at howes
    exact howes.finish_safe hkind

theorem apply_safe {outcome : Outcome} (h : Rested svc t s) :
    Safe (machine svc permits) FinishRun (finishContract svc) t (svc.apply id outcome)
      (fun _ => Rested svc t) s := by
  have hforget : ∀ s, Rested svc t s → Safe (machine svc permits) FinishRun (finishContract svc) t
      (Code.act (.forget id)) (fun _ => Rested svc t) s :=
    fun s hs => calm_safe ⟨rfl, fun _ => trivial⟩ rested_stable hs
  refine calm_ask rfl rested_stable h ?_
  intro s a found s' hinv hs _ _ hexec
  cases hexec
  split
  · exact hforget s hs
  · rename_i row hrow
    obtain ⟨hid, hknows⟩ := knows_of_get hinv.ledger hrow
    split
    · exact hforget s hs
    · refine calm_ask rfl (rested_stable.and ((knows_kept row).stable t)) ⟨hs, hknows⟩ ?_
      intro s _ now s' _ _ hs' _ _
      split
      · refine calm_act rfl (rested_stable.and ((knows_kept row).stable t)) hs' ?_
        intro s hs
        exact resolve_failed_safe hs.1 (hs.2.same ⟨rfl, rfl, rfl, rfl, rfl⟩)
      · rename_i hfailed
        by_cases hdone : outcome.leadsTo row = .done
        · exact apply_done_safe hs'.1 hs'.2 hid hdone
        · -- The outcome puts the job back into the queue.
          have hplain : (Op.update (.outcome (outcome.leadsTo row)) id (some [.running])
              (outcomeRow row outcome now) : Op W).ends = false := by
            unfold Op.ends
            split
            · rename_i heq
              cases heq
            · rename_i heq
              injection heq with hsite
              injection hsite with hst
              exact absurd hst hdone
            · rename_i heq
              cases heq
            · rename_i heq
              cases heq
            · rfl
          refine calm_ask hplain rested_stable hs'.1 ?_
          intro s _ _ s' _ _ hs' _ _
          refine calm_act rfl rested_stable hs' ?_
          intro s hs
          rw [if_neg hdone]
          exact safe_ret rested_stable hs fun _ h => h

theorem cancel_end_safe {id actor message : String} (h : Ending svc t e s) (heid : e.id = id)
    (hid : row.id = e.id) (hkind : row.kind = e.kind) :
    Safe (machine svc permits) FinishRun (finishContract svc) t
      (do let row := (← Code.get id).getD row
          Service.log "jobs.cancel" row true
            (Service.orElse actor (Service.orElse row.user "system")) (some message)
          Service.callHook (svc.kinds row.kind) .onFinish row
          Code.act (.returned id)
          pure (some row)) (fun _ => Rested svc t) s := by
  refine calm_ask rfl (ending_stable e) h ?_
  intro s a last s' _ hs _ _ hexec
  cases hexec
  obtain ⟨howes, hkind'⟩ := hs.owes hid hkind
  rw [heid] at howes hkind'
  refine calm_act rfl (owes_stable e _) howes ?_
  intro s hs
  refine safe_bind ((hs.finish_safe hkind').mono ?_)
  intro _ s hs
  exact calm_safe ⟨rfl, fun _ => trivial⟩ rested_stable hs

theorem cancel_safe {id actor message : String} (h : Rested svc t s) :
    Safe (machine svc permits) FinishRun (finishContract svc) t (svc.cancel id actor message)
      (fun _ => Rested svc t) s := by
  refine calm_ask rfl rested_stable h ?_
  intro s _ now s' _ _ hs' _ _
  refine safe_call rested_stable hs' ?_
  intro s a found s' hinv hs hexec hallow
  simp only [machine, exec] at hexec
  split at hexec
  · cases hexec
    have hcalm : Calm s s := ⟨hallow.2.keeps, hallow.2.after, [], by simp, by simp⟩
    exact ⟨hinv, hcalm.guar t, safe_ret rested_stable hs fun _ h => h⟩
  · rename_i row hrow
    cases hexec
    obtain ⟨hget, hlive⟩ := Ledger.matching_eq_some.mp hrow
    have hid := (hinv.ledger.1 id row hget).1
    have hterm : row.status.terminal = false := by
      have := hlive LIVE rfl
      revert this
      cases row.status <;> simp [LIVE, Status.terminal]
    have hcancelled : (cancelledRow now message row).status.terminal = true := rfl
    obtain ⟨hinv', hguar, hending⟩ := hs.ends (e := cancelledRow now message row)
      hallow.2.keeps hallow.2.after (by simpa [cancelledRow, hid] using hget) hterm rfl
      (by rw [Sys.write_rows, Dict.get?_set]; exact if_pos rfl)
      (by rw [Sys.write_log, if_pos (by simp [hterm, hcancelled])]; rfl)
    refine ⟨hinv', hguar, ?_⟩
    dsimp only [Code.ask, Prog.perform, Prog.bind_eq, Prog.ret_bind]
    split
    · refine plain_seq (Service.signal_plain id) (ending_stable _) hending ?_
      intro _ s hs
      refine plain_seq (Service.on_cancel_plain _ _) (ending_stable _) hs ?_
      intro _ s hs
      exact cancel_end_safe hs hid rfl rfl
    · exact cancel_end_safe hending hid rfl rfl

theorem reap_safe (h : Rested svc t s) :
    Safe (machine svc permits) FinishRun (finishContract svc) t svc.reap
      (fun _ => Rested svc t) s := by
  refine calm_ask rfl rested_stable h ?_
  intro s _ done s' _ _ hs' _ _
  refine safe_for_each (J := fun _ => Rested svc t) rested_stable hs' ?_ fun _ h => h
  intro item rest s hs
  exact apply_safe hs

theorem timeouts_safe (h : Rested svc t s) :
    Safe (machine svc permits) FinishRun (finishContract svc) t (svc.timeouts now)
      (fun _ => Rested svc t) s := by
  refine calm_ask rfl rested_stable h ?_
  intro s _ rows s' hinv hs _ _ hexec
  cases hexec
  have hknows : ∀ row ∈ s.rows.running, Knows row s := by
    intro row hrow
    obtain ⟨id, hget, -⟩ := Ledger.get_of_mem_running hrow
    exact (knows_of_get hinv.ledger hget).2
  have hkept : ∀ rest : List Row, (finishContract svc).Kept fun s => ∀ row ∈ rest, Knows row s :=
    fun rest u s s' hinv hinv' hguar h row hrow =>
      knows_kept row u s s' hinv hinv' hguar (h row hrow)
  refine safe_for_each (J := fun rest s => Rested svc t s ∧ ∀ row ∈ rest, Knows row s)
    (rested_stable.and ((hkept []).stable t)) ⟨hs, hknows⟩ ?_ fun _ h => h.1
  intro row rest s hs
  refine Safe.frame ?_ (hkept rest) fun r hr => hs.2 r (List.mem_cons_of_mem _ hr)
  have hstart : Rested svc t s ∧ Knows row s := ⟨hs.1, hs.2 row (List.mem_cons_self ..)⟩
  have hknown : (finishContract svc).Kept (Knows row) := knows_kept row
  have hstable := rested_stable.and (hknown.stable t)
  unfold Service.timeoutRow
  split
  · exact safe_ret rested_stable hs.1 fun _ h => h
  · split
    · exact safe_ret rested_stable hs.1 fun _ h => h
    · refine plain_seq (Service.signal_plain _) hstable hstart ?_
      intro _ s hs
      refine plain_seq (Service.on_cancel_plain _ _) hstable hs ?_
      intro _ s hs
      exact resolve_failed_safe hs.1 hs.2

theorem launch_safe (h : Rested svc t s) :
    Safe (machine svc permits) FinishRun (finishContract svc) t (svc.launch row)
      (fun _ => Rested svc t) s := by
  unfold Service.launch
  split
  · exact apply_safe h
  · rename_i k hk
    refine calm_ask rfl rested_stable h ?_
    intro s _ ref s' _ _ hs' _ _
    split
    · refine calm_act rfl rested_stable hs' ?_
      intro s hs
      refine plain_seq (Service.run_plain k row ref) rested_stable hs ?_
      intro _ s hs
      refine calm_act rfl rested_stable hs ?_
      intro s hs
      exact apply_safe hs
    · refine calm_safe ⟨rfl, fun _ => ?_⟩ rested_stable hs'
      exact ⟨rfl, fun _ => trivial⟩

theorem start_loop_safe {limit : Int} {due : List Row} {held : List String} {count : Int}
    {started : Nat} (h : Rested svc t s) :
    Safe (machine svc permits) FinishRun (finishContract svc) t
      (svc.startLoop now limit due held count started) (fun _ => Rested svc t) s := by
  induction due generalizing held count started s with
  | nil => exact safe_ret rested_stable h fun _ h => h
  | cons row rest ih =>
      unfold Service.startLoop
      split
      · rename_i clash hclash
        split
        · refine calm_ask rfl rested_stable h ?_
          intro s _ _ s' _ _ hs' _ _
          exact ih hs'
        · exact ih h
      · split
        · exact safe_ret rested_stable h fun _ h => h
        · refine calm_ask rfl rested_stable h ?_
          intro s _ ok s' _ _ hs' _ _
          split
          · refine calm_ask rfl rested_stable hs' ?_
            intro s _ found s' _ _ hs' _ _
            refine safe_bind ((launch_safe hs').mono ?_)
            intro _ s hs
            refine calm_ask rfl rested_stable hs ?_
            intro s _ after s' _ _ hs' _ _
            split
            · split
              · exact ih hs'
              · exact ih hs'
            · exact ih hs'
          · exact ih hs'

theorem start_due_safe (h : Rested svc t s) :
    Safe (machine svc permits) FinishRun (finishContract svc) t (svc.startDue now)
      (fun _ => Rested svc t) s := by
  refine calm_ask rfl rested_stable h ?_
  intro s _ running s' _ _ hs' _ _
  refine calm_ask rfl rested_stable hs' ?_
  intro s _ ids s' _ _ hs' _ _
  refine plain_seq (Service.worker_rows_plain _ _) rested_stable hs' ?_
  intro live s hs
  refine calm_ask rfl rested_stable hs ?_
  intro s _ workers s' _ _ hs' _ _
  refine calm_ask rfl rested_stable hs' ?_
  intro s _ due s' _ _ hs' _ _
  exact start_loop_safe hs'

theorem tick_safe (h : Rested svc t s) :
    Safe (machine svc permits) FinishRun (finishContract svc) t svc.tick
      (fun _ => Rested svc t) s := by
  refine calm_ask rfl rested_stable h ?_
  intro s _ now s' _ _ hs' _ _
  refine safe_bind ((reap_safe hs').mono ?_)
  intro _ s hs
  refine safe_bind ((timeouts_safe hs).mono ?_)
  intro _ s hs
  refine plain_seq (Service.leases_plain now) rested_stable hs ?_
  intro _ s hs
  refine safe_bind ((start_due_safe hs).mono ?_)
  intro _ s hs
  refine calm_safe (Code.all_ask rfl fun sweeps => ?_) rested_stable hs
  split
  · exact Code.all_ask rfl fun days => ⟨rfl, fun _ => trivial⟩
  · trivial

/-- Whatever a thread may call keeps the promise about endings. -/
theorem finish_start_safe {call : Call} {p : Code W Unit} (hpermits : permits .recover = false)
    (h : Rested svc t s) (hp : (machine svc permits).start t call s = some p) :
    Safe (machine svc permits) FinishRun (finishContract svc) t p (fun _ => Rested svc t) s := by
  simp only [machine, start] at hp
  split at hp
  · cases hp
  · rename_i hcall
    split at hp
    · cases hp
      exact tick_safe h
    · simp [hpermits] at hcall
    · cases hp
      exact plain_rested (Code.all_seq (Service.submit_plain _) fun _ => trivial) h
    · cases hp
      refine safe_bind ((cancel_safe h).mono ?_)
      intro _ s hs
      exact safe_ret rested_stable hs fun _ h => h
    · cases hp
      exact plain_rested (Code.all_seq (Service.ack_plain _ _) fun _ => trivial) h
    · cases hp
      exact plain_rested ⟨⟨⟨⟨trivial, rfl⟩, rfl⟩, rfl⟩, fun _ => trivial⟩ h
    · cases hp
      exact plain_rested ⟨⟨⟨⟨trivial, rfl⟩, rfl⟩, rfl⟩, fun _ => trivial⟩ h
    · split at hp
      · rename_i row hrow
        rw [Option.map_eq_some_iff] at hp
        obtain ⟨k, -, rfl⟩ := hp
        refine calm_act rfl rested_stable h ?_
        intro s hs
        refine plain_seq (Service.run_plain k row _) rested_stable hs ?_
        intro _ s hs
        exact calm_safe ⟨rfl, fun _ => trivial⟩ rested_stable hs
      · cases hp
    · cases hp

end Endings

/-- Every job of the ledger that is over was over from the start, or an event says who ended
it. -/
def Noted (rows : Ledger) (s : Sys W) : Prop :=
  ∀ id r, s.rows.get? id = some r → r.status.terminal = true →
    (∃ r₀, rows.get? id = some r₀ ∧ r₀.status.terminal = true) ∨
      ∃ t row, (t, Event.ended row) ∈ s.log ∧ row.id = id

theorem noted_exec {rows : Ledger} {op : Op W} {a : Ans W op} {r : Res W op} (h : Noted rows s)
    (hlawful : Lawful op s s') (hexec : exec t op a s = some (r, s')) : Noted rows s' := by
  obtain ⟨new, hlog, -⟩ := log_step hexec
  have hmono : ∀ x ∈ s.log, x ∈ s'.log := by
    intro x hx
    rw [hlog]
    exact List.mem_append_left _ hx
  have hold : ∀ id q, s.rows.get? id = some q → q.status.terminal = true →
      (∃ r₀, rows.get? id = some r₀ ∧ r₀.status.terminal = true) ∨
        ∃ t row, (t, Event.ended row) ∈ s'.log ∧ row.id = id := by
    intro id q hq hterm
    rcases h id q hq hterm with hold | ⟨u, row, hmem, hrow⟩
    · exact .inl hold
    · exact .inr ⟨u, row, hmono _ hmem, hrow⟩
  intro id q hq hterm
  cases rows_step hexec with
  | same hrows => exact hold id q (by rwa [hrows] at hq) hterm
  | write other old new hget hrows hended =>
      rw [hrows, Dict.get?_set] at hq
      split at hq
      · rename_i heq
        cases hq
        by_cases hlive : old.status.terminal = true
        · refine hold id old ?_ hlive
          rw [heq, (hlawful.before.1 other old hget).1]
          exact hget
        · rw [Bool.not_eq_true] at hlive
          exact .inr ⟨t, _, hended hlive hterm, heq.symm⟩
      · exact hold id q hq hterm
  | insert row other hop hother hrows =>
      subst hop
      obtain ⟨k, sub, spec, now, rfl⟩ := hlawful.issued
      rw [hrows, Dict.get?_set] at hq
      split at hq
      · cases hq
        cases hterm
      · exact hold id q hq hterm
  | sweep cutoff hop hrows =>
      rw [hrows, Ledger.sweep, Dict.get?_filter, Option.filter_eq_some_iff] at hq
      exact hold id q hq.1 hterm

/-- Every job that has ended is finished once. -/
structure FinishedOnce (svc : Service W) (rows : Ledger)
    (c : Config Tid (Op W) (Res W) (Sys W)) : Prop where
  /-- No job is finished twice. -/
  once : ∀ id, (finishesOf id c.state.log).length ≤ 1
  /-- A job that is over, and was not over from the start, was ended by some thread. -/
  noted : ∀ id r, c.state.rows.get? id = some r → r.status.terminal = true →
    (∀ r₀, rows.get? id = some r₀ → r₀.status.terminal = false) →
    ∃ t row, (t, Event.ended row) ∈ c.state.log ∧ row.id = id ∧ row.status = r.status ∧
      row.kind = r.kind
  /-- Once that thread is idle again, the job is finished, where the kind has the hook. -/
  finished : ∀ t row, (t, Event.ended row) ∈ c.state.log → c.threads t = none →
    svc.finishes row.kind → (finishesOf row.id c.state.log).length = 1
  /-- The row that the hook gets carries the terminal status that the ledger holds, unless the
  row has been swept. -/
  status : ∀ t row st, (t, Event.hooked .onFinish row st) ∈ c.state.log →
    (∃ row', (t, Event.ended row') ∈ c.state.log ∧ row'.id = row.id) ∧
    (st = none ∨ st = some row.status ∧ row.status.terminal = true)

/-- In every run in which the write of a done outcome finds its row running, every job that
ends is finished once, with the row that the ledger holds. -/
theorem finished_once {svc : Service W} {permits : Call → Bool} {rows : Ledger}
    {c : Config Tid (Op W) (Res W) (Sys W)} (hrows : rows.Consistent)
    (hpermits : permits .recover = false)
    (h : Reachable (machine svc permits) DoneLive (Sys.boot rows) c) :
    FinishedOnce svc rows c := by
  have hrun := lawful_run hrows hpermits h
  have hinit : FinishInv (Sys.boot rows : Sys W) := by
    refine ⟨ledger_boot hrows, ?_, ?_, ?_, ?_⟩
    · exact fun id => Nat.zero_le 1
    · exact fun t row hrow => nomatch hrow
    · exact fun t row st hrow => nomatch hrow
    · exact fun id => Nat.zero_le 1
  have hidle : ∀ t, (finishContract svc).Stable t ((finishContract svc).idle t) :=
    fun t u hu s s' hinv hinv' hguar hs =>
      (rested_stable u hu s s' hinv hinv' hguar ⟨hinv, hs⟩).idle
  have hholds := (finishContract svc).sound hinit (fun t row hrow => nomatch hrow) hidle
    (fun t call s p hinv hs hp =>
      (finish_start_safe hpermits ⟨hinv, hs⟩ hp).mono fun _ _ hrest => hrest.idle) hrun
  have hinv : FinishInv c.state := hholds.inv
  have hnoted : Noted rows c.state := by
    refine hrun.invariant ?_ fun t op a r s s' hs hexec hallow => noted_exec hs hallow.2 hexec
    exact fun id r hr hterm => .inl ⟨r, hr, hterm⟩
  refine ⟨hinv.once, ?_, ?_, hinv.owned⟩
  · intro id r hr hterm hfresh
    rcases hnoted id r hr hterm with ⟨r₀, hr₀, hterm₀⟩ | ⟨t, row, hmem, rfl⟩
    · rw [hfresh r₀ hr₀] at hterm₀
      cases hterm₀
    · obtain ⟨-, -, hover⟩ := hinv.ended t row hmem
      obtain ⟨hst, hkind⟩ := hover r hr
      exact ⟨t, row, hmem, rfl, hst.symm, hkind.symm⟩
  · intro t row hmem hthread hkind
    have hsome := hholds.idle t hthread row hmem hkind
    have hle := hinv.once row.id
    have hpos := List.length_pos_iff.mpr hsome
    omega

/-- A kind whose runs end at once and which has an `on_finish` hook. -/
def tally : Kind noWorld :=
  { echo with
    onFinish := some fun _ => .ret ()
    on_finish_ops := by
      rintro f ⟨⟩ row
      trivial }

/-- A service with that kind only. -/
def tallyService : Service noWorld where
  kinds := fun name => if name = "echo" then some tally else none
  inline := false

/-- A tick launches the job, its handler runs, and the next tick has read the row and is about
to apply the outcome. -/
def ranOnce : List (Choice Tid (Ans noWorld) Call) :=
  .start .dispatcher .tick :: steps .dispatcher 15 ++ .finish .dispatcher ::
    .start (.worker 0) .work :: steps (.worker 0) 2 ++ .finish (.worker 0) ::
      .start .dispatcher .tick :: steps .dispatcher 4

/-- The job is cancelled while its outcome is applied: `cancel` finishes it, and `_apply`, whose
write is refused, finishes it again. -/
theorem finished_twice :
    oneQueued.Consistent ∧
    ∃ c, Reachable (machine tallyService noRecover) (fun _ _ _ _ => True)
        (Sys.boot oneQueued) c ∧
      c.state.status "j" = some .cancelled ∧ (finishesOf "j" c.state.log).length = 2 := by
  refine ⟨one_queued_consistent, ?_⟩
  have hrun : ((Config.idle (Sys.boot oneQueued)).plays (machine tallyService noRecover)
      (fun _ _ _ _ => True) (ranOnce ++
        .start (.request 0) (.cancel "j" "" CANCELLED) :: steps (.request 0) 8 ++
          .finish (.request 0) :: steps .dispatcher 4)).bind (fun c =>
            (c.state.status "j").map fun st => (st, (finishesOf "j" c.state.log).length)) =
      some (.cancelled, 2) := by decide +kernel
  obtain ⟨c, hc, hlog⟩ := exists_run_of_plays hrun
  rw [Option.map_eq_some_iff] at hlog
  obtain ⟨st, hst, heq⟩ := hlog
  obtain ⟨rfl, hlen⟩ : st = .cancelled ∧ (finishesOf "j" c.state.log).length = 2 := by
    simpa using heq
  exact ⟨c, hc, hst, hlen⟩

/-- Cancelled after its outcome was applied, the job stays done and was finished once. -/
theorem finished_before_cancel :
    oneQueued.Consistent ∧ noRecover .recover = false ∧
    ∃ c, Reachable (machine tallyService noRecover) DoneLive (Sys.boot oneQueued) c ∧
      c.state.status "j" = some .done ∧ finishesOf "j" c.state.log ≠ [] ∧
      FinishedOnce tallyService oneQueued c := by
  refine ⟨one_queued_consistent, rfl, ?_⟩
  have hrun : ((Config.idle (Sys.boot oneQueued)).plays (machine tallyService noRecover)
      DoneLive (ranOnce ++ steps .dispatcher 4 ++
        .start (.request 0) (.cancel "j" "" CANCELLED) :: steps (.request 0) 2)).bind (fun c =>
            (c.state.status "j").map fun st => (st, (finishesOf "j" c.state.log).isEmpty)) =
      some (.done, false) := by decide +kernel
  obtain ⟨c, hc, hlog⟩ := exists_run_of_plays hrun
  rw [Option.map_eq_some_iff] at hlog
  obtain ⟨st, hst, heq⟩ := hlog
  obtain ⟨rfl, hsome⟩ : st = .done ∧ (finishesOf "j" c.state.log).isEmpty = false := by
    simpa using heq
  refine ⟨c, hc, hst, ?_, finished_once one_queued_consistent rfl hc⟩
  intro hnil
  rw [hnil] at hsome
  cases hsome

end SystemsManager.Jobs
