import SystemsManager.Concurrency.RelyGuarantee
import SystemsManager.Jobs.Issued

/-!
# The invariant of the ledger

`Row.Consistent` ties the columns of a row to its status. Every `UPDATE` of the service keeps
it and leaves a terminal status alone, because its guard and the columns it sets fit together
(`KeepsRow`); only the write with which `recover` puts a row back into the queue has no guard.
`ledger_consistent` proves the invariant of every run in which that write finds its row live,
and `requeued_after_cancel` is a run in which it does not.
-/

namespace SystemsManager.Jobs

open Python Concurrency Relation

/-- The columns of a row fit its status. -/
structure Row.Consistent (r : Row) : Prop where
  resolved : r.resolved.isSome = true ↔ r.status.terminal = true
  lease : r.lease.isSome = true → r.status = .running
  nextRun : r.nextRun = none ↔ r.status.terminal = true
  acked : r.ackedAt.isSome = true → r.status = .failed

/-- Every row of the ledger is consistent and stored under its id. -/
def Ledger.Consistent (rows : Ledger) : Prop :=
  ∀ id r, rows.get? id = some r → r.id = id ∧ r.Consistent

variable {W : World}

/-- A write with which `recover` requeues a row finds the row live. -/
def requeuesLive (op : Op W) (s : Sys W) : Bool :=
  match op with
  | .update .requeue id _ _ => (s.status id).all fun st => !st.terminal
  | _ => true

/-- No write of `recover` puts a terminal row back into the queue. -/
abbrev RequeuesLive : Condition Tid (Op W) (Sys W) := fun _ op s _ => requeuesLive op s = true

variable {row : Row}

theorem Ledger.get_of_mem_running {rows : Ledger} (h : row ∈ rows.running) :
    ∃ id, rows.get? id = some row ∧ row.status = .running := by
  simp only [Ledger.running, mem_sorted_by, Ledger.values, List.mem_filter, List.mem_map,
    beq_iff_eq] at h
  obtain ⟨⟨⟨id, r⟩, hmem, rfl⟩, hst⟩ := h
  exact ⟨id, Dict.mem_items_iff.mp hmem, hst⟩

/-- The columns that a job keeps for life. -/
structure SameJob (r r' : Row) : Prop where
  id : r'.id = r.id
  kind : r'.kind = r.kind
  spec : r'.spec = r.spec
  exclusive : r'.exclusive = r.exclusive
  created : r'.created = r.created

/-- What a step may do to the ledger: ids are not issued twice, what was swept does not come
back, a job stays the job it is, and a terminal status stays. -/
structure Keeps (s s' : Sys W) : Prop where
  ids : ∀ id ∈ s.ids, id ∈ s'.ids
  absent : ∀ id ∈ s.ids, s.rows.get? id = none → s'.rows.get? id = none
  job : ∀ id r r', s.rows.get? id = some r → s'.rows.get? id = some r' → SameJob r r'
  terminal : ∀ id r r', s.rows.get? id = some r → r.status.terminal = true →
    s'.rows.get? id = some r' → r'.status = r.status

theorem SameJob.refl (r : Row) : SameJob r r := ⟨rfl, rfl, rfl, rfl, rfl⟩

theorem SameJob.trans {r r' r'' : Row} (h : SameJob r r') (h' : SameJob r' r'') : SameJob r r'' :=
  ⟨h'.id.trans h.id, h'.kind.trans h.kind, h'.spec.trans h.spec, h'.exclusive.trans h.exclusive,
    h'.created.trans h.created⟩

/-- The row is one of a job that is or was in the ledger. -/
def Knows (row : Row) (s : Sys W) : Prop :=
  row.id ∈ s.ids ∧ ∀ r, s.rows.get? row.id = some r → SameJob row r

variable {s : Sys W}

theorem Knows.same {row row' : Row} (h : Knows row s) (hjob : SameJob row' row) : Knows row' s := by
  refine ⟨hjob.id ▸ h.1, ?_⟩
  intro r hr
  exact hjob.trans (h.2 r (hjob.id ▸ hr))

theorem Keeps.knows {s s' : Sys W} (h : Keeps s s') (hrow : Knows row s) : Knows row s' := by
  refine ⟨h.ids _ hrow.1, ?_⟩
  intro r' hr'
  cases hr : s.rows.get? row.id with
  | none =>
      rw [h.absent _ hrow.1 hr] at hr'
      cases hr'
  | some r => exact (hrow.2 r hr).trans (h.job _ r r' hr hr')

/-- The write turns a consistent row that it matches into a consistent row, and leaves a
terminal status alone. -/
def KeepsRow (only : Option (List Status)) (set : Row → Row) : Prop :=
  ∀ r : Row, (∀ sts ∈ only, r.status ∈ sts) → r.Consistent →
    (set r).Consistent ∧ (r.status.terminal = true → (set r).status = r.status)

/-- The promise of every thread about the ledger. -/
def ledgerContract : Contract Tid (Sys W) where
  inv s := s.rows.Consistent ∧ ∀ id r, s.rows.get? id = some r → id ∈ s.ids
  guar _ s s' := Keeps s s'
  idle _ _ := True

variable {id : String}

theorem knows_of_get (h : ledgerContract.inv s) (hrow : s.rows.get? id = some row) :
    row.id = id ∧ Knows row s := by
  have hid := (h.1 id row hrow).1
  refine ⟨hid, ?_, ?_⟩
  · rw [hid]
    exact h.2 id row hrow
  · intro r hr
    rw [hid, hrow] at hr
    cases hr
    exact SameJob.refl row

variable {t : Tid}

theorem ledger_same {s s' : Sys W} (hinv : ledgerContract.inv s) (hrows : s'.rows = s.rows)
    (hids : s'.ids = s.ids) : ledgerContract.inv s' ∧ ledgerContract.guar t s s' := by
  refine ⟨⟨hrows ▸ hinv.1, ?_⟩, ?_, ?_, ?_, ?_⟩
  · rw [hrows, hids]
    exact hinv.2
  · rw [hids]
    exact fun id hid => hid
  · rw [hrows]
    exact fun id _ h => h
  · intro id r r' hr hr'
    rw [hrows, hr] at hr'
    cases hr'
    exact SameJob.refl r
  · intro id r r' hr _ hr'
    rw [hrows, hr] at hr'
    cases hr'
    rfl

theorem ledger_write {r r' : Row} (hinv : ledgerContract.inv s) (hr : s.rows.get? id = some r)
    (hcons : r'.Consistent) (hjob : SameJob r r')
    (hterm : r.status.terminal = true → r'.status = r.status) :
    ledgerContract.inv (s.write t r r') ∧ ledgerContract.guar t s (s.write t r r') := by
  obtain ⟨hid, -⟩ := hinv.1 id r hr
  have hcons' : Row.Consistent { r' with id := r.id } :=
    ⟨hcons.resolved, hcons.lease, hcons.nextRun, hcons.acked⟩
  have hget : ∀ other, (s.write t r r').rows.get? other =
      if other = id then some { r' with id := r.id } else s.rows.get? other := by
    intro other
    rw [Sys.write_rows, Dict.get?_set, hid]
  refine ⟨⟨?_, ?_⟩, ?_, ?_, ?_, ?_⟩
  · intro other q hq
    rw [hget] at hq
    split at hq
    · rename_i heq
      cases hq
      exact ⟨hid.trans heq.symm, hcons'⟩
    · exact hinv.1 other q hq
  · intro other q hq
    rw [Sys.write_ids]
    rw [hget] at hq
    split at hq
    · rename_i heq
      rw [heq]
      exact hinv.2 id r hr
    · exact hinv.2 other q hq
  · rw [Sys.write_ids]
    exact fun other hother => hother
  · intro other _ hnone
    rw [hget, if_neg]
    · exact hnone
    · rintro rfl
      rw [hr] at hnone
      cases hnone
  · intro other q q' hq hq'
    rw [hget] at hq'
    split at hq'
    · rename_i heq
      rw [heq, hr] at hq
      cases hq
      cases hq'
      exact ⟨rfl, hjob.kind, hjob.spec, hjob.exclusive, hjob.created⟩
    · rw [hq] at hq'
      cases hq'
      exact SameJob.refl q
  · intro other q q' hq hqt hq'
    rw [hget] at hq'
    split at hq'
    · rename_i heq
      rw [heq, hr] at hq
      cases hq
      cases hq'
      exact hterm hqt
    · rw [hq] at hq'
      cases hq'
      rfl

theorem ledger_sweep {cutoff : ℚ} (hinv : ledgerContract.inv s) :
    ledgerContract.inv { s with rows := s.rows.sweep cutoff } ∧
      ledgerContract.guar t s { s with rows := s.rows.sweep cutoff } := by
  have hold : ∀ id r, (s.rows.sweep cutoff).get? id = some r → s.rows.get? id = some r := by
    intro id r hr
    unfold Ledger.sweep at hr
    rw [Dict.get?_filter, Option.filter_eq_some_iff] at hr
    exact hr.1
  refine ⟨⟨?_, ?_⟩, fun id hid => hid, ?_, ?_, ?_⟩
  · exact fun id r hr => hinv.1 id r (hold id r hr)
  · exact fun id r hr => hinv.2 id r (hold id r hr)
  · intro id _ hnone
    rw [← Option.not_isSome_iff_eq_none]
    intro hsome
    obtain ⟨r, hr⟩ := Option.isSome_iff_exists.mp hsome
    rw [hold id r hr] at hnone
    cases hnone
  · intro id r r' hr hr'
    rw [hold id r' hr'] at hr
    cases hr
    exact SameJob.refl r
  · intro id r r' hr _ hr'
    rw [hold id r' hr'] at hr
    cases hr
    rfl

theorem ledger_insert {e : Event W} (hinv : ledgerContract.inv s) (hid : id ∉ s.ids)
    (hrow : row.Consistent) :
    ledgerContract.inv ({ s with
        rows := s.rows.set id { row with id := id }, ids := id :: s.ids }.note t e) ∧
      ledgerContract.guar t s ({ s with
        rows := s.rows.set id { row with id := id }, ids := id :: s.ids }.note t e) := by
  have hnone : s.rows.get? id = none := by
    rw [← Option.not_isSome_iff_eq_none]
    intro hsome
    obtain ⟨r, hr⟩ := Option.isSome_iff_exists.mp hsome
    exact hid (hinv.2 id r hr)
  refine ⟨⟨?_, ?_⟩, fun other hother => List.mem_cons_of_mem _ hother, ?_, ?_, ?_⟩
  · intro other q hq
    simp only [Sys.note, Dict.get?_set] at hq
    split at hq
    · rename_i heq
      cases hq
      exact ⟨heq.symm, hrow.resolved, hrow.lease, hrow.nextRun, hrow.acked⟩
    · exact hinv.1 other q hq
  · intro other q hq
    simp only [Sys.note, Dict.get?_set] at hq ⊢
    split at hq
    · rename_i heq
      rw [heq]
      exact List.mem_cons_self ..
    · exact List.mem_cons_of_mem _ (hinv.2 other q hq)
  · intro other hother hnone'
    simp only [Sys.note, Dict.get?_set]
    rw [if_neg]
    · exact hnone'
    · rintro rfl
      exact hid hother
  · intro other q q' hq hq'
    simp only [Sys.note, Dict.get?_set] at hq'
    split at hq'
    · rename_i heq
      rw [heq, hnone] at hq
      cases hq
    · rw [hq] at hq'
      cases hq'
      exact SameJob.refl q
  · intro other q q' hq _ hq'
    simp only [Sys.note, Dict.get?_set] at hq'
    split at hq'
    · rename_i heq
      rw [heq, hnone] at hq
      cases hq
    · rw [hq] at hq'
      cases hq'
      rfl

theorem cancelled_row_keeps (now : ℚ) (message : String) :
    KeepsRow (some LIVE) (cancelledRow now message) := by
  intro r hst hcons
  have hlive := hst LIVE rfl
  refine ⟨⟨by simp [cancelledRow, Status.terminal], by simp [cancelledRow],
    by simp [cancelledRow, Status.terminal], ?_⟩, ?_⟩
  · intro hack
    rw [hcons.acked hack] at hlive
    simp [LIVE] at hlive
  · intro hterm
    revert hlive hterm
    cases r.status <;> simp [LIVE, Status.terminal]

variable {only : Option (List Status)} {set : Row → Row}

theorem keeps_row_of_same (h : ∀ r, (set r).status = r.status ∧ (set r).resolved = r.resolved ∧
      (set r).lease = r.lease ∧ (set r).nextRun = r.nextRun ∧ (set r).ackedAt = r.ackedAt) :
    KeepsRow only set := by
  intro r _ hcons
  obtain ⟨hst, hres, hlease, hnext, hack⟩ := h r
  refine ⟨⟨?_, ?_, ?_, ?_⟩, fun _ => hst⟩
  · rw [hres, hst]
    exact hcons.resolved
  · rw [hlease, hst]
    exact hcons.lease
  · rw [hnext, hst]
    exact hcons.nextRun
  · rw [hack, hst]
    exact hcons.acked

theorem acked_row_keeps (now : ℚ) :
    KeepsRow (some [.failed]) fun r => { r with ackedAt := some now } := by
  intro r hst hcons
  have hfailed : r.status = .failed := by simpa using hst [.failed] rfl
  exact ⟨⟨hcons.resolved, hcons.lease, hcons.nextRun, fun _ => hfailed⟩, fun _ => rfl⟩

theorem KeepsRow.write {r : Row} (h : KeepsRow only set) (hinv : ledgerContract.inv s)
    (hjob : SameJob r (set r)) (hr : s.rows.matching id only = some r) :
    ledgerContract.inv (s.write t r (set r)) ∧
      ledgerContract.guar t s (s.write t r (set r)) := by
  rw [Ledger.matching_eq_some] at hr
  obtain ⟨hcons, hterm⟩ := h r hr.2 (hinv.1 id r hr.1).2
  exact ledger_write hinv hr.1 hcons hjob hterm

theorem requeued_row_consistent {r : Row} (now : ℚ) (h : r.Consistent)
    (hlive : r.status.terminal = false) : (requeuedRow now r).Consistent := by
  refine ⟨?_, by simp [requeuedRow], by simp [requeuedRow, Status.terminal], ?_⟩
  · have hres := h.resolved
    rw [hlive] at hres
    simpa [requeuedRow, Status.terminal] using hres
  · intro hack
    rw [h.acked hack] at hlive
    cases hlive

theorem claimed_row_keeps (now : ℚ) : KeepsRow (some [.queued]) (claimedRow now) := by
  intro r hst hcons
  have hqueued : r.status = .queued := by simpa using hst [.queued] rfl
  refine ⟨⟨?_, fun _ => rfl, ?_, ?_⟩, ?_⟩
  · simpa [claimedRow, hqueued, Status.terminal] using hcons.resolved
  · simpa [claimedRow, hqueued, Status.terminal] using hcons.nextRun
  · intro hack
    have := hcons.acked hack
    rw [hqueued] at this
    cases this
  · intro hterm
    rw [hqueued] at hterm
    cases hterm

/-- A failed row is resolved. -/
theorem failed_row_keeps (row : Row) (message : String) (now : ℚ) (attempts : Option Nat) :
    KeepsRow (some [.running]) (failedRow row message now attempts) := by
  intro r hst _
  have hrunning : r.status = .running := by simpa using hst [.running] rfl
  refine ⟨⟨by simp [failedRow, Status.terminal], by simp [failedRow],
    by simp [failedRow, Status.terminal], fun _ => rfl⟩, ?_⟩
  intro hterm
  rw [hrunning] at hterm
  cases hterm

theorem outcome_row_status {o : Outcome} {now : ℚ} {r : Row} (h : o.leadsTo row ≠ .failed) :
    (outcomeRow row o now r).status = o.leadsTo row := by
  unfold outcomeRow Outcome.leadsTo at *
  cases hv : o.verb with
  | ok =>
      by_cases hrep : row.repeats = true
      · simp [hrep]
      · simp [hrep]
  | again => rfl
  | finish => rfl
  | fail =>
      rw [hv] at h
      by_cases hretry : o.retryIn.isSome = true
      · simp [hretry]
      · simp [hretry] at h

theorem outcome_row_keeps (row : Row) (o : Outcome) (now : ℚ) :
    KeepsRow (some [.running]) (outcomeRow row o now) := by
  intro r hst hcons
  have hrunning : r.status = .running := by simpa using hst [.running] rfl
  have hres : r.resolved = none := by
    have := hcons.resolved
    rw [hrunning] at this
    simpa [Status.terminal] using this
  have hack : r.ackedAt = none := by
    by_contra hne
    have := hcons.acked (Option.isSome_iff_ne_none.mpr hne)
    rw [hrunning] at this
    cases this
  refine ⟨?_, ?_⟩
  · unfold outcomeRow
    cases o.verb with
    | ok =>
        by_cases hrep : row.repeats = true
        · simp only [hrep, if_true]
          exact ⟨by simp [hres, Status.terminal], by simp, by simp [Status.terminal],
            by simp [hack]⟩
        · simp only [hrep]
          exact ⟨by simp [Status.terminal], by simp, by simp [Status.terminal], by simp [hack]⟩
    | again =>
        exact ⟨by simp [hres, Status.terminal], by simp, by simp [Status.terminal], by simp [hack]⟩
    | finish =>
        exact ⟨by simp [Status.terminal], by simp, by simp [Status.terminal], by simp [hack]⟩
    | fail =>
        exact ⟨by simp [hres, Status.terminal], by simp, by simp [Status.terminal], by simp [hack]⟩
  · intro hterm
    rw [hrunning] at hterm
    cases hterm

theorem leased_row_keeps (now : ℚ) :
    KeepsRow (some [.running]) fun r => { r with lease := some (now + LEASE_S) } := by
  intro r hst hcons
  have hrunning : r.status = .running := by simpa using hst [.running] rfl
  exact ⟨⟨hcons.resolved, fun _ => hrunning, hcons.nextRun, hcons.acked⟩, fun _ => rfl⟩

theorem UpdateShape.keeps_row {site : Write} (h : UpdateShape site only set) :
    KeepsRow only set := by
  cases h with
  | claim now => exact claimed_row_keeps now
  | waiting message => exact keeps_row_of_same fun r => ⟨rfl, rfl, rfl, rfl, rfl⟩
  | outcome row o now hleads => exact outcome_row_keeps row o now
  | failed row message now attempts => exact failed_row_keeps row message now attempts
  | lease now => exact leased_row_keeps now

theorem UpdateShape.same_job {site : Write} (h : UpdateShape site only set) (r : Row) :
    SameJob r (set r) := by
  cases h with
  | outcome row o now hleads =>
      unfold outcomeRow
      cases o.verb with
      | ok =>
          by_cases hrep : row.repeats = true
          · simp only [hrep, if_true]
            exact ⟨rfl, rfl, rfl, rfl, rfl⟩
          · simp only [hrep]
            exact ⟨rfl, rfl, rfl, rfl, rfl⟩
      | again => exact ⟨rfl, rfl, rfl, rfl, rfl⟩
      | finish => exact ⟨rfl, rfl, rfl, rfl, rfl⟩
      | fail => exact ⟨rfl, rfl, rfl, rfl, rfl⟩
  | _ => exact ⟨rfl, rfl, rfl, rfl, rfl⟩

/-- A submitted row is consistent. -/
theorem new_row_consistent (k : Kind W) (sub : Submission) (spec : Object) (now : ℚ) :
    (Service.newRow k sub spec now).Consistent :=
  ⟨by simp [Service.newRow, Status.terminal], by simp [Service.newRow],
    by simp [Service.newRow, Status.terminal], by simp [Service.newRow]⟩

theorem ledger_update {site : Write} {recovers : Bool} (hinv : ledgerContract.inv s)
    (h : (Op.update site id only set : Op W).Issued recovers)
    (hlive : site = .requeue → ∀ st ∈ s.status id, st.terminal = false) :
    ledgerContract.inv (s.update t site id only set).2 ∧
      ledgerContract.guar t s (s.update t site id only set).2 := by
  unfold Sys.update
  split
  · exact ledger_same hinv rfl rfl
  · rename_i r hr
    have hwrite : ledgerContract.inv (s.write t r (set r)) ∧
        ledgerContract.guar t s (s.write t r (set r)) := by
      rcases h with hshape | ⟨-, hsite, -, now, rfl⟩
      · exact hshape.keeps_row.write hinv (hshape.same_job r) hr
      · rw [Ledger.matching_eq_some] at hr
        have hnot : r.status.terminal = false := by
          refine hlive hsite r.status ?_
          simp [Sys.status, hr.1]
        refine ledger_write hinv hr.1
          (requeued_row_consistent now (hinv.1 id r hr.1).2 hnot) ⟨rfl, rfl, rfl, rfl, rfl⟩ ?_
        intro hterm
        rw [hnot] at hterm
        cases hterm
    dsimp only
    split
    · exact ⟨hwrite.1, hwrite.2.ids, hwrite.2.absent, hwrite.2.job, hwrite.2.terminal⟩
    · exact hwrite

/-- Every operation of the service keeps the promise. -/
theorem ledger_exec {s s' : Sys W} {op : Op W} {a : Ans W op} {r : Res W op} {recovers : Bool}
    (hop : op.Issued recovers) (hinv : ledgerContract.inv s) (hexec : exec t op a s = some (r, s'))
    (hallow : RequeuesLive t op s s') : ledgerContract.inv s' ∧ ledgerContract.guar t s s' := by
  cases op with
  | get site id =>
      cases site with
      | after =>
          cases hexec
          exact ledger_same hinv rfl rfl
      | other =>
          cases hexec
          exact ledger_same hinv rfl rfl
  | update site id only set =>
      simp only [exec, Option.some.injEq] at hexec
      have hs' : s' = (s.update t site id only set).2 := by rw [hexec]
      rw [hs']
      refine ledger_update hinv hop ?_
      rintro rfl st hst
      have hall : (s.status id).all (fun st => !st.terminal) = true := hallow
      rw [Option.all_eq_true] at hall
      simpa using hall st hst
  | insert row =>
      simp only [exec] at hexec
      split at hexec
      · cases hexec
      · rename_i hid
        cases hexec
        obtain ⟨k, sub, spec, now, rfl⟩ := hop
        exact ledger_insert hinv hid (new_row_consistent k sub spec now)
  | sweep cutoff =>
      cases hexec
      exact ledger_sweep hinv
  | sweepDue now =>
      simp only [exec] at hexec
      split at hexec
      · cases hexec
        exact ledger_same hinv rfl rfl
      · cases hexec
        exact ledger_same hinv rfl rfl
  | cancelRow id now message =>
      simp only [exec] at hexec
      split at hexec
      · cases hexec
        exact ledger_same hinv rfl rfl
      · rename_i row hrow
        cases hexec
        exact (cancelled_row_keeps now message).write hinv ⟨rfl, rfl, rfl, rfl, rfl⟩ hrow
  | ackRow id now =>
      simp only [exec] at hexec
      split at hexec
      · cases hexec
        exact ledger_same hinv rfl rfl
      · rename_i row hrow
        split at hexec
        · cases hexec
          exact ledger_same hinv rfl rfl
        · cases hexec
          exact (acked_row_keeps now).write hinv ⟨rfl, rfl, rfl, rfl, rfl⟩ hrow
  | setState id state =>
      simp only [exec] at hexec
      split at hexec
      · cases hexec
        exact ledger_same hinv rfl rfl
      · rename_i row hrow
        cases hexec
        have hkeeps : KeepsRow (some LIVE) fun r : Row => { r with state := state } :=
          keeps_row_of_same fun r => ⟨rfl, rfl, rfl, rfl, rfl⟩
        exact hkeeps.write hinv ⟨rfl, rfl, rfl, rfl, rfl⟩ hrow
  | annotate id message =>
      simp only [exec] at hexec
      split at hexec
      · cases hexec
        exact ledger_same hinv rfl rfl
      · rename_i row hrow
        cases hexec
        have hkeeps : KeepsRow (some [.cancelled, .failed, .done])
            fun r : Row => { r with message := message } :=
          keeps_row_of_same fun r => ⟨rfl, rfl, rfl, rfl, rfl⟩
        exact hkeeps.write hinv ⟨rfl, rfl, rfl, rfl, rfl⟩ hrow
  | startThread ref =>
      simp only [exec] at hexec
      split at hexec
      · cases hexec
        exact ledger_same hinv rfl rfl
      · cases hexec
  | never => cases hexec
  | _ =>
      cases hexec
      exact ledger_same hinv rfl rfl

theorem ledger_safe {svc : Service W} {permits : Call → Bool} {call : Call} {p : Code W Unit}
    (h : (machine svc permits).start t call s = some p) :
    Safe (machine svc permits) RequeuesLive ledgerContract t p (fun _ _ => True) s := by
  refine safe_of_all (start_issued h) (Contract.stable_const True) trivial ?_ fun _ _ _ => trivial
  intro op hop s a r s' hinv _ hexec hallow
  obtain ⟨hinv', hguar⟩ := ledger_exec hop hinv hexec hallow
  exact ⟨hinv', hguar, trivial⟩

theorem ledger_boot {rows : Ledger} (hrows : rows.Consistent) :
    ledgerContract.inv (Sys.boot rows : Sys W) :=
  ⟨hrows, fun _ _ hr => List.mem_reverse.mpr (Dict.mem_keys_of_get hr)⟩

/-- In every run in which `recover` requeues live rows only, every row of the ledger is
consistent, and a terminal status stays until the row is swept. -/
theorem ledger_consistent {svc : Service W} {permits : Call → Bool} {rows : Ledger}
    {c : Config Tid (Op W) (Res W) (Sys W)} (hrows : rows.Consistent)
    (h : Reachable (machine svc permits) RequeuesLive (Sys.boot rows) c) :
    c.state.rows.Consistent ∧
      ∀ c', ReflTransGen (Step (machine svc permits) RequeuesLive) c c' →
        ∀ id st, c.state.status id = some st → st.terminal = true →
          c'.state.status id = none ∨ c'.state.status id = some st := by
  have hholds := ledgerContract.sound (ledger_boot hrows) (fun _ => trivial)
    (fun t => Contract.stable_const True) (fun t call s p _ _ hp => ledger_safe hp) h
  refine ⟨hholds.inv.1, ?_⟩
  intro c' hrun id st hst hterm
  -- The id is taken for good, so that a swept row never comes back.
  have hkept : id ∈ c'.state.ids ∧
      (c'.state.status id = none ∨ c'.state.status id = some st) := by
    refine hholds.run (P := fun s => id ∈ s.ids ∧ (s.status id = none ∨ s.status id = some st))
      (fun t => Contract.stable_const True) (fun t call s p _ _ hp => ledger_safe hp) ?_ hrun ?_
    · rintro t s s' - - hkeeps ⟨hid, hold⟩
      refine ⟨hkeeps.ids id hid, ?_⟩
      rcases hold with hnone | hsome
      · left
        simp only [Sys.status, Option.map_eq_none_iff] at hnone ⊢
        exact hkeeps.absent id hid hnone
      · simp only [Sys.status, Option.map_eq_some_iff] at hsome
        obtain ⟨r, hr, rfl⟩ := hsome
        cases hr' : s'.rows.get? id with
        | none => exact .inl (by simp [Sys.status, hr'])
        | some r' =>
            right
            simp [Sys.status, hr', hkeeps.terminal id r r' hr hterm hr']
    · refine ⟨?_, .inr hst⟩
      simp only [Sys.status, Option.map_eq_some_iff] at hst
      obtain ⟨r, hr, -⟩ := hst
      exact hholds.inv.2 id r hr
  exact hkept.2

section Rules

variable {svc : Service W} {permits : Call → Bool} {allow : Condition Tid (Op W) (Sys W)}
variable {C : Contract Tid (Sys W)} {t : Tid} {s : Sys W} {β : Type} {op : Op W}

theorem Code.safe_ask {f : Res W op → Code W β} {P : Sys W → Prop} {Q : β → Sys W → Prop}
    (hstable : C.Stable t P) (hP : P s)
    (h : ∀ s a r s', C.inv s → P s → exec t op a s = some (r, s') → allow t op s s' →
      C.inv s' ∧ C.guar t s s' ∧ Safe (machine svc permits) allow C t (f r) Q s') :
    Safe (machine svc permits) allow C t (ask op >>= f) Q s :=
  safe_call hstable hP h

theorem Code.safe_act {f : Unit → Code W β} {P : Sys W → Prop} {Q : β → Sys W → Prop}
    (hstable : C.Stable t P) (hP : P s)
    (h : ∀ s a r s', C.inv s → P s → exec t op a s = some (r, s') → allow t op s s' →
      C.inv s' ∧ C.guar t s s' ∧ Safe (machine svc permits) allow C t (f ()) Q s') :
    Safe (machine svc permits) allow C t (act op >>= f) Q s :=
  safe_call hstable hP h

theorem Code.safe_last {P Q : Sys W → Prop} (hstable : C.Stable t P) (hP : P s) (hQ : C.Stable t Q)
    (h : ∀ s a r s', C.inv s → P s → exec t op a s = some (r, s') → allow t op s s' →
      C.inv s' ∧ C.guar t s s' ∧ Q s') :
    Safe (machine svc permits) allow C t (act op) (fun _ => Q) s := by
  refine safe_call hstable hP ?_
  intro s a r s' hinv hs hexec hallow
  obtain ⟨hinv', hguar, hs'⟩ := h s a r s' hinv hs hexec hallow
  exact ⟨hinv', hguar, safe_ret hQ hs' fun _ h => h⟩

end Rules

/-- There is another thread. -/
theorem exists_other (t : Tid) : ∃ u : Tid, u ≠ t := by
  cases t with
  | dispatcher => exact ⟨.request 0, by simp⟩
  | request n => exact ⟨.dispatcher, by simp⟩
  | worker ref => exact ⟨.dispatcher, by simp⟩

/-- An operation of a service that never recovers: issued, and it keeps the ledger. -/
structure Lawful (op : Op W) (s s' : Sys W) : Prop where
  issued : op.Issued false
  before : ledgerContract.inv s
  after : ledgerContract.inv s'
  keeps : Keeps s s'

theorem lawful_run {svc : Service W} {permits : Call → Bool} {rows : Ledger}
    {allow : Condition Tid (Op W) (Sys W)} {c : Config Tid (Op W) (Res W) (Sys W)}
    (hrows : rows.Consistent) (hpermits : permits .recover = false)
    (h : Reachable (machine svc permits) allow (Sys.boot rows) c) :
    Reachable (machine svc permits) (fun t op s s' => allow t op s s' ∧ Lawful op s s')
      (Sys.boot rows) c := by
  have hlive : ∀ {op : Op W} {s : Sys W}, op.Issued false → requeuesLive op s = true := by
    intro op s hop
    cases op with
    | update site id only set =>
        rcases hop with hshape | ⟨hno, -⟩
        · cases hshape <;> rfl
        · cases hno
    | _ => rfl
  have hissued : ∀ t call s p, (machine svc permits).start t call s = some p →
      p.All (Op.Issued false) := fun t call s p hp => hpermits ▸ start_issued hp
  have hops := h.strengthen_ops hissued
  have hinv : ∀ c, Reachable (machine svc permits)
      (fun t op s s' => allow t op s s' ∧ op.Issued false) (Sys.boot rows) c →
      ledgerContract.inv c.state := by
    intro c hc
    refine hc.invariant (ledger_boot hrows) ?_
    intro t op a r s s' hs hexec hallow
    exact (ledger_exec hallow.2 hs hexec (hlive hallow.2)).1
  refine (hops.strengthen (fun _ => Lawful) ?_).mono
    fun t op s s' hallow => ⟨hallow.1.1, hallow.2⟩
  intro c hc t op a r s' hexec hallow
  obtain ⟨hafter, hkeeps⟩ := ledger_exec hallow.2 (hinv c hc) hexec (hlive hallow.2)
  exact ⟨hallow.2, hinv c hc, hafter, hkeeps⟩

/-- Nothing outside the service is called. -/
def noWorld : World := ⟨Empty, fun e => nomatch e⟩

/-- A kind whose runs end at once and start over after a restart. -/
def echo : Kind noWorld where
  name := "echo"
  title := "Echo"
  run := fun _ _ => .ret (.ok (finish .null "done" none))
  validate := none
  label := none
  exclusive := none
  onFinish := none
  onCancel := none
  resume := .requeue
  maxRunS := fun _ => 3600
  run_ops := fun _ _ => trivial
  on_finish_ops := fun _ hf => nomatch hf
  on_cancel_ops := fun _ hf => nomatch hf

/-- A service with that kind only. -/
def echoService : Service noWorld where
  kinds := fun name => if name = "echo" then some echo else none
  inline := false

/-- A live row of that kind. -/
def echoRow (id : String) (status : Status) (exclusive : List String) : Row where
  id := id
  kind := "echo"
  label := "Echo"
  user := ""
  role := ""
  source := .system
  spec := []
  state := []
  status := status
  notBefore := 10
  periodS := none
  runsLeft := none
  nextRun := some 10
  lastRun := none
  started := none
  runCount := 0
  attempts := 0
  lease := none
  exclusive := exclusive
  result := .null
  message := "queued"
  threadId := none
  created := 10
  resolved := none
  ackedAt := none

/-- The answers of the outside at a given time: four workers, thirty days of history. -/
def atTime (time : ℚ) : (op : Op noWorld) → Ans noWorld op
  | .now => time
  | .workers => (4 : Int)
  | .historyDays => (30 : Int)
  | .insert _ => "new"
  | .ext e => nomatch e
  | .rounds => (0 : Nat)
  | .get .. | .running | .due .. | .update .. | .sweep .. | .sweepDue .. | .cancelRow ..
  | .ackRow .. | .setState .. | .annotate .. | .workerIds | .register .. | .putWorker ..
  | .startThread .. | .reapDead | .lookup .. | .setFlag .. | .isSet .. | .forget .. | .enter ..
  | .leave .. | .hook .. | .alert .. | .audit .. | .returned .. | .never => ()

/-- No call of `recover`. -/
def noRecover : Call → Bool
  | .recover => false
  | _ => true

/-- The thread performs its next `n` operations. -/
def steps (t : Tid) (n : Nat) : List (Choice Tid (Ans noWorld) Call) :=
  List.replicate n (.perform t (atTime 100))

/-- A ledger with one row, in any live status. -/
def oneRow (status : Status) : Ledger :=
  ⟨[("j", echoRow "j" status [])], List.nodup_singleton _⟩

/-- That ledger is consistent. -/
theorem one_row_consistent {status : Status} (h : status.terminal = false) :
    (oneRow status).Consistent := by
  intro id r hr
  have hmem := Dict.mem_items_iff.mpr hr
  simp only [oneRow, List.mem_singleton, Prod.mk.injEq] at hmem
  obtain ⟨rfl, rfl⟩ := hmem
  exact ⟨rfl, by simp [echoRow, h], by simp [echoRow], by simp [echoRow, h], by simp [echoRow]⟩

/-- The ledger that a restart finds: one row left running. -/
def leftRunning : Ledger := oneRow .running

theorem left_running_consistent : leftRunning.Consistent := one_row_consistent rfl

/-- A ledger with one queued job. -/
def oneQueued : Ledger := oneRow .queued

theorem one_queued_consistent : oneQueued.Consistent := one_row_consistent rfl

/-- `recover` has read the running rows, and then the job is cancelled. -/
def cancelDuringRecover : List (Choice Tid (Ans noWorld) Call) :=
  .start .dispatcher .recover :: steps .dispatcher 2 ++
    .start (.request 0) (.cancel "j" "" CANCELLED) :: steps (.request 0) 2

/-- A job that is cancelled while `recover` runs is put back into the queue: its status is no
longer terminal, and it is queued and resolved. -/
theorem requeued_after_cancel :
    leftRunning.Consistent ∧
    ∃ c c', Reachable (machine echoService fun _ => true) (fun _ _ _ _ => True)
        (Sys.boot leftRunning) c ∧
      ReflTransGen (Step (machine echoService fun _ => true) fun _ _ _ _ => True) c c' ∧
      c.state.status "j" = some .cancelled ∧ c'.state.status "j" = some .queued ∧
      ¬ c'.state.rows.Consistent := by
  refine ⟨left_running_consistent, ?_⟩
  have hrun : ((Config.idle (Sys.boot leftRunning)).plays (machine echoService fun _ => true)
      (fun _ _ _ _ => True) cancelDuringRecover).bind (fun c => (c.plays
        (machine echoService fun _ => true) (fun _ _ _ _ => True) (steps .dispatcher 1)).bind
          fun c' => (c'.state.rows.get? "j").map fun r =>
            (c.state.status "j", r.status, r.resolved)) =
      some (some .cancelled, .queued, some 100) := by decide +kernel
  obtain ⟨c, hc, hrest⟩ := exists_run_of_plays hrun
  obtain ⟨c', hc', hrow⟩ := exists_run_of_plays hrest
  rw [Option.map_eq_some_iff] at hrow
  obtain ⟨r, hr, heq⟩ := hrow
  obtain ⟨hst, hqueued, hresolved⟩ : c.state.status "j" = some .cancelled ∧ r.status = .queued ∧
      r.resolved = some 100 := by simpa using heq
  refine ⟨c, c', hc, hc', hst, by simp [Sys.status, hr, hqueued], ?_⟩
  intro hcons
  have hterm := (hcons "j" r hr).2.resolved.mp (by simp [hresolved])
  rw [hqueued] at hterm
  cases hterm

/-- A job that is cancelled after `recover` stays cancelled. -/
theorem cancelled_after_requeue :
    leftRunning.Consistent ∧
    ∃ c, Reachable (machine echoService fun _ => true) RequeuesLive (Sys.boot leftRunning) c ∧
      c.state.status "j" = some .cancelled ∧ c.state.rows.Consistent := by
  refine ⟨left_running_consistent, ?_⟩
  have hrun : ((Config.idle (Sys.boot leftRunning)).plays (machine echoService fun _ => true)
      RequeuesLive (.start .dispatcher .recover :: steps .dispatcher 3 ++
        .start (.request 0) (.cancel "j" "" CANCELLED) :: steps (.request 0) 2)).bind
          (fun c => c.state.status "j") = some .cancelled := by decide +kernel
  obtain ⟨c, hc, hst⟩ := exists_run_of_plays hrun
  exact ⟨c, hc, hst, (ledger_consistent left_running_consistent hc).1⟩

end SystemsManager.Jobs
