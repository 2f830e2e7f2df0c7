import SystemsManager.Jobs.Consistent

/-!
# The worker threads

What holds of the worker threads in every run of the threaded service, whatever else the run
does. `WorkersInv` says that a thread that is alive is in the worker table under its job, and
that no job in the table is queued; so a job that is claimed has no worker, and neither has a
job whose outcome is applied. `tended_run` adds the invariant and the guarantees of the threads to
the condition of the runs, where the other modules use it.
-/

namespace SystemsManager.Jobs

open Python Concurrency Relation

variable {W : World}

/-- The row of a thread that is alive. -/
def Phase.job : Phase → Option Row
  | .started row => some row
  | .running row => some row
  | _ => .none

/-- The thread has been started. -/
def Phase.launched : Phase → Bool
  | .started _ => true
  | .running _ => true
  | .dead _ => true
  | _ => false

theorem Phase.alive_eq (p : Phase) : p.alive = p.job.isSome := by
  cases p <;> rfl

/-- The job and the keys of a handler that runs. -/
def Phase.runs : Phase → Option (String × List String)
  | .running row => some (row.id, row.exclusive)
  | _ => .none

variable {id : String}

theorem Phase.runs_eq_some {p : Phase} {keys : List String} (h : p.runs = some (id, keys)) :
    ∃ row, p = .running row ∧ row.id = id := by
  cases p with
  | running row =>
      cases h
      exact ⟨row, rfl, rfl⟩
  | _ => cases h

/-- What a worker thread does to its phase. -/
inductive Phase.Goes : Phase → Phase → Prop where
  | same (p : Phase) : Phase.Goes p p
  | enters (row : Row) : Phase.Goes (.started row) (.running row)
  | leaves (row : Row) (outcome : Outcome) : Phase.Goes (.running row) (.dead outcome)

/-- A thread keeps its row while it is alive. -/
theorem Phase.Goes.job {p p' : Phase} (h : p.Goes p') {row : Row} (hrow : p'.job = some row) :
    p.job = some row := by
  cases h with
  | same => exact hrow
  | enters row' => exact hrow
  | leaves row' outcome => cases hrow

/-- A thread that is not alive does nothing. -/
theorem Phase.Goes.still {p p' : Phase} (h : p.Goes p') (hp : p.job = Option.none) : p' = p := by
  cases h with
  | same => rfl
  | enters row => cases hp
  | leaves row outcome => cases hp

/-- A thread that has been started stays so. -/
theorem Phase.Goes.launched {p p' : Phase} (h : p.Goes p') (hp : p.launched = true) :
    p'.launched = true := by
  cases h with
  | same => exact hp
  | enters row => rfl
  | leaves row outcome => rfl

/-- What the other threads do to the workers while the dispatcher is not looking. -/
structure Frame (s s' : Sys W) : Prop where
  workers : s'.workers = s.workers
  phase : ∀ ref, (s.phase ref).Goes (s'.phase ref)
  next : s'.nextRef = s.nextRef

/-- No known job has come into the queue. -/
def Unqueued (s s' : Sys W) : Prop :=
  ∀ id ∈ s.ids, s'.status id = some .queued → s.status id = some .queued

/-- What is known of the workers. -/
structure WorkersInv (s : Sys W) : Prop where
  ledger : ledgerContract.inv s
  table : ∀ ref row, (s.phase ref).job = some row → s.workers.get? row.id = some ref
  known : ∀ ref row, (s.phase ref).job = some row → Knows row s
  listed : ∀ id ref, s.workers.get? id = some ref → id ∈ s.ids ∧ s.status id ≠ some .queued
  fresh : ∀ ref, s.nextRef ≤ ref → s.phase ref = .none

/-- What a thread may do to the workers: only a worker thread itself enters and leaves its
handler, only the dispatcher launches and requeues, and only dead threads leave the table. -/
structure WorkersGuar (t : Tid) (s s' : Sys W) : Prop where
  keeps : Keeps s s'
  own : ∀ ref, t ≠ .worker ref → (s.phase ref).job ≠ none → s'.phase ref = s.phase ref
  enter : ∀ ref row, t ≠ .worker ref → s'.phase ref = .running row → s.phase ref = .running row
  removed : ∀ id ref, s.workers.get? id = some ref →
    s'.workers.get? id = some ref ∨ ∃ outcome, s.phase ref = .dead outcome
  frame : t ≠ .dispatcher → Frame s s' ∧ Unqueued s s'

/-- Every thread of the worker table has been started. -/
def Settled (s : Sys W) : Prop :=
  ∀ id ref, s.workers.get? id = some ref → (s.phase ref).launched = true

/-- The job has no worker. -/
def Unlisted (id : String) (s : Sys W) : Prop := s.workers.get? id = none

/-- While it is idle, the dispatcher has started its workers, and a worker is in no handler. -/
def WorkersIdle : Tid → Sys W → Prop
  | .dispatcher, s => Settled s
  | .request _, _ => True
  | .worker ref, s => ∀ row, s.phase ref ≠ .running row

/-- The promise of every thread about the workers. -/
def workersContract : Contract Tid (Sys W) where
  inv := WorkersInv
  guar := WorkersGuar
  idle := WorkersIdle

/-- A step that leaves the workers alone. -/
structure Still (s s' : Sys W) : Prop where
  keeps : Keeps s s'
  ledger : ledgerContract.inv s'
  workers : s'.workers = s.workers
  phase : s'.phase = s.phase
  next : s'.nextRef = s.nextRef
  unqueued : Unqueued s s'

variable {s s' : Sys W}

theorem WorkersInv.frame (h : WorkersInv s) (hledger : ledgerContract.inv s') (hkeeps : Keeps s s')
    (hframe : Frame s s')
    (hstatus : ∀ id ref, s.workers.get? id = some ref → s'.status id ≠ some .queued) :
    WorkersInv s' := by
  refine ⟨hledger, ?_, ?_, ?_, ?_⟩
  · intro ref row hrow
    rw [hframe.workers]
    exact h.table ref row ((hframe.phase ref).job hrow)
  · intro ref row hrow
    exact hkeeps.knows (h.known ref row ((hframe.phase ref).job hrow))
  · intro id ref href
    rw [hframe.workers] at href
    exact ⟨hkeeps.ids id (h.listed id ref href).1, hstatus id ref href⟩
  · intro ref href
    rw [hframe.next] at href
    have hnone := h.fresh ref href
    rw [(hframe.phase ref).still (by rw [hnone]; rfl)]
    exact hnone

theorem WorkersInv.unqueued (h : WorkersInv s) (hun : Unqueued s s') {ref : Ref}
    (href : s.workers.get? id = some ref) : s'.status id ≠ some .queued := by
  obtain ⟨hid, hst⟩ := h.listed id ref href
  exact fun hqueued => hst (hun id hid hqueued)

theorem Still.frame (h : Still s s') : Frame s s' :=
  ⟨h.workers, fun ref => by rw [h.phase]; exact .same _, h.next⟩

theorem Still.inv (h : Still s s') (hinv : WorkersInv s) : WorkersInv s' :=
  hinv.frame h.ledger h.keeps h.frame fun _ _ href => hinv.unqueued h.unqueued href

theorem Still.guar (h : Still s s') (t : Tid) : WorkersGuar t s s' := by
  refine ⟨h.keeps, ?_, ?_, ?_, fun _ => ⟨h.frame, h.unqueued⟩⟩
  · intro ref _ _
    rw [h.phase]
  · intro ref row _ hrow
    rw [← h.phase]
    exact hrow
  · intro id ref href
    rw [h.workers]
    exact .inl href

variable {t : Tid}

theorem Sys.write_status {r r' : Row} (hid : r.id = id) (other : String) :
    (s.write t r r').status other =
      if other = id then some r'.status else s.status other := by
  simp only [Sys.status, Sys.write_rows, Dict.get?_set, hid]
  split
  · rfl
  · rfl

theorem unqueued_write {r r' : Row} (hr : s.rows.get? id = some r) (hid : r.id = id)
    (h : r'.status = .queued → r.status = .queued) : Unqueued s (s.write t r r') := by
  intro other _ hst
  rw [Sys.write_status hid] at hst
  split at hst
  · rename_i heq
    rw [heq, Sys.status, hr, Option.map_some, h (by simpa using hst)]
  · exact hst

variable {only : Option (List Status)} {op : Op W}

theorem Lawful.found (h : Lawful op s s') {r : Row} (hr : s.rows.matching id only = some r) :
    s.rows.get? id = some r ∧ r.id = id := by
  have hget := (Ledger.matching_eq_some.mp hr).1
  exact ⟨hget, (h.before.1 id r hget).1⟩

theorem Lawful.write_still {r r' : Row} (h : Lawful op s (s.write t r r'))
    (hr : s.rows.matching id only = some r) (hst : r'.status = .queued → r.status = .queued) :
    Still s (s.write t r r') := by
  obtain ⟨hget, hid⟩ := h.found hr
  obtain ⟨hworkers, hphase, hnext, -⟩ := s.write_same t r r'
  exact ⟨h.keeps, h.after, hworkers, hphase, hnext, unqueued_write hget hid hst⟩

theorem UpdateShape.unqueued {site : Write} {set : Row → Row} (h : UpdateShape site only set)
    (hsite : site ≠ .outcome .queued) (r : Row) (hst : (set r).status = .queued) :
    r.status = .queued := by
  cases h with
  | claim now => cases hst
  | waiting message => exact hst
  | outcome row o now hleads =>
      rw [outcome_row_status hleads] at hst
      rw [hst] at hsite
      exact absurd rfl hsite
  | failed row message now attempts => cases hst
  | lease now => exact hst

theorem update_still {site : Write} {set : Row → Row} {a : Unit} {ok : Bool}
    (hlawful : Lawful (.update site id only set) s s') (hsite : site ≠ .outcome .queued)
    (hexec : exec t (.update site id only set) a s = some (ok, s')) : Still s s' := by
  have hshape : UpdateShape site only set := by
    rcases hlawful.issued with hshape | ⟨hno, -⟩
    · exact hshape
    · cases hno
  simp only [exec, Sys.update, Option.some.injEq] at hexec
  split at hexec
  · cases hexec
    exact ⟨hlawful.keeps, hlawful.after, rfl, rfl, rfl, fun _ _ h => h⟩
  · rename_i r hr
    obtain ⟨hget, hid⟩ := hlawful.found hr
    obtain ⟨hworkers, hphase, hnext, -⟩ := s.write_same t r (set r)
    have hun := unqueued_write (t := t) hget hid (hshape.unqueued hsite r)
    by_cases hclaim : site = .claim
    · simp only [hclaim, if_true] at hexec
      cases hexec
      exact ⟨hlawful.keeps, hlawful.after, hworkers, hphase, hnext, hun⟩
    · simp only [hclaim, if_false] at hexec
      cases hexec
      exact ⟨hlawful.keeps, hlawful.after, hworkers, hphase, hnext, hun⟩

theorem sweep_still {cutoff : ℚ} {a r : Unit} (hlawful : Lawful (.sweep cutoff) s s')
    (hexec : exec t (.sweep cutoff) a s = some (r, s')) : Still s s' := by
  cases hexec
  refine ⟨hlawful.keeps, hlawful.after, rfl, rfl, rfl, ?_⟩
  intro id _ hst
  simp only [Sys.status, Ledger.sweep, Dict.get?_filter, Option.map_eq_some_iff,
    Option.filter_eq_some_iff] at hst ⊢
  obtain ⟨row, ⟨hrow, -⟩, hqueued⟩ := hst
  exact ⟨row, hrow, hqueued⟩

theorem still_exec {a : Ans W op} {r : Res W op} (htends : op.tends = false)
    (hlawful : Lawful op s s') (hexec : exec t op a s = some (r, s')) : Still s s' := by
  have hsame : s'.workers = s.workers → s'.phase = s.phase → s'.nextRef = s.nextRef →
      s'.rows = s.rows → Still s s' := by
    intro hworkers hphase hnext hrows
    refine ⟨hlawful.keeps, hlawful.after, hworkers, hphase, hnext, ?_⟩
    intro id _ hst
    rw [Sys.status, hrows] at hst
    exact hst
  cases op with
  | get site id =>
      cases site with
      | after => cases htends
      | other =>
          cases hexec
          exact hsame rfl rfl rfl rfl
  | update site id only set =>
      refine update_still hlawful ?_ hexec
      rintro rfl
      cases htends
  | insert row =>
      simp only [exec] at hexec
      split at hexec
      · cases hexec
      · rename_i hid
        cases hexec
        refine ⟨hlawful.keeps, hlawful.after, rfl, rfl, rfl, ?_⟩
        intro other hother hst
        simp only [Sys.status, Sys.note, Dict.get?_set] at hst
        split at hst
        · rename_i heq
          rw [heq] at hother
          exact absurd hother hid
        · exact hst
  | sweep cutoff => cases htends
  | sweepDue now =>
      simp only [exec] at hexec
      split at hexec
      · cases hexec
        exact hsame rfl rfl rfl rfl
      · cases hexec
        exact hsame rfl rfl rfl rfl
  | cancelRow id now message =>
      simp only [exec] at hexec
      split at hexec
      · cases hexec
        exact hsame rfl rfl rfl rfl
      · rename_i row hrow
        cases hexec
        exact hlawful.write_still hrow (by rintro ⟨⟩)
  | ackRow id now =>
      simp only [exec] at hexec
      split at hexec
      · cases hexec
        exact hsame rfl rfl rfl rfl
      · rename_i row hrow
        split at hexec
        · cases hexec
          exact hsame rfl rfl rfl rfl
        · cases hexec
          exact hlawful.write_still hrow fun hst => hst
  | setState id state =>
      simp only [exec] at hexec
      split at hexec
      · cases hexec
        exact hsame rfl rfl rfl rfl
      · rename_i row hrow
        cases hexec
        exact hlawful.write_still hrow fun hst => hst
  | annotate id message =>
      simp only [exec] at hexec
      split at hexec
      · cases hexec
        exact hsame rfl rfl rfl rfl
      · rename_i row hrow
        cases hexec
        exact hlawful.write_still hrow fun hst => hst
  | register id => cases htends
  | putWorker id ref row => cases htends
  | startThread ref => cases htends
  | reapDead => cases htends
  | enter ref row => cases htends
  | leave ref outcome => cases htends
  | never => cases hexec
  | _ =>
      cases hexec
      exact hsame rfl rfl rfl rfl

/-- The condition of the runs of which the workers are looked at. -/
abbrev LawfulRun (base : Condition Tid (Op W) (Sys W)) : Condition Tid (Op W) (Sys W) :=
  fun t op s s' => base t op s s' ∧ Lawful op s s'

/-- The assertion survives what the other threads do to the workers. -/
def Lasting (P : Sys W → Prop) : Prop :=
  ∀ s s', WorkersInv s → WorkersInv s' → Keeps s s' → Frame s s' → P s → P s'

theorem Lasting.stable {P : Sys W → Prop} (h : Lasting P) : workersContract.Stable .dispatcher P :=
  fun _ hu s s' hinv hinv' hguar hs => h s s' hinv hinv' hguar.keeps (hguar.frame hu).1 hs

/-- Lasting assertions are closed under conjunction. -/
theorem Lasting.and {P Q : Sys W → Prop} (hP : Lasting P) (hQ : Lasting Q) :
    Lasting fun s => P s ∧ Q s :=
  fun s s' hinv hinv' hkeeps hframe h =>
    ⟨hP s s' hinv hinv' hkeeps hframe h.1, hQ s s' hinv hinv' hkeeps hframe h.2⟩

/-- A started thread stays started. -/
theorem settled_lasting : Lasting (Settled (W := W)) := by
  intro s s' _ _ _ hframe h id ref href
  rw [hframe.workers] at href
  exact (hframe.phase ref).launched (h id ref href)

/-- Only the dispatcher puts workers into the table. -/
theorem unlisted_lasting (id : String) : Lasting (Unlisted (W := W) id) := by
  intro s s' _ _ _ hframe h
  unfold Unlisted
  rw [hframe.workers]
  exact h

theorem knows_lasting (row : Row) : Lasting (Knows (W := W) row) :=
  fun _ _ _ _ hkeeps _ h => hkeeps.knows h

section Tending

variable {svc : Service W} {permits : Call → Bool} {base : Condition Tid (Op W) (Sys W)}
variable {t : Tid} {s : Sys W}

variable {s s' : Sys W} {P : Sys W → Prop}

theorem Still.step (h : Still s s') (hstable : workersContract.Stable t P) (hinv : WorkersInv s)
    (hs : P s) : WorkersInv s' ∧ WorkersGuar t s s' ∧ P s' := by
  obtain ⟨u, hu⟩ := exists_other t
  have hinv' := h.inv hinv
  exact ⟨hinv', h.guar t, hstable.anyone hu hinv hinv' h.guar hs⟩

theorem quiet_tended {α : Type} {p : Code W α} (hp : p.All Op.Quiet)
    (hstable : workersContract.Stable t P) (hP : P s) :
    Safe (machine svc permits) (LawfulRun base) workersContract t p (fun _ => P) s := by
  refine safe_of_all hp hstable hP ?_ fun _ _ h => h
  intro op hop s a r s' hinv hs hexec hallow
  exact (still_exec hop.2 hallow.2 hexec).step hstable hinv hs

theorem quiet_ask {β : Type} {op : Op W} {f : Res W op → Code W β} {Q : β → Sys W → Prop}
    (hop : op.tends = false) (hstable : workersContract.Stable t P) (hP : P s)
    (h : ∀ s a r s', WorkersInv s → P s → P s' → Lawful op s s' → exec t op a s = some (r, s') →
      Safe (machine svc permits) (LawfulRun base) workersContract t (f r) Q s') :
    Safe (machine svc permits) (LawfulRun base) workersContract t (Code.ask op >>= f) Q s := by
  refine safe_call hstable hP ?_
  intro s a r s' hinv hs hexec hallow
  obtain ⟨hinv', hguar, hs'⟩ := (still_exec hop hallow.2 hexec).step hstable hinv hs
  exact ⟨hinv', hguar, h s a r s' hinv hs hs' hallow.2 hexec⟩

theorem quiet_seq {α β : Type} {p : Code W α} {f : α → Code W β} {Q : β → Sys W → Prop}
    (hp : p.All Op.Quiet) (hstable : workersContract.Stable t P) (hP : P s)
    (h : ∀ a s, P s → Safe (machine svc permits) (LawfulRun base) workersContract t (f a) Q s) :
    Safe (machine svc permits) (LawfulRun base) workersContract t (p >>= f) Q s :=
  safe_bind ((quiet_tended hp hstable hP).mono h)

theorem Op.Requeues.step {id : String} {op : Op W} {a : Ans W op} {r : Res W op}
    (h : op.Requeues id) (hinv : WorkersInv s) (hfree : Unlisted id s) (hlawful : Lawful op s s')
    (hexec : exec t op a s = some (r, s')) :
    WorkersInv s' ∧ Frame s s' ∧ s'.phase = s.phase ∧
      ∀ other, other ≠ id → s'.status other = s.status other := by
  obtain ⟨row, o, now, rfl, -⟩ := h
  simp only [exec, Sys.update, Option.some.injEq] at hexec
  split at hexec
  · cases hexec
    exact ⟨hinv, ⟨rfl, fun _ => .same _, rfl⟩, rfl, fun _ _ => rfl⟩
  · rename_i r hr
    obtain ⟨-, hid⟩ := hlawful.found hr
    obtain ⟨hworkers, hphase, hnext, -⟩ := s.write_same t r (outcomeRow row o now r)
    rw [if_neg (by simp)] at hexec
    cases hexec
    have hframe : Frame s (s.write t r (outcomeRow row o now r)) :=
      ⟨hworkers, fun ref => by rw [hphase]; exact .same _, hnext⟩
    have hstatus : ∀ other, other ≠ id →
        (s.write t r (outcomeRow row o now r)).status other = s.status other := by
      intro other hne
      rw [Sys.write_status hid, if_neg hne]
    refine ⟨hinv.frame hlawful.after hlawful.keeps hframe ?_, hframe, hphase, hstatus⟩
    intro other ref href
    have hne : other ≠ id := by
      rintro rfl
      rw [hfree] at href
      cases href
    rw [hstatus other hne]
    exact (hinv.listed other ref href).2

theorem apply_tended {id : String} {outcome : Outcome} (hP : Lasting P)
    (hfree : ∀ s, P s → Unlisted id s) (h : P s) :
    Safe (machine svc permits) (LawfulRun base) workersContract .dispatcher
      (svc.apply id outcome) (fun _ => P) s := by
  refine safe_of_all (Service.apply_quiet_or id outcome) hP.stable h ?_ fun _ _ h => h
  intro op hop s a r s' hinv hs hexec hallow
  rcases hop with hquiet | hrequeues
  · exact (still_exec hquiet.2 hallow.2 hexec).step hP.stable hinv hs
  · obtain ⟨hinv', hframe, hphase, -⟩ :=
      hrequeues.step hinv (hfree s hs) hallow.2 hexec
    refine ⟨hinv', ⟨hallow.2.keeps, ?_, ?_, ?_, fun hne => absurd rfl hne⟩,
      hP s s' hinv hinv' hallow.2.keeps hframe hs⟩
    · intro ref _ _
      rw [hphase]
    · intro ref row _ hrow
      rw [← hphase]
      exact hrow
    · intro id ref href
      rw [hframe.workers]
      exact .inl href

theorem Sys.mem_reaped {item : String × Option Outcome} (h : item ∈ s.reaped) :
    ∃ ref, s.workers.get? item.1 = some ref ∧ (s.phase ref).alive = false := by
  simp only [Sys.reaped, List.mem_map, List.mem_filter] at h
  obtain ⟨⟨id, ref⟩, ⟨hmem, hdead⟩, rfl⟩ := h
  exact ⟨ref, Dict.mem_items_iff.mp hmem, by simpa using hdead⟩

theorem reaped_unlisted {a : Unit} {done : List (String × Option Outcome)}
    (hexec : exec t .reapDead a s = some (done, s')) {item : String × Option Outcome}
    (hitem : item ∈ done) : Unlisted item.1 s' := by
  cases hexec
  obtain ⟨ref, href, hdead⟩ := Sys.mem_reaped hitem
  unfold Unlisted
  rw [Dict.get?_filter, href, Option.filter_some, if_neg]
  simp [hdead]

/-- The section of `_reap` under the lock: the reaped jobs have no worker, and their threads are
dead. -/
theorem reap_dead_step (hinv : WorkersInv s) (hsettled : Settled s)
    (hs' : s' = { s with workers := s.workers.filter fun _ ref => (s.phase ref).alive }) :
    WorkersInv s' ∧ (∀ item ∈ s.reaped, Unlisted item.1 s') ∧
      ∀ id ref, s.workers.get? id = some ref →
        s'.workers.get? id = some ref ∨ ∃ outcome, s.phase ref = .dead outcome := by
  have hworkers : ∀ id, s'.workers.get? id =
      (s.workers.get? id).filter fun ref => (s.phase ref).alive := by
    intro id
    rw [hs', Dict.get?_filter]
  subst hs'
  refine ⟨⟨hinv.ledger, ?_, hinv.known, ?_, hinv.fresh⟩, ?_, ?_⟩
  · intro ref row hrow
    have halive : (s.phase ref).alive = true := by
      rw [Phase.alive_eq, hrow]
      rfl
    rw [hworkers, hinv.table ref row hrow, Option.filter_some, if_pos halive]
  · intro id ref href
    rw [hworkers, Option.filter_eq_some_iff] at href
    exact hinv.listed id ref href.1
  · intro item hitem
    exact reaped_unlisted (t := .dispatcher) (a := ()) rfl hitem
  · intro id ref href
    rw [hworkers, href, Option.filter_some]
    have hlaunched := hsettled id ref href
    cases hphase : s.phase ref with
    | none =>
        rw [hphase] at hlaunched
        cases hlaunched
    | created row =>
        rw [hphase] at hlaunched
        cases hlaunched
    | started row => exact .inl rfl
    | running row => exact .inl rfl
    | dead outcome => exact .inr ⟨outcome, rfl⟩

theorem reap_tended (h : Settled s) :
    Safe (machine svc permits) (LawfulRun base) workersContract .dispatcher svc.reap
      (fun _ => Settled) s := by
  refine safe_call settled_lasting.stable h ?_
  intro s a done s' hinv hs hexec hallow
  cases hexec
  obtain ⟨hinv', hfree, hremoved⟩ := reap_dead_step hinv hs rfl
  refine ⟨hinv', ⟨hallow.2.keeps, fun _ _ _ => rfl, fun _ _ _ hrow => hrow, hremoved,
    fun hne => absurd rfl hne⟩, ?_⟩
  have hsettled : Settled
      { s with workers := s.workers.filter fun _ ref => (s.phase ref).alive } := by
    intro id ref href
    rw [Dict.get?_filter, Option.filter_eq_some_iff] at href
    exact hs id ref href.1
  have hlasting : Lasting fun s' : Sys W => Settled s' ∧ ∀ item ∈ s.reaped, Unlisted item.1 s' := by
    refine settled_lasting.and ?_
    intro s₁ s₂ hinv₁ hinv₂ hkeeps hframe h item hitem
    exact unlisted_lasting item.1 s₁ s₂ hinv₁ hinv₂ hkeeps hframe (h item hitem)
  refine safe_for_each (J := fun rest s' => rest ⊆ s.reaped ∧ Settled s' ∧
    ∀ item ∈ s.reaped, Unlisted item.1 s') ?_ ⟨fun _ h => h, hsettled, hfree⟩ ?_ fun _ h => h.2.1
  · exact (Contract.stable_const _).and hlasting.stable
  · intro item rest s' hs'
    have hitem : item ∈ s.reaped := hs'.1 (List.mem_cons_self ..)
    refine (apply_tended hlasting (fun _ h => h.2 item hitem) hs'.2).mono ?_
    intro _ s'' hs''
    exact ⟨fun x hx => hs'.1 (List.mem_cons_of_mem _ hx), hs''⟩

/-- The dispatcher has claimed the job of the row, which has no worker yet. -/
structure Claimed (row : Row) (s : Sys W) : Prop where
  free : Unlisted row.id s
  knows : Knows row s
  status : s.status row.id ≠ some .queued

/-- A claimed job stays out of the queue. -/
theorem claimed_stable (row : Row) : workersContract.Stable .dispatcher (Claimed (W := W) row) := by
  intro u hu s s' hinv hinv' hguar h
  obtain ⟨hframe, hun⟩ := hguar.frame hu
  exact ⟨unlisted_lasting row.id s s' hinv hinv' hguar.keeps hframe h.free,
    hguar.keeps.knows h.knows,
    fun hst => h.status (hun row.id h.knows.1 hst)⟩

/-- The dispatcher has put the thread of the job into the table and is about to start it. -/
structure Created (row : Row) (ref : Ref) (s : Sys W) : Prop where
  knows : Knows row s
  phase : s.phase ref = .created row
  table : s.workers.get? row.id = some ref
  next : ref < s.nextRef
  settled : ∀ id ref', id ≠ row.id → s.workers.get? id = some ref' →
    (s.phase ref').launched = true

/-- Nobody else starts the thread. -/
theorem created_stable (row : Row) (ref : Ref) :
    workersContract.Stable .dispatcher (Created (W := W) row ref) := by
  intro u hu s s' hinv hinv' hguar h
  obtain ⟨hframe, -⟩ := hguar.frame hu
  refine ⟨hguar.keeps.knows h.knows, ?_, ?_, ?_, ?_⟩
  · rw [(hframe.phase ref).still (by rw [h.phase]; rfl), h.phase]
  · rw [hframe.workers, h.table]
  · rw [hframe.next]
    exact h.next
  · intro id ref' hid href'
    rw [hframe.workers] at href'
    exact (hframe.phase ref').launched (h.settled id ref' hid href')

variable {row : Row}

theorem Claimed.register (h : Claimed row s) (hinv : WorkersInv s) (hsettled : Settled s)
    (hs' : s' = { s with
      cancelOf := s.cancelOf.set row.id s.nextRef
      nextRef := s.nextRef + 1 }.note .dispatcher (.registered row.id s.nextRef)) :
    WorkersInv s' ∧ Claimed row s' ∧ Settled s' ∧ s'.phase s.nextRef = .none ∧
      s.nextRef < s'.nextRef := by
  subst hs'
  refine ⟨⟨hinv.ledger, hinv.table, hinv.known, hinv.listed, ?_⟩, ⟨h.free, h.knows, h.status⟩,
    hsettled, hinv.fresh _ le_rfl, Nat.lt_succ_self _⟩
  intro ref href
  exact hinv.fresh ref (Nat.le_of_succ_le href)

/-- A step that leaves the ledger and the number of events alone. -/
structure SameLedger (s s' : Sys W) : Prop where
  rows : s'.rows = s.rows
  ids : s'.ids = s.ids
  next : s'.nextRef = s.nextRef

theorem SameLedger.ledger (h : SameLedger s s') (hinv : ledgerContract.inv s) :
    ledgerContract.inv s' :=
  (ledger_same (t := .dispatcher) hinv h.rows h.ids).1

theorem SameLedger.knows (h : SameLedger s s') (hrow : Knows row s) : Knows row s' := by
  unfold Knows
  rw [h.rows, h.ids]
  exact hrow

theorem SameLedger.status (h : SameLedger s s') (id : String) : s'.status id = s.status id := by
  unfold Sys.status
  rw [h.rows]

variable {ref : Ref}

theorem Claimed.put_worker (h : Claimed row s) (hinv : WorkersInv s) (hsettled : Settled s)
    (hnone : s.phase ref = .none) (hnext : ref < s.nextRef) {a r : Unit}
    (hexec : exec .dispatcher (.putWorker row.id ref row) a s = some (r, s')) :
    WorkersInv s' ∧ Created row ref s' ∧
      (∀ id ref', s.workers.get? id = some ref' →
        s'.workers.get? id = some ref' ∨ ∃ outcome, s.phase ref' = .dead outcome) ∧
      s'.phase = Function.update s.phase ref (.created row) := by
  obtain ⟨hsame, hworkers, hphase⟩ : SameLedger s s' ∧
      s'.workers = s.workers.set row.id ref ∧
      s'.phase = Function.update s.phase ref (.created row) := by
    cases hexec
    exact ⟨⟨rfl, rfl, rfl⟩, rfl, rfl⟩
  have hjob : ∀ ref' row', (s'.phase ref').job = some row' → (s.phase ref').job = some row' := by
    intro ref' row' hrow'
    rw [hphase] at hrow'
    by_cases heq : ref' = ref
    · rw [heq, Function.update_self] at hrow'
      cases hrow'
    · rwa [Function.update_of_ne heq] at hrow'
  have hother : ∀ id, id ≠ row.id → s'.workers.get? id = s.workers.get? id := by
    intro id hid
    rw [hworkers, Dict.get?_set, if_neg hid]
  have hself : s'.workers.get? row.id = some ref := by
    rw [hworkers, Dict.get?_set, if_pos rfl]
  have hfresh : ∀ id ref', s.workers.get? id = some ref' → id ≠ row.id := by
    rintro id ref' href' rfl
    rw [h.free] at href'
    cases href'
  refine ⟨⟨hsame.ledger hinv.ledger, ?_, ?_, ?_, ?_⟩, ⟨hsame.knows h.knows, ?_, hself,
    by rw [hsame.next]; exact hnext, ?_⟩, ?_, hphase⟩
  · intro ref' row' hrow'
    have htable := hinv.table ref' row' (hjob ref' row' hrow')
    rw [hother row'.id (hfresh _ _ htable)]
    exact htable
  · intro ref' row' hrow'
    exact hsame.knows (hinv.known ref' row' (hjob ref' row' hrow'))
  · intro id ref' href'
    rw [hsame.status, hsame.ids]
    by_cases hid : id = row.id
    · rw [hid]
      exact ⟨h.knows.1, h.status⟩
    · rw [hother id hid] at href'
      exact hinv.listed id ref' href'
  · intro ref' href'
    rw [hsame.next] at href'
    have hne : ref' ≠ ref := fun heq => absurd hnext (Nat.not_lt.mpr (heq ▸ href'))
    rw [hphase, Function.update_of_ne hne]
    exact hinv.fresh ref' href'
  · rw [hphase, Function.update_self]
  · intro id ref' hid href'
    rw [hother id hid] at href'
    have hlaunched := hsettled id ref' href'
    have hne : ref' ≠ ref := by
      rintro rfl
      rw [hnone] at hlaunched
      cases hlaunched
    rw [hphase, Function.update_of_ne hne]
    exact hlaunched
  · intro id ref' href'
    rw [hother id (hfresh id ref' href')]
    exact .inl href'

theorem Created.start_thread (h : Created row ref s) (hinv : WorkersInv s) {a r : Unit}
    (hexec : exec .dispatcher (.startThread ref) a s = some (r, s')) :
    WorkersInv s' ∧ Settled s' ∧ s'.workers = s.workers ∧
      s'.phase = Function.update s.phase ref (.started row) := by
  obtain ⟨hsame, hworkers, hphase⟩ : SameLedger s s' ∧ s'.workers = s.workers ∧
      s'.phase = Function.update s.phase ref (.started row) := by
    simp only [exec, h.phase, Option.some.injEq, Prod.mk.injEq] at hexec
    obtain ⟨-, rfl⟩ := hexec
    exact ⟨⟨rfl, rfl, rfl⟩, rfl, rfl⟩
  have hjob : ∀ ref' row', (s'.phase ref').job = some row' →
      (ref' = ref ∧ row' = row) ∨ (s.phase ref').job = some row' := by
    intro ref' row' hrow'
    rw [hphase] at hrow'
    by_cases heq : ref' = ref
    · rw [heq, Function.update_self] at hrow'
      cases hrow'
      exact .inl ⟨heq, rfl⟩
    · rw [Function.update_of_ne heq] at hrow'
      exact .inr hrow'
  refine ⟨⟨hsame.ledger hinv.ledger, ?_, ?_, ?_, ?_⟩, ?_, hworkers, hphase⟩
  · intro ref' row' hrow'
    rw [hworkers]
    rcases hjob ref' row' hrow' with ⟨rfl, rfl⟩ | hrow'
    · exact h.table
    · exact hinv.table ref' row' hrow'
  · intro ref' row' hrow'
    rcases hjob ref' row' hrow' with ⟨rfl, rfl⟩ | hrow'
    · exact hsame.knows h.knows
    · exact hsame.knows (hinv.known ref' row' hrow')
  · intro id ref' href'
    rw [hworkers] at href'
    rw [hsame.status, hsame.ids]
    exact hinv.listed id ref' href'
  · intro ref' href'
    rw [hsame.next] at href'
    have hne : ref' ≠ ref := fun heq => absurd h.next (Nat.not_lt.mpr (heq ▸ href'))
    rw [hphase, Function.update_of_ne hne]
    exact hinv.fresh ref' href'
  · intro id ref' href'
    rw [hworkers] at href'
    rw [hphase]
    by_cases heq : ref' = ref
    · rw [heq, Function.update_self]
      rfl
    · rw [Function.update_of_ne heq]
      by_cases hid : id = row.id
      · rw [hid, h.table] at href'
        cases href'
        exact absurd rfl heq
      · exact h.settled id ref' hid href'

theorem dispatcher_guar {p : Phase} (hkeeps : Keeps s s')
    (hworkers : ∀ id ref, s.workers.get? id = some ref →
      s'.workers.get? id = some ref ∨ ∃ outcome, s.phase ref = .dead outcome)
    (hphase : s'.phase = Function.update s.phase ref p) (hjob : (s.phase ref).job = none)
    (hp : ∀ row, p ≠ .running row) : WorkersGuar .dispatcher s s' := by
  refine ⟨hkeeps, ?_, ?_, hworkers, fun hne => absurd rfl hne⟩
  · intro ref' _ hjob'
    have hne : ref' ≠ ref := fun heq => hjob' (heq ▸ hjob)
    rw [hphase, Function.update_of_ne hne]
  · intro ref' row' _ hrow'
    rw [hphase] at hrow'
    by_cases heq : ref' = ref
    · rw [heq, Function.update_self] at hrow'
      exact absurd hrow' (hp row')
    · rwa [Function.update_of_ne heq] at hrow'

theorem launch_tended (hinline : svc.inline = false) (hsettled : Settled s) (h : Claimed row s) :
    Safe (machine svc permits) (LawfulRun base) workersContract .dispatcher (svc.launch row)
      (fun _ => Settled) s := by
  unfold Service.launch
  split
  · refine (apply_tended (settled_lasting.and (unlisted_lasting row.id)) (fun _ h => h.2)
      ⟨hsettled, h.free⟩).mono ?_
    exact fun _ _ h => h.1
  · rename_i k hk
    refine Code.safe_ask (settled_lasting.stable.and (claimed_stable row)) ⟨hsettled, h⟩ ?_
    intro s a ref s' hinv hs hexec hallow
    cases hexec
    obtain ⟨hinv', hclaimed, hsettled, hphase, hnext⟩ := hs.2.register hinv hs.1 rfl
    refine ⟨hinv', ⟨hallow.2.keeps, fun _ _ _ => rfl, fun _ _ _ h => h, fun _ _ h => .inl h,
      fun hne => absurd rfl hne⟩, ?_⟩
    rw [hinline]
    have hstable : workersContract.Stable .dispatcher fun s' : Sys W =>
        (Settled s' ∧ Claimed row s') ∧ s'.phase s.nextRef = .none ∧ s.nextRef < s'.nextRef := by
      refine (settled_lasting.stable.and (claimed_stable row)).and ?_
      intro u hu s₁ s₂ _ _ hguar h
      obtain ⟨hframe, -⟩ := hguar.frame hu
      rw [(hframe.phase _).still (by rw [h.1]; rfl), hframe.next]
      exact h
    refine Code.safe_act hstable ⟨⟨hsettled, hclaimed⟩, hphase, hnext⟩ ?_
    intro s₁ a _ s₁' hinv₁ hs₁ hexec hallow
    obtain ⟨⟨hsettled, hclaimed⟩, hphase, hnext⟩ := hs₁
    obtain ⟨hinv₁', hcreated, hremoved, hphase'⟩ :=
      hclaimed.put_worker (a := a) hinv₁ hsettled hphase hnext hexec
    refine ⟨hinv₁', dispatcher_guar hallow.2.keeps hremoved hphase' (by rw [hphase]; rfl)
      (fun _ h => nomatch h), ?_⟩
    refine Code.safe_last (created_stable row s.nextRef) hcreated settled_lasting.stable ?_
    intro s₂ a _ s₂' hinv₂ hs₂ hexec hallow
    obtain ⟨hinv₂', hsettled, hworkers, hphase'⟩ := hs₂.start_thread (a := a) hinv₂ hexec
    exact ⟨hinv₂', dispatcher_guar hallow.2.keeps (fun id ref href => .inl (by rwa [hworkers]))
      hphase' (by rw [hs₂.phase]; rfl)
      (fun _ h => nomatch h), hsettled⟩

variable {now : ℚ}

theorem claim_step {id : String} {a : Unit} {ok : Bool}
    (hlawful : Lawful (.update .claim id (some [.queued]) (claimedRow now)) s s')
    (hexec : exec t (.update .claim id (some [.queued]) (claimedRow now)) a s = some (ok, s')) :
    Still s s' ∧ (ok = true → s.status id = some .queued ∧ s'.status id = some .running) := by
  refine ⟨update_still hlawful (by simp) hexec, ?_⟩
  rintro rfl
  simp only [exec, Sys.update, Option.some.injEq] at hexec
  split at hexec
  · cases hexec
  · rename_i r hr
    obtain ⟨hget, hid⟩ := hlawful.found hr
    have hst : r.status = .queued := by
      simpa using (Ledger.matching_eq_some.mp hr).2 [.queued] rfl
    cases hexec
    refine ⟨by simp [Sys.status, hget, hst], ?_⟩
    have hwrite : (s.write t r (claimedRow now r)).status id = some .running := by
      rw [Sys.write_status hid, if_pos rfl]
      rfl
    exact hwrite

theorem Claimed.reread (h : Claimed row s) (hinv : WorkersInv s) :
    Claimed ((s.rows.get? row.id).getD row) s ∧ ((s.rows.get? row.id).getD row).id = row.id := by
  cases hr : s.rows.get? row.id with
  | none => exact ⟨h, rfl⟩
  | some r =>
      obtain ⟨hid, hknows⟩ := knows_of_get hinv.ledger hr
      refine ⟨⟨?_, hknows, ?_⟩, hid⟩
      · rw [Option.getD_some, hid]
        exact h.free
      · rw [Option.getD_some, hid]
        exact h.status

theorem start_loop_tended {limit : Int} {due : List Row} {held : List String} {count : Int}
    {started : Nat} (hinline : svc.inline = false) (h : Settled s)
    (hdue : ∀ row ∈ due, Knows row s) :
    Safe (machine svc permits) (LawfulRun base) workersContract .dispatcher
      (svc.startLoop now limit due held count started) (fun _ => Settled) s := by
  induction due generalizing held count started s with
  | nil => exact safe_ret settled_lasting.stable h fun _ h => h
  | cons row rest ih =>
      have hkept : (workersContract (W := W)).Kept fun s => ∀ r ∈ rest, Knows r s :=
        fun u s s' _ _ hguar hs r hr => hguar.keeps.knows (hs r hr)
      have hrest : ∀ r ∈ rest, Knows r s := fun r hr => hdue r (List.mem_cons_of_mem _ hr)
      have hstable := settled_lasting.stable.and (hkept.stable .dispatcher)
      have hrow := hdue row (List.mem_cons_self ..)
      unfold Service.startLoop
      split
      · rename_i clash hclash
        split
        · refine quiet_ask rfl hstable ⟨h, hrest⟩ ?_
          intro s _ _ s' _ _ hs' _ _
          exact ih hs'.1 hs'.2
        · exact ih h hrest
      · split
        · exact safe_ret settled_lasting.stable h fun _ h => h
        · refine Code.safe_ask (hstable.and (knows_lasting row).stable) ⟨⟨h, hrest⟩, hrow⟩ ?_
          intro s a ok s' hinv hs hexec hallow
          obtain ⟨hstill, hok⟩ := claim_step (a := a) hallow.2 hexec
          obtain ⟨hinv', hguar, hs'⟩ := hstill.step
            (hstable.and (knows_lasting row).stable) hinv hs
          refine ⟨hinv', hguar, ?_⟩
          split
          · rename_i htrue
            obtain ⟨hqueued, hrunning⟩ := hok htrue
            have hclaimed : Claimed row s' := by
              refine ⟨?_, hs'.2, by rw [hrunning]; simp⟩
              unfold Unlisted
              rw [hstill.workers, ← Option.not_isSome_iff_eq_none]
              intro hsome
              obtain ⟨ref, href⟩ := Option.isSome_iff_exists.mp hsome
              exact (hinv.listed row.id ref href).2 hqueued
            refine quiet_ask rfl (hstable.and (claimed_stable row)) ⟨hs'.1, hclaimed⟩ ?_
            intro s _ found s' hinv hs _ _ hexec
            cases hexec
            obtain ⟨hlaunch, -⟩ := hs.2.reread hinv
            refine safe_bind (((launch_tended hinline hs.1.1 hlaunch).frame hkept hs.1.2).mono ?_)
            intro _ s hs
            refine Code.safe_ask hstable hs ?_
            intro s a after s' hinv hs hexec hallow
            cases hexec
            have hstill : Still s (s.note .dispatcher (.reread row.id)) :=
              ⟨hallow.2.keeps, hallow.2.after, rfl, rfl, rfl, fun _ _ h => h⟩
            obtain ⟨hinv', hguar, hs'⟩ := hstill.step hstable hinv hs
            refine ⟨hinv', hguar, ?_⟩
            split
            · split
              · exact ih hs'.1 hs'.2
              · exact ih hs'.1 hs'.2
            · exact ih hs'.1 hs'.2
          · exact ih hs'.1.1 hs'.1.2

theorem Ledger.get_of_mem_due {rows : Ledger} (h : row ∈ rows.due now) :
    ∃ id, rows.get? id = some row := by
  simp only [Ledger.due, mem_sorted_by, Ledger.values, List.mem_filter, List.mem_map] at h
  obtain ⟨⟨⟨id, r⟩, hmem, rfl⟩, -⟩ := h
  exact ⟨id, Dict.mem_items_iff.mp hmem⟩

theorem start_due_tended (hinline : svc.inline = false) (h : Settled s) :
    Safe (machine svc permits) (LawfulRun base) workersContract .dispatcher (svc.startDue now)
      (fun _ => Settled) s := by
  refine quiet_ask rfl settled_lasting.stable h ?_
  intro s _ running s' _ _ hs' _ _
  refine quiet_ask rfl settled_lasting.stable hs' ?_
  intro s _ ids s' _ _ hs' _ _
  refine quiet_seq (Service.quiet_of_plain (Service.worker_rows_plain _ _))
    settled_lasting.stable hs' ?_
  intro live s hs
  refine quiet_ask rfl settled_lasting.stable hs ?_
  intro s _ workers s' _ _ hs' _ _
  refine quiet_ask rfl settled_lasting.stable hs' ?_
  intro s _ due s' hinv hs _ _ hexec
  cases hexec
  refine start_loop_tended hinline hs ?_
  intro row hrow
  obtain ⟨id, hget⟩ := Ledger.get_of_mem_due hrow
  exact (knows_of_get hinv.ledger hget).2

theorem tick_tended (hinline : svc.inline = false) (h : Settled s) :
    Safe (machine svc permits) (LawfulRun base) workersContract .dispatcher svc.tick
      (fun _ => Settled) s := by
  refine quiet_ask rfl settled_lasting.stable h ?_
  intro s _ now s' _ _ hs' _ _
  refine safe_bind ((reap_tended hs').mono ?_)
  intro _ s hs
  refine quiet_seq (Service.quiet_of_tame (Service.timeouts_tame now)) settled_lasting.stable hs ?_
  intro _ s hs
  refine quiet_seq (Service.quiet_of_plain (Service.leases_plain now))
    settled_lasting.stable hs ?_
  intro _ s hs
  refine safe_bind ((start_due_tended hinline hs).mono ?_)
  intro _ s hs
  refine quiet_ask rfl settled_lasting.stable hs ?_
  intro s _ sweeps s' _ _ hs' _ _
  split
  · refine quiet_ask rfl settled_lasting.stable hs' ?_
    intro s _ days s' _ _ hs' _ _
    refine Code.safe_last settled_lasting.stable hs' settled_lasting.stable ?_
    intro s a _ s' hinv hs hexec hallow
    exact (sweep_still (a := a) hallow.2 hexec).step settled_lasting.stable hinv hs
  · exact safe_ret settled_lasting.stable hs' fun _ h => h

theorem worker_step {p : Phase} (hinv : WorkersInv s) (hkeeps : Keeps s s')
    (hsame : SameLedger s s') (hworkers : s'.workers = s.workers)
    (hphase : s'.phase = Function.update s.phase ref p) (hgoes : (s.phase ref).Goes p) :
    WorkersInv s' ∧ WorkersGuar (.worker ref) s s' := by
  have hframe : Frame s s' := by
    refine ⟨hworkers, ?_, hsame.next⟩
    intro ref'
    rw [hphase]
    by_cases heq : ref' = ref
    · rw [heq, Function.update_self]
      exact hgoes
    · rw [Function.update_of_ne heq]
      exact .same _
  have hun : Unqueued s s' := fun id _ hst => by rwa [hsame.status] at hst
  have hother : ∀ ref', Tid.worker ref ≠ .worker ref' → s'.phase ref' = s.phase ref' := by
    intro ref' hne
    have hne : ref' ≠ ref := fun heq => hne (by rw [heq])
    rw [hphase, Function.update_of_ne hne]
  refine ⟨hinv.frame (hsame.ledger hinv.ledger) hkeeps hframe
    fun _ _ href => hinv.unqueued hun href, hkeeps, fun ref' hne _ => hother ref' hne, ?_,
    fun id ref' href' => .inl (by rwa [hworkers]), fun _ => ⟨hframe, hun⟩⟩
  intro ref' row hne hrow
  rw [← hother ref' hne]
  exact hrow

theorem phase_stable {p : Phase} (hp : p.job ≠ none) :
    workersContract.Stable (.worker ref) fun s : Sys W => s.phase ref = p := by
  intro u hu s s' _ _ hguar h
  rw [hguar.own ref hu (by rw [h]; exact hp), h]

theorem work_tended {k : Kind W} (h : s.phase ref = .started row) :
    Safe (machine svc permits) (LawfulRun base) workersContract (.worker ref)
      (Service.work k row ref) (fun _ s => ∀ row, s.phase ref ≠ .running row) s := by
  refine Code.safe_act (phase_stable (p := .started row) (by simp [Phase.job])) h ?_
  intro s a _ s' hinv hs hexec hallow
  cases hexec
  obtain ⟨hinv', hguar⟩ := worker_step hinv hallow.2.keeps ⟨rfl, rfl, rfl⟩ rfl rfl
    (by rw [hs]; exact .enters row)
  refine ⟨hinv', hguar, ?_⟩
  refine quiet_seq (Service.quiet_of_plain (Service.run_plain k row ref))
    (phase_stable (p := .running row) (by simp [Phase.job])) (Function.update_self ..) ?_
  intro result s hs
  refine Code.safe_last (phase_stable (p := .running row) (by simp [Phase.job])) hs
    (fun u hu s s' _ _ hguar h row hrow => h row (hguar.enter ref row hu hrow)) ?_
  intro s a _ s' hinv hs hexec hallow
  cases hexec
  obtain ⟨hinv', hguar⟩ := worker_step hinv hallow.2.keeps ⟨rfl, rfl, rfl⟩ rfl rfl
    (by rw [hs]; exact .leaves row _)
  refine ⟨hinv', hguar, ?_⟩
  intro row' hrow'
  simp only [Function.update_self] at hrow'
  cases hrow'

/-- While a thread is idle, the others keep what is known of it. -/
theorem workers_idle_stable (t : Tid) : workersContract.Stable t (WorkersIdle (W := W) t) := by
  cases t with
  | dispatcher => exact settled_lasting.stable
  | request n => exact Contract.stable_const True
  | worker ref => exact fun u hu s s' _ _ hguar h row hrow => h row (hguar.enter ref row hu hrow)

theorem workers_start_tended {call : Call} {p : Code W Unit} (hinline : svc.inline = false)
    (hpermits : permits .recover = false) (h : WorkersIdle t s)
    (hp : (machine svc permits).start t call s = some p) :
    Safe (machine svc permits) (LawfulRun base) workersContract t p
      (fun _ => WorkersIdle t) s := by
  have hquiet : ∀ {q : Code W Unit}, q.All Op.Quiet → Safe (machine svc permits)
      (LawfulRun base) workersContract t q (fun _ => WorkersIdle t) s :=
    fun hq => quiet_tended hq (workers_idle_stable t) h
  simp only [machine, start] at hp
  split at hp
  · cases hp
  · rename_i hcall
    split at hp
    · cases hp
      exact tick_tended hinline h
    · simp [hpermits] at hcall
    · cases hp
      exact hquiet (Service.quiet_of_plain
        (Code.all_seq (Service.submit_plain _) fun _ => trivial))
    · cases hp
      exact hquiet (Code.all_seq (Service.cancel_quiet _ _ _) fun _ => trivial)
    · cases hp
      exact hquiet (Service.quiet_of_plain (Code.all_seq (Service.ack_plain _ _) fun _ => trivial))
    · cases hp
      exact hquiet ⟨⟨trivial, rfl⟩, fun _ => trivial⟩
    · cases hp
      exact hquiet ⟨⟨trivial, rfl⟩, fun _ => trivial⟩
    · split at hp
      · rename_i row hrow
        rw [Option.map_eq_some_iff] at hp
        obtain ⟨k, -, rfl⟩ := hp
        exact work_tended hrow
      · cases hp
    · cases hp

end Tending

/-- An operation of a threaded service that never recovers: lawful, and it keeps the promise
about the workers. -/
structure Tended (t : Tid) (op : Op W) (s s' : Sys W) : Prop where
  lawful : Lawful op s s'
  before : WorkersInv s
  after : WorkersInv s'
  guar : WorkersGuar t s s'

/-- At first there are no workers. -/
theorem workers_inv_boot {rows : Ledger} (hrows : rows.Consistent) :
    WorkersInv (Sys.boot rows : Sys W) := by
  refine ⟨ledger_boot hrows, ?_, ?_, ?_, fun _ _ => rfl⟩
  · exact fun _ _ hrow => nomatch hrow
  · exact fun _ _ hrow => nomatch hrow
  · exact fun _ _ href => nomatch href

/-- In every run of a threaded service without `recover` the promise about the workers is
kept. -/
theorem tended_run {svc : Service W} {permits : Call → Bool} {rows : Ledger}
    {allow : Condition Tid (Op W) (Sys W)} {c : Config Tid (Op W) (Res W) (Sys W)}
    (hrows : rows.Consistent) (hinline : svc.inline = false) (hpermits : permits .recover = false)
    (h : Reachable (machine svc permits) allow (Sys.boot rows) c) :
    Reachable (machine svc permits) (fun t op s s' => allow t op s s' ∧ Tended t op s s')
      (Sys.boot rows) c := by
  have hidle : ∀ t, WorkersIdle t (Sys.boot rows : Sys W) := by
    intro t
    cases t with
    | dispatcher => exact fun id ref href => nomatch href
    | request n => trivial
    | worker ref => exact fun row hrow => nomatch hrow
  refine (workersContract.strengthen (workers_inv_boot hrows) hidle workers_idle_stable
    (fun t call s p _ hs hp => workers_start_tended hinline hpermits hs hp)
    (lawful_run hrows hpermits h)).mono ?_
  rintro t op s s' ⟨⟨hallow, hlawful⟩, hinv, hinv', hguar⟩
  exact ⟨hallow, hlawful, hinv, hinv', hguar⟩

theorem Op.Quiet.moves (h : op.Quiet) : op.moves = false := by
  cases op with
  | putWorker id ref row => cases h.2
  | startThread ref => cases h.2
  | enter ref row => cases h.2
  | leave ref outcome => cases h.2
  | _ => rfl

end SystemsManager.Jobs
