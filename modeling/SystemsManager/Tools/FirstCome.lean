import SystemsManager.Jobs.Submission
import SystemsManager.Tools.Queue

/-!
# First come, first served

Whether the tool runs of a host start in the order of their submission. `_start_due` goes
through the due rows by `next_run`, and a run that finds its host busy is put back with a
`next_run` in the future, so that a later submission may overtake it (`overtaken`).
`FirstCome` excludes that at every read of the due rows, together with cancels and failures of
tool runs; `first_come` is the result: the accepted starts of a host are then in the order of
submission. The invariant is `Behind`: when a job is claimed, the earlier jobs of its host are
over.
-/

namespace SystemsManager.Tools

open Python Concurrency Jobs Relation

variable {V : World}

/-- The job is a tool run. -/
def toolRow (s : Sys (ToolWorld V)) (id : String) : Bool :=
  (s.rows.get? id).any fun r => r.kind == KIND

/-- A due row has no empty key, and the waiting tool runs that were submitted before it for the
same host come before it among the due rows. -/
def comesInOrder (d : Deps) (s : Sys (ToolWorld V)) (due : List Row) (y : Row) : Bool :=
  !y.exclusive.contains "" && (y.kind != KIND || (s.earlier y.id).all fun x =>
    (s.rows.get? x).all fun r => r.kind != KIND || perfKey d r.spec != perfKey d y.spec ||
      r.status != .queued || [x, y.id].isSublist (due.map Row.id))

/-- No tool run is cancelled or fails, and the due rows come in order. -/
def firstCome (d : Deps) (op : Op (ToolWorld V)) (s : Sys (ToolWorld V)) : Bool :=
  match op with
  | .cancelRow id _ _ => !toolRow s id
  | .update .failed id _ _ => !toolRow s id
  | .due now => (s.rows.due now).all (comesInOrder d s (s.rows.due now))
  | _ => true

/-- The condition of the runs in which tool runs start in order. -/
abbrev FirstCome (d : Deps) : Condition Tid (Op (ToolWorld V)) (Sys (ToolWorld V)) :=
  fun _ op s _ => firstCome d op s = true

/-- The rows with which worker threads were invoked, newest first, and the rows of the runs whose
start was accepted, in the order of the calls. -/
structure Trace where
  jobs : List (Ref × Row)
  starts : List Row

/-- One more event. -/
def Trace.step (tr : Trace) (t : Tid) (e : Event (ToolWorld V)) : Trace :=
  match t, e with
  | .worker ref, .entered row => { tr with jobs := (ref, row) :: tr.jobs }
  | .worker ref, .ext (.inl (.agentCall .start _ _ _ _ _)) (.ok (some resp)) =>
      match tr.jobs.lookup ref with
      | some row => if accepted resp then { tr with starts := tr.starts ++ [row] } else tr
      | none => tr
  | _, _ => tr

/-- The trace of a history. -/
def trace (log : List (Tid × Event (ToolWorld V))) : Trace :=
  log.foldl (fun tr entry => tr.step entry.1 entry.2) ⟨[], []⟩

/-- The jobs whose start the agent has accepted, in the order of the calls. -/
def startedJobs (log : List (Tid × Event (ToolWorld V))) : List Row := (trace log).starts

theorem trace_append (log : List (Tid × Event (ToolWorld V))) (t : Tid) (e : Event (ToolWorld V)) :
    trace (log ++ [(t, e)]) = (trace log).step t e := by
  simp [trace, List.foldl_append]

/-- The operation invokes a handler or calls the outside. -/
def marks : Op (ToolWorld V) → Bool
  | .enter _ _ => true
  | .ext _ => true
  | _ => false

theorem trace_exec {s s' : Sys (ToolWorld V)} {t : Tid} {op : Op (ToolWorld V)}
    {a : Ans (ToolWorld V) op} {r : Res (ToolWorld V) op}
    (h : (∀ ref, t ≠ .worker ref) ∨ marks op = false) (hexec : exec t op a s = some (r, s')) :
    trace s'.log = trace s.log := by
  obtain ⟨new, hlog, hnew⟩ := log_step hexec
  have hstep : ∀ entry ∈ new, ∀ tr : Trace, tr.step entry.1 entry.2 = tr := by
    rintro ⟨u, e⟩ hmem tr
    obtain ⟨rfl, hnotes⟩ := hnew u e hmem
    rcases h with hworker | hmarks
    · cases u with
      | worker ref => exact absurd rfl (hworker ref)
      | _ => rfl
    · cases e with
      | entered row =>
          obtain ⟨ref, rfl⟩ := hnotes
          cases hmarks
      | ext e reply =>
          cases hnotes
          cases hmarks
      | _ =>
          cases u with
          | _ => rfl
  rw [hlog, trace, List.foldl_append, ← trace]
  generalize trace s.log = tr
  clear hlog hnew
  induction new with
  | nil => rfl
  | cons first rest ih =>
      rw [List.foldl_cons, hstep first (List.mem_cons_self ..)]
      exact ih fun entry hmem => hstep entry (List.mem_cons_of_mem _ hmem)

/-- The tool runs that were submitted for the same host before the job are over. -/
def Behind (d : Deps) (row : Row) (s : Sys (ToolWorld V)) : Prop :=
  ∀ x ∈ s.earlier row.id, ∀ r, s.rows.get? x = some r → r.kind = KIND →
    perfKey d r.spec = perfKey d row.spec → r.status.terminal = true

/-- The first of two started jobs is the same as the second or was submitted before it, where
they are tool runs of one host. -/
def InOrder (d : Deps) (s : Sys (ToolWorld V)) (row row' : Row) : Prop :=
  row.kind = KIND → row'.kind = KIND → perfKey d row.spec = perfKey d row'.spec →
    row.id = row'.id ∨ row.id ∈ s.earlier row'.id

/-- What is known of the tool runs. -/
structure OrderInv (d : Deps) (s : Sys (ToolWorld V)) : Prop where
  workers : WorkersInv s
  keyed : ∀ id r, s.rows.get? id = some r → r.kind = KIND → r.exclusive = [perfKey d r.spec]
  alive : ∀ ref row, (s.phase ref).job = some row → row.kind = KIND →
    s.status row.id = some .running ∧ Behind d row s
  traced : ∀ ref row, s.phase ref = .running row → (trace s.log).jobs.lookup ref = some row
  started : ∀ row ∈ startedJobs s.log, row.kind = KIND → row.id ∈ s.ids ∧ Behind d row s
  sorted : (startedJobs s.log).Pairwise (InOrder d s)

/-- A step that neither ends nor requeues a tool run and makes no job running. -/
structure Quietly (s s' : Sys (ToolWorld V)) : Prop where
  status : ∀ id, toolRow s id = true → s'.status id = s.status id
  running : ∀ id, s'.status id = some .running → s.status id = some .running

/-- What a thread may do to the tool runs. -/
structure OrderGuar (t : Tid) (s s' : Sys (ToolWorld V)) : Prop where
  workers : WorkersGuar t s s'
  earlier : ∀ id ∈ s.ids, s'.earlier id = s.earlier id
  quietly : t ≠ .dispatcher → Quietly s s'

/-- The promise of every thread about the tool runs. -/
def orderContract (d : Deps) : Contract Tid (Sys (ToolWorld V)) where
  inv := OrderInv d
  guar := OrderGuar
  idle _ _ := True

/-- A tool run is inserted with the key of its host. -/
def Keyed (d : Deps) (op : Op (ToolWorld V)) : Prop :=
  ∀ row, op = .insert row → row.kind = KIND → row.exclusive = [perfKey d row.spec]

/-- The condition of the runs of which the order is looked at. -/
abbrev OrderRun (d : Deps) : Condition Tid (Op (ToolWorld V)) (Sys (ToolWorld V)) :=
  fun t op s s' => (FirstCome d t op s s' ∧ Keyed d op) ∧ Tended t op s s'

section Order

variable {d : Deps} {s s' : Sys (ToolWorld V)} {t : Tid}

variable {row : Row}

theorem Behind.step (h : Behind d row s) (hid : row.id ∈ s.ids) (hkeeps : Keeps s s')
    (hearlier : ∀ id ∈ s.ids, s'.earlier id = s.earlier id) : Behind d row s' := by
  intro x hx r' hr' hkind hhost
  rw [hearlier row.id hid] at hx
  cases hr : s.rows.get? x with
  | none =>
      rw [hkeeps.absent x (Sys.earlier_subset hx) hr] at hr'
      cases hr'
  | some r =>
      have hjob := hkeeps.job x r r' hr hr'
      rw [hjob.kind] at hkind
      rw [hjob.spec] at hhost
      have hterm := h x hx r hr hkind hhost
      rw [hkeeps.terminal x r r' hr hterm hr']
      exact hterm

/-- What is known of the tool runs after a step that starts none. -/
theorem OrderInv.step (h : OrderInv d s) (hworkers : WorkersInv s') (hkeeps : Keeps s s')
    (hearlier : ∀ id ∈ s.ids, s'.earlier id = s.earlier id)
    (hkeyed : ∀ id r, s'.rows.get? id = some r → r.kind = KIND → id ∉ s.ids →
      r.exclusive = [perfKey d r.spec])
    (halive : ∀ ref row, (s'.phase ref).job = some row → row.kind = KIND →
      s'.status row.id = some .running ∧ Behind d row s')
    (htraced : ∀ ref row, s'.phase ref = .running row → (trace s'.log).jobs.lookup ref = some row)
    (hstarts : startedJobs s'.log = startedJobs s.log) : OrderInv d s' := by
  refine ⟨hworkers, ?_, halive, htraced, ?_, ?_⟩
  · intro id r' hr' hkind
    by_cases hid : id ∈ s.ids
    · cases hr : s.rows.get? id with
      | none =>
          rw [hkeeps.absent id hid hr] at hr'
          cases hr'
      | some r =>
          have hjob := hkeeps.job id r r' hr hr'
          rw [hjob.kind] at hkind
          rw [hjob.exclusive, hjob.spec]
          exact h.keyed id r hr hkind
    · exact hkeyed id r' hr' hkind hid
  · intro row hrow hkind
    rw [hstarts] at hrow
    obtain ⟨hid, hbehind⟩ := h.started row hrow hkind
    exact ⟨hkeeps.ids _ hid, hbehind.step hid hkeeps hearlier⟩
  · rw [hstarts]
    refine h.sorted.imp_of_mem ?_
    intro row row' _ hrow' horder hkind hkind' hhost
    rw [hearlier row'.id (h.started row' hrow' hkind').1]
    exact horder hkind hkind' hhost

theorem OrderInv.traced_step (h : OrderInv d s) (htrace : trace s'.log = trace s.log)
    (hrunning : ∀ ref row, s'.phase ref = .running row → s.phase ref = .running row) :
    (∀ ref row, s'.phase ref = .running row → (trace s'.log).jobs.lookup ref = some row) ∧
      startedJobs s'.log = startedJobs s.log := by
  refine ⟨?_, by rw [startedJobs, htrace, startedJobs]⟩
  intro ref row hrow
  rw [htrace]
  exact h.traced ref row (hrunning ref row hrow)

theorem OrderInv.tool_row (h : OrderInv d s) {ref : Ref} (hjob : (s.phase ref).job = some row)
    (hkind : row.kind = KIND) : toolRow s row.id = true := by
  obtain ⟨hst, -⟩ := h.alive ref row hjob hkind
  simp only [Sys.status, Option.map_eq_some_iff] at hst
  obtain ⟨r, hr, -⟩ := hst
  have hsame := (h.workers.known ref row hjob).2 r hr
  simp [toolRow, hr, hsame.kind, hkind]

variable {op : Op (ToolWorld V)}

/-- A tool run whose thread is alive stays running and behind the earlier ones, unless the
operation is about it. -/
theorem OrderInv.alive_step (h : OrderInv d s) {a : Ans (ToolWorld V) op} {r : Res (ToolWorld V) op}
    (hlawful : Lawful op s s') (hexec : exec t op a s = some (r, s')) {ref : Ref}
    (hjob : (s.phase ref).job = some row) (hkind : row.kind = KIND)
    (hop : op.restates row.id = false) : s'.status row.id = some .running ∧ Behind d row s' := by
  obtain ⟨hst, hbehind⟩ := h.alive ref row hjob hkind
  have hid := (h.workers.known ref row hjob).1
  refine ⟨?_, hbehind.step hid hlawful.keeps fun id hid => earlier_step hexec hid⟩
  rcases status_step hlawful hexec row.id with hsame | ⟨hnew, -⟩ | hrestates | ⟨-, st, hterm⟩
  · rw [hsame, hst]
  · exact absurd hid hnew
  · rw [hop] at hrestates
    cases hrestates
  · rw [hst] at hterm
    obtain ⟨heq, hterm⟩ := hterm
    cases heq
    cases hterm

theorem new_row_keyed {a : Ans (ToolWorld V) op} {r : Res (ToolWorld V) op} (hop : Keyed d op)
    (hlawful : Lawful op s s') (hexec : exec t op a s = some (r, s')) {id : String}
    (hrow : s'.rows.get? id = some row) (hkind : row.kind = KIND) (hid : id ∉ s.ids) :
    row.exclusive = [perfKey d row.spec] := by
  have hold : ∀ r, s.rows.get? id ≠ some r := fun r hr => hid (hlawful.before.2 id r hr)
  cases rows_step hexec with
  | same hrows =>
      rw [hrows] at hrow
      exact absurd hrow (hold row)
  | write other old new hget hrows hended =>
      rw [hrows, Dict.get?_set] at hrow
      split at hrow
      · rename_i heq
        have hother := (hlawful.before.1 other old hget).1
        rw [heq, hother] at hid
        exact absurd (hlawful.before.2 other old hget) hid
      · exact absurd hrow (hold row)
  | insert new other heq hother hrows =>
      rw [hrows, Dict.get?_set] at hrow
      split at hrow
      · cases hrow
        exact hop new heq hkind
      · exact absurd hrow (hold row)
  | sweep cutoff heq hrows =>
      rw [hrows, Ledger.sweep, Dict.get?_filter, Option.filter_eq_some_iff] at hrow
      exact absurd hrow.1 (hold row)

/-- The operation writes an outcome, or requeues a job after a restart. -/
def settles : Op (ToolWorld V) → Bool
  | .update (.outcome _) _ _ _ => true
  | .update .requeue _ _ _ => true
  | _ => false

/-- The operation tends no job and settles none. -/
def Easy (op : Op (ToolWorld V)) : Prop := op.tends = false ∧ settles op = false

theorem Easy.restates_not (h : Easy op) (hallow : firstCome d op s = true) {id : String}
    (hid : toolRow s id = true) : op.restates id = false := by
  obtain ⟨htends, hsettles⟩ := h
  cases op with
  | update site id' only set =>
      cases site with
      | claim => cases htends
      | outcome st => cases hsettles
      | requeue => cases hsettles
      | failed =>
          simp only [firstCome, Bool.not_eq_true'] at hallow
          rw [← Bool.not_eq_true]
          intro heq
          rw [eq_of_beq heq, hid] at hallow
          cases hallow
      | _ => rfl
  | cancelRow id' now message =>
      simp only [firstCome, Bool.not_eq_true'] at hallow
      rw [← Bool.not_eq_true]
      intro heq
      rw [eq_of_beq heq, hid] at hallow
      cases hallow
  | _ => rfl

/-- What the other threads do, and what the dispatcher does between two claims. -/
structure Aside (s s' : Sys (ToolWorld V)) : Prop where
  keeps : Keeps s s'
  earlier : ∀ id ∈ s.ids, s'.earlier id = s.earlier id
  quietly : Quietly s s'

theorem aside_exec {a : Ans (ToolWorld V) op} {r : Res (ToolWorld V) op} (hlawful : Lawful op s s')
    (hexec : exec t op a s = some (r, s')) (hsweeps : op.sweeps = false)
    (hclaim : ∀ id only set, op ≠ .update .claim id only set)
    (hrestates : ∀ id, toolRow s id = true → op.restates id = false) : Aside s s' := by
  refine ⟨hlawful.keeps, fun id hid => earlier_step hexec hid, ?_, ?_⟩
  · intro id hid
    rcases status_step hlawful hexec id with hsame | ⟨hnew, -⟩ | htrue | ⟨htrue, -⟩
    · exact hsame
    · simp only [toolRow, Option.any_eq_true] at hid
      obtain ⟨row, hrow, -⟩ := hid
      exact absurd (hlawful.before.2 id row hrow) hnew
    · rw [hrestates id hid] at htrue
      cases htrue
    · rw [hsweeps] at htrue
      cases htrue
  · exact fun id hid => running_step hlawful hexec hid (hclaim id)

theorem Easy.aside {a : Ans (ToolWorld V) op} {r : Res (ToolWorld V) op} (h : Easy op)
    (hallow : OrderRun d t op s s') (hexec : exec t op a s = some (r, s')) : Aside s s' := by
  refine aside_exec hallow.2.lawful hexec ?_ ?_ fun id hid => h.restates_not hallow.1.1 hid
  · cases op with
    | sweep cutoff => cases h.1
    | _ => rfl
  · rintro id only set rfl
    cases h.1

theorem unmoved_order_step {a : Ans (ToolWorld V) op} {r : Res (ToolWorld V) op}
    (hinv : OrderInv d s) (hallow : OrderRun d t op s s') (hexec : exec t op a s = some (r, s'))
    (hmoves : op.moves = false) (hmarks : (∀ ref, t ≠ .worker ref) ∨ marks op = false)
    (hrestates : ∀ ref row, (s.phase ref).job = some row → row.kind = KIND →
      op.restates row.id = false) : OrderInv d s' := by
  have hphase := (scope hexec).phase hmoves
  have hlawful := hallow.2.lawful
  obtain ⟨htraced, hstarts⟩ := hinv.traced_step (trace_exec hmarks hexec)
    fun ref row hrow => by rwa [hphase] at hrow
  refine hinv.step hallow.2.after hlawful.keeps (fun id hid => earlier_step hexec hid)
    (fun id row hrow hkind hid => new_row_keyed hallow.1.2 hlawful hexec hrow hkind hid) ?_
    htraced hstarts
  intro ref row hjob hkind
  rw [hphase] at hjob
  exact hinv.alive_step hlawful hexec hjob hkind (hrestates ref row hjob hkind)

theorem Easy.step {a : Ans (ToolWorld V) op} {r : Res (ToolWorld V) op} (h : Easy op)
    (hinv : OrderInv d s) (hallow : OrderRun d t op s s') (hexec : exec t op a s = some (r, s'))
    (hmarks : (∀ ref, t ≠ .worker ref) ∨ marks op = false) : OrderInv d s' ∧ OrderGuar t s s' := by
  have haside := h.aside hallow hexec
  have hmoves : op.moves = false := by
    cases op with
    | putWorker id ref row => cases h.1
    | startThread ref => cases h.1
    | enter ref row => cases h.1
    | leave ref outcome => cases h.1
    | _ => rfl
  refine ⟨unmoved_order_step hinv hallow hexec hmoves hmarks ?_, hallow.2.guar, haside.earlier,
    fun _ => haside.quietly⟩
  exact fun ref row hjob hkind => h.restates_not hallow.1.1 (hinv.tool_row hjob hkind)

/-- The assertion survives what the other threads do. -/
def Persists (P : Sys (ToolWorld V) → Prop) : Prop := ∀ s s', Aside s s' → P s → P s'

/-- What persists is stable for the dispatcher. -/
theorem Persists.stable {P : Sys (ToolWorld V) → Prop} (h : Persists P) :
    (orderContract d).Stable .dispatcher P :=
  fun _ hu s s' _ _ hguar hs =>
    h s s' ⟨hguar.workers.keeps, hguar.earlier, hguar.quietly hu⟩ hs

end Order

section Dispatch

variable {d : Deps} {svc : Service (ToolWorld V)} {permits : Call → Bool}
variable {s : Sys (ToolWorld V)} {t : Tid}

variable {P : Sys (ToolWorld V) → Prop}

theorem easy_safe {α : Type} {p : Code (ToolWorld V) α} (ht : ∀ ref, t ≠ .worker ref)
    (hp : p.All Easy) (hP : Persists P) (hstable : (orderContract d).Stable t P) (h : P s) :
    Safe (machine svc permits) (OrderRun d) (orderContract d) t p (fun _ => P) s := by
  refine safe_of_all hp hstable h ?_ fun _ _ h => h
  intro op hop s a r s' hinv hs hexec hallow
  obtain ⟨hinv', hguar⟩ := hop.step hinv hallow hexec (.inl ht)
  exact ⟨hinv', hguar, hP s s' (hop.aside hallow hexec) hs⟩

theorem easy_seq {α β : Type} {p : Code (ToolWorld V) α} {f : α → Code (ToolWorld V) β}
    {Q : β → Sys (ToolWorld V) → Prop} (hp : p.All Easy) (hP : Persists P) (h : P s)
    (hrest : ∀ a s, P s →
      Safe (machine svc permits) (OrderRun d) (orderContract d) .dispatcher (f a) Q s) :
    Safe (machine svc permits) (OrderRun d) (orderContract d) .dispatcher (p >>= f) Q s :=
  safe_bind ((easy_safe (by simp) hp hP hP.stable h).mono hrest)

theorem easy_ask {β : Type} {op : Op (ToolWorld V)}
    {f : Res (ToolWorld V) op → Code (ToolWorld V) β} {Q : β → Sys (ToolWorld V) → Prop}
    (hop : Easy op) (hP : Persists P) (h : P s)
    (hrest : ∀ s a r s', OrderInv d s → OrderRun d .dispatcher op s s' → P s → P s' →
      exec .dispatcher op a s = some (r, s') →
      Safe (machine svc permits) (OrderRun d) (orderContract d) .dispatcher (f r) Q s') :
    Safe (machine svc permits) (OrderRun d) (orderContract d) .dispatcher
      (Code.ask op >>= f) Q s := by
  refine Code.safe_ask hP.stable h ?_
  intro s a r s' hinv hs hexec hallow
  obtain ⟨hinv', hguar⟩ := hop.step hinv hallow hexec (.inl (by simp))
  have hs' := hP s s' (hop.aside hallow hexec) hs
  exact ⟨hinv', hguar, hrest s a r s' hinv hallow hs hs' hexec⟩

theorem easy_covers : Service.Covers (Easy (V := V)) := by
  refine ⟨?_, fun _ _ _ _ => ⟨rfl, rfl⟩⟩
  intro op hwrites htends
  refine ⟨htends, ?_⟩
  cases op with
  | update site id only set => cases hwrites
  | _ => rfl

theorem unlisted_order_stable (ids : List String) : (orderContract d).Stable .dispatcher
    fun s : Sys (ToolWorld V) => ∀ id ∈ ids, Unlisted id s := by
  intro u hu s s' hinv hinv' hguar h id hid
  obtain ⟨hframe, -⟩ := hguar.workers.frame hu
  exact unlisted_lasting id s s' hinv.workers hinv'.workers hguar.workers.keeps hframe (h id hid)

/-- `_apply` is easy but for the write of the outcome. -/
theorem apply_easy_or (id : String) (outcome : Outcome) :
    (svc.apply id outcome).All fun op => Easy op ∨
      ∃ st only set, op = .update (.outcome st) id only set := by
  refine Service.apply_covered ⟨?_, ?_⟩ id outcome fun _ _ _ => .inr ⟨_, _, _, rfl⟩
  · exact fun op hwrites htends => .inl (easy_covers.other op hwrites htends)
  · exact fun row message now attempts => .inl (easy_covers.failed row message now attempts)

/-- `_apply`, for a job without a worker. -/
theorem apply_order_safe {id : String} {outcome : Outcome} {ids : List String} (hid : id ∈ ids)
    (h : ∀ id ∈ ids, Unlisted id s) :
    Safe (machine svc permits) (OrderRun d) (orderContract d) .dispatcher
      (svc.apply id outcome) (fun _ s => ∀ id ∈ ids, Unlisted id s) s := by
  refine safe_of_all (apply_easy_or id outcome) (unlisted_order_stable ids) h ?_ fun _ _ h => h
  intro op hop s a r s' hinv hs hexec hallow
  have hexec : exec .dispatcher op a s = some (r, s') := hexec
  rcases hop with heasy | ⟨st, only, set, rfl⟩
  · obtain ⟨hinv', hguar⟩ := heasy.step hinv hallow hexec (.inl (by simp))
    have hstill := still_exec heasy.1 hallow.2.lawful hexec
    refine ⟨hinv', hguar, ?_⟩
    intro other hother
    unfold Unlisted
    rw [hstill.workers]
    exact hs other hother
  · refine ⟨unmoved_order_step hinv hallow hexec rfl (.inr rfl) ?_, ⟨hallow.2.guar,
      fun id hid => earlier_step hexec hid, fun hne => absurd rfl hne⟩, ?_⟩
    · -- The thread of the job has ended, so that no thread that is alive has this job.
      intro ref row hjob _
      have htable := hinv.workers.table ref row hjob
      rw [Op.restates, beq_eq_false_iff_ne]
      rintro rfl
      rw [hs row.id hid] at htable
      cases htable
    · intro other hother
      unfold Unlisted
      rw [(scope hexec).workers rfl]
      exact hs other hother

theorem reap_order_safe :
    Safe (machine svc permits) (OrderRun d) (orderContract d) .dispatcher svc.reap
      (fun _ _ => True) s := by
  refine Code.safe_ask (Contract.stable_const True) trivial ?_
  intro s a done s' hinv _ hexec hallow
  refine ⟨unmoved_order_step hinv hallow hexec rfl (.inr rfl) fun _ _ _ _ => rfl,
    ⟨hallow.2.guar, fun id hid => earlier_step hexec hid, fun hne => absurd rfl hne⟩, ?_⟩
  have hfree : ∀ id ∈ done.map Prod.fst, Unlisted id s' := by
    intro id hid
    obtain ⟨item, hitem, rfl⟩ := List.mem_map.mp hid
    exact reaped_unlisted (a := a) hexec hitem
  refine safe_for_each (J := fun rest s => rest ⊆ done ∧ ∀ id ∈ done.map Prod.fst, Unlisted id s)
    ((Contract.stable_const _).and (unlisted_order_stable _)) ⟨fun _ h => h, hfree⟩ ?_
    fun _ _ => trivial
  intro item rest s hs
  have hitem := List.mem_map_of_mem (f := Prod.fst) (hs.1 (List.mem_cons_self ..))
  refine (apply_order_safe hitem hs.2).mono ?_
  intro _ s hs'
  exact ⟨fun x hx => hs.1 (List.mem_cons_of_mem _ hx), hs'⟩

end Dispatch

end SystemsManager.Tools
