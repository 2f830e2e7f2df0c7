import SystemsManager.Jobs.Steps

/-!
# The operations of the service

Which operations the code of the service can perform, said once. `UpdateShape` lists every
guarded `UPDATE` with its guard and the columns it sets, and `Op.Issued` says that an operation
is one that the code performs; the requeue of `recover`, which has no guard, is among them only
where `recover` may be called. `start_issued` is the result: whatever a thread may call performs
issued operations only. It is a case of `start_covered`, which walks through the programs once
for any property of operations. A property of single operations is then proved by cases on
`UpdateShape`, without looking at the programs again.
-/

namespace SystemsManager.Jobs

open Python Concurrency

/-- The guarded `UPDATE`s of the service. -/
inductive UpdateShape : Write → Option (List Status) → (Row → Row) → Prop where
  | claim (now : ℚ) : UpdateShape .claim (some [.queued]) (claimedRow now)
  | waiting (message : String) :
      UpdateShape .waiting (some [.queued]) fun r => { r with message := message }
  | outcome (row : Row) (o : Outcome) (now : ℚ) : o.leadsTo row ≠ .failed →
      UpdateShape (.outcome (o.leadsTo row)) (some [.running]) (outcomeRow row o now)
  | failed (row : Row) (message : String) (now : ℚ) (attempts : Option Nat) :
      UpdateShape .failed (some [.running]) (failedRow row message now attempts)
  | lease (now : ℚ) :
      UpdateShape .lease (some [.running]) fun r => { r with lease := some (now + LEASE_S) }

variable {W : World}

/-- The operation is one that the service performs. -/
def Op.Issued (recovers : Bool) : Op W → Prop
  | .update site _ only set => UpdateShape site only set ∨
      recovers = true ∧ site = .requeue ∧ only = none ∧ ∃ now, set = requeuedRow now
  | .insert row => ∃ (k : Kind W) (sub : Submission) (spec : Object) (now : ℚ),
      row = Service.newRow k sub spec now
  | _ => True

/-- The operation decides what is run or kept: it claims, launches, runs, reaps, requeues or
sweeps jobs. -/
def Op.tends : Op W → Bool
  | .update .claim _ _ _ => true
  | .update (.outcome .queued) _ _ _ => true
  | .get .after _ => true
  | .reapDead => true
  | .sweep _ => true
  | .register _ => true
  | .putWorker _ _ _ => true
  | .startThread _ => true
  | .enter _ _ => true
  | .leave _ _ => true
  | _ => false

/-- The operation may end a job, or calls `on_finish`. -/
def Op.ends : Op W → Bool
  | .cancelRow _ _ _ => true
  | .update (.outcome .done) _ _ _ => true
  | .update .failed _ _ _ => true
  | .hook .onFinish _ => true
  | _ => false

/-- The operation is issued and tends no job. -/
def Op.Quiet (op : Op W) : Prop := op.Issued false ∧ op.tends = false

/-- The write with which `_apply` puts the job back into the queue. -/
def Op.Requeues (id : String) (op : Op W) : Prop :=
  ∃ row o now, op = .update (.outcome .queued) id (some [.running]) (outcomeRow row o now) ∧
    o.leadsTo row = .queued

/-- The operation drops a cancel event, or is the return of a `cancel`. -/
def Op.closes : Op W → Bool
  | .forget _ => true
  | .returned _ => true
  | _ => false

/-- The operation is quiet and closes nothing. -/
def Op.Tame (op : Op W) : Prop := op.Quiet ∧ op.closes = false

/-- The operation is tame and ends nothing. -/
def Op.Plain (op : Op W) : Prop := op.Tame ∧ op.ends = false

/-- What handlers do is plain. -/
theorem Op.plain_of_handler {op : Op W} (h : op.ofHandler = true) : op.Plain := by
  cases op with
  | get site id =>
      cases site with
      | after => cases h
      | other => exact ⟨⟨⟨trivial, rfl⟩, rfl⟩, rfl⟩
  | now => exact ⟨⟨⟨trivial, rfl⟩, rfl⟩, rfl⟩
  | setState id state => exact ⟨⟨⟨trivial, rfl⟩, rfl⟩, rfl⟩
  | annotate id message => exact ⟨⟨⟨trivial, rfl⟩, rfl⟩, rfl⟩
  | isSet ref => exact ⟨⟨⟨trivial, rfl⟩, rfl⟩, rfl⟩
  | ext e => exact ⟨⟨⟨trivial, rfl⟩, rfl⟩, rfl⟩
  | rounds => exact ⟨⟨⟨trivial, rfl⟩, rfl⟩, rfl⟩
  | never => exact ⟨⟨⟨trivial, rfl⟩, rfl⟩, rfl⟩
  | _ => cases h

/-- The operation writes to the ledger by `UPDATE` or `INSERT`. -/
def Op.writes : Op W → Bool
  | .update _ _ _ _ => true
  | .insert _ => true
  | _ => false

/-- Handlers write through `set_state` and `annotate` only. -/
theorem Op.writes_of_handler {op : Op W} (h : op.ofHandler = true) : op.writes = false := by
  cases op with
  | update site id only set => cases h
  | insert row => cases h
  | _ => rfl

namespace Code

variable {φ : Op W → Prop} {α β : Type}

theorem all_ask {op : Op W} {f : Res W op → Code W β} (hop : φ op) (hf : ∀ r, (f r).All φ) :
    (ask op >>= f).All φ :=
  ⟨hop, hf⟩

theorem all_act {op : Op W} {f : Unit → Code W β} (hop : φ op) (hf : (f ()).All φ) :
    (act op >>= f).All φ :=
  ⟨hop, fun _ => hf⟩

theorem all_seq {p : Code W α} {f : α → Code W β} (hp : p.All φ) (hf : ∀ a, (f a).All φ) :
    (p >>= f).All φ :=
  Prog.All.bind hp hf

end Code

namespace Service

variable {svc : Service W}

variable {φ : Op W → Prop}

theorem call_hook_all {k : Option (Kind W)} {name : Hook} {row : Row} (hhook : φ (.hook name row))
    (h : ∀ op, op.ofHandler = true → φ op) : (callHook k name row).All φ := by
  unfold callHook
  split
  · trivial
  · rename_i f hf
    rw [Option.bind_eq_some_iff] at hf
    obtain ⟨k, -, hf⟩ := hf
    refine Code.all_act hhook ?_
    have hops : (f row).All fun op => op.ofHandler = true := by
      cases name with
      | onFinish => exact k.on_finish_ops f hf row
      | onCancel => exact k.on_cancel_ops f hf row
    exact hops.mono h

theorem call_hook_tame (k : Option (Kind W)) (name : Hook) (row : Row) :
    (callHook k name row).All Op.Tame :=
  call_hook_all ⟨⟨trivial, rfl⟩, rfl⟩ fun _ h => (Op.plain_of_handler h).1

theorem on_cancel_plain (k : Option (Kind W)) (row : Row) :
    (callHook k .onCancel row).All Op.Plain :=
  call_hook_all ⟨⟨⟨trivial, rfl⟩, rfl⟩, rfl⟩ fun _ => Op.plain_of_handler

theorem tame_of_plain {α : Type} {p : Code W α} (h : p.All Op.Plain) : p.All Op.Tame :=
  h.mono fun _ hop => hop.1

theorem quiet_of_tame {α : Type} {p : Code W α} (h : p.All Op.Tame) : p.All Op.Quiet :=
  h.mono fun _ hop => hop.1

theorem quiet_of_plain {α : Type} {p : Code W α} (h : p.All Op.Plain) : p.All Op.Quiet :=
  quiet_of_tame (tame_of_plain h)

theorem log_plain (action : String) (row : Row) (ok : Bool) (actor : String)
    (message : Option String) : (log action row ok actor message : Code W Unit).All Op.Plain :=
  ⟨⟨⟨⟨trivial, rfl⟩, rfl⟩, rfl⟩, fun _ => trivial⟩

theorem signal_all {id : String} (hlookup : φ (.lookup id)) (hflag : ∀ ref, φ (.setFlag ref)) :
    (signal id : Code W Unit).All φ := by
  refine Code.all_ask hlookup fun ev => ?_
  split
  · exact ⟨hflag _, fun _ => trivial⟩
  · trivial

theorem signal_plain (id : String) : (signal id : Code W Unit).All Op.Plain :=
  signal_all ⟨⟨⟨trivial, rfl⟩, rfl⟩, rfl⟩ fun _ => ⟨⟨⟨trivial, rfl⟩, rfl⟩, rfl⟩

theorem submit_plain (sub : Submission) : (svc.submit sub).All Op.Plain := by
  unfold submit
  split
  · trivial
  · rename_i k hk
    split
    · trivial
    · rename_i spec hspec
      refine Code.all_ask ⟨⟨⟨trivial, rfl⟩, rfl⟩, rfl⟩ fun now => ?_
      refine Code.all_ask ⟨⟨⟨⟨k, sub, spec, now, rfl⟩, rfl⟩, rfl⟩, rfl⟩ fun row => ?_
      exact Code.all_seq (log_plain _ _ _ _ _) fun _ => trivial

/-- `ack` -/
theorem ack_plain (id actor : String) : (ack id actor : Code W (Option Row)).All Op.Plain := by
  refine Code.all_ask ⟨⟨⟨trivial, rfl⟩, rfl⟩, rfl⟩ fun now => ?_
  refine Code.all_ask ⟨⟨⟨trivial, rfl⟩, rfl⟩, rfl⟩ fun found => ?_
  split
  · trivial
  · refine Code.all_ask ⟨⟨⟨trivial, rfl⟩, rfl⟩, rfl⟩ fun last => ?_
    exact Code.all_seq (log_plain _ _ _ _ _) fun _ => trivial

theorem resolve_failed_tame (row : Row) (message : String) (now : ℚ) (attempts : Option Nat)
    (alert : Bool) : (svc.resolveFailed row message now attempts alert).All Op.Tame := by
  refine Code.all_ask ⟨⟨.inl (.failed row message now attempts), rfl⟩, rfl⟩ fun ok => ?_
  split
  · refine Code.all_ask ⟨⟨trivial, rfl⟩, rfl⟩ fun last => ?_
    split
    · refine Code.all_act ⟨⟨trivial, rfl⟩, rfl⟩ ?_
      exact Code.all_seq (tame_of_plain (log_plain _ _ _ _ _)) fun _ => call_hook_tame _ _ _
    · exact Code.all_seq (tame_of_plain (log_plain _ _ _ _ _)) fun _ => call_hook_tame _ _ _
  · trivial

/-- What an outcome leads to. -/
theorem leads_to_cases (o : Outcome) (row : Row) :
    o.leadsTo row = .queued ∨ o.leadsTo row = .done ∨ o.leadsTo row = .failed := by
  unfold Outcome.leadsTo
  split
  · split
    · exact .inl rfl
    · exact .inr (.inl rfl)
  · exact .inl rfl
  · exact .inr (.inl rfl)
  · split
    · exact .inl rfl
    · exact .inr (.inr rfl)

/-- `_apply` is tame but for dropping the cancel event of its job and for the write that puts
the job back into the queue, where the outcome leads there. -/
theorem apply_all (id : String) (outcome : Outcome) :
    (svc.apply id outcome).All fun op => op.Tame ∨ op = .forget id ∨
      op.Requeues id ∧ ∃ row, outcome.leadsTo row = .queued := by
  have htame : ∀ {α : Type} {p : Code W α}, p.All Op.Tame →
      p.All fun op => op.Tame ∨ op = .forget id ∨
        op.Requeues id ∧ ∃ row, outcome.leadsTo row = .queued := fun hp => hp.mono fun _ => .inl
  refine Code.all_ask (.inl ⟨⟨trivial, rfl⟩, rfl⟩) fun found => ?_
  split
  · exact ⟨.inr (.inl rfl), fun _ => trivial⟩
  · rename_i row
    split
    · exact ⟨.inr (.inl rfl), fun _ => trivial⟩
    · refine Code.all_ask (.inl ⟨⟨trivial, rfl⟩, rfl⟩) fun now => ?_
      split
      · refine Code.all_act (.inr (.inl rfl)) ?_
        exact htame (resolve_failed_tame _ _ _ _ _)
      · rename_i hleads
        refine Code.all_ask ?_ fun _ => ?_
        · rcases leads_to_cases outcome row with hqueued | hdone | hfailed
          · exact .inr (.inr ⟨⟨row, outcome, now, by rw [hqueued], hqueued⟩, row, hqueued⟩)
          · refine .inl ⟨⟨.inl (.outcome row outcome now hleads), ?_⟩, rfl⟩
            rw [hdone]
            rfl
          · exact absurd hfailed hleads
        · refine Code.all_act (.inr (.inl rfl)) ?_
          split
          · refine Code.all_ask (.inl ⟨⟨trivial, rfl⟩, rfl⟩) fun last => ?_
            exact htame (call_hook_tame _ _ _)
          · trivial

/-- `_apply` is quiet but for the write that puts its job back into the queue. -/
theorem apply_quiet_or (id : String) (outcome : Outcome) :
    (svc.apply id outcome).All fun op => op.Quiet ∨ op.Requeues id := by
  refine (apply_all id outcome).mono ?_
  rintro op (htame | rfl | ⟨hrequeues, -⟩)
  · exact .inl htame.1
  · exact .inl ⟨trivial, rfl⟩
  · exact .inr hrequeues

theorem timeouts_tame (now : ℚ) : (svc.timeouts now).All Op.Tame := by
  refine Code.all_ask ⟨⟨trivial, rfl⟩, rfl⟩ fun rows => ?_
  refine Prog.All.forEach fun row _ => ?_
  unfold timeoutRow
  split
  · trivial
  · split
    · trivial
    · refine Code.all_seq (tame_of_plain (signal_plain _)) fun _ => ?_
      exact Code.all_seq (call_hook_tame _ _ _) fun _ => resolve_failed_tame _ _ _ _ _

theorem leases_plain (now : ℚ) : (leases now : Code W Unit).All Op.Plain := by
  refine Code.all_ask ⟨⟨⟨trivial, rfl⟩, rfl⟩, rfl⟩ fun rows => ?_
  refine Prog.All.forEach fun row _ => ?_
  unfold leaseRow
  split
  · exact Code.all_ask ⟨⟨⟨.inl (.lease now), rfl⟩, rfl⟩, rfl⟩ fun _ => trivial
  · trivial

theorem run_plain (k : Kind W) (row : Row) (ref : Ref) : (k.run row ref).All Op.Plain :=
  (k.run_ops row ref).mono fun _ => Op.plain_of_handler

theorem worker_rows_all (h : ∀ id, φ (.get .other id)) (live : List Row) (ids : List String) :
    (workerRows live ids : Code W (List Row)).All φ := by
  induction ids generalizing live with
  | nil => trivial
  | cons id rest ih =>
      unfold workerRows
      split
      · exact ih live
      · refine Code.all_ask (h id) fun found => ?_
        split
        · exact ih _
        · exact ih live

theorem worker_rows_plain (live : List Row) (ids : List String) :
    (workerRows live ids : Code W (List Row)).All Op.Plain :=
  worker_rows_all (fun _ => ⟨⟨⟨trivial, rfl⟩, rfl⟩, rfl⟩) live ids

/-- The property holds of every operation that neither writes nor tends a job, and of the write
of `_resolve_failed`. -/
structure Covers (φ : Op W → Prop) : Prop where
  other : ∀ op : Op W, op.writes = false → op.tends = false → φ op
  failed : ∀ row message now attempts,
    φ (.update .failed row.id (some [.running]) (failedRow row message now attempts))

section Walk

variable {φ : Op W → Prop} (h : Covers φ)

include h

theorem call_hook_covered (k : Option (Kind W)) (name : Hook) (row : Row) :
    (callHook k name row).All φ :=
  call_hook_all (h.other _ rfl rfl) fun op hop => h.other op (Op.writes_of_handler hop)
    (Op.plain_of_handler hop).1.1.2

theorem run_covered (k : Kind W) (row : Row) (ref : Ref) : (k.run row ref).All φ :=
  (k.run_ops row ref).mono fun op hop => h.other op (Op.writes_of_handler hop)
    (Op.plain_of_handler hop).1.1.2

theorem resolve_failed_covered (row : Row) (message : String) (now : ℚ) (attempts : Option Nat)
    (alert : Bool) : (svc.resolveFailed row message now attempts alert).All φ := by
  refine Code.all_ask (h.failed row message now attempts) fun ok => ?_
  split
  · refine Code.all_ask (h.other _ rfl rfl) fun last => ?_
    split
    · refine Code.all_act (h.other _ rfl rfl) ?_
      exact Code.all_act (h.other _ rfl rfl) (call_hook_covered h _ _ _)
    · exact Code.all_act (h.other _ rfl rfl) (call_hook_covered h _ _ _)
  · trivial

theorem apply_covered (id : String) (outcome : Outcome)
    (houtcome : ∀ row now, outcome.leadsTo row ≠ .failed →
      φ (.update (.outcome (outcome.leadsTo row)) id (some [.running])
        (outcomeRow row outcome now))) : (svc.apply id outcome).All φ := by
  refine Code.all_ask (h.other _ rfl rfl) fun found => ?_
  split
  · exact ⟨h.other _ rfl rfl, fun _ => trivial⟩
  · split
    · exact ⟨h.other _ rfl rfl, fun _ => trivial⟩
    · refine Code.all_ask (h.other _ rfl rfl) fun now => ?_
      split
      · exact Code.all_act (h.other _ rfl rfl) (resolve_failed_covered h _ _ _ _ _)
      · rename_i hleads
        refine Code.all_ask (houtcome _ now hleads) fun _ => ?_
        refine Code.all_act (h.other _ rfl rfl) ?_
        split
        · exact Code.all_ask (h.other _ rfl rfl) fun last => call_hook_covered h _ _ _
        · trivial

theorem signal_covered (id : String) : (signal id : Code W Unit).All φ :=
  signal_all (h.other _ rfl rfl) fun _ => h.other _ rfl rfl

theorem timeouts_covered (now : ℚ) : (svc.timeouts now).All φ := by
  refine Code.all_ask (h.other _ rfl rfl) fun rows => ?_
  refine Prog.All.forEach fun row _ => ?_
  unfold timeoutRow
  split
  · trivial
  · split
    · trivial
    · refine Code.all_seq (signal_covered h _) fun _ => ?_
      exact Code.all_seq (call_hook_covered h _ _ _) fun _ => resolve_failed_covered h _ _ _ _ _

theorem leases_covered (now : ℚ) (hlease : ∀ id, φ (.update .lease id (some [.running])
      fun r => { r with lease := some (now + LEASE_S) })) : (leases now : Code W Unit).All φ := by
  refine Code.all_ask (h.other _ rfl rfl) fun rows => ?_
  refine Prog.All.forEach fun row _ => ?_
  unfold leaseRow
  split
  · exact Code.all_ask (hlease _) fun _ => trivial
  · trivial

theorem submit_covered (sub : Submission)
    (hinsert : ∀ k spec now, svc.kinds sub.kind = some k → φ (.insert (newRow k sub spec now))) :
    (svc.submit sub).All φ := by
  unfold submit
  split
  · trivial
  · rename_i k hk
    split
    · trivial
    · refine Code.all_ask (h.other _ rfl rfl) fun now => ?_
      refine Code.all_ask (hinsert k _ now hk) fun row => ?_
      exact Code.all_act (h.other _ rfl rfl) trivial

theorem cancel_covered (id actor message : String) : (svc.cancel id actor message).All φ := by
  have hend : ∀ row : Row, (do
      let row := (← Code.get id).getD row
      log "jobs.cancel" row true (orElse actor (orElse row.user "system")) (some message)
      callHook (svc.kinds row.kind) .onFinish row
      Code.act (.returned id)
      pure (some row) : Code W (Option Row)).All φ := by
    intro row
    refine Code.all_ask (h.other _ rfl rfl) fun last => ?_
    refine Code.all_act (h.other _ rfl rfl) ?_
    refine Code.all_seq (call_hook_covered h _ _ _) fun _ => ?_
    exact Code.all_act (h.other _ rfl rfl) trivial
  refine Code.all_ask (h.other _ rfl rfl) fun now => ?_
  refine Code.all_ask (h.other _ rfl rfl) fun found => ?_
  split
  · trivial
  · split
    · refine Code.all_seq (signal_covered h id) fun _ => ?_
      exact Code.all_seq (call_hook_covered h _ _ _) fun _ => hend _
    · exact hend _

/-- `ack` -/
theorem ack_covered (id actor : String) : (ack id actor : Code W (Option Row)).All φ := by
  refine Code.all_ask (h.other _ rfl rfl) fun now => ?_
  refine Code.all_ask (h.other _ rfl rfl) fun found => ?_
  split
  · trivial
  · refine Code.all_ask (h.other _ rfl rfl) fun last => ?_
    exact Code.all_act (h.other _ rfl rfl) trivial

theorem recover_covered (hrequeue : ∀ id now, φ (.update .requeue id none (requeuedRow now))) :
    svc.recover.All φ := by
  refine Code.all_ask (h.other _ rfl rfl) fun now => ?_
  refine Code.all_ask (h.other _ rfl rfl) fun rows => ?_
  refine Prog.All.forEach fun row _ => ?_
  unfold recoverRow
  split
  · split
    · exact ⟨hrequeue _ _, fun _ => trivial⟩
    · exact resolve_failed_covered h _ _ _ _ _
  · exact resolve_failed_covered h _ _ _ _ _

end Walk

section Tending

variable {φ : Op W → Prop} (h : Covers φ) (htends : ∀ op : Op W, op.writes = false → φ op)

include h htends

/-- The body of a worker thread. -/
theorem work_covered (k : Kind W) (row : Row) (ref : Ref) : (work k row ref).All φ := by
  refine Code.all_act (htends _ rfl) ?_
  refine Code.all_seq (run_covered h k row ref) fun _ => ?_
  exact ⟨htends _ rfl, fun _ => trivial⟩

variable (hupdate : ∀ site id only set, UpdateShape site only set → φ (.update site id only set))

include hupdate

theorem reap_covered : svc.reap.All φ :=
  Code.all_ask (htends _ rfl) fun _ => Prog.All.forEach fun _ _ => apply_covered h _ _
    fun _ _ hleads => hupdate _ _ _ _ (.outcome _ _ _ hleads)

theorem launch_covered (row : Row) : (svc.launch row).All φ := by
  unfold launch
  split
  · exact apply_covered h _ _ fun _ _ hleads => hupdate _ _ _ _ (.outcome _ _ _ hleads)
  · rename_i k hk
    refine Code.all_ask (htends _ rfl) fun ref => ?_
    split
    · refine Code.all_act (htends _ rfl) ?_
      refine Code.all_seq (run_covered h k row ref) fun _ => ?_
      refine Code.all_act (htends _ rfl) ?_
      exact apply_covered h _ _ fun _ _ hleads => hupdate _ _ _ _ (.outcome _ _ _ hleads)
    · refine Code.all_act (htends _ rfl) ?_
      exact ⟨htends _ rfl, fun _ => trivial⟩

/-- The loop of `_start_due`. -/
theorem start_loop_covered (now : ℚ) (limit : Int) (due : List Row) (held : List String)
    (count : Int) (started : Nat) : (svc.startLoop now limit due held count started).All φ := by
  induction due generalizing held count started with
  | nil => trivial
  | cons row rest ih =>
      unfold startLoop
      split
      · rename_i clash hclash
        split
        · exact Code.all_ask (hupdate _ _ _ _ (.waiting (waitingFor clash))) fun _ => ih _ _ _
        · exact ih _ _ _
      · split
        · trivial
        · refine Code.all_ask (hupdate _ _ _ _ (.claim now)) fun ok => ?_
          split
          · refine Code.all_ask (htends _ rfl) fun found => ?_
            refine Code.all_seq (launch_covered h htends hupdate _) fun _ => ?_
            refine Code.all_ask (htends _ rfl) fun after => ?_
            split
            · split
              · exact ih _ _ _
              · exact ih _ _ _
            · exact ih _ _ _
          · exact ih _ _ _

theorem start_due_covered (now : ℚ) : (svc.startDue now).All φ := by
  refine Code.all_ask (htends _ rfl) fun running => ?_
  refine Code.all_ask (htends _ rfl) fun ids => ?_
  refine Code.all_seq (worker_rows_all (fun _ => htends _ rfl) _ _) fun live => ?_
  refine Code.all_ask (htends _ rfl) fun workers => ?_
  exact Code.all_ask (htends _ rfl) fun due => start_loop_covered h htends hupdate _ _ _ _ _ _

theorem tick_covered : svc.tick.All φ := by
  refine Code.all_ask (htends _ rfl) fun now => ?_
  refine Code.all_seq (reap_covered h htends hupdate) fun _ => ?_
  refine Code.all_seq (timeouts_covered h now) fun _ => ?_
  refine Code.all_seq (leases_covered h now fun _ => hupdate _ _ _ _ (.lease now)) fun _ => ?_
  refine Code.all_seq (start_due_covered h htends hupdate now) fun _ => ?_
  refine Code.all_ask (htends _ rfl) fun sweeps => ?_
  split
  · exact Code.all_ask (htends _ rfl) fun days => ⟨htends _ rfl, fun _ => trivial⟩
  · trivial

end Tending

/-- What neither writes nor tends is quiet. -/
theorem quiet_covers : Covers (Op.Quiet (W := W)) := by
  refine ⟨?_, fun row message now attempts => ⟨.inl (.failed row message now attempts), rfl⟩⟩
  intro op hwrites htends
  refine ⟨?_, htends⟩
  cases op with
  | update site id only set => cases hwrites
  | insert row => cases hwrites
  | _ => trivial

theorem cancel_quiet (id actor message : String) : (svc.cancel id actor message).All Op.Quiet :=
  cancel_covered quiet_covers id actor message

end Service

variable {permits : Call → Bool} {svc : Service W} {p : Code W Unit} {call : Call} {s : Sys W}

/-- What every operation but an insertion and the requeue of `recover` meets is met by whatever a
thread may call, as far as these two meet it. -/
theorem start_covered {t : Tid} {φ : Op W → Prop} (hother : ∀ op : Op W, op.writes = false → φ op)
    (hupdate : ∀ site id only set, UpdateShape site only set → φ (.update site id only set))
    (hrequeue : permits .recover = true → ∀ id now,
      φ (.update .requeue id none (requeuedRow now)))
    (hinsert : ∀ k sub spec now, svc.kinds sub.kind = some k →
      φ (.insert (Service.newRow k sub spec now))) (h : start svc permits t call s = some p) :
    p.All φ := by
  have hφ : Service.Covers φ :=
    ⟨fun op hop _ => hother op hop, fun _ _ _ _ => hupdate _ _ _ _ (.failed _ _ _ _)⟩
  unfold start at h
  split at h
  · cases h
  · rename_i hpermits
    split at h
    · cases h
      exact Service.tick_covered hφ hother hupdate
    · cases h
      exact Service.recover_covered hφ (hrequeue (by simpa using hpermits))
    · cases h
      exact Code.all_seq (Service.submit_covered hφ _ fun k spec now => hinsert k _ spec now)
        fun _ => trivial
    · cases h
      exact Code.all_seq (Service.cancel_covered hφ _ _ _) fun _ => trivial
    · cases h
      exact Code.all_seq (Service.ack_covered hφ _ _) fun _ => trivial
    · cases h
      exact ⟨hother _ rfl, fun _ => trivial⟩
    · cases h
      exact ⟨hother _ rfl, fun _ => trivial⟩
    · split at h
      · rw [Option.map_eq_some_iff] at h
        obtain ⟨k, -, rfl⟩ := h
        exact Service.work_covered hφ hother k _ _
      · cases h
    · cases h

theorem start_issued {t : Tid} (h : start svc permits t call s = some p) :
    p.All (Op.Issued (permits .recover)) := by
  refine start_covered ?_ (fun _ _ _ _ => .inl) ?_ ?_ h
  · intro op hop
    cases op with
    | update site id only set => cases hop
    | insert row => cases hop
    | _ => trivial
  · exact fun hrecover id now => .inr ⟨hrecover, rfl, rfl, now, rfl⟩
  · exact fun k sub spec now _ => ⟨k, sub, spec, now, rfl⟩

theorem start_sweeps_not {t : Tid} (ht : t ≠ .dispatcher)
    (h : start svc permits t call s = some p) :
    p.All fun op => op.sweeps = false := by
  have hquiet : ∀ {α : Type} {q : Code W α}, q.All Op.Quiet →
      q.All fun op => op.sweeps = false := by
    intro α q hq
    refine hq.mono ?_
    rintro op ⟨-, htends⟩
    cases op with
    | sweep cutoff => cases htends
    | _ => rfl
  unfold start at h
  split at h
  · cases h
  · split at h
    · exact absurd rfl ht
    · exact absurd rfl ht
    · cases h
      exact hquiet (Service.quiet_of_plain
        (Code.all_seq (Service.submit_plain _) fun _ => trivial))
    · cases h
      exact hquiet (Code.all_seq (Service.cancel_quiet _ _ _) fun _ => trivial)
    · cases h
      exact hquiet (Service.quiet_of_plain (Code.all_seq (Service.ack_plain _ _) fun _ => trivial))
    · cases h
      exact ⟨rfl, fun _ => trivial⟩
    · cases h
      exact ⟨rfl, fun _ => trivial⟩
    · split at h
      · rw [Option.map_eq_some_iff] at h
        obtain ⟨k, -, rfl⟩ := h
        refine Code.all_act rfl ?_
        exact Code.all_seq (hquiet (Service.quiet_of_plain (Service.run_plain k _ _)))
          fun _ => ⟨rfl, fun _ => trivial⟩
      · cases h
    · cases h

theorem dispatcher_start (hpermits : permits .recover = false)
    (h : start svc permits .dispatcher call s = some p) : p = svc.tick := by
  unfold start at h
  split at h
  · cases h
  · rename_i hcall
    cases call with
    | tick =>
        cases h
        rfl
    | recover => simp [hpermits] at hcall
    | _ => cases h

end SystemsManager.Jobs
