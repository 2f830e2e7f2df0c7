import SystemsManager.Jobs.Workers

/-!
# Cancel signals

Once `cancel` has returned the row of a job, every handler of the job that runs sees its cancel
flag set. A cancel finds the event of the job in a registry that `_launch` fills after the claim,
under another lock: a lookup between the claim and the registration misses it. `SignalLands`
excludes that, `signal_kept` is the result, and `signal_lost` is a run in which the lookup falls
between the two. `Signalled` is what a cancel has achieved when it returns; every step of every
thread keeps it.
-/

namespace SystemsManager.Jobs

open Python Concurrency Relation

variable {W : World}

/-- Whether the job is between its claim and the registration of its event, after the event. -/
def Event.launching (id : String) (e : Event W) (before : Bool) : Bool :=
  match e with
  | .claimed id' => before || id' == id
  | .registered id' _ => before && id' != id
  | .reread id' => before && id' != id
  | _ => before

/-- The job is claimed and `_launch` has not registered an event for it yet. -/
def launching (id : String) (log : List (Tid × Event W)) : Bool :=
  log.foldl (fun before entry => entry.2.launching id before) false

/-- The event belongs to the launch of a job. -/
def Event.launches : Event W → Bool
  | .claimed _ => true
  | .registered _ _ => true
  | .reread _ => true
  | _ => false

/-- A lookup of a cancel event does not fall between the claim of the job and the registration
of its event, where the kind of the job is registered. -/
def signalLands (svc : Service W) (t : Tid) (op : Op W) (s : Sys W) : Bool :=
  match t, op with
  | .dispatcher, _ => true
  | _, .lookup id => !launching id s.log ||
      (s.rows.get? id).all fun r => (svc.kinds r.kind).isNone
  | _, _ => true

/-- No cancel looks for the event of a job while `_launch` has yet to register it. -/
abbrev SignalLands (svc : Service W) : Condition Tid (Op W) (Sys W) :=
  fun t op s _ => signalLands svc t op s = true

theorem launching_append (id : String) (log : List (Tid × Event W)) (t : Tid) (e : Event W) :
    launching id (log ++ [(t, e)]) = e.launching id (launching id log) := by
  simp [launching, List.foldl_append]

variable {id : String}

theorem launching_same {log new : List (Tid × Event W)}
    (h : ∀ u e, (u, e) ∈ new → e.launches = false) :
    launching id (log ++ new) = launching id log := by
  rw [launching, List.foldl_append, ← launching]
  induction new with
  | nil => rfl
  | cons first rest ih =>
      obtain ⟨t, e⟩ := first
      have hfirst : e.launching id (launching id log) = launching id log := by
        have hlaunches := h t e (List.mem_cons_self ..)
        cases e with
        | claimed id' => cases hlaunches
        | registered id' ref => cases hlaunches
        | reread id' => cases hlaunches
        | _ => rfl
      rw [List.foldl_cons, hfirst]
      exact ih fun u e hmem => h u e (List.mem_cons_of_mem _ hmem)

/-- The operation claims a job, registers its event or reads it again after the launch. -/
def Op.launches : Op W → Bool
  | .update .claim _ _ _ => true
  | .register _ => true
  | .get .after _ => true
  | _ => false

variable {op : Op W}

theorem Op.Notes.launches {e : Event W} (h : op.Notes e) (hop : op.launches = false) :
    e.launches = false := by
  cases e with
  | claimed id =>
      obtain ⟨only, set, rfl⟩ := h
      cases hop
  | registered id ref =>
      cases h
      cases hop
  | reread id =>
      cases h
      cases hop
  | _ => rfl

variable {s s' : Sys W} {t : Tid}

theorem launching_exec {a : Ans W op} {r : Res W op} (hop : op.launches = false)
    (hexec : exec t op a s = some (r, s')) (id : String) :
    launching id s'.log = launching id s.log := by
  obtain ⟨new, hlog, hnew⟩ := log_step hexec
  rw [hlog, launching_same fun u e hmem => (hnew u e hmem).2.launches hop]

theorem returned_exec {a : Ans W op} {r : Res W op} (hexec : exec t op a s = some (r, s')) {u : Tid}
    (h : (u, Event.returned id) ∈ s'.log) (hop : ∀ id, op ≠ .returned id) :
    (u, Event.returned id) ∈ s.log := by
  obtain ⟨new, hlog, hnew⟩ := log_step hexec
  rw [hlog] at h
  rcases List.mem_append.mp h with hmem | hmem
  · exact hmem
  · exact absurd (hnew u _ hmem).2 (hop id)

/-- The thread with this event has ended. -/
def Spent (ref : Ref) (s : Sys W) : Prop := ∃ outcome, s.phase ref = .dead outcome

/-- What a cancel of the job has achieved: the job is over, no launch of it is under way, and
its event is set unless its thread has ended; `pending` is an event that is about to be set. -/
structure Signalled (svc : Service W) (id : String) (pending : Option Ref) (s : Sys W) : Prop where
  ids : id ∈ s.ids
  ended : ∀ st, s.status id = some st → st.terminal = true
  window : launching id s.log = true → ∀ r, s.rows.get? id = some r → svc.kinds r.kind = none
  flagged : ∀ ref, s.cancelOf.get? id = some ref →
    s.flag ref = true ∨ Spent ref s ∨ pending = some ref

/-- What is known of the cancel events. -/
structure SignalInv (svc : Service W) (s : Sys W) : Prop where
  workers : WorkersInv s
  listed : ∀ id ref, s.workers.get? id = some ref → s.cancelOf.get? id = some ref
  queued : ∀ id ref, s.status id = some .queued → s.cancelOf.get? id = some ref → Spent ref s
  known : ∀ id ref, s.cancelOf.get? id = some ref → id ∈ s.ids
  launching : ∀ id, launching id s.log = true → id ∈ s.ids ∧ s.status id ≠ some .queued
  returned : ∀ t id, (t, Event.returned id) ∈ s.log → Signalled svc id none s

/-- What a thread may do to the cancel events: a launch starts with a queued job, and an event
is registered in the launch of a job of a registered kind. -/
structure SignalGuar (svc : Service W) (t : Tid) (s s' : Sys W) : Prop where
  keeps : Keeps s s'
  flag : ∀ ref, s.flag ref = true → s'.flag ref = true
  spent : ∀ ref, Spent ref s → Spent ref s'
  claims : ∀ id, Jobs.launching id s'.log = true →
    Jobs.launching id s.log = true ∨ s.status id = some .queued
  registers : ∀ id ref, s'.cancelOf.get? id = some ref → s.cancelOf.get? id = some ref ∨
    Jobs.launching id s.log = true ∧ ∃ r, s.rows.get? id = some r ∧ svc.kinds r.kind ≠ none
  frame : t ≠ .dispatcher → Frame s s' ∧ Unqueued s s' ∧ s'.cancelOf = s.cancelOf ∧
    (∀ id, Jobs.launching id s'.log = Jobs.launching id s.log) ∧
    ∀ id, (s.rows.get? id).isSome = true → (s'.rows.get? id).isSome = true

/-- The promise of every thread about the cancel events; an idle dispatcher launches nothing. -/
def signalContract (svc : Service W) : Contract Tid (Sys W) where
  inv := SignalInv svc
  guar := SignalGuar svc
  idle t s := t = .dispatcher → ∀ id, launching id s.log = false

/-- The condition of the runs of which the cancel events are looked at. -/
abbrev SignalRun (svc : Service W) : Condition Tid (Op W) (Sys W) := fun t op s s' =>
  SignalLands svc t op s s' ∧ Tended t op s s'

variable {svc : Service W}

theorem Signalled.step {pending : Option Ref} (h : Signalled svc id pending s)
    (hguar : SignalGuar svc t s s') : Signalled svc id pending s' := by
  have hold : ∀ r', s'.rows.get? id = some r' → ∃ r, s.rows.get? id = some r ∧ SameJob r r' := by
    intro r' hr'
    cases hr : s.rows.get? id with
    | none =>
        rw [hguar.keeps.absent id h.ids hr] at hr'
        cases hr'
    | some r => exact ⟨r, rfl, hguar.keeps.job id r r' hr hr'⟩
  refine ⟨hguar.keeps.ids id h.ids, ?_, ?_, ?_⟩
  · intro st hst
    simp only [Sys.status, Option.map_eq_some_iff] at hst
    obtain ⟨r', hr', rfl⟩ := hst
    obtain ⟨r, hr, -⟩ := hold r' hr'
    have hterm := h.ended r.status (by simp [Sys.status, hr])
    rw [hguar.keeps.terminal id r r' hr hterm hr']
    exact hterm
  · intro hlaunching r' hr'
    obtain ⟨r, hr, hjob⟩ := hold r' hr'
    rw [hjob.kind]
    rcases hguar.claims id hlaunching with hlaunching | hqueued
    · exact h.window hlaunching r hr
    · exact absurd (h.ended _ hqueued) (by decide)
  · intro ref href
    rcases hguar.registers id ref href with href | ⟨hlaunching, r, hr, hkind⟩
    · rcases h.flagged ref href with hflag | hspent | hpending
      · exact .inl (hguar.flag ref hflag)
      · exact .inr (.inl (hguar.spent ref hspent))
      · exact .inr (.inr hpending)
    · exact absurd (h.window hlaunching r hr) hkind

theorem signalled_kept (id : String) (pending : Option Ref) :
    (signalContract svc).Kept (Signalled svc id pending) :=
  fun _ _ _ _ _ hguar h => h.step hguar

theorem SignalInv.step (h : SignalInv svc s) (hworkers : WorkersInv s')
    (hguar : SignalGuar svc t s s')
    (hlisted : ∀ id ref, s'.workers.get? id = some ref → s'.cancelOf.get? id = some ref)
    (hqueued : ∀ id ref, s'.status id = some .queued → s'.cancelOf.get? id = some ref →
      Spent ref s')
    (hlaunching : ∀ id, Jobs.launching id s'.log = true → s'.status id ≠ some .queued)
    (hreturned : ∀ u id, (u, Event.returned id) ∈ s'.log →
      (u, Event.returned id) ∈ s.log ∨ Signalled svc id none s) : SignalInv svc s' := by
  refine ⟨hworkers, hlisted, hqueued, ?_, ?_, ?_⟩
  · intro id ref href
    rcases hguar.registers id ref href with href | ⟨hold, -⟩
    · exact hguar.keeps.ids id (h.known id ref href)
    · exact hguar.keeps.ids id (h.launching id hold).1
  · intro id hnew
    refine ⟨?_, hlaunching id hnew⟩
    rcases hguar.claims id hnew with hold | hst
    · exact hguar.keeps.ids id (h.launching id hold).1
    · simp only [Sys.status, Option.map_eq_some_iff] at hst
      obtain ⟨r, hr, -⟩ := hst
      exact hguar.keeps.ids id (h.workers.ledger.2 id r hr)
  · intro u id hmem
    rcases hreturned u id hmem with hold | hsignalled
    · exact (h.returned u id hold).step hguar
    · exact hsignalled.step hguar

theorem Frame.spent (h : Frame s s') {ref : Ref} (hspent : Spent ref s) : Spent ref s' := by
  obtain ⟨outcome, hphase⟩ := hspent
  exact ⟨outcome, by rw [(h.phase ref).still (by rw [hphase]; rfl), hphase]⟩

/-- A step that leaves the cancel events and the launches alone. -/
structure Mild (s s' : Sys W) : Prop where
  keeps : Keeps s s'
  frame : Frame s s'
  unqueued : Unqueued s s'
  flag : ∀ ref, s.flag ref = true → s'.flag ref = true
  cancelOf : s'.cancelOf = s.cancelOf
  launching : ∀ id, Jobs.launching id s'.log = Jobs.launching id s.log

theorem Mild.guar (h : Mild s s') (t : Tid)
    (hstays : t ≠ .dispatcher → ∀ id, (s.rows.get? id).isSome = true →
      (s'.rows.get? id).isSome = true) : SignalGuar svc t s s' := by
  refine ⟨h.keeps, h.flag, fun ref => h.frame.spent, ?_, ?_, ?_⟩
  · intro id hlaunching
    rw [h.launching] at hlaunching
    exact .inl hlaunching
  · intro id ref href
    rw [h.cancelOf] at href
    exact .inl href
  · exact fun ht => ⟨h.frame, h.unqueued, h.cancelOf, h.launching, hstays ht⟩

theorem Mild.inv (h : Mild s s') (hinv : SignalInv svc s) (hworkers : WorkersInv s')
    (hguar : SignalGuar svc t s s') (hreturned : ∀ u id, (u, Event.returned id) ∈ s'.log →
      (u, Event.returned id) ∈ s.log ∨ Signalled svc id none s) : SignalInv svc s' := by
  refine hinv.step hworkers hguar ?_ ?_ ?_ hreturned
  · intro id ref href
    rw [h.frame.workers] at href
    rw [h.cancelOf]
    exact hinv.listed id ref href
  · intro id ref hst href
    rw [h.cancelOf] at href
    exact h.frame.spent
      (hinv.queued id ref (h.unqueued id (hinv.known id ref href) hst) href)
  · intro id hlaunching hst
    rw [h.launching] at hlaunching
    obtain ⟨hid, hnot⟩ := hinv.launching id hlaunching
    exact hnot (h.unqueued id hid hst)

theorem mild_exec {a : Ans W op} {r : Res W op} (hlaunches : op.launches = false)
    (hregisters : op.registers = false) (hkeeps : Keeps s s') (hframe : Frame s s')
    (hun : Unqueued s s') (hexec : exec t op a s = some (r, s')) : Mild s s' :=
  ⟨hkeeps, hframe, hun, (scope hexec).flag, (scope hexec).cancelOf hregisters,
    launching_exec hlaunches hexec⟩

theorem Op.Tame.scope (h : op.Tame) :
    op.launches = false ∧ op.registers = false ∧ op.sweeps = false ∧
      ∀ id, op ≠ .returned id := by
  obtain ⟨⟨-, htends⟩, hcloses⟩ := h
  cases op with
  | get site id =>
      cases site with
      | after => cases htends
      | other => exact ⟨rfl, rfl, rfl, fun _ h => nomatch h⟩
  | update site id only set =>
      cases site with
      | claim => cases htends
      | _ => exact ⟨rfl, rfl, rfl, fun _ h => nomatch h⟩
  | sweep cutoff => cases htends
  | register id => cases htends
  | forget id => cases hcloses
  | returned id => cases hcloses
  | _ => exact ⟨rfl, rfl, rfl, fun _ h => nomatch h⟩

theorem tame_mild {a : Ans W op} {r : Res W op} (hop : op.Tame) (hlawful : Lawful op s s')
    (hexec : exec t op a s = some (r, s')) : Mild s s' := by
  obtain ⟨hlaunches, hregisters, -⟩ := hop.scope
  have hstill := still_exec hop.1.2 hlawful hexec
  exact mild_exec hlaunches hregisters hstill.keeps hstill.frame hstill.unqueued hexec

section Signals

variable {svc : Service W} {permits : Call → Bool} {t : Tid} {s : Sys W}

variable {s s' : Sys W} {P : Sys W → Prop} {op : Op W}

theorem tame_step {a : Ans W op} {r : Res W op} (hstable : (signalContract svc).Stable t P)
    (hinv : SignalInv svc s) (hs : P s) (hexec : exec t op a s = some (r, s'))
    (hallow : SignalRun svc t op s s') (hop : op.Tame) :
    SignalInv svc s' ∧ SignalGuar svc t s s' ∧ P s' := by
  have hmild := tame_mild hop hallow.2.lawful hexec
  obtain ⟨-, -, hsweeps, hreturned⟩ := hop.scope
  have hguar : ∀ v, SignalGuar svc v s s' :=
    fun v => hmild.guar v fun _ id hid => (rows_step hexec).stays hsweeps hid
  obtain ⟨u, hu⟩ := exists_other t
  have hinv' := hmild.inv hinv hallow.2.after (hguar t)
    fun v id hmem => .inl (returned_exec hexec hmem hreturned)
  exact ⟨hinv', hguar t, hstable.anyone hu hinv hinv' hguar hs⟩

theorem tame_safe {α : Type} {p : Code W α} (hp : p.All Op.Tame)
    (hstable : (signalContract svc).Stable t P) (h : P s) :
    Safe (machine svc permits) (SignalRun svc) (signalContract svc) t p (fun _ => P) s := by
  refine safe_of_all hp hstable h ?_ fun _ _ h => h
  intro op hop s a r s' hinv hs hexec hallow
  exact tame_step hstable hinv hs hexec hallow hop

theorem tame_seq {α β : Type} {p : Code W α} {f : α → Code W β} {Q : β → Sys W → Prop}
    (hp : p.All Op.Tame) (hstable : (signalContract svc).Stable t P) (h : P s) (hrest : ∀ a s, P s →
      Safe (machine svc permits) (SignalRun svc) (signalContract svc) t (f a) Q s) :
    Safe (machine svc permits) (SignalRun svc) (signalContract svc) t (p >>= f) Q s :=
  safe_bind ((tame_safe hp hstable h).mono hrest)

theorem tame_ask {β : Type} {f : Res W op → Code W β} {Q : β → Sys W → Prop} (hop : op.Tame)
    (hstable : (signalContract svc).Stable t P) (h : P s)
    (hrest : ∀ s a r s', SignalInv svc s → SignalInv svc s' → P s → P s' →
      exec t op a s = some (r, s') →
      Safe (machine svc permits) (SignalRun svc) (signalContract svc) t (f r) Q s') :
    Safe (machine svc permits) (SignalRun svc) (signalContract svc) t (Code.ask op >>= f) Q s := by
  refine Code.safe_ask hstable h ?_
  intro s a r s' hinv hs hexec hallow
  obtain ⟨hinv', hguar, hs'⟩ := tame_step hstable hinv hs hexec hallow hop
  exact ⟨hinv', hguar, hrest s a r s' hinv hinv' hs hs' hexec⟩

/-- The job is over. -/
structure Over (id : String) (s : Sys W) : Prop where
  ids : id ∈ s.ids
  status : ∀ st, s.status id = some st → st.terminal = true

/-- A job that is over stays so. -/
theorem over_kept (id : String) : (signalContract svc).Kept (Over (W := W) id) := by
  intro u s s' _ _ hguar h
  refine ⟨hguar.keeps.ids id h.ids, ?_⟩
  intro st hst
  simp only [Sys.status, Option.map_eq_some_iff] at hst
  obtain ⟨r', hr', rfl⟩ := hst
  cases hr : s.rows.get? id with
  | none =>
      rw [hguar.keeps.absent id h.ids hr] at hr'
      cases hr'
  | some r =>
      have hterm := h.status r.status (by simp [Sys.status, hr])
      rw [hguar.keeps.terminal id r r' hr hterm hr']
      exact hterm

variable {id : String}

theorem signal_safe (ht : t ≠ .dispatcher) (h : Over id s) :
    Safe (machine svc permits) (SignalRun svc) (signalContract svc) t (Service.signal id)
      (fun _ => Signalled svc id none) s := by
  refine Code.safe_ask ((over_kept id).stable t) h ?_
  intro s a ev s' hinv hs hexec hallow
  obtain ⟨hinv', hguar, -⟩ := tame_step ((over_kept id).stable t) hinv hs hexec hallow
    ⟨⟨trivial, rfl⟩, rfl⟩
  have hcond : signalLands svc t (.lookup id) s = true := hallow.1
  cases hexec
  refine ⟨hinv', hguar, ?_⟩
  have hwindow : launching id s.log = true → ∀ r, s.rows.get? id = some r →
      svc.kinds r.kind = none := by
    intro hlaunching r hr
    cases t with
    | dispatcher => exact absurd rfl ht
    | request n => simpa [signalLands, hlaunching, hr] using hcond
    | worker ref => simpa [signalLands, hlaunching, hr] using hcond
  cases hev : s.cancelOf.get? id with
  | none =>
      refine safe_ret ((signalled_kept id none).stable t) ?_ fun _ h => h
      exact ⟨hs.ids, hs.status, hwindow, fun ref href => by rw [hev] at href; cases href⟩
  | some ref =>
      have hpending : Signalled svc id (some ref) s := by
        refine ⟨hs.ids, hs.status, hwindow, ?_⟩
        intro ref' href'
        rw [hev] at href'
        cases href'
        exact .inr (.inr rfl)
      refine Code.safe_last ((signalled_kept id (some ref)).stable t) hpending
        ((signalled_kept id none).stable t) ?_
      intro s a _ s' hinv hs hexec hallow
      obtain ⟨hinv', hguar, hs'⟩ := tame_step ((signalled_kept id (some ref)).stable t) hinv hs
        hexec hallow ⟨⟨trivial, rfl⟩, rfl⟩
      refine ⟨hinv', hguar, hs'.ids, hs'.ended, hs'.window, ?_⟩
      intro ref' href'
      rcases hs'.flagged ref' href' with hflag | hspent | hpending
      · exact .inl hflag
      · exact .inr (.inl hspent)
      · cases hpending
        cases hexec
        exact .inl (Function.update_self ..)

theorem returned_step {a r : Unit} (hinv : SignalInv svc s) (hs : Signalled svc id none s)
    (hexec : exec t (.returned id) a s = some (r, s'))
    (hallow : SignalRun svc t (.returned id) s s') : SignalInv svc s' ∧ SignalGuar svc t s s' := by
  have hsame : s'.rows = s.rows := by
    cases hexec
    rfl
  have hstill := still_exec rfl hallow.2.lawful hexec
  have hmild := mild_exec rfl rfl hstill.keeps hstill.frame hstill.unqueued hexec
  have hguar : SignalGuar svc t s s' := hmild.guar t fun _ id hid => by rwa [hsame]
  refine ⟨hmild.inv hinv hallow.2.after hguar ?_, hguar⟩
  intro u id' hmem
  obtain ⟨new, hlog, hnew⟩ := log_step hexec
  rw [hlog] at hmem
  rcases List.mem_append.mp hmem with hmem | hmem
  · exact .inl hmem
  · have hop : (Op.returned id : Op W) = .returned id' := (hnew u _ hmem).2
    cases hop
    exact .inr hs

variable {row : Row}

theorem cancel_end_signal_safe {id actor message : String} (hs : Signalled svc id none s) :
    Safe (machine svc permits) (SignalRun svc) (signalContract svc) t
      (do let row := (← Code.get id).getD row
          Service.log "jobs.cancel" row true
            (Service.orElse actor (Service.orElse row.user "system")) (some message)
          Service.callHook (svc.kinds row.kind) .onFinish row
          Code.act (.returned id)
          pure (some row)) (fun _ _ => True) s := by
  have hkept : (signalContract svc).Kept (Signalled svc id none) := signalled_kept id none
  have hstable := hkept.stable t
  refine tame_ask ⟨⟨trivial, rfl⟩, rfl⟩ hstable hs ?_
  intro s _ last s' _ _ _ hs _
  refine tame_seq (Service.tame_of_plain (Service.log_plain _ _ _ _ _)) hstable hs ?_
  intro _ s hs
  refine tame_seq (Service.call_hook_tame _ _ _) hstable hs ?_
  intro _ s hs
  refine Code.safe_act hstable hs ?_
  intro s a r s' hinv hs hexec hallow
  obtain ⟨hinv', hguar⟩ := returned_step (a := a) hinv hs hexec hallow
  exact ⟨hinv', hguar, safe_ret (Contract.stable_const True) trivial fun _ _ => trivial⟩

theorem cancel_signal_safe {id actor message : String} (ht : t ≠ .dispatcher) :
    Safe (machine svc permits) (SignalRun svc) (signalContract svc) t
      (svc.cancel id actor message) (fun _ _ => True) s := by
  refine tame_ask ⟨⟨trivial, rfl⟩, rfl⟩ (Contract.stable_const True) trivial ?_
  intro s _ now s' _ _ _ _ _
  refine Code.safe_ask (Contract.stable_const True) trivial ?_
  intro s a found s' hinv _ hexec hallow
  have hop : (Op.cancelRow id now message : Op W).Tame := ⟨⟨trivial, rfl⟩, rfl⟩
  obtain ⟨hinv', hguar, -⟩ := tame_step (Contract.stable_const True) hinv trivial hexec hallow hop
  have hmild := tame_mild hop hallow.2.lawful hexec
  refine ⟨hinv', hguar, ?_⟩
  simp only [exec] at hexec
  split at hexec
  · cases hexec
    exact safe_ret (Contract.stable_const True) trivial fun _ _ => trivial
  · rename_i row hrow
    obtain ⟨hget, hid⟩ := hallow.2.lawful.found hrow
    cases hexec
    have hover : Over id (s.write t row (cancelledRow now message row)) := by
      refine ⟨hallow.2.lawful.keeps.ids id (hinv.workers.ledger.2 id row hget), ?_⟩
      intro st hst
      rw [Sys.write_status hid, if_pos rfl] at hst
      cases hst
      rfl
    dsimp only
    split
    · refine safe_bind ((signal_safe ht hover).mono ?_)
      intro _ s hs
      refine tame_seq (Service.call_hook_tame _ _ _) ((signalled_kept id none).stable t) hs ?_
      intro _ s hs
      exact cancel_end_signal_safe hs
    · rename_i hnot
      -- The job was queued, so that no launch is under way and its threads have ended.
      have hqueued : s.status id = some .queued := by
        have hlive := (Ledger.matching_eq_some.mp hrow).2 LIVE rfl
        simp only [LIVE, List.mem_cons, List.not_mem_nil, or_false] at hlive
        simp [Sys.status, hget, hlive.resolve_right hnot]
      refine cancel_end_signal_safe ⟨hover.ids, hover.status, ?_, ?_⟩
      · intro hlaunching
        rw [hmild.launching] at hlaunching
        exact absurd hqueued (hinv.launching id hlaunching).2
      · intro ref href
        rw [hmild.cancelOf] at href
        exact .inr (.inl (hmild.frame.spent (hinv.queued id ref hqueued href)))

/-- The assertion survives what the other threads do, and what `_apply` does. -/
def Enduring (P : Sys W → Prop) : Prop :=
  ∀ s s', Keeps s s' → Frame s s' →
    (∀ id ref, s'.cancelOf.get? id = some ref → s.cancelOf.get? id = some ref) →
    (∀ id, launching id s'.log = launching id s.log) →
    (∀ id, (s.rows.get? id).isSome = true → (s'.rows.get? id).isSome = true) → P s → P s'

theorem Enduring.stable (h : Enduring P) : (signalContract svc).Stable .dispatcher P := by
  intro u hu s s' _ _ hguar hs
  obtain ⟨hframe, -, hcancel, hlaunching, hstays⟩ := hguar.frame hu
  exact h s s' hguar.keeps hframe (fun id ref href => by rwa [hcancel] at href) hlaunching
    hstays hs

/-- No job is being launched. -/
def NoLaunch (s : Sys W) : Prop := ∀ id, launching id s.log = false

theorem no_launch_enduring : Enduring (NoLaunch (W := W)) := by
  intro s s' _ _ _ hlaunching _ h id
  rw [hlaunching, h id]

/-- The job has no worker, and the thread with its event has ended. -/
def Reaped (id : String) (s : Sys W) : Prop :=
  Unlisted id s ∧ ∀ ref, s.cancelOf.get? id = some ref → Spent ref s

/-- Only the dispatcher gives the job a worker. -/
theorem reaped_enduring (id : String) : Enduring (Reaped (W := W) id) := by
  intro s s' _ hframe hcancel _ _ h
  refine ⟨?_, fun ref href => hframe.spent (h.2 ref (hcancel id ref href))⟩
  unfold Unlisted
  rw [hframe.workers]
  exact h.1

/-- The dispatcher has claimed the job of the row and launches no other. -/
structure Launch (row : Row) (s : Sys W) : Prop where
  window : launching row.id s.log = true
  only : ∀ id, launching id s.log = true → id = row.id
  free : Unlisted row.id s
  knows : Knows row s
  present : (s.rows.get? row.id).isSome = true

/-- Nobody else launches the job or removes its row. -/
theorem launch_enduring (row : Row) : Enduring (Launch (W := W) row) := by
  intro s s' hkeeps hframe _ hlaunching hstays h
  refine ⟨by rw [hlaunching, h.window], ?_, ?_, hkeeps.knows h.knows, hstays _ h.present⟩
  · intro id hid
    rw [hlaunching] at hid
    exact h.only id hid
  · unfold Unlisted
    rw [hframe.workers]
    exact h.free

/-- The event of a job without a worker is dropped. -/
theorem forget_step {a r : Unit} (hinv : SignalInv svc s) (hfree : Unlisted id s)
    (hexec : exec .dispatcher (.forget id) a s = some (r, s'))
    (hallow : SignalRun svc .dispatcher (.forget id) s s') :
    SignalInv svc s' ∧ SignalGuar svc .dispatcher s s' ∧
      ∀ P : Sys W → Prop, Enduring P → P s → P s' := by
  have hcancel : ∀ id', s'.cancelOf.get? id' =
      if id' = id then none else s.cancelOf.get? id' := by
    intro id'
    cases hexec
    exact Dict.get?_erase _ _ _
  have hshrinks : ∀ id' ref, s'.cancelOf.get? id' = some ref →
      s.cancelOf.get? id' = some ref := by
    intro id' ref href
    rw [hcancel] at href
    split at href
    · cases href
    · exact href
  have hguar : SignalGuar svc .dispatcher s s' := by
    refine ⟨hallow.2.lawful.keeps, (scope hexec).flag, ?_, ?_, fun id' ref href =>
      .inl (hshrinks id' ref href), fun hne => absurd rfl hne⟩
    · cases hexec
      exact fun _ h => h
    · cases hexec
      exact fun _ h => .inl h
  refine ⟨hinv.step hallow.2.after hguar ?_ ?_ ?_ ?_, hguar, ?_⟩
  · intro id' ref href
    have hold : s.workers.get? id' = some ref := by
      cases hexec
      exact href
    rw [hcancel, if_neg, hinv.listed id' ref hold]
    rintro rfl
    rw [hfree] at hold
    cases hold
  · intro id' ref hst href
    have hold := hshrinks id' ref href
    cases hexec
    exact hinv.queued id' ref hst hold
  · cases hexec
    exact fun id' hlaunching => (hinv.launching id' hlaunching).2
  · exact fun u id' hmem => .inl (returned_exec hexec hmem (by rintro _ ⟨⟩))
  · intro P hP hs
    have hframe : Frame s s' := by
      cases hexec
      exact ⟨rfl, fun _ => .same _, rfl⟩
    exact hP s s' hallow.2.lawful.keeps hframe hshrinks (launching_exec rfl hexec)
      (fun _ hid => (rows_step hexec).stays rfl hid) hs

theorem requeue_step {a : Ans W op} {r : Res W op} (hop : op.Requeues id) (hinv : SignalInv svc s)
    (hreaped : Reaped id s) (hnot : launching id s.log = false)
    (hexec : exec .dispatcher op a s = some (r, s')) (hallow : SignalRun svc .dispatcher op s s') :
    SignalInv svc s' ∧ SignalGuar svc .dispatcher s s' ∧
      ∀ P : Sys W → Prop, Enduring P → P s → P s' := by
  obtain ⟨-, hframe, -, hother⟩ :=
    hop.step hinv.workers hreaped.1 hallow.2.lawful hexec
  obtain ⟨row, o, now, rfl, -⟩ := hop
  have hcancel := (scope hexec).cancelOf rfl
  have hlaunching := launching_exec rfl hexec
  have hguar : SignalGuar svc .dispatcher s s' := by
    refine ⟨hallow.2.lawful.keeps, (scope hexec).flag, fun _ => hframe.spent, ?_, ?_,
      fun hne => absurd rfl hne⟩
    · intro id' hid'
      exact .inl (by rwa [hlaunching] at hid')
    · intro id' ref href
      exact .inl (by rwa [hcancel] at href)
  refine ⟨hinv.step hallow.2.after hguar ?_ ?_ ?_ ?_, hguar, ?_⟩
  · intro id' ref href
    rw [hframe.workers] at href
    rw [hcancel]
    exact hinv.listed id' ref href
  · intro id' ref hst href
    rw [hcancel] at href
    by_cases hid : id' = id
    · rw [hid] at href
      exact hframe.spent (hreaped.2 ref href)
    · rw [hother id' hid] at hst
      exact hframe.spent (hinv.queued id' ref hst href)
  · intro id' hid' hst
    rw [hlaunching] at hid'
    by_cases hid : id' = id
    · rw [hid, hnot] at hid'
      cases hid'
    · rw [hother id' hid] at hst
      exact (hinv.launching id' hid').2 hst
  · exact fun u id' hmem => .inl (returned_exec hexec hmem (by rintro _ ⟨⟩))
  · intro P hP hs
    refine hP s s' hallow.2.lawful.keeps hframe (fun _ _ href => by rwa [hcancel] at href)
      hlaunching (fun _ hid => (rows_step hexec).stays rfl hid) hs

/-- `_apply`, for a job without a worker: where the outcome puts the job back into the queue, it
is not being launched and its thread has ended. -/
theorem apply_signal_safe {outcome : Outcome} (hP : Enduring P) (hfree : ∀ s, P s → Unlisted id s)
    (hrequeue : (∃ row, outcome.leadsTo row = .queued) → ∀ s, P s →
      launching id s.log = false ∧ Reaped id s) (h : P s) :
    Safe (machine svc permits) (SignalRun svc) (signalContract svc) .dispatcher
      (svc.apply id outcome) (fun _ => P) s := by
  refine safe_of_all (Service.apply_all id outcome) hP.stable h ?_ fun _ _ h => h
  intro op hop s a r s' hinv hs hexec hallow
  rcases hop with htame | rfl | ⟨hop, hqueued⟩
  · exact tame_step hP.stable hinv hs hexec hallow htame
  · obtain ⟨hinv', hguar, henduring⟩ := forget_step (a := a) hinv (hfree s hs) hexec hallow
    exact ⟨hinv', hguar, henduring P hP hs⟩
  · obtain ⟨hnot, hreaped⟩ := hrequeue hqueued s hs
    obtain ⟨hinv', hguar, henduring⟩ := requeue_step hop hinv hreaped hnot hexec hallow
    exact ⟨hinv', hguar, henduring P hP hs⟩

variable {a : Unit}

theorem reap_dead_signal_step {done : List (String × Option Outcome)} (hinv : SignalInv svc s)
    (hexec : exec .dispatcher .reapDead a s = some (done, s'))
    (hallow : SignalRun svc .dispatcher .reapDead s s') :
    SignalInv svc s' ∧ SignalGuar svc .dispatcher s s' ∧
      (∀ id, launching id s'.log = launching id s.log) ∧ ∀ item ∈ done, Reaped item.1 s' := by
  have hremoved := hallow.2.guar.removed
  have hguar : SignalGuar svc .dispatcher s s' := by
    refine ⟨hallow.2.lawful.keeps, (scope hexec).flag, ?_, ?_, ?_, fun hne => absurd rfl hne⟩
    · cases hexec
      exact fun _ h => h
    · cases hexec
      exact fun _ h => .inl h
    · cases hexec
      exact fun _ _ h => .inl h
  refine ⟨hinv.step hallow.2.after hguar ?_ ?_ ?_ ?_, hguar, launching_exec rfl hexec, ?_⟩
  · intro id ref href
    cases hexec
    rw [Dict.get?_filter, Option.filter_eq_some_iff] at href
    exact hinv.listed id ref href.1
  · cases hexec
    exact hinv.queued
  · cases hexec
    exact fun id hid => (hinv.launching id hid).2
  · exact fun u id hmem => .inl (returned_exec hexec hmem (by rintro _ ⟨⟩))
  · intro item hitem
    have hfree := reaped_unlisted (a := a) hexec hitem
    cases hexec
    obtain ⟨ref, href, -⟩ := Sys.mem_reaped hitem
    refine ⟨hfree, ?_⟩
    intro ref' href'
    have hcancel := hinv.listed item.1 ref href
    rw [hcancel] at href'
    cases href'
    rcases hremoved item.1 ref href with hsome | hspent
    · rw [hfree] at hsome
      cases hsome
    · exact hspent

theorem reap_signal_safe (h : NoLaunch s) :
    Safe (machine svc permits) (SignalRun svc) (signalContract svc) .dispatcher svc.reap
      (fun _ => NoLaunch) s := by
  refine Code.safe_ask no_launch_enduring.stable h ?_
  intro s a done s' hinv hs hexec hallow
  obtain ⟨hinv', hguar, hlaunching, hreaped⟩ := reap_dead_signal_step (a := a) hinv hexec hallow
  refine ⟨hinv', hguar, ?_⟩
  have hquiet : NoLaunch s' := fun id => by rw [hlaunching, hs id]
  have henduring : Enduring fun s : Sys W => NoLaunch s ∧ ∀ item ∈ done, Reaped item.1 s := by
    intro s₁ s₂ hkeeps hframe hcancel hlaunching hstays h
    exact ⟨no_launch_enduring s₁ s₂ hkeeps hframe hcancel hlaunching hstays h.1,
      fun item hitem => reaped_enduring item.1 s₁ s₂ hkeeps hframe hcancel hlaunching hstays
        (h.2 item hitem)⟩
  refine safe_for_each (J := fun rest s => rest ⊆ done ∧ NoLaunch s ∧
    ∀ item ∈ done, Reaped item.1 s) ?_ ⟨fun _ h => h, hquiet, hreaped⟩ ?_ fun _ h => h.2.1
  · exact (Contract.stable_const _).and henduring.stable
  · intro item rest s hs
    have hitem : item ∈ done := hs.1 (List.mem_cons_self ..)
    refine (apply_signal_safe henduring (fun _ h => (h.2 item hitem).1)
      (fun _ s h => ⟨h.1 item.1, h.2 item hitem⟩) hs.2).mono ?_
    intro _ s' hs'
    exact ⟨fun x hx => hs.1 (List.mem_cons_of_mem _ hx), hs'⟩

/-- The event of a job in the launch of which it belongs, once it is registered. -/
structure Registered (row : Row) (ref : Ref) (s : Sys W) : Prop where
  quiet : NoLaunch s
  cancelOf : s.cancelOf.get? row.id = some ref
  phase : s.phase ref = .none

/-- Nobody else drops the event or starts its thread. -/
theorem registered_stable (row : Row) (ref : Ref) :
    (signalContract svc).Stable .dispatcher (Registered (W := W) row ref) := by
  intro u hu s s' hinv hinv' hguar h
  obtain ⟨hframe, -, hcancel, -⟩ := hguar.frame hu
  refine ⟨no_launch_enduring.stable u hu s s' hinv hinv' hguar h.quiet, ?_, ?_⟩
  · rw [hcancel]
    exact h.cancelOf
  · rw [(hframe.phase ref).still (by rw [h.phase]; rfl)]
    exact h.phase

theorem register_step {ref : Ref} (h : Launch row s) (hkind : svc.kinds row.kind ≠ none)
    (hinv : SignalInv svc s) (hexec : exec .dispatcher (.register row.id) a s = some (ref, s'))
    (hallow : SignalRun svc .dispatcher (.register row.id) s s') :
    SignalInv svc s' ∧ SignalGuar svc .dispatcher s s' ∧ Registered row ref s' := by
  have hlaunching : ∀ id, launching id s'.log = (launching id s.log && row.id != id) := by
    intro id
    cases hexec
    exact launching_append _ _ _ _
  have hquiet : NoLaunch s' := by
    intro id
    rw [hlaunching]
    by_cases hid : launching id s.log = true
    · simp [h.only id hid]
    · simp [hid]
  have hcancel : ∀ id, s'.cancelOf.get? id = if id = row.id then some ref
      else s.cancelOf.get? id := by
    intro id
    cases hexec
    exact Dict.get?_set _ _ _ _
  have hphase : s'.phase ref = .none := by
    cases hexec
    exact hinv.workers.fresh _ le_rfl
  have hstatus : s'.status = s.status := by
    cases hexec
    rfl
  have hguar : SignalGuar svc .dispatcher s s' := by
    refine ⟨hallow.2.lawful.keeps, (scope hexec).flag, ?_, ?_, ?_, fun hne => absurd rfl hne⟩
    · cases hexec
      exact fun _ h => h
    · intro id hid
      rw [hquiet id] at hid
      cases hid
    · intro id ref' href'
      rw [hcancel] at href'
      split at href'
      · rename_i hid
        obtain ⟨r, hr⟩ := Option.isSome_iff_exists.mp h.present
        exact .inr ⟨hid ▸ h.window, r, hid ▸ hr, by rwa [(h.knows.2 r hr).kind]⟩
      · exact .inl href'
  refine ⟨hinv.step hallow.2.after hguar ?_ ?_ ?_ ?_, hguar, hquiet, ?_, hphase⟩
  · intro id ref' href'
    have hold : s.workers.get? id = some ref' := by
      cases hexec
      exact href'
    rw [hcancel, if_neg, hinv.listed id ref' hold]
    rintro rfl
    rw [h.free] at hold
    cases hold
  · intro id ref' hst href'
    rw [hstatus] at hst
    rw [hcancel] at href'
    split at href'
    · rename_i hid
      rw [hid] at hst
      exact absurd hst (hinv.launching row.id h.window).2
    · cases hexec
      exact hinv.queued id ref' hst href'
  · intro id hid
    rw [hquiet id] at hid
    cases hid
  · exact fun u id hmem => .inl (returned_exec hexec hmem (by rintro _ ⟨⟩))
  · rw [hcancel, if_pos rfl]

theorem unstarted_step {a : Ans W op} {r : Res W op} {ref : Ref} {p : Phase}
    (hinv : SignalInv svc s) (hexec : exec .dispatcher op a s = some (r, s'))
    (hallow : SignalRun svc .dispatcher op s s') (hop : op.moves = true)
    (hphase : s'.phase = Function.update s.phase ref p) (hold : ¬ Spent ref s)
    (hlisted : ∀ id ref', s'.workers.get? id = some ref' →
      s.workers.get? id = some ref' ∨ s.cancelOf.get? id = some ref') :
    SignalInv svc s' ∧ SignalGuar svc .dispatcher s s' ∧
      ∀ id, launching id s'.log = launching id s.log := by
  have hscope : op.launches = false ∧ op.registers = false ∧ (∀ id, op ≠ .returned id) ∧
      s'.rows = s.rows := by
    cases op with
    | putWorker id ref row =>
        cases hexec
        exact ⟨rfl, rfl, by rintro _ ⟨⟩, rfl⟩
    | startThread ref =>
        simp only [exec] at hexec
        split at hexec
        · cases hexec
          exact ⟨rfl, rfl, by rintro _ ⟨⟩, rfl⟩
        · cases hexec
    | enter ref row =>
        cases hexec
        exact ⟨rfl, rfl, by rintro _ ⟨⟩, rfl⟩
    | leave ref outcome =>
        cases hexec
        exact ⟨rfl, rfl, by rintro _ ⟨⟩, rfl⟩
    | _ => cases hop
  obtain ⟨hlaunches, hregisters, hreturned, hrows⟩ := hscope
  have hlaunching := launching_exec hlaunches hexec
  have hcancel := (scope hexec).cancelOf hregisters
  have hspent : ∀ ref', Spent ref' s → Spent ref' s' := by
    intro ref' hspent
    obtain ⟨outcome, hdead⟩ := hspent
    have hne : ref' ≠ ref := by
      rintro rfl
      exact hold ⟨outcome, hdead⟩
    exact ⟨outcome, by rw [hphase, Function.update_of_ne hne, hdead]⟩
  have hguar : SignalGuar svc .dispatcher s s' := by
    refine ⟨hallow.2.lawful.keeps, (scope hexec).flag, hspent, ?_, ?_, fun hne => absurd rfl hne⟩
    · intro id hid
      exact .inl (by rwa [hlaunching] at hid)
    · intro id ref' href'
      exact .inl (by rwa [hcancel] at href')
  refine ⟨hinv.step hallow.2.after hguar ?_ ?_ ?_ ?_, hguar, hlaunching⟩
  · intro id ref' href'
    rw [hcancel]
    rcases hlisted id ref' href' with hworker | hsome
    · exact hinv.listed id ref' hworker
    · exact hsome
  · intro id ref' hst href'
    rw [Sys.status, hrows] at hst
    rw [hcancel] at href'
    exact hspent ref' (hinv.queued id ref' hst href')
  · intro id hid
    rw [hlaunching] at hid
    rw [Sys.status, hrows]
    exact (hinv.launching id hid).2
  · exact fun u id hmem => .inl (returned_exec hexec hmem hreturned)

theorem launch_signal_safe (hinline : svc.inline = false) (h : Launch row s) :
    Safe (machine svc permits) (SignalRun svc) (signalContract svc) .dispatcher (svc.launch row)
      (fun _ s => ∀ id, launching id s.log = true → id = row.id) s := by
  unfold Service.launch
  split
  · refine (apply_signal_safe (launch_enduring row) (fun _ h => h.free) ?_ h).mono
      fun _ _ h => h.only
    rintro ⟨row', hleads⟩
    cases hleads
  · rename_i k hk
    refine Code.safe_ask (launch_enduring row).stable h ?_
    intro s a ref s' hinv hs hexec hallow
    obtain ⟨hinv', hguar, hregistered⟩ :=
      register_step (a := a) hs (by simp [hk]) hinv hexec hallow
    refine ⟨hinv', hguar, ?_⟩
    rw [hinline]
    refine Code.safe_act (registered_stable row ref) hregistered ?_
    intro s a _ s' hinv hs hexec hallow
    have hphase : s'.phase = Function.update s.phase ref (.created row) := by
      cases hexec
      rfl
    have hlisted : ∀ id ref', s'.workers.get? id = some ref' →
        s.workers.get? id = some ref' ∨ s.cancelOf.get? id = some ref' := by
      intro id ref' href'
      cases hexec
      rw [Dict.get?_set] at href'
      split at href'
      · rename_i hid
        cases href'
        exact .inr (hid ▸ hs.cancelOf)
      · exact .inl href'
    obtain ⟨hinv', hguar, hlaunching⟩ := unstarted_step hinv hexec hallow rfl hphase
      (by rintro ⟨outcome, h⟩; rw [hs.phase] at h; cases h) hlisted
    have hquiet : NoLaunch s' := fun id => by rw [hlaunching, hs.quiet id]
    refine ⟨hinv', hguar, ?_⟩
    have hlast : Safe (machine svc permits) (SignalRun svc) (signalContract svc) .dispatcher
        (Code.act (.startThread ref)) (fun _ => NoLaunch) s' := by
      refine Code.safe_last no_launch_enduring.stable hquiet no_launch_enduring.stable ?_
      intro s a _ s' hinv hs hexec hallow
      have hcreated : ∃ row', s.phase ref = .created row' ∧ s'.workers = s.workers ∧
          s'.phase = Function.update s.phase ref (.started row') := by
        simp only [exec] at hexec
        split at hexec
        · rename_i row' hrow'
          cases hexec
          exact ⟨row', hrow', rfl, rfl⟩
        · cases hexec
      obtain ⟨row', hrow', hworkers, hphase⟩ := hcreated
      obtain ⟨hinv', hguar, hlaunching⟩ := unstarted_step hinv hexec hallow rfl hphase
        (by rintro ⟨outcome, h⟩; rw [hrow'] at h; cases h)
        (fun id ref' href' => .inl (by rwa [hworkers] at href'))
      exact ⟨hinv', hguar, fun id => by rw [hlaunching, hs id]⟩
    refine hlast.mono ?_
    intro _ s hs id hid
    rw [hs id] at hid
    cases hid

theorem claim_launching {only : Option (List Status)} {set : Row → Row} {ok : Bool}
    (hexec : exec t (.update .claim id only set) a s = some (ok, s')) (other : String) :
    launching other s'.log = (launching other s.log || ok && id == other) := by
  simp only [exec, Sys.update, Option.some.injEq] at hexec
  split at hexec
  · cases hexec
    simp
  · rename_i r hr
    cases hexec
    have hwrite : launching other (s.write t r (set r)).log = launching other s.log := by
      rw [Sys.write_log]
      refine launching_same fun u e hmem => ?_
      split at hmem
      · rw [List.mem_singleton] at hmem
        cases hmem
        rfl
      · cases hmem
    simp only [if_true, Sys.note, launching_append, hwrite, Event.launching, Bool.true_and]

theorem claim_signal_step {now : ℚ} {ok : Bool} (hinv : SignalInv svc s) (hquiet : NoLaunch s)
    (hknows : Knows row s)
    (hexec : exec .dispatcher (.update .claim row.id (some [.queued]) (claimedRow now)) a s =
      some (ok, s')) (hallow : SignalRun svc .dispatcher
      (.update .claim row.id (some [.queued]) (claimedRow now)) s s') :
    SignalInv svc s' ∧ SignalGuar svc .dispatcher s s' ∧ (ok = true → Launch row s') ∧
      (ok = false → NoLaunch s') := by
  obtain ⟨hstill, hok⟩ := claim_step (a := a) hallow.2.lawful hexec
  have hlaunching : ∀ id, launching id s'.log = (ok && row.id == id) := by
    intro id
    rw [claim_launching hexec, hquiet id, Bool.false_or]
  have hcancel := (scope hexec).cancelOf rfl
  have hclaims : ∀ id, launching id s'.log = true → ok = true ∧ row.id = id := by
    intro id hid
    simpa [hlaunching] using hid
  have hguar : SignalGuar svc .dispatcher s s' := by
    refine ⟨hallow.2.lawful.keeps, (scope hexec).flag, fun _ => hstill.frame.spent, ?_, ?_,
      fun hne => absurd rfl hne⟩
    · intro id hid
      obtain ⟨htrue, rfl⟩ := hclaims id hid
      exact .inr (hok htrue).1
    · intro id ref href
      exact .inl (by rwa [hcancel] at href)
  refine ⟨hinv.step hallow.2.after hguar ?_ ?_ ?_ ?_, hguar, ?_, ?_⟩
  · intro id ref href
    rw [hstill.workers] at href
    rw [hcancel]
    exact hinv.listed id ref href
  · intro id ref hst href
    rw [hcancel] at href
    exact hstill.frame.spent
      (hinv.queued id ref (hstill.unqueued id (hinv.known id ref href) hst) href)
  · intro id hid
    obtain ⟨htrue, rfl⟩ := hclaims id hid
    rw [(hok htrue).2]
    simp
  · exact fun u id hmem => .inl (returned_exec hexec hmem (by rintro _ ⟨⟩))
  · intro htrue
    obtain ⟨hqueued, hrunning⟩ := hok htrue
    refine ⟨by simp [hlaunching, htrue], fun id hid => (hclaims id hid).2.symm, ?_,
      hallow.2.lawful.keeps.knows hknows, ?_⟩
    · unfold Unlisted
      rw [hstill.workers, ← Option.not_isSome_iff_eq_none]
      intro hsome
      obtain ⟨ref, href⟩ := Option.isSome_iff_exists.mp hsome
      exact (hinv.workers.listed row.id ref href).2 hqueued
    · simp only [Sys.status, Option.map_eq_some_iff] at hrunning
      obtain ⟨r, hr, -⟩ := hrunning
      rw [hr]
      rfl
  · rintro rfl id
    rw [hlaunching, Bool.false_and]

theorem Launch.reread (h : Launch row s) (hinv : SignalInv svc s) :
    Launch ((s.rows.get? row.id).getD row) s ∧ ((s.rows.get? row.id).getD row).id = row.id := by
  cases hr : s.rows.get? row.id with
  | none => exact ⟨h, rfl⟩
  | some r =>
      obtain ⟨hid, hknows⟩ := knows_of_get hinv.workers.ledger hr
      have hid : r.id = row.id := hid
      refine ⟨⟨?_, ?_, ?_, hknows, ?_⟩, hid⟩
      · rw [Option.getD_some, hid]
        exact h.window
      · rw [Option.getD_some, hid]
        exact h.only
      · rw [Option.getD_some, hid]
        exact h.free
      · rw [Option.getD_some, hid]
        exact h.present

theorem reread_step {after : Option Row} (hinv : SignalInv svc s)
    (honly : ∀ id', launching id' s.log = true → id' = id)
    (hexec : exec .dispatcher (.get .after id) a s = some (after, s'))
    (hallow : SignalRun svc .dispatcher (.get .after id) s s') :
    SignalInv svc s' ∧ SignalGuar svc .dispatcher s s' ∧ NoLaunch s' := by
  have hquiet : NoLaunch s' := by
    intro id'
    cases hexec
    rw [Sys.note, launching_append]
    by_cases hid : launching id' s.log = true
    · simp [Event.launching, honly id' hid]
    · simp [Event.launching, hid]
  have hguar : SignalGuar svc .dispatcher s s' := by
    refine ⟨hallow.2.lawful.keeps, (scope hexec).flag, ?_, ?_, ?_, fun hne => absurd rfl hne⟩
    · cases hexec
      exact fun _ h => h
    · intro id' hid'
      rw [hquiet id'] at hid'
      cases hid'
    · cases hexec
      exact fun _ _ h => .inl h
  refine ⟨hinv.step hallow.2.after hguar ?_ ?_ ?_ ?_, hguar, hquiet⟩
  · cases hexec
    exact hinv.listed
  · cases hexec
    exact hinv.queued
  · intro id' hid'
    rw [hquiet id'] at hid'
    cases hid'
  · exact fun u id hmem => .inl (returned_exec hexec hmem (by rintro _ ⟨⟩))

/-- The loop of `_start_due`. -/
theorem start_loop_signal_safe {now : ℚ} {limit : Int} {due : List Row} {held : List String}
    {count : Int} {started : Nat} (hinline : svc.inline = false) (h : NoLaunch s)
    (hdue : ∀ row ∈ due, Knows row s) :
    Safe (machine svc permits) (SignalRun svc) (signalContract svc) .dispatcher
      (svc.startLoop now limit due held count started) (fun _ => NoLaunch) s := by
  induction due generalizing held count started s with
  | nil => exact safe_ret no_launch_enduring.stable h fun _ h => h
  | cons row rest ih =>
      have hkept : (signalContract svc).Kept fun s : Sys W => ∀ r ∈ rest, Knows r s :=
        fun u s s' _ _ hguar hs r hr => hguar.keeps.knows (hs r hr)
      have hknown : (signalContract svc).Kept (Knows (W := W) row) :=
        fun u s s' _ _ hguar hs => hguar.keeps.knows hs
      have hrest : ∀ r ∈ rest, Knows r s := fun r hr => hdue r (List.mem_cons_of_mem _ hr)
      have hquiet : (signalContract svc).Stable .dispatcher (NoLaunch (W := W)) :=
        no_launch_enduring.stable
      have hstable := hquiet.and (hkept.stable .dispatcher)
      have hrow := hdue row (List.mem_cons_self ..)
      unfold Service.startLoop
      split
      · rename_i clash hclash
        split
        · refine tame_ask ⟨⟨.inl (.waiting _), rfl⟩, rfl⟩ hstable ⟨h, hrest⟩ ?_
          intro s _ _ s' _ _ _ hs' _
          exact ih hs'.1 hs'.2
        · exact ih h hrest
      · split
        · exact safe_ret no_launch_enduring.stable h fun _ h => h
        · refine Code.safe_ask (hstable.and (hknown.stable .dispatcher)) ⟨⟨h, hrest⟩, hrow⟩ ?_
          intro s a ok s' hinv hs hexec hallow
          obtain ⟨hinv', hguar, hlaunch, hquiet⟩ :=
            claim_signal_step (a := a) hinv hs.1.1 hs.2 hexec hallow
          have hrest' := hkept .dispatcher s s' hinv hinv' hguar hs.1.2
          refine ⟨hinv', hguar, ?_⟩
          split
          · rename_i htrue
            refine tame_ask ⟨⟨trivial, rfl⟩, rfl⟩
              ((launch_enduring row).stable.and (hkept.stable .dispatcher))
              ⟨hlaunch htrue, hrest'⟩ ?_
            intro s _ found s' hinv _ hs _ hexec
            cases hexec
            obtain ⟨hlaunch, hid⟩ := hs.1.reread hinv
            refine safe_bind (((launch_signal_safe hinline hlaunch).frame hkept hs.2).mono ?_)
            intro _ s hs
            rw [hid] at hs
            have honly : Enduring fun s : Sys W =>
                ∀ id, launching id s.log = true → id = row.id := by
              intro s₁ s₂ _ _ _ hlaunching _ h id hid
              rw [hlaunching] at hid
              exact h id hid
            refine Code.safe_ask (honly.stable.and (hkept.stable .dispatcher)) hs ?_
            intro s a after s' hinv hs hexec hallow
            obtain ⟨hinv', hguar, hquiet⟩ := reread_step (a := a) hinv hs.1 hexec hallow
            have hrest' := hkept .dispatcher s s' hinv hinv' hguar hs.2
            refine ⟨hinv', hguar, ?_⟩
            split
            · split
              · exact ih hquiet hrest'
              · exact ih hquiet hrest'
            · exact ih hquiet hrest'
          · rename_i hfalse
            exact ih (hquiet (by simpa using hfalse)) hrest'

theorem start_due_signal_safe {now : ℚ} (hinline : svc.inline = false) (h : NoLaunch s) :
    Safe (machine svc permits) (SignalRun svc) (signalContract svc) .dispatcher
      (svc.startDue now) (fun _ => NoLaunch) s := by
  have hstable : (signalContract svc).Stable .dispatcher (NoLaunch (W := W)) :=
    no_launch_enduring.stable
  refine tame_ask ⟨⟨trivial, rfl⟩, rfl⟩ hstable h ?_
  intro s _ running s' _ _ _ hs' _
  refine tame_ask ⟨⟨trivial, rfl⟩, rfl⟩ hstable hs' ?_
  intro s _ ids s' _ _ _ hs' _
  refine tame_seq (Service.tame_of_plain (Service.worker_rows_plain _ _)) hstable hs' ?_
  intro live s hs
  refine tame_ask ⟨⟨trivial, rfl⟩, rfl⟩ hstable hs ?_
  intro s _ workers s' _ _ _ hs' _
  refine tame_ask ⟨⟨trivial, rfl⟩, rfl⟩ hstable hs' ?_
  intro s _ due s' hinv _ hs _ hexec
  cases hexec
  refine start_loop_signal_safe hinline hs ?_
  intro row hrow
  obtain ⟨id, hget⟩ := Ledger.get_of_mem_due hrow
  exact (knows_of_get hinv.workers.ledger hget).2

theorem tick_signal_safe (hinline : svc.inline = false) (h : NoLaunch s) :
    Safe (machine svc permits) (SignalRun svc) (signalContract svc) .dispatcher svc.tick
      (fun _ => NoLaunch) s := by
  have hstable : (signalContract svc).Stable .dispatcher (NoLaunch (W := W)) :=
    no_launch_enduring.stable
  refine tame_ask ⟨⟨trivial, rfl⟩, rfl⟩ hstable h ?_
  intro s _ now s' _ _ _ hs' _
  refine safe_bind ((reap_signal_safe hs').mono ?_)
  intro _ s hs
  refine tame_seq (Service.timeouts_tame now) hstable hs ?_
  intro _ s hs
  refine tame_seq (Service.tame_of_plain (Service.leases_plain now)) hstable hs ?_
  intro _ s hs
  refine safe_bind ((start_due_signal_safe hinline hs).mono ?_)
  intro _ s hs
  refine tame_ask ⟨⟨trivial, rfl⟩, rfl⟩ hstable hs ?_
  intro s _ sweeps s' _ _ _ hs' _
  split
  · refine tame_ask ⟨⟨trivial, rfl⟩, rfl⟩ hstable hs' ?_
    intro s _ days s' _ _ _ hs' _
    refine Code.safe_last hstable hs' hstable ?_
    intro s a _ s' hinv hs hexec hallow
    have hstill := sweep_still (a := a) hallow.2.lawful hexec
    have hmild := mild_exec rfl rfl hstill.keeps hstill.frame hstill.unqueued hexec
    have hguar : SignalGuar svc .dispatcher s s' := hmild.guar _ fun hne => absurd rfl hne
    exact ⟨hmild.inv hinv hallow.2.after hguar
      (fun u id hmem => .inl (returned_exec hexec hmem (by rintro _ ⟨⟩))), hguar,
      fun id => by rw [hmild.launching, hs id]⟩
  · exact safe_ret hstable hs' fun _ h => h

theorem moves_step {a : Ans W op} {r : Res W op} (ht : t ≠ .dispatcher) (hinv : SignalInv svc s)
    (hexec : exec t op a s = some (r, s')) (hallow : SignalRun svc t op s s')
    (hlaunches : op.launches = false) (hregisters : op.registers = false)
    (hsweeps : op.sweeps = false) (hreturned : ∀ id, op ≠ .returned id) :
    SignalInv svc s' ∧ SignalGuar svc t s s' := by
  obtain ⟨hframe, hun⟩ := hallow.2.guar.frame ht
  have hmild := mild_exec hlaunches hregisters hallow.2.lawful.keeps hframe hun hexec
  have hguar : SignalGuar svc t s s' :=
    hmild.guar t fun _ id hid => (rows_step hexec).stays hsweeps hid
  exact ⟨hmild.inv hinv hallow.2.after hguar
    fun u id hmem => .inl (returned_exec hexec hmem hreturned), hguar⟩

theorem work_signal_safe {k : Kind W} {ref : Ref} :
    Safe (machine svc permits) (SignalRun svc) (signalContract svc) (.worker ref)
      (Service.work k row ref) (fun _ _ => True) s := by
  refine Code.safe_act (Contract.stable_const True) trivial ?_
  intro s a _ s' hinv _ hexec hallow
  obtain ⟨hinv', hguar⟩ := moves_step (by simp) hinv hexec hallow rfl rfl rfl
    fun _ h => nomatch h
  refine ⟨hinv', hguar, ?_⟩
  refine tame_seq (Service.tame_of_plain (Service.run_plain k row ref))
    (Contract.stable_const True) trivial ?_
  intro result s _
  refine Code.safe_last (Contract.stable_const True) trivial (Contract.stable_const True) ?_
  intro s a _ s' hinv _ hexec hallow
  obtain ⟨hinv', hguar⟩ := moves_step (by simp) hinv hexec hallow rfl rfl rfl
    fun _ h => nomatch h
  exact ⟨hinv', hguar, trivial⟩

/-- Whatever a thread may call keeps the promise about the cancel events. -/
theorem signal_start_safe {call : Call} {p : Code W Unit} (hinline : svc.inline = false)
    (hpermits : permits .recover = false) (h : (signalContract svc).idle t s)
    (hp : (machine svc permits).start t call s = some p) :
    Safe (machine svc permits) (SignalRun svc) (signalContract svc) t p
      (fun _ => (signalContract svc).idle t) s := by
  by_cases ht : t = .dispatcher
  · subst ht
    cases dispatcher_start hpermits hp
    exact (tick_signal_safe hinline (h rfl)).mono fun _ _ h _ => h
  · suffices Safe (machine svc permits) (SignalRun svc) (signalContract svc) t p
        (fun _ _ => True) s from this.mono fun _ _ _ hdisp => absurd hdisp ht
    have htame : ∀ {q : Code W Unit}, q.All Op.Tame → Safe (machine svc permits)
        (SignalRun svc) (signalContract svc) t q (fun _ _ => True) s :=
      fun hq => tame_safe hq (Contract.stable_const True) trivial
    simp only [machine, start] at hp
    split at hp
    · cases hp
    · split at hp
      · exact absurd rfl ht
      · exact absurd rfl ht
      · cases hp
        exact htame (Service.tame_of_plain
          (Code.all_seq (Service.submit_plain _) fun _ => trivial))
      · cases hp
        exact safe_bind ((cancel_signal_safe ht).mono fun _ _ _ =>
          safe_ret (Contract.stable_const True) trivial fun _ _ => trivial)
      · cases hp
        exact htame (Service.tame_of_plain
          (Code.all_seq (Service.ack_plain _ _) fun _ => trivial))
      · cases hp
        exact htame ⟨⟨⟨trivial, rfl⟩, rfl⟩, fun _ => trivial⟩
      · cases hp
        exact htame ⟨⟨⟨trivial, rfl⟩, rfl⟩, fun _ => trivial⟩
      · split at hp
        · rw [Option.map_eq_some_iff] at hp
          obtain ⟨k, -, rfl⟩ := hp
          exact work_signal_safe
        · cases hp
      · cases hp

end Signals

/-- In every run of a threaded service in which no cancel looks for the event of a job that is
being launched, a handler that runs after a cancel of its job has returned sees its flag set. -/
theorem signal_kept {svc : Service W} {permits : Call → Bool} {rows : Ledger}
    {c : Config Tid (Op W) (Res W) (Sys W)} (hrows : rows.Consistent)
    (hinline : svc.inline = false) (hpermits : permits .recover = false)
    (h : Reachable (machine svc permits) (SignalLands svc) (Sys.boot rows) c) :
    ∀ t ref row, (t, Event.returned row.id) ∈ c.state.log → c.state.phase ref = .running row →
      c.state.flag ref = true := by
  have hinit : SignalInv svc (Sys.boot rows : Sys W) := by
    refine ⟨workers_inv_boot hrows, ?_, ?_, ?_, ?_, ?_⟩
    · exact fun _ _ href => nomatch href
    · exact fun _ _ _ href => nomatch href
    · exact fun _ _ href => nomatch href
    · exact fun _ hid => nomatch hid
    · exact fun _ _ hmem => nomatch hmem
  have hholds := (signalContract svc).sound hinit (fun _ _ _ => rfl)
    (by
      intro t
      by_cases ht : t = .dispatcher
      · subst ht
        exact fun u hu s s' hinv hinv' hguar hs _ =>
          no_launch_enduring.stable u hu s s' hinv hinv' hguar (hs rfl)
      · exact fun _ _ _ _ _ _ _ _ hdisp => absurd hdisp ht)
    (fun t call s p _ hs hp => signal_start_safe hinline hpermits hs hp)
    (tended_run hrows hinline hpermits h)
  intro t ref row hmem hrow
  have hinv := hholds.inv
  have htable := hinv.workers.table ref row (by rw [hrow]; rfl)
  rcases (hinv.returned t row.id hmem).flagged ref (hinv.listed row.id ref htable) with
    hflag | ⟨outcome, hdead⟩ | hpending
  · exact hflag
  · rw [hrow] at hdead
    cases hdead
  · cases hpending

/-- A cancel of the job has returned. -/
def Sys.hasReturned (s : Sys W) (id : String) : Bool :=
  s.log.any fun entry => match entry.2 with
    | .returned id' => id' == id
    | _ => false

theorem Sys.returned_of_has (h : s.hasReturned id = true) :
    ∃ t, (t, Event.returned id) ∈ s.log := by
  simp only [Sys.hasReturned, List.any_eq_true] at h
  obtain ⟨⟨t, e⟩, hmem, he⟩ := h
  cases e with
  | returned id' =>
      simp only [beq_iff_eq] at he
      exact ⟨t, he ▸ hmem⟩
  | _ => cases he

/-- The job is claimed, and a whole `cancel` of it runs before `_launch` registers its event. -/
def cancelDuringLaunch : List (Choice Tid (Ans noWorld) Call) :=
  .start .dispatcher .tick :: steps .dispatcher 9 ++
    .start (.request 0) (.cancel "j" "" CANCELLED) :: steps (.request 0) 6

/-- The lookup of that cancel finds no event: the handler is invoked after the cancel has
returned, and its flag is not set. -/
theorem signal_lost :
    oneQueued.Consistent ∧
    ∃ c c', Reachable (machine echoService noRecover) (fun _ _ _ _ => True)
        (Sys.boot oneQueued) c ∧
      ReflTransGen (Step (machine echoService noRecover) fun _ _ _ _ => True) c c' ∧
      (∃ t, (t, Event.returned "j") ∈ c.state.log) ∧ (c.state.phase 0).runs = none ∧
      (∃ row, c'.state.phase 0 = .running row ∧ row.id = "j") ∧ c'.state.flag 0 = false := by
  refine ⟨one_queued_consistent, ?_⟩
  have hrun : ((Config.idle (Sys.boot oneQueued)).plays (machine echoService noRecover)
      (fun _ _ _ _ => True) cancelDuringLaunch).bind (fun c => (c.plays
        (machine echoService noRecover) (fun _ _ _ _ => True) (steps .dispatcher 4 ++
          .start (.worker 0) .work :: steps (.worker 0) 1)).bind fun c' =>
            some ((c.state.hasReturned "j", (c.state.phase 0).runs),
              (c'.state.flag 0, (c'.state.phase 0).runs))) =
      some ((true, none), (false, some ("j", []))) := by decide +kernel
  obtain ⟨c, hc, hrest⟩ := exists_run_of_plays hrun
  obtain ⟨c', hc', hstate⟩ := exists_run_of_plays hrest
  obtain ⟨⟨hreturned, hnone⟩, hflag, hruns⟩ : (c.state.hasReturned "j" = true ∧
      (c.state.phase 0).runs = none) ∧ c'.state.flag 0 = false ∧
      (c'.state.phase 0).runs = some ("j", []) := by simpa using hstate
  exact ⟨c, c', hc, hc', Sys.returned_of_has hreturned, hnone, Phase.runs_eq_some hruns, hflag⟩

/-- A cancel of a job whose handler runs is seen by the handler. -/
theorem signal_seen :
    oneQueued.Consistent ∧ echoService.inline = false ∧ noRecover .recover = false ∧
    ∃ c, Reachable (machine echoService noRecover) (SignalLands echoService)
        (Sys.boot oneQueued) c ∧
      (∃ row, c.state.phase 0 = .running row ∧ row.id = "j") ∧ c.state.flag 0 = true := by
  refine ⟨one_queued_consistent, rfl, rfl, ?_⟩
  have hrun : ((Config.idle (Sys.boot oneQueued)).plays (machine echoService noRecover)
      (SignalLands echoService) (.start .dispatcher .tick :: steps .dispatcher 13 ++
        .start (.worker 0) .work :: steps (.worker 0) 1 ++
          .start (.request 0) (.cancel "j" "" CANCELLED) :: steps (.request 0) 7)).bind
            (fun c => some (c.state.hasReturned "j", (c.state.phase 0).runs)) =
      some (true, some ("j", [])) := by decide +kernel
  obtain ⟨c, hc, hstate⟩ := exists_run_of_plays hrun
  obtain ⟨hreturned, hruns⟩ : c.state.hasReturned "j" = true ∧
      (c.state.phase 0).runs = some ("j", []) := by simpa using hstate
  obtain ⟨t, hmem⟩ := Sys.returned_of_has hreturned
  obtain ⟨row, hrow, hid⟩ := Phase.runs_eq_some hruns
  exact ⟨c, hc, ⟨row, hrow, hid⟩,
    signal_kept one_queued_consistent rfl rfl hc t 0 row (hid ▸ hmem) hrow⟩

end SystemsManager.Jobs
