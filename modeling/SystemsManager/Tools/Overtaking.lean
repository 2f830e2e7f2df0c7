import SystemsManager.Jobs.Exclusive
import SystemsManager.Tools.FirstCome

/-!
# Due rows in order

The loop of `_start_due` over the due rows. `Loop` is its invariant: for a tool run that is still
to come, each tool run that was submitted before it for the same host is over, or its key is
held, or it comes before it in the loop. So a claimed tool run is behind the earlier ones, and
`first_come` follows. `overtaken` is a run in which a busy answer puts the first of two tool runs
behind the second.
-/

namespace SystemsManager.Tools

open Python Concurrency Jobs Relation

variable {V : World} {d : Deps} {s s' : Sys (ToolWorld V)}

/-- What holds in the loop of `_start_due` with these rows to come and these keys held, but for
the jobs to skip. -/
structure Loop (d : Deps) (skip : String → Prop) (rest : List Row) (held : List String)
    (s : Sys (ToolWorld V)) : Prop where
  holds : ∀ id r, s.rows.get? id = some r → r.kind = KIND → r.status = .running →
    skip id ∨ perfKey d r.spec ∈ held
  ready : ∀ y ∈ rest, y.kind = KIND → ∀ x ∈ s.earlier y.id, ∀ r, s.rows.get? x = some r →
    r.kind = KIND → perfKey d r.spec = perfKey d y.spec → r.status.terminal = true ∨ skip x ∨
      perfKey d r.spec ∈ held ∨ [x, y.id].Sublist (rest.map Row.id)
  known : ∀ y ∈ rest, Knows y s
  apart : (rest.map Row.id).Nodup
  clean : ∀ y ∈ rest, "" ∉ y.exclusive

/-- The loop between two turns. -/
abbrev Between (d : Deps) (rest : List Row) (held : List String) (s : Sys (ToolWorld V)) : Prop :=
  Loop d (fun _ => False) rest held s

/-- The loop after the row is claimed: the tool run is running and behind the earlier ones. -/
structure Turn (d : Deps) (y : Row) (rest : List Row) (held : List String)
    (s : Sys (ToolWorld V)) : Prop where
  loop : Loop d (fun id => id = y.id) rest held s
  known : Knows y s
  own : y.kind = KIND → s.status y.id = some .running ∧ Behind d y s

theorem status_of_get {id : String} {r : Row} (h : s.rows.get? id = some r) :
    s.status id = some r.status := by
  simp [Sys.status, h]

theorem get_of_status {id : String} {st : Status} (h : s.status id = some st) :
    ∃ r, s.rows.get? id = some r ∧ r.status = st := by
  simpa [Sys.status] using h

theorem row_before (h : Keeps s s') {id : String} {r' : Row} (hid : id ∈ s.ids)
    (hr' : s'.rows.get? id = some r') : ∃ r, s.rows.get? id = some r ∧ SameJob r r' := by
  cases hr : s.rows.get? id with
  | none =>
      rw [h.absent id hid hr] at hr'
      cases hr'
  | some r => exact ⟨r, rfl, h.job id r r' hr hr'⟩

section Turns

variable {skip : String → Prop} {y : Row} {rest : List Row} {held : List String}

theorem ready_step (hkeeps : Keeps s s') (hearlier : ∀ id ∈ s.ids, s'.earlier id = s.earlier id)
    (h : Loop d skip rest held s) : ∀ z ∈ rest, z.kind = KIND → ∀ x ∈ s'.earlier z.id, ∀ r',
      s'.rows.get? x = some r' → r'.kind = KIND → perfKey d r'.spec = perfKey d z.spec →
      r'.status.terminal = true ∨ skip x ∨ perfKey d r'.spec ∈ held ∨
        [x, z.id].Sublist (rest.map Row.id) := by
  intro z hz hkind x hx r' hr' hkind' hhost
  rw [hearlier z.id (h.known z hz).1] at hx
  obtain ⟨r, hr, hjob⟩ := row_before hkeeps (Sys.earlier_subset hx) hr'
  rw [hjob.kind] at hkind'
  rw [hjob.spec] at hhost ⊢
  rcases h.ready z hz hkind x hx r hr hkind' hhost with hterm | hrest
  · left
    rw [hkeeps.terminal x r r' hr hterm hr']
    exact hterm
  · exact .inr hrest

theorem loop_persists : Persists (Loop (V := V) d skip rest held) := by
  intro s s' haside h
  refine ⟨?_, ready_step haside.keeps haside.earlier h,
    fun z hz => haside.keeps.knows (h.known z hz), h.apart, h.clean⟩
  intro id r' hr' hkind hst
  have hrunning : s'.status id = some .running := by rw [status_of_get hr', hst]
  obtain ⟨r, hr, hst⟩ := get_of_status (haside.quietly.running id hrunning)
  have hjob := haside.keeps.job id r r' hr hr'
  rw [hjob.kind] at hkind
  rw [hjob.spec]
  exact h.holds id r hr hkind hst

theorem turn_persists : Persists (Turn (V := V) d y rest held) := by
  intro s s' haside h
  refine ⟨loop_persists s s' haside h.loop, haside.keeps.knows h.known, ?_⟩
  intro hkind
  obtain ⟨hst, hbehind⟩ := h.own hkind
  refine ⟨?_, hbehind.step h.known.1 haside.keeps haside.earlier⟩
  obtain ⟨r, hr, -⟩ := get_of_status hst
  have htool : toolRow s y.id = true := by
    simp [toolRow, hr, (h.known.2 r hr).kind, hkind]
  rw [haside.quietly.status y.id htool, hst]

theorem Loop.pass (h : Between d (y :: rest) held s)
    (hy : ∀ r, s.rows.get? y.id = some r → r.kind = KIND →
      r.status.terminal = true ∨ perfKey d r.spec ∈ held) : Between d rest held s := by
  refine ⟨h.holds, ?_, fun z hz => h.known z (List.mem_cons_of_mem _ hz),
    (List.nodup_cons.mp h.apart).2, fun z hz => h.clean z (List.mem_cons_of_mem _ hz)⟩
  intro z hz hkind x hx r hr hkind' hhost
  rcases h.ready z (List.mem_cons_of_mem _ hz) hkind x hx r hr hkind' hhost with
    hterm | hno | hheld | hsub
  · exact .inl hterm
  · exact hno.elim
  · exact .inr (.inr (.inl hheld))
  · rw [List.map_cons] at hsub
    cases hsub with
    | cons _ hsub => exact .inr (.inr (.inr hsub))
    | cons_cons _ _ => exact (hy r hr hkind').imp_right fun hheld => .inr (.inl hheld)

theorem Loop.behind (h : Between d (y :: rest) held s) (hinv : OrderInv d s)
    (hclear : ∀ key ∈ y.exclusive, key ∉ held) (hkind : y.kind = KIND) {r : Row}
    (hr : s.rows.get? y.id = some r) : Behind d y s := by
  intro x hx r' hr' hkind' hhost
  have hjob := (h.known y (List.mem_cons_self ..)).2 r hr
  have hkeyed := hinv.keyed y.id r hr (by rw [hjob.kind, hkind])
  rw [hjob.exclusive, hjob.spec] at hkeyed
  rcases h.ready y (List.mem_cons_self ..) hkind x hx r' hr' hkind' hhost with
    hterm | hno | hheld | hsub
  · exact hterm
  · exact hno.elim
  · rw [hhost] at hheld
    exact absurd hheld (hclear _ (by rw [hkeyed]; exact List.mem_singleton_self _))
  · -- The row itself does not come again.
    have hmem : y.id ∈ rest.map Row.id := by
      rw [List.map_cons] at hsub
      cases hsub with
      | cons _ hsub => exact hsub.subset (by simp)
      | cons_cons _ hsub => exact hsub.subset (by simp)
    exact absurd hmem (List.nodup_cons.mp h.apart).1

theorem Loop.claim {now : ℚ} {a : Unit} {ok : Bool} (h : Between d (y :: rest) held s)
    (hinv : OrderInv d s) (hclear : ∀ key ∈ y.exclusive, key ∉ held)
    (hlawful : Lawful (.update .claim y.id (some [.queued]) (claimedRow now)) s s')
    (hexec : exec .dispatcher (.update .claim y.id (some [.queued]) (claimedRow now)) a s =
      some (ok, s')) (hok : ok = true) : Turn d y rest held s' := by
  obtain ⟨hqueued, hrunning⟩ := (claim_step (a := a) hlawful hexec).2 hok
  obtain ⟨r, hr, -⟩ := get_of_status hqueued
  have hearlier : ∀ id ∈ s.ids, s'.earlier id = s.earlier id :=
    fun id hid => @earlier_step _ s s' _ (.update .claim y.id (some [.queued])
      (claimedRow now)) a ok
      hexec id hid
  have hknown := h.known y (List.mem_cons_self ..)
  refine ⟨⟨?_, ?_, ?_, (List.nodup_cons.mp h.apart).2, ?_⟩, hlawful.keeps.knows hknown, ?_⟩
  · intro id r' hr' hkind hst
    by_cases hid : id = y.id
    · exact .inl hid
    · have hst' : s'.status id = some .running := by rw [status_of_get hr', hst]
      have hbefore : s.status id = some .running := by
        refine running_step (a := a) hlawful hexec hst' ?_
        intro only set heq
        cases heq
        exact hid rfl
      obtain ⟨r, hr, hst⟩ := get_of_status hbefore
      have hjob := hlawful.keeps.job id r r' hr hr'
      rw [hjob.kind] at hkind
      rw [hjob.spec]
      exact .inr ((h.holds id r hr hkind hst).resolve_left fun hno => hno)
  · intro z hz hkind x hx r' hr' hkind' hhost
    rcases ready_step hlawful.keeps hearlier h z (List.mem_cons_of_mem _ hz) hkind x hx r' hr'
      hkind' hhost with hterm | hno | hheld | hsub
    · exact .inl hterm
    · exact hno.elim
    · exact .inr (.inr (.inl hheld))
    · rw [List.map_cons] at hsub
      cases hsub with
      | cons _ hsub => exact .inr (.inr (.inr hsub))
      | cons_cons _ _ => exact .inr (.inl rfl)
  · exact fun z hz => hlawful.keeps.knows (h.known z (List.mem_cons_of_mem _ hz))
  · exact fun z hz => h.clean z (List.mem_cons_of_mem _ hz)
  · intro hkind
    exact ⟨hrunning, (h.behind hinv hclear hkind hr).step hknown.1 hlawful.keeps hearlier⟩

theorem Turn.same {y' : Row} (h : Turn d y rest held s) (hjob : SameJob y' y) :
    Turn d y' rest held s := by
  refine ⟨?_, h.known.same hjob, ?_⟩
  · rw [← hjob.id]
    exact h.loop
  · intro hkind
    obtain ⟨hst, hbehind⟩ := h.own (by rw [hjob.kind, hkind])
    unfold Behind at hbehind ⊢
    rw [← hjob.id, ← hjob.spec]
    exact ⟨hst, hbehind⟩

theorem Turn.running (h : Turn d y rest held s) (hinv : OrderInv d s) :
    Between d rest (held ++ y.exclusive) s := by
  have hown : ∀ r, s.rows.get? y.id = some r → r.kind = KIND →
      perfKey d r.spec ∈ y.exclusive := by
    intro r hr hkind
    rw [← (h.known.2 r hr).exclusive, hinv.keyed y.id r hr hkind]
    exact List.mem_singleton_self _
  refine ⟨?_, ?_, h.loop.known, h.loop.apart, h.loop.clean⟩
  · intro id r hr hkind hst
    rcases h.loop.holds id r hr hkind hst with rfl | hheld
    · exact .inr (List.mem_append_right _ (hown r hr hkind))
    · exact .inr (List.mem_append_left _ hheld)
  · intro z hz hkind x hx r hr hkind' hhost
    rcases h.loop.ready z hz hkind x hx r hr hkind' hhost with hterm | rfl | hheld | hsub
    · exact .inl hterm
    · exact .inr (.inr (.inl (List.mem_append_right _ (hown r hr hkind'))))
    · exact .inr (.inr (.inl (List.mem_append_left _ hheld)))
    · exact .inr (.inr (.inr hsub))

/-- After the turn, where the job is not read running: it is no tool run, and its keys are
released. -/
theorem Turn.released (h : Turn d y rest held s) (hclear : ∀ key ∈ y.exclusive, key ∉ held)
    (hst : s.status y.id ≠ some .running) :
    Between d rest ((held ++ y.exclusive).filter fun key => !y.exclusive.contains key) s := by
  have hno : ∀ r, s.rows.get? y.id = some r → r.kind = KIND → False := by
    intro r hr hkind
    rw [(h.known.2 r hr).kind] at hkind
    exact hst (h.own hkind).1
  have hkeeps : ∀ key ∈ held,
      key ∈ (held ++ y.exclusive).filter fun key => !y.exclusive.contains key := by
    intro key hkey
    rw [List.mem_filter]
    refine ⟨List.mem_append_left _ hkey, ?_⟩
    simp only [Bool.not_eq_true', List.contains_eq_mem, decide_eq_false_iff_not]
    exact fun hmem => hclear key hmem hkey
  refine ⟨?_, ?_, h.loop.known, h.loop.apart, h.loop.clean⟩
  · intro id r hr hkind hst
    rcases h.loop.holds id r hr hkind hst with rfl | hheld
    · exact (hno r hr hkind).elim
    · exact .inr (hkeeps _ hheld)
  · intro z hz hkind x hx r hr hkind' hhost
    rcases h.loop.ready z hz hkind x hx r hr hkind' hhost with hterm | rfl | hheld | hsub
    · exact .inl hterm
    · exact (hno r hr hkind').elim
    · exact .inr (.inr (.inl (hkeeps _ hheld)))
    · exact .inr (.inr (.inr hsub))

end Turns

section Launch

variable {svc : Service (ToolWorld V)} {permits : Call → Bool}
variable {y : Row} {rest : List Row} {held : List String}

theorem calm_step {op : Op (ToolWorld V)} {a : Ans (ToolWorld V) op} {r : Res (ToolWorld V) op}
    (hmoves : op.moves = false) (hsweeps : op.sweeps = false)
    (hrestates : ∀ id, op.restates id = false) (hinv : OrderInv d s)
    (hallow : OrderRun d .dispatcher op s s') (hexec : exec .dispatcher op a s = some (r, s')) :
    OrderInv d s' ∧ OrderGuar .dispatcher s s' ∧ Aside s s' := by
  have haside : Aside s s' := by
    refine aside_exec hallow.2.lawful hexec hsweeps ?_ fun id _ => hrestates id
    rintro id only set rfl
    have hself := hrestates id
    simp [Op.restates] at hself
  exact ⟨unmoved_order_step hinv hallow hexec hmoves (.inl (by simp)) fun _ row _ _ =>
    hrestates row.id, ⟨hallow.2.guar, haside.earlier, fun _ => haside.quietly⟩, haside⟩

theorem created_order_stable (ref : Ref) (row : Row) : (orderContract d).Stable .dispatcher
    fun s : Sys (ToolWorld V) => s.phase ref = .created row := by
  intro u hu s s' _ _ hguar h
  rw [((hguar.workers.frame hu).1.phase ref).still (by rw [h]; rfl), h]

/-- A step of the dispatcher that leaves the ledger alone and puts a thread into another
phase. -/
theorem phase_order_step {op : Op (ToolWorld V)} {a : Ans (ToolWorld V) op}
    {r : Res (ToolWorld V) op} (hsweeps : op.sweeps = false)
    (hrestates : ∀ id, op.restates id = false) (hmarks : marks op = false)
    (hinv : OrderInv d s) (hallow : OrderRun d .dispatcher op s s')
    (hexec : exec .dispatcher op a s = some (r, s'))
    (hjob : ∀ ref row, (s'.phase ref).job = some row → (s.phase ref).job = some row ∨
      (row.kind = KIND → s'.status row.id = some .running ∧ Behind d row s'))
    (hrunning : ∀ ref row, s'.phase ref = .running row → s.phase ref = .running row) :
    OrderInv d s' ∧ OrderGuar .dispatcher s s' ∧ Aside s s' := by
  have haside : Aside s s' := by
    refine aside_exec hallow.2.lawful hexec hsweeps ?_ fun id _ => hrestates id
    rintro id only set rfl
    have hself := hrestates id
    simp [Op.restates] at hself
  have hlawful := hallow.2.lawful
  obtain ⟨htraced, hstarts⟩ := hinv.traced_step (trace_exec (.inr hmarks) hexec) hrunning
  refine ⟨hinv.step hallow.2.after hlawful.keeps haside.earlier
    (fun id row hrow hkind hid => new_row_keyed hallow.1.2 hlawful hexec hrow hkind hid) ?_
    htraced hstarts, ⟨hallow.2.guar, haside.earlier, fun _ => haside.quietly⟩, haside⟩
  intro ref row hrow hkind
  rcases hjob ref row hrow with hold | hnew
  · exact hinv.alive_step hlawful hexec hold hkind (hrestates row.id)
  · exact hnew hkind

theorem start_order_step {ref : Ref} {a r : Unit} (hinv : OrderInv d s)
    (hturn : Turn d y rest held s) (hcreated : s.phase ref = .created y)
    (hallow : OrderRun d .dispatcher (.startThread ref) s s')
    (hexec : exec .dispatcher (.startThread ref) a s = some (r, s')) :
    OrderInv d s' ∧ OrderGuar .dispatcher s s' ∧ Turn d y rest held s' := by
  have haside : Aside s s' :=
    aside_exec (t := .dispatcher) (a := a) hallow.2.lawful hexec rfl (by simp) fun _ _ => rfl
  have hturn' := turn_persists s s' haside hturn
  have hphase : s'.phase = Function.update s.phase ref (.started y) := by
    simp only [exec, hcreated, Option.some.injEq, Prod.mk.injEq] at hexec
    obtain ⟨-, rfl⟩ := hexec
    rfl
  have hjob : ∀ ref' row, (s'.phase ref').job = some row → (s.phase ref').job = some row ∨
      (row.kind = KIND → s'.status row.id = some .running ∧ Behind d row s') := by
    intro ref' row hrow
    rcases start_thread_job (a := a) hcreated hexec hrow with ⟨-, rfl⟩ | hold
    · exact .inr hturn'.own
    · exact .inl hold
  have hrunning : ∀ ref' row, s'.phase ref' = .running row → s.phase ref' = .running row := by
    intro ref' row hrow
    rw [hphase] at hrow
    by_cases heq : ref' = ref
    · rw [heq, Function.update_self] at hrow
      cases hrow
    · rwa [Function.update_of_ne heq] at hrow
  obtain ⟨hinv', hguar, -⟩ := phase_order_step (a := a) rfl (fun _ => rfl) rfl hinv hallow hexec
    hjob hrunning
  exact ⟨hinv', hguar, hturn'⟩

theorem launch_order_safe (hkind : svc.kinds KIND = some (toolRun d))
    (hinline : svc.inline = false) (h : Turn d y rest held s) :
    Safe (machine svc permits) (OrderRun d) (orderContract d) .dispatcher (svc.launch y)
      (fun _ => Turn d y rest held) s := by
  unfold Service.launch
  split
  · rename_i hnone
    -- The kind is not registered, so this is no tool run.
    have hno : y.kind ≠ KIND := by
      intro heq
      rw [heq, hkind] at hnone
      cases hnone
    refine safe_of_all (apply_easy_or y.id _) turn_persists.stable h ?_ fun _ _ h => h
    intro op hop s a r s' hinv hs hexec hallow
    have hexec : exec .dispatcher op a s = some (r, s') := hexec
    rcases hop with heasy | ⟨st, only, set, rfl⟩
    · obtain ⟨hinv', hguar⟩ := heasy.step hinv hallow hexec (.inl (by simp))
      exact ⟨hinv', hguar, turn_persists s s' (heasy.aside hallow hexec) hs⟩
    · have hother : ∀ id, toolRow s id = true →
          (Op.update (.outcome st) y.id only set : Op (ToolWorld V)).restates id = false := by
        intro id htool
        rw [Op.restates, beq_eq_false_iff_ne]
        rintro rfl
        simp only [toolRow, Option.any_eq_true, beq_iff_eq] at htool
        obtain ⟨row, hrow, hrkind⟩ := htool
        exact hno ((hs.known.2 row hrow).kind.symm.trans hrkind)
      have haside : Aside s s' := aside_exec hallow.2.lawful hexec rfl (by simp) hother
      refine ⟨unmoved_order_step hinv hallow hexec rfl (.inr rfl) ?_,
        ⟨hallow.2.guar, haside.earlier, fun _ => haside.quietly⟩,
        turn_persists s s' haside hs⟩
      exact fun ref row hjob hrow => hother row.id (hinv.tool_row hjob hrow)
  · refine Code.safe_ask turn_persists.stable h ?_
    intro s a ref s' hinv hs hexec hallow
    obtain ⟨hinv', hguar, haside⟩ := calm_step rfl rfl (fun _ => rfl) hinv hallow hexec
    refine ⟨hinv', hguar, ?_⟩
    rw [hinline]
    refine Code.safe_act turn_persists.stable (turn_persists s s' haside hs) ?_
    intro s a _ s' hinv hs hexec hallow
    have hphase : s'.phase = Function.update s.phase ref (.created y) := by
      cases hexec
      rfl
    have hjob : ∀ ref' row, (s'.phase ref').job = some row → (s.phase ref').job = some row := by
      intro ref' row hrow
      rw [hphase] at hrow
      by_cases heq : ref' = ref
      · rw [heq, Function.update_self] at hrow
        cases hrow
      · rwa [Function.update_of_ne heq] at hrow
    have hrunning : ∀ ref' row, s'.phase ref' = .running row → s.phase ref' = .running row := by
      intro ref' row hrow
      rw [hphase] at hrow
      by_cases heq : ref' = ref
      · rw [heq, Function.update_self] at hrow
        cases hrow
      · rwa [Function.update_of_ne heq] at hrow
    obtain ⟨hinv', hguar, haside⟩ := phase_order_step (a := a) rfl (fun _ => rfl) rfl hinv hallow
      hexec (fun ref' row hrow => .inl (hjob ref' row hrow)) hrunning
    refine ⟨hinv', hguar, ?_⟩
    refine Code.safe_last (turn_persists.stable.and (created_order_stable ref y))
      ⟨turn_persists s s' haside hs, by rw [hphase, Function.update_self]⟩
      turn_persists.stable ?_
    exact fun s a _ s' hinv hs hexec hallow => start_order_step (a := a) hinv hs.1 hs.2 hallow hexec

theorem clash_held {clash : String}
    (h : ((y.exclusive.find? fun key => held.contains key).filter fun key => key != "") =
      some clash) : clash ∈ y.exclusive ∧ clash ∈ held := by
  rw [Option.filter_eq_some_iff] at h
  have hheld := List.find?_some h.1
  exact ⟨List.mem_of_find?_eq_some h.1, by simpa using hheld⟩

theorem claim_refused {t : Tid} {id : String} {set : Row → Row} {a : Unit} {ok : Bool}
    (hexec : exec t (.update .claim id (some [.queued]) set) a s = some (ok, s'))
    (hok : ok = false) : s' = s ∧ s.status id ≠ some .queued := by
  simp only [exec, Sys.update, Option.some.injEq] at hexec
  split at hexec
  · rename_i hnone
    cases hexec
    refine ⟨rfl, ?_⟩
    intro hst
    obtain ⟨r, hr, hqueued⟩ := get_of_status hst
    simp [Ledger.matching, hr, hqueued] at hnone
  · cases hexec
    cases hok

/-- The loop of `_start_due`. -/
theorem start_loop_order_safe {now : ℚ} {limit : Int} {due : List Row} {held : List String}
    {count : Int} {started : Nat} (hkind : svc.kinds KIND = some (toolRun d))
    (hinline : svc.inline = false) (hinv : OrderInv d s) (h : Between d due held s) :
    Safe (machine svc permits) (OrderRun d) (orderContract d) .dispatcher
      (svc.startLoop now limit due held count started) (fun _ _ => True) s := by
  induction due generalizing held count started s with
  | nil => exact safe_ret (Contract.stable_const True) trivial fun _ _ => trivial
  | cons y rest ih =>
      unfold Service.startLoop
      split
      · rename_i clash hclash
        obtain ⟨hmem, hheld⟩ := clash_held hclash
        have hpass : ∀ {s : Sys (ToolWorld V)}, OrderInv d s → Between d (y :: rest) held s →
            Between d rest held s := by
          intro s hinv h
          refine h.pass fun r hr hrkind => .inr ?_
          have hkeyed := hinv.keyed y.id r hr hrkind
          rw [((h.known y (List.mem_cons_self ..)).2 r hr).exclusive] at hkeyed
          rw [hkeyed, List.mem_singleton] at hmem
          exact hmem ▸ hheld
        split
        · refine Code.safe_ask loop_persists.stable h ?_
          intro s a ok s' hinv hs hexec hallow
          have heasy : Easy (V := V) (.update .waiting y.id (some [.queued]) fun r =>
              { r with message := Service.waitingFor clash }) := ⟨rfl, rfl⟩
          obtain ⟨hinv', hguar⟩ := heasy.step hinv hallow hexec (.inl (by simp))
          exact ⟨hinv', hguar, ih hinv'
            (hpass hinv' (loop_persists s s' (heasy.aside hallow hexec) hs))⟩
        · exact ih hinv (hpass hinv h)
      · rename_i hclash
        split
        · exact safe_ret (Contract.stable_const True) trivial fun _ _ => trivial
        · refine Code.safe_ask loop_persists.stable h ?_
          intro s a ok s' hinv hs hexec hallow
          have hclear := clear_of_no_clash (hs.clean y (List.mem_cons_self ..)) hclash
          have hlawful := hallow.2.lawful
          have hguar : OrderGuar .dispatcher s s' := ⟨hallow.2.guar,
            fun id hid => earlier_step hexec hid, fun hne => absurd rfl hne⟩
          split
          · rename_i htrue
            have hturn := hs.claim hinv hclear hlawful hexec htrue
            have hqueued := ((claim_step (a := a) hlawful hexec).2 htrue).1
            have hinv' : OrderInv d s' := by
              refine unmoved_order_step hinv hallow hexec rfl (.inr rfl) ?_
              -- A tool run whose thread is alive is running, and this job is queued.
              intro ref row hjob hrow
              rw [Op.restates, beq_eq_false_iff_ne]
              intro heq
              rw [heq, (hinv.alive ref row hjob hrow).1] at hqueued
              cases hqueued
            refine ⟨hinv', hguar, ?_⟩
            refine Code.safe_ask turn_persists.stable hturn ?_
            intro s a found s' hinv hs hexec hallow
            obtain ⟨hinv', hguar, haside⟩ := calm_step rfl rfl (fun _ => rfl) hinv hallow hexec
            cases hexec
            refine ⟨hinv', hguar, ?_⟩
            have hjob : SameJob y ((s.rows.get? y.id).getD y) ∧
                SameJob ((s.rows.get? y.id).getD y) y := by
              cases hr : s.rows.get? y.id with
              | none => exact ⟨.refl y, .refl y⟩
              | some r =>
                  have hjob := hs.known.2 r hr
                  exact ⟨hjob, hjob.id.symm, hjob.kind.symm, hjob.spec.symm,
                    hjob.exclusive.symm, hjob.created.symm⟩
            refine safe_bind ((launch_order_safe hkind hinline (hs.same hjob.2)).mono ?_)
            intro _ s hs
            refine Code.safe_ask turn_persists.stable (hs.same hjob.1) ?_
            intro s a after s' hinv hs hexec hallow
            obtain ⟨hinv', hguar, haside⟩ := calm_step rfl rfl (fun _ => rfl) hinv hallow hexec
            have hs' := turn_persists s s' haside hs
            cases hexec
            refine ⟨hinv', hguar, ?_⟩
            split
            · rename_i r hr
              split
              · exact ih hinv' (hs'.running hinv')
              · rename_i hst
                refine ih hinv' (hs'.released hclear ?_)
                have hr : s.rows.get? y.id = some r := hr
                simpa [Sys.status, Sys.note, hr] using hst
            · rename_i hr
              refine ih hinv' (hs'.released hclear ?_)
              have hr : s.rows.get? y.id = none := hr
              simp [Sys.status, Sys.note, hr]
          · rename_i hfalse
            obtain ⟨rfl, hst⟩ := claim_refused (a := a) hexec (by simpa using hfalse)
            refine ⟨hinv, hguar, ih hinv (hs.pass ?_)⟩
            intro r hr hrkind
            rw [status_of_get hr] at hst
            cases hrst : r.status with
            | queued => exact absurd (by rw [hrst]) hst
            | running => exact .inr ((hs.holds y.id r hr hrkind hrst).resolve_left fun h => h)
            | _ => exact .inl rfl

theorem worker_rows_order_safe {ids : List String} {live : List Row}
    {P : Sys (ToolWorld V) → Prop} (hP : Persists P) (h : P s) :
    Safe (machine svc permits) (OrderRun d) (orderContract d) .dispatcher
      (Service.workerRows live ids) (fun all s => live ⊆ all ∧ P s) s := by
  induction ids generalizing live s with
  | nil => exact safe_ret hP.stable h fun _ hs => ⟨fun _ hr => hr, hs⟩
  | cons id rest ih =>
      unfold Service.workerRows
      split
      · exact ih h
      · refine easy_ask ⟨rfl, rfl⟩ hP h ?_
        intro s a found s' _ _ _ hs' _
        split
        · refine (ih hs').mono ?_
          exact fun all s hall => ⟨fun r hr => hall.1 (List.mem_append_left _ hr), hall.2⟩
        · exact ih hs'

theorem mem_running_of_get {rows : Ledger} {id : String} {r : Row} (hr : rows.get? id = some r)
    (hst : r.status = .running) : r ∈ rows.running := by
  simp only [Ledger.running, mem_sorted_by, Ledger.values, List.mem_filter, List.mem_map,
    beq_iff_eq]
  exact ⟨⟨(id, r), Dict.mem_items_iff.mpr hr, rfl⟩, hst⟩

theorem due_ids_nodup {rows : Ledger} (hrows : rows.Consistent) (now : ℚ) :
    ((rows.due now).map Row.id).Nodup := by
  have hvalues : rows.values.map Row.id = rows.keys := by
    unfold Ledger.values Dict.keys
    rw [List.map_map]
    refine List.map_congr_left ?_
    rintro ⟨id, r⟩ hmem
    exact (hrows id r (Dict.mem_items_iff.mp hmem)).1
  refine (((sorted_by_perm _ _).trans (sorted_by_perm _ _)).map Row.id).nodup_iff.mpr ?_
  refine List.Nodup.sublist ((List.filter_sublist (l := rows.values)).map Row.id) ?_
  rw [hvalues]
  exact rows.keys_nodup

theorem between_of_due {now : ℚ} {held : List String} (hinv : OrderInv d s)
    (hdue : firstCome d (.due now) s = true)
    (hheld : ∀ id r, s.rows.get? id = some r → r.kind = KIND → r.status = .running →
      perfKey d r.spec ∈ held) : Between d (s.rows.due now) held s := by
  simp only [firstCome, List.all_eq_true] at hdue
  refine ⟨fun id r hr hkind hst => .inr (hheld id r hr hkind hst), ?_, ?_,
    due_ids_nodup hinv.workers.ledger.1 now, ?_⟩
  · intro y hy hkind x hx r hr hkind' hhost
    have horder := hdue y hy
    simp only [comesInOrder, hkind, bne_self_eq_false, Bool.false_or, Bool.and_eq_true,
      List.all_eq_true] at horder
    have hrow := horder.2 x hx
    simp only [hr, Option.all_some, hkind', hhost, bne_self_eq_false, Bool.false_or,
      Bool.or_eq_true, bne_iff_ne, List.isSublist_iff_sublist] at hrow
    rcases hrow with hst | hsub
    · cases hrst : r.status with
      | queued => exact absurd hrst hst
      | running => exact .inr (.inr (.inl (hheld x r hr hkind' hrst)))
      | _ => exact .inl rfl
    · exact .inr (.inr (.inr hsub))
  · intro y hy
    obtain ⟨id, hget⟩ := Ledger.get_of_mem_due hy
    exact (knows_of_get hinv.workers.ledger hget).2
  · intro y hy
    have horder := hdue y hy
    simp only [comesInOrder, Bool.and_eq_true] at horder
    simpa using horder.1

theorem start_due_order_safe {now : ℚ} (hkind : svc.kinds KIND = some (toolRun d))
    (hinline : svc.inline = false) :
    Safe (machine svc permits) (OrderRun d) (orderContract d) .dispatcher (svc.startDue now)
      (fun _ _ => True) s := by
  refine easy_ask ⟨rfl, rfl⟩ (P := fun _ => True) (fun _ _ _ _ => trivial) trivial ?_
  intro s _ running s' hinv _ _ _ hexec
  cases hexec
  -- With no row to come, the loop says that the key of every running tool run is held.
  have hrunning : Between d [] (s.rows.running.flatMap Row.exclusive) s := by
    refine ⟨?_, by simp, by simp, List.nodup_nil, by simp⟩
    intro id r hr hrkind hst
    refine .inr (List.mem_flatMap.mpr ⟨r, mem_running_of_get hr hst, ?_⟩)
    rw [hinv.keyed id r hr hrkind]
    exact List.mem_singleton_self _
  refine easy_ask ⟨rfl, rfl⟩ loop_persists hrunning ?_
  intro s₁ _ ids s₁' _ _ _ hs _
  refine safe_bind ((worker_rows_order_safe loop_persists hs).mono ?_)
  intro live s₂ hs
  obtain ⟨hlive, hs⟩ := hs
  refine easy_ask ⟨rfl, rfl⟩ loop_persists hs ?_
  intro s₃ _ workers s₃' _ _ _ hs _
  refine easy_ask ⟨rfl, rfl⟩ loop_persists hs ?_
  intro s₄ _ due s₄' hinv hallow hs _ hexec
  cases hexec
  refine start_loop_order_safe hkind hinline hinv (between_of_due hinv hallow.1.1 ?_)
  intro id r hr hrkind hst
  obtain ⟨q, hq, hmem⟩ := List.mem_flatMap.mp
    ((hs.holds id r hr hrkind hst).resolve_left fun h => h)
  exact List.mem_flatMap.mpr ⟨q, hlive hq, hmem⟩

theorem tick_order_safe (hkind : svc.kinds KIND = some (toolRun d))
    (hinline : svc.inline = false) :
    Safe (machine svc permits) (OrderRun d) (orderContract d) .dispatcher svc.tick
      (fun _ _ => True) s := by
  have htrue : Persists (V := V) fun _ => True := fun _ _ _ _ => trivial
  refine easy_ask ⟨rfl, rfl⟩ htrue trivial ?_
  intro _ _ now s _ _ _ _ _
  refine safe_bind (reap_order_safe.mono fun _ s _ => ?_)
  refine easy_seq (Service.timeouts_covered easy_covers now) htrue trivial ?_
  intro _ s _
  refine easy_seq (Service.leases_covered easy_covers now fun _ => ⟨rfl, rfl⟩) htrue trivial ?_
  intro _ s _
  refine safe_bind ((start_due_order_safe hkind hinline).mono fun _ s _ => ?_)
  refine easy_ask ⟨rfl, rfl⟩ htrue trivial ?_
  intro _ _ sweeps s _ _ _ _ _
  split
  · refine easy_ask ⟨rfl, rfl⟩ htrue trivial ?_
    intro _ _ days s _ _ _ _ _
    refine Code.safe_last (Contract.stable_const True) trivial (Contract.stable_const True) ?_
    intro s a _ s' hinv _ hexec hallow
    exact ⟨unmoved_order_step (a := a) hinv hallow hexec rfl (.inr rfl) fun _ _ _ _ => rfl,
      ⟨hallow.2.guar, fun id hid => earlier_step hexec hid, fun hne => absurd rfl hne⟩, trivial⟩
  · exact safe_ret (Contract.stable_const True) trivial fun _ _ => trivial

end Launch

section Work

variable {svc : Service (ToolWorld V)} {permits : Call → Bool} {ref : Ref} {row : Row}

/-- A call of a worker thread leaves the invocations alone and starts at most the run of its
row. -/
theorem call_trace {tr : Trace} (hrow : tr.jobs.lookup ref = some row) (e : (ToolWorld V).Ext)
    (reply : (ToolWorld V).Reply e) :
    (tr.step (.worker ref) (.ext e reply)).jobs = tr.jobs ∧
      ((tr.step (.worker ref) (.ext e reply)).starts = tr.starts ∨
        (tr.step (.worker ref) (.ext e reply)).starts = tr.starts ++ [row]) := by
  unfold Trace.step
  split
  · rename_i heq
    cases heq
  · rename_i ref' _ _ _ _ _ resp href heq
    cases href
    rw [hrow]
    dsimp only
    split
    · exact ⟨rfl, .inr rfl⟩
    · exact ⟨rfl, .inl rfl⟩
  · exact ⟨rfl, .inl rfl⟩

/-- A tool run that is running was not overtaken: of the started runs of its host, none was
submitted later. -/
theorem OrderInv.in_order (h : OrderInv d s) (hphase : s.phase ref = .running row) {old : Row}
    (hold : old ∈ startedJobs s.log) : InOrder d s old row := by
  intro hkind hkind' hhost
  obtain ⟨hid, hbehind⟩ := h.started old hold hkind
  obtain ⟨hst, -⟩ := h.alive ref row (by rw [hphase]; rfl) hkind'
  have hknown := h.workers.known ref row (by rw [hphase]; rfl)
  by_cases heq : old.id = row.id
  · exact .inl heq
  · right
    refine (earlier_total hid hknown.1 heq).resolve_right ?_
    intro hlater
    obtain ⟨r, hr, hrst⟩ := get_of_status hst
    have hjob := hknown.2 r hr
    have hterm := hbehind row.id hlater r hr (by rw [hjob.kind, hkind'])
      (by rw [hjob.spec, hhost])
    rw [hrst] at hterm
    cases hterm

theorem call_order_step {e : (ToolWorld V).Ext} {reply : (ToolWorld V).Reply e}
    (hinv : OrderInv d s) (hphase : s.phase ref = .running row)
    (hworkers : WorkersInv (s.note (.worker ref) (.ext e reply))) :
    OrderInv d (s.note (.worker ref) (.ext e reply)) := by
  obtain ⟨hjobs, hstarts⟩ := call_trace (hinv.traced ref row hphase) e reply
  have htrace : trace (s.note (.worker ref) (.ext e reply)).log =
      (trace s.log).step (.worker ref) (.ext e reply) := trace_append ..
  refine ⟨hworkers, hinv.keyed, hinv.alive, ?_, ?_, ?_⟩
  · intro ref' row' hrow'
    rw [htrace, hjobs]
    exact hinv.traced ref' row' hrow'
  · intro row' hrow' hkind
    rw [startedJobs, htrace] at hrow'
    rcases hstarts with hsame | hnew
    · rw [hsame] at hrow'
      exact hinv.started row' hrow' hkind
    · rw [hnew, List.mem_append, List.mem_singleton] at hrow'
      rcases hrow' with hold | rfl
      · exact hinv.started row' hold hkind
      · have hjob : (s.phase ref).job = some row' := by rw [hphase]; rfl
        exact ⟨(hinv.workers.known ref row' hjob).1, (hinv.alive ref row' hjob hkind).2⟩
  · rw [startedJobs, htrace]
    rcases hstarts with hsame | hnew
    · rw [hsame]
      exact hinv.sorted
    · rw [hnew, List.pairwise_append]
      refine ⟨hinv.sorted, List.pairwise_singleton _ _, ?_⟩
      intro old hold new hnew
      rw [List.mem_singleton] at hnew
      exact hnew ▸ hinv.in_order hphase hold

theorem phase_order_stable {p : Phase} (hp : p.job ≠ none) :
    (orderContract d).Stable (.worker ref) fun s : Sys (ToolWorld V) => s.phase ref = p := by
  intro u hu s s' _ _ hguar h
  rw [hguar.workers.own ref hu (by rw [h]; exact hp), h]

/-- The other threads and the jobs, after a step of a worker thread that leaves the ledger
alone. -/
theorem worker_guar {op : Op (ToolWorld V)} {a : Ans (ToolWorld V) op}
    {r : Res (ToolWorld V) op} (hallow : OrderRun d (.worker ref) op s s')
    (hexec : exec (.worker ref) op a s = some (r, s')) (hsweeps : op.sweeps = false)
    (hrestates : ∀ id, op.restates id = false) : OrderGuar (.worker ref) s s' := by
  have haside : Aside s s' := by
    refine aside_exec hallow.2.lawful hexec hsweeps ?_ fun id _ => hrestates id
    rintro id only set rfl
    have hself := hrestates id
    simp [Op.restates] at hself
  exact ⟨hallow.2.guar, haside.earlier, fun _ => haside.quietly⟩

theorem enter_order_step {a r : Unit} (hinv : OrderInv d s)
    (hallow : OrderRun d (.worker ref) (.enter ref row) s s')
    (hexec : exec (.worker ref) (.enter ref row) a s = some (r, s')) : OrderInv d s' := by
  have hgoes := ((hallow.2.guar.frame (by simp)).1).phase
  have htrace : trace s'.log = (trace s.log).step (V := V) (.worker ref) (.entered row) := by
    cases hexec
    exact trace_append ..
  have hrunning : s'.phase = Function.update s.phase ref (.running row) := by
    cases hexec
    rfl
  have hlawful := hallow.2.lawful
  refine hinv.step hallow.2.after hlawful.keeps
    (fun id hid => @earlier_step _ s s' _ (.enter ref row) a r hexec id hid)
    (fun id q hq hkind hid => new_row_keyed (t := .worker ref) (a := a) hallow.1.2 hlawful hexec
      hq hkind hid) ?_ ?_
    (by rw [startedJobs, htrace]; rfl)
  · intro ref' row' hrow' hkind
    exact hinv.alive_step (t := .worker ref)
      (a := a) hlawful hexec ((hgoes ref').job hrow') hkind rfl
  · intro ref' row' hrow'
    rw [htrace]
    rw [hrunning] at hrow'
    by_cases heq : ref' = ref
    · rw [heq, Function.update_self] at hrow'
      cases hrow'
      simp [Trace.step, heq]
    · rw [Function.update_of_ne heq] at hrow'
      have hold := hinv.traced ref' row' hrow'
      have hne : (ref' == ref) = false := by simpa using heq
      simpa [Trace.step, List.lookup_cons, hne] using hold

theorem leave_order_step {outcome : Outcome} {a r : Unit} (hinv : OrderInv d s)
    (hallow : OrderRun d (.worker ref) (.leave ref outcome) s s')
    (hexec : exec (.worker ref) (.leave ref outcome) a s = some (r, s')) : OrderInv d s' := by
  have hgoes := ((hallow.2.guar.frame (by simp)).1).phase
  have hphase : s'.phase = Function.update s.phase ref (.dead outcome) := by
    cases hexec
    rfl
  have hlawful := hallow.2.lawful
  obtain ⟨htraced, hstarts⟩ := hinv.traced_step
    (@trace_exec _ s s' _ (.leave ref outcome) a r (.inr rfl) hexec) fun ref' row' hrow' => by
      rw [hphase] at hrow'
      by_cases heq : ref' = ref
      · rw [heq, Function.update_self] at hrow'
        cases hrow'
      · rwa [Function.update_of_ne heq] at hrow'
  refine hinv.step hallow.2.after hlawful.keeps
    (fun id hid => @earlier_step _ s s' _ (.leave ref outcome) a r hexec id hid)
    (fun id q hq hkind hid => new_row_keyed (t := .worker ref) (a := a) hallow.1.2 hlawful hexec
      hq hkind hid) ?_
    htraced hstarts
  intro ref' row' hrow' hkind
  exact hinv.alive_step (t := .worker ref) (a := a) hlawful hexec ((hgoes ref').job hrow') hkind rfl

theorem handler_easy {op : Op (ToolWorld V)} (h : op.ofHandler = true) :
    Easy op ∧ (marks op = false ∨ ∃ e, op = .ext e) := by
  refine ⟨easy_covers.other op (Op.writes_of_handler h) (Op.plain_of_handler h).1.1.2, ?_⟩
  cases op with
  | ext e => exact .inr ⟨e, rfl⟩
  | enter ref row => cases h
  | _ => exact .inl rfl

theorem work_order_safe {k : Kind (ToolWorld V)} (h : s.phase ref = .started row) :
    Safe (machine svc permits) (OrderRun d) (orderContract d) (.worker ref)
      (Service.work k row ref) (fun _ _ => True) s := by
  refine Code.safe_act (phase_order_stable (p := .started row) (by simp [Phase.job])) h ?_
  intro s a _ s' hinv hs hexec hallow
  have hrunning : s'.phase ref = .running row := by
    cases hexec
    exact Function.update_self ..
  refine ⟨enter_order_step (a := a) hinv hallow hexec,
    worker_guar hallow hexec rfl fun _ => rfl, ?_⟩
  have hstable : (orderContract (V := V) d).Stable (.worker ref) fun s =>
    s.phase ref = .running row :=
    phase_order_stable (by simp [Phase.job])
  refine safe_bind ((safe_of_all (Q := fun _ s => s.phase ref = .running row)
    (k.run_ops row ref) hstable hrunning ?_ fun _ _ h => h).mono ?_)
  · intro op hop s a r s' hinv hs hexec hallow
    have hexec : exec (.worker ref) op a s = some (r, s') := hexec
    obtain ⟨heasy, hmarks⟩ := handler_easy hop
    have hphase : s'.phase = s.phase :=
      (still_exec heasy.1 hallow.2.lawful hexec).phase
    rcases hmarks with hmarks | ⟨e, rfl⟩
    · obtain ⟨hinv', hguar⟩ := heasy.step hinv hallow hexec (.inr hmarks)
      exact ⟨hinv', hguar, by rw [hphase, hs]⟩
    · have hguar := worker_guar hallow hexec rfl fun _ => rfl
      refine ⟨?_, hguar, by rw [hphase, hs]⟩
      have hafter := hallow.2.after
      cases hexec
      exact call_order_step hinv hs hafter
  · intro result s hs
    refine Code.safe_last hstable hs (Contract.stable_const True) ?_
    intro s a _ s' hinv _ hexec hallow
    exact ⟨leave_order_step (a := a) hinv hallow hexec,
      worker_guar hallow hexec rfl fun _ => rfl, trivial⟩

theorem order_start_safe {t : Tid} {call : Call} {p : Code (ToolWorld V) Unit}
    (hkind : svc.kinds KIND = some (toolRun d)) (hinline : svc.inline = false)
    (hpermits : permits .recover = false) (hp : (machine svc permits).start t call s = some p) :
    Safe (machine svc permits) (OrderRun d) (orderContract d) t p (fun _ _ => True) s := by
  have heasy : ∀ {q : Code (ToolWorld V) Unit} {n : Nat}, q.All Easy →
      Safe (machine svc permits) (OrderRun d) (orderContract d) (.request n) q
        (fun _ _ => True) s :=
    fun hq => easy_safe (by simp) hq (fun _ _ _ _ => trivial) (Contract.stable_const True) trivial
  simp only [machine, start] at hp
  split at hp
  · cases hp
  · rename_i hcall
    split at hp
    · cases hp
      exact tick_order_safe hkind hinline
    · simp [hpermits] at hcall
    · cases hp
      exact heasy (Code.all_seq (Service.submit_covered easy_covers _ fun _ _ _ _ => ⟨rfl, rfl⟩)
        fun _ => trivial)
    · cases hp
      exact heasy (Code.all_seq (Service.cancel_covered easy_covers _ _ _) fun _ => trivial)
    · cases hp
      exact heasy (Code.all_seq (Service.ack_covered easy_covers _ _) fun _ => trivial)
    · cases hp
      exact heasy ⟨⟨rfl, rfl⟩, fun _ => trivial⟩
    · cases hp
      exact heasy ⟨⟨rfl, rfl⟩, fun _ => trivial⟩
    · split at hp
      · rename_i row hrow
        rw [Option.map_eq_some_iff] at hp
        obtain ⟨k, -, rfl⟩ := hp
        exact work_order_safe hrow
      · cases hp
    · cases hp

theorem start_keyed {t : Tid} {call : Call} {p : Code (ToolWorld V) Unit}
    (hkind : svc.kinds KIND = some (toolRun d))
    (hp : (machine svc permits).start t call s = some p) : p.All (Keyed d) := by
  refine start_covered ?_ ?_ ?_ ?_ hp
  · rintro op hop row rfl
    cases hop
  · exact fun site id only set _ row heq => nomatch heq
  · exact fun _ id now row heq => nomatch heq
  · intro k sub spec now hk row heq hrow
    cases heq
    have hsub : sub.kind = KIND := hrow
    rw [hsub, hkind] at hk
    cases hk
    rfl

end Work

/-- In every run of a threaded service in which no tool run is cancelled or fails and the due
tool runs of each host come in the order of their submission, the accepted starts of each host
are in the order of submission. -/
theorem first_come {svc : Service (ToolWorld V)} {permits : Call → Bool} {rows : Ledger}
    {c : Config Tid (Op (ToolWorld V)) (Res (ToolWorld V)) (Sys (ToolWorld V))}
    (hrows : rows.Consistent)
    (hkeyed : ∀ id r, rows.get? id = some r → r.kind = KIND → r.exclusive = [perfKey d r.spec])
    (hkind : svc.kinds KIND = some (toolRun d)) (hinline : svc.inline = false)
    (hpermits : permits .recover = false)
    (h : Reachable (machine svc permits) (FirstCome d) (Sys.boot rows) c) :
    (startedJobs c.state.log).Pairwise (InOrder d c.state) := by
  have hinit : OrderInv d (Sys.boot rows : Sys (ToolWorld V)) := by
    refine ⟨workers_inv_boot hrows, hkeyed, ?_, ?_, ?_, List.Pairwise.nil⟩
    · exact fun _ _ hrow => nomatch hrow
    · exact fun _ _ hrow => nomatch hrow
    · exact fun _ hrow => nomatch hrow
  have hrun := tended_run hrows hinline hpermits
    (h.strengthen_ops fun t call s p hp => start_keyed hkind hp)
  have hholds := (orderContract d).sound hinit (fun _ => trivial)
    (fun t => Contract.stable_const True)
    (fun t call s p _ _ hp => order_start_safe hkind hinline hpermits hp) hrun
  exact hholds.inv.sorted

/-- No tool run is cancelled or fails. -/
def uninterrupted (op : Op (ToolWorld V)) (s : Sys (ToolWorld V)) : Bool :=
  match op with
  | .cancelRow id _ _ => !toolRow s id
  | .update .failed id _ _ => !toolRow s id
  | _ => true

/-- What a host answers that runs a benchmark, or none. -/
def hostReply (busy : Bool) : (c : ToolCall) → c.Reply
  | .agentFor _ => .dict [("id", .str "h")]
  | .heldAgents => []
  | .agentCall .probe .. => .ok (some ⟨200, some (.dict [("bench_active", .bool busy)])⟩)
  | .agentCall .start .. => .ok (some ⟨200, some (.dict [("run_id", .str "r")])⟩)
  | .agentCall .pre .. => .ok none
  | .agentCall .cancel .. => .ok none
  | .noteStart .. => ()
  | .quietBuildChange _ => ()
  | .sleep _ => ()

/-- The answers of the outside at a given time, with the id of the next job. -/
def hostAt (time : ℚ) (busy : Bool) (new : String) :
    (op : Op (ToolWorld noWorld)) → Ans (ToolWorld noWorld) op
  | .now => time
  | .workers => (4 : Int)
  | .historyDays => (30 : Int)
  | .insert _ => new
  | .ext (.inl c) => hostReply busy c
  | .ext (.inr e) => nomatch e
  | .rounds => (3 : Nat)
  | .get .. | .running | .due .. | .update .. | .sweep .. | .sweepDue .. | .cancelRow ..
  | .ackRow .. | .setState .. | .annotate .. | .workerIds | .register .. | .putWorker ..
  | .startThread .. | .reapDead | .lookup .. | .setFlag .. | .isSet .. | .forget .. | .enter ..
  | .leave .. | .hook .. | .alert .. | .audit .. | .returned .. | .never => ()

/-- A queue without `quiet_build_change`. -/
def plainDeps : Deps where
  shown := fun _ => "value"
  shown_ne := fun _ => by decide
  floatText := fun _ => none
  hostname := fun _ => "host"
  quiet := false

/-- A service with tool runs only. -/
def toolService : Service (ToolWorld noWorld) where
  kinds := fun name => if name = KIND then some (toolRun plainDeps) else none
  inline := false

/-- A benchmark on the host. -/
def benchmark : Submission where
  kind := KIND
  spec := [("tool", .str "benchmark"), ("provider", .str "llama"), ("agent_id", .str "h"),
    ("path", .str "/llama/bench/run"), ("body", .dict [])]
  user := ""
  role := ""
  source := .system
  label := none
  notBefore := none
  periodS := none
  runsLeft := none
  threadId := none

/-- A benchmark is submitted. -/
def submits (id : String) (time : ℚ) : List (Choice Tid (Ans (ToolWorld noWorld)) Call) :=
  .start (.request 0) (.submit benchmark) ::
    List.replicate 3 (.perform (.request 0) (hostAt time false id)) ++ [.finish (.request 0)]

/-- The dispatcher ticks. -/
def ticks (n : Nat) (time : ℚ) : List (Choice Tid (Ans (ToolWorld noWorld)) Call) :=
  .start .dispatcher .tick :: List.replicate n (.perform .dispatcher (hostAt time false "")) ++
    [.finish .dispatcher]

/-- A worker thread goes on while the host is busy, or is not. -/
def works (ref : Ref) (n : Nat) (time : ℚ) (busy : Bool) :
    List (Choice Tid (Ans (ToolWorld noWorld)) Call) :=
  List.replicate n (.perform (.worker ref) (hostAt time busy ""))

/-- A worker thread starts its run, sees it active and sees it end. -/
def runs (ref : Ref) (time : ℚ) : List (Choice Tid (Ans (ToolWorld noWorld)) Call) :=
  .start (.worker ref) .work :: works ref 5 time false ++ works ref 22 time true ++
    works ref 4 (time + 1) false ++ [.finish (.worker ref)]

/-- The first job finds the host busy and waits until 104; the second comes at 102 and finds it
free. -/
def overtaking : List (Choice Tid (Ans (ToolWorld noWorld)) Call) :=
  submits "a" 100 ++ ticks 15 100 ++
    .start (.worker 0) .work :: works 0 5 100 true ++ [.finish (.worker 0)] ++ ticks 13 101 ++
    submits "b" 102 ++ ticks 15 102 ++ runs 1 102 ++ ticks 20 105 ++
    .start (.worker 2) .work :: works 2 5 105 false

/-- What the order of the started jobs depends on. -/
def startOf (row : Row) : String × String × String := (row.id, row.kind, perfKey plainDeps row.spec)

/-- Nothing is cancelled and nothing fails, and the second of two jobs is started before the
first. -/
theorem overtaken :
    ∃ c, Reachable (machine toolService noRecover) (fun _ op s _ => uninterrupted op s = true)
        (Sys.boot ∅) c ∧
      (startedJobs c.state.log).map startOf = [("b", KIND, "perf:h"), ("a", KIND, "perf:h")] ∧
      c.state.earlier "b" = ["a"] ∧
      ¬ (startedJobs c.state.log).Pairwise (InOrder plainDeps c.state) := by
  have hrun : ((Config.idle (Sys.boot ∅)).plays (machine toolService noRecover)
      (fun _ op s _ => uninterrupted op s = true) overtaking).bind (fun c =>
        some ((startedJobs c.state.log).map startOf, c.state.earlier "b",
          c.state.earlier "a")) =
      some ([("b", KIND, "perf:h"), ("a", KIND, "perf:h")], ["a"], []) := by decide +kernel
  obtain ⟨c, hc, hf⟩ := exists_run_of_plays hrun
  simp only [Option.some.injEq, Prod.mk.injEq] at hf
  obtain ⟨hstarts, hb, ha⟩ := hf
  refine ⟨c, hc, hstarts, hb, ?_⟩
  intro hsorted
  obtain ⟨first, tail, hlist, hfirst, htail⟩ := List.map_eq_cons_iff.mp hstarts
  obtain ⟨second, tail', htail', hsecond, -⟩ := List.map_eq_cons_iff.mp htail
  simp only [startOf, Prod.mk.injEq] at hfirst hsecond
  rw [hlist, htail', List.pairwise_cons] at hsorted
  have horder := hsorted.1 second (List.mem_cons_self ..) hfirst.2.1 hsecond.2.1
    (hfirst.2.2.trans hsecond.2.2.symm)
  rw [hfirst.1, hsecond.1, ha] at horder
  simp at horder

/-- The second job waits for the first. -/
def inTurn : List (Choice Tid (Ans (ToolWorld noWorld)) Call) :=
  submits "a" 100 ++ submits "b" 100 ++ ticks 16 101 ++ runs 0 101 ++ ticks 20 103 ++
    .start (.worker 1) .work :: works 1 5 103 false

/-- Two jobs of one host, both due, are started in order. -/
theorem served_in_turn :
    (∅ : Ledger).Consistent ∧ (∀ id r, (∅ : Ledger).get? id = some r → r.kind = KIND →
      r.exclusive = [perfKey plainDeps r.spec]) ∧
    toolService.kinds KIND = some (toolRun plainDeps) ∧ toolService.inline = false ∧
    noRecover .recover = false ∧
    ∃ c, Reachable (machine toolService noRecover) (FirstCome plainDeps) (Sys.boot ∅) c ∧
      (startedJobs c.state.log).map startOf = [("a", KIND, "perf:h"), ("b", KIND, "perf:h")] ∧
      (startedJobs c.state.log).Pairwise (InOrder plainDeps c.state) := by
  have hrows : (∅ : Ledger).Consistent := fun id r hr => nomatch hr
  have hkeyed : ∀ id r, (∅ : Ledger).get? id = some r → r.kind = KIND →
      r.exclusive = [perfKey plainDeps r.spec] := fun id r hr => nomatch hr
  have hrun : ((Config.idle (Sys.boot ∅)).plays (machine toolService noRecover)
      (FirstCome plainDeps) inTurn).bind (fun c =>
        some ((startedJobs c.state.log).map startOf)) =
      some [("a", KIND, "perf:h"), ("b", KIND, "perf:h")] := by decide +kernel
  obtain ⟨c, hc, hf⟩ := exists_run_of_plays hrun
  exact ⟨hrows, hkeyed, rfl, rfl, rfl, c, hc, Option.some.inj hf,
    first_come hrows hkeyed rfl rfl rfl hc⟩

end SystemsManager.Tools
