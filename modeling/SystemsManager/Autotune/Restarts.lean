import SystemsManager.Autotune.Batch

/-!
# A batch restarts what it stopped

What the runs of `run` in `Batch` leave behind, whatever the dependencies answer and whenever the
batch is cancelled. Read `run_settles` last: when `run` returns, every agent whose server was
stopped has seen a restart since, and the batch that was saved last has failed or has no item left
to tune. `Walking` is the invariant of the walk over the items, `Restarting` that of the loop over
the hosts.
-/

namespace SystemsManager.Autotune

open Python Concurrency

/-- A call with its answer. -/
abbrev Event := (c : Call) × c.Answer

/-- The calls of a run with their answers. -/
abbrev Events := Log Call Call.Answer

/-- What a run of the runner starts from or ends with. -/
abbrev RunAssertion := Assertion Call Call.Answer Vars

/-- No more is done about an item. -/
def ItemStatus.terminal (status : ItemStatus) : Bool :=
  match status with
  | .done | .failed | .skipped | .cancelled => true
  | .queued | .running => false

/-- The server of the agent was stopped. -/
def stops (agentId : String) : Event → Bool
  | ⟨.stopServer stopped, .ok (true, _)⟩ => stopped = agentId
  | _ => false

/-- A restart of the server of the agent was tried. -/
def restarts (agentId : String) : Event → Bool
  | ⟨.restartServer restarted, _⟩ => restarted = agentId
  | _ => false

/-- The batch was written to the store, or a write was tried. -/
def isSave : Event → Bool
  | ⟨.save _, _⟩ => true
  | _ => false

/-- The server of the agent was stopped, and no restart was tried since. -/
def Pending (agentId : String) (log : Events) : Prop :=
  ∃ before event after, log = before ++ event :: after ∧ stops agentId event = true ∧
    ∀ later ∈ after, restarts agentId later = false

/-- The batch is what the store was given last. -/
def SavedLast (b : Batch) (log : Events) : Prop :=
  ∃ before after, log = before ++ ⟨.save b, .ok ()⟩ :: after ∧ ∀ later ∈ after, isSave later = false

section Logs

variable {agentId : String} {log : Events} {event : Event} {b : Batch}

theorem not_pending_nil : ¬ Pending agentId [] := by
  rintro ⟨before, event, after, h, -, -⟩
  simp at h

theorem pending_concat : Pending agentId (log ++ [event]) ↔
    stops agentId event = true ∨ (Pending agentId log ∧ restarts agentId event = false) := by
  constructor
  · rintro ⟨before, first, after, heq, hstops, hafter⟩
    rcases List.eq_nil_or_concat after with rfl | ⟨front, last, rfl⟩
    · have hlast : event = first := (List.append_inj_right' heq rfl |> List.cons.inj).1
      exact Or.inl (hlast ▸ hstops)
    · have hsplit : log ++ [event] = (before ++ first :: front) ++ [last] := by simpa using heq
      obtain ⟨hfront, hlast⟩ := List.append_inj' hsplit rfl
      obtain rfl : event = last := (List.cons.inj hlast).1
      refine Or.inr ⟨⟨before, first, front, hfront, hstops, fun x hx => hafter x ?_⟩,
        hafter event ?_⟩
      · simp [hx]
      · simp
  · rintro (hstops | ⟨⟨before, first, after, rfl, hstops, hafter⟩, hrestarts⟩)
    · exact ⟨log, event, [], rfl, hstops, fun x hx => absurd hx (by simp)⟩
    · refine ⟨before, first, after ++ [event], by simp, hstops, fun x hx => ?_⟩
      rcases List.mem_append.mp hx with hx | hx
      · exact hafter x hx
      · obtain rfl := List.mem_singleton.mp hx
        exact hrestarts

theorem saved_last_concat : SavedLast b (log ++ [⟨.save b, .ok ()⟩]) :=
  ⟨log, [], rfl, fun x hx => absurd hx (by simp)⟩

theorem SavedLast.concat (h : SavedLast b log) (hevent : isSave event = false) :
    SavedLast b (log ++ [event]) := by
  obtain ⟨before, after, rfl, hafter⟩ := h
  refine ⟨before, after ++ [event], by simp, fun x hx => ?_⟩
  rcases List.mem_append.mp hx with hx | hx
  · exact hafter x hx
  · obtain rfl := List.mem_singleton.mp hx
    exact hevent

end Logs

/-- No stopped server waits for its restart. -/
def Clear (log : Events) : Prop := ∀ agentId, ¬ Pending agentId log

/-- Every stopped server that waits for its restart is one of `owed`. -/
def Owed (owed : List String) (log : Events) : Prop :=
  ∀ agentId, Pending agentId log → agentId ∈ owed

/-- The call stops no server. -/
def Call.harmless : Call → Bool
  | .stopServer _ => false
  | _ => true

section Owing

variable {hosts : List String} {log : Events} {c : Call} {answer : c.Answer}

theorem stops_harmless (h : c.harmless = true) (agentId : String) :
    stops agentId ⟨c, answer⟩ = false := by
  cases c <;> first | rfl | simp [Call.harmless] at h

theorem Owed.concat (h : Owed hosts log) (hc : c.harmless = true) :
    Owed hosts (log ++ [⟨c, answer⟩]) := by
  intro agentId hpending
  rcases pending_concat.mp hpending with hstops | ⟨hbefore, -⟩
  · rw [stops_harmless hc agentId] at hstops
    exact absurd hstops (by simp)
  · exact h agentId hbefore

theorem clear_iff_owed : Clear log ↔ Owed [] log := by
  constructor
  · intro h agentId hpending
    exact absurd hpending (h agentId)
  · intro h agentId hpending
    exact absurd (h agentId hpending) (by simp)

theorem Clear.concat (h : Clear log) (hc : c.harmless = true) : Clear (log ++ [⟨c, answer⟩]) :=
  clear_iff_owed.mpr ((clear_iff_owed.mp h).concat hc)

theorem Clear.owed (h : Clear log) : Owed hosts log := fun agentId hpending =>
  absurd hpending (h agentId)

/-- A restart settles what is owed to its agent. -/
theorem Owed.restart {agentId : String} {answer : Except String (Bool × String)}
    (h : Owed (agentId :: hosts) log) : Owed hosts (log ++ [⟨.restartServer agentId, answer⟩]) := by
  intro other hpending
  rcases pending_concat.mp hpending with hstops | ⟨hbefore, hrestarts⟩
  · exact absurd hstops (by simp [stops])
  · rcases List.mem_cons.mp (h other hbefore) with rfl | hmem
    · simp [restarts] at hrestarts
    · exact hmem

/-- A stop leaves its own agent owed. -/
theorem Owed.stop {agentId : String} {answer : Except String (Bool × String)} (h : Owed hosts log)
    (hmem : ∀ reason, answer = .ok (true, reason) → agentId ∈ hosts) :
    Owed hosts (log ++ [⟨.stopServer agentId, answer⟩]) := by
  intro other hpending
  rcases pending_concat.mp hpending with hstops | ⟨hbefore, -⟩
  · match answer, hstops, hmem with
    | .ok (true, reason), hstops, hmem =>
        have hother : agentId = other := by simpa [stops] using hstops
        exact hother ▸ hmem reason rfl
    | .ok (false, _), hstops, _ => simp [stops] at hstops
    | .error _, hstops, _ => simp [stops] at hstops
  · exact h other hbefore

end Owing

/-- The walk over `n` items: all but the one that is being tuned are queued or terminal, and every
server that waits for its restart is noted in the batch. -/
structure Walking (n : ℕ) (busy : Option ℕ) (v : Vars) (log : Events) : Prop where
  length : v.b.items.length = n
  idle : ∀ j it, v.b.items[j]? = some it → busy ≠ some j →
    it.status = .queued ∨ it.status.terminal = true
  owed : Owed v.b.stopped log

section Walking

variable {n i : ℕ} {busy : Option ℕ} {v : Vars} {log : Events}

theorem Walking.concat {c : Call} {answer : c.Answer} (h : Walking n busy v log)
    (hc : c.harmless = true) : Walking n busy v (log ++ [⟨c, answer⟩]) :=
  ⟨h.length, h.idle, h.owed.concat hc⟩

theorem Walking.weaken (h : Walking n none v log) : Walking n (some i) v log :=
  ⟨h.length, fun j it hit _ => h.idle j it hit (by simp), h.owed⟩

/-- The item that is being tuned may change. -/
theorem Walking.modify (h : Walking n (some i) v log) (f : Item → Item) :
    Walking n (some i) { v with b := { v.b with items := v.b.items.modify i f } } log := by
  refine ⟨by simpa using h.length, fun j it hit hj => ?_, h.owed⟩
  have hne : i ≠ j := fun heq => hj (by rw [heq])
  rw [List.getElem?_modify] at hit
  obtain ⟨before, hbefore, rfl⟩ := Option.map_eq_some_iff.mp hit
  rw [if_neg hne]
  exact h.idle j before hbefore hj

/-- An item that has ended is no longer being tuned. -/
theorem Walking.settle (h : Walking n (some i) v log) (f : Item → Item)
    (hf : ∀ it, (f it).status.terminal = true) :
    Walking n none { v with b := { v.b with items := v.b.items.modify i f } } log := by
  refine ⟨by simpa using h.length, fun j it hit _ => ?_, h.owed⟩
  rw [List.getElem?_modify] at hit
  obtain ⟨before, hbefore, rfl⟩ := Option.map_eq_some_iff.mp hit
  by_cases heq : i = j
  · rw [if_pos heq]
    exact Or.inr (hf before)
  · rw [if_neg heq]
    exact h.idle j before hbefore (fun hsome => heq (Option.some.inj hsome))

end Walking

section Steps

variable {n i : ℕ} {busy : Option ℕ} {α : Type}

/-- `Walking` as an assertion of the rules. -/
abbrev KeepsWalk (n i : ℕ) (p : Run α) : Prop := Keeps (Walking n (some i)) p

theorem or_raise_keeps {W : RunAssertion} {p : Run (Except String α)} (h : Keeps W p) :
    Keeps W (orRaise p) := h.seq fun _ => keeps_lift

theorem try_keeps {W : RunAssertion} {p : Run α} {handler : String → Run α} (h : Keeps W p)
    (hhandler : ∀ text, Keeps W (handler text)) : Keeps W (tryExcept p handler) := by
  refine h.catch fun stop => ?_
  cases stop with
  | exception text => exact hhandler text
  | outOfRounds => exact keeps_raise

theorem call_keeps {c : Call} (hc : c.harmless = true) : Keeps (Walking n busy) (call c) :=
  keeps_ask fun _ _ _ h => h.concat hc

theorem now_keeps : Keeps (Walking n busy) now := or_raise_keeps (call_keeps rfl)

theorem save_keeps : Keeps (Walking n busy) save :=
  keeps_get.seq fun _ => or_raise_keeps (call_keeps rfl)

theorem set_item_keeps (f : Item → Item) : KeepsWalk n i (setItem i f) :=
  keeps_modify fun _ _ h => h.modify f

/-- The item is given a terminal status. -/
theorem set_item_settles {f : Item → Item} (hf : ∀ it, (f it).status.terminal = true) :
    Triple (Walking n (some i)) (setItem i f) (fun _ => Walking n none)
      (fun _ => Walking n (some i)) :=
  triple_modify fun _ _ h => h.settle f hf

theorem end_item_settles {status : ItemStatus} {note : Option String} (h : status.terminal = true) :
    Triple (Walking n (some i)) (endItem i status note) (fun _ => Walking n none)
      (fun _ => Walking n (some i)) :=
  Triple.seq now_keeps fun _ => set_item_settles fun _ => h

/-- What is done after the item has ended. -/
theorem settled_save {result : α} :
    Triple (Walking n none) (save >>= fun _ => pure result) (fun _ => Walking n none)
      (fun _ => Walking n (some i)) := by
  refine Triple.conseq (save_keeps.seq fun _ => keeps_pure) (fun _ _ h => h) (fun _ _ _ h => h) ?_
  intro _ _ _ h
  exact h.weaken

theorem budget_keeps : Keeps (Walking n busy) budget := by
  refine keeps_get.seq fun v => now_keeps.seq fun t => ?_
  refine Keeps.seq ?_ fun started => ?_
  · split
    · split
      · exact now_keeps
      · exact keeps_pure
    · exact now_keeps
  · dsimp only
    split
    · exact keeps_pure
    · exact keeps_pure

variable {agentId : String} {deadline : ℚ}

theorem await_idle_keeps {settling : Bool} {rounds : ℕ} :
    Keeps (Walking n busy) (awaitIdle agentId settling deadline rounds) := by
  induction rounds with
  | zero => exact keeps_raise
  | succ rounds ih =>
      refine Keeps.seq (or_raise_keeps (call_keeps rfl)) fun hosts => Keeps.seq ?_ fun idle => ?_
      · split
        · exact keeps_pure
        · refine Keeps.seq (or_raise_keeps (call_keeps rfl)) fun pre => ?_
          split
          · split
            · exact keeps_pure
            · split
              · exact keeps_pure
              · exact keeps_pure
          · exact keeps_pure
      · cases idle with
        | some result => exact keeps_pure
        | none =>
            refine Keeps.seq ?_ fun late => ?_
            · split
              · exact now_keeps.seq fun _ => keeps_pure
              · exact keeps_pure
            · split
              · exact keeps_pure
              · exact Keeps.seq (or_raise_keeps (call_keeps rfl)) fun _ => ih

/-- `orRaise`, by what is known of the answer. -/
theorem or_raise_triple {P : RunAssertion} {Q : α → RunAssertion} {E : Stop → RunAssertion}
    {p : Run (Except String α)} (h : Triple P p (fun r v l => (∀ a, r = .ok a → Q a v l) ∧
      ∀ text, r = .error text → E (.exception text) v l) E) : Triple P (orRaise p) Q E := by
  refine Triple.seq h fun r => triple_lift ?_ ?_
  · intro a v l hr hv
    cases r with
    | ok b =>
        have hb : b = a := by simpa [Except.mapError] using hr
        exact hv.1 a (by rw [hb])
    | error text => simp [Except.mapError] at hr
  · intro stop v l hr hv
    cases r with
    | ok b => simp [Except.mapError] at hr
    | error text =>
        have hstop : Stop.exception text = stop := by simpa [Except.mapError] using hr
        exact hstop ▸ hv.2 text rfl

/-- `tryExcept`, by what is known at an exception. -/
theorem triple_try {P : RunAssertion} {Q : α → RunAssertion} {E F : Stop → RunAssertion} {p : Run α}
    {handler : String → Run α} (h : Triple P p Q F)
    (hhandler : ∀ text, Triple (F (.exception text)) (handler text) Q E)
    (hout : ∀ v l, F .outOfRounds v l → E .outOfRounds v l) :
    Triple P (tryExcept p handler) Q E := by
  refine h.catch fun stop => ?_
  cases stop with
  | exception text => exact hhandler text
  | outOfRounds => exact triple_raise hout

/-- The agent is noted as stopped. -/
def noted (agentId : String) (v : Vars) : Vars :=
  { v with
    b := if agentId ∈ v.b.stopped then v.b else { v.b with stopped := v.b.stopped ++ [agentId] } }

theorem Walking.noted {v : Vars} {log : Events} {answer : Except String (Bool × String)}
    (h : Walking n busy v log) :
    Walking n busy (noted agentId v) (log ++ [⟨.stopServer agentId, answer⟩]) := by
  have hitems : (Autotune.noted agentId v).b.items = v.b.items := by
    unfold Autotune.noted
    split <;> rfl
  refine ⟨by rw [hitems]; exact h.length, ?_, ?_⟩
  · rw [hitems]
    exact h.idle
  · have hsub : ∀ other ∈ v.b.stopped, other ∈ (Autotune.noted agentId v).b.stopped := by
      intro other hmem
      unfold Autotune.noted
      split
      · exact hmem
      · exact List.mem_append_left _ hmem
    have howed : Owed (Autotune.noted agentId v).b.stopped log := fun other hpending =>
      hsub other (h.owed other hpending)
    refine howed.stop fun _ _ => ?_
    unfold Autotune.noted
    split
    · assumption
    · exact List.mem_append_right _ (List.mem_singleton.mpr rfl)

theorem Walking.refused {v : Vars} {log : Events} {answer : Except String (Bool × String)}
    (h : Walking n busy v log) (hanswer : ∀ reason, answer ≠ .ok (true, reason)) :
    Walking n busy v (log ++ [⟨.stopServer agentId, answer⟩]) :=
  ⟨h.length, h.idle, h.owed.stop fun reason heq => absurd heq (hanswer reason)⟩

theorem stop_host_keeps : Keeps (Walking n busy) (stopHost agentId) := by
  let Q : Bool × String → RunAssertion := fun answer v l =>
    Walking n busy (if answer.1 then noted agentId v else v) l
  have hstop : Triple (Walking n busy) (orRaise (call (.stopServer agentId))) Q
      (fun _ => Walking n busy) := by
    refine or_raise_triple (triple_ask fun answer v l h => ⟨?_, ?_⟩)
    · rintro ⟨stopped, reason⟩ rfl
      cases stopped with
      | true => exact h.noted
      | false => exact h.refused fun other heq => by cases heq
    · rintro text rfl
      exact h.refused fun other heq => by cases heq
  refine Triple.seq hstop fun ⟨stopped, reason⟩ => ?_
  cases stopped with
  | true =>
      refine Triple.seq (triple_modify fun v l h => ?_) fun _ => save_keeps.seq fun _ => keeps_pure
      exact h
  | false => exact triple_pure fun _ _ h => h

variable {it : Item}

theorem precheck_keeps {rounds : ℕ} : Keeps (Walking n busy) (precheck rounds i it) := by
  refine Keeps.seq (or_raise_keeps (call_keeps rfl)) fun hosts => ?_
  split
  · exact keeps_pure
  · split
    · refine keeps_get.seq fun v => now_keeps.seq fun t => await_idle_keeps.seq fun pre => ?_
      cases pre with
      | error reason => exact keeps_pure
      | ok pre =>
          refine keeps_lift.seq fun known => ?_
          split
          · split
            · exact stop_host_keeps
            · exact keeps_pure
          · exact keeps_pure
    · exact keeps_pure

theorem cancel_agent_keeps {result : α} :
    Keeps (Walking n busy) (orRaise (call (.cancelOnAgent agentId)) >>= fun _ => pure result) :=
  Keeps.seq (or_raise_keeps (call_keeps rfl)) fun _ => keeps_pure

variable {fmt : Format} {batchId : String}

theorem follow_event_keeps {event : Json} :
    Keeps (Walking n busy) (followEvent fmt batchId it deadline event) := by
  refine Keeps.seq (call_keeps rfl) fun cancelled => ?_
  split
  · exact cancel_agent_keeps
  · refine now_keeps.seq fun t => ?_
    split
    · exact cancel_agent_keeps
    · split
      · refine Keeps.seq (keeps_modify fun v l h => ?_) fun _ => ?_
        · split
          · exact ⟨h.length, h.idle, h.owed⟩
          · exact h
        · split
          · refine Keeps.seq (keeps_modify fun v l h => ?_) fun _ => keeps_pure
            split
            · exact ⟨h.length, h.idle, h.owed⟩
            · exact h
          · refine keeps_get.seq fun v => ?_
            dsimp only
            split
            · exact keeps_pure
            · exact keeps_pure
          · exact keeps_pure
      · exact keeps_pure

theorem follow_stream_keeps : Keeps (Walking n busy) (followStream fmt batchId it deadline) := by
  refine keeps_get.seq fun v => Keeps.seq (call_keeps rfl) fun streamed => ?_
  refine Keeps.seq (Keeps.first_some fun _ => follow_event_keeps) fun ended => ?_
  split
  · exact keeps_pure
  · exact keeps_raise
  · exact keeps_get.seq fun _ => keeps_pure

theorem follow_keeps {left : ℕ} : Keeps (Walking n busy) (follow fmt batchId it deadline left) := by
  induction left with
  | zero => exact try_keeps follow_stream_keeps fun _ => cancel_agent_keeps
  | succ left ih =>
      refine try_keeps follow_stream_keeps fun text => now_keeps.seq fun t => ?_
      split
      · exact cancel_agent_keeps
      · refine Keeps.seq (or_raise_keeps (call_keeps rfl)) fun _ => ?_
        refine Keeps.seq (call_keeps rfl) fun cancelled => ?_
        split
        · exact cancel_agent_keeps
        · exact ih

theorem sync_profile_keeps {section_ : Fields} :
    Keeps (Walking n busy) (syncProfile it section_) := by
  refine try_keeps (Keeps.seq (or_raise_keeps (call_keeps rfl)) fun active =>
    ?_) fun _ => keeps_pure
  exact Keeps.only_if (or_raise_keeps (call_keeps rfl))

theorem apply_keeps {doc : Fields} : Keeps (Walking n busy) (apply fmt it doc) := by
  refine Keeps.seq (or_raise_keeps (call_keeps rfl)) fun config => ?_
  split
  · split
    · refine now_keeps.seq fun t => Keeps.seq ?_ fun saved => ?_
      · exact try_keeps (Keeps.seq (or_raise_keeps (call_keeps rfl)) fun _ => keeps_pure)
          fun _ => keeps_pure
      · cases saved with
        | some reason => exact keeps_pure
        | none =>
            refine keeps_lift.seq fun changes => ?_
            refine Keeps.seq (or_raise_keeps (call_keeps rfl)) fun answer => ?_
            split
            · exact sync_profile_keeps.seq fun _ => keeps_pure
            · exact keeps_pure
    · exact keeps_pure
  · exact keeps_pure

theorem item_from_done_keeps {doc : Fields} : KeepsWalk n i (itemFromDone fmt i doc) := by
  refine keeps_lift.seq fun after => (set_item_keeps _).seq fun _ => ?_
  refine keeps_lift.seq fun g => (set_item_keeps _).seq fun _ => ?_
  exact keeps_lift.seq fun verify => set_item_keeps _

theorem end_item_saves {status : ItemStatus} {note : Option String} {result : α}
    (h : status.terminal = true) :
    Triple (Walking n (some i)) (endItem i status note >>= fun _ => save >>= fun _ => pure result)
      (fun _ => Walking n none) (fun _ => Walking n (some i)) :=
  Triple.seq (end_item_settles h) fun _ => settled_save

theorem settle_done_settles {doc : Fields} :
    Triple (Walking n (some i)) (settleDone fmt i it doc) (fun _ => Walking n none)
      (fun _ => Walking n (some i)) := by
  have hend : Triple (Walking n (some i))
      (now >>= fun t => setItem i fun it => { it with status := .done, finished := some t })
      (fun _ => Walking n none) (fun _ => Walking n (some i)) :=
    Triple.seq now_keeps fun t => set_item_settles fun _ => rfl
  refine Triple.seq keeps_lift fun verdict => ?_
  dsimp only
  split
  · refine Triple.seq keeps_lift fun changes => ?_
    refine Triple.seq apply_keeps fun failed => ?_
    exact Triple.seq (set_item_keeps _) fun _ => hend
  · exact Triple.seq (set_item_keeps _) fun _ => hend

theorem settle_settles {followed : Followed} :
    Triple (Walking n (some i)) (settle fmt i it followed) (fun _ => Walking n none)
      (fun _ => Walking n (some i)) := by
  obtain ⟨doc, err⟩ := followed
  unfold settle
  dsimp only
  split
  · exact end_item_saves rfl
  · cases doc with
    | none => exact end_item_saves rfl
    | some doc =>
        refine Triple.seq item_from_done_keeps fun _ => ?_
        split
        · exact Triple.seq settle_done_settles fun _ => settled_save
        · exact end_item_saves rfl

theorem tune_settles {minutes : ℤ} :
    Triple (Walking n (some i)) (tune fmt i it minutes) (fun _ => Walking n none)
      (fun _ => Walking n (some i)) := by
  refine Triple.seq keeps_get fun v => Triple.seq (or_raise_keeps (call_keeps rfl)) fun answer => ?_
  split
  · refine Triple.seq (set_item_keeps _) fun _ => Triple.seq (call_keeps rfl) fun _ => ?_
    refine Triple.seq save_keeps fun _ => Triple.seq (keeps_modify fun v l h => ?_) fun _ => ?_
    · exact ⟨h.length, h.idle, h.owed⟩
    · refine Triple.seq now_keeps fun t => Triple.seq follow_keeps fun followed => ?_
      have hended : KeepsWalk n i
        (tryExcept (orRaise (call (.runEnded it.agentId))) fun _ => pure ()) :=
        try_keeps (or_raise_keeps (call_keeps rfl)) fun _ => keeps_pure
      refine Triple.seq hended fun _ => Triple.seq (call_keeps rfl) fun _ => ?_
      exact settle_settles
  · exact end_item_saves rfl

theorem item_settles {rounds : ℕ} :
    Triple (Walking n none) (item fmt rounds i it) (fun _ => Walking n none)
      (fun _ => Walking n (some i)) := by
  have hstart : Triple (Walking n none) now (fun _ => Walking n (some i))
      (fun _ => Walking n (some i)) :=
    now_keeps.conseq (fun _ _ h => h) (fun _ _ _ h => h.weaken) fun _ _ _ h => h.weaken
  refine Triple.seq hstart fun t => Triple.seq (set_item_keeps _) fun _ => ?_
  refine Triple.seq (keeps_modify fun v l h => ⟨h.length, h.idle, h.owed⟩) fun _ => ?_
  refine Triple.seq save_keeps fun _ => Triple.seq budget_keeps fun minutes => ?_
  cases minutes with
  | none =>
      refine end_item_saves ?_
      rfl
  | some minutes =>
      refine Triple.seq precheck_keeps fun reason => ?_
      cases reason with
      | some reason =>
          refine end_item_saves ?_
          split <;> rfl
      | none => exact tune_settles

end Steps

/-- What holds while a batch is running: every server that waits for its restart is noted. -/
def Noted (v : Vars) (log : Events) : Prop := Owed v.b.stopped log

section Loops

variable {n : ℕ}

theorem walk_item_keeps {fmt : Format} {rounds : ℕ} {batchId : String} {entry : Item × ℕ} :
    Triple (Walking n none) (walkItem fmt rounds batchId entry) (fun _ => Walking n none)
      (fun _ => Noted) := by
  refine Triple.seq (R := fun _ => Walking n none) ?_ fun cancelled => ?_
  · exact (call_keeps rfl).conseq (fun _ _ h => h) (fun _ _ _ h => h) fun _ _ _ h => h.owed
  · split
    · refine Triple.seq (R := fun _ => Walking n (some entry.2)) ?_ fun t => Triple.seq
        (R := fun _ => Walking n none) ?_ fun _ => triple_pure fun _ _ h => h
      · exact now_keeps.conseq (fun _ _ h => h) (fun _ _ _ h => h.weaken) fun _ _ _ h => h.owed
      · exact (set_item_settles fun _ => rfl).conseq (fun _ _ h => h) (fun _ _ _ h => h)
          fun _ _ _ h => h.owed
    · refine Triple.seq (R := fun _ => Walking n none) ?_ fun go => triple_pure fun _ _ h => h
      exact item_settles.conseq (fun _ _ h => h) (fun _ _ _ h => h) fun _ _ _ h => h.owed

end Loops

/-- No run ends this way. -/
abbrev Never : Stop → RunAssertion := fun _ _ _ => False

section Hosts

theorem restart_host_settles {S : List Item → Prop} {agentId : String} {rest : List String} :
    Triple (fun v l => S v.b.items ∧ Owed (agentId :: rest) l) (restartHost agentId)
      (fun _ v l => S v.b.items ∧ Owed rest l) Never := by
  let Restarted : Vars → Events → Prop := fun v l => S v.b.items ∧ Owed rest l
  refine Triple.seq (R := fun _ => Restarted) ?_ fun answer => triple_modify fun v l h => ?_
  · refine triple_try (F := fun stop v l => (∃ text, stop = .exception text) ∧
      Restarted v l) ?_ ?_ ?_
    · -- The attempt is in the log, with whatever answer.
      refine or_raise_triple (triple_ask fun answer v l h => ⟨fun _ _ => ?_, fun text _ => ?_⟩)
      · exact ⟨h.1, h.2.restart⟩
      · exact ⟨⟨text, rfl⟩, h.1, h.2.restart⟩
    · exact fun text => triple_pure fun _ _ h => h.2
    · rintro v l ⟨⟨text, htext⟩, -⟩
      cases htext
  · dsimp only
    split
    · exact h
    · exact h

theorem stopped_mem_wanted {b : Batch} {appliedHosts : Bool} {agentId : String}
    (h : agentId ∈ b.stopped) : agentId ∈ wanted b appliedHosts := by
  have hfold : ∀ (items : List Item) (want : List String), agentId ∈ want →
      agentId ∈ items.foldl
        (fun want it => if it.agentId ∈ want then want else want ++ [it.agentId]) want := by
    intro items
    induction items with
    | nil => exact fun _ hmem => hmem
    | cons it items ih =>
        intro want hmem
        refine ih _ ?_
        dsimp only
        split
        · exact hmem
        · exact List.mem_append_left _ hmem
  unfold wanted
  split
  · exact hfold _ _ h
  · exact h

theorem finish_hosts_clears {S : List Item → Prop} {appliedHosts : Bool} :
    Triple (fun v l => S v.b.items ∧ Noted v l) (finishHosts appliedHosts)
      (fun _ v l => S v.b.items ∧ Clear l) Never := by
  refine Triple.seq (R := fun b v l => S v.b.items ∧ Owed (wanted b.b appliedHosts) l) ?_ fun b =>
    ?_
  · exact triple_get fun v l h =>
      ⟨h.1, fun agentId hpending => stopped_mem_wanted (h.2 agentId hpending)⟩
  · refine (triple_for_each (I := fun rest v l => S v.b.items ∧ Owed rest l)
      fun agentId rest => restart_host_settles).conseq (fun _ _ h => h) ?_ fun _ _ _ h => h
    exact fun _ v l h => ⟨h.1, clear_iff_owed.mpr h.2⟩

end Hosts

/-- The batch has failed, or nothing is left to do about any of its items. -/
def Closed (b : Batch) : Prop := b.status = .failed ∨ ∀ it ∈ b.items, it.status.terminal = true

/-- The end of a run: no server waits, and the batch that was saved last is closed. -/
def Finished (v : Vars) (log : Events) : Prop := Clear log ∧ SavedLast v.b log ∧ Closed v.b

section Endings

/-- The summary changes neither the items nor the status. -/
theorem set_summary_keeps {fmt : Format} :
    Triple (fun v l => Closed v.b ∧ Clear l) (setSummary fmt) (fun _ v l => Closed v.b ∧ Clear l)
      (fun _ => Noted) := by
  refine Triple.seq (R := fun _ v l => Closed v.b ∧ Clear l) (triple_get fun v l h => h)
    fun v => Triple.seq (R := fun _ v l => Closed v.b ∧ Clear l)
    (triple_lift (fun _ _ _ _ h => h) fun _ v l _ h => h.2.owed) fun summary => ?_
  exact triple_modify fun v l h => h

/-- A closed batch is written to the store. -/
theorem save_finishes :
    Triple (fun v l => Closed v.b ∧ Clear l) save (fun _ => Finished) (fun _ => Noted) := by
  refine Triple.seq (R := fun read v l => read = v ∧ Closed v.b ∧ Clear l)
    (triple_get fun v l h => ⟨rfl, h⟩) fun read => ?_
  refine or_raise_triple (triple_ask fun answer v l h => ⟨?_, ?_⟩)
  · rintro ⟨⟩ rfl
    obtain ⟨rfl, hclosed, hl⟩ := h
    exact ⟨hl.concat rfl, saved_last_concat, hclosed⟩
  · intro text _
    exact (h.2.2.concat rfl).owed

theorem finished_call {c : Call} (hc : c.harmless = true)
    (hsave : ∀ answer, isSave ⟨c, answer⟩ = false) : Keeps Finished (call c) :=
  keeps_ask fun answer _ _ h => ⟨h.1.concat hc, h.2.1.concat (hsave answer), h.2.2⟩

/-- The `n` items, none of which is being tuned. -/
def Resting (n : ℕ) (items : List Item) : Prop :=
  items.length = n ∧ ∀ (j : ℕ) it, items[j]? = some it → it.status = .queued ∨
    it.status.terminal = true

/-- All items but some of `rest`, which are queued, have ended. -/
def Ending (rest : List ℕ) (v : Vars) (log : Events) : Prop :=
  (∀ j it, v.b.items[j]? = some it → it.status.terminal = true ∨ (it.status = .queued ∧ j ∈ rest)) ∧
    Clear log

theorem Ending.closed {v : Vars} {log : Events} (h : Ending [] v log) : Closed v.b := by
  refine Or.inr fun it hit => ?_
  obtain ⟨j, hj⟩ := List.mem_iff_getElem?.mp hit
  rcases h.1 j it hj with hterminal | ⟨-, hmem⟩
  · exact hterminal
  · exact absurd hmem (by simp)

/-- One item of the loop that cancels what is still queued. -/
theorem cancel_queued_ends {i : ℕ} {rest : List ℕ} :
    Triple (Ending (i :: rest)) (cancelQueued i) (fun _ => Ending rest) (fun _ => Noted) := by
  refine Triple.seq (R := fun read v l => read = v ∧ Ending (i :: rest) v l)
    (triple_get fun v l h => ⟨rfl, h⟩) fun read => ?_
  have hskip : ∀ (v : Vars) (l : Events), Ending (i :: rest) v l →
      (∀ it, v.b.items[i]? = some it → it.status ≠ .queued) → Ending rest v l := by
    refine fun v l h hnot => ⟨fun j it hit => ?_, h.2⟩
    rcases h.1 j it hit with hterminal | ⟨hqueued, hmem⟩
    · exact Or.inl hterminal
    · rcases List.mem_cons.mp hmem with rfl | hmem
      · exact absurd hqueued (hnot it hit)
      · exact Or.inr ⟨hqueued, hmem⟩
  split
  · rename_i it hit
    refine triple_only_if (fun _ => ?_) fun v l hb h => ?_
    · refine Triple.seq (R := fun _ => Ending (i :: rest)) ?_ fun t => triple_modify fun v l h => ?_
      · refine or_raise_triple (triple_ask fun answer v l h => ⟨fun _ _ => ?_, fun _ _ => ?_⟩)
        · exact ⟨h.2.1, h.2.2.concat rfl⟩
        · exact (h.2.2.concat rfl).owed
      · refine ⟨fun j other hother => ?_, h.2⟩
        rw [List.getElem?_modify] at hother
        obtain ⟨before, hbefore, rfl⟩ := Option.map_eq_some_iff.mp hother
        by_cases heq : i = j
        · rw [if_pos heq]
          exact Or.inl rfl
        · rw [if_neg heq]
          rcases h.1 j before hbefore with hterminal | ⟨hqueued, hmem⟩
          · exact Or.inl hterminal
          · rcases List.mem_cons.mp hmem with rfl | hmem
            · exact absurd rfl heq
            · exact Or.inr ⟨hqueued, hmem⟩
    · obtain ⟨rfl, h⟩ := h
      refine hskip read l h fun other hother => ?_
      rw [hit] at hother
      obtain rfl := Option.some.inj hother
      exact of_decide_eq_false hb
  · rename_i hit
    refine triple_pure fun v l h => ?_
    obtain ⟨rfl, h⟩ := h
    refine hskip read l h fun other hother => ?_
    rw [hit] at hother
    cases hother

end Endings

section Runs

variable {fmt : Format} {rounds : ℕ} {batchId : String}

variable {n : ℕ}

theorem Ending.start {v : Vars} {log : Events} (h : Resting n v.b.items ∧ Clear log) :
    Ending (List.range n) v log := by
  refine ⟨fun j it hit => ?_, h.2⟩
  have hlt : j < v.b.items.length := (List.getElem?_eq_some_iff.mp hit).1
  cases h.1.2 j it hit with
  | inl hqueued => exact Or.inr ⟨hqueued, List.mem_range.mpr (h.1.1 ▸ hlt)⟩
  | inr hterminal => exact Or.inl hterminal

theorem walking_noted {α : Type} {p : Run α} (h : Keeps (Walking n none) p) :
    Triple (Walking n none) p (fun _ => Walking n none) (fun _ => Noted) :=
  h.conseq (fun _ _ h => h) (fun _ _ _ h => h) fun _ _ _ h => h.owed

theorem walk_items_keep {entries : List (Item × ℕ)} :
    Triple (Walking n none) (Proc.firstSome (walkItem fmt rounds batchId) entries)
      (fun _ => Walking n none) (fun _ => Noted) := by
  refine (triple_first_some (Q := fun _ => Walking n none) (I := fun _ => Walking n none)
    fun entry rest => ?_).conseq (fun _ _ h => h) (fun result v l h => ?_) fun _ _ _ h => h
  · refine walk_item_keeps.conseq (fun _ _ h => h) (fun result v l h => ?_) fun _ _ _ h => h
    cases result with
    | none => exact h
    | some _ => exact h
  · cases result with
    | none => exact h
    | some _ => exact h

theorem resting_now :
    Triple (fun v l => Resting n v.b.items ∧ Clear l) now (fun _ v l =>
      Resting n v.b.items ∧ Clear l)
      (fun _ => Noted) := by
  refine or_raise_triple (triple_ask fun answer v l h => ⟨fun _ _ => ?_, fun _ _ => ?_⟩)
  · exact ⟨h.1, h.2.concat rfl⟩
  · exact (h.2.concat rfl).owed

theorem walk_finishes :
    Triple (Walking n none) (walk fmt rounds batchId) (fun _ => Finished) (fun _ => Noted) := by
  refine Triple.seq (walking_noted now_keeps) fun t => Triple.seq (R := fun _ => Walking n none)
    (triple_modify fun v l h => ⟨h.length, h.idle, h.owed⟩) fun _ =>
      Triple.seq (walking_noted save_keeps)
    fun _ => ?_
  refine Triple.seq (R := fun read v l => read.b.items.length = n ∧ Walking n none v l)
    (triple_get fun v l h => ⟨h.length, h⟩) fun read => ?_
  by_cases hread : read.b.items.length = n
  case neg =>
    intro v l h
    exact absurd h.1 hread
  refine Triple.seq (walk_items_keep.conseq (fun _ _ h => h.2) (fun _ _ _ h => h) fun _ _ _ h => h)
    fun _ => ?_
  refine Triple.seq (R := fun _ v l => Resting n v.b.items ∧ Clear l) ?_ fun _ => ?_
  · refine finish_hosts_clears.conseq (fun v l h => ?_) (fun _ _ _ h => h) fun _ _ _ h => h.elim
    exact ⟨⟨h.length, fun j it hit => h.idle j it hit (Option.some_ne_none j).symm⟩, h.owed⟩
  refine Triple.seq (R := fun _ v l => Resting n v.b.items ∧ Clear l)
    (triple_ask fun answer v l h => ⟨h.1, h.2.concat rfl⟩) fun cancelled => ?_
  refine resting_now.seq fun t => Triple.seq (R := fun _ => Ending (List.range n))
    (triple_modify fun v l h => Ending.start h) fun _ => ?_
  rw [hread]
  refine Triple.seq (triple_for_each fun i rest => cancel_queued_ends) fun _ => ?_
  refine Triple.seq (set_summary_keeps.conseq (fun v l h => ⟨h.closed, h.2⟩) (fun _ _ _ h => h)
    fun _ _ _ h => h) fun _ => save_finishes.seq fun _ => ?_
  -- The alert comes after the last save, and its exceptions are swallowed.
  refine Triple.seq (R := fun _ => Finished) (triple_get fun v l h => h) fun v => ?_
  refine triple_try (F := fun _ => Finished) ?_ (fun text => triple_pure fun _ _ h => h)
    fun v l h => h.1.owed
  exact or_raise_keeps (finished_call rfl fun _ => rfl)

theorem clear_now :
    Triple (fun (_ : Vars) l => Clear l) now (fun _ _ l => Clear l) (fun _ => Noted) := by
  refine or_raise_triple (triple_ask fun answer v l h => ⟨fun _ _ => h.concat rfl, fun _ _ => ?_⟩)
  exact (h.concat rfl).owed

theorem fail_batch_finishes {text : String} :
    Triple Noted (failBatch fmt text) (fun _ => Finished) (fun _ _ _ => True) := by
  have hclear : Triple Noted (tryExcept (finishHosts true) fun _ => pure ()) (fun _ _ l => Clear l)
      (fun _ => Noted) := by
    refine triple_try (F := Never) ?_ (fun text => ?_) fun v l h => h.elim
    · exact (finish_hosts_clears (S := fun _ => True)).conseq (fun _ _ h => ⟨trivial, h⟩)
        (fun _ _ _ h => h.2) fun _ _ _ h => h
    · exact triple_pure fun _ _ h => h.elim
  refine Triple.conseq (E := fun _ => Noted) ?_ (fun _ _ h => h) (fun _ _ _ h => h)
    fun _ _ _ _ => trivial
  refine hclear.seq fun _ => clear_now.seq fun t => Triple.seq
    (R := fun _ v l => Closed v.b ∧ Clear l)
      (triple_modify fun v l h => ⟨Or.inl rfl, h⟩) fun _ => ?_
  exact set_summary_keeps.seq fun _ => save_finishes

theorem cancel_now_finishes :
    Triple (fun (_ : Vars) l => Clear l) (cancelNow fmt) (fun _ => Finished)
      (fun _ _ _ => True) := by
  refine Triple.conseq (E := fun _ => Noted) ?_ (fun _ _ h => h) (fun _ _ _ h => h)
    fun _ _ _ _ => trivial
  refine clear_now.seq fun t => Triple.seq (R := fun _ v l => Closed v.b ∧ Clear l)
    (triple_modify fun v l h => ⟨Or.inr fun it hit => ?_, h⟩) fun _ => ?_
  · obtain ⟨before, -, rfl⟩ := List.mem_map.mp hit
    rfl
  · exact set_summary_keeps.seq fun _ => save_finishes

/-- A batch that is queued is run to its end. -/
theorem run_stored_finishes {stored : StoredBatch} (hqueued : stored.batch.status = .queued) :
    Triple (fun (_ : Vars) l => Clear l) (runStored fmt rounds batchId stored) (fun _ => Finished)
      (fun _ _ _ => True) := by
  have hstart : ∀ (j : ℕ) it, stored.batch.items[j]? = some it → none ≠ some j →
      it.status = .queued ∨ it.status.terminal = true := by
    intro j it hit _
    exact Or.inl (stored.fresh hqueued it (List.mem_of_getElem? hit))
  unfold runStored
  rw [if_pos hqueued]
  refine Triple.seq (R := fun _ v l => v.b = stored.batch ∧ Clear l)
    (triple_modify fun v l h => ⟨rfl, h⟩) fun _ => ?_
  refine Triple.seq (R := fun _ v l => v.b = stored.batch ∧ Clear l)
    (triple_ask fun answer v l h => ⟨h.1, h.2.concat rfl⟩) fun cancelled => ?_
  split
  · exact cancel_now_finishes.conseq (fun _ _ h => h.2) (fun _ _ _ h => h) fun _ _ _ h => h
  · refine Triple.ensuring (S := fun _ => Finished) (F := fun _ _ _ => True) ?_ (fun _ => ?_)
      fun _ _ _ _ _ out _ => ?_
    · refine triple_try (F := fun _ => Noted) ?_ (fun text => fail_batch_finishes)
        fun _ _ _ => trivial
      refine (walk_finishes (n := stored.batch.items.length)).conseq (fun v l h => ?_)
        (fun _ _ _ h => h) fun _ _ _ h => h
      exact ⟨by rw [h.1], by rw [h.1]; exact hstart, h.2.owed⟩
    · refine Triple.seq (R := fun _ => Finished) ?_ fun _ => triple_pure fun _ _ h => h
      exact triple_ask fun answer v l h => ⟨h.1.concat rfl, h.2.1.concat rfl, h.2.2⟩
    · obtain ⟨result, v⟩ := out
      cases result with
      | ok _ => trivial
      | error _ => trivial

/-- `run` took the batch from the store, and found it queued. -/
def Began (batchId : String) (stored : StoredBatch) (log : Events) : Prop :=
  (∃ rest, log = ⟨.getBatch batchId, .ok (some stored)⟩ :: rest) ∧ stored.batch.status = .queued

theorem get_batch_runs {v v' : Vars} {log : Events} {result : Except Stop (Option StoredBatch)}
    (h : (orRaise (call (.getBatch batchId)) v).Runs log (result, v')) :
    ∃ answer : Except String (Option StoredBatch), log = [⟨.getBatch batchId, answer⟩] ∧
      result = answer.mapError Stop.exception := by
  cases h with
  | call op k answer log out h =>
      cases h with
      | ret => exact ⟨answer, rfl, rfl⟩

/-- When `run` returns, every agent whose server was stopped has seen a restart since, and the batch
was saved with no item left to tune, unless it failed. -/
theorem run_settles {v v' : Vars} {log : Events}
    (h : (run fmt rounds batchId v).Runs log (.ok (), v')) :
    (∀ agentId, ¬ Pending agentId log) ∧
      ∀ stored, Began batchId stored log → SavedLast v'.b log ∧
        (v'.b.status = .failed ∨ ∀ it ∈ v'.b.items, it.status.terminal = true) := by
  obtain ⟨⟨found, v₁⟩, first, rest, hfirst, hrest, rfl⟩ := runs_bind h
  obtain ⟨answer, rfl, rfl⟩ := get_batch_runs hfirst
  have hclear : Clear [(⟨.getBatch batchId, answer⟩ : Event)] := by
    have hnil : Clear [] := fun agentId => not_pending_nil
    exact hnil.concat (c := .getBatch batchId) rfl
  -- Without a queued batch nothing else is called.
  have hidle : rest = [] →
    (∀ agentId, ¬ Pending agentId ([⟨.getBatch batchId, answer⟩] ++ rest)) := by
    rintro rfl
    exact hclear
  cases answer with
  | error text => cases hrest
  | ok found =>
      cases found with
      | none =>
          cases hrest
          refine ⟨hidle rfl, fun stored hbegan => ?_⟩
          obtain ⟨⟨rest, heq⟩, -⟩ := hbegan
          cases heq
      | some stored =>
          by_cases hqueued : stored.batch.status = .queued
          · have hfinished := run_stored_finishes hqueued v₁ _ hclear rest _ hrest
            exact ⟨hfinished.1, fun _ _ => hfinished.2⟩
          · replace hrest : (runStored fmt rounds batchId stored v₁).Runs rest (.ok (), v') := hrest
            unfold runStored at hrest
            rw [if_neg hqueued] at hrest
            cases hrest
            refine ⟨hidle rfl, fun other hbegan => ?_⟩
            obtain ⟨⟨rest, heq⟩, hother⟩ := hbegan
            cases heq
            exact absurd hother hqueued

/-- A batch with one item. -/
def oneItem : StoredBatch :=
  newBatch "b" 0 0 "speed" [] 60 true none [("a", "m")] fun _ => some "host"

/-- A host whose server runs and is stopped, but where neither the tune nor a restart succeeds. -/
def refusing : (c : Call) → c.Answer
  | .getBatch _ => .ok (some oneItem)
  | .isCancelled _ => false
  | .setCurrent .. => ()
  | .popCurrent _ => ()
  | .forget _ => ()
  | .hosts => .ok [{ agentId := "a", online := true }]
  | .busyAgents => .ok []
  | .preflight _ => .ok (.dict [("ok", .bool true), ("sizes", .list [.str "m"]),
      ("unit_active", .bool true)])
  | .runOnAgent .. => .ok (false, "refused")
  | .streamOnAgent .. => { events := [], broken := none }
  | .stopServer _ => .ok (true, "")
  | .restartServer _ => .error "unreachable"
  | .readConfig _ => .ok .null
  | .writeConfig .. => .ok (true, "")
  | .activeProfile .. => .ok none
  | .now => .ok 0
  | .save _ => .ok ()
  | .cancelOnAgent _ => .ok ()
  | .saveProfile .. => .ok ()
  | .alert _ => .ok ()
  | .runEnded _ => .ok ()
  | .sleep _ => .ok ()

/-- Values without their texts. -/
def noFormat : Format where
  shown _ := ""
  floatText _ := none
  day _ := ""
  line _ := .ok ""

/-- The run with these answers, on a runner that holds nothing yet. -/
def refusedRun : Events × (Except Stop Unit × Vars) :=
  Prog.follow refusing (run noFormat 1 "b" { b := oneItem.batch })

theorem refused_runs : (run noFormat 1 "b" { b := oneItem.batch }).Runs refusedRun.1
    (.ok (), refusedRun.2.2) := by
  have hok : refusedRun.2.1.isOk = true := by decide +kernel
  have hout : refusedRun.2 = (.ok (), refusedRun.2.2) := by
    match hresult : refusedRun.2, hok with
    | (.ok (), v), _ => rfl
    | (.error _, v), hok => simp [Except.isOk, Except.toBool] at hok
  rw [← hout]
  exact runs_follow refusing (run noFormat 1 "b" { b := oneItem.batch })

/-- The agent is stopped in it, and the restart that fails counts as an attempt. -/
theorem run_settles_refused : (refusedRun.1.any (stops "a")) = true ∧
    (∀ agentId, ¬ Pending agentId refusedRun.1) :=
  ⟨by decide +kernel, (run_settles refused_runs).1⟩

end Runs

end SystemsManager.Autotune
