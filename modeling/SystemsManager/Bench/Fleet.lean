import Mathlib.Data.Rat.Defs
import Mathlib.Algebra.Order.Ring.Rat
import Mathlib.Data.List.Induction
import SystemsManager.Python.Value

/-!
# A benchmark on many hosts

A fleet job of `backend/bench_live.py`: one thread per host that starts the run on its agent, the
thread that waits for them and then polls for the results, and the request that cancels the job. A
`Fleet` is the job with the stored results and where each thread stands between two critical
sections; `Fleet.step` is one event. Read `cancel_reaches`: the cancelled hosts are exactly those
that needed it unless, when the request is accepted, a host is still shown as queued or has timed
out while its result is not stored. The metrics that a result fills in are left out.
-/

namespace SystemsManager.Bench

open Python

/-- The status of a host row. -/
inductive Status where
  | queued
  | running
  | done
  | failed
  | cancelled
  deriving DecidableEq

/-- `_host_row` -/
structure Host where
  agentId : String
  hostname : String
  status : Status := .queued
  error : Option String := none
  runId : Option String := none
  started : Option ℚ := none
  finished : Option ℚ := none

/-- Where the start thread of a host stands: before its call of the agent, between the answer and
the update of the row, or at its end. -/
inductive Starter where
  | calling
  | returned (answer : Except String String)
  | ended

/-- Where `_fleet_run` stands: before its start threads are joined, at the top of its loop, with
hosts still to look up, with a result that is not applied yet, after the loop, or at its end. -/
inductive Poller where
  | joining
  | top
  | reading (pending : List ℕ)
  | hit (host : ℕ) (ok : Bool) (pending : List ℕ)
  | ending
  | ended

/-- Where the cancel request stands. -/
inductive Canceller where
  | waiting
  | sending (running : List ℕ)
  | ended

/-- A job with its threads. -/
structure Fleet where
  size : ℕ
  host : ℕ → Host
  cancelled : Bool
  done : Bool
  starter : ℕ → Starter
  poller : Poller
  deadline : ℚ
  canceller : Canceller
  /-- The stored runs and whether they are ok. -/
  results : String → Option Bool
  /-- The run that the agent of a host has started. -/
  launched : ℕ → Option String
  /-- The hosts that `cancel_on_agent` was called for. -/
  sent : List ℕ

/-- `FLEET_MAX_WAIT_S` -/
def FLEET_MAX_WAIT_S : ℚ := 7200

/-- `bench_live_fleet` -/
def Fleet.new (wanted : List (String × String)) (results : String → Option Bool) : Fleet where
  size := wanted.length
  host i := { agentId := (wanted.getD i ("", "")).1, hostname := (wanted.getD i ("", "")).2 }
  cancelled := false
  done := false
  starter _ := .calling
  poller := .joining
  deadline := 0
  canceller := .waiting
  results := results
  launched _ := none
  sent := []

/-- One event: a start thread calls its agent or updates its row, the fleet thread goes on, a result
is stored, or the cancel request goes on. -/
inductive Event where
  | call (host : ℕ) (answer : Except String String)
  | update (host : ℕ) (now : ℚ)
  | join (now : ℚ)
  | top (now : ℚ)
  | read
  | apply (now : ℚ)
  | finish (now : ℚ)
  | store (runId : String) (ok : Bool)
  | cancel
  | send

namespace Fleet

variable (s : Fleet)

/-- One row changes. -/
def put (i : ℕ) (h : Host) : Fleet := { s with host := Function.update s.host i h }

/-- The hosts that are shown as running. -/
def running : List ℕ := (List.range s.size).filter fun i => (s.host i).status = .running

/-- The second part of `_start_host`. -/
def started (i : ℕ) (answer : Except String String) (now : ℚ) : Host :=
  if s.cancelled then { s.host i with status := .cancelled }
  else
    match answer with
    | .ok runId => { s.host i with status := .running, runId := some runId, started := some now }
    | .error text =>
        { s.host i with
          status := .failed
          error := some (takeChars text 300)
          finished := some now }

/-- A result that was found is applied to a host that is still running. -/
def settled (i : ℕ) (ok : Bool) (now : ℚ) : Host :=
  if (s.host i).status = .running then
    { s.host i with
      status := if ok then .done else .failed
      finished := some now
      error := if ok then (s.host i).error else some "run failed on the agent" }
  else s.host i

/-- The end of `_fleet_run` for one host. -/
def ended (i : ℕ) (now : ℚ) : Host :=
  if (s.host i).status = .running then
    { s.host i with
      status := if s.cancelled then .cancelled else .failed
      error := if s.cancelled then none else some "timed out"
      finished := some now }
  else s.host i

/-- A host that is queued when the job is cancelled. -/
def unqueued (i : ℕ) : Host :=
  if (s.host i).status = .queued then { s.host i with status := .cancelled } else s.host i

/-- What an event does; `none` when it is not possible in this state. -/
def step : Event → Option Fleet
  | .call i answer =>
      match s.starter i with
      | .calling =>
          if i < s.size then
            some { s with
              starter := Function.update s.starter i (.returned answer)
              launched := Function.update s.launched i answer.toOption }
          else none
      | _ => none
  | .update i now =>
      match s.starter i with
      | .returned answer =>
          some { s.put i (s.started i answer now) with
            starter := Function.update s.starter i .ended }
      | _ => none
  | .join now =>
      match s.poller with
      | .joining =>
          if (List.range s.size).all fun i => match s.starter i with
              | .ended => true
              | _ => false
          then some { s with poller := .top, deadline := now + FLEET_MAX_WAIT_S }
          else none
      | _ => none
  | .top now =>
      match s.poller with
      | .top =>
          if now < s.deadline ∧ s.running ≠ [] ∧ s.cancelled = false then
            some { s with poller := .reading s.running }
          else some { s with poller := .ending }
      | _ => none
  | .read =>
      match s.poller with
      | .reading (i :: pending) =>
          match (s.host i).runId.bind s.results with
          | some ok => some { s with poller := .hit i ok pending }
          | none => some { s with poller := .reading pending }
      | .reading [] => some { s with poller := .top }
      | _ => none
  | .apply now =>
      match s.poller with
      | .hit i ok pending => some { s.put i (s.settled i ok now) with poller := .reading pending }
      | _ => none
  | .finish now =>
      match s.poller with
      | .ending => some { s with host := fun i => s.ended i now, done := true, poller := .ended }
      | _ => none
  | .store runId ok =>
      some { s with results := Function.update s.results runId ((s.results runId).or (some ok)) }
  | .cancel =>
      match s.canceller with
      | .waiting =>
          some { s with
            cancelled := true
            canceller := .sending s.running
            host := fun i => s.unqueued i }
      | _ => none
  | .send =>
      match s.canceller with
      | .sending (i :: rest) => some { s with canceller := .sending rest, sent := s.sent ++ [i] }
      | .sending [] => some { s with canceller := .ended }
      | .waiting => none
      | .ended => none

/-- One sequence of events, if it is possible. -/
def plays (events : List Event) : Option Fleet := events.foldlM step s

/-- The run of the host's agent has a stored result. -/
def stored (i : ℕ) : Bool := (s.launched i).any fun runId => (s.results runId).isSome

/-- Every start thread and the cancel request have ended. -/
def allEnded : Bool :=
  ((List.range s.size).all fun i => match s.starter i with
    | .ended => true
    | _ => false) &&
  match s.canceller with
  | .ended => true
  | _ => false

end Fleet

/-- The call of the agent succeeds. -/
def Event.succeeds : Event → Prop
  | .call _ answer => ∃ runId, answer = .ok runId
  | _ => True

/-- What the row of host `i` says before the job is cancelled. -/
def RowSound (s : Fleet) (i : ℕ) : Prop :=
  match (s.host i).status with
  | .queued => (s.host i).error = none
  | .running => (s.host i).error = none ∧ (s.host i).runId ≠ none
  | .done => s.stored i = true
  | .failed => s.stored i = true ∨ (s.host i).error = some "timed out"
  | .cancelled => False

/-- What holds of a job whose calls have all succeeded. -/
structure Sound (s : Fleet) : Prop where
  calling : ∀ i, s.starter i = .calling → s.launched i = none
  returned : ∀ i answer, s.starter i = .returned answer →
    ∃ runId, answer = .ok runId ∧ s.launched i = some runId
  called : ∀ i, s.starter i = .ended → s.launched i ≠ none
  runs : ∀ i runId, (s.host i).runId = some runId → s.launched i = some runId
  hit : ∀ i ok pending, s.poller = .hit i ok pending → s.stored i = true
  waiting : s.canceller = .waiting → s.cancelled = false ∧ s.sent = []
  unstarted : s.cancelled = false → ∀ i, s.starter i ≠ .ended → (s.host i).status = .queued
  rows : s.cancelled = false → ∀ i, RowSound s i

section Steps

variable {s s' : Fleet} {e : Event} {events : List Event}

theorem plays_keeps {I : Fleet → Prop} (ok : Event → Prop)
    (hstep : ∀ {s s' e}, ok e → I s → s.step e = some s' → I s') (hs : I s)
    (hok : ∀ e ∈ events, ok e) (h : s.plays events = some s') : I s' := by
  induction events generalizing s with
  | nil =>
      cases h
      exact hs
  | cons e rest ih =>
      obtain ⟨middle, hmiddle, hrest⟩ := Option.bind_eq_some_iff.mp h
      exact ih (hstep (hok e (List.mem_cons_self ..)) hs hmiddle)
        (fun e he => hok e (List.mem_cons_of_mem _ he)) hrest

theorem stored_mono {i : ℕ} (hlaunched : s'.launched i = s.launched i)
    (hresults : ∀ runId, (s.results runId).isSome = true → (s'.results runId).isSome = true)
    (h : s.stored i = true) : s'.stored i = true := by
  unfold Fleet.stored at h ⊢
  rw [hlaunched]
  obtain ⟨runId, hrun, hresult⟩ := (Option.any_eq_true _ _).mp h
  exact (Option.any_eq_true _ _).mpr ⟨runId, hrun, hresults runId hresult⟩

theorem launched_of_stored {i : ℕ} (h : s.stored i = true) : s.launched i ≠ none := by
  intro hnone
  unfold Fleet.stored at h
  rw [hnone] at h
  cases h

theorem row_sound_of_same {i : ℕ} (hhost : s'.host i = s.host i)
    (hstored : s.stored i = true → s'.stored i = true) (h : RowSound s i) : RowSound s' i := by
  unfold RowSound at h ⊢
  rw [hhost]
  cases hstatus : (s.host i).status with
  | queued =>
      rw [hstatus] at h
      exact h
  | running =>
      rw [hstatus] at h
      exact h
  | done =>
      rw [hstatus] at h
      exact hstored h
  | failed =>
      rw [hstatus] at h
      exact h.imp hstored id
  | cancelled =>
      rw [hstatus] at h
      exact h

theorem Sound.frame (h : Sound s) (hhost : s'.host = s.host) (hstarter : s'.starter = s.starter)
    (hlaunched : s'.launched = s.launched)
    (hresults : ∀ runId, (s.results runId).isSome = true → (s'.results runId).isSome = true)
    (hcancelled : s'.cancelled = s.cancelled)
    (hhit : ∀ i ok pending, s'.poller = .hit i ok pending → s'.stored i = true)
    (hwaiting : s'.canceller = .waiting → s.canceller = .waiting ∧
      s'.sent = s.sent) : Sound s' where
  calling i hi := by
    rw [hlaunched]
    exact h.calling i (hstarter ▸ hi)
  returned i answer hi := by
    rw [hlaunched]
    exact h.returned i answer (hstarter ▸ hi)
  called i hi := by
    rw [hlaunched]
    exact h.called i (hstarter ▸ hi)
  runs i runId hi := by
    rw [hlaunched]
    exact h.runs i runId (hhost ▸ hi)
  hit := hhit
  waiting hi := by
    obtain ⟨hold, hsent⟩ := hwaiting hi
    rw [hcancelled, hsent]
    exact h.waiting hold
  unstarted hlive i hi := by
    rw [hhost]
    exact h.unstarted (hcancelled ▸ hlive) i (hstarter ▸ hi)
  rows hlive i := by
    refine row_sound_of_same (congrFun hhost i) ?_ (h.rows (hcancelled ▸ hlive) i)
    exact stored_mono (congrFun hlaunched i) hresults

theorem Sound.call (h : Sound s) {i : ℕ} {runId : String} (hi : s.starter i = .calling) :
    Sound { s with
      starter := Function.update s.starter i (.returned (.ok runId))
      launched := Function.update s.launched i (some runId) } := by
  have hfresh := h.calling i hi
  have hstored : ∀ j, s.stored j = true → Fleet.stored { s with
      starter := Function.update s.starter i (.returned (.ok runId))
      launched := Function.update s.launched i (some runId) } j = true := by
    intro j hj
    have hne : j ≠ i := by
      rintro rfl
      exact launched_of_stored hj hfresh
    exact stored_mono (s := s) (by simp [hne]) (fun _ hr => hr) hj
  refine ⟨?_, ?_, ?_, ?_, ?_, h.waiting, ?_, ?_⟩
  · intro j hj
    by_cases hne : j = i
    · subst hne
      simp at hj
    · simp only [Function.update_of_ne hne] at hj ⊢
      exact h.calling j hj
  · intro j answer hj
    by_cases hne : j = i
    · subst hne
      simp only [Function.update_self, Starter.returned.injEq] at hj ⊢
      exact ⟨runId, hj.symm, rfl⟩
    · simp only [Function.update_of_ne hne] at hj ⊢
      exact h.returned j answer hj
  · intro j hj
    by_cases hne : j = i
    · subst hne
      simp
    · simp only [Function.update_of_ne hne] at hj ⊢
      exact h.called j hj
  · intro j other hj
    have hne : j ≠ i := by
      rintro rfl
      rw [h.runs j other hj] at hfresh
      cases hfresh
    simp only [Function.update_of_ne hne]
    exact h.runs j other hj
  · exact fun j ok pending hj => hstored j (h.hit j ok pending hj)
  · intro hlive j _
    by_cases hne : j = i
    · subst hne
      exact h.unstarted hlive j (by simp [hi])
    · rename_i hj
      simp only [Function.update_of_ne hne] at hj
      exact h.unstarted hlive j hj
  · exact fun hlive j => row_sound_of_same (s := s) rfl (hstored j) (h.rows hlive j)

theorem Sound.update (h : Sound s) {i : ℕ} {answer : Except String String} {now : ℚ}
    (hi : s.starter i = .returned answer) :
    Sound { s.put i (s.started i answer now) with
      starter := Function.update s.starter i .ended } := by
  obtain ⟨runId, rfl, hlaunched⟩ := h.returned i answer hi
  refine ⟨?_, ?_, ?_, ?_, h.hit, h.waiting, ?_, ?_⟩
  · intro j hj
    by_cases hne : j = i
    · subst hne
      simp at hj
    · simp only [Function.update_of_ne hne] at hj
      exact h.calling j hj
  · intro j other hj
    by_cases hne : j = i
    · subst hne
      simp at hj
    · simp only [Function.update_of_ne hne] at hj
      exact h.returned j other hj
  · intro j hj
    by_cases hne : j = i
    · subst hne
      show s.launched j ≠ none
      rw [hlaunched]
      simp
    · simp only [Function.update_of_ne hne] at hj
      exact h.called j hj
  · intro j other hj
    by_cases hne : j = i
    · subst hne
      simp only [Fleet.put, Function.update_self, Fleet.started] at hj ⊢
      split at hj
      · exact h.runs j other hj
      · exact hlaunched.trans hj
    · simp only [Fleet.put, Function.update_of_ne hne] at hj
      exact h.runs j other hj
  · intro hlive j hj
    have hne : j ≠ i := by
      rintro rfl
      simp at hj
    simp only [Function.update_of_ne hne, Fleet.put] at hj ⊢
    exact h.unstarted hlive j hj
  · intro hlive j
    by_cases hne : j = i
    · subst hne
      have hlive : s.cancelled = false := hlive
      have hrow := h.rows hlive j
      unfold RowSound at hrow ⊢
      rw [h.unstarted hlive j (by simp [hi])] at hrow
      simpa [Fleet.put, Fleet.started, hlive] using hrow
    · exact row_sound_of_same (s := s) (by simp [Fleet.put, hne]) id (h.rows hlive j)

theorem Sound.rewrite (h : Sound s) {f : ℕ → Host} {s' : Fleet} (hhost : s'.host = f)
    (hstarter : s'.starter = s.starter) (hlaunched : s'.launched = s.launched)
    (hcancelled : s'.cancelled = s.cancelled) (hcanceller : s'.canceller = s.canceller)
    (hsent : s'.sent = s.sent)
    (hpoller : ∀ i ok pending, s'.poller ≠ .hit i ok pending)
    (hrun : ∀ i, (f i).runId = (s.host i).runId)
    (hqueued : ∀ i, (s.host i).status = .queued → f i = s.host i)
    (hrows : s.cancelled = false → ∀ i, RowSound s' i) : Sound s' where
  calling i hi := by
    rw [hlaunched]
    exact h.calling i (hstarter ▸ hi)
  returned i answer hi := by
    rw [hlaunched]
    exact h.returned i answer (hstarter ▸ hi)
  called i hi := by
    rw [hlaunched]
    exact h.called i (hstarter ▸ hi)
  runs i runId hi := by
    rw [hlaunched]
    rw [hhost, hrun] at hi
    exact h.runs i runId hi
  hit i ok pending hi := absurd hi (hpoller i ok pending)
  waiting hi := by
    rw [hcancelled, hsent]
    exact h.waiting (hcanceller ▸ hi)
  unstarted hlive i hi := by
    have hstatus := h.unstarted (hcancelled ▸ hlive) i (hstarter ▸ hi)
    rw [hhost, hqueued i hstatus]
    exact hstatus
  rows hlive := hrows (hcancelled ▸ hlive)

theorem Sound.apply (h : Sound s) {i : ℕ} {ok : Bool} {pending : List ℕ} {now : ℚ}
    (hi : s.poller = .hit i ok pending) :
    Sound { s.put i (s.settled i ok now) with poller := .reading pending } := by
  have hstored := h.hit i ok pending hi
  refine h.rewrite (f := Function.update s.host i (s.settled i ok now)) rfl rfl rfl rfl rfl rfl
    (fun _ _ _ hp => nomatch hp) ?_ ?_ ?_
  · intro j
    by_cases hne : j = i
    · subst hne
      rw [Function.update_self]
      unfold Fleet.settled
      split
      · rfl
      · rfl
    · rw [Function.update_of_ne hne]
  · intro j hj
    by_cases hne : j = i
    · subst hne
      rw [Function.update_self]
      unfold Fleet.settled
      rw [hj]
      rfl
    · rw [Function.update_of_ne hne]
  · intro hlive j
    by_cases hne : j = i
    · subst hne
      have hrow := h.rows hlive j
      by_cases hrunning : (s.host j).status = .running
      · unfold RowSound
        cases ok with
        | true =>
            simp only [Fleet.put, Function.update_self, Fleet.settled, hrunning, if_true]
            exact hstored
        | false =>
            simp only [Fleet.put, Function.update_self, Fleet.settled, hrunning, if_true]
            exact Or.inl hstored
      · refine row_sound_of_same (s := s) ?_ id hrow
        simp [Fleet.put, Fleet.settled, hrunning]
    · exact row_sound_of_same (s := s) (by simp [Fleet.put, hne]) id (h.rows hlive j)

theorem Sound.finish (h : Sound s) {now : ℚ} :
    Sound { s with host := fun i => s.ended i now, done := true, poller := .ended } := by
  refine h.rewrite (f := fun i => s.ended i now) rfl rfl rfl rfl rfl rfl
    (fun _ _ _ hp => nomatch hp) ?_ ?_ ?_
  · intro i
    by_cases hrunning : (s.host i).status = .running
    · simp [Fleet.ended, hrunning]
    · simp [Fleet.ended, hrunning]
  · intro i hi
    simp [Fleet.ended, hi]
  · intro hlive i
    by_cases hrunning : (s.host i).status = .running
    · unfold RowSound
      simp [Fleet.ended, hrunning, hlive]
    · refine row_sound_of_same (s := s) ?_ id (h.rows hlive i)
      simp [Fleet.ended, hrunning]

theorem Sound.cancel (h : Sound s) :
    Sound { s with
      cancelled := true
      canceller := .sending s.running
      host := fun i => s.unqueued i } where
  calling := h.calling
  returned := h.returned
  called := h.called
  runs i runId hi := by
    apply h.runs i runId
    have hsame : (s.unqueued i).runId = (s.host i).runId := by
      unfold Fleet.unqueued
      split
      · rfl
      · rfl
    exact hsame.symm.trans hi
  hit := h.hit
  waiting hi := nomatch hi
  unstarted hlive := nomatch hlive
  rows hlive := nomatch hlive

/-- One event whose call succeeds. -/
theorem Sound.step (h : Sound s) (hok : e.succeeds) (hstep : s.step e = some s') : Sound s' := by
  cases e with
  | call i answer =>
      obtain ⟨runId, rfl⟩ := hok
      simp only [Fleet.step] at hstep
      split at hstep
      · rename_i hi
        split at hstep
        · cases hstep
          exact h.call hi
        · cases hstep
      · cases hstep
  | update i now =>
      simp only [Fleet.step] at hstep
      split at hstep
      · rename_i answer hi
        cases hstep
        exact h.update hi
      · cases hstep
  | join now =>
      simp only [Fleet.step] at hstep
      split at hstep
      · split at hstep
        · cases hstep
          exact h.frame rfl rfl rfl (fun _ hr => hr) rfl (fun _ _ _ hp => nomatch hp)
            fun hw => ⟨hw, rfl⟩
        · cases hstep
      · cases hstep
  | top now =>
      simp only [Fleet.step] at hstep
      split at hstep
      · split at hstep
        · cases hstep
          exact h.frame rfl rfl rfl (fun _ hr => hr) rfl (fun _ _ _ hp => nomatch hp)
            fun hw => ⟨hw, rfl⟩
        · cases hstep
          exact h.frame rfl rfl rfl (fun _ hr => hr) rfl (fun _ _ _ hp => nomatch hp)
            fun hw => ⟨hw, rfl⟩
      · cases hstep
  | read =>
      simp only [Fleet.step] at hstep
      split at hstep
      · rename_i i pending hreading
        split at hstep
        · rename_i ok hfound
          cases hstep
          refine h.frame rfl rfl rfl (fun _ hr => hr) rfl ?_ fun hw => ⟨hw, rfl⟩
          intro j other rest hp
          cases hp
          -- The row's run is the one that the agent has started.
          obtain ⟨runId, hrun, hresult⟩ := Option.bind_eq_some_iff.mp hfound
          have hlaunched := h.runs i runId hrun
          show s.stored i = true
          unfold Fleet.stored
          rw [hlaunched]
          simp [hresult]
        · cases hstep
          exact h.frame rfl rfl rfl (fun _ hr => hr) rfl (fun _ _ _ hp => nomatch hp)
            fun hw => ⟨hw, rfl⟩
      · cases hstep
        exact h.frame rfl rfl rfl (fun _ hr => hr) rfl (fun _ _ _ hp => nomatch hp)
          fun hw => ⟨hw, rfl⟩
      · cases hstep
  | apply now =>
      simp only [Fleet.step] at hstep
      split at hstep
      · rename_i i ok pending hi
        cases hstep
        exact h.apply hi
      · cases hstep
  | finish now =>
      simp only [Fleet.step] at hstep
      split at hstep
      · cases hstep
        exact h.finish
      · cases hstep
  | store runId ok =>
      cases hstep
      have hresults : ∀ other, (s.results other).isSome = true →
          ((Function.update s.results runId ((s.results runId).or (some ok))) other).isSome =
            true := by
        intro other hother
        by_cases hne : other = runId
        · subst hne
          simp
        · rw [Function.update_of_ne hne]
          exact hother
      exact h.frame rfl rfl rfl hresults rfl
        (fun i other pending hp => stored_mono (s := s) rfl hresults (h.hit i other pending hp))
        fun hw => ⟨hw, rfl⟩
  | cancel =>
      simp only [Fleet.step] at hstep
      split at hstep
      · cases hstep
        exact h.cancel
      · cases hstep
  | send =>
      simp only [Fleet.step] at hstep
      split at hstep
      · cases hstep
        exact h.frame rfl rfl rfl (fun _ hr => hr) rfl h.hit fun hw => nomatch hw
      · cases hstep
        exact h.frame rfl rfl rfl (fun _ hr => hr) rfl h.hit fun hw => nomatch hw
      · cases hstep
      · cases hstep

theorem sound_new {wanted : List (String × String)} {results : String → Option Bool} :
    Sound (Fleet.new wanted results) where
  calling _ _ := rfl
  returned _ _ hi := nomatch hi
  called _ hi := nomatch hi
  runs _ _ hi := nomatch hi
  hit _ _ _ hi := nomatch hi
  waiting _ := ⟨rfl, rfl⟩
  unstarted _ _ _ := rfl
  rows _ _ := rfl

/-- The hosts that the cancel request has still to call, and those it has called. -/
def Sends (size : ℕ) (running : List ℕ) (s : Fleet) : Prop :=
  s.size = size ∧ match s.canceller with
    | .waiting => False
    | .sending rest => s.sent ++ rest = running
    | .ended => s.sent = running

/-- The cancel request calls the hosts that were shown as running. -/
theorem Sends.step {size : ℕ} {running : List ℕ} (h : Sends size running s)
    (hstep : s.step e = some s') : Sends size running s' := by
  obtain ⟨hsize, hsends⟩ := h
  have hframe : ∀ {t : Fleet}, t.size = s.size → t.canceller = s.canceller → t.sent = s.sent →
      Sends size running t := by
    intro t ht hcanceller hsent
    refine ⟨ht.trans hsize, ?_⟩
    rw [hcanceller, hsent]
    exact hsends
  cases e with
  | cancel =>
      simp only [Fleet.step] at hstep
      split at hstep
      · rename_i hwaiting
        rw [hwaiting] at hsends
        cases hsends
      · cases hstep
  | send =>
      simp only [Fleet.step] at hstep
      split at hstep
      · rename_i i rest hsending
        cases hstep
        rw [hsending] at hsends
        refine ⟨hsize, ?_⟩
        show (s.sent ++ [i]) ++ rest = running
        rw [List.append_assoc]
        exact hsends
      · rename_i hsending
        cases hstep
        rw [hsending] at hsends
        exact ⟨hsize, (List.append_nil _).symm.trans hsends⟩
      · cases hstep
      · cases hstep
  | store runId ok =>
      cases hstep
      exact hframe rfl rfl rfl
  | call i answer =>
      simp only [Fleet.step] at hstep
      split at hstep
      · split at hstep
        · cases hstep
          exact hframe rfl rfl rfl
        · cases hstep
      · cases hstep
  | update i now =>
      simp only [Fleet.step] at hstep
      split at hstep
      · cases hstep
        exact hframe rfl rfl rfl
      · cases hstep
  | join now =>
      simp only [Fleet.step] at hstep
      split at hstep
      · split at hstep
        · cases hstep
          exact hframe rfl rfl rfl
        · cases hstep
      · cases hstep
  | top now =>
      simp only [Fleet.step] at hstep
      split at hstep
      · split at hstep
        · cases hstep
          exact hframe rfl rfl rfl
        · cases hstep
          exact hframe rfl rfl rfl
      · cases hstep
  | read =>
      simp only [Fleet.step] at hstep
      split at hstep
      · split at hstep
        · cases hstep
          exact hframe rfl rfl rfl
        · cases hstep
          exact hframe rfl rfl rfl
      · cases hstep
        exact hframe rfl rfl rfl
      · cases hstep
  | apply now =>
      simp only [Fleet.step] at hstep
      split at hstep
      · cases hstep
        exact hframe rfl rfl rfl
      · cases hstep
  | finish now =>
      simp only [Fleet.step] at hstep
      split at hstep
      · cases hstep
        exact hframe rfl rfl rfl
      · cases hstep

theorem running_iff (h : Sound s) (hlive : s.cancelled = false) (i : ℕ) :
    s.stored i = true ∨ (s.host i).status = .running ↔
      s.stored i = true ∨
        ((s.host i).status ≠ .queued ∧ (s.host i).error ≠ some "timed out") := by
  have hrow := h.rows hlive i
  unfold RowSound at hrow
  cases hstatus : (s.host i).status with
  | queued => simp
  | running =>
      rw [hstatus] at hrow
      simp [hrow.1]
  | done =>
      rw [hstatus] at hrow
      exact ⟨fun _ => Or.inl hrow, fun _ => Or.inl hrow⟩
  | failed =>
      rw [hstatus] at hrow
      rcases hrow with hstored | htimeout
      · exact ⟨fun _ => Or.inl hstored, fun _ => Or.inl hstored⟩
      · simp [htimeout]
  | cancelled =>
      rw [hstatus] at hrow
      cases hrow

end Steps

/-- In every run whose calls of the agents succeed, once the start threads and the cancel request
have ended: every host whose run was started, before the request or after it, and whose result was
not stored when the request was accepted has been cancelled on its agent, exactly when at that
moment no host without a stored result was still shown as queued or had timed out. -/
theorem cancel_reaches (wanted : List (String × String)) (results : String → Option Bool)
    (before after : List Event) (s t : Fleet)
    (hbefore : (Fleet.new wanted results).plays before = some s)
    (hafter : s.plays (.cancel :: after) = some t) (hcalls : ∀ e ∈ before ++ after, e.succeeds)
    (hover : t.allEnded = true) :
    (∀ i < s.size, t.launched i ≠ none → s.stored i = false → i ∈ t.sent) ↔
    ∀ i < s.size, s.stored i = true ∨
      ((s.host i).status ≠ .queued ∧ (s.host i).error ≠ some "timed out") := by
  have hsound : Sound s := plays_keeps Event.succeeds (fun hok h hstep => h.step hok hstep)
    sound_new (fun e he => hcalls e (List.mem_append_left _ he)) hbefore
  obtain ⟨s', hcancel, hrest⟩ := Option.bind_eq_some_iff.mp hafter
  have hfinal : Sound t := plays_keeps Event.succeeds
    (fun hok h hstep => h.step hok hstep) (hsound.step (e := .cancel) trivial hcancel)
    (fun e he => hcalls e (List.mem_append_right _ he)) hrest
  -- The request was the first one, and it calls the hosts shown as running.
  have hfirst : s.canceller = .waiting ∧ Sends s.size s.running s' := by
    simp only [Fleet.step] at hcancel
    split at hcancel
    · rename_i hwaiting
      cases hcancel
      refine ⟨hwaiting, rfl, ?_⟩
      show s.sent ++ s.running = s.running
      rw [(hsound.waiting hwaiting).2, List.nil_append]
    · cases hcancel
  have hsends : Sends s.size s.running t := plays_keeps (fun _ => True)
    (fun _ h hstep => h.step hstep) hfirst.2 (fun _ _ => trivial) hrest
  obtain ⟨hsize, hsent⟩ := hsends
  obtain ⟨hstarters, hcanceller⟩ := Bool.and_eq_true_iff.mp hover
  have hsent : t.sent = s.running := by
    cases hstate : t.canceller with
    | waiting => simp [hstate] at hcanceller
    | sending rest => simp [hstate] at hcanceller
    | ended =>
        rw [hstate] at hsent
        exact hsent
  have hlaunched : ∀ i < s.size, t.launched i ≠ none := by
    intro i hi
    have hstarter := List.all_eq_true.mp hstarters i (by rw [hsize]; exact List.mem_range.mpr hi)
    cases hstate : t.starter i with
    | calling => simp [hstate] at hstarter
    | returned answer => simp [hstate] at hstarter
    | ended => exact hfinal.called i hstate
  refine forall_congr' fun i => forall_congr' fun hi => ?_
  rw [← running_iff hsound (hsound.waiting hfirst.1).1 i, hsent]
  have hmem : i ∈ s.running ↔ (s.host i).status = .running := by
    simp [Fleet.running, hi]
  rw [hmem]
  constructor
  · intro hreaches
    cases hstored : s.stored i with
    | true => exact Or.inl rfl
    | false => exact Or.inr (hreaches (hlaunched i hi) hstored)
  · rintro (hstored | hrunning) - hnot
    · rw [hstored] at hnot
      cases hnot
    · exact hrunning

section OneHost

/-- A job on one host. -/
def oneHost : Fleet := .new [("a1", "spark")] fun _ => none

/-- The agent starts the run, the row is updated, and the request comes then. -/
theorem running_host_cancelled :
    ∃ s t, oneHost.plays [.call 0 (.ok "r1"), .update 0 1] = some s ∧
      s.plays [.cancel, .send, .send] = some t ∧
      ∀ i < s.size, t.launched i ≠ none → s.stored i = false → i ∈ t.sent := by
  refine ⟨_, _, rfl, rfl, ?_⟩
  refine (cancel_reaches [("a1", "spark")] (fun _ => none) [.call 0 (.ok "r1"), .update 0 1]
    [.send, .send] _ _ rfl rfl ?_ rfl).mpr ?_
  · simp [Event.succeeds]
  · intro i hi
    obtain rfl : i = 0 := Nat.lt_one_iff.mp hi
    exact Or.inr ⟨by decide, by decide⟩

/-- The request comes while the answer of the agent is on its way: the run is started, and nobody
cancels it. -/
theorem started_host_missed :
    ∃ s t, oneHost.plays [.call 0 (.ok "r1")] = some s ∧
      s.plays [.cancel, .send, .update 0 1] = some t ∧ t.allEnded = true ∧
      t.launched 0 = some "r1" ∧ s.stored 0 = false ∧ t.sent = [] ∧
      (t.host 0).status = .cancelled :=
  ⟨_, _, rfl, rfl, rfl, rfl, rfl, rfl, rfl⟩

end OneHost

end SystemsManager.Bench
