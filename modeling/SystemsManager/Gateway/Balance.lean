import Mathlib.Algebra.BigOperators.Group.List.Basic
import SystemsManager.Gateway.Requests

/-!
# Balanced bookkeeping

A request counts up three kinds of counters: the requests in flight of an agent, those of a client,
and the slots of the stream pool. `net` is how far a log leaves a counter up. A response that owns
its callbacks leaves up exactly what they count down (`handle_completion_owes`), and no request
leaves up anything else. Read `exchange_balanced_iff` last: once the response has been closed, every
counter is down again, exactly when the close of its body does not raise.
-/

namespace SystemsManager.Gateway

open Python Concurrency

section Bookkeeping

variable [JsonReader]

/-- The counters that a request counts up and down. -/
inductive Counter where
  | agent (agentId : String)
  | client (client : ClientKey)
  | slot
  deriving DecidableEq

/-- An operation with its answer. -/
abbrev Step := (op : Call) × op.Answer

/-- The step counts the counter up. -/
def opens (c : Counter) : Step → Bool
  | ⟨.beginAgent agentId, _⟩ => c = .agent agentId
  | ⟨.clientBegin client _, _⟩ => c = .client client
  | ⟨.tryAcquire, .ok true⟩ => c = .slot
  | _ => false

/-- The step counts the counter down. -/
def closes (c : Counter) : Step → Bool
  | ⟨.endAgent agentId, _⟩ => c = .agent agentId
  | ⟨.clientEnd client, _⟩ => c = .client client
  | ⟨.release, _⟩ => c = .slot
  | _ => false

/-- Every counter is counted down as often as it is counted up. -/
def Balanced (log : List Step) : Prop := ∀ c, log.countP (opens c) = log.countP (closes c)

/-- The close of the body does not raise: what the server has left unread is no line whose usage
cannot be read. -/
def Reading.shuts : Reading → Bool
  | .left pieces => match Tap.run {} (pieces.map Piece.bytes) with
    | (tap, none) => tap.finish.isOk
    | (_, some _) => true
  | _ => true

section Counting

variable {c : Counter} {log : List Step} {n : Int}

/-- How far the log leaves the counter up. -/
def net (c : Counter) (log : List Step) : Int := log.countP (opens c) - log.countP (closes c)

/-- One for the counter itself. -/
def unit (c other : Counter) : Int := if c = other then 1 else 0

/-- The server has read the body of the response as far as `ρ` says. -/
def ReadAs (ρ : Reading → Prop) (log : List Step) : Prop :=
  ∀ reading, ⟨.readBody, reading⟩ ∈ log ↔ ρ reading

/-- The server has not read the body of the response. -/
abbrev Unread (log : List Step) : Prop := ReadAs (fun _ => False) log

omit [JsonReader] in
theorem balanced_iff : Balanced log ↔ ∀ c, net c log = 0 := by
  unfold Balanced net
  constructor
  · intro h c
    rw [h c, sub_self]
  · intro h c
    have := h c
    omega

omit [JsonReader] in
theorem net_concat (step : Step) :
    net c (log ++ [step]) =
      net c log + ((if opens c step then 1 else 0) - if closes c step then 1 else 0) := by
  unfold net
  rw [List.countP_append, List.countP_append, List.countP_singleton, List.countP_singleton]
  push_cast
  omega

/-- The counter that a callback counts down. -/
def Callback.counter : Callback → Counter
  | .release => .slot
  | .endAgent agentId => .agent agentId
  | .endClient client => .client client

/-- What callbacks count down. -/
def debt (c : Counter) (callbacks : List Callback) : Int :=
  (callbacks.map fun callback => unit c callback.counter).sum

/-- The log leaves the counter up by `n`. -/
def Stands (φ : Locals → Prop) (ρ : Reading → Prop) (c : Counter) (n : Int) :
    Assertion Call Call.Answer Locals :=
  fun v log => φ v ∧ net c log = n ∧ ReadAs ρ log

/-- The same, while the body has not been read. -/
abbrev At (φ : Locals → Prop) (c : Counter) (n : Int) : Assertion Call Call.Answer Locals :=
  Stands φ (fun _ => False) c n

/-- The same, once the body has been read as far as `reading` says. -/
abbrev ReadAt (reading : Reading) (c : Counter) (n : Int) : Assertion Call Call.Answer Locals :=
  Stands (fun _ => True) (fun other => other = reading) c n

/-- The operation neither counts nor reads the body. -/
def Call.neutral : Call → Bool
  | .tryAcquire | .release | .beginAgent _ | .endAgent _ | .clientBegin .. | .clientEnd _
  | .readBody => false
  | _ => true

variable {φ : Locals → Prop} {ρ : Reading → Prop} {op : Call}
    {E : Unit → Assertion Call Call.Answer Locals}

omit [JsonReader] in
theorem read_as_concat {step : Step} (hstep : step.1 ≠ .readBody) (h : ReadAs ρ log) :
    ReadAs ρ (log ++ [step]) := by
  intro reading
  rw [List.mem_append, h reading, List.mem_singleton]
  constructor
  · rintro (hread | hlast)
    · exact hread
    · exact absurd (hlast ▸ rfl) hstep
  · exact Or.inl

omit [JsonReader] in
theorem call_counts (hop : op ≠ .readBody) :
    Triple (Stands φ ρ c n) (call op)
      (fun r =>
        Stands φ ρ c (n + ((if opens c ⟨op, r⟩ then 1 else 0) - if closes c ⟨op, r⟩ then 1 else 0)))
      E := by
  refine triple_ask ?_
  intro r v log h
  refine ⟨h.1, ?_, read_as_concat hop h.2.2⟩
  rw [net_concat, h.2.1]

omit [JsonReader] in
theorem call_neutral (hop : op.neutral = true) :
    Triple (Stands φ ρ c n) (call op) (fun _ => Stands φ ρ c n) E := by
  have hread : op ≠ .readBody := by
    rintro rfl
    cases hop
  refine (call_counts hread).conseq (fun _ _ h => h) ?_ fun _ _ _ h => h
  intro r v log h
  have hnone : opens c ⟨op, r⟩ = false ∧ closes c ⟨op, r⟩ = false := by
    cases op <;> first | exact ⟨rfl, rfl⟩ | cases hop
  rw [hnone.1, hnone.2] at h
  simpa using h

omit [JsonReader] in
/-- An operation that counts up. -/
theorem call_opens (other : Counter) (hop : op ≠ .readBody)
    (hopens : ∀ r, opens c ⟨op, r⟩ = decide (c = other)) (hcloses : ∀ r, closes c ⟨op, r⟩ = false) :
    Triple (Stands φ ρ c n) (call op) (fun _ => Stands φ ρ c (n + unit c other)) E := by
  refine (call_counts hop).conseq (fun _ _ h => h) ?_ fun _ _ _ h => h
  intro r v log h
  rw [hopens, hcloses] at h
  simpa [unit] using h

omit [JsonReader] in
/-- An operation that counts down. -/
theorem call_closes (other : Counter) (hop : op ≠ .readBody) (hopens : ∀ r, opens c ⟨op, r⟩ = false)
    (hcloses : ∀ r, closes c ⟨op, r⟩ = decide (c = other)) :
    Triple (Stands φ ρ c n) (call op) (fun _ => Stands φ ρ c (n - unit c other)) E := by
  refine (call_counts hop).conseq (fun _ _ h => h) ?_ fun _ _ _ h => h
  intro r v log h
  rw [hopens, hcloses] at h
  simpa [unit, sub_eq_add_neg] using h

omit [JsonReader] in
theorem or_raise_counts {α : Type} {p : Gw (Except Unit α)} {P : Assertion Call Call.Answer Locals}
    {Q : α → Assertion Call Call.Answer Locals}
    (h : Triple P p (fun r => match r with | .ok a => Q a | .error e => E e) E) :
    Triple P (orRaise p) Q E := by
  refine h.seq fun r => triple_lift ?_ ?_
  · rintro a v log rfl h
    exact h
  · rintro e v log rfl h
    exact h

omit [JsonReader] in
theorem or_raise_neutral {α : Type} {p : Gw (Except Unit α)}
    (h : Triple (Stands φ ρ c n) p (fun _ => Stands φ ρ c n) fun _ => Stands φ ρ c n) :
    Triple (Stands φ ρ c n) (orRaise p) (fun _ => Stands φ ρ c n) fun _ => Stands φ ρ c n := by
  refine or_raise_counts (h.conseq (fun _ _ h => h) ?_ fun _ _ _ h => h)
  intro r v log h
  cases r with
  | ok a => exact h
  | error e => exact h

omit [JsonReader] in
theorem assign_keeps (ψ : Locals → Prop) {f : Locals → Locals} (h : ∀ v, φ v → ψ (f v)) :
    Triple (Stands φ ρ c n) (Proc.modify f) (fun _ => Stands ψ ρ c n) E :=
  triple_modify fun v _ hv => ⟨h v hv.1, hv.2⟩

end Counting

section Requests

variable {settings : Settings} {inbound : Inbound} {agent : Agent} {path sub : String}
variable {body : Fields} {relay : Relay} {upstream : Upstream} {c : Counter} {n : Int}
variable {own : Bool}

/-- What is known of the variables while the client's counter is the request's. -/
abbrev Owned (own : Bool) (v : Locals) : Prop := v.streamOwnsClient = own

/-- A response has taken over what its callbacks count down: with the counter of the client, or
nothing at all. -/
def Served (c : Counter) (n : Int) (client : ClientKey) (response : Response) (log : List Step) :
    Prop :=
  net c log = n + debt c response.onClose - (if response.clientOwned then unit c (.client client)
    else 0) ∧ Unread log ∧
  match response.body with
    | .stream _ => response.clientOwned = true ∧
        ∃ agentId, response.onClose = [.release, .endAgent agentId, .endClient client]
    | _ => response.clientOwned = false ∧ response.onClose = []

omit [JsonReader] in
theorem stream_response_served :
    Triple (At (fun v => Owned own v ∧ v.handedOff = false) c (n + unit c .slot))
      (streamResponse settings agent relay upstream)
      (fun response v log => Owned own v ∧ Served c n relay.client response log)
      (fun _ => At (Owned own) c n) := by
  refine Triple.ensuring
    (S := fun response v log => Owned own v ∧ v.handedOff = true ∧
      Served c n relay.client response log)
    (F := fun _ => At (fun v => Owned own v ∧ v.handedOff = false) c (n + unit c .slot)) ?_ ?_ ?_
  · refine Triple.seq (or_raise_neutral (call_neutral rfl)) fun _ => ?_
    refine Triple.seq (call_opens (.agent agent.agentId) (by simp) (fun _ => rfl)
      fun _ => rfl) fun _ => ?_
    refine Triple.seq (assign_keeps (fun v => Owned own v ∧ v.handedOff = true)
      fun v hv => ⟨hv.1, rfl⟩) fun _ => ?_
    refine triple_pure ?_
    intro v log h
    refine ⟨h.1.1, h.1.2, ?_, h.2.2, rfl, agent.agentId, rfl⟩
    rw [h.2.1]
    simp only [debt, Callback.counter, List.map_cons, List.map_nil, List.sum_cons, List.sum_nil,
      if_true]
    omega
  · intro response
    refine Triple.seq (triple_get (Q := fun v w log => v.handedOff = true ∧ Owned own w ∧
      Served c n relay.client response log) fun v log h => ⟨h.2.1, h.1, h.2.2⟩) fun v => ?_
    refine triple_only_if ?_ fun w log _ h => h.2
    intro hoff s past h
    rw [h.1] at hoff
    cases hoff
  · intro e
    refine Triple.seq (triple_get (Q := fun v w log => v.handedOff = false ∧
      At (Owned own) c (n + unit c .slot) w log) fun v log h => ⟨h.1.2, h.1.1, h.2⟩) fun v => ?_
    refine triple_only_if (fun _ => ?_) ?_
    · refine Triple.seq (R := fun _ => At (Owned own) c (n + unit c .slot)) ?_ fun _ => ?_
      · exact (call_neutral rfl).conseq (fun _ _ h => h.2) (fun _ _ _ h => h) fun _ _ _ h => h
      · refine (call_closes .slot (by simp) (fun _ => rfl) fun _ => rfl).conseq
          (fun _ _ h => h) ?_ fun _ _ _ h => h
        rintro _ w log ⟨hv, hnet, hunread⟩
        exact ⟨hv, by omega, hunread⟩
    · intro w log hoff h
      rw [h.1] at hoff
      cases hoff

variable {response : Response} {client : ClientKey} {log : List Step}

omit [JsonReader] in
theorem served_plain {v : Locals} (hbody : ∀ stream, response.body ≠ .stream stream)
    (howned : response.clientOwned = false) (hclose : response.onClose = [])
    (h : At (Owned own) c n v log) : Owned own v ∧ Served c n client response log := by
  refine ⟨h.1, ?_, h.2.2, ?_⟩
  · rw [h.2.1, howned, hclose, debt]
    simp
  · split
    · rename_i stream hstream
      exact absurd hstream (hbody stream)
    · exact ⟨howned, hclose⟩

omit [JsonReader] in
theorem relayed_response_served (relay : Relay) {contentType : String} :
    Triple (At (Owned own) c n) (relayedResponse agent upstream contentType)
      (fun response v log => Owned own v ∧ Served c n relay.client response log)
      (fun _ => At (Owned own) c n) := by
  refine Triple.seq (or_raise_neutral (call_neutral rfl)) fun content => ?_
  refine Triple.seq (call_neutral rfl) fun _ => ?_
  refine Triple.seq (triple_only_if (fun _ => call_neutral rfl) fun _ _ _ h => h) fun _ => ?_
  refine Triple.seq (or_raise_neutral (call_neutral rfl)) fun _ => ?_
  exact triple_pure fun v log h => served_plain (fun _ h => nomatch h) rfl rfl h

omit [JsonReader] in
theorem pool_full_response_served (relay : Relay) :
    Triple (At (Owned own) c n) (poolFullResponse agent)
      (fun response v log => Owned own v ∧ Served c n relay.client response log)
      (fun _ => At (Owned own) c n) := by
  refine Triple.seq (call_neutral rfl) fun _ => Triple.seq (call_neutral rfl) fun _ => ?_
  exact triple_pure fun v log h => served_plain (fun _ h => nomatch h) rfl rfl h

/-- An attempt gives a response that is served, or leaves the counters as they are. -/
abbrev Attempted (own : Bool) (c : Counter) (n : Int) (client : ClientKey) :
    Option Response → Assertion Call Call.Answer Locals
  | some response => fun v log => Owned own v ∧ Served c n client response log
  | none => At (Owned own) c n

omit [JsonReader] in
/-- One streaming attempt. -/
theorem stream_from_attempted :
    Triple (At (Owned own) c n) (streamFrom settings agent path body relay)
      (Attempted own c n relay.client) (fun _ => At (Owned own) c n) := by
  refine Triple.seq (or_raise_neutral (call_neutral rfl)) fun upstream => ?_
  split
  · refine Triple.seq (assign_keeps (Owned own) fun _ h => h) fun _ => ?_
    exact triple_pure fun _ _ h => h
  · rename_i upstream
    split
    · refine Triple.seq (call_neutral rfl) fun _ => ?_
      refine Triple.seq (assign_keeps (Owned own) fun _ h => h) fun _ => ?_
      exact triple_pure fun _ _ h => h
    · refine Triple.seq (call_neutral rfl) fun _ => ?_
      dsimp only
      split
      · -- A granted slot is handed to the response, or released where its building raises.
        refine Triple.seq (R := fun granted => At (Owned own) c
          (if granted = true then n + unit c .slot else n)) ?_ fun granted => ?_
        · refine or_raise_counts ?_
          refine (call_counts (by simp)).conseq (fun _ _ h => h) ?_ fun _ _ _ h => h
          intro r v log h
          cases r with
          | error e => simpa [opens, closes] using h
          | ok granted => cases granted <;> simpa [opens, closes, unit] using h
        · split
          · refine Triple.seq (assign_keeps (fun v => Owned own v ∧ v.handedOff = false)
              fun v hv => ⟨hv, rfl⟩) fun _ => ?_
            refine Triple.seq stream_response_served fun response => ?_
            exact triple_pure fun _ _ h => h
          · refine Triple.seq (pool_full_response_served relay) fun response => ?_
            exact triple_pure fun _ _ h => h
      · refine Triple.seq (relayed_response_served relay) fun response => ?_
        exact triple_pure fun _ _ h => h

theorem record_answer_counts {answered : Answered} :
    Triple (At (Owned own) c n) (recordAnswer agent relay answered) (fun _ => At (Owned own) c n)
      (fun _ => At (Owned own) c n) := by
  unfold recordAnswer
  split
  · refine Triple.seq (triple_lift (Q := fun _ => At (Owned own) c n) (fun _ _ _ _ h => h)
      fun _ _ _ _ h => h) fun usage => ?_
    split
    · exact triple_pure fun _ _ h => h
    · refine Triple.seq (call_neutral rfl) fun _ => ?_
      exact triple_only_if (fun _ => call_neutral rfl) fun _ _ _ h => h
  · exact Triple.seq (call_neutral rfl) fun _ => call_neutral rfl

/-- A candidate is tried: a response that owns the client's counter is known to own it. -/
abbrev Tried (c : Counter) (n : Int) (client : ClientKey) :
    Option Response → Assertion Call Call.Answer Locals
  | some response => fun v log => Owned response.clientOwned v ∧ Served c n client response log
  | none => At (Owned false) c n

omit [JsonReader] in
theorem try_stream_tried :
    Triple (At (Owned false) c n) (tryStream settings path body relay agent)
      (Tried c n relay.client) (fun _ => At (Owned false) c n) := by
  refine Triple.seq stream_from_attempted fun response => ?_
  cases response with
  | some response =>
      refine Triple.seq (triple_modify (Q := fun _ v log => Owned response.clientOwned v ∧
        Served c n relay.client response log) fun v log h => ⟨rfl, h.2⟩) fun _ => ?_
      exact triple_pure fun _ _ h => h
  | none =>
      refine Triple.seq (call_neutral rfl) fun _ => ?_
      exact triple_pure fun _ _ h => h

theorem try_whole_tried :
    Triple (At (Owned false) c n) (tryWhole settings path body relay agent)
      (Tried c n relay.client) (fun _ => At (Owned false) c n) := by
  refine Triple.seq (call_opens (.agent agent.agentId) (by simp) (fun _ => rfl)
    fun _ => rfl) fun _ => ?_
  have hend : ∀ E : Unit → Assertion Call Call.Answer Locals,
      Triple (At (Owned false) c (n + unit c (.agent agent.agentId)))
        (call (.endAgent agent.agentId)) (fun _ => At (Owned false) c n) E := by
    intro E
    refine (call_closes (.agent agent.agentId) (by simp) (fun _ => rfl)
      fun _ => rfl).conseq (fun _ _ h => h) ?_ fun _ _ _ h => h
    rintro _ v log ⟨hv, hnet, hunread⟩
    exact ⟨hv, by omega, hunread⟩
  refine Triple.seq (Triple.ensuring (or_raise_neutral (call_neutral rfl)) (fun _ => hend _)
    fun _ => hend _) fun answer => ?_
  split
  · refine Triple.seq (call_neutral rfl) fun _ => ?_
    refine Triple.seq (assign_keeps (Owned false) fun _ h => h) fun _ => ?_
    exact triple_pure fun _ _ h => h
  · split
    · refine Triple.seq (call_neutral rfl) fun _ => ?_
      refine Triple.seq (assign_keeps (Owned false) fun _ h => h) fun _ => ?_
      exact triple_pure fun _ _ h => h
    · refine Triple.seq (call_neutral rfl) fun _ => ?_
      refine Triple.seq record_answer_counts fun _ => ?_
      refine Triple.seq (or_raise_neutral (call_neutral rfl)) fun _ => ?_
      exact triple_pure fun v log h => served_plain (fun _ h => nomatch h) rfl rfl h

theorem serve_candidates_served {wantsStream : Bool} :
    Triple (At (Owned false) c n) (serveCandidates settings inbound path body wantsStream relay)
      (fun response v log => Owned response.clientOwned v ∧ Served c n relay.client response log)
      (fun _ => At (Owned false) c n) := by
  refine Triple.seq (or_raise_neutral (call_neutral rfl)) fun cands => ?_
  refine Triple.seq (triple_only_if (fun _ => call_neutral rfl) fun _ _ _ h => h) fun _ => ?_
  refine Triple.seq (R := Tried c n relay.client) ?_ fun found => ?_
  · refine (triple_first_some (I := fun _ => At (Owned false) c n)
      (Q := fun response v log => Owned response.clientOwned v ∧
        Served c n relay.client response log) ?_).conseq (fun _ _ h => h) ?_ fun _ _ _ h => h
    · intro agent rest
      refine Triple.conseq (Q := Tried c n relay.client) ?_ (fun _ _ h => h) ?_ fun _ _ _ h => h
      · split
        · exact try_stream_tried
        · exact try_whole_tried
      · intro r v log h
        cases r with
        | some response => exact h
        | none => exact h
    · intro r v log h
      cases r with
      | some response => exact h
      | none => exact h
  · cases found with
    | some response => exact triple_pure fun _ _ h => h
    | none =>
        refine Triple.seq (call_neutral rfl) fun _ => Triple.seq (call_neutral rfl) fun _ => ?_
        refine Triple.seq (triple_get (Q := fun _ => At (Owned false) c n) fun _ _ h => h)
          fun v => ?_
        split
        · exact triple_pure fun v log h => served_plain (fun _ h => nomatch h) rfl rfl h
        · exact triple_pure fun v log h => served_plain (fun _ h => nomatch h) rfl rfl h

/-- A response leaves up what its callbacks count down. -/
def Owes (c : Counter) (response : Response) (log : List Step) : Prop :=
  net c log = debt c response.onClose ∧ Unread log ∧
  ∀ body, response.body = .stream body →
    ∃ agentId client, response.onClose = [.release, .endAgent agentId, .endClient client]

omit [JsonReader] in
theorem owes_plain {v : Locals} (hbody : ∀ stream, response.body ≠ .stream stream)
    (hclose : response.onClose = []) (h : At (Owned own) c 0 v log) : Owes c response log := by
  refine ⟨?_, h.2.2, fun body hstream => absurd hstream (hbody body)⟩
  rw [h.2.1, hclose]
  rfl

omit [JsonReader] in
theorem served_owned (howned : response.clientOwned = true)
    (h : Served c (0 + unit c (.client client)) client response log) : Owes c response log := by
  obtain ⟨hnet, hunread, hserved⟩ := h
  rw [howned, if_pos rfl] at hnet
  refine ⟨by omega, hunread, ?_⟩
  intro body hbody
  rw [hbody] at hserved
  obtain ⟨-, agentId, hclose⟩ := hserved
  exact ⟨agentId, client, hclose⟩

omit [JsonReader] in
theorem served_not_owned (howned : response.clientOwned = false)
    (h : Served c n client response log) :
    net c log = n ∧ response.onClose = [] ∧ ∀ stream, response.body ≠ .stream stream := by
  obtain ⟨hnet, -, hserved⟩ := h
  have hplain : response.onClose = [] ∧ ∀ stream, response.body ≠ .stream stream := by
    cases hbody : response.body with
    | stream stream =>
        rw [hbody] at hserved
        exact absurd (howned.symm.trans hserved.1) Bool.false_ne_true
    | error message type code =>
        rw [hbody] at hserved
        exact ⟨hserved.2, fun _ h => nomatch h⟩
    | content bytes =>
        rw [hbody] at hserved
        exact ⟨hserved.2, fun _ h => nomatch h⟩
  refine ⟨?_, hplain⟩
  rw [howned, hplain.1, debt] at hnet
  simpa using hnet

omit [JsonReader] in
theorem client_end_counts {E : Unit → Assertion Call Call.Answer Locals} :
    Triple (At (Owned own) c (0 + unit c (.client client))) (call (.clientEnd client))
      (fun _ => At (Owned own) c 0) E := by
  refine (call_closes (.client client) (by simp) (fun _ => rfl) fun _ => rfl).conseq
    (fun _ _ h => h) ?_ fun _ _ _ h => h
  rintro _ w log ⟨hv, hnet, hunread⟩
  exact ⟨hv, by omega, hunread⟩

/-- A request whose provider is known. -/
theorem complete_with_owes {model : Json} {provider : String} :
    Triple (At (Owned false) c 0) (completeWith settings inbound sub body model provider)
      (fun response _ log => Owes c response log) (fun _ => At (Owned false) c 0) := by
  unfold completeWith
  split
  · refine Triple.seq (call_opens (.client (clientKey inbound.label inbound.ip)) (by simp)
      (fun _ => rfl) fun _ => rfl) fun _ => ?_
    refine Triple.ensuring serve_candidates_served ?_ ?_
    · intro response
      refine Triple.seq (triple_get (Q := fun v w log => v.streamOwnsClient = response.clientOwned ∧
        Served c (0 + unit c (.client (clientKey inbound.label inbound.ip)))
          (clientKey inbound.label inbound.ip) response log) fun v log h => h) fun v => ?_
      -- The response owns the client's counter, or the request gives it back here.
      cases howned : response.clientOwned with
      | true =>
          refine triple_only_if ?_ fun w log _ h => served_owned howned h.2
          intro hgives s past h
          rw [h.1] at hgives
          cases hgives
      | false =>
          refine triple_only_if (fun _ => ?_) ?_
          · intro w past h
            obtain ⟨hnet, hclose, hbody⟩ := served_not_owned howned h.2
            have hend : Triple (At (Owned w.streamOwnsClient) c
                (0 + unit c (.client (clientKey inbound.label inbound.ip))))
                (call (.clientEnd (clientKey inbound.label inbound.ip)))
                (fun _ _ log => Owes c response log) (fun _ => At (Owned false) c 0) :=
              client_end_counts.conseq (fun _ _ h => h) (fun _ _ _ h => owes_plain hbody hclose h)
                fun _ _ _ h => h
            exact hend w past ⟨rfl, hnet, h.2.2.1⟩
          · intro w log hgives h
            rw [h.1] at hgives
            cases hgives
    · intro e
      refine Triple.seq (triple_get (Q := fun v w log => v.streamOwnsClient = false ∧
        At (Owned false) c (0 + unit c (.client (clientKey inbound.label inbound.ip))) w log)
        fun v log h => ⟨h.1, h⟩) fun v => ?_
      refine triple_only_if (fun _ => ?_) ?_
      · exact client_end_counts.conseq (fun _ _ h => h.2) (fun _ _ _ h => h) fun _ _ _ h => h
      · intro w log howns h
        rw [h.1] at howns
        cases howns
  · exact triple_raise fun _ _ h => h

theorem handle_completion_owes {provider : Option String} :
    Triple (At (Owned false) c 0) (handleCompletion settings inbound sub provider)
      (fun response _ log => Owes c response log) (fun _ => At (Owned false) c 0) := by
  unfold handleCompletion
  split
  · split
    · exact triple_pure fun v log h => owes_plain (fun _ h => nomatch h) rfl h
    · dsimp only
      refine Triple.seq (R := fun _ => At (Owned false) c 0) ?_ fun provider => complete_with_owes
      cases provider with
      | some provider => exact triple_pure fun _ _ h => h
      | none => exact or_raise_neutral (call_neutral rfl)
  · exact triple_pure fun v log h => owes_plain (fun _ h => nomatch h) rfl h

end Requests

section Closing

variable {settings : Settings} {inbound : Inbound} {sub : String} {provider : Option String}
variable {c : Counter} {n : Int} {log : List Step}

variable {φ : Locals → Prop} {ρ : Reading → Prop} {reading : Reading}
variable {E : Unit → Assertion Call Call.Answer Locals}

omit [JsonReader] in
theorem run_callback_counts (callback : Callback) :
    Triple (Stands φ ρ c n) (runCallback callback)
      (fun _ => Stands φ ρ c (n - unit c callback.counter)) E := by
  cases callback with
  | release => exact call_closes .slot (by simp) (fun _ => rfl) fun _ => rfl
  | endAgent agentId => exact call_closes (.agent agentId) (by simp) (fun _ => rfl) fun _ => rfl
  | endClient client => exact call_closes (.client client) (by simp) (fun _ => rfl) fun _ => rfl

omit [JsonReader] in
theorem callbacks_pay (callbacks : List Callback) :
    Triple (Stands φ ρ c (debt c callbacks)) (Proc.forEach runCallback callbacks)
      (fun _ => Stands φ ρ c 0) E := by
  refine (triple_for_each (I := fun rest => Stands φ ρ c (debt c rest)) ?_).conseq
    (fun _ _ h => h) (fun _ _ _ h => h) fun _ _ _ h => h
  intro callback rest
  refine (run_callback_counts callback).conseq (fun _ _ h => h) ?_ fun _ _ _ h => h
  intro _ v log h
  have hdebt : debt c (callback :: rest) - unit c callback.counter = debt c rest := by
    rw [debt, List.map_cons, List.sum_cons, ← debt]
    omega
  rw [hdebt] at h
  exact h

variable {body : StreamBody}

omit [JsonReader] in
theorem on_usage_counts {usage : Option (Int × Int)} :
    Triple (ReadAt reading c n) (onUsage body usage) (fun _ => ReadAt reading c n) E := by
  cases usage with
  | none => exact triple_pure fun _ _ h => h
  | some pair =>
      refine Triple.seq (triple_only_if (fun _ => call_neutral rfl) fun _ _ _ h => h)
        fun _ => ?_
      exact call_neutral rfl

theorem finish_body_counts {tap : Tap} :
    Triple (ReadAt reading c n) (finishBody body tap)
      (fun _ v log => tap.finish.isOk = true ∧ ReadAt reading c n v log)
      (fun _ v log => tap.finish.isOk = false ∧ ReadAt reading c n v log) := by
  unfold finishBody
  cases hfinish : tap.finish with
  | error e => exact triple_raise fun _ _ h => ⟨rfl, h⟩
  | ok usage =>
      exact on_usage_counts.conseq (fun _ _ h => h) (fun _ _ _ h => ⟨rfl, h⟩) fun _ _ _ h => h

theorem finish_body_counts_any {tap : Tap} :
    Triple (ReadAt reading c n) (finishBody body tap) (fun _ => ReadAt reading c n)
      (fun _ => ReadAt reading c n) :=
  finish_body_counts.conseq (fun _ _ h => h) (fun _ _ _ h => h.2) fun _ _ _ h => h.2

theorem read_stream_counts :
    Triple (ReadAt reading c n) (readStream body reading) (fun _ => ReadAt reading c n) E := by
  cases reading with
  | unread => exact triple_pure fun _ _ h => h
  | left pieces => exact triple_pure fun _ _ h => h
  | finished pieces =>
      refine Triple.catch finish_body_counts_any fun _ => ?_
      exact triple_pure fun _ _ h => h

theorem close_body_counts :
    Triple (ReadAt reading c n) (closeBody body reading)
      (fun _ v log => reading.shuts = true ∧ ReadAt reading c n v log)
      (fun _ v log => reading.shuts = false ∧ ReadAt reading c n v log) := by
  cases reading with
  | unread => exact triple_pure fun _ _ h => ⟨rfl, h⟩
  | finished pieces => exact triple_pure fun _ _ h => ⟨rfl, h⟩
  | left pieces =>
      unfold closeBody
      dsimp only
      cases hrun : Tap.run {} (pieces.map Piece.bytes) with
      | mk tap raised =>
          cases raised with
          | none =>
              have hshuts : (Reading.left pieces).shuts = tap.finish.isOk := by
                rw [Reading.shuts, hrun]
              rw [hshuts]
              exact finish_body_counts
          | some e =>
              have hshuts : (Reading.left pieces).shuts = true := by rw [Reading.shuts, hrun]
              exact triple_pure fun _ _ h => ⟨hshuts, h⟩

theorem close_response_counts {response : Response} :
    Triple (ReadAt reading c (debt c response.onClose)) (closeResponse response body reading)
      (fun _ v log => reading.shuts = true ∧ ReadAt reading c 0 v log)
      (fun _ v log => reading.shuts = false ∧
        ReadAt reading c (debt c response.onClose) v log) := by
  refine Triple.seq close_body_counts fun _ => ?_
  intro v past h
  exact (callbacks_pay response.onClose).conseq (fun _ _ h => h) (fun _ _ _ hpaid => ⟨h.1, hpaid⟩)
    (fun _ _ _ h => h) v past h.2

/-- What an exchange leaves behind: nothing where the close of the body does not raise, and the
slot of the stream where it does. -/
def Left (c : Counter) (log : List Step) : Prop :=
  (Unread log ∧ net c log = 0) ∨
    ∃ reading, ReadAs (fun other => other = reading) log ∧
      (reading.shuts = true → net c log = 0) ∧
      (reading.shuts = false → c = .slot → net c log = 1)

/-- A request from its arrival to the closing of its response. -/
theorem exchange_leaves :
    Triple (At (Owned false) c 0) (exchange settings inbound sub provider)
      (fun _ _ log => Left c log) (fun _ _ log => Left c log) := by
  refine Triple.seq (R := fun response _ log => Owes c response log) ?_ fun response => ?_
  · exact handle_completion_owes.conseq (fun _ _ h => h) (fun _ _ _ h => h)
      fun _ _ _ h => Or.inl ⟨h.2.2, h.2.1⟩
  · have hplain : (∀ body, response.body ≠ .stream body) →
        Triple (fun _ log => Owes c response log)
          (do
            Proc.forEach runCallback response.onClose
            pure response : Gw Response)
          (fun _ _ log => Left c log) (fun _ _ log => Left c log) := by
      intro hbody
      refine Triple.seq (R := fun _ => At (fun _ => True) c 0) ?_ fun _ =>
        triple_pure fun _ _ h => Or.inl ⟨h.2.2, h.2.1⟩
      refine (callbacks_pay response.onClose).conseq (fun v log h => ?_) (fun _ _ _ h => h)
        fun _ _ _ h => h
      exact ⟨trivial, h.1, h.2.1⟩
    split
    · rename_i body hbody
      refine Triple.seq (R := fun reading v log =>
        (∃ agentId client, response.onClose = [.release, .endAgent agentId, .endClient client]) ∧
        ReadAt reading c (debt c response.onClose) v log) ?_ fun reading => ?_
      · refine triple_ask fun reading v log h => ?_
        refine ⟨h.2.2 body hbody, trivial, ?_, ?_⟩
        · rw [net_concat, h.1]
          simp [opens, closes]
        · intro other
          rw [List.mem_append, h.2.1 other, List.mem_singleton, false_or]
          constructor
          · intro heq
            cases heq
            rfl
          · rintro rfl
            rfl
      · intro v past h
        obtain ⟨⟨agentId, client, hclose⟩, hread⟩ := h
        -- Of the three callbacks one counts down the slot.
        have hslot : debt .slot response.onClose = 1 := by
          rw [hclose]
          rfl
        have hclosed : Triple (ReadAt reading c (debt c response.onClose))
            (do
              readStream body reading
              closeResponse response body reading
              pure response : Gw Response)
            (fun _ _ log => Left c log) (fun _ _ log => Left c log) := by
          refine Triple.seq read_stream_counts fun _ => ?_
          refine Triple.seq (close_response_counts.conseq (fun _ _ h => h) (fun _ _ _ h => h) ?_)
            fun _ => triple_pure ?_
          · rintro _ w log ⟨hshuts, -, hnet, hreading⟩
            refine Or.inr ⟨reading, hreading, fun h => ?_, ?_⟩
            · rw [hshuts] at h
              cases h
            · rintro - rfl
              rw [hnet, hslot]
          · rintro w log ⟨hshuts, -, hnet, hreading⟩
            refine Or.inr ⟨reading, hreading, fun _ => hnet, fun h => ?_⟩
            rw [hshuts] at h
            cases h
        exact hclosed v past hread
    · rename_i hbody
      exact hplain hbody

/-- Once the response of a request has been closed, every counter that the request counted up has
been counted down as often, exactly when the close of the response's body did not raise. -/
theorem exchange_balanced_iff {out : Except Unit Response × Locals}
    (h : (exchange settings inbound sub provider {}).Runs log out) :
    Balanced log ↔ ∀ reading, ⟨.readBody, reading⟩ ∈ log → reading.shuts = true := by
  have hleft : ∀ c, Left c log := by
    intro c
    have hends := exchange_leaves (c := c) {} [] ⟨rfl, rfl, by simp [ReadAs]⟩ log out h
    obtain ⟨result, v⟩ := out
    cases result with
    | ok response => exact hends
    | error e => exact hends
  rw [balanced_iff]
  constructor
  · intro hnet reading hread
    by_contra hshuts
    rw [Bool.not_eq_true] at hshuts
    rcases hleft .slot with ⟨hunread, -⟩ | ⟨other, hother, -, hraises⟩
    · exact (hunread reading).mp hread
    · have heq := (hother reading).mp hread
      have hone := hraises (heq ▸ hshuts) rfl
      rw [hnet .slot] at hone
      cases hone
  · intro hshuts c
    rcases hleft c with ⟨-, hnet⟩ | ⟨reading, hreading, hnet, -⟩
    · exact hnet
    · exact hnet (hshuts reading ((hreading reading).mpr rfl))

end Closing

end Bookkeeping

section Streamed

attribute [local instance] utf8Reader

/-- The settings of a gateway with LM Studio agents. -/
def lmsSettings : Settings where
  enabled := true
  usageProbe := true
  exposeProxiedTo := true
  providers := ["lms"]

/-- A request for a stream. -/
def streamRequest : Inbound where
  body := some [("model", .str "m"), ("stream", .bool true)]
  agentArg := none
  label := "session"
  ip := "10.0.0.7"

/-- The answers to a request that one agent streams to, up to the reading of the body. -/
def streamedBy (reading : Reading) : (c : Call) → c.Answer
  | .providerFor _ => .ok "lms"
  | .candidates .. => .ok [{ agentId := "a1", hostname := none }]
  | .dialStream .. => .ok (some { status := 200, contentType := some "text/event-stream" })
  | .forwardJson .. => .error ()
  | .content _ => .error ()
  | .tryAcquire => .ok true
  | .buildResponse _ => .ok ()
  | .readBody => reading
  | .closeUpstream _ => ()
  | .release => ()
  | .beginAgent _ => ()
  | .endAgent _ => ()
  | .clientBegin .. => ()
  | .clientEnd _ => ()
  | .record .. => ()
  | .clientRecord .. => ()
  | .recordLatency => ()
  | .recordError => ()
  | .countGateway .. => ()

/-- The log of the request. -/
def streamedLog (reading : Reading) : List Step :=
  (Prog.follow (streamedBy reading)
    (exchange lmsSettings streamRequest "chat/completions" none {})).1

/-- The client leaves while a line whose usage has a text for a count is not yet complete. -/
def leftUnreadable : Reading := .left [.chunk
  (encode "data: \x7b\"usage\":\x7b\"prompt_tokens\":1,\"completion_tokens\":\"x\"\x7d\x7d".toList)]

/-- A stream that is read to its end is balanced. -/
theorem finished_stream_balanced : Balanced (streamedLog (.finished [])) := by
  have hread : (streamedLog (.finished [])).all (fun step => match step with
      | ⟨.readBody, reading⟩ => reading.shuts
      | _ => true) = true := by decide +kernel
  refine (exchange_balanced_iff (runs_follow (streamedBy (.finished [])) _)).mpr ?_
  intro reading hmem
  exact List.all_eq_true.mp hread _ hmem

/-- A stream that is left within an unreadable line keeps its slot. -/
theorem left_stream_not_balanced :
    (∃ out, (exchange lmsSettings streamRequest "chat/completions" none {}).Runs
      (streamedLog leftUnreadable) out) ∧ ¬ Balanced (streamedLog leftUnreadable) := by
  refine ⟨⟨_, runs_follow (streamedBy leftUnreadable) _⟩, fun h => ?_⟩
  have hslot := h .slot
  revert hslot
  decide +kernel

end Streamed

end SystemsManager.Gateway
