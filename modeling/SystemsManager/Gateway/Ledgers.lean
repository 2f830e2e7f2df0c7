import SystemsManager.Gateway.Completions
import SystemsManager.Gateway.Balance

/-!
# The two error ledgers

An error of the gateway is counted twice: by `record_error` for the status page, and by
`count_gateway(.., "errors")` for the forecasts. `gap` is how far the first is ahead of the second
in a log. Read `ledgers_agree`: a completion that is not streamed counts alike always, a streamed
one inside the manager unless its upstream breaks off after a chunk, and a request over HTTP unless
an upstream refuses to stream or no slot of the stream pool is free.
-/

namespace SystemsManager.Gateway

open Python Concurrency

section Gaps

variable {Op : Type} {Res : Op → Type} {σ ε : Type}

/-- A ledger: the steps that it counts. -/
abbrev Ledger (Op : Type) (Res : Op → Type) := ((op : Op) × Res op) → Bool

/-- How far the first ledger is ahead of the second. -/
def gap (p q : Ledger Op Res) (log : Log Op Res) : Int := log.countP p - log.countP q

/-- What a step adds to the gap. -/
def mark (p q : Ledger Op Res) (step : (op : Op) × Res op) : Int :=
  (if p step then 1 else 0) - if q step then 1 else 0

variable {p q : Ledger Op Res} {k : ((op : Op) × Res op) → Prop} {φ : σ → Prop}
variable {n m : Int} {op : Op} {E : ε → Assertion Op Res σ} {log : Log Op Res}

theorem gap_eq_zero_iff : gap p q log = 0 ↔ log.countP p = log.countP q := by
  unfold gap
  omega

theorem gap_concat (step : (op : Op) × Res op) :
    gap p q (log ++ [step]) = gap p q log + mark p q step := by
  unfold gap mark
  rw [List.countP_append, List.countP_append, List.countP_singleton, List.countP_singleton]
  push_cast
  omega

/-- The first ledger is ahead by `n`, and all steps of the log are quiet. -/
def Quiet (p q : Ledger Op Res) (k : ((op : Op) × Res op) → Prop) (φ : σ → Prop) (n : Int) :
    Assertion Op Res σ :=
  fun v log => φ v ∧ gap p q log = n ∧ ∀ step ∈ log, k step

/-- At the end the ledgers agree exactly when all steps of the log are quiet. -/
def Told (p q : Ledger Op Res) (k : ((op : Op) × Res op) → Prop) (log : Log Op Res) : Prop :=
  gap p q log = 0 ↔ ∀ step ∈ log, k step

theorem told_of_quiet {v : σ} (h : Quiet p q k φ 0 v log) : Told p q k log :=
  ⟨fun _ => h.2.2, fun _ => h.2.1⟩

theorem quiet_concat {step : (op : Op) × Res op} (hstep : k step)
    (h : ∀ step ∈ log, k step) : ∀ other ∈ log ++ [step], k other := by
  intro other hother
  rcases List.mem_append.mp hother with hold | hnew
  · exact h other hold
  · rw [List.mem_singleton.mp hnew]
    exact hstep

theorem ask_marked (m : Int) (hmark : ∀ r, mark p q ⟨op, r⟩ = m) (hquiet : ∀ r, k ⟨op, r⟩) :
    Triple (Quiet p q k φ n) (Proc.ask op) (fun _ => Quiet p q k φ (n + m)) E := by
  refine triple_ask fun r v log h => ⟨h.1, ?_, quiet_concat (hquiet r) h.2.2⟩
  rw [gap_concat, h.2.1, hmark]

theorem ask_quiet (hmark : ∀ r, mark p q ⟨op, r⟩ = 0) (hquiet : ∀ r, k ⟨op, r⟩) :
    Triple (Quiet p q k φ n) (Proc.ask op) (fun _ => Quiet p q k φ n) E := by
  refine (ask_marked 0 hmark hquiet).conseq (fun _ _ h => h) ?_ fun _ _ _ h => h
  intro r v log h
  rwa [add_zero] at h

theorem modify_quiet (ψ : σ → Prop) {f : σ → σ} (h : ∀ v, φ v → ψ (f v)) :
    Triple (Quiet p q k φ n) (Proc.modify f) (fun _ => Quiet p q k ψ n) E :=
  triple_modify fun v _ hv => ⟨h v hv.1, hv.2⟩

theorem ask_told (hmark : ∀ r, mark p q ⟨op, r⟩ = 0) (hquiet : ∀ r, k ⟨op, r⟩) :
    Keeps (fun _ => Told p q k) (Proc.ask op : Proc Op Res σ ε (Res op)) := by
  refine keeps_ask fun r _ log h => ?_
  unfold Told at h ⊢
  rw [gap_concat, hmark, add_zero, h]
  constructor
  · exact quiet_concat (hquiet r)
  · exact fun hall step hstep => hall step (List.mem_append_left _ hstep)

end Gaps

section Inside

/-- `record_error` -/
def InCall.recordsError : Ledger InCall InCall.Answer
  | ⟨.recordError, _⟩ => true
  | _ => false

/-- `count_gateway(.., "errors")` -/
def InCall.countsError : Ledger InCall InCall.Answer
  | ⟨.countGateway _ what, _⟩ => decide (what = "errors")
  | _ => false

/-- The upstream breaks off after a chunk. -/
def breaksOff : ((op : InCall) × op.Answer) → Bool
  | ⟨.ends _ lines, .broken⟩ => lines.any fun line => (chunkOf line).isSome
  | _ => false

/-- So far the ledgers agree and nothing has broken off. -/
abbrev Even (φ : InLocals → Prop) : Assertion InCall InCall.Answer InLocals :=
  Quiet InCall.recordsError InCall.countsError (fun step => breaksOff step = false) φ 0

/-- At the end the ledgers agree exactly when nothing has broken off. -/
abbrev EndsTold : Assertion InCall InCall.Answer InLocals :=
  fun _ => Told InCall.recordsError InCall.countsError fun step => breaksOff step = false

/-- Neither ledger counts the operation, and it is no end of a stream. -/
def InCall.still : InCall → Bool
  | .recordError => false
  | .countGateway _ what => decide (what ≠ "errors")
  | .ends .. => false
  | _ => true

variable {φ : InLocals → Prop} {E : Raised → Assertion InCall InCall.Answer InLocals}
variable {op : InCall} {agent : Agent} {model : Json} {s : Streaming}

theorem still_mark (hop : op.still = true) (r : op.Answer) :
    mark InCall.recordsError InCall.countsError ⟨op, r⟩ = 0 := by
  cases op with
  | countGateway model what =>
      have hwhat : what ≠ "errors" := of_decide_eq_true hop
      simp [mark, InCall.recordsError, InCall.countsError, hwhat]
  | recordError => cases hop
  | _ => rfl

theorem still_quiet (hop : op.still = true) (r : op.Answer) : breaksOff ⟨op, r⟩ = false := by
  cases op with
  | ends agent lines => cases hop
  | _ => rfl

theorem still_even (hop : op.still = true) :
    Triple (Even φ) (inCall op) (fun _ => Even φ) E :=
  ask_quiet (still_mark hop) (still_quiet hop)

theorem still_told (hop : op.still = true) : Keeps EndsTold (inCall op) :=
  ask_told (still_mark hop) (still_quiet hop)

theorem or_throw_even {α : Type} {p : In (Except Raised α)} (h : Keeps (Even φ) p) :
    Keeps (Even φ) (orThrow p) := Keeps.seq h fun _ => keeps_lift

theorem count_error_even : Keeps (Even φ) (countError model) := by
  refine Triple.seq (ask_marked 1 (fun _ => rfl) fun _ => rfl) fun _ => ?_
  refine (ask_marked (-1) (fun _ => ?_) fun _ => rfl).conseq (fun _ _ h => h) ?_ fun _ _ _ h => h
  · simp [mark, InCall.recordsError, InCall.countsError]
  · exact fun _ _ _ h => h

theorem skip_candidate_even {what reason : String} (hwhat : what ≠ "errors") :
    Keeps (Even fun _ => True) (skipCandidate model agent what reason) :=
  Keeps.seq (still_even (decide_eq_true hwhat)) fun _ => keeps_modify fun _ _ h => h

theorem note_timeout_even {timeout : Bool} : Keeps (Even fun _ => True) (noteTimeout timeout) :=
  keeps_modify fun _ _ h => h

theorem skipped_as (timeout : Bool) : (if timeout then "timeouts" else "failovers") ≠ "errors" := by
  cases timeout with
  | true => decide
  | false => decide

/-- The start of a completion. -/
theorem resolve_even {settings : Settings} {body : Fields} {provider : Option String} :
    Keeps (Even fun _ => True) (resolve settings body provider) := by
  unfold resolve
  split
  · cases provider with
    | some provider => exact keeps_pure
    | none => exact Keeps.seq (or_throw_even (still_even rfl)) fun _ => keeps_pure
  · exact keeps_raise

/-- The path of a provider. -/
theorem chat_path_even {settings : Settings} {provider : String} :
    Keeps (Even fun _ => True) (chatPath settings provider) := by
  unfold chatPath
  split
  · exact keeps_pure
  · exact keeps_raise

theorem none_served_even {α : Type} {provider : String} :
    Keeps (Even fun _ => True) (noneServed model provider : In α) := by
  refine Keeps.seq count_error_even fun _ => Keeps.seq keeps_get fun v => ?_
  split
  · exact keeps_raise
  · exact keeps_raise

theorem record_tokens_even {provider : String} {client : ClientKey} {usage : Option (Json × Json)} :
    Keeps (Even φ) (recordTokens provider client model agent usage) := by
  cases usage with
  | none => exact keeps_pure
  | some tokens =>
      refine Keeps.seq (or_throw_even (still_even rfl)) fun _ => Keeps.only_if ?_
      exact or_throw_even (still_even rfl)

section Whole

variable [JsonReader]

variable {provider path : String} {body : Fields} {client : ClientKey}

/-- An answer that is taken. -/
theorem take_answer_even {answered : Answered} :
    Keeps (Even fun _ => True) (takeAnswer provider client model agent answered) := by
  refine Keeps.seq keeps_lift fun usage => Keeps.seq record_tokens_even fun _ => ?_
  split
  · exact keeps_pure
  · exact keeps_raise

theorem try_json_even :
    Keeps (Even fun _ => True) (tryJson provider path body client model agent) := by
  refine Keeps.seq (still_even rfl) fun _ => ?_
  refine Keeps.seq (Triple.ensuring (or_throw_even (still_even rfl)) (fun _ => still_even rfl)
    fun _ => still_even rfl) fun answer => ?_
  cases answer with
  | error err =>
      refine Keeps.seq note_timeout_even fun _ => ?_
      exact Keeps.seq (skip_candidate_even (skipped_as _)) fun _ => keeps_pure
  | ok answered =>
      refine Keeps.seq keeps_get fun v => ?_
      split
      · exact Keeps.seq (skip_candidate_even (by decide)) fun _ => keeps_pure
      · split
        · exact Keeps.seq take_answer_even fun _ => keeps_pure
        · exact Keeps.seq count_error_even fun _ => keeps_raise

theorem complete_json_even {settings : Settings} {label : String} {provider : Option String} :
    Keeps (Even fun _ => True) (completeJson settings body label provider) := by
  refine Keeps.seq resolve_even fun resolved => Keeps.seq chat_path_even fun path => ?_
  refine Keeps.seq (still_even rfl) fun _ => ?_
  refine Triple.ensuring ?_ (fun _ => still_even rfl) fun _ => still_even rfl
  refine Keeps.seq (or_throw_even (still_even rfl)) fun cands => ?_
  refine Keeps.seq (Keeps.only_if (still_even rfl)) fun _ => ?_
  refine Keeps.seq (Keeps.first_some fun _ => try_json_even) fun found => ?_
  cases found with
  | some out => exact keeps_pure
  | none => exact none_served_even

end Whole

section Streamed

variable [JsonReader]

/-- The lines hold a chunk. -/
abbrev hasChunk (lines : List (List Char)) : Bool := lines.any fun line => (chunkOf line).isSome

/-- What is left of a stream that raises: nothing was counted and the next candidate may be tried,
or it has broken off and no other is tried. -/
def Fails (e : Raised) : Assertion InCall InCall.Answer InLocals := fun v log =>
  Even (fun _ => True) v log ∨
    (EndsTold v log ∧ ∃ message status errType, e = .gateway message status errType ∧
      errType ≠ "timeout")

omit [JsonReader] in
theorem relay_chunk_even {chunk : Json} :
    Triple (Even fun _ => True) (relayChunk s agent chunk) (fun _ => Even fun v => v.first = false)
      (fun _ => Even fun _ => True) := by
  refine Triple.seq (triple_get (Q := fun v => Even fun w => w.first = v.first)
    fun v log h => ⟨rfl, h.2⟩) fun v => ?_
  refine Triple.seq (R := fun _ => Even fun v => v.first = false) ?_ fun _ => ?_
  · refine triple_only_if (fun _ => ?_) fun w log hfirst h => ⟨h.1.trans hfirst, h.2⟩
    refine Triple.seq (modify_quiet (fun v => v.first = false) fun _ _ => rfl) fun _ => ?_
    exact still_even rfl
  refine Triple.conseq (P := Even fun v => v.first = false)
    (E := fun _ => Even fun v => v.first = false) ?_ (fun _ _ h => h) (fun _ _ _ h => h)
    fun _ _ _ h => ⟨trivial, h.2⟩
  refine Keeps.seq keeps_lift fun usage => Keeps.seq record_tokens_even fun _ => ?_
  refine Keeps.seq (still_even rfl) fun goesOn => ?_
  split
  · exact keeps_pure
  · exact keeps_raise

omit [JsonReader] in
theorem stream_end_fails {lines : List (List Char)} :
    Triple (Even fun v => v.first = !hasChunk lines) (readChunks s agent lines [])
      (fun _ => Even fun _ => True) Fails := by
  refine Triple.seq (R := fun streamEnd v log => v.first = !hasChunk lines ∧
    gap InCall.recordsError InCall.countsError log = 0 ∧ ∃ past, log = past ++
      [⟨.ends agent lines, streamEnd⟩] ∧
      ∀ step ∈ past, breaksOff step = false) ?_ fun streamEnd => ?_
  · refine triple_ask fun r v log h => ⟨h.1, ?_, log, rfl, h.2.2⟩
    rw [gap_concat, h.2.1]
    rfl
  · have hquiet : streamEnd ≠ .broken → ∀ past : Log InCall InCall.Answer,
        (∀ step ∈ past, breaksOff step = false) →
        ∀ step ∈ past ++ [⟨.ends agent lines, streamEnd⟩], breaksOff step = false := by
      intro hend past hpast
      refine quiet_concat (k := fun step => breaksOff step = false) ?_ hpast
      cases streamEnd with
      | finished => rfl
      | raised => rfl
      | broken => exact absurd rfl hend
    cases streamEnd with
    | finished =>
        refine triple_pure ?_
        rintro v log ⟨-, hgap, past, rfl, hpast⟩
        exact ⟨trivial, hgap, hquiet (by simp) past hpast⟩
    | raised =>
        refine triple_raise ?_
        rintro v log ⟨-, hgap, past, rfl, hpast⟩
        exact Or.inl ⟨trivial, hgap, hquiet (by simp) past hpast⟩
    | broken =>
        refine Triple.seq (triple_get (Q := fun v w log => v.first = !hasChunk lines ∧
          gap InCall.recordsError InCall.countsError log = 0 ∧
          ∃ past, log = past ++ [⟨.ends agent lines, .broken⟩] ∧
            ∀ step ∈ past, breaksOff step = false) fun v log h => h) fun v => ?_
        cases hchunk : hasChunk lines with
        | false =>
            refine Triple.seq (R := fun _ w log => v.first = true ∧ Even (fun _ => True) w log)
              (triple_only_if ?_ ?_) fun _ => ?_
            · intro hfirst w past h
              rw [h.1] at hfirst
              cases hfirst
            · rintro w log - ⟨hfirst, hgap, past, rfl, hpast⟩
              exact ⟨hfirst, trivial, hgap, quiet_concat
                (k := fun step => breaksOff step = false) hchunk hpast⟩
            · split
              · exact triple_raise fun _ _ h => Or.inl h.2
              · rename_i hfirst
                exact triple_raise fun _ _ h => absurd h.1 hfirst
        | true =>
            refine Triple.seq (R := fun _ w log => v.first = false ∧ EndsTold w log)
              (triple_only_if (fun _ => ?_) ?_) fun _ => ?_
            · refine triple_ask ?_
              rintro r w log ⟨hfirst, hgap, past, rfl, -⟩
              refine ⟨hfirst, ?_, ?_⟩
              · intro hzero
                rw [gap_concat, hgap] at hzero
                cases hzero
              · intro hall
                have hbroken : breaksOff ⟨.ends agent lines, .broken⟩ = false :=
                  hall _ (by simp)
                cases hchunk.symm.trans hbroken
            · rintro w log hfirst ⟨hnot, -⟩
              rw [hnot] at hfirst
              cases hfirst
            · split
              · rename_i hfirst
                refine triple_raise fun _ _ h => ?_
                rw [h.1] at hfirst
                cases hfirst
              · exact triple_raise fun _ _ h => Or.inr ⟨h.2, _, _, _, rfl, by decide⟩

omit [JsonReader] in
theorem read_chunks_fails {all : List (List Char)} (rest : List (List Char)) :
    ∀ read, all = read ++ rest → Triple (Even fun v => v.first = !hasChunk read)
      (readChunks s agent all rest) (fun _ => Even fun _ => True) Fails := by
  induction rest with
  | nil =>
      intro read hall
      rw [List.append_nil] at hall
      subst hall
      exact stream_end_fails
  | cons line rest ih =>
      intro read hall
      have hnext : all = (read ++ [line]) ++ rest := by simp [hall]
      -- A line without a chunk leaves `first` as it is.
      have hskip : chunkOf line = none → Triple (Even fun v => v.first = !hasChunk read)
          (readChunks s agent all rest) (fun _ => Even fun _ => True) Fails := by
        intro hnone
        have hsame : hasChunk (read ++ [line]) = hasChunk read := by simp [hasChunk, hnone]
        rw [← hsame]
        exact ih _ hnext
      unfold readChunks
      split
      · rename_i hplain
        exact hskip (by unfold chunkOf; rw [if_pos hplain])
      rename_i hdata
      dsimp only
      split
      · exact triple_pure fun _ _ h => ⟨trivial, h.2⟩
      rename_i hdone
      have hchunk : chunkOf line = loads (stripText (line.drop 6)) := by
        unfold chunkOf
        rw [if_neg hdata]
        dsimp only
        rw [if_neg hdone]
      split
      · rename_i hload
        exact hskip (hchunk.trans hload)
      rename_i chunk hload
      refine Triple.seq (R := fun _ => Even fun v => v.first = false)
        (relay_chunk_even.conseq (fun _ _ h => ⟨trivial, h.2⟩) (fun _ _ _ h => h)
          fun _ _ _ h => Or.inl h) fun _ => ?_
      refine Triple.seq (triple_lift (Q := fun _ => Even fun v => v.first = false)
        (fun _ _ _ _ h => h) fun _ _ _ _ h => Or.inl ⟨trivial, h.2⟩) fun isLast => ?_
      split
      · exact triple_pure fun _ _ h => ⟨trivial, h.2⟩
      · have htrue : hasChunk (read ++ [line]) = true := by simp [hasChunk, hchunk, hload]
        have hrest := ih _ hnext
        rw [htrue] at hrest
        exact hrest

omit [JsonReader] in
theorem on_read_error_even (e : Raised) :
    Triple (Fails e) (onReadError model agent e) (fun _ => Even fun _ => True)
      (fun _ => EndsTold) := by
  have htold : ∀ v log, Fails e v log → EndsTold v log := by
    rintro v log (heven | ⟨htold, -⟩)
    · exact told_of_quiet heven
    · exact htold
  refine Triple.seq (triple_get (Q := fun _ => Fails e) fun _ _ h => h) fun v => ?_
  cases e with
  | closed => exact triple_raise htold
  | other => exact triple_raise htold
  | gateway message status errType =>
      dsimp only
      split
      · exact triple_raise htold
      · rename_i hgoes
        refine Triple.conseq (P := Even fun _ => True) (E := fun _ => Even fun _ => True) ?_ ?_
          (fun _ _ _ h => h) fun _ _ _ h => told_of_quiet h
        · refine Keeps.seq note_timeout_even fun _ => ?_
          exact Keeps.seq (skip_candidate_even (by decide)) fun _ => keeps_pure
        · rintro w log (heven | ⟨-, _, _, _, hsame, htimeout⟩)
          · exact heven
          · cases hsame
            exact absurd (Or.inl htimeout) hgoes

omit [JsonReader] in
theorem try_chunks_even :
    Triple (Even fun _ => True) (tryChunks s agent) (fun _ => Even fun _ => True)
      (fun _ => EndsTold) := by
  have hraise : ∀ {α : Type} {p : In α}, Keeps (Even fun _ => True) p →
      Triple (Even fun _ => True) p (fun _ => Even fun _ => True) (fun _ => EndsTold) :=
    fun h => h.conseq (fun _ _ h => h) (fun _ _ _ h => h) fun _ _ _ h => told_of_quiet h
  refine Triple.seq (hraise (or_throw_even (still_even rfl))) fun dialled => ?_
  cases dialled with
  | unreachable => exact hraise (Keeps.seq (skip_candidate_even (by decide)) fun _ => keeps_pure)
  | timedOut =>
      refine hraise (Keeps.seq note_timeout_even fun _ => ?_)
      exact Keeps.seq (skip_candidate_even (by decide)) fun _ => keeps_pure
  | upstream upstream =>
      dsimp only
      split
      · refine hraise (Keeps.seq (still_even rfl) fun _ => ?_)
        exact Keeps.seq (skip_candidate_even (by decide)) fun _ => keeps_pure
      · split
        · refine hraise (Keeps.seq (still_even rfl) fun _ => Keeps.seq keeps_get fun v => ?_)
          split
          · exact Keeps.seq (skip_candidate_even (by decide)) fun _ => keeps_pure
          · exact Keeps.seq count_error_even fun _ => keeps_raise
        · refine Triple.seq (still_even rfl) fun _ => ?_
          refine Triple.seq (modify_quiet (fun v => v.first = !hasChunk []) fun _ _ => rfl)
            fun _ => ?_
          refine Triple.ensuring (S := fun _ => Even fun _ => True) (F := fun _ => EndsTold) ?_
            (fun _ => Triple.seq (still_even rfl) fun _ => still_even rfl)
            fun _ => Keeps.seq (still_told rfl) fun _ => still_told rfl
          refine Triple.catch (F := Fails) ?_ on_read_error_even
          refine Triple.seq (still_even rfl) fun lines => ?_
          refine Triple.seq (read_chunks_fails lines [] rfl) fun _ => ?_
          exact triple_pure fun _ _ h => h

omit [JsonReader] in
/-- A streamed completion. -/
theorem chunks_of_told :
    Triple (Even fun _ => True) (chunksOf s) (fun _ => EndsTold) (fun _ => EndsTold) := by
  refine Triple.seq (still_even rfl) fun _ => ?_
  refine Triple.ensuring (S := fun _ => EndsTold) (F := fun _ => EndsTold) ?_
    (fun _ => still_told rfl) fun _ => still_told rfl
  have hraise : ∀ {α : Type} {p : In α}, Keeps (Even fun _ => True) p →
      Triple (Even fun _ => True) p (fun _ => Even fun _ => True) (fun _ => EndsTold) :=
    fun h => h.conseq (fun _ _ h => h) (fun _ _ _ h => h) fun _ _ _ h => told_of_quiet h
  refine Triple.seq (hraise (or_throw_even (still_even rfl))) fun cands => ?_
  refine Triple.seq (hraise (Keeps.only_if (still_even rfl))) fun _ => ?_
  refine Triple.seq (R := fun _ => Even fun _ => True) ?_ fun found => ?_
  · refine (triple_first_some (I := fun _ => Even fun _ => True) (Q := fun _ => Even fun _ => True)
      ?_).conseq (fun _ _ h => h) ?_ fun _ _ _ h => h
    · intro agent rest
      refine try_chunks_even.conseq (fun _ _ h => h) ?_ fun _ _ _ h => h
      intro r v log h
      cases r with
      | some _ => exact h
      | none => exact h
    · intro r v log h
      cases r with
      | some _ => exact h
      | none => exact h
  · cases found with
    | some _ => exact triple_pure fun _ _ h => told_of_quiet h
    | none =>
        exact none_served_even.conseq (fun _ _ h => h) (fun _ _ _ h => told_of_quiet h)
          fun _ _ _ h => told_of_quiet h

omit [JsonReader] in
theorem complete_chunks_told {settings : Settings} {body : Fields} {label : String}
    {provider : Option String} :
    Triple (Even fun _ => True) (completeChunks settings body label provider) (fun _ => EndsTold)
      (fun _ => EndsTold) := by
  have hraise : ∀ {α : Type} {p : In α}, Keeps (Even fun _ => True) p →
      Triple (Even fun _ => True) p (fun _ => Even fun _ => True) (fun _ => EndsTold) :=
    fun h => h.conseq (fun _ _ h => h) (fun _ _ _ h => h) fun _ _ _ h => told_of_quiet h
  refine Triple.seq (hraise resolve_even) fun resolved => ?_
  exact Triple.seq (hraise chat_path_even) fun path => chunks_of_told

omit [JsonReader] in
theorem native_chunks_told {settings : Settings} {body : Fields} {label : String} :
    Triple (Even fun _ => True) (nativeChunks settings body label) (fun _ => EndsTold)
      (fun _ => EndsTold) :=
  Triple.seq (resolve_even.conseq (fun _ _ h => h) (fun _ _ _ h => h)
    fun _ _ _ h => told_of_quiet h) fun _ => chunks_of_told

end Streamed

end Inside

section Http

/-- `record_error` -/
def Call.recordsError : Ledger Call Call.Answer
  | ⟨.recordError, _⟩ => true
  | _ => false

/-- `count_gateway(.., "errors")` -/
def Call.countsError : Ledger Call Call.Answer
  | ⟨.countGateway _ what, _⟩ => decide (what = "errors")
  | _ => false

/-- No slot of the stream pool is free. -/
def refuses : Step → Bool
  | ⟨.tryAcquire, .ok false⟩ => true
  | _ => false

/-- The upstream of a stream answers with an error that is no failover, and does not stream. -/
def dialsError : Step → Bool
  | ⟨.dialStream .., .ok (some upstream)⟩ =>
      decide (400 ≤ upstream.status) && decide (upstream.status ∉ FAILOVER_STATUSES) &&
        !isEventStream (upstream.contentType.getD "").toLower
  | _ => false

/-- The content of an upstream that does not stream has been read. -/
def readsContent : Step → Bool
  | ⟨.content _, .ok _⟩ => true
  | _ => false

/-- No slot was free, or the error of an upstream was relayed. -/
def Uneven (log : List Step) : Prop :=
  log.any refuses = true ∨ (log.any dialsError = true ∧ log.any readsContent = true)

/-- Nothing of it has happened. -/
abbrev IsCalm (step : Step) : Prop :=
  refuses step = false ∧ dialsError step = false ∧ readsContent step = false

/-- So far the ledgers agree and nothing was refused or relayed. -/
abbrev Calm : Assertion Call Call.Answer Locals :=
  Quiet Call.recordsError Call.countsError IsCalm (fun _ => True) 0

/-- At the end the ledgers agree exactly when nothing was refused and no error was relayed. -/
def HttpTold : Assertion Call Call.Answer Locals := fun _ log =>
  gap Call.recordsError Call.countsError log = 0 ↔ ¬ Uneven log

/-- Neither ledger counts the operation, and it is none that can be refused or relayed. -/
def Call.plain : Call → Bool
  | .recordError => false
  | .countGateway _ what => decide (what ≠ "errors")
  | .dialStream .. | .content _ | .tryAcquire => false
  | _ => true

variable {op : Call} {v : Locals} {log : List Step} {agent : Agent} {relay : Relay}
variable {settings : Settings} {inbound : Inbound} {path sub : String} {body : Fields}

theorem any_calm (h : ∀ step ∈ log, IsCalm step) :
    log.any refuses = false ∧ log.any dialsError = false ∧ log.any readsContent = false := by
  refine ⟨?_, ?_, ?_⟩
  · exact List.any_eq_false.mpr fun step hstep => by simp [(h step hstep).1]
  · exact List.any_eq_false.mpr fun step hstep => by simp [(h step hstep).2.1]
  · exact List.any_eq_false.mpr fun step hstep => by simp [(h step hstep).2.2]

/-- A calm log may be the end. -/
theorem told_of_calm (h : Calm v log) : HttpTold v log := by
  obtain ⟨hrefuses, hdials, -⟩ := any_calm h.2.2
  unfold HttpTold Uneven
  rw [hrefuses, hdials, h.2.1]
  simp

theorem plain_mark (hop : op.plain = true) (r : op.Answer) :
    mark Call.recordsError Call.countsError ⟨op, r⟩ = 0 := by
  cases op with
  | countGateway model what =>
      have hwhat : what ≠ "errors" := of_decide_eq_true hop
      simp [mark, Call.recordsError, Call.countsError, hwhat]
  | recordError => cases hop
  | _ => rfl

/-- A plain operation is calm. -/
theorem plain_calm (hop : op.plain = true) (r : op.Answer) : IsCalm ⟨op, r⟩ := by
  cases op with
  | dialStream agent path body => cases hop
  | content agent => cases hop
  | tryAcquire => cases hop
  | _ => exact ⟨rfl, rfl, rfl⟩

theorem call_calm (hop : op.plain = true) : Keeps Calm (call op) :=
  ask_quiet (plain_mark hop) (plain_calm hop)

theorem uneven_concat {step : Step} (hstep : IsCalm step) :
    Uneven (log ++ [step]) ↔ Uneven log := by
  obtain ⟨hrefuses, hdials, hreads⟩ := hstep
  unfold Uneven
  simp only [List.any_append, List.any_cons, List.any_nil, hrefuses, hdials, hreads, Bool.or_false]

/-- A plain operation at the end. -/
theorem call_told (hop : op.plain = true) : Keeps HttpTold (call op) := by
  refine keeps_ask fun r _ log h => ?_
  unfold HttpTold at h ⊢
  rw [gap_concat, plain_mark hop, add_zero, uneven_concat (plain_calm hop r), h]

theorem or_raise_calm {α : Type} {p : Gw (Except Unit α)} {W : Assertion Call Call.Answer Locals}
    (h : Keeps W p) : Keeps W (orRaise p) := Keeps.seq h fun _ => keeps_lift

theorem raise_told {α : Type} {p : Gw α} (h : Keeps Calm p) :
    Triple Calm p (fun _ => Calm) fun _ => HttpTold :=
  h.conseq (fun _ _ h => h) (fun _ _ _ h => h) fun _ _ _ h => told_of_calm h

theorem end_told {α : Type} {p : Gw α} (h : Keeps Calm p) :
    Triple Calm p (fun _ => HttpTold) fun _ => HttpTold :=
  h.conseq (fun _ _ h => h) (fun _ _ _ h => told_of_calm h) fun _ _ _ h => told_of_calm h

theorem both_count_calm {model : Json} :
    Keeps Calm (do
      call .recordError
      call (.countGateway model "errors")) := by
  refine Triple.seq (ask_marked 1 (fun _ => rfl) fun _ => ⟨rfl, rfl, rfl⟩) fun _ => ?_
  refine (ask_marked (-1) (fun _ => ?_) fun _ => ⟨rfl, rfl, rfl⟩).conseq (fun _ _ h => h) ?_
    fun _ _ _ h => h
  · simp [mark, Call.recordsError, Call.countsError]
  · exact fun _ _ _ h => h

/-- An upstream has answered with an error that will be relayed. -/
def Faulty : Assertion Call Call.Answer Locals := fun _ log =>
  gap Call.recordsError Call.countsError log = 0 ∧ log.any refuses = false ∧
    log.any dialsError = true ∧ log.any readsContent = false

/-- The ledgers have the gap of an uneven request. -/
def Gap (n : Int) : Assertion Call Call.Answer Locals := fun _ log =>
  gap Call.recordsError Call.countsError log = n ∧ Uneven log

theorem call_gap {n : Int} {E : Unit → Assertion Call Call.Answer Locals} (hop : op.plain = true) :
    Triple (Gap n) (call op) (fun _ => Gap n) E := by
  refine triple_ask fun r _ log h => ⟨?_, (uneven_concat (plain_calm hop r)).mpr h.2⟩
  rw [gap_concat, plain_mark hop, add_zero]
  exact h.1

theorem record_error_told : Triple (Gap 0) (call .recordError) (fun _ => HttpTold)
    fun _ => HttpTold := by
  refine triple_ask fun r v log h => ?_
  unfold HttpTold
  rw [gap_concat, h.1, uneven_concat ⟨rfl, rfl, rfl⟩]
  constructor
  · intro hzero
    cases hzero
  · exact fun hnot => absurd h.2 hnot

theorem stream_response_calm {upstream : Upstream} :
    Keeps Calm (streamResponse settings agent relay upstream) := by
  refine Triple.ensuring (S := fun _ => Calm) (F := fun _ => Calm) ?_ (fun _ => ?_) fun _ => ?_
  · refine Keeps.seq (or_raise_calm (call_calm rfl)) fun _ => Keeps.seq (call_calm rfl) fun _ => ?_
    exact Keeps.seq (keeps_modify fun _ _ h => h) fun _ => keeps_pure
  · refine Keeps.seq keeps_get fun _ => Keeps.only_if ?_
    exact Keeps.seq (call_calm rfl) fun _ => call_calm rfl
  · refine Keeps.seq keeps_get fun _ => Keeps.only_if ?_
    exact Keeps.seq (call_calm rfl) fun _ => call_calm rfl

/-- An error that is relayed. -/
theorem relayed_error_told {upstream : Upstream} {contentType : String}
    (hstatus : 400 ≤ upstream.status) :
    Triple Faulty (relayedResponse agent upstream contentType) (fun _ => HttpTold)
      fun _ => HttpTold := by
  refine Triple.seq (R := fun _ => Gap 0) (Triple.seq (R := fun r v log => match r with
    | .ok _ => Gap 0 v log
    | .error _ => HttpTold v log) ?_ fun r => ?_) fun content => ?_
  · refine triple_ask fun r v log h => ?_
    obtain ⟨hgap, hrefuses, hdials, hreads⟩ := h
    cases r with
    | ok bytes =>
        refine ⟨?_, Or.inr ⟨?_, ?_⟩⟩
        · rw [gap_concat, hgap]
          rfl
        · rw [List.any_append, hdials, Bool.true_or]
        · rw [List.any_append]
          simp [readsContent]
    | error e =>
        unfold HttpTold Uneven
        rw [gap_concat, hgap]
        simp [hrefuses, hreads, mark, Call.recordsError, Call.countsError, refuses, readsContent]
  · refine triple_lift ?_ ?_
    · rintro bytes v log rfl h
      exact h
    · rintro e v log rfl h
      exact h
  · refine Triple.seq (call_gap rfl) fun _ => ?_
    refine Triple.seq (R := fun _ => HttpTold) (triple_only_if (fun _ => record_error_told) ?_)
      fun _ => ?_
    · intro v log hbelow h
      rw [decide_eq_true hstatus] at hbelow
      cases hbelow
    · exact Keeps.seq (or_raise_calm (call_told rfl)) fun _ => keeps_pure

theorem relayed_answer_told {upstream : Upstream} {contentType : String}
    (hstatus : ¬ 400 ≤ upstream.status) :
    Triple Calm (relayedResponse agent upstream contentType) (fun _ => HttpTold)
      fun _ => HttpTold := by
  have hcontent : Triple Calm (call (.content agent)) (fun _ => HttpTold) fun _ => HttpTold := by
    refine triple_ask fun r v log h => ?_
    obtain ⟨hrefuses, hdials, -⟩ := any_calm h.2.2
    unfold HttpTold Uneven
    rw [gap_concat, h.2.1, List.any_append, List.any_append, hrefuses, hdials]
    simp [mark, Call.recordsError, Call.countsError, refuses, dialsError]
  refine Triple.seq (R := fun _ => HttpTold) (Triple.seq hcontent fun _ => keeps_lift)
    fun content => ?_
  refine Keeps.seq (call_told rfl) fun _ => ?_
  refine Triple.seq (R := fun _ => HttpTold) (triple_only_if ?_ fun _ _ _ h => h) fun _ => ?_
  · intro habove
    exact absurd (of_decide_eq_true habove) hstatus
  · exact Keeps.seq (or_raise_calm (call_told rfl)) fun _ => keeps_pure

/-- A stream that is refused. -/
theorem pool_full_told :
    Triple (Gap 0) (poolFullResponse agent) (fun _ => HttpTold) fun _ => HttpTold := by
  refine Triple.seq (call_gap rfl) fun _ => Triple.seq record_error_told fun _ => ?_
  exact keeps_pure

/-- A candidate is tried: a response ends the request. -/
abbrev Answers {α : Type} : Option α → Assertion Call Call.Answer Locals
  | some _ => HttpTold
  | none => Calm

theorem add_error_calm {reason : String} : Keeps Calm (addError agent reason) :=
  keeps_modify fun _ _ h => h

/-- The answer of the dial is calm unless it is an error that will be relayed. -/
def CalmDial (agent : Agent) (path : String) (body : Fields) :
    Option Upstream → Assertion Call Call.Answer Locals
  | some upstream =>
      if dialsError ⟨.dialStream agent path body, .ok (some upstream)⟩ then Faulty else Calm
  | none => Calm

/-- A call that raises is calm. -/
def OrCalm {α : Type} (R : α → Assertion Call Call.Answer Locals) :
    Except Unit α → Assertion Call Call.Answer Locals
  | .ok a => R a
  | .error _ => Calm

/-- One streaming attempt. -/
theorem stream_from_answers :
    Triple Calm (streamFrom settings agent path body relay) Answers fun _ => HttpTold := by
  refine Triple.seq (R := CalmDial agent path body)
    (Triple.seq (R := OrCalm (CalmDial agent path body)) ?_ fun r => ?_) fun dialled => ?_
  · refine triple_ask fun r v log h => ?_
    obtain ⟨hrefuses, hdials, hreads⟩ := any_calm h.2.2
    have hgap : gap Call.recordsError Call.countsError
        (log ++ [⟨.dialStream agent path body, r⟩]) = 0 := by
      rw [gap_concat, h.2.1]
      rfl
    have hcalm : dialsError ⟨.dialStream agent path body, r⟩ = false →
        Calm v (log ++ [⟨.dialStream agent path body, r⟩]) := fun hdial =>
      ⟨trivial, hgap, quiet_concat (k := IsCalm) ⟨rfl, hdial, rfl⟩ h.2.2⟩
    cases r with
    | error e => exact hcalm rfl
    | ok dialled =>
        cases dialled with
        | none => exact hcalm rfl
        | some upstream =>
            unfold OrCalm CalmDial
            dsimp only
            split
            · rename_i hdial
              refine ⟨hgap, ?_, ?_, ?_⟩
              · rw [List.any_append, hrefuses]
                rfl
              · rw [List.any_append, List.any_cons, hdial, Bool.true_or, Bool.or_true]
              · rw [List.any_append, hreads]
                rfl
            · rename_i hdial
              exact hcalm (Bool.eq_false_iff.mpr hdial)
  · refine triple_lift ?_ ?_
    · rintro dialled v log rfl h
      cases dialled with
      | none => exact h
      | some upstream => exact h
    · rintro e v log rfl h
      exact told_of_calm h
  cases dialled with
  | none =>
      refine Triple.seq (raise_told add_error_calm) fun _ => ?_
      exact triple_pure fun _ _ h => h
  | some upstream =>
      unfold CalmDial
      dsimp only
      by_cases hstatus : upstream.status ∈ FAILOVER_STATUSES
      · have hcalm : dialsError ⟨.dialStream agent path body, .ok (some upstream)⟩ = false := by
          simp [dialsError, hstatus]
        rw [hcalm, if_neg Bool.false_ne_true, if_pos hstatus]
        refine Triple.seq (raise_told (call_calm rfl)) fun _ => ?_
        refine Triple.seq (raise_told add_error_calm) fun _ => ?_
        exact triple_pure fun _ _ h => h
      rw [if_neg hstatus]
      cases hstream : isEventStream (upstream.contentType.getD "").toLower with
      | true =>
          have hcalm : dialsError ⟨.dialStream agent path body, .ok (some upstream)⟩ = false := by
            simp [dialsError, hstream]
          rw [hcalm, if_neg Bool.false_ne_true, if_pos rfl]
          refine Triple.seq (raise_told (call_calm rfl)) fun _ => ?_
          -- A slot that is not granted makes the request uneven.
          refine Triple.seq (R := fun granted => if granted then Calm else Gap 0)
            (Triple.seq (R := OrCalm fun granted => if granted then Calm else Gap 0) ?_
              fun r => triple_lift ?_ ?_) fun granted => ?_
          · refine triple_ask fun r v log h => ?_
            have hgap : gap Call.recordsError Call.countsError (log ++ [⟨.tryAcquire, r⟩]) = 0 := by
              rw [gap_concat, h.2.1]
              rfl
            cases r with
            | error e =>
                exact ⟨trivial, hgap, quiet_concat (k := IsCalm) ⟨rfl, rfl, rfl⟩ h.2.2⟩
            | ok granted =>
                cases granted with
                | true =>
                    exact ⟨trivial, hgap, quiet_concat (k := IsCalm) ⟨rfl, rfl, rfl⟩ h.2.2⟩
                | false =>
                    refine ⟨hgap, Or.inl ?_⟩
                    rw [List.any_append]
                    simp [refuses]
          · rintro granted v log rfl h
            exact h
          · rintro e v log rfl h
            exact told_of_calm h
          · cases granted with
            | true =>
                rw [if_pos rfl, if_pos rfl]
                refine Triple.seq (raise_told (keeps_modify fun _ _ h => h)) fun _ => ?_
                refine Triple.seq (end_told stream_response_calm) fun response => ?_
                exact triple_pure fun _ _ h => h
            | false =>
                rw [if_neg Bool.false_ne_true, if_neg Bool.false_ne_true]
                refine Triple.seq pool_full_told fun response => ?_
                exact triple_pure fun _ _ h => h
      | false =>
          rw [if_neg Bool.false_ne_true]
          by_cases herror : 400 ≤ upstream.status
          · have hfaulty : dialsError ⟨.dialStream agent path body,
              .ok (some upstream)⟩ = true := by
              simp [dialsError, hstatus, hstream, herror]
            rw [if_pos hfaulty]
            refine Triple.seq (R := fun _ => Faulty) ?_ fun _ =>
              Triple.seq (relayed_error_told herror) fun response => triple_pure fun _ _ h => h
            refine triple_ask fun r v log h => ?_
            obtain ⟨hgap, hrefuses, hdials, hreads⟩ := h
            refine ⟨?_, ?_, ?_, ?_⟩
            · rw [gap_concat, hgap]
              rfl
            · rw [List.any_append, hrefuses]
              rfl
            · rw [List.any_append, hdials, Bool.true_or]
            · rw [List.any_append, hreads]
              rfl
          · have hcalm : dialsError ⟨.dialStream agent path body, .ok (some upstream)⟩ = false := by
              simp [dialsError, herror]
            rw [hcalm, if_neg Bool.false_ne_true]
            refine Triple.seq (raise_told (call_calm rfl)) fun _ => ?_
            refine Triple.seq (relayed_answer_told herror) fun response => ?_
            exact triple_pure fun _ _ h => h

variable [JsonReader]

theorem record_answer_calm {answered : Answered} :
    Keeps Calm (recordAnswer agent relay answered) := by
  unfold recordAnswer
  split
  · refine Keeps.seq keeps_lift fun usage => ?_
    split
    · exact keeps_pure
    · exact Keeps.seq (call_calm rfl) fun _ => Keeps.only_if (call_calm rfl)
  · exact both_count_calm

omit [JsonReader] in
theorem try_stream_answers :
    Triple Calm (tryStream settings path body relay agent) Answers fun _ => HttpTold := by
  refine Triple.seq stream_from_answers fun response => ?_
  cases response with
  | some response =>
      refine Triple.seq (triple_modify (Q := fun _ => HttpTold) fun _ _ h => h) fun _ => ?_
      exact triple_pure fun _ _ h => h
  | none =>
      refine Triple.seq (raise_told (call_calm rfl)) fun _ => ?_
      exact triple_pure fun _ _ h => h

theorem try_whole_answers :
    Triple Calm (tryWhole settings path body relay agent) Answers fun _ => HttpTold := by
  refine Triple.seq (raise_told (call_calm rfl)) fun _ => ?_
  refine Triple.seq (raise_told (Triple.ensuring (S := fun _ => Calm) (F := fun _ => Calm)
    (or_raise_calm (call_calm rfl)) (fun _ => call_calm rfl) fun _ => call_calm rfl)) fun answer =>
      ?_
  split
  · refine Triple.seq (raise_told (call_calm rfl)) fun _ => ?_
    refine Triple.seq (raise_told add_error_calm) fun _ => ?_
    exact triple_pure fun _ _ h => h
  · split
    · refine Triple.seq (raise_told (call_calm rfl)) fun _ => ?_
      refine Triple.seq (raise_told add_error_calm) fun _ => ?_
      exact triple_pure fun _ _ h => h
    · refine Triple.seq (raise_told (call_calm rfl)) fun _ => ?_
      refine Triple.seq (end_told record_answer_calm) fun _ => ?_
      refine Triple.seq (or_raise_calm (call_told rfl)) fun _ => ?_
      exact triple_pure fun _ _ h => h

theorem serve_candidates_told {wantsStream : Bool} :
    Triple Calm (serveCandidates settings inbound path body wantsStream relay)
      (fun _ => HttpTold) fun _ => HttpTold := by
  refine Triple.seq (raise_told (or_raise_calm (call_calm rfl))) fun cands => ?_
  refine Triple.seq (raise_told (Keeps.only_if (call_calm rfl))) fun _ => ?_
  refine Triple.seq (R := Answers) ?_ fun found => ?_
  · refine (triple_first_some (I := fun _ => Calm) (Q := fun _ => HttpTold) ?_).conseq
      (fun _ _ h => h) ?_ fun _ _ _ h => h
    · intro agent rest
      refine Triple.conseq (Q := Answers) (E := fun _ => HttpTold) ?_ (fun _ _ h => h) ?_
        fun _ _ _ h => h
      · split
        · exact try_stream_answers
        · exact try_whole_answers
      · intro r v log h
        cases r with
        | some response => exact h
        | none => exact h
    · intro r v log h
      cases r with
      | some response => exact h
      | none => exact h
  · cases found with
    | some response => exact triple_pure fun _ _ h => h
    | none =>
        refine Triple.seq (ask_marked 1 (fun _ => rfl) fun _ => ⟨rfl, rfl, rfl⟩) fun _ => ?_
        refine Triple.seq (R := fun _ => Calm) ?_ fun _ => ?_
        · refine (ask_marked (-1) (fun _ => ?_) fun _ => ⟨rfl, rfl, rfl⟩).conseq (fun _ _ h => h) ?_
            fun _ _ _ h => h
          · simp [mark, Call.recordsError, Call.countsError]
          · exact fun _ _ _ h => h
        · refine end_told (Keeps.seq keeps_get fun v => ?_)
          split
          · exact keeps_pure
          · exact keeps_pure

/-- A request up to its response. -/
theorem handle_completion_told {provider : Option String} :
    Triple Calm (handleCompletion settings inbound sub provider) (fun _ => HttpTold)
      fun _ => HttpTold := by
  unfold handleCompletion
  split
  · split
    · exact end_told keeps_pure
    · dsimp only
      refine Triple.seq (R := fun _ => Calm) ?_ fun provider => ?_
      · cases provider with
        | some provider => exact raise_told keeps_pure
        | none => exact raise_told (or_raise_calm (call_calm rfl))
      unfold completeWith
      split
      · refine Triple.seq (raise_told (call_calm rfl)) fun _ => ?_
        refine Triple.ensuring serve_candidates_told (fun _ => ?_) fun _ => ?_
        · exact Keeps.seq keeps_get fun _ => Keeps.only_if (call_told rfl)
        · exact Keeps.seq keeps_get fun _ => Keeps.only_if (call_told rfl)
      · exact triple_raise fun _ _ h => told_of_calm h
  · exact end_told keeps_pure

section Closing

variable {stream : StreamBody} {reading : Reading}

omit [JsonReader] in
theorem callbacks_told (callbacks : List Callback) :
    Keeps HttpTold (Proc.forEach runCallback callbacks) := by
  refine triple_for_each (I := fun _ => HttpTold) fun callback _ => ?_
  cases callback with
  | release => exact call_told rfl
  | endAgent agentId => exact call_told rfl
  | endClient client => exact call_told rfl

theorem finish_body_told {tap : Tap} : Keeps HttpTold (finishBody stream tap) := by
  unfold finishBody
  split
  · exact keeps_raise
  · rename_i usage _
    cases usage with
    | none => exact keeps_pure
    | some tokens => exact Keeps.seq (Keeps.only_if (call_told rfl)) fun _ => call_told rfl

theorem read_stream_told : Keeps HttpTold (readStream stream reading) := by
  cases reading with
  | finished pieces => exact Keeps.catch finish_body_told fun _ => keeps_pure
  | unread => exact keeps_pure
  | left pieces => exact keeps_pure

theorem close_body_told : Keeps HttpTold (closeBody stream reading) := by
  cases reading with
  | unread => exact keeps_pure
  | finished pieces => exact keeps_pure
  | left pieces =>
      unfold closeBody
      dsimp only
      split
      · exact finish_body_told
      · exact keeps_pure

theorem exchange_told {provider : Option String} :
    Triple Calm (exchange settings inbound sub provider) (fun _ => HttpTold) fun _ => HttpTold := by
  refine Triple.seq handle_completion_told fun response => ?_
  split
  · refine Keeps.seq (call_told rfl) fun reading => Keeps.seq read_stream_told fun _ => ?_
    refine Keeps.seq (Keeps.seq close_body_told fun _ => callbacks_told _) fun _ => keeps_pure
  · exact Keeps.seq (callbacks_told _) fun _ => keeps_pure

end Closing

end Http

section Agreement

theorem of_ends {Op : Type} {Res : Op → Type} {σ ε α : Type} {W W' : Assertion Op Res σ}
    {p : Proc Op Res σ ε α} (h : Triple W p (fun _ => W') fun _ => W') {v : σ} (hv : W v [])
    {log : Log Op Res} {out : Except ε α × σ} (hrun : (p v).Runs log out) : ∃ v', W' v' log := by
  obtain ⟨result, v'⟩ := out
  have hends := h v [] hv log _ hrun
  cases result with
  | ok a => exact ⟨v', hends⟩
  | error e => exact ⟨v', hends⟩

theorem even_nil {v : InLocals} : Even (fun _ => True) v [] := ⟨trivial, rfl, fun _ h => nomatch h⟩

end Agreement

section Runs

attribute [local instance] utf8Reader

/-- The answers to a request for a stream when no slot is free. -/
def refused : (c : Call) → c.Answer
  | .tryAcquire => .ok false
  | c => streamedBy .unread c

end Runs

end SystemsManager.Gateway
