import SystemsManager.Jobs.System

/-!
# What an operation can do

The case analysis over the operations, made once for each part of the shared state: `rows_step`
for the ledger, `scope` for the worker table, the phases, the cancel events and the flags, and
`log_step` for the history. What the later modules need of a single operation they read off
these lemmas.
-/

namespace SystemsManager.Jobs

open Python Concurrency

variable {W : World}

theorem Ledger.matching_eq_some {rows : Ledger} {id : String} {only : Option (List Status)}
    {r : Row} : rows.matching id only = some r ↔
      rows.get? id = some r ∧ ∀ sts ∈ only, r.status ∈ sts := by
  unfold Ledger.matching
  rw [Option.filter_eq_some_iff]
  cases only with
  | none => simp
  | some sts => simp

theorem Sys.write_rows (s : Sys W) (t : Tid) (r r' : Row) :
    (s.write t r r').rows = s.rows.set r.id { r' with id := r.id } := by
  unfold Sys.write
  dsimp only
  split
  · rfl
  · rfl

theorem Sys.write_ids (s : Sys W) (t : Tid) (r r' : Row) : (s.write t r r').ids = s.ids := by
  unfold Sys.write
  dsimp only
  split
  · rfl
  · rfl

theorem Sys.write_same (s : Sys W) (t : Tid) (r r' : Row) :
    (s.write t r r').workers = s.workers ∧ (s.write t r r').phase = s.phase ∧
      (s.write t r r').nextRef = s.nextRef ∧ (s.write t r r').cancelOf = s.cancelOf ∧
      (s.write t r r').flag = s.flag := by
  unfold Sys.write
  dsimp only
  split
  · exact ⟨rfl, rfl, rfl, rfl, rfl⟩
  · exact ⟨rfl, rfl, rfl, rfl, rfl⟩

theorem Sys.write_log (s : Sys W) (t : Tid) (r r' : Row) :
    (s.write t r r').log = s.log ++
      if (!r.status.terminal && r'.status.terminal) = true
      then [(t, Event.ended { r' with id := r.id })] else [] := by
  unfold Sys.write
  dsimp only
  split
  · rfl
  · simp

/-- The operation sweeps the ledger. -/
def Op.sweeps : Op W → Bool
  | .sweep _ => true
  | _ => false

/-- What an operation does to the rows: nothing, a write, a submission or a sweep. -/
inductive RowsStep (t : Tid) (op : Op W) (s s' : Sys W) : Prop where
  | same : s'.rows = s.rows → RowsStep t op s s'
  | write (id : String) (old new : Row) : s.rows.get? id = some old →
      s'.rows = s.rows.set old.id { new with id := old.id } →
      (old.status.terminal = false → new.status.terminal = true →
        (t, Event.ended { new with id := old.id }) ∈ s'.log) → RowsStep t op s s'
  | insert (row : Row) (id : String) : op = .insert row → id ∉ s.ids →
      s'.rows = s.rows.set id { row with id := id } → RowsStep t op s s'
  | sweep (cutoff : ℚ) : op = .sweep cutoff → s'.rows = s.rows.sweep cutoff →
      RowsStep t op s s'

/-- Every operation does one of these. -/
theorem rows_step {s s' : Sys W} {t : Tid} {op : Op W} {a : Ans W op} {r : Res W op}
    (hexec : exec t op a s = some (r, s')) : RowsStep t op s s' := by
  have hended : ∀ old new : Row, old.status.terminal = false → new.status.terminal = true →
      (t, Event.ended { new with id := old.id }) ∈ (s.write t old new).log := by
    intro old new hold hnew
    rw [Sys.write_log, if_pos (by simp [hold, hnew])]
    exact List.mem_append_right _ (List.mem_singleton_self _)
  have hwrite : ∀ {id : String} {only : Option (List Status)} {old new : Row} {op : Op W},
      s.rows.matching id only = some old → RowsStep t op s (s.write t old new) :=
    fun {id only old new op} hold => .write id old new (Ledger.matching_eq_some.mp hold).1
      (Sys.write_rows s t old new) (hended old new)
  cases op with
  | get site id =>
      cases site with
      | after =>
          cases hexec
          exact .same rfl
      | other =>
          cases hexec
          exact .same rfl
  | update site id only set =>
      simp only [exec, Sys.update, Option.some.injEq] at hexec
      split at hexec
      · cases hexec
        exact .same rfl
      · rename_i row hrow
        cases hexec
        split
        · exact .write id row (set row) (Ledger.matching_eq_some.mp hrow).1
            (Sys.write_rows s t row (set row))
            fun hold hnew => List.mem_append_left _ (hended row (set row) hold hnew)
        · exact hwrite hrow
  | insert row =>
      simp only [exec] at hexec
      split at hexec
      · cases hexec
      · rename_i hid
        cases hexec
        exact .insert row _ rfl hid rfl
  | sweep cutoff =>
      cases hexec
      exact .sweep cutoff rfl rfl
  | sweepDue now =>
      simp only [exec] at hexec
      split at hexec
      · cases hexec
        exact .same rfl
      · cases hexec
        exact .same rfl
  | cancelRow id now message =>
      simp only [exec] at hexec
      split at hexec
      · cases hexec
        exact .same rfl
      · rename_i row hrow
        cases hexec
        exact hwrite hrow
  | ackRow id now =>
      simp only [exec] at hexec
      split at hexec
      · cases hexec
        exact .same rfl
      · rename_i row hrow
        split at hexec
        · cases hexec
          exact .same rfl
        · cases hexec
          exact hwrite hrow
  | setState id state =>
      simp only [exec] at hexec
      split at hexec
      · cases hexec
        exact .same rfl
      · rename_i row hrow
        cases hexec
        exact hwrite hrow
  | annotate id message =>
      simp only [exec] at hexec
      split at hexec
      · cases hexec
        exact .same rfl
      · rename_i row hrow
        cases hexec
        exact hwrite hrow
  | startThread ref =>
      simp only [exec] at hexec
      split at hexec
      · cases hexec
        exact .same rfl
      · cases hexec
  | never => cases hexec
  | _ =>
      cases hexec
      exact .same rfl

theorem RowsStep.stays {t : Tid} {op : Op W} {s s' : Sys W} (h : RowsStep t op s s')
    (hsweeps : op.sweeps = false) {id : String} (hid : (s.rows.get? id).isSome = true) :
    (s'.rows.get? id).isSome = true := by
  cases h with
  | same hrows => rwa [hrows]
  | write other old new hold hrows hended =>
      rw [hrows, Dict.get?_set]
      split
      · rfl
      · exact hid
  | insert row other hop hother hrows =>
      rw [hrows, Dict.get?_set]
      split
      · rfl
      · exact hid
  | sweep cutoff hop hrows =>
      rw [hop] at hsweeps
      cases hsweeps

/-- The operation moves a thread from one phase to another. -/
def Op.moves : Op W → Bool
  | .putWorker _ _ _ => true
  | .startThread _ => true
  | .enter _ _ => true
  | .leave _ _ => true
  | _ => false

/-- The operation changes the worker table. -/
def Op.lists : Op W → Bool
  | .putWorker _ _ _ => true
  | .reapDead => true
  | _ => false

/-- The operation changes the registry of cancel events. -/
def Op.registers : Op W → Bool
  | .register _ => true
  | .forget _ => true
  | _ => false

/-- Which parts of the state an operation leaves alone. -/
structure Scope (op : Op W) (s s' : Sys W) : Prop where
  phase : op.moves = false → s'.phase = s.phase
  workers : op.lists = false → s'.workers = s.workers
  cancelOf : op.registers = false → s'.cancelOf = s.cancelOf
  next : op.registers = false → s'.nextRef = s.nextRef
  flag : ∀ ref, s.flag ref = true → s'.flag ref = true

theorem scope_write (op : Op W) (s : Sys W) (t : Tid) (r r' : Row) :
    Scope op s (s.write t r r') := by
  obtain ⟨hworkers, hphase, hnext, hcancel, hflag⟩ := s.write_same t r r'
  exact ⟨fun _ => hphase, fun _ => hworkers, fun _ => hcancel, fun _ => hnext,
    fun ref href => by rwa [hflag]⟩

/-- Every operation keeps to its scope. -/
theorem scope {s s' : Sys W} {t : Tid} {op : Op W} {a : Ans W op} {r : Res W op}
    (hexec : exec t op a s = some (r, s')) : Scope op s s' := by
  have hsame : ∀ op : Op W, Scope op s s :=
    fun _ => ⟨fun _ => rfl, fun _ => rfl, fun _ => rfl, fun _ => rfl, fun _ h => h⟩
  cases op with
  | get site id =>
      cases site with
      | after =>
          cases hexec
          exact ⟨fun _ => rfl, fun _ => rfl, fun _ => rfl, fun _ => rfl, fun _ h => h⟩
      | other =>
          cases hexec
          exact hsame _
  | update site id only set =>
      simp only [exec, Sys.update, Option.some.injEq] at hexec
      split at hexec
      · cases hexec
        exact hsame _
      · rename_i row hrow
        cases hexec
        have hwrite := scope_write (.update site id only set) s t row (set row)
        split
        · exact ⟨hwrite.phase, hwrite.workers, hwrite.cancelOf, hwrite.next, hwrite.flag⟩
        · exact hwrite
  | insert row =>
      simp only [exec] at hexec
      split at hexec
      · cases hexec
      · cases hexec
        exact ⟨fun _ => rfl, fun _ => rfl, fun _ => rfl, fun _ => rfl, fun _ h => h⟩
  | sweepDue now =>
      simp only [exec] at hexec
      split at hexec
      · cases hexec
        exact ⟨fun _ => rfl, fun _ => rfl, fun _ => rfl, fun _ => rfl, fun _ h => h⟩
      · cases hexec
        exact hsame _
  | cancelRow id now message =>
      simp only [exec] at hexec
      split at hexec
      · cases hexec
        exact hsame _
      · cases hexec
        exact scope_write _ _ _ _ _
  | ackRow id now =>
      simp only [exec] at hexec
      split at hexec
      · cases hexec
        exact hsame _
      · split at hexec
        · cases hexec
          exact hsame _
        · cases hexec
          exact scope_write _ _ _ _ _
  | setState id state =>
      simp only [exec] at hexec
      split at hexec
      · cases hexec
        exact hsame _
      · cases hexec
        exact scope_write _ _ _ _ _
  | annotate id message =>
      simp only [exec] at hexec
      split at hexec
      · cases hexec
        exact hsame _
      · cases hexec
        exact scope_write _ _ _ _ _
  | startThread ref =>
      simp only [exec] at hexec
      split at hexec
      · cases hexec
        exact ⟨(fun h => nomatch h), fun _ => rfl, fun _ => rfl, fun _ => rfl, fun _ h => h⟩
      · cases hexec
  | setFlag ref =>
      cases hexec
      refine ⟨fun _ => rfl, fun _ => rfl, fun _ => rfl, fun _ => rfl, ?_⟩
      intro ref' href'
      by_cases heq : ref' = ref
      · simp [heq]
      · simpa [Function.update_of_ne heq] using href'
  | register id =>
      cases hexec
      exact ⟨fun _ => rfl, fun _ => rfl, (fun h => nomatch h), (fun h => nomatch h), fun _ h => h⟩
  | forget id =>
      cases hexec
      exact ⟨fun _ => rfl, fun _ => rfl, (fun h => nomatch h), (fun h => nomatch h), fun _ h => h⟩
  | putWorker id ref row =>
      cases hexec
      exact ⟨(fun h => nomatch h), (fun h => nomatch h), fun _ => rfl, fun _ => rfl, fun _ h => h⟩
  | reapDead =>
      cases hexec
      exact ⟨fun _ => rfl, (fun h => nomatch h), fun _ => rfl, fun _ => rfl, fun _ h => h⟩
  | enter ref row =>
      cases hexec
      exact ⟨(fun h => nomatch h), fun _ => rfl, fun _ => rfl, fun _ => rfl, fun _ h => h⟩
  | leave ref outcome =>
      cases hexec
      exact ⟨(fun h => nomatch h), fun _ => rfl, fun _ => rfl, fun _ => rfl, fun _ h => h⟩
  | never => cases hexec
  | _ =>
      cases hexec
      exact ⟨fun _ => rfl, fun _ => rfl, fun _ => rfl, fun _ => rfl, fun _ h => h⟩

/-- The operation may add the event to the history. -/
def Op.Notes (op : Op W) : Event W → Prop
  | .claimed id => ∃ only set, op = .update .claim id only set
  | .registered id _ => op = .register id
  | .entered row => ∃ ref, op = .enter ref row
  | .reread id => op = .get .after id
  | .ended _ => True
  | .hooked name row _ => op = .hook name row
  | .returned id => op = .returned id
  | .submitted _ => ∃ row, op = .insert row
  | .ext e _ => op = .ext e

/-- The history grows by events of the operation, under the name of its thread. -/
theorem log_step {s s' : Sys W} {t : Tid} {op : Op W} {a : Ans W op} {r : Res W op}
    (hexec : exec t op a s = some (r, s')) :
    ∃ new, s'.log = s.log ++ new ∧ ∀ u e, (u, e) ∈ new → u = t ∧ op.Notes e := by
  have hsame : s'.log = s.log → ∃ new, s'.log = s.log ++ new ∧
      ∀ u e, (u, e) ∈ new → u = t ∧ op.Notes e := fun h => ⟨[], by simp [h], by simp⟩
  have hone : ∀ e : Event W, s'.log = s.log ++ [(t, e)] → op.Notes e →
      ∃ new, s'.log = s.log ++ new ∧ ∀ u e, (u, e) ∈ new → u = t ∧ op.Notes e := by
    intro e h he
    refine ⟨_, h, ?_⟩
    intro u e' hmem
    rw [List.mem_singleton] at hmem
    cases hmem
    exact ⟨rfl, he⟩
  have hwrite : ∀ row row' : Row, ∃ new, (s.write t row row').log = s.log ++ new ∧
      ∀ u e, (u, e) ∈ new → u = t ∧ ∃ r, e = .ended r := by
    intro row row'
    rw [Sys.write_log]
    refine ⟨_, rfl, ?_⟩
    intro u e hmem
    split at hmem
    · rw [List.mem_singleton] at hmem
      cases hmem
      exact ⟨rfl, _, rfl⟩
    · cases hmem
  have hended : ∀ row row' : Row, s' = s.write t row row' →
      ∃ new, s'.log = s.log ++ new ∧ ∀ u e, (u, e) ∈ new → u = t ∧ op.Notes e := by
    rintro row row' rfl
    obtain ⟨new, hlog, hnew⟩ := hwrite row row'
    refine ⟨new, hlog, ?_⟩
    intro u e hmem
    obtain ⟨hu, r, rfl⟩ := hnew u e hmem
    exact ⟨hu, trivial⟩
  cases op with
  | get site id =>
      cases site with
      | after =>
          cases hexec
          exact hone _ rfl rfl
      | other =>
          cases hexec
          exact hsame rfl
  | update site id only set =>
      simp only [exec, Sys.update, Option.some.injEq] at hexec
      split at hexec
      · cases hexec
        exact hsame rfl
      · rename_i row hrow
        by_cases hclaim : site = .claim
        · simp only [hclaim, if_true] at hexec
          cases hexec
          obtain ⟨new, hlog, hnew⟩ := hwrite row (set row)
          refine ⟨new ++ [(t, .claimed id)], by simp [Sys.note, hlog], ?_⟩
          intro u e hmem
          rcases List.mem_append.mp hmem with hmem | hmem
          · obtain ⟨hu, r, rfl⟩ := hnew u e hmem
            exact ⟨hu, trivial⟩
          · rw [List.mem_singleton] at hmem
            cases hmem
            exact ⟨rfl, only, set, by rw [hclaim]⟩
        · simp only [hclaim, if_false] at hexec
          cases hexec
          exact hended _ _ rfl
  | insert row =>
      simp only [exec] at hexec
      split at hexec
      · cases hexec
      · cases hexec
        exact hone _ rfl ⟨row, rfl⟩
  | sweepDue now =>
      simp only [exec] at hexec
      split at hexec
      · cases hexec
        exact hsame rfl
      · cases hexec
        exact hsame rfl
  | cancelRow id now message =>
      simp only [exec] at hexec
      split at hexec
      · cases hexec
        exact hsame rfl
      · cases hexec
        exact hended _ _ rfl
  | ackRow id now =>
      simp only [exec] at hexec
      split at hexec
      · cases hexec
        exact hsame rfl
      · split at hexec
        · cases hexec
          exact hsame rfl
        · cases hexec
          exact hended _ _ rfl
  | setState id state =>
      simp only [exec] at hexec
      split at hexec
      · cases hexec
        exact hsame rfl
      · cases hexec
        exact hended _ _ rfl
  | annotate id message =>
      simp only [exec] at hexec
      split at hexec
      · cases hexec
        exact hsame rfl
      · cases hexec
        exact hended _ _ rfl
  | register id =>
      cases hexec
      exact hone _ rfl rfl
  | startThread ref =>
      simp only [exec] at hexec
      split at hexec
      · cases hexec
        exact hsame rfl
      · cases hexec
  | enter ref row =>
      cases hexec
      exact hone _ rfl ⟨ref, rfl⟩
  | hook name row =>
      cases hexec
      exact hone _ rfl rfl
  | returned id =>
      cases hexec
      exact hone _ rfl rfl
  | ext e =>
      cases hexec
      exact hone _ rfl rfl
  | never => cases hexec
  | _ =>
      cases hexec
      exact hsame rfl

end SystemsManager.Jobs
