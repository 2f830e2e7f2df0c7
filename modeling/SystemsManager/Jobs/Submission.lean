import SystemsManager.Jobs.Workers

/-!
# Submission order and statuses

`Sys.earlier` is the list of jobs that were submitted before a job; it is fixed once the job is
in the ledger (`earlier_step`), and of two jobs one is earlier than the other
(`earlier_total`). `status_step` says once which operations change the status of which job.
-/

namespace SystemsManager.Jobs

open Python Concurrency

variable {W : World}

/-- The jobs that were submitted before this one. -/
def Sys.earlier (s : Sys W) (id : String) : List String :=
  (s.ids.dropWhile fun other => other != id).tail

theorem Sys.earlier_subset {s : Sys W} {id x : String} (h : x ∈ s.earlier id) : x ∈ s.ids :=
  (List.dropWhile_suffix _).subset (List.mem_of_mem_tail h)

theorem earlier_total {s : Sys W} {x y : String} (hx : x ∈ s.ids) (hy : y ∈ s.ids)
    (hne : x ≠ y) : x ∈ s.earlier y ∨ y ∈ s.earlier x := by
  unfold Sys.earlier
  generalize s.ids = ids at hx hy ⊢
  induction ids with
  | nil => cases hx
  | cons first rest ih =>
      by_cases hfirst : first = x
      · subst hfirst
        right
        have hmem : y ∈ rest := (List.mem_cons.mp hy).resolve_left (Ne.symm hne)
        simpa using hmem
      · by_cases hsecond : first = y
        · subst hsecond
          left
          have hmem : x ∈ rest := (List.mem_cons.mp hx).resolve_left hne
          simpa using hmem
        · have hx' := (List.mem_cons.mp hx).resolve_left (Ne.symm hfirst)
          have hy' := (List.mem_cons.mp hy).resolve_left (Ne.symm hsecond)
          simpa [hfirst, hsecond] using ih hx' hy'

/-- An operation issues at most one new id. -/
theorem ids_step {s s' : Sys W} {t : Tid} {op : Op W} {a : Ans W op} {r : Res W op}
    (hexec : exec t op a s = some (r, s')) :
    s'.ids = s.ids ∨ ∃ id, id ∉ s.ids ∧ s'.ids = id :: s.ids := by
  cases op with
  | get site id =>
      cases site with
      | after =>
          cases hexec
          exact .inl rfl
      | other =>
          cases hexec
          exact .inl rfl
  | update site id only set =>
      simp only [exec, Sys.update, Option.some.injEq] at hexec
      split at hexec
      · cases hexec
        exact .inl rfl
      · cases hexec
        left
        split
        · exact Sys.write_ids ..
        · exact Sys.write_ids ..
  | insert row =>
      simp only [exec] at hexec
      split at hexec
      · cases hexec
      · rename_i hid
        cases hexec
        exact .inr ⟨_, hid, rfl⟩
  | sweepDue now =>
      simp only [exec] at hexec
      split at hexec
      · cases hexec
        exact .inl rfl
      · cases hexec
        exact .inl rfl
  | cancelRow id now message =>
      simp only [exec] at hexec
      split at hexec
      · cases hexec
        exact .inl rfl
      · cases hexec
        exact .inl (Sys.write_ids ..)
  | ackRow id now =>
      simp only [exec] at hexec
      split at hexec
      · cases hexec
        exact .inl rfl
      · split at hexec
        · cases hexec
          exact .inl rfl
        · cases hexec
          exact .inl (Sys.write_ids ..)
  | setState id state =>
      simp only [exec] at hexec
      split at hexec
      · cases hexec
        exact .inl rfl
      · cases hexec
        exact .inl (Sys.write_ids ..)
  | annotate id message =>
      simp only [exec] at hexec
      split at hexec
      · cases hexec
        exact .inl rfl
      · cases hexec
        exact .inl (Sys.write_ids ..)
  | startThread ref =>
      simp only [exec] at hexec
      split at hexec
      · cases hexec
        exact .inl rfl
      · cases hexec
  | never => cases hexec
  | _ =>
      cases hexec
      exact .inl rfl

theorem earlier_step {s s' : Sys W} {t : Tid} {op : Op W} {a : Ans W op} {r : Res W op}
    (hexec : exec t op a s = some (r, s')) {id : String} (hid : id ∈ s.ids) :
    s'.earlier id = s.earlier id := by
  unfold Sys.earlier
  rcases ids_step hexec with hids | ⟨new, hnew, hids⟩
  · rw [hids]
  · have hne : new ≠ id := fun heq => hnew (heq ▸ hid)
    rw [hids, List.dropWhile_cons_of_pos (by simpa using hne)]

/-- The operation may change the status of the job. -/
def Op.restates (id : String) : Op W → Bool
  | .update .claim id' _ _ => id' == id
  | .update (.outcome _) id' _ _ => id' == id
  | .update .failed id' _ _ => id' == id
  | .update .requeue id' _ _ => id' == id
  | .cancelRow id' _ _ => id' == id
  | _ => false

/-- What an operation does to the status of a job: nothing, unless the job is new, the operation
is about it, or it is over and swept. -/
theorem status_step {s s' : Sys W} {t : Tid} {op : Op W} {a : Ans W op} {r : Res W op}
    (hlawful : Lawful op s s') (hexec : exec t op a s = some (r, s')) (id : String) :
    s'.status id = s.status id ∨ (id ∉ s.ids ∧ s'.status id = some .queued) ∨
      op.restates id = true ∨
      op.sweeps = true ∧ ∃ st, s.status id = some st ∧ st.terminal = true := by
  have hsame : s'.rows = s.rows → s'.status id = s.status id := by
    intro hrows
    rw [Sys.status, hrows, Sys.status]
  have hwrite : ∀ {id' : String} {only : Option (List Status)} {row row' : Row},
      s.rows.matching id' only = some row → (id' = id → row'.status = row.status) →
      (s.write t row row').status id = s.status id := by
    intro id' only row row' hrow hst
    obtain ⟨hget, hid⟩ := hlawful.found hrow
    rw [Sys.write_status hid]
    split
    · rename_i heq
      rw [heq, Sys.status, hget, hst heq.symm]
      rfl
    · rfl
  cases op with
  | get site id' =>
      cases site with
      | after =>
          cases hexec
          exact .inl rfl
      | other =>
          cases hexec
          exact .inl rfl
  | update site id' only set =>
      have hshape : UpdateShape site only set := by
        rcases hlawful.issued with hshape | ⟨hno, -⟩
        · exact hshape
        · cases hno
      by_cases hid : id' = id
      · subst hid
        cases hshape with
        | claim now => exact .inr (.inr (.inl (by simp [Op.restates])))
        | outcome row o now hleads => exact .inr (.inr (.inl (by simp [Op.restates])))
        | failed row message now attempts => exact .inr (.inr (.inl (by simp [Op.restates])))
        | waiting message =>
            left
            simp only [exec, Sys.update, Option.some.injEq] at hexec
            split at hexec
            · cases hexec
              rfl
            · rename_i row hrow
              cases hexec
              exact hwrite hrow fun _ => rfl
        | lease now =>
            left
            simp only [exec, Sys.update, Option.some.injEq] at hexec
            split at hexec
            · cases hexec
              rfl
            · rename_i row hrow
              cases hexec
              exact hwrite hrow fun _ => rfl
      · left
        simp only [exec, Sys.update, Option.some.injEq] at hexec
        split at hexec
        · cases hexec
          rfl
        · rename_i row hrow
          cases hexec
          split
          · exact hwrite hrow fun heq => absurd heq hid
          · exact hwrite hrow fun heq => absurd heq hid
  | insert row =>
      simp only [exec] at hexec
      split at hexec
      · cases hexec
      · rename_i hid
        obtain ⟨k, sub, spec, now, rfl⟩ := hlawful.issued
        cases hexec
        by_cases heq : id = a
        · refine .inr (.inl ⟨heq ▸ hid, ?_⟩)
          simp [Sys.status, Sys.note, heq, Service.newRow]
        · left
          simp [Sys.status, Sys.note, heq]
  | sweep cutoff =>
      cases hexec
      cases hrow : s.rows.get? id with
      | none =>
          left
          simp [Sys.status, Ledger.sweep, hrow]
      | some row =>
          by_cases hterm : row.status.terminal = true
          · exact .inr (.inr (.inr ⟨rfl, row.status, by simp [Sys.status, hrow], hterm⟩))
          · left
            simp [Sys.status, Ledger.sweep, hrow, hterm]
  | sweepDue now =>
      simp only [exec] at hexec
      split at hexec
      · cases hexec
        exact .inl rfl
      · cases hexec
        exact .inl rfl
  | cancelRow id' now message =>
      by_cases hid : id' = id
      · exact .inr (.inr (.inl (by simp [Op.restates, hid])))
      · left
        simp only [exec] at hexec
        split at hexec
        · cases hexec
          rfl
        · rename_i row hrow
          cases hexec
          exact hwrite hrow fun heq => absurd heq hid
  | ackRow id' now =>
      left
      simp only [exec] at hexec
      split at hexec
      · cases hexec
        rfl
      · rename_i row hrow
        split at hexec
        · cases hexec
          rfl
        · cases hexec
          exact hwrite hrow fun _ => rfl
  | setState id' state =>
      left
      simp only [exec] at hexec
      split at hexec
      · cases hexec
        rfl
      · rename_i row hrow
        cases hexec
        exact hwrite hrow fun _ => rfl
  | annotate id' message =>
      left
      simp only [exec] at hexec
      split at hexec
      · cases hexec
        rfl
      · rename_i row hrow
        cases hexec
        exact hwrite hrow fun _ => rfl
  | startThread ref =>
      simp only [exec] at hexec
      split at hexec
      · cases hexec
        exact .inl rfl
      · cases hexec
  | never => cases hexec
  | _ =>
      cases hexec
      exact .inl (hsame rfl)

theorem running_step {s s' : Sys W} {t : Tid} {op : Op W} {a : Ans W op} {r : Res W op}
    (hlawful : Lawful op s s') (hexec : exec t op a s = some (r, s')) {id : String}
    (h : s'.status id = some .running) (hop : ∀ only set, op ≠ .update .claim id only set) :
    s.status id = some .running := by
  rcases status_step hlawful hexec id with hsame | ⟨-, hqueued⟩ | hrestates | ⟨hsweeps, st, hst⟩
  · rwa [hsame] at h
  · rw [hqueued] at h
    cases h
  · cases op with
    | update site id' only set =>
        have hshape : UpdateShape site only set := by
          rcases hlawful.issued with hshape | ⟨hno, -⟩
          · exact hshape
          · cases hno
        have hid : id' = id := by
          cases hshape with
          | waiting message => cases hrestates
          | lease now => cases hrestates
          | claim now => simpa [Op.restates] using hrestates
          | outcome row o now hleads => simpa [Op.restates] using hrestates
          | failed row message now attempts => simpa [Op.restates] using hrestates
        subst hid
        simp only [exec, Sys.update, Option.some.injEq] at hexec
        split at hexec
        · cases hexec
          exact h
        · rename_i row hrow
          obtain ⟨-, hid⟩ := hlawful.found hrow
          have hset : (set row).status = .running := by
            cases hexec
            split at h
            · rename_i hclaim
              subst hclaim
              exact absurd rfl (hop only set)
            · rw [Sys.write_status hid, if_pos rfl] at h
              simpa using h
          cases hshape with
          | waiting message => cases hrestates
          | lease now => cases hrestates
          | claim now => exact absurd rfl (hop _ _)
          | outcome row' o now hleads =>
              rw [outcome_row_status hleads] at hset
              rcases Service.leads_to_cases o row' with hcase | hcase | hcase
              · rw [hcase] at hset
                cases hset
              · rw [hcase] at hset
                cases hset
              · exact absurd hcase hleads
          | failed row' message now attempts => cases hset
    | cancelRow id' now message =>
        have hid : id' = id := by simpa [Op.restates] using hrestates
        subst hid
        simp only [exec] at hexec
        split at hexec
        · cases hexec
          exact h
        · rename_i row hrow
          obtain ⟨-, hid⟩ := hlawful.found hrow
          cases hexec
          rw [Sys.write_status hid, if_pos rfl] at h
          cases h
    | _ => cases hrestates
  · cases op with
    | sweep cutoff =>
        cases hexec
        simp only [Sys.status, Ledger.sweep, Dict.get?_filter, Option.map_eq_some_iff,
          Option.filter_eq_some_iff] at h ⊢
        obtain ⟨row, ⟨hrow, -⟩, hrunning⟩ := h
        exact ⟨row, hrow, hrunning⟩
    | _ => cases hsweeps

end SystemsManager.Jobs
