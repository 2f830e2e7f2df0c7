import SystemsManager.Forecast.Operations

/-!
# A dismissed finding stays dismissed

`merge` opens a dismissed finding again when its severity rises above the one in the table, which
every report overwrites, and the sweep deletes it ninety days after its dismissal. `dismissed_stays`
is the theorem to read: as long as no report is above the one before it and the ninety days are not
over, the finding is not opened and not reported as new, whatever else the runs find, wherever the
database fails and whatever is dismissed beside them. In `reopened_by_return` the severity goes down
and comes back.
-/

namespace SystemsManager.Forecast

open Concurrency

section Reports

/-- The severities that a check reports for a fingerprint. -/
def CheckRun.reports (fp : String) (check : CheckRun) : List String :=
  match check.outcome with
  | .ok merged _ _ => (merged.filter fun item => item.1.key == fp).map fun item => item.1.level
  | _ => []

/-- The severities that a run reports for a fingerprint. -/
def RunInput.reports (fp : String) (input : RunInput) : List String :=
  input.checks.flatMap (CheckRun.reports fp)

/-- The severity does not rise from one report to the next. -/
def NoRise (severities : List String) : Prop := severities.IsChain fun a b => rank b ≤ rank a

instance (severities : List String) : Decidable (NoRise severities) := by
  unfold NoRise
  infer_instance

/-- A run reports the finding with no higher severity than it was last reported with. -/
def NotWorse (fp : String) (_ : Thread) (request : Request) (w : World) : Prop :=
  match request with
  | .run input => ∀ row ∈ w.findings.rows, row.fingerprint = fp →
      NoRise (row.severity :: input.reports fp)
  | .dismiss _ _ => True

instance (fp : String) (t : Thread) (request : Request) (w : World) :
    Decidable (NotWorse fp t request w) := by
  unfold NotWorse
  split <;> infer_instance

/-- No run sweeps what was resolved at this time. -/
def InTime (dismissedAt : ℚ) (_ : Thread) (op : Op) (_ _ : World) : Prop :=
  match op with
  | .sweep days now => now - (max 1 days : ℕ) * DAY ≤ dismissedAt
  | _ => True

/-- The finding is not open, and it was not reported as new. -/
def Silent (fp : String) (w : World) : Prop :=
  (∀ row ∈ w.findings.rows, row.fingerprint = fp → row.status ≠ .open) ∧ Event.news fp ∉ w.log

end Reports

section Dormant

/-- The finding is dismissed, and it was not reported as new. -/
structure Dormant (fp : String) (dismissedAt : ℚ) (w : World) : Prop where
  row : ∃ row ∈ w.findings.rows, row.fingerprint = fp ∧ row.status = .dismissed ∧
    row.resolved = some dismissedAt
  news : Event.news fp ∉ w.log

/-- The severity that the finding has in the table. -/
def Level (fp sev : String) (w : World) : Prop :=
  ∀ row ∈ w.findings.rows, row.fingerprint = fp → row.severity = sev

/-- A row keeps what it is about and how it stands. -/
structure SameState (row row' : Row) : Prop where
  fingerprint : row'.fingerprint = row.fingerprint
  status : row'.status = row.status
  resolved : row'.resolved = row.resolved
  severity : row'.severity = row.severity

variable {fp : String} {dismissedAt : ℚ} {w w' : World}

theorem Dormant.dismissed (h : Dormant fp dismissedAt w) {row : Row} (hrow : row ∈ w.findings.rows)
    (hfp : row.fingerprint = fp) : row.status = .dismissed ∧ row.resolved = some dismissedAt := by
  obtain ⟨r, hr, hrfp, hstatus, hresolved⟩ := h.row
  rw [Findings.eq_of_fingerprint hrow hr (hfp.trans hrfp.symm)]
  exact ⟨hstatus, hresolved⟩

theorem Dormant.silent (h : Dormant fp dismissedAt w) : Silent fp w := by
  refine ⟨?_, h.news⟩
  intro row hrow hfp
  rw [(h.dismissed hrow hfp).1]
  decide

theorem Dormant.step (h : Dormant fp dismissedAt w) (hnews : Event.news fp ∉ w'.log)
    (hrows : ∀ row ∈ w.findings.rows, row.fingerprint = fp →
      ∃ row' ∈ w'.findings.rows, SameState row row') :
    Dormant fp dismissedAt w' ∧ ∀ sev, Level fp sev w → Level fp sev w' := by
  obtain ⟨row, hrow, hfp, hstatus, hresolved⟩ := h.row
  obtain ⟨row', hrow', hsame⟩ := hrows row hrow hfp
  refine ⟨⟨⟨row', hrow', hsame.fingerprint.trans hfp, hsame.status.trans hstatus,
    hsame.resolved.trans hresolved⟩, hnews⟩, ?_⟩
  intro sev hlevel r hr hrfp
  rw [Findings.eq_of_fingerprint hr hrow' (hrfp.trans (hsame.fingerprint.trans hfp).symm),
    hsame.severity]
  exact hlevel row hrow hfp

/-- What does not wake the finding: statements on open rows, forgotten alerts, and the merges of
other findings. -/
def Sleeping (fp : String) : Op → Prop
  | .set _ only cols => only = [.open] ∨ cols = forget
  | .upsert e _ => e.finding.key ≠ fp
  | .count other => other ≠ fp
  | _ => True

theorem SameState.refl (row : Row) : SameState row row := ⟨rfl, rfl, rfl, rfl⟩

theorem set_sleeping {fid : String} {only : List Status} {cols : Cols}
    (h : Dormant fp dismissedAt w) (hop : only = [.open] ∨ cols = forget) :
    Dormant fp dismissedAt (w.set fid only cols).2 ∧
      ∀ sev, Level fp sev w → Level fp sev (w.set fid only cols).2 := by
  rcases w.set_cases fid only cols with heq | ⟨changed, hchanged, hid, honly, t, ht, heq⟩
  · rw [heq]
    exact ⟨h, fun _ hlevel => hlevel⟩
  · rw [heq]
    refine h.step ?_ ?_
    · dsimp only
      split
      · simpa using h.news
      · exact h.news
    · intro row hrow hfp
      by_cases hrid : row.id = fid
      · rcases hop with rfl | rfl
        · have hopen : row.status = .open := by
            rw [Findings.eq_of_id hrow hchanged (hrid.trans hid.symm)]
            simpa using honly
          rw [(h.dismissed hrow hfp).1] at hopen
          cases hopen
        · exact ⟨forget.apply row, ht.at hrow hrid, rfl, rfl, rfl, rfl⟩
      · exact ⟨row, ht.apart hrow hrid, .refl row⟩

/-- An operation that does not wake the finding. -/
theorem sleeping_step {t : Thread} {op : Op} {a : op.Ans} {r : op.Res}
    (h : Dormant fp dismissedAt w) (hop : Sleeping fp op) (hexec : exec op a w = some (r, w'))
    (hintime : InTime dismissedAt t op w w') :
    Dormant fp dismissedAt w' ∧ ∀ sev, Level fp sev w → Level fp sev w' := by
  have hsame : Dormant fp dismissedAt w ∧ ∀ sev, Level fp sev w → Level fp sev w :=
    ⟨h, fun _ hlevel => hlevel⟩
  have hevent : ∀ fly e, e ≠ Event.news fp →
      Dormant fp dismissedAt { w with inFlight := fly, log := w.log ++ [e] } ∧
        ∀ sev, Level fp sev w → Level fp sev { w with inFlight := fly, log := w.log ++ [e] } := by
    intro fly e he
    refine h.step ?_ fun row hrow _ => ⟨row, hrow, .refl row⟩
    intro hmem
    rcases List.mem_append.mp hmem with hold | hnew
    · exact h.news hold
    · exact he (List.mem_singleton.mp hnew).symm
  cases op with
  | now =>
      cases hexec
      exact hsame
  | gate row =>
      cases hexec
      exact hevent _ _ nofun
  | find fp =>
      cases a <;> cases hexec <;> exact hsame
  | get fid =>
      cases a <;> cases hexec <;> exact hsame
  | openRows =>
      cases a <;> cases hexec <;> exact hsame
  | unclosed =>
      cases a <;> cases hexec <;> exact hsame
  | upsert e only =>
      obtain ⟨db, uuid⟩ := a
      cases db with
      | raises =>
          cases hexec
          exact hsame
      | works =>
          have hexec : w.upsert e only uuid = (r, w') := by simpa [exec, statement] using hexec
          rcases w.upsert_cases e only uuid with heq | ⟨heq, -⟩ | ⟨row, hrow, hfp, -, t, ht, heq⟩ |
            ⟨-, t, ht, heq⟩
          · cases hexec.symm.trans heq
            exact hsame
          · cases hexec.symm.trans heq
            exact hsame
          · cases hexec.symm.trans heq
            refine h.step h.news ?_
            intro other hother hofp
            refine ⟨other, ht.apart hother ?_, .refl other⟩
            intro hid
            rw [Findings.eq_of_id hother hrow hid, hfp] at hofp
            exact hop hofp
          · cases hexec.symm.trans heq
            exact h.step h.news fun other hother _ =>
              ⟨other, (ht other).mpr (.inl hother), .refl other⟩
  | set fid only cols =>
      cases a with
      | raises =>
          cases hexec
          exact hsame
      | works =>
          cases hexec
          exact set_sleeping h hop
  | sweep days now =>
      cases a with
      | raises =>
          cases hexec
          exact hsame
      | works =>
          cases hexec
          refine h.step h.news ?_
          intro row hrow hfp
          refine ⟨row, Findings.mem_sweep.mpr ⟨hrow, ?_⟩, .refl row⟩
          simp only [Findings.expired, (h.dismissed hrow hfp).2, Option.getD_some,
            Bool.and_eq_false_iff, decide_eq_false_iff_not, not_lt]
          exact .inr hintime
  | post row =>
      cases a with
      | none =>
          cases hexec
          exact hsame
      | some alert =>
          simp only [exec] at hexec
          split at hexec
          · cases hexec
            exact hevent _ _ nofun
          · cases hexec
  | close alert =>
      cases a with
      | false =>
          cases hexec
          exact hsame
      | true =>
          cases hexec
          exact hevent _ _ nofun
  | count other =>
      cases hexec
      refine hevent _ _ ?_
      intro heq
      cases heq
      exact hop rfl

end Dormant

section Runs

/-- The finding stays dormant, and a dismissal leaves its severity alone. -/
def dormantContract (fp : String) (dismissedAt : ℚ) : Contract Thread World where
  inv := Dormant fp dismissedAt
  guar
    | .runner, _, _ => True
    | .operator _, w, w' => ∀ sev, Level fp sev w → Level fp sev w'
  idle _ _ := True

variable {fp : String} {dismissedAt : ℚ} {w : World}

theorem level_stable (sev : String) :
    (dormantContract fp dismissedAt).Stable .runner (Level fp sev) := by
  intro u hu w w' _ _ hguar hlevel
  cases u with
  | runner => exact absurd rfl hu
  | operator n => exact hguar sev hlevel

/-- The safety of a program of the run. -/
abbrev Sound {α : Type} (fp : String) (dismissedAt : ℚ) (p : Prog Op Op.Res α)
    (Q : α → World → Prop) (w : World) : Prop :=
  Safe (machine.guarded (NotWorse fp)) (InTime dismissedAt) (dormantContract fp dismissedAt)
    .runner p Q w

theorem sound_of_sleeping {α : Type} {p : Code α} (hp : Prog.All (Sleeping fp) p) {sev : String}
    (hlevel : Level fp sev w) :
    Sound fp dismissedAt p (Ended (fun _ => True) fun _ => Level fp sev) w := by
  refine safe_of_all hp (level_stable sev) hlevel ?_ ?_
  · intro op hop w a r w' hinv hlevel hexec hintime
    obtain ⟨hinv', hlevels⟩ := sleeping_step hinv hop hexec hintime
    exact ⟨hinv', trivial, hlevels sev hlevel⟩
  · intro r w hlevel
    cases r with
    | none => trivial
    | some a => exact hlevel

theorem true_stable : (dormantContract fp dismissedAt).Stable .runner fun _ => True :=
  Contract.stable_const True

theorem around_sleeping : Around (Sleeping fp) where
  now := trivial
  get := fun _ => trivial
  openRows := trivial
  unclosed := trivial
  close := fun _ => trivial
  set := fun _ _ _ => .inl rfl
  forget := fun _ _ _ _ => .inr rfl
  sweep := fun _ _ => trivial

theorem within_sleeping {key : String} (hkey : key ≠ fp) : Within (Sleeping fp) key where
  reporting := fun _ =>
    ⟨trivial, trivial, fun _ => trivial, fun _ _ => trivial, fun _ _ => trivial, fun _ => .inl rfl⟩
  find := fun _ => trivial
  upsert := fun _ _ he => he.trans_ne hkey

theorem merge_into_dormant {cur : Row} {e : Entry} {sev : String} (hcur : cur.status = .dismissed)
    (hkey : e.finding.key = fp) (hstatus : e.cols.status = none)
    (hresolved : e.cols.resolved = none)
    (hlevel : Level fp sev w) :
    Sound fp dismissedAt (mergeInto cur e false)
      (Ended (fun _ => True) fun result w => result.2 = false ∧ Level fp e.finding.level w) w := by
  refine safe_call (level_stable sev) hlevel ?_
  rintro w ⟨db, uuid⟩ r w' hinv hlevel hexec -
  cases db with
  | raises =>
      cases hexec
      exact ⟨hinv, trivial, safe_ret true_stable trivial fun _ h => h⟩
  | works =>
      have hexec : w.upsert e [cur.status] uuid = (r, w') := by
        simpa [machine, Machine.guarded, exec, statement] using hexec
      rw [hcur] at hexec
      obtain ⟨old, hold, hfp, -, -⟩ := hinv.row
      rcases w.upsert_cases e [.dismissed] uuid with heq | ⟨-, row, hrow, hrfp, -, hother⟩ |
        ⟨row, hrow, hrfp, -, t, ht, heq⟩ | ⟨hnone, -⟩
      · cases hexec.symm.trans heq
        exact ⟨hinv, trivial, safe_ret true_stable trivial fun _ h => h⟩
      · rw [(hinv.dismissed hrow (hrfp.trans hkey)).1] at hother
        exact absurd (List.mem_singleton_self _) hother
      · cases hexec.symm.trans heq
        obtain ⟨hdismissed, hat⟩ := hinv.dismissed hrow (hrfp.trans hkey)
        have hmem : e.apply row ∈ t.rows := ht.at hrow rfl
        have hfp : (e.apply row).fingerprint = fp := hrfp.trans hkey
        have hsame : (e.apply row).status = .dismissed := by
          simp [Entry.apply, Cols.apply, hstatus, hdismissed]
        have hinv' : Dormant fp dismissedAt { w with findings := t } := by
          refine ⟨⟨e.apply row, hmem, hfp, hsame, ?_⟩, hinv.news⟩
          simp [Entry.apply, Cols.apply, hresolved, hat]
        have hlevel' : Level fp e.finding.level { w with findings := t } := by
          intro r hr hrfp'
          rw [t.eq_of_fingerprint hr hmem (hrfp'.trans hfp.symm)]
          rfl
        refine ⟨hinv', trivial, ?_⟩
        simp only [Prog.ret_bind, report, hsame]
        exact safe_ret (level_stable _) hlevel' fun w h => ⟨rfl, h⟩
      · exact absurd (hfp.trans hkey.symm) (hnone old hold)

/-- The merge of the finding itself, with a severity that is not above the one it has: only its
report is written. -/
theorem merge_dormant {finding : Finding} {verified sev : String} {threadId : Option String}
    {forgetThread : Bool} (hkey : finding.key = fp) (hle : rank finding.level ≤ rank sev)
    (hlevel : Level fp sev w) :
    Sound fp dismissedAt (merge finding verified threadId forgetThread)
      (Ended (fun _ => True) fun result w => result.2 = false ∧ Level fp finding.level w) w := by
  refine safe_call (level_stable sev) hlevel ?_
  intro w now r w' hinv hlevel hexec _
  cases hexec
  refine ⟨hinv, trivial, ?_⟩
  refine safe_call (level_stable sev) hlevel ?_
  intro w db r w' hinv hlevel hexec _
  cases db with
  | raises =>
      cases hexec
      exact ⟨hinv, trivial, safe_ret true_stable trivial fun _ h => h⟩
  | works =>
      cases hexec
      refine ⟨hinv, trivial, ?_⟩
      obtain ⟨cur, hcur, hfp, hstatus, -⟩ := hinv.row
      have hfind : w.findings.find? finding.key = some cur :=
        Findings.find_eq_some.mpr ⟨hcur, hfp.trans hkey.symm⟩
      have hcurlevel : cur.severity = sev := hlevel cur hcur hfp
      simp only [hfind, Prog.ret_bind, hstatus, hcurlevel, if_neg (Nat.not_lt.mpr hle)]
      exact merge_into_dormant hstatus hkey rfl rfl hlevel

/-- What is known between two reports: the severity in the table, and that the reports to come do
not rise above it. -/
def Calms (fp : String) (reports : List String) (w : World) : Prop :=
  ∃ sev, Level fp sev w ∧ NoRise (sev :: reports)

theorem calms_stable (reports : List String) :
    (dormantContract fp dismissedAt).Stable .runner (Calms fp reports) := by
  rintro u hu w w' hinv hinv' hguar ⟨sev, hlevel, hfalls⟩
  exact ⟨sev, level_stable sev u hu w w' hinv hinv' hguar hlevel, hfalls⟩

theorem merge_one_dormant {threadId : Option String} {forgetThread : Bool}
    {fingerprints : List String} {item : Finding × String} {sev : String} {rest : List String}
    (hlevel : Level fp sev w)
    (hfalls : NoRise (sev :: ((if item.1.key = fp then [item.1.level] else []) ++ rest))) :
    Sound fp dismissedAt (mergeOne threadId forgetThread fingerprints item)
      (Ended (fun _ => True) fun _ => Calms fp rest) w := by
  by_cases hkey : item.1.key = fp
  · rw [if_pos hkey, List.singleton_append] at hfalls
    obtain ⟨hle, hrest⟩ := List.isChain_cons_cons.mp hfalls
    refine safe_then true_stable (merge_dormant hkey hle hlevel) ?_
    rintro result w ⟨hreported, hlevel⟩
    refine (sound_of_sleeping ?_ hlevel).mono ?_
    · rw [hreported]
      refine Raising.all_bind trivial fun _ => ?_
      refine Raising.all_bind ?_ fun _ => trivial
      split
      · exact clear_digests_ops around_sleeping _ _
      · trivial
    · intro r w h
      cases r with
      | none => trivial
      | some fingerprints => exact ⟨_, h, hrest⟩
  · rw [if_neg hkey, List.nil_append] at hfalls
    refine (sound_of_sleeping ?_ hlevel).mono ?_
    · refine Raising.all_bind (merge_ops (within_sleeping hkey) _ _ _) fun result => ?_
      refine Raising.all_bind ?_ fun _ => Raising.all_bind ?_ fun _ => trivial
      · split
        · exact ⟨hkey, fun _ => trivial⟩
        · trivial
      · split
        · exact clear_digests_ops around_sleeping _ _
        · trivial
    · intro r w h
      cases r with
      | none => trivial
      | some fingerprints => exact ⟨_, h, hfalls⟩

theorem run_check_dormant {check : CheckRun} {rest : List String}
    {acc : Python.Dict String CheckState × Python.Dict String (List String)}
    (h : Calms fp (check.reports fp ++ rest) w) :
    Sound fp dismissedAt (runCheck acc check)
      (Ended (fun _ => True) fun _ => Calms fp rest) w := by
  unfold runCheck
  unfold CheckRun.reports at h
  split
  · rename_i hoff
    simp only [hoff, List.nil_append] at h
    exact safe_ret (calms_stable rest) h fun _ h => h
  · rename_i hoff
    simp only [hoff, List.nil_append] at h
    exact safe_ret (calms_stable rest) h fun _ h => h
  · rename_i hoff
    simp only [hoff, List.nil_append] at h
    exact safe_ret (calms_stable rest) h fun _ h => h
  · rename_i merged threadId forgetThread hok
    simp only [hok] at h
    let J : List (Finding × String) → World → Prop := fun items =>
      Calms fp (((items.filter fun item => item.1.key == fp).map fun item => item.1.level) ++ rest)
    refine safe_then true_stable (R := fun _ => Calms fp rest) ?_
      fun _ w h => safe_ret (calms_stable rest) h fun _ h => h
    refine safe_fold (J := J) true_stable (calms_stable _) h ?_
    rintro acc item items w ⟨sev, hlevel, hfalls⟩
    refine merge_one_dormant hlevel ?_
    rw [List.filter_cons] at hfalls
    by_cases hkey : item.1.key = fp
    · simpa [hkey] using hfalls
    · simpa [hkey] using hfalls

theorem run_once_dormant {input : RunInput} (h : Calms fp (input.reports fp) w) :
    Sound fp dismissedAt (runOnce input) (Ended (fun _ => True) fun _ _ => True) w := by
  obtain ⟨sev, hlevel, hfalls⟩ := h
  unfold runOnce
  refine safe_then true_stable (sound_of_sleeping ?_ hlevel) fun _ w hlevel => ?_
  · split
    · trivial
    · exact clear_model_findings_ops around_sleeping
  refine safe_then true_stable (sound_of_sleeping (clear_digests_ops around_sleeping _ _) hlevel)
    fun _ w hlevel => ?_
  refine safe_then true_stable (R := fun _ => Calms fp []) ?_ ?_
  · refine safe_fold (J := fun checks => Calms fp (checks.flatMap (CheckRun.reports fp)))
      true_stable (calms_stable _) ⟨sev, hlevel, hfalls⟩ ?_
    intro acc check checks w h
    rw [List.flatMap_cons] at h
    exact run_check_dormant h
  · rintro acc w ⟨sev, hlevel, -⟩
    refine (sound_of_sleeping ?_ hlevel).mono ?_
    · refine Raising.all_bind (clear_ops around_sleeping _ _) fun _ => ?_
      refine Raising.all_bind (retry_closes_ops around_sleeping) fun _ => ?_
      refine Raising.all_bind (causes_ops around_sleeping _) fun _ => ?_
      refine Raising.all_bind ⟨trivial, fun _ => trivial⟩ fun finished => ?_
      exact ⟨trivial, fun _ => trivial⟩
    · intro r w _
      cases r <;> trivial

/-- The runs of which each reports the finding with no higher severity than the report before, and
none is over more than ninety days after the dismissal, leave it dismissed and unreported. -/
theorem dismissed_stays {findings : Findings} {row : Row} {dismissedAt : ℚ}
    {c : Config Thread Op Op.Res World} (hrow : row ∈ findings.rows)
    (hstatus : row.status = .dismissed) (hresolved : row.resolved = some dismissedAt)
    (hrun : Reachable (machine.guarded (NotWorse row.fingerprint)) (InTime dismissedAt)
      { findings := findings } c) : Silent row.fingerprint c.state := by
  have hinv : Dormant row.fingerprint dismissedAt { findings := findings } :=
    ⟨⟨row, hrow, rfl, hstatus, hresolved⟩, nofun⟩
  have hstart : ∀ t request w p, Dormant row.fingerprint dismissedAt w → True →
      (machine.guarded (NotWorse row.fingerprint)).start t request w = some p →
      Safe (machine.guarded (NotWorse row.fingerprint)) (InTime dismissedAt)
        (dormantContract row.fingerprint dismissedAt) t p (fun _ _ => True) w := by
    intro t request w p hinv _ hp
    simp only [Machine.guarded] at hp
    split at hp
    · rename_i hworse
      cases t with
      | runner =>
          cases request with
          | run input =>
              cases hp
              obtain ⟨cur, hcur, hfp, -, -⟩ := hinv.row
              have hlevel : Level row.fingerprint cur.severity w := by
                intro r hr hrfp
                rw [w.findings.eq_of_fingerprint hr hcur (hrfp.trans hfp.symm)]
              refine safe_bind
                ((run_once_dormant ⟨cur.severity, hlevel, hworse cur hcur hfp⟩).mono ?_)
              exact fun _ w _ => safe_ret true_stable trivial fun _ h => h
          | dismiss fid user => cases hp
      | operator n =>
          cases request with
          | run input => cases hp
          | dismiss fid user =>
              cases hp
              have hops : Prog.All (Sleeping row.fingerprint) (dismiss fid user) :=
                dismiss_ops around_sleeping.dismissal fid user
              refine safe_of_all (hops.bind fun _ => trivial) (Contract.stable_const True) trivial
                ?_ fun _ _ _ => trivial
              intro op hop w a r w' hinv _ hexec hintime
              obtain ⟨hinv', hlevels⟩ := sleeping_step hinv hop hexec hintime
              exact ⟨hinv', hlevels, trivial⟩
    · cases hp
  have hholds := Contract.sound (C := dormantContract row.fingerprint dismissedAt) hinv
    (fun _ => trivial) (fun _ => Contract.stable_const True) hstart hrun
  exact hholds.inv.silent

end Runs

section Examples

/-- The finding of a disk, dismissed with the severity of a warning. -/
def dismissedRow : Row :=
  { (⟨diskFinding "warning", "code", 0, {}⟩ : Entry).newRow "f1" with
    status := .dismissed
    resolved := some 0 }

/-- A table with that row. -/
def dismissedFindings : Findings :=
  ⟨[dismissedRow], List.nodup_singleton _, List.nodup_singleton _⟩

instance (dismissedAt : ℚ) (t : Thread) (op : Op) (w w' : World) :
    Decidable (InTime dismissedAt t op w w') :=
  match op with
  | .sweep days now => inferInstanceAs (Decidable (now - (max 1 days : ℕ) * DAY ≤ dismissedAt))
  | .now | .gate _ | .find _ | .get _ | .openRows | .unclosed | .upsert .. | .set .. | .post _
  | .close _ | .count _ => .isTrue trivial

/-- A run reports the disk with a lower severity, and the finding stays dismissed. -/
theorem dismissed_below : dismissedRow ∈ dismissedFindings.rows ∧ dismissedRow.status = .dismissed ∧
    dismissedRow.resolved = some 0 ∧ ∃ c, Reachable (machine.guarded
      (NotWorse dismissedRow.fingerprint)) (InTime 0) { findings := dismissedFindings } c ∧
        (∀ row ∈ c.state.findings.rows, row.severity = "info") ∧
          Silent dismissedRow.fingerprint c.state := by
  refine ⟨List.mem_singleton_self _, rfl, rfl, ?_⟩
  have hrun : ((Config.idle { findings := dismissedFindings }).plays
      (machine.guarded (NotWorse dismissedRow.fingerprint)) (InTime 0)
      (.start .runner (.run (diskRun "info")) :: goOn .runner 10 ++ [.finish .runner])).bind
        (fun c => if ∀ row ∈ c.state.findings.rows, row.severity = "info" then some () else none) =
      some () := by decide +kernel
  obtain ⟨c, hc, hinfo⟩ := exists_run_of_plays hrun
  have hlower := (ite_eq_iff.mp hinfo).elim And.left fun hno => nomatch hno.2
  exact ⟨c, hc, hlower, dismissed_stays (List.mem_singleton_self _) rfl rfl hc⟩

/-- Every run reports the finding, with no severity above this one. -/
def AtMost (fp severity : String) (_ : Thread) (request : Request) (_ : World) : Prop :=
  match request with
  | .run input => input.reports fp ≠ [] ∧ ∀ sev ∈ input.reports fp, rank sev ≤ rank severity
  | .dismiss _ _ => True

instance (fp severity : String) (t : Thread) (request : Request) (w : World) :
    Decidable (AtMost fp severity t request w) := by
  unfold AtMost
  split <;> infer_instance

/-- The severity goes down and comes back to the one at which the finding was dismissed: the finding
is open again. -/
theorem reopened_by_return : ¬ ∀ (findings : Findings) (row : Row)
    (c : Config Thread Op Op.Res World), row ∈ findings.rows → row.status = .dismissed →
    Reachable (machine.guarded (AtMost row.fingerprint row.severity)) (fun _ _ _ _ => True)
      { findings := findings } c → Silent row.fingerprint c.state := by
  intro h
  have hrun : ((Config.idle { findings := dismissedFindings }).plays
      (machine.guarded (AtMost dismissedRow.fingerprint dismissedRow.severity))
      (fun _ _ _ _ => True)
      (.start .runner (.run (diskRun "info")) :: goOn .runner 10 ++ .finish .runner ::
        .start .runner (.run (diskRun "warning")) :: goOn .runner 5)).bind
        (fun c => if ∃ row ∈ c.state.findings.rows,
            row.fingerprint = dismissedRow.fingerprint ∧ row.status = .open
          then some () else none) = some () := by decide +kernel
  obtain ⟨c, hc, hopen⟩ := exists_run_of_plays hrun
  obtain ⟨row, hrow, hfp, hstatus⟩ := (ite_eq_iff.mp hopen).elim And.left fun hno => nomatch hno.2
  exact (h dismissedFindings dismissedRow c (List.mem_singleton_self _) rfl hc).1 row
    hrow hfp hstatus

end Examples

end SystemsManager.Forecast
