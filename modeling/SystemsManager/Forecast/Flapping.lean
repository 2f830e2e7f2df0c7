import SystemsManager.Forecast.Standing

/-!
# Forecast alerts do not flap

`_report` posts an alert again only after the severity rose above that of the alert on the row, or
after the gates were passed in `REALERT_RUNS` reports in a row. `alerts_do_not_flap` is the theorem
to read: it says so for any two successive alerts of a finding, whatever the runs report, however
the settings change and wherever posts and closes fail. The rows of a run are copies, so that each
part of `_report` is followed with the row it holds and what the history says about it (`Held`).
-/

namespace SystemsManager.Forecast

open Concurrency

section Reports

/-- The database works. -/
def works : (op : Op) → op.Ans → Prop
  | .find _, db => db = .works
  | .get _, db => db = .works
  | .openRows, db => db = .works
  | .unclosed, db => db = .works
  | .upsert .., answer => answer.1 = .works
  | .set .., db => db = .works
  | .sweep .., db => db = .works
  | _, _ => True

instance : (op : Op) → (a : op.Ans) → Decidable (works op a)
  | .find _, db | .get _, db | .openRows, db | .unclosed, db | .set .., db | .sweep .., db =>
      inferInstanceAs (Decidable (db = Db.works))
  | .upsert .., answer => inferInstanceAs (Decidable (answer.1 = Db.works))
  | .now, _ | .gate _, _ | .post _, _ | .close _, _ | .count _, _ => .isTrue trivial

/-- The finding is not dismissed. -/
def Undismissed (f : String) (t : Thread) (op : Op) (_ _ : World) : Prop :=
  match t, op with
  | .operator _, .set fid _ _ => fid ≠ f
  | _, _ => True

instance (f : String) (t : Thread) (op : Op) (w w' : World) :
    Decidable (Undismissed f t op w w') :=
  match t, op with
  | .operator _, .set fid _ _ => inferInstanceAs (Decidable (fid ≠ f))
  | .runner, _ | .operator _, .now | .operator _, .gate _ | .operator _, .find _
  | .operator _, .get _ | .operator _, .openRows | .operator _, .unclosed | .operator _, .upsert ..
  | .operator _, .sweep .. | .operator _, .post _ | .operator _, .close _ | .operator _, .count _ =>
      .isTrue trivial

/-- Alerts of the finding are spaced, and dismissals are beside it. -/
def flapContract (f : String) : Contract Thread World where
  inv w := Each (Spaced f) w.log
  guar
    | .runner, _, _ => True
    | .operator _, w, w' => Beside f w w'
  idle
    | .runner, w => Stands f w
    | .operator _, _ => True

variable {f : String} {w : World}

/-- The safety of a program of the run. -/
abbrev Orderly {α : Type} (f : String) (p : Prog Op Op.Res α) (Q : α → World → Prop)
    (w : World) : Prop :=
  Safe (machine.answering works) (Undismissed f) (flapContract f) .runner p Q w

/-- What steps beside the finding keep is stable. -/
theorem beside_stable {P : World → Prop} (h : ∀ w w', Beside f w w' → P w → P w') :
    (flapContract f).Stable .runner P := by
  intro u hu w w' _ _ hguar hw
  cases u with
  | runner => exact absurd rfl hu
  | operator n => exact h w w' hguar hw

theorem stands_stable : (flapContract f).Stable .runner (Stands f) :=
  beside_stable fun _ _ hbeside h => h.beside hbeside

theorem orderly_of_aloof {α : Type} {p : Code α} (hp : Prog.All (Aloof f) p) (h : Stands f w) :
    Orderly f p (Ended (Stands f) fun _ => Stands f) w := by
  refine safe_of_all hp stands_stable h ?_ ?_
  · intro op hop w a r w' hinv h hexec _
    obtain ⟨-, hexec⟩ := Machine.answering_exec hexec
    obtain ⟨hinv', h'⟩ := aloof_step hinv h hop hexec
    exact ⟨hinv', trivial, h'⟩
  · intro r w h
    cases r with
    | none => exact h
    | some a => exact h

/-- The row of the finding, and what its history says. -/
structure Held (f : String) (row : Row) (s : Standing) (w : World) : Prop where
  mem : row ∈ w.findings.rows
  id : row.id = f
  standing : standing f w.log = s

variable {row : Row} {s : Standing} {α : Type}

theorem held_stable : (flapContract f).Stable .runner (Held f row s) :=
  beside_stable fun _ _ hbeside h =>
    ⟨(hbeside.rows row h.id).mpr h.mem, h.id, hbeside.standing.trans h.standing⟩

/-- The finding stands if its facts do. -/
theorem Held.stands (h : Held f row s w) (hopen : row.status = .open) (hfacts : Facts row s) :
    Stands f w := by
  refine ⟨?_, ?_⟩
  · intro row' hrow' hid _
    rw [Findings.eq_of_id hrow' h.mem (hid.trans h.id.symm), h.standing]
    exact hfacts
  · intro hshut
    exact absurd hopen (hshut row h.mem h.id)

theorem set_own {cols : Cols} {Q : Bool → World → Prop} (h : Held f row s w)
    (hopen : row.status = .open) (hcols : cols ≠ {}) (hstatus : cols.status = none)
    (hQ : ∀ w, Held f (cols.apply row) s w → Q true w) :
    Orderly f (Code.set row.id [.open] cols) (Ended (Stands f) Q) w := by
  refine safe_call held_stable h ?_
  intro w db r w' hinv h hexec _
  obtain ⟨hworks, hexec⟩ := Machine.answering_exec hexec
  cases hworks
  have heq := w.set_cases row.id [.open] cols
  cases hexec
  have hset : ∃ w', w.set row.id [.open] cols = (true, w') ∧ Held f (cols.apply row) s w' := by
    rcases heq with heq | ⟨old, hold, hid, -, t, ht, heq⟩
    · have hget : w.findings.get? row.id = some row := Findings.get_eq_some.mpr ⟨h.mem, rfl⟩
      simp [World.set, hget, hcols, hopen] at heq
    · have hsame := Findings.eq_of_id hold h.mem hid
      have hlog : World.resolves old cols = false := by simp [World.resolves, hstatus]
      refine ⟨_, heq, ht.at h.mem rfl, h.id, ?_⟩
      simp only [hlog, Bool.false_eq_true, if_false]
      exact h.standing
  obtain ⟨w', hset, hheld⟩ := hset
  refine ⟨set_spaced hinv, trivial, ?_⟩
  rw [hset]
  exact safe_ret held_stable hheld hQ

theorem ask_own {op : Op} {k : op.Res → Prog Op Op.Res (Option α)} {Q : Option α → World → Prop}
    (h : Held f row s w)
    (hop : ∀ w a r w', exec op a w = some (r, w') → Each (Spaced f) w.log → Held f row s w →
      Each (Spaced f) w'.log ∧ Held f row s w') (hk : ∀ r w, Held f row s w → Orderly f (k r) Q w) :
    Orderly f (.call op k) Q w := by
  refine safe_call held_stable h ?_
  intro w a r w' hinv h hexec _
  obtain ⟨-, hexec⟩ := Machine.answering_exec hexec
  obtain ⟨hinv', h'⟩ := hop w a r w' hexec hinv h
  exact ⟨hinv', trivial, hk r w' h'⟩

theorem now_own {k : ℚ → Prog Op Op.Res (Option α)} {Q : Option α → World → Prop}
    (h : Held f row s w) (hk : ∀ now w, Held f row s w → Orderly f (k now) Q w) :
    Orderly f (.call .now k) Q w := by
  refine ask_own h ?_ hk
  intro w a r w' hexec hspaced h
  cases hexec
  exact ⟨hspaced, h⟩

theorem close_own {N : World → Prop} (h : Held f row s w) :
    Orderly f (closeAlert row) (Ended N fun _ => Held f row s) w := by
  unfold closeAlert
  split
  · exact safe_ret held_stable h fun _ h => h
  · refine ask_own h ?_ fun _ w h => safe_ret held_stable h fun _ h => h
    intro w a r w' hexec hspaced h
    cases a with
    | false =>
        cases hexec
        exact ⟨hspaced, h⟩
    | true =>
        cases hexec
        exact ⟨each_spaced hspaced nofun, h.mem, h.id, by rw [standing_concat]; exact h.standing⟩

theorem end_own {a : α} (h : Held f row s w) (hopen : row.status = .open) (hfacts : Facts row s) :
    Orderly f (pure a : Code α) (Ended (Stands f) fun _ => Stands f) w :=
  safe_ret stands_stable (h.stands hopen hfacts) fun _ h => h

/-- The row is read again, and that is the end. -/
theorem reread_own {g : Option Row → α} (h : Stands f w) (fid : String) :
    Orderly f ((Code.get fid).bind fun stored => (pure (g stored) : Code α))
      (Ended (Stands f) fun _ => Stands f) w :=
  orderly_of_aloof (Raising.all_bind ⟨trivial, fun _ => trivial⟩ fun _ => trivial) h

theorem dropped_facts {s' : Standing} (h : Facts row s) (hposted : s'.posted = s.posted)
    (hclean : s'.clean = false) (closed : Bool) : Facts ((dropCols row closed).apply row) s' := by
  have hstreak : ((dropCols row closed).apply row).gateStreak = 0 := by
    simp only [dropCols, Cols.apply]
    split
    · assumption
    · rfl
  refine ⟨.inl (by rw [hstreak]; exact Nat.zero_le _), ?_⟩
  intro sev a hsev
  obtain ⟨hreported, halert, -⟩ := h.posted sev a (hposted ▸ hsev)
  refine ⟨hreported, ?_, fun hno => by simp [hclean] at hno⟩
  cases closed with
  | false => exact halert
  | true => exact .inl rfl

theorem drop_own (h : Held f row s w) (hopen : row.status = .open)
    (hfacts : ∀ closed, Facts ((dropCols row closed).apply row) s) :
    Orderly f (dropAlert row) (Ended (Stands f) fun _ => Stands f) w := by
  unfold dropAlert
  refine safe_then stands_stable (R := fun _ => Held f row s) ?_ fun closed w h => ?_
  · split
    · exact close_own h
    · exact safe_ret held_stable h fun _ h => h
  · split
    · rename_i hcols
      have hsame := hfacts closed
      rw [hcols] at hsame
      exact end_own h hopen hsame
    · rename_i hcols
      refine safe_then stands_stable (R := fun done w => done = true ∧ Stands f w)
        (set_own h hopen hcols rfl fun w h => ⟨rfl, h.stands hopen (hfacts closed)⟩) ?_
      rintro done w ⟨rfl, h⟩
      exact reread_own h row.id

variable {reported : Bool}

theorem record_own {alert : String} (h : Held f row s w) (hopen : row.status = .open)
    (hposted : s.posted = some (row.severity, alert))
    (hstreak : row.gateStreak ≤ s.streak ∨ s.clean = true) (hpassed : 1 ≤ s.streak) :
    Orderly f (recordAlert row alert reported) (Ended (Stands f) fun _ => Stands f) w := by
  refine now_own h fun now w h => ?_
  have hfacts : Facts ((raised row alert now).apply row) s := by
    refine ⟨hstreak, ?_⟩
    intro sev a hsev
    cases hposted.symm.trans hsev
    exact ⟨rfl, .inr ⟨rfl, rfl⟩, fun _ => hpassed⟩
  refine safe_then stands_stable (R := fun done w => done = true ∧ Stands f w)
    (set_own h hopen (by simp [raised]) rfl fun w h => ⟨rfl, h.stands hopen hfacts⟩) ?_
  rintro done w ⟨rfl, h⟩
  exact reread_own h row.id

theorem raise_own (h : Held f row s w) (hopen : row.status = .open) (hfacts : Facts row s)
    (hpassed : 1 ≤ s.streak) (hdue : s.posted ≠ none → s.risen = true ∨ REALERT_RUNS ≤ s.streak) :
    Orderly f (raiseAlert row reported) (Ended (Stands f) fun _ => Stands f) w := by
  refine safe_call held_stable h ?_
  intro w alert r w' hinv h hexec _
  obtain ⟨-, hexec⟩ := Machine.answering_exec hexec
  cases alert with
  | none =>
      cases hexec
      exact ⟨hinv, trivial, end_own h hopen hfacts⟩
  | some alert =>
      simp only [machine, exec] at hexec
      split at hexec
      · cases hexec
        have hnext : Held f row { s with posted := some (row.severity, alert), risen := false }
            { w with
              inFlight := some (row.id, alert)
              log := w.log ++ [.post row.id row.severity alert] } := by
          refine ⟨h.mem, h.id, ?_⟩
          rw [standing_concat, h.standing]
          simp [Standing.next, h.id]
        refine ⟨each_concat.mpr ⟨hinv, ?_⟩, trivial,
          record_own hnext hopen rfl hfacts.streak hpassed⟩
        intro _ _ _ hposted
        rw [h.standing] at hposted ⊢
        exact hdue hposted
      · cases hexec

theorem above_of_rise {sev a : String} (hfacts : Facts row s) (hposted : s.posted = some (sev, a))
    (halert : row.alert.isSome = true)
    (hrise : ¬ rank row.severity ≤ rank (orText row.alertSeverity row.severity)) :
    above row s.posted = true := by
  obtain ⟨-, hstored, -⟩ := hfacts.posted sev a hposted
  rcases hstored with hnone | ⟨hid, hseverity⟩
  · rw [hnone] at halert
    cases halert
  · rw [hseverity, orText] at hrise
    split at hrise
    · exact absurd le_rfl hrise
    · simp [hposted, above, hid, Nat.lt_of_not_le hrise]

theorem passed_own (h : Held f row s w) (hopen : row.status = .open) (hfacts : Facts row s)
    (hpassed : 1 ≤ s.streak) (hclean : s.clean = true → s.posted ≠ none → REALERT_RUNS ≤ s.streak)
    (habove : above row s.posted = true → s.risen = true) :
    Orderly f (reportPassed row reported) (Ended (Stands f) fun _ => Stands f) w := by
  unfold reportPassed
  dsimp only
  split
  · rename_i halert
    split
    · exact end_own h hopen hfacts
    · rename_i hrise
      refine safe_then stands_stable (close_own h) fun closed w h => ?_
      split
      · exact end_own h hopen hfacts
      · have hforgot : Facts (forget.apply row) s := by
          refine ⟨hfacts.streak, ?_⟩
          intro sev a hsev
          obtain ⟨hreported, -, hrest⟩ := hfacts.posted sev a hsev
          exact ⟨hreported, .inl rfl, hrest⟩
        refine safe_then stands_stable
          (R := fun done w => done = true ∧ Held f (forget.apply row) s w)
          (set_own h hopen (by simp [forget]) rfl fun w h => ⟨rfl, h⟩) ?_
        rintro done w ⟨rfl, h⟩
        refine raise_own h hopen hforgot hpassed ?_
        intro hposted
        obtain ⟨⟨sev, a⟩, hposted⟩ := Option.ne_none_iff_exists'.mp hposted
        exact .inl (habove (above_of_rise hfacts hposted halert hrise))
  · split
    · exact end_own h hopen hfacts
    · rename_i hstreak
      split
      · exact end_own h hopen hfacts
      · refine raise_own h hopen hfacts hpassed ?_
        intro hposted
        refine .inr ?_
        obtain ⟨⟨sev, a⟩, hsev⟩ := Option.ne_none_iff_exists'.mp hposted
        obtain ⟨hreported, -, -⟩ := hfacts.posted sev a hsev
        have hdue : REALERT_RUNS ≤ row.gateStreak := by simpa [hreported] using hstreak
        rcases hfacts.streak with hle | hc
        · exact hdue.trans hle
        · exact hclean hc hposted

/-- What the history says once the row has passed the gates. -/
def Standing.pass (s : Standing) (row : Row) : Standing :=
  { s with streak := s.streak + 1, risen := s.risen || above row s.posted }

theorem report_own (h : Held f row s w) (hopen : row.status = .open) (hfacts : Facts row s) :
    Orderly f (report row reported) (Ended (Stands f) fun _ => Stands f) w := by
  unfold report
  rw [if_neg (not_not.mpr hopen)]
  refine safe_call held_stable h ?_
  intro w cfg r w' hinv h hexec _
  obtain ⟨-, hexec⟩ := Machine.answering_exec hexec
  cases hexec
  refine ⟨each_spaced hinv nofun, trivial, ?_⟩
  cases hpasses : wantsAlert cfg row with
  | false =>
      have hnext : Held f row { s with streak := 0, clean := false }
          { w with log := w.log ++ [.gate row false] } := by
        refine ⟨h.mem, h.id, ?_⟩
        rw [standing_concat, h.standing]
        simp [Standing.next, h.id]
      show Orderly f ((dropAlert row).bind fun row =>
        (pure (row, reported) : Code (Row × Bool))) _ _
      refine safe_then stands_stable (R := fun _ => Stands f)
        (drop_own hnext hopen fun closed => dropped_facts hfacts (by rfl) (by rfl) closed) ?_
      exact fun _ w h => safe_ret stands_stable h fun _ h => h
  | true =>
      have hnext : Held f row (s.pass row) { w with log := w.log ++ [.gate row true] } := by
        refine ⟨h.mem, h.id, ?_⟩
        rw [standing_concat, h.standing]
        simp [Standing.next, Standing.pass, h.id]
      let bumped : Row := { row with gateStreak := row.gateStreak + 1 }
      have hbumped : Facts bumped (s.pass row) := by
        refine ⟨hfacts.streak.imp_left fun hle => Nat.succ_le_succ hle, ?_⟩
        intro sev a hsev
        obtain ⟨hreported, halert, -⟩ := hfacts.posted sev a hsev
        exact ⟨hreported, halert, fun _ => Nat.succ_le_succ (Nat.zero_le _)⟩
      show Orderly f ((bumpStreak row).bind fun row => reportPassed row reported) _ _
      refine safe_then stands_stable (R := fun row' w => row' = bumped ∧
        Held f bumped (s.pass row) w)
        ?_ ?_
      · refine safe_then stands_stable
          (R := fun done w => done = true ∧ Held f bumped (s.pass row) w)
          (set_own hnext hopen (by simp) rfl fun w h => ⟨rfl, h⟩) ?_
        rintro done w ⟨rfl, h⟩
        exact safe_ret held_stable h fun _ h => ⟨rfl, h⟩
      · rintro row' w ⟨rfl, h⟩
        refine passed_own h hopen hbumped (Nat.succ_le_succ (Nat.zero_le _)) ?_ ?_
        · -- The alert was posted in a report that passed the gates, and this is another one.
          intro hclean hposted
          obtain ⟨⟨sev, a⟩, hsev⟩ := Option.ne_none_iff_exists'.mp hposted
          obtain ⟨-, -, hstreak⟩ := hfacts.posted sev a hsev
          exact Nat.succ_le_succ (hstreak hclean)
        · intro habove
          simp only [Standing.pass, Bool.or_eq_true]
          exact .inr habove

end Reports

section Merges

variable {f : String} {w w' : World}

variable {row : Row}

theorem fresh_facts {s : Standing} (hstreak : row.gateStreak = 0) (hposted : s.posted = none) :
    Facts row s :=
  ⟨.inl (by rw [hstreak]; exact Nat.zero_le _), fun sev a hsev => by simp [hposted] at hsev⟩

/-- The statement of a merge leaves the alert of the finding alone, or opens it again. -/
def Reopens (f : String) (e : Entry) (only : List Status) (w : World) : Prop :=
  ∀ row ∈ w.findings.rows, row.id = f → row.fingerprint = e.finding.key →
    (only = [] ∨ row.status ∈ only) →
      e.cols.Resting ∧ e.cols.status = none ∨ row.status ≠ .open ∧ e.cols.gateStreak = some 0

variable {e : Entry}

theorem update_stands {t : Findings} (h : Stands f w) (hrow : row ∈ w.findings.rows)
    (hid : row.id = f) (hcols : e.cols.Resting ∧ e.cols.status = none ∨
      row.status ≠ .open ∧ e.cols.gateStreak = some 0) (ht : w.findings.Changed t row.id e.apply) :
    Stands f { w with findings := t } := by
  have hmem : e.apply row ∈ t.rows := ht.at hrow rfl
  have hrows : ∀ row' ∈ t.rows, row'.id = f → row' = e.apply row :=
    fun row' hrow' hid' => t.eq_of_id hrow' hmem (hid'.trans hid.symm)
  have hsole : ∀ old ∈ w.findings.rows, old.id = f → old = row :=
    fun old hold hold' => Findings.eq_of_id hold hrow (hold'.trans hid.symm)
  rcases hcols with ⟨hrest, hstatus⟩ | ⟨hshut, hstreak⟩
  · have hsame : (e.apply row).status = row.status := by simp [Entry.apply, Cols.apply, hstatus]
    refine ⟨?_, ?_⟩
    · intro row' hrow' hid' hopen
      rw [hrows row' hrow' hid'] at hopen ⊢
      refine (h.opened row hrow hid (hsame ▸ hopen)).same ?_ ?_ ?_ ?_
      · simp [Entry.apply, Cols.apply, hrest.gateStreak]
      · simp [Entry.apply, Cols.apply, hrest.lastReported]
      · simp [Entry.apply, Cols.apply, hrest.alertId]
      · simp [Entry.apply, Cols.apply, hrest.alertSeverity]
    · intro hshut
      refine h.shut fun old hold hold' => ?_
      rw [hsole old hold hold', ← hsame]
      exact hshut _ hmem hid
  · have hposted : (standing f w.log).posted = none := by
      refine h.shut fun old hold hold' => ?_
      rw [hsole old hold hold']
      exact hshut
    refine ⟨?_, fun _ => hposted⟩
    intro row' hrow' hid' _
    rw [hrows row' hrow' hid']
    exact fresh_facts (by simp [Entry.apply, Cols.apply, hstreak]) hposted

theorem update_beside {t : Findings} (hid : row.id ≠ f) (ht : w.findings.Changed t row.id e.apply) :
    Beside f w { w with findings := t } := by
  refine ⟨?_, rfl⟩
  intro row' hid'
  constructor
  · intro hrow'
    rcases ht.cases hrow' with ⟨old, -, hold, rfl⟩ | ⟨hrow', -⟩
    · exact absurd (hold.symm.trans hid') hid
    · exact hrow'
  · intro hrow'
    exact ht.apart hrow' fun heq => hid (heq.symm.trans hid')

theorem insert_stands {uuid : String} {t : Findings} (h : Stands f w)
    (hnone : ∀ row ∈ w.findings.rows, row.fingerprint ≠ e.finding.key)
    (hcols : e.cols.gateStreak.getD 0 = 0)
    (ht : ∀ row, row ∈ t.rows ↔ row ∈ w.findings.rows ∨ row = e.newRow uuid) :
    Stands f { w with findings := t } := by
  by_cases hid : uuid = f
  · -- The id is new, so that the finding had no row.
    have hshut : (standing f w.log).posted = none := by
      refine h.shut fun row hrow hrid => ?_
      have hsame : row = e.newRow uuid :=
        t.eq_of_id ((ht row).mpr (.inl hrow)) ((ht _).mpr (.inr rfl)) (hrid.trans hid.symm)
      exact absurd (by rw [hsame]; rfl) (hnone row hrow)
    refine ⟨?_, fun _ => hshut⟩
    intro row hrow hrid hopen
    rcases (ht row).mp hrow with hrow | rfl
    · exact h.opened row hrow hrid hopen
    · exact fresh_facts hcols hshut
  · refine h.beside ⟨?_, rfl⟩
    intro row hrid
    refine (ht row).trans (or_iff_left ?_)
    rintro rfl
    exact hid hrid

/-- What is known after the statement of a merge. -/
def Written (f : String) (stored : Option Row) (w : World) : Prop :=
  Stands f w ∧ ∀ row ∈ stored, row.id = f → row ∈ w.findings.rows

theorem written_stable (stored : Option Row) : (flapContract f).Stable .runner (Written f stored) :=
  beside_stable fun _ _ hbeside h =>
    ⟨h.1.beside hbeside, fun row hrow hid => (hbeside.rows row hid).mpr (h.2 row hrow hid)⟩

theorem upsert_own {only : List Status} (hcols : e.cols.gateStreak.getD 0 = 0)
    (h : Stands f w ∧ Reopens f e only w) :
    Orderly f (Code.upsert e only) (Ended (Stands f) (Written f)) w := by
  have hstable : (flapContract f).Stable .runner fun w => Stands f w ∧ Reopens f e only w :=
    beside_stable fun w w' hbeside h =>
      ⟨h.1.beside hbeside, fun row hrow hid => h.2 row ((hbeside.rows row hid).mp hrow) hid⟩
  refine safe_call hstable h ?_
  rintro w ⟨db, uuid⟩ r w' hinv ⟨h, hreopens⟩ hexec -
  obtain ⟨hworks, hexec⟩ := Machine.answering_exec hexec
  cases db with
  | raises => exact nomatch hworks
  | works =>
      have hexec : w.upsert e only uuid = (r, w') := by simpa [machine, exec, statement] using hexec
      rcases w.upsert_cases e only uuid with heq | ⟨heq, -⟩ | ⟨row, hrow, hfp, honly, t, ht, heq⟩ |
        ⟨hnone, t, ht, heq⟩
      · cases hexec.symm.trans heq
        exact ⟨hinv, trivial, safe_ret stands_stable h fun _ h => h⟩
      · cases hexec.symm.trans heq
        refine ⟨hinv, trivial, safe_ret (written_stable _) ⟨h, ?_⟩ fun _ h => h⟩
        rintro row ⟨⟩
      · cases hexec.symm.trans heq
        refine ⟨hinv, trivial, safe_ret (written_stable _) ⟨?_, ?_⟩ fun _ h => h⟩
        · by_cases hid : row.id = f
          · exact update_stands h hrow hid (hreopens row hrow hid hfp honly) ht
          · exact h.beside (update_beside hid ht)
        · intro stored hstored _
          cases hstored
          exact ht.at hrow rfl
      · cases hexec.symm.trans heq
        refine ⟨hinv, trivial, safe_ret (written_stable _) ⟨?_, ?_⟩ fun _ h => h⟩
        · exact insert_stands h hnone hcols ht
        · intro stored hstored _
          cases hstored
          exact (ht _).mpr (.inr rfl)

theorem around_aloof : Around (Aloof f) where
  now := trivial
  get := fun _ => trivial
  openRows := trivial
  unclosed := trivial
  close := fun _ => trivial
  set := fun _ _ hcols => .inr (.inl hcols)
  forget := fun _ _ honly hsome => .inr (.inr ⟨rfl, honly, hsome⟩)
  sweep := fun _ _ => trivial

theorem reporting_aloof {fid : String} (hid : fid ≠ f) : Reporting (Aloof f) fid where
  now := trivial
  get := trivial
  close := fun _ => trivial
  gate := fun _ hrow => hrow.trans_ne hid
  post := fun _ hrow => hrow.trans_ne hid
  setOpen := fun _ => .inl hid

theorem report_any {reported : Bool} (h : Written f (some row) w) :
    Orderly f (report row reported) (Ended (Stands f) fun _ => Stands f) w := by
  by_cases hid : row.id = f
  · by_cases hopen : row.status = .open
    · have hrow := h.2 row rfl hid
      exact report_own ⟨hrow, hid, rfl⟩ hopen (h.1.opened row hrow hid hopen)
    · unfold report
      rw [if_pos hopen]
      exact safe_ret stands_stable h.1 fun _ h => h
  · exact orderly_of_aloof (report_ops row (reporting_aloof hid) reported) h.1

theorem merge_into_own {cur : Row} {reported : Bool}
    (hcols : e.cols.Resting ∧ e.cols.status = none ∨
      cur.status ≠ .open ∧ e.cols.gateStreak = some 0) (h : Stands f w) :
    Orderly f (mergeInto cur e reported) (Ended (Stands f) fun _ => Stands f) w := by
  have hstreak : e.cols.gateStreak.getD 0 = 0 := by
    rcases hcols with ⟨hrest, -⟩ | ⟨-, hstreak⟩
    · rw [hrest.gateStreak, Option.getD_none]
    · rw [hstreak, Option.getD_some]
  have hreopens : Reopens f e [cur.status] w := by
    intro row _ _ _ honly
    have hstatus : row.status = cur.status := by simpa using honly
    rw [hstatus]
    exact hcols
  refine safe_then stands_stable (upsert_own hstreak ⟨h, hreopens⟩) ?_
  intro stored w h
  cases stored with
  | some row => exact report_any h
  | none =>
      refine orderly_of_aloof (Raising.all_bind ⟨trivial, fun _ => trivial⟩ fun _ => trivial) h.1

/-- `merge` with a finding that opens again. -/
theorem reopen_own {cur : Row} {finding : Finding} {verified : String} {now : ℚ} {cols : Cols}
    (hshut : cur.status ≠ .open) (hstreak : cols.gateStreak = some 0) (h : Stands f w) :
    Orderly f ((closeAlert cur).bind fun closed =>
        mergeInto cur ⟨finding, verified, now, reopened closed cols⟩ true)
      (Ended (Stands f) fun _ => Stands f) w := by
  refine safe_then stands_stable
    (orderly_of_aloof (close_alert_ops around_aloof.close cur) h) fun closed w h => ?_
  refine merge_into_own (.inr ⟨hshut, ?_⟩) h
  cases closed with
  | false => exact hstreak
  | true => exact hstreak

/-- No row with the fingerprint is the row of the finding. -/
def Unknown (f key : String) (w : World) : Prop :=
  ∀ row ∈ w.findings.rows, row.id = f → row.fingerprint ≠ key

theorem find_own {key : String} (h : Stands f w) :
    Orderly f (Code.find key)
      (Ended (Stands f) fun found w => Stands f w ∧ (found = none → Unknown f key w)) w := by
  refine safe_call stands_stable h ?_
  intro w db r w' hinv h hexec _
  obtain ⟨hworks, hexec⟩ := Machine.answering_exec hexec
  cases hworks
  cases hexec
  refine ⟨hinv, trivial, ?_⟩
  have hstable : (flapContract f).Stable .runner fun w' => Stands f w' ∧
      (w.findings.find? key = none → Unknown f key w') :=
    beside_stable fun _ _ hbeside h => ⟨h.1.beside hbeside, fun hnone row hrow hid =>
      h.2 hnone row ((hbeside.rows row hid).mp hrow) hid⟩
  refine safe_ret hstable ⟨h, ?_⟩ fun _ h => h
  intro hnone row hrow _
  exact Findings.find_eq_none.mp hnone row hrow

theorem merge_own {finding : Finding} {verified : String} {threadId : Option String}
    {forgetThread : Bool} (h : Stands f w) :
    Orderly f (merge finding verified threadId forgetThread)
      (Ended (Stands f) fun _ => Stands f) w := by
  unfold merge
  refine safe_then stands_stable (R := fun _ => Stands f)
    (orderly_of_aloof ⟨trivial, fun _ => trivial⟩ h) fun now w h => ?_
  refine safe_then stands_stable (find_own h) ?_
  rintro found w ⟨h, hfound⟩
  cases found with
  | none =>
      refine safe_then stands_stable (upsert_own rfl ⟨h, ?_⟩) ?_
      · intro row hrow hid hfp _
        exact absurd hfp (hfound rfl row hrow hid)
      · intro stored w h
        cases stored with
        | none => exact safe_ret stands_stable h.1 fun _ h => h
        | some row => exact report_any h
  | some cur =>
      have hplain : ∀ reported, Orderly f
          (mergeInto cur ⟨finding, verified, now, threadCols threadId forgetThread⟩ reported)
          (Ended (Stands f) fun _ => Stands f) w :=
        fun reported => merge_into_own (.inl ⟨⟨rfl, rfl, rfl, rfl, nofun⟩, rfl⟩) h
      dsimp only
      split
      · rename_i hcleared
        exact reopen_own (by rw [hcleared]; decide) rfl h
      · rename_i hdismissed
        split
        · exact reopen_own (by rw [hdismissed]; decide) rfl h
        · exact hplain false
      · exact hplain _

end Merges

section Runs

variable {f : String}

/-- A part of the run keeps what is known of the finding. -/
abbrev Keeps {α : Type} (f : String) (p : Code α) : Prop :=
  Preserves (machine.answering works) (Undismissed f) (flapContract f) .runner (Stands f) p

/-- It does if it ends well and if it raises. -/
theorem keeps_of_orderly {α : Type} {p : Code α}
    (h : ∀ w, Stands f w → Orderly f p (Ended (Stands f) fun _ => Stands f) w) : Keeps f p := by
  intro w hw
  refine (h w hw).mono ?_
  intro r w hr
  cases r with
  | none => exact hr
  | some a => exact hr

theorem keeps_of_aloof {α : Type} {p : Code α} (hp : Prog.All (Aloof f) p) : Keeps f p :=
  keeps_of_orderly fun _ h => orderly_of_aloof hp h

/-- One finding of a check. -/
theorem merge_one_keeps (threadId : Option String) (forgetThread : Bool)
    (fingerprints : List String) (item : Finding × String) :
    Keeps f (mergeOne threadId forgetThread fingerprints item) := by
  unfold mergeOne
  refine Preserves.try stands_stable (keeps_of_orderly fun w h => merge_own h) fun result => ?_
  refine keeps_of_aloof ?_
  refine Raising.all_bind ?_ fun _ => Raising.all_bind ?_ fun _ => trivial
  · split
    · exact ⟨trivial, fun _ => trivial⟩
    · trivial
  · split
    · exact clear_digests_ops around_aloof _ _
    · trivial

theorem run_check_keeps (acc : Python.Dict String CheckState × Python.Dict String (List String))
    (check : CheckRun) : Keeps f (runCheck acc check) := by
  unfold runCheck
  split
  · exact preserves_ret stands_stable _
  · exact preserves_ret stands_stable _
  · exact preserves_ret stands_stable _
  · refine Preserves.try stands_stable ?_ fun _ => preserves_ret stands_stable _
    exact preserves_fold stands_stable fun acc item _ => merge_one_keeps _ _ acc item

theorem run_once_keeps (input : RunInput) : Keeps f (runOnce input) := by
  unfold runOnce
  refine Preserves.try stands_stable ?_ fun _ => ?_
  · split
    · exact preserves_ret stands_stable _
    · exact keeps_of_aloof (clear_model_findings_ops around_aloof)
  refine Preserves.try stands_stable (keeps_of_aloof (clear_digests_ops around_aloof _ _)) fun _ =>
    ?_
  refine Preserves.try stands_stable
    (preserves_fold stands_stable fun acc check _ => run_check_keeps acc check) fun acc => ?_
  refine keeps_of_aloof ?_
  refine Raising.all_bind (clear_ops around_aloof _ _) fun _ => ?_
  refine Raising.all_bind (retry_closes_ops around_aloof) fun _ => ?_
  refine Raising.all_bind (causes_ops around_aloof _) fun _ => ?_
  refine Raising.all_bind ⟨trivial, fun _ => trivial⟩ fun finished => ?_
  exact ⟨trivial, fun _ => trivial⟩

/-- The operations of a dismissal. -/
def Dismisses : Op → Prop
  | .now => True
  | .get _ => True
  | .close _ => True
  | .set .. => True
  | _ => False

/-- An operation in the dismissal of another finding. -/
theorem dismissal_beside {n : ℕ} {op : Op} {a : op.Ans} {r : op.Res} {w w' : World}
    (h : Each (Spaced f) w.log) (hop : Dismisses op) (hother : Undismissed f (.operator n) op w w')
    (hexec : exec op a w = some (r, w')) : Each (Spaced f) w'.log ∧ Beside f w w' := by
  have hsame : Beside f w w := ⟨fun _ _ => Iff.rfl, rfl⟩
  cases op with
  | now =>
      cases hexec
      exact ⟨h, hsame⟩
  | get fid =>
      cases a <;> cases hexec <;> exact ⟨h, hsame⟩
  | close alert =>
      cases a with
      | false =>
          cases hexec
          exact ⟨h, hsame⟩
      | true =>
          cases hexec
          exact event_beside _ h (fun _ => rfl) nofun
  | set fid only cols =>
      cases a with
      | raises =>
          cases hexec
          exact ⟨h, hsame⟩
      | works =>
          cases hexec
          exact set_beside hother h
  | gate row => exact hop.elim
  | find fp => exact hop.elim
  | openRows => exact hop.elim
  | unclosed => exact hop.elim
  | upsert e only => exact hop.elim
  | sweep days now => exact hop.elim
  | post row => exact hop.elim
  | count fp => exact hop.elim

theorem spaced_reachable {findings : Findings} {c : Config Thread Op Op.Res World}
    (hrun : Reachable (machine.answering works) (Undismissed f) { findings := findings } c) :
    Each (Spaced f) c.state.log := by
  have hstart : ∀ t request w p, (flapContract f).inv w → (flapContract f).idle t w →
      (machine.answering works).start t request w = some p →
      Safe (machine.answering works) (Undismissed f) (flapContract f) t p
        (fun _ => (flapContract f).idle t) w := by
    intro t request w p _ hw hp
    cases t with
    | runner =>
        cases request with
        | run input =>
            cases hp
            exact (run_once_keeps input).thread stands_stable w hw
        | dismiss fid user => cases hp
    | operator n =>
        cases request with
        | run input => cases hp
        | dismiss fid user =>
            cases hp
            have hops : Prog.All Dismisses (dismiss fid user) :=
              dismiss_ops ⟨trivial, fun _ => trivial, fun _ => trivial, fun _ _ _ => trivial,
                fun _ => trivial⟩ fid user
            refine safe_of_all (hops.bind fun _ => trivial) (Contract.stable_const True) trivial ?_
              fun _ _ _ => trivial
            intro op hop w a r w' hinv _ hexec hother
            obtain ⟨-, hexec⟩ := Machine.answering_exec hexec
            obtain ⟨hinv', hbeside⟩ := dismissal_beside hinv hop hother hexec
            exact ⟨hinv', hbeside, trivial⟩
  have hstable : ∀ t, (flapContract f).Stable t ((flapContract f).idle t) := by
    intro t
    cases t with
    | runner => exact stands_stable
    | operator n => exact Contract.stable_const True
  have hinit : ∀ t, (flapContract f).idle t { findings := findings } := by
    intro t
    cases t with
    | runner => exact ⟨fun _ _ _ _ => ⟨.inr rfl, nofun⟩, fun _ => rfl⟩
    | operator n => trivial
  exact (Contract.sound each_nil hinit hstable hstart hrun).inv

/-- Between two alerts of a finding that is not resolved in between, its severity was seen above
that of the first while that one was stored, or it has passed the gates in `REALERT_RUNS` reports
since it last failed them. -/
theorem alerts_do_not_flap {findings : Findings} {c : Config Thread Op Op.Res World}
    {sev a sev' a' : String} {before between after : List Event}
    (hrun : Reachable (machine.answering works) (Undismissed f) { findings := findings } c)
    (hlog : c.state.log = before ++ .post f sev a :: between ++ .post f sev' a' :: after)
    (hresolve : .resolve f ∉ between) (hpost : ∀ sev a, .post f sev a ∉ between) :
    (∃ row, .gate row true ∈ between ∧ row.id = f ∧ row.alertId = some a ∧
        rank sev < rank row.severity) ∨
      REALERT_RUNS ≤ passed f (before ++ .post f sev a :: between) := by
  have hspaced : Spaced f (before ++ .post f sev a :: between) (.post f sev' a') := by
    have hall := spaced_reachable hrun
    rw [hlog, List.append_cons _ (.post f sev' a') after] at hall
    exact (each_concat.mp hall.part).2
  have hlast : (standing f (before ++ .post f sev a :: between)).posted ≠ none := by
    rw [posted_between hresolve hpost]
    exact Option.some_ne_none _
  rcases hspaced sev' a' rfl hlast with hrisen | hstreak
  · exact .inl (risen_between hresolve hpost hrisen)
  · exact .inr (standing_streak f _ ▸ hstreak)

/-- The events say nothing of an alert of the finding. -/
def unposted (f : String) (events : List Event) : Bool :=
  events.all fun
    | .post g _ _ => g != f
    | _ => true

theorem not_mem_of_unposted {events : List Event} (h : unposted f events = true) (sev a : String) :
    .post f sev a ∉ events := by
  intro hmem
  have hpost := List.all_eq_true.mp h _ hmem
  simp at hpost

/-- The answers, with another alert. -/
def laterAnswers : (op : Op) → op.Ans
  | .post _ => some "alert-2"
  | op => answers op

/-- The severity of a disk rises from a warning, and its second alert comes after that. -/
theorem alert_after_rise : ∃ (c : Config Thread Op Op.Res World)
    (before between after : List Event),
    Reachable (machine.answering works) (Undismissed "f1") { findings := ⟨[], .nil, .nil⟩ } c ∧
      c.state.log = before ++ .post "f1" "warning" "alert-1" :: between ++
        .post "f1" "critical" "alert-2" :: after ∧
      .resolve "f1" ∉ between ∧ (∀ sev a, .post "f1" sev a ∉ between) ∧
      ((∃ row, .gate row true ∈ between ∧ row.id = "f1" ∧ row.alertId = some "alert-1" ∧
          rank "warning" < rank row.severity) ∨
        REALERT_RUNS ≤ passed "f1" (before ++ .post "f1" "warning" "alert-1" :: between)) := by
  have hrun : ((Config.idle { findings := ⟨[], .nil, .nil⟩ }).plays (machine.answering works)
      (Undismissed "f1")
      (.start .runner (.run (diskRun "warning")) :: goOn .runner 17 ++ .finish .runner ::
        .start .runner (.run (diskRun "critical")) ::
          List.replicate 15 (.perform .runner laterAnswers))).bind (fun c =>
        if c.state.log = c.state.log.take 1 ++ .post "f1" "warning" "alert-1" ::
              (c.state.log.drop 2).take 3 ++ .post "f1" "critical" "alert-2" :: c.state.log.drop 6 ∧
            .resolve "f1" ∉ (c.state.log.drop 2).take 3 ∧
            unposted "f1" ((c.state.log.drop 2).take 3) = true
          then some () else none) = some () := by decide +kernel
  obtain ⟨c, hc, hlog⟩ := exists_run_of_plays hrun
  obtain ⟨hlog, hresolve, hpost⟩ := (ite_eq_iff.mp hlog).elim And.left fun hno => nomatch hno.2
  exact ⟨c, _, _, _, hc, hlog, hresolve, not_mem_of_unposted hpost,
    alerts_do_not_flap hc hlog hresolve (not_mem_of_unposted hpost)⟩

end Runs

end SystemsManager.Forecast
