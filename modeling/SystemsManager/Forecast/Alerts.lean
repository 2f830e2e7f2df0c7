import SystemsManager.Forecast.Operations

/-!
# No forecast alert is orphaned

An alert is posted by one call and its id is stored by another, and a dismissal may come between
them. `Tracked` is the invariant of the runs: every alert that was posted is closed, or stored on
its finding, or about to be stored. What dismissals do beside a run is `Quiet`: they take alerts off
rows and never put one there, so that a copy of a row stays true up to the alert it has lost
(`Copy`). `no_alert_orphaned` is the theorem to read. Its condition `Recorded` leaves out the runs
in which a new id is not stored, a dismissal forgets an alert that it has not closed, or a finding
is swept with an alert that is not closed; `dismissed_in_flight` is such a run.
-/

namespace SystemsManager.Forecast

open Concurrency

section Statements

variable {w w' : World} {fid : String} {only : List Status} {cols : Cols}

theorem alert_apply (row : Row) (hcols : ∀ a, cols.alertId ≠ some (some a)) :
    (cols.apply row).alert = row.alert ∧ cols.alertId = none ∨
      (cols.apply row).alert = none ∧ cols.alertId = some none := by
  cases halert : cols.alertId with
  | none => simp [Row.alert, Cols.apply, halert]
  | some alert =>
      cases alert with
      | none => simp [Row.alert, Cols.apply, halert]
      | some a => exact absurd halert (hcols a)

end Statements

section Tracking

/-- The alert is closed. -/
abbrev Closed (a : String) (w : World) : Prop := Event.close a ∈ w.log

/-- The alert that the finding stores, if any, is closed; only a finding with one of the statuses is
looked at. -/
def Covered (only : List Status) (fid : String) (w : World) : Prop :=
  ∀ row ∈ w.findings.rows, row.id = fid → only = [] ∨ row.status ∈ only →
    ∀ a ∈ row.alert, Closed a w

instance (only : List Status) (fid : String) (w : World) : Decidable (Covered only fid w) := by
  unfold Covered
  infer_instance

/-- Every alert that was posted is closed, or stored on its finding, or about to be stored. -/
structure Tracked (w : World) : Prop where
  stored : ∀ f sev a, Event.post f sev a ∈ w.log → Closed a w ∨
    (∃ row ∈ w.findings.rows, row.id = f ∧ row.alert = some a) ∨ w.inFlight = some (f, a)
  vacant : ∀ f a, w.inFlight = some (f, a) → Covered [] f w

/-- What happens beside the run: rows keep their names and no row gets an alert. -/
structure Quiet (w w' : World) : Prop where
  rows : ∀ row' ∈ w'.findings.rows, ∃ row ∈ w.findings.rows, row'.id = row.id ∧
    row'.fingerprint = row.fingerprint ∧ (row'.alert = row.alert ∨ row'.alert = none)
  inFlight : w'.inFlight = w.inFlight
  closed : ∀ a, Closed a w → Closed a w'

/-- Quiet steps keep the assertion. -/
def Lasting (J : World → Prop) : Prop := ∀ w w', Quiet w w' → J w → J w'

variable {w w' : World} {fid : String} {only : List Status} {cols : Cols}

theorem Tracked.step (h : Tracked w) (hflight : w'.inFlight = w.inFlight)
    (hpost : ∀ f sev a, Event.post f sev a ∈ w'.log → Event.post f sev a ∈ w.log)
    (hclosed : ∀ a, Closed a w → Closed a w')
    (hstay : ∀ row ∈ w.findings.rows, ∀ a, row.alert = some a → Closed a w' ∨
      ∃ row' ∈ w'.findings.rows, row'.id = row.id ∧ row'.alert = some a)
    (hback : ∀ row' ∈ w'.findings.rows, ∀ a, row'.alert = some a →
      ∃ row ∈ w.findings.rows, row.id = row'.id ∧ row.alert = some a) : Tracked w' := by
  refine ⟨?_, ?_⟩
  · intro f sev a hmem
    rcases h.stored f sev a (hpost f sev a hmem) with hdone | ⟨row, hrow, rfl, halert⟩ | hfly
    · exact .inl (hclosed a hdone)
    · rcases hstay row hrow a halert with hdone | ⟨row', hrow', hid, halert'⟩
      · exact .inl hdone
      · exact .inr (.inl ⟨row', hrow', hid, halert'⟩)
    · exact .inr (.inr (hflight.trans hfly))
  · intro f a hfly row' hrow' hid _ b halert
    obtain ⟨row, hrow, hid', halert'⟩ := hback row' hrow' b halert
    exact hclosed b (h.vacant f a (hflight ▸ hfly) row hrow (hid'.trans hid) (.inl rfl) b halert')

theorem stored_eq_none (hcols : ∀ a, cols.alertId ≠ some (some a)) :
    World.stored fid cols = none := by
  unfold World.stored
  split
  · rename_i a ha
    exact absurd ha (hcols a)
  · rfl

theorem closed_append {a : String} {e : List Event} (h : Event.close a ∈ w.log) :
    Event.close a ∈ w.log ++ e :=
  List.mem_append_left _ h

/-- A statement that stores no alert is quiet, and what is tracked stays so if an alert that is
forgotten is closed. -/
theorem set_quiet (h : Tracked w) (hcols : ∀ a, cols.alertId ≠ some (some a))
    (hcovered : cols.alertId = some none → Covered only fid w) :
    Tracked (w.set fid only cols).2 ∧ Quiet w (w.set fid only cols).2 := by
  rcases w.set_cases fid only cols with heq | ⟨row, hrow, hid, honly, t, ht, heq⟩
  · rw [heq]
    exact ⟨h, fun row' hrow' => ⟨row', hrow', rfl, rfl, .inl rfl⟩, rfl, fun _ ha => ha⟩
  · have hflight : (w.set fid only cols).2.inFlight = w.inFlight := by
      rw [heq]
      simp only [stored_eq_none hcols]
      split
      · rename_i hnone
        exact hnone.symm
      · rfl
    have hclosed : ∀ a, Closed a w → Closed a (w.set fid only cols).2 := by
      intro a ha
      rw [heq]
      unfold Closed
      dsimp only
      split
      · exact closed_append ha
      · exact ha
    have hpost : ∀ f sev a, Event.post f sev a ∈ (w.set fid only cols).2.log →
        Event.post f sev a ∈ w.log := by
      intro f sev a hmem
      rw [heq] at hmem
      dsimp only at hmem
      split at hmem
      · simpa using hmem
      · exact hmem
    have hrows : (w.set fid only cols).2.findings = t := by rw [heq]
    refine ⟨h.step hflight hpost hclosed ?_ ?_, ?_, hflight, hclosed⟩
    · intro old hold a halert
      rw [hrows]
      by_cases hfid : old.id = fid
      · rcases alert_apply old hcols with ⟨hsame, -⟩ | ⟨-, hforget⟩
        · exact .inr ⟨cols.apply old, ht.at hold hfid, rfl, hsame.trans halert⟩
        · have hsame := Findings.eq_of_id hold hrow (hfid.trans hid.symm)
          exact .inl (hclosed a (hcovered hforget old hold hfid (hsame ▸ honly) a halert))
      · exact .inr ⟨old, ht.apart hold hfid, rfl, halert⟩
    · intro row' hrow' a halert
      rw [hrows] at hrow'
      rcases ht.cases hrow' with ⟨old, hold, -, rfl⟩ | ⟨hold, -⟩
      · rcases alert_apply old hcols with ⟨hsame, -⟩ | ⟨hnone, -⟩
        · exact ⟨old, hold, rfl, hsame ▸ halert⟩
        · rw [hnone] at halert
          cases halert
      · exact ⟨row', hold, rfl, halert⟩
    · intro row' hrow'
      rw [hrows] at hrow'
      rcases ht.cases hrow' with ⟨old, hold, -, rfl⟩ | ⟨hold, -⟩
      · exact ⟨old, hold, rfl, rfl, (alert_apply old hcols).imp And.left And.left⟩
      · exact ⟨row', hold, rfl, rfl, .inl rfl⟩

/-- A report stores no alert, and what is tracked stays so if an alert that is forgotten is
closed. -/
theorem upsert_tracked {e : Entry} {uuid : String} (h : Tracked w)
    (hcols : ∀ a, e.cols.alertId ≠ some (some a))
    (hcovered : e.cols.alertId = some none → ∀ row ∈ w.findings.rows,
      row.fingerprint = e.finding.key → ∀ a, row.alert = some a → Closed a w) :
    Tracked (w.upsert e only uuid).2 ∧ (w.upsert e only uuid).2.inFlight = w.inFlight := by
  have happly : ∀ row : Row, (e.apply row).alert = row.alert ∧ e.cols.alertId = none ∨
      (e.apply row).alert = none ∧ e.cols.alertId = some none :=
    fun row => @alert_apply e.cols _ hcols
  rcases w.upsert_cases e only uuid with heq | ⟨heq, -⟩ | ⟨row, hrow, hfp, -, t, ht, heq⟩ |
    ⟨-, t, ht, heq⟩
  · rw [heq]
    exact ⟨h, rfl⟩
  · rw [heq]
    exact ⟨h, rfl⟩
  · rw [heq]
    refine ⟨h.step rfl (fun _ _ _ hmem => hmem) (fun _ ha => ha) ?_ ?_, rfl⟩
    · intro old hold a halert
      by_cases hid : old.id = row.id
      · have hsame := Findings.eq_of_id hold hrow hid
        rcases happly old with ⟨hkeep, -⟩ | ⟨-, hforget⟩
        · exact .inr ⟨e.apply old, ht.at hold hid, rfl, hkeep.trans halert⟩
        · exact .inl (hcovered hforget old hold (hsame ▸ hfp) a halert)
      · exact .inr ⟨old, ht.apart hold hid, rfl, halert⟩
    · intro row' hrow' a halert
      rcases ht.cases hrow' with ⟨old, hold, -, rfl⟩ | ⟨hold, -⟩
      · rcases happly old with ⟨hkeep, -⟩ | ⟨hnone, -⟩
        · exact ⟨old, hold, rfl, hkeep ▸ halert⟩
        · rw [hnone] at halert
          cases halert
      · exact ⟨row', hold, rfl, halert⟩
  · rw [heq]
    refine ⟨h.step rfl (fun _ _ _ hmem => hmem) (fun _ ha => ha) ?_ ?_, rfl⟩
    · intro old hold a halert
      exact .inr ⟨old, (ht old).mpr (.inl hold), rfl, halert⟩
    · intro row' hrow' a halert
      rcases (ht row').mp hrow' with hold | rfl
      · exact ⟨row', hold, rfl, halert⟩
      · have hnone : (e.newRow uuid).alert = none :=
          (happly _).elim (fun hkeep => hkeep.1) fun hgone => hgone.1
        rw [hnone] at halert
        cases halert

end Tracking

section Promises

/-- The runs in which every alert is recorded: an id that is to be stored is stored, an alert that a
dismissal forgets is closed, and no finding is swept before its alert is closed. -/
def Recorded (_ : Thread) (op : Op) (w w' : World) : Prop :=
  match op with
  | .set fid only cols =>
      match cols.alertId with
      | some (some _) => w'.inFlight = none
      | some none => only = [.dismissed] → Covered only fid w
      | none => True
  | .sweep .. => ∀ row ∈ w.findings.rows, ∀ a ∈ row.alert, Closed a w ∨ row ∈ w'.findings.rows
  | _ => True

instance (t : Thread) (op : Op) (w w' : World) : Decidable (Recorded t op w w') := by
  unfold Recorded
  split
  · split <;> infer_instance
  · infer_instance
  · infer_instance

/-- The run keeps track of the alerts, and a dismissal only takes alerts off. -/
def alertContract : Contract Thread World where
  inv := Tracked
  guar
    | .runner, _, _ => True
    | .operator _, w, w' => Quiet w w'
  idle
    | .runner, w => w.inFlight = none
    | .operator _, _ => True

variable {w w' : World} {J : World → Prop}

/-- Dismissals keep what lasts. -/
theorem Lasting.stable (h : Lasting J) : alertContract.Stable .runner J := by
  intro u hu w w' _ _ hguar hw
  cases u with
  | runner => exact absurd rfl hu
  | operator n => exact h w w' hguar hw

theorem quiet_of_log {log : List Event} (hlog : ∀ a, Closed a w → Event.close a ∈ log) :
    Quiet w { w with log := log } :=
  ⟨fun row hrow => ⟨row, hrow, rfl, rfl, .inl rfl⟩, rfl, hlog⟩

theorem Tracked.of_log {log : List Event} (h : Tracked w)
    (hpost : ∀ f sev a, Event.post f sev a ∈ log → Event.post f sev a ∈ w.log)
    (hclosed : ∀ a, Closed a w → Event.close a ∈ log) : Tracked { w with log := log } :=
  h.step rfl hpost hclosed (fun row hrow _ halert => .inr ⟨row, hrow, rfl, halert⟩)
    fun row hrow _ halert => ⟨row, hrow, rfl, halert⟩

/-- The operations that store nothing on a row, but may take an alert off. -/
def Fading : Op → Prop
  | .set _ _ cols => ∀ a, cols.alertId ≠ some (some a)
  | .upsert .. => False
  | .sweep .. => False
  | .post _ => False
  | _ => True

/-- An operation takes no alert off that is not closed. -/
def Careful (w : World) : Op → Prop
  | .set fid only cols => cols.alertId = some none → Covered only fid w
  | _ => True

/-- The steps of such operations. -/
theorem fading_step {op : Op} {a : op.Ans} {r : op.Res} (h : Tracked w) (hop : Fading op)
    (hcare : Careful w op) (hexec : exec op a w = some (r, w')) : Tracked w' ∧ Quiet w w' := by
  have hsame : Tracked w ∧ Quiet w w := ⟨h, quiet_of_log fun _ ha => ha⟩
  have hevent : ∀ e : Event, (∀ f sev a, e ≠ .post f sev a) →
      Tracked { w with log := w.log ++ [e] } ∧ Quiet w { w with log := w.log ++ [e] } := by
    intro e he
    refine ⟨h.of_log ?_ fun a ha => closed_append ha, quiet_of_log fun a ha => closed_append ha⟩
    intro f sev a hmem
    rcases List.mem_append.mp hmem with hold | hnew
    · exact hold
    · exact absurd (List.mem_singleton.mp hnew).symm (he f sev a)
  cases op with
  | now =>
      cases hexec
      exact hsame
  | gate row =>
      cases hexec
      exact hevent _ fun _ _ _ => nofun
  | find fp =>
      cases a <;> cases hexec <;> exact hsame
  | get fid =>
      cases a <;> cases hexec <;> exact hsame
  | openRows =>
      cases a <;> cases hexec <;> exact hsame
  | unclosed =>
      cases a <;> cases hexec <;> exact hsame
  | upsert entry only => exact hop.elim
  | set fid only cols =>
      cases a with
      | raises =>
          cases hexec
          exact hsame
      | works =>
          cases hexec
          exact set_quiet h hop hcare
  | sweep days now => exact hop.elim
  | post row => exact hop.elim
  | close alert =>
      cases a with
      | false =>
          cases hexec
          exact hsame
      | true =>
          cases hexec
          exact hevent _ fun _ _ _ => nofun
  | count fp =>
      cases hexec
      exact hevent _ fun _ _ _ => nofun

/-- An operation that changes nothing lasting leaves the rest of the program safe. -/
theorem safe_fading {α : Type} {op : Op} {k : op.Res → Prog Op Op.Res α} {Q : α → World → Prop}
    (hJ : Lasting J) (hw : J w) (hop : Fading op) (hcare : ∀ w, J w → Careful w op)
    (hk : ∀ w₀ a r w₁, J w₀ → exec op a w₀ = some (r, w₁) → J w₁ →
      Safe machine Recorded alertContract .runner (k r) Q w₁) :
    Safe machine Recorded alertContract .runner (.call op k) Q w := by
  refine safe_call hJ.stable hw ?_
  intro w₀ a r w₁ hinv hw₀ hexec _
  obtain ⟨hinv', hquiet⟩ := fading_step hinv hop (hcare w₀ hw₀) hexec
  exact ⟨hinv', trivial, hk w₀ a r w₁ hw₀ hexec (hJ w₀ w₁ hquiet hw₀)⟩

/-- So does a question to the service that may raise. -/
theorem safe_ask {α : Type} {op : Op} {f : op.Res → Code α} {Q : Option α → World → Prop}
    (hJ : Lasting J) (hw : J w) (hop : Fading op) (hcare : ∀ w, J w → Careful w op)
    (hk : ∀ w₀ a r w₁, J w₀ → exec op a w₀ = some (r, w₁) → J w₁ →
      Safe machine Recorded alertContract .runner (f r) Q w₁) :
    Safe machine Recorded alertContract .runner ((Raising.ask op).bind f) Q w :=
  safe_fading hJ hw hop hcare hk

end Promises

section Parts

variable {w : World} {J : World → Prop} {row : Row}

/-- No alert is about to be stored. -/
def Calm (w : World) : Prop := w.inFlight = none

/-- The row in the table has the alert of this copy, or none. -/
def Copy (row : Row) (w : World) : Prop :=
  ∀ r ∈ w.findings.rows, r.id = row.id → r.alert = row.alert ∨ r.alert = none

theorem calm_lasting : Lasting Calm := fun _ _ hquiet hw => hquiet.inFlight.trans hw

theorem copy_lasting (row : Row) : Lasting (Copy row) := by
  intro w w' hquiet hw r' hr' hid
  obtain ⟨r, hr, hrid, -, halert⟩ := hquiet.rows r' hr'
  rcases halert with halert | halert
  · rw [halert]
    exact hw r hr (hrid ▸ hid)
  · exact .inr halert

/-- A closed alert stays one. -/
theorem covered_lasting (fid : String) : Lasting (Covered [] fid) := by
  intro w w' hquiet hw r' hr' hid _ a ha
  obtain ⟨r, hr, hrid, -, halert⟩ := hquiet.rows r' hr'
  rcases halert with halert | halert
  · exact hquiet.closed a (hw r hr (hrid ▸ hid) (.inl rfl) a (halert ▸ ha))
  · rw [halert] at ha
    cases ha

theorem Lasting.and {K : World → Prop} (hJ : Lasting J) (hK : Lasting K) :
    Lasting fun w => J w ∧ K w :=
  fun w w' hquiet hw => ⟨hJ w w' hquiet hw.1, hK w w' hquiet hw.2⟩

theorem copy_of_mem (h : row ∈ w.findings.rows) : Copy row w := by
  intro r hr hid
  rw [Findings.eq_of_id hr h hid]
  exact .inl rfl

theorem Copy.covered (h : Copy row w) (hnone : row.alert = none) : Covered [] row.id w := by
  intro r hr hid _ a ha
  rcases h r hr hid with halert | halert
  · rw [halert, hnone] at ha
    cases ha
  · rw [halert] at ha
    cases ha

/-- The statements of a program keep an assertion that lasts. -/
abbrev Steady {α : Type} (J : World → Prop) (p : Prog Op Op.Res α) : Prop :=
  Preserves machine Recorded alertContract .runner J p

theorem steady_call {α : Type} {op : Op} {k : op.Res → Prog Op Op.Res α} (hJ : Lasting J)
    (hop : Fading op) (hcare : ∀ w, J w → Careful w op) (hk : ∀ r, Steady J (k r)) :
    Steady J (.call op k) :=
  fun _ hw => safe_fading hJ hw hop hcare fun _ _ r w₁ _ _ hw₁ => hk r w₁ hw₁

theorem close_alert_safe (hJ : Lasting J) (hw : J w) (hcopy : Copy row w) :
    Safe machine Recorded alertContract .runner (closeAlert row)
      (Ended J fun closed w => J w ∧ (closed = true → Covered [] row.id w)) w := by
  unfold closeAlert
  cases halert : row.alert with
  | none =>
      refine safe_ret (hJ.and (copy_lasting row)).stable ⟨hw, hcopy⟩ ?_
      exact fun w h => ⟨h.1, fun _ => h.2.covered halert⟩
  | some a =>
      refine safe_fading (hJ.and (copy_lasting row)) ⟨hw, hcopy⟩ trivial (fun _ _ => trivial) ?_
      intro w₀ ans r w₁ hw₀ hexec hw₁
      cases ans with
      | false =>
          cases hexec
          exact safe_ret hJ.stable hw₁.1 fun w h => ⟨h, fun hno => nomatch hno⟩
      | true =>
          cases hexec
          refine safe_ret (hJ.and (covered_lasting row.id)).stable ⟨hw₁.1, ?_⟩
            fun w h => ⟨h.1, fun _ => h.2⟩
          intro r' hr' hid _ b hb
          rcases hw₁.2 r' hr' hid with hsame | hnone
          · rw [hsame, halert] at hb
            cases hb
            exact List.mem_append_right _ (List.mem_singleton_self _)
          · rw [hnone] at hb
            cases hb

variable {only : List Status}

theorem set_safe {fid : String} {cols : Cols} (hJ : Lasting J) (hw : J w)
    (hcols : ∀ a, cols.alertId ≠ some (some a))
    (hcovered : cols.alertId = some none → Covered [] fid w) :
    Safe machine Recorded alertContract .runner (Code.set fid only cols)
    (Ended J fun _ => J) w := by
  have hlasting : Lasting fun w => J w ∧ (cols.alertId = some none → Covered [] fid w) :=
    hJ.and fun w w' hquiet hw hforget => covered_lasting fid w w' hquiet (hw hforget)
  refine safe_fading hlasting ⟨hw, hcovered⟩ hcols ?_ ?_
  · intro w h hforget r hr hid _
    exact h.2 hforget r hr hid (.inl rfl)
  · intro w₀ ans r w₁ _ _ hw₁
    cases r with
    | none => exact safe_ret hJ.stable hw₁.1 fun _ h => h
    | some done => exact safe_ret hJ.stable hw₁.1 fun _ h => h

theorem resolve_alert_safe {statuses : List Status} (hJ : Lasting J) (hw : J w)
    (hcopy : Copy row w) :
    Safe machine Recorded alertContract .runner (resolveAlert row statuses)
      (Ended J fun _ => J) w := by
  unfold resolveAlert
  split
  · refine safe_then hJ.stable (close_alert_safe hJ hw hcopy) ?_
    rintro closed w ⟨hw, hclosed⟩
    cases closed with
    | false => exact safe_ret hJ.stable hw fun _ h => h
    | true =>
        refine safe_then hJ.stable (set_safe hJ hw nofun fun _ => hclosed rfl) ?_
        exact fun _ w h => safe_ret hJ.stable h fun _ h => h
  · exact safe_ret hJ.stable hw fun _ h => h

theorem get_safe {fid : String} (hJ : Lasting J) (hw : J w) :
    Safe machine Recorded alertContract .runner (Code.get fid) (Ended J fun _ => J) w := by
  refine safe_fading hJ hw trivial (fun _ _ => trivial) ?_
  intro w₀ ans r w₁ hw₀ hexec hw₁
  cases r with
  | none => exact safe_ret hJ.stable hw₁ fun _ h => h
  | some done => exact safe_ret hJ.stable hw₁ fun _ h => h

theorem drop_alert_safe (hcalm : Calm w) (hcopy : Copy row w) :
    Safe machine Recorded alertContract .runner (dropAlert row) (Ended Calm fun _ => Calm) w := by
  unfold dropAlert
  have hclose : Safe machine Recorded alertContract .runner
      (if row.alert.isSome then closeAlert row else pure false : Code Bool)
      (Ended Calm fun closed w => Calm w ∧ (closed = true → Covered [] row.id w)) w := by
    split
    · exact close_alert_safe calm_lasting hcalm hcopy
    · exact safe_ret calm_lasting.stable hcalm fun w h => ⟨h, fun hno => nomatch hno⟩
  refine safe_then calm_lasting.stable hclose ?_
  rintro closed w ⟨hcalm, hclosed⟩
  split
  · exact safe_ret calm_lasting.stable hcalm fun _ h => h
  · have hset : Safe machine Recorded alertContract .runner
        (Code.set row.id [.open] (dropCols row closed)) (Ended Calm fun _ => Calm) w := by
      cases closed with
      | false => exact set_safe calm_lasting hcalm nofun nofun
      | true => exact set_safe calm_lasting hcalm nofun fun _ => hclosed rfl
    refine safe_then calm_lasting.stable hset ?_
    intro done w hcalm
    split
    · refine safe_then calm_lasting.stable (get_safe calm_lasting hcalm) ?_
      exact fun _ w h => safe_ret calm_lasting.stable h fun _ h => h
    · exact safe_ret calm_lasting.stable hcalm fun _ h => h

theorem Copy.same {row' : Row} (h : Copy row w) (hid : row'.id = row.id)
    (halert : row'.alert = row.alert) : Copy row' w := by
  intro r hr hr'
  rw [halert]
  exact h r hr (hr'.trans hid)

theorem bump_streak_safe (hcalm : Calm w) (hcopy : Copy row w) :
    Safe machine Recorded alertContract .runner (bumpStreak row)
      (Ended Calm fun row w => Calm w ∧ Copy row w) w := by
  unfold bumpStreak
  have hlasting := calm_lasting.and (copy_lasting row)
  refine safe_then calm_lasting.stable (R := fun _ w => Calm w ∧ Copy row w) ?_ ?_
  · refine (set_safe hlasting ⟨hcalm, hcopy⟩ ?_ ?_).weaken fun _ h => h.1
    · exact nofun
    · exact nofun
  · intro done w h
    split
    · exact safe_ret hlasting.stable h fun w h => ⟨h.1, h.2.same rfl rfl⟩
    · exact safe_ret hlasting.stable h fun w h => h

theorem in_flight_lasting (f a : String) : Lasting fun w => w.inFlight = some (f, a) :=
  fun _ _ hquiet hw => hquiet.inFlight.trans hw

theorem record_tracked {fid a : String} {cols : Cols} (h : Tracked w)
    (hfly : w.inFlight = some (fid, a)) (hcols : cols.alertId = some (some a)) (ha : a ≠ "")
    (hcalm : Calm (w.set fid only cols).2) : Tracked (w.set fid only cols).2 := by
  rcases w.set_cases fid only cols with heq | ⟨row, hrow, hid, -, t, ht, heq⟩
  · rw [heq] at hcalm
    rw [show w.inFlight = none from hcalm] at hfly
    cases hfly
  · have hnew : ∀ old : Row, (cols.apply old).alert = some a := by
      intro old
      simp [Row.alert, Cols.apply, hcols, ha]
    have hclosed : ∀ b, Closed b w → Closed b (w.set fid only cols).2 := by
      intro b hb
      rw [heq]
      unfold Closed
      dsimp only
      split
      · exact closed_append hb
      · exact hb
    refine ⟨?_, fun f b hfly' => ?_⟩
    · intro f sev b hmem
      have hold : Event.post f sev b ∈ w.log := by
        rw [heq] at hmem
        dsimp only at hmem
        split at hmem
        · simpa using hmem
        · exact hmem
      have hrows : (w.set fid only cols).2.findings = t := by rw [heq]
      rw [hrows]
      rcases h.stored f sev b hold with hdone | ⟨r, hr, hrid, halert⟩ | hfly'
      · exact .inl (hclosed b hdone)
      · by_cases hf : r.id = fid
        · exact .inl (hclosed b (h.vacant fid a hfly r hr hf (.inl rfl) b halert))
        · exact .inr (.inl ⟨r, ht.apart hr hf, hrid, halert⟩)
      · rw [hfly] at hfly'
        cases hfly'
        exact .inr (.inl ⟨cols.apply row, ht.at hrow hid, hid, hnew row⟩)
    · rw [show (w.set fid only cols).2.inFlight = none from hcalm] at hfly'
      cases hfly'

variable {reported : Bool}

theorem record_safe {a : String} (hfly : w.inFlight = some (row.id, a)) (ha : a ≠ "") :
    Safe machine Recorded alertContract .runner (recordAlert row a reported)
      (Ended Calm fun _ => Calm) w := by
  refine safe_fading (in_flight_lasting row.id a) hfly trivial (fun _ _ => trivial) ?_
  intro _ _ now w _ _ hfly
  refine safe_call (in_flight_lasting row.id a).stable hfly ?_
  intro w ans r w' hinv hfly hexec hcalm
  have hcalm : Calm w' := hcalm
  cases ans with
  | raises =>
      cases hexec
      rw [show w.inFlight = none from hcalm] at hfly
      cases hfly
  | works =>
      cases hexec
      refine ⟨record_tracked hinv hfly rfl ha hcalm, trivial, ?_⟩
      simp only [Prog.ret_bind]
      split
      · refine safe_then calm_lasting.stable (get_safe calm_lasting hcalm) ?_
        exact fun _ w h => safe_ret calm_lasting.stable h fun _ h => h
      · exact safe_ret calm_lasting.stable hcalm fun _ h => h

theorem raise_alert_safe (hcalm : Calm w) (hcovered : Covered [] row.id w) :
    Safe machine Recorded alertContract .runner (raiseAlert row reported)
      (Ended Calm fun _ => Calm) w := by
  unfold raiseAlert
  refine safe_call (calm_lasting.and (covered_lasting row.id)).stable ⟨hcalm, hcovered⟩ ?_
  rintro w₀ ans r w₁ hinv ⟨hcalm, hcovered⟩ hexec -
  cases ans with
  | none =>
      cases hexec
      exact ⟨hinv, trivial, safe_ret calm_lasting.stable hcalm fun _ h => h⟩
  | some a =>
      simp only [machine, exec] at hexec
      split at hexec
      · rename_i hfresh
        cases hexec
        have hinv' : Tracked { w₀ with
            inFlight := some (row.id, a), log := w₀.log ++ [.post row.id row.severity a] } := by
          refine ⟨?_, ?_⟩
          · intro f sev b hmem
            rcases List.mem_append.mp hmem with hold | hnew
            · rcases hinv.stored f sev b hold with hdone | hstored | hfly
              · exact .inl (closed_append hdone)
              · exact .inr (.inl hstored)
              · rw [hcalm] at hfly
                cases hfly
            · cases List.mem_singleton.mp hnew
              exact .inr (.inr rfl)
          · intro f b hfly r hr hid _ c hc
            cases hfly
            exact closed_append (hcovered r hr hid (.inl rfl) c hc)
        refine ⟨hinv', trivial, ?_⟩
        exact record_safe rfl hfresh.1
      · cases hexec

theorem report_passed_safe (hcalm : Calm w) (hcopy : Copy row w) :
    Safe machine Recorded alertContract .runner (reportPassed row reported)
      (Ended Calm fun _ => Calm) w := by
  have hdone : Safe machine Recorded alertContract .runner (pure (row, reported) :
    Code (Row × Bool))
      (Ended Calm fun _ => Calm) w := safe_ret calm_lasting.stable hcalm fun _ h => h
  unfold reportPassed
  dsimp only
  split
  · split
    · exact hdone
    · refine safe_then calm_lasting.stable (close_alert_safe calm_lasting hcalm hcopy) ?_
      rintro closed w ⟨hcalm, hclosed⟩
      cases closed with
      | false => exact safe_ret calm_lasting.stable hcalm fun _ h => h
      | true =>
          have hlasting := calm_lasting.and (covered_lasting row.id)
          refine safe_then calm_lasting.stable (R := fun _ w => Calm w ∧ Covered [] row.id w) ?_ ?_
          · refine (set_safe hlasting ⟨hcalm, hclosed rfl⟩ ?_ ?_).weaken fun _ h => h.1
            · exact nofun
            · exact fun _ => hclosed rfl
          · rintro done w ⟨hcalm, hcovered⟩
            cases done with
            | false => exact safe_ret calm_lasting.stable hcalm fun _ h => h
            | true => exact raise_alert_safe hcalm hcovered
  · rename_i halert
    have hnone : row.alert = none := by simpa using halert
    split
    · exact hdone
    · split
      · exact hdone
      · exact raise_alert_safe hcalm (hcopy.covered hnone)

theorem report_safe (hcalm : Calm w) (hcopy : Copy row w) :
    Safe machine Recorded alertContract .runner (report row reported)
      (Ended Calm fun _ => Calm) w := by
  unfold report
  split
  · exact safe_ret calm_lasting.stable hcalm fun _ h => h
  · refine safe_ask (calm_lasting.and (copy_lasting row)) ⟨hcalm, hcopy⟩ trivial
      (fun _ _ => trivial) ?_
    rintro _ _ passes w - - ⟨hcalm, hcopy⟩
    cases passes with
    | false =>
        refine safe_then calm_lasting.stable (drop_alert_safe hcalm hcopy) ?_
        exact fun _ w h => safe_ret calm_lasting.stable h fun _ h => h
    | true =>
        refine safe_then calm_lasting.stable (bump_streak_safe hcalm hcopy) ?_
        exact fun row w h => report_passed_safe h.1 h.2

/-- The finding with the fingerprint has no alert that is not closed. -/
def Free (fp : String) (w : World) : Prop :=
  ∀ row ∈ w.findings.rows, row.fingerprint = fp → ∀ a, row.alert = some a → Closed a w

/-- A closed alert stays one. -/
theorem free_lasting (fp : String) : Lasting (Free fp) := by
  intro w w' hquiet hw r' hr' hfp a ha
  obtain ⟨r, hr, -, hrfp, halert⟩ := hquiet.rows r' hr'
  rcases halert with halert | halert
  · exact hquiet.closed a (hw r hr (hrfp ▸ hfp) a (halert ▸ ha))
  · rw [halert] at ha
    cases ha

theorem upsert_safe {e : Entry} (hcalm : Calm w) (hcols : ∀ a, e.cols.alertId ≠ some (some a))
    (hfree : e.cols.alertId = some none → Free e.finding.key w) :
    Safe machine Recorded alertContract .runner (Code.upsert e only)
      (Ended Calm fun stored w => Calm w ∧ ∀ row ∈ stored, Copy row w) w := by
  have hlasting : Lasting fun w => Calm w ∧ (e.cols.alertId = some none → Free e.finding.key w) :=
    calm_lasting.and fun w w' hquiet hw hforget => free_lasting _ w w' hquiet (hw hforget)
  refine safe_call hlasting.stable ⟨hcalm, hfree⟩ ?_
  rintro w ⟨db, uuid⟩ r w' hinv ⟨hcalm, hfree⟩ hexec -
  cases db with
  | raises =>
      cases hexec
      exact ⟨hinv, trivial, safe_ret calm_lasting.stable hcalm fun _ h => h⟩
  | works =>
      have hexec : w.upsert e only uuid = (r, w') := by simpa [machine, exec, statement] using hexec
      have hkept : Tracked (w.upsert e only uuid).2 ∧
          (w.upsert e only uuid).2.inFlight = w.inFlight := upsert_tracked hinv hcols hfree
      rw [hexec] at hkept
      have hcalm' : Calm w' := hkept.2.trans hcalm
      refine ⟨hkept.1, trivial, ?_⟩
      rcases w.upsert_cases e only uuid with heq | ⟨heq, -⟩ | ⟨row, hrow, -, -, t, ht, heq⟩ |
        ⟨-, t, ht, heq⟩
      · cases hexec.symm.trans heq
        exact safe_ret calm_lasting.stable hcalm' fun _ h => h
      · cases hexec.symm.trans heq
        exact safe_ret calm_lasting.stable hcalm' fun w h => ⟨h, fun row hrow => nomatch hrow⟩
      · cases hexec.symm.trans heq
        have hcopy : Copy (e.apply row) { w with findings := t } := copy_of_mem (ht.at hrow rfl)
        refine safe_ret (calm_lasting.and (copy_lasting _)).stable ⟨hcalm', hcopy⟩ ?_
        rintro w ⟨hcalm, hcopy⟩
        exact ⟨hcalm, fun row hrow => Option.mem_some.mp hrow ▸ hcopy⟩
      · cases hexec.symm.trans heq
        have hcopy : Copy (e.newRow uuid) { w with findings := t } :=
          copy_of_mem ((ht _).mpr (.inr rfl))
        refine safe_ret (calm_lasting.and (copy_lasting _)).stable ⟨hcalm', hcopy⟩ ?_
        rintro w ⟨hcalm, hcopy⟩
        exact ⟨hcalm, fun row hrow => Option.mem_some.mp hrow ▸ hcopy⟩

/-- The row with the fingerprint is the one of this copy. -/
def Named (row : Row) (fp : String) (w : World) : Prop :=
  ∀ r ∈ w.findings.rows, r.fingerprint = fp → r.id = row.id

theorem named_lasting (row : Row) (fp : String) : Lasting (Named row fp) := by
  intro w w' hquiet hw r' hr' hfp
  obtain ⟨r, hr, hrid, hrfp, -⟩ := hquiet.rows r' hr'
  exact hrid.trans (hw r hr (hrfp ▸ hfp))

theorem find_safe {fp : String} (hcalm : Calm w) :
    Safe machine Recorded alertContract .runner (Code.find fp)
      (Ended Calm fun found w => Calm w ∧ ∀ row ∈ found, Copy row w ∧ Named row fp w) w := by
  refine safe_fading calm_lasting hcalm trivial (fun _ _ => trivial) ?_
  intro w₀ db r w₁ _ hexec hcalm
  cases db with
  | raises =>
      cases hexec
      exact safe_ret calm_lasting.stable hcalm fun _ h => h
  | works =>
      cases hexec
      cases hfind : w₀.findings.find? fp with
      | none =>
          exact safe_ret calm_lasting.stable hcalm fun w h => ⟨h, fun row hrow => nomatch hrow⟩
      | some row =>
          obtain ⟨hrow, hfp⟩ := Findings.find_eq_some.mp hfind
          have hnamed : Named row fp w₀ := by
            intro r hr hrfp
            rw [Findings.eq_of_fingerprint hr hrow (hrfp.trans hfp.symm)]
          refine safe_ret (calm_lasting.and ((copy_lasting row).and (named_lasting row fp))).stable
            ⟨hcalm, copy_of_mem hrow, hnamed⟩ ?_
          rintro w ⟨hcalm, hcopy⟩
          exact ⟨hcalm, fun r hr => Option.mem_some.mp hr ▸ hcopy⟩

theorem merge_into_safe {cur : Row} {e : Entry} (hcalm : Calm w)
    (hcols : ∀ a, e.cols.alertId ≠ some (some a))
    (hfree : e.cols.alertId = some none → Free e.finding.key w) :
    Safe machine Recorded alertContract .runner (mergeInto cur e reported)
      (Ended Calm fun _ => Calm) w := by
  unfold mergeInto
  refine safe_then calm_lasting.stable (upsert_safe hcalm hcols hfree) ?_
  rintro stored w ⟨hcalm, hcopy⟩
  cases stored with
  | some row => exact report_safe hcalm (hcopy row rfl)
  | none =>
      refine safe_then calm_lasting.stable (R := fun _ => Calm) ?_ ?_
      · refine safe_fading calm_lasting hcalm trivial (fun _ _ => trivial) ?_
        intro _ _ r w _ _ hcalm
        cases r with
        | none => exact safe_ret calm_lasting.stable hcalm fun _ h => h
        | some found => exact safe_ret calm_lasting.stable hcalm fun _ h => h
      · exact fun _ w h => safe_ret calm_lasting.stable h fun _ h => h

theorem reopen_safe {cur : Row} {finding : Finding} {verified : String} {now : ℚ} {cols : Cols}
    (hcalm : Calm w) (hcopy : Copy cur w) (hnamed : Named cur finding.key w)
    (hcols : cols.alertId = none) :
    Safe machine Recorded alertContract .runner
      ((closeAlert cur).bind fun closed =>
        mergeInto cur ⟨finding, verified, now, reopened closed cols⟩ true)
      (Ended Calm fun _ => Calm) w := by
  have hlasting := calm_lasting.and (named_lasting cur finding.key)
  refine safe_then calm_lasting.stable (R := fun closed w =>
    (Calm w ∧ Named cur finding.key w) ∧ (closed = true → Covered [] cur.id w)) ?_ ?_
  · exact (close_alert_safe hlasting ⟨hcalm, hnamed⟩ hcopy).weaken fun _ h => h.1
  · rintro closed w ⟨⟨hcalm, hnamed⟩, hclosed⟩
    cases closed with
    | false =>
        refine merge_into_safe hcalm ?_ ?_
        · exact fun a => by simp [reopened, hcols]
        · exact fun hno => by simp [reopened, hcols] at hno
    | true =>
        refine merge_into_safe hcalm (fun a => by simp [reopened]) ?_
        intro _ row hrow hfp a ha
        exact hclosed rfl row hrow (hnamed row hrow hfp) (.inl rfl) a ha

theorem merge_safe {finding : Finding} {verified : String} {threadId : Option String}
    {forgetThread : Bool} (hcalm : Calm w) :
    Safe machine Recorded alertContract .runner (merge finding verified threadId forgetThread)
      (Ended Calm fun _ => Calm) w := by
  unfold merge
  refine safe_ask calm_lasting hcalm trivial (fun _ _ => trivial) ?_
  intro _ _ now w _ _ hcalm
  refine safe_then calm_lasting.stable (find_safe hcalm) ?_
  rintro found w ⟨hcalm, hfound⟩
  cases found with
  | none =>
      refine safe_then calm_lasting.stable (upsert_safe hcalm ?_ ?_) ?_
      · exact nofun
      · exact nofun
      · rintro stored w ⟨hcalm, hcopy⟩
        cases stored with
        | none => exact safe_ret calm_lasting.stable hcalm fun _ h => h
        | some row => exact report_safe hcalm (hcopy row rfl)
  | some cur =>
      obtain ⟨hcopy, hnamed⟩ := hfound cur rfl
      have hplain : ∀ reported, Safe machine Recorded alertContract .runner
          (mergeInto cur ⟨finding, verified, now, threadCols threadId forgetThread⟩ reported)
          (Ended Calm fun _ => Calm) w := by
        intro reported
        refine merge_into_safe hcalm ?_ ?_
        · exact nofun
        · exact nofun
      dsimp only
      split
      · exact reopen_safe hcalm hcopy hnamed rfl
      · split
        · exact reopen_safe hcalm hcopy hnamed rfl
        · exact hplain false
      · exact hplain _

end Parts

section Loops

variable {w : World} {J : World → Prop}

theorem steady_of_safe {α : Type} {p : Code α}
    (h : ∀ w, J w → Safe machine Recorded alertContract .runner p (Ended J fun _ => J) w) :
    Steady J p := by
  intro w hw
  refine (h w hw).mono ?_
  intro r w hr
  cases r with
  | none => exact hr
  | some a => exact hr

variable {rows : List Row}

theorem each_row_safe {body : Unit → Row → Code Unit} (hcalm : Calm w)
    (hcopies : ∀ row ∈ rows, Copy row w) (hbody : ∀ J, Lasting J → ∀ row w, J w → Copy row w →
      Safe machine Recorded alertContract .runner (body () row) (Ended J fun _ => J) w) :
    Safe machine Recorded alertContract .runner (Raising.fold body () rows)
      (Ended Calm fun _ => Calm) w := by
  have hlasting : Lasting fun w => Calm w ∧ ∀ row ∈ rows, Copy row w :=
    calm_lasting.and fun w w' hquiet hw row hrow => copy_lasting row w w' hquiet (hw row hrow)
  have hsteady : Steady (fun w => Calm w ∧ ∀ row ∈ rows, Copy row w)
      (Raising.fold body () rows) := by
    refine preserves_fold hlasting.stable ?_
    intro _ row hrow
    exact steady_of_safe fun w hw => hbody _ hlasting row w hw (hw.2 row hrow)
  refine (hsteady w ⟨hcalm, hcopies⟩).mono ?_
  intro r w h
  cases r with
  | none => exact h.1
  | some u => exact h.1

theorem copies_ret (hcalm : Calm w) (hrows : ∀ row ∈ rows, row ∈ w.findings.rows) :
    Safe machine Recorded alertContract .runner (Prog.ret (some rows))
      (Ended Calm fun rows w => Calm w ∧ ∀ row ∈ rows, Copy row w) w := by
  have hlasting : Lasting fun w => Calm w ∧ ∀ row ∈ rows, Copy row w :=
    calm_lasting.and fun w w' hquiet hw row hrow => copy_lasting row w w' hquiet (hw row hrow)
  exact safe_ret hlasting.stable ⟨hcalm, fun row hrow => copy_of_mem (hrows row hrow)⟩
    fun _ h => h

theorem mem_of_sorted {p : Row → Bool} {row : Row}
    (h : row ∈ (rows.filter p).insertionSort Row.before) : row ∈ rows :=
  (List.mem_filter.mp ((List.mem_insertionSort Row.before).mp h)).1

theorem open_rows_safe (hcalm : Calm w) :
    Safe machine Recorded alertContract .runner Code.openRows
      (Ended Calm fun rows w => Calm w ∧ ∀ row ∈ rows, Copy row w) w := by
  refine safe_fading calm_lasting hcalm trivial (fun _ _ => trivial) ?_
  intro w₀ db r w₁ _ hexec hcalm
  cases db with
  | raises =>
      cases hexec
      exact safe_ret calm_lasting.stable hcalm fun _ h => h
  | works =>
      cases hexec
      exact copies_ret hcalm fun row hrow => mem_of_sorted hrow

theorem unclosed_safe (hcalm : Calm w) :
    Safe machine Recorded alertContract .runner Code.unclosed
      (Ended Calm fun rows w => Calm w ∧ ∀ row ∈ rows, Copy row w) w := by
  refine safe_fading calm_lasting hcalm trivial (fun _ _ => trivial) ?_
  intro w₀ db r w₁ _ hexec hcalm
  cases db with
  | raises =>
      cases hexec
      exact safe_ret calm_lasting.stable hcalm fun _ h => h
  | works =>
      cases hexec
      exact copies_ret hcalm fun row hrow => mem_of_sorted hrow

theorem set_only_safe {fid : String} {only : List Status} {cols : Cols} (hJ : Lasting J) (hw : J w)
    (hcols : cols.alertId = none) :
    Safe machine Recorded alertContract .runner
      ((Code.set fid only cols).bind fun _ => (pure () : Code Unit)) (Ended J fun _ => J) w := by
  refine safe_then hJ.stable (set_safe hJ hw ?_ ?_) ?_
  · exact fun a => by simp [hcols]
  · exact fun hno => by simp [hcols] at hno
  · exact fun _ w h => safe_ret hJ.stable h fun _ h => h

theorem resolve_safe {row : Row} {cols : Cols} (hJ : Lasting J) (hw : J w) (hcopy : Copy row w)
    (hcols : cols.alertId = none) :
    Safe machine Recorded alertContract .runner
      ((Code.set row.id [.open] cols).bind fun done =>
        if done then resolveAlert row [.cleared] else pure ()) (Ended J fun _ => J) w := by
  have hlasting := hJ.and (copy_lasting row)
  refine safe_then hJ.stable (R := fun _ w => J w ∧ Copy row w) ?_ ?_
  · refine (set_safe hlasting ⟨hw, hcopy⟩ ?_ ?_).weaken fun _ h => h.1
    · exact fun a => by simp [hcols]
    · exact fun hno => by simp [hcols] at hno
  · rintro done w ⟨hw, hcopy⟩
    split
    · exact resolve_alert_safe hJ hw hcopy
    · exact safe_ret hJ.stable hw fun _ h => h

/-- `_clear_model_findings` -/
theorem clear_model_findings_steady : Steady Calm clearModelFindings := by
  refine steady_of_safe fun w hcalm => ?_
  unfold clearModelFindings
  refine safe_ask calm_lasting hcalm trivial (fun _ _ => trivial) ?_
  intro _ _ now w _ _ hcalm
  refine safe_then calm_lasting.stable (open_rows_safe hcalm) ?_
  rintro rows w ⟨hcalm, hcopies⟩
  refine each_row_safe hcalm hcopies ?_
  intro J hJ row w hw _
  split
  · exact safe_ret hJ.stable hw fun _ h => h
  · exact set_only_safe hJ hw rfl

theorem clear_digests_steady (keep week : Option String) :
    Steady Calm (clearDigests keep week) := by
  refine steady_of_safe fun w hcalm => ?_
  unfold clearDigests
  refine safe_ask calm_lasting hcalm trivial (fun _ _ => trivial) ?_
  intro _ _ now w _ _ hcalm
  refine safe_then calm_lasting.stable (open_rows_safe hcalm) ?_
  rintro rows w ⟨hcalm, hcopies⟩
  refine each_row_safe hcalm hcopies ?_
  intro J hJ row w hw hcopy
  split
  · exact safe_ret hJ.stable hw fun _ h => h
  · split
    · exact safe_ret hJ.stable hw fun _ h => h
    · exact resolve_safe hJ hw hcopy rfl

theorem clear_steady (states : Python.Dict String CheckState)
    (seen : Python.Dict String (List String)) : Steady Calm (clear states seen) := by
  refine steady_of_safe fun w hcalm => ?_
  unfold clear
  refine safe_ask calm_lasting hcalm trivial (fun _ _ => trivial) ?_
  intro _ _ now w _ _ hcalm
  refine safe_then calm_lasting.stable (open_rows_safe hcalm) ?_
  rintro rows w ⟨hcalm, hcopies⟩
  refine each_row_safe hcalm hcopies ?_
  intro J hJ row w hw hcopy
  split
  · exact safe_ret hJ.stable hw fun _ h => h
  · split
    · exact safe_ret hJ.stable hw fun _ h => h
    · split
      · exact set_only_safe hJ hw rfl
      · exact resolve_safe hJ hw hcopy rfl

theorem retry_closes_steady : Steady Calm retryCloses := by
  refine steady_of_safe fun w hcalm => ?_
  unfold retryCloses
  refine safe_then calm_lasting.stable (unclosed_safe hcalm) ?_
  rintro rows w ⟨hcalm, hcopies⟩
  refine each_row_safe hcalm hcopies ?_
  intro J hJ row w hw hcopy
  refine safe_then hJ.stable (close_alert_safe hJ hw hcopy) ?_
  rintro closed w ⟨hw, hclosed⟩
  cases closed with
  | false => exact safe_ret hJ.stable hw fun _ h => h
  | true =>
      refine safe_then hJ.stable (set_safe hJ hw nofun fun _ => hclosed rfl) ?_
      exact fun _ w h => safe_ret hJ.stable h fun _ h => h

theorem causes_steady (answer : List Cause) : Steady Calm (causes answer) := by
  unfold causes
  refine preserves_fold calm_lasting.stable ?_
  intro _ cause _
  refine steady_of_safe fun w hcalm => ?_
  split
  · exact set_only_safe calm_lasting hcalm rfl
  · dsimp only
    split
    · exact safe_ret calm_lasting.stable hcalm fun _ h => h
    · exact set_only_safe calm_lasting hcalm rfl

theorem sweep_steady (days : ℕ) (now : ℚ) : Steady Calm (Code.sweep days now) := by
  refine preserves_call calm_lasting.stable ?_ (fun r => preserves_ret calm_lasting.stable r)
  intro w db r w' hinv hcalm hexec hkept
  cases db with
  | raises =>
      cases hexec
      exact ⟨hinv, trivial, hcalm⟩
  | works =>
      cases hexec
      refine ⟨hinv.step rfl (fun _ _ _ h => h) (fun _ h => h) ?_ ?_, trivial, hcalm⟩
      · intro row hrow a ha
        exact (hkept row hrow a ha).imp_right fun hrow' => ⟨row, hrow', rfl, ha⟩
      · intro row hrow a ha
        exact ⟨row, (Findings.mem_sweep.mp hrow).1, rfl, ha⟩

/-- One finding of a check. -/
theorem merge_one_steady (threadId : Option String) (forgetThread : Bool)
    (fingerprints : List String) (item : Finding × String) :
    Steady Calm (mergeOne threadId forgetThread fingerprints item) := by
  unfold mergeOne
  have hstable := calm_lasting.stable
  refine Preserves.try hstable (steady_of_safe fun w h => merge_safe h) fun result => ?_
  refine Preserves.try hstable ?_ fun _ => Preserves.try hstable ?_ fun _ =>
    preserves_ret hstable _
  · split
    · exact steady_call calm_lasting trivial (fun _ _ => trivial) fun r => preserves_ret hstable _
    · exact preserves_ret hstable _
  · split
    · exact clear_digests_steady _ _
    · exact preserves_ret hstable _

theorem run_check_steady (acc : Python.Dict String CheckState × Python.Dict String (List String))
    (check : CheckRun) : Steady Calm (runCheck acc check) := by
  have hstable := calm_lasting.stable
  unfold runCheck
  split
  · exact preserves_ret hstable _
  · exact preserves_ret hstable _
  · exact preserves_ret hstable _
  · refine Preserves.try hstable ?_ fun _ => preserves_ret hstable _
    exact preserves_fold hstable fun acc item _ => merge_one_steady _ _ acc item

theorem run_once_steady (input : RunInput) : Steady Calm (runOnce input) := by
  have hstable := calm_lasting.stable
  unfold runOnce
  refine Preserves.try hstable ?_ fun _ => ?_
  · split
    · exact preserves_ret hstable _
    · exact clear_model_findings_steady
  refine Preserves.try hstable (clear_digests_steady _ _) fun _ => ?_
  refine Preserves.try hstable (preserves_fold hstable fun acc check _ =>
    run_check_steady acc check)
    fun acc => ?_
  refine Preserves.try hstable (clear_steady _ _) fun _ => ?_
  refine Preserves.try hstable retry_closes_steady fun _ => ?_
  refine Preserves.try hstable (causes_steady _) fun _ => ?_
  refine Preserves.try hstable ?_ fun finished => sweep_steady _ _
  exact steady_call calm_lasting trivial (fun _ _ => trivial) fun r => preserves_ret hstable _

end Loops

section Dismissals

/-- What a dismissal does: it stores no alert, and takes one off only where it has dismissed the
finding. -/
def Dismissing : Op → Prop
  | .now => True
  | .get _ => True
  | .close _ => True
  | .set _ only cols => (∀ a, cols.alertId ≠ some (some a)) ∧
      (cols.alertId = some none → only = [.dismissed])
  | _ => False

theorem dismissing : Dismissal Dismissing where
  now := trivial
  get := fun _ => trivial
  close := fun _ => trivial
  set := fun _ _ hcols => ⟨fun a => by
    simp [hcols.alertId], fun hno => by simp [hcols.alertId] at hno⟩
  forget := fun _ => ⟨nofun, fun _ => rfl⟩

theorem dismissing_step {n : ℕ} {op : Op} {a : op.Ans} {r : op.Res} {w w' : World} (h : Tracked w)
    (hop : Dismissing op) (hexec : exec op a w = some (r, w'))
    (hkept : Recorded (.operator n) op w w') : Tracked w' ∧ Quiet w w' := by
  have hfading : Fading op ∧ Careful w op := by
    cases op with
    | set fid only cols =>
        obtain ⟨hcols, honly⟩ := hop
        refine ⟨hcols, ?_⟩
        intro hforget
        simp only [Recorded, hforget] at hkept
        exact hkept (honly hforget)
    | now => exact ⟨trivial, trivial⟩
    | get fid => exact ⟨trivial, trivial⟩
    | close alert => exact ⟨trivial, trivial⟩
    | gate row => exact hop.elim
    | find fp => exact hop.elim
    | openRows => exact hop.elim
    | unclosed => exact hop.elim
    | upsert entry only => exact hop.elim
    | sweep days now => exact hop.elim
    | post row => exact hop.elim
    | count fp => exact hop.elim
  exact fading_step h hfading.1 hfading.2 hexec

/-- A dismissal keeps the contract. -/
theorem dismiss_safe (n : ℕ) (fid user : String) (w : World) :
    Safe machine Recorded alertContract (.operator n) (dismiss fid user).toThread
      (fun _ => alertContract.idle (.operator n)) w := by
  have hstable : alertContract.Stable (.operator n) fun _ => True := fun _ _ _ _ _ _ _ _ => trivial
  refine safe_of_all (Prog.All.bind (dismiss_ops dismissing fid user) fun _ =>
    trivial) hstable trivial ?_
    fun _ _ _ => trivial
  intro op hop w a r w' hinv _ hexec hkept
  obtain ⟨hinv', hquiet⟩ := dismissing_step hinv hop hexec hkept
  exact ⟨hinv', hquiet, trivial⟩

end Dismissals

section Orphans

/-- No alert is orphaned: one that was posted and not closed is stored on a finding, and no finding
has two of them. -/
structure NoOrphans (w : World) : Prop where
  stored : ∀ f sev a, Event.post f sev a ∈ w.log → Event.close a ∉ w.log →
    ∃ row ∈ w.findings.rows, row.alertId = some a
  single : ∀ f sev a sev' a', Event.post f sev a ∈ w.log → Event.post f sev' a' ∈ w.log →
    Event.close a ∉ w.log → Event.close a' ∉ w.log → a = a'

theorem alert_id_of_alert {row : Row} {a : String} (h : row.alert = some a) :
    row.alertId = some a :=
  (Option.filter_eq_some_iff.mp h).1

theorem Tracked.no_orphans {w : World} (h : Tracked w) (hcalm : Calm w) : NoOrphans w := by
  have hrow : ∀ f sev a, Event.post f sev a ∈ w.log → Event.close a ∉ w.log →
      ∃ row ∈ w.findings.rows, row.id = f ∧ row.alert = some a := by
    intro f sev a hpost hopen
    rcases h.stored f sev a hpost with hclosed | hstored | hfly
    · exact absurd hclosed hopen
    · exact hstored
    · rw [show w.inFlight = none from hcalm] at hfly
      cases hfly
  refine ⟨?_, ?_⟩
  · intro f sev a hpost hopen
    obtain ⟨row, hrow, -, halert⟩ := hrow f sev a hpost hopen
    exact ⟨row, hrow, alert_id_of_alert halert⟩
  · intro f sev a sev' a' hpost hpost' hopen hopen'
    obtain ⟨row, hmem, hid, halert⟩ := hrow f sev a hpost hopen
    obtain ⟨row', hmem', hid', halert'⟩ := hrow f sev' a' hpost' hopen'
    rw [Findings.eq_of_id hmem hmem' (hid.trans hid'.symm), halert'] at halert
    exact (Option.some.inj halert).symm

/-- In every run in which each new id is stored, in which a dismissal forgets only an alert that is
closed, and in which no finding is swept before its alert is closed, no alert is orphaned whenever
all threads are idle. -/
theorem no_alert_orphaned {findings : Findings} {c : Config Thread Op Op.Res World}
    (hrun : Reachable machine Recorded { findings := findings } c)
    (hidle : ∀ t, c.threads t = none) : NoOrphans c.state := by
  have hstart : ∀ t request w p, alertContract.inv w → alertContract.idle t w →
      machine.start t request w = some p →
      Safe machine Recorded alertContract t p (fun _ => alertContract.idle t) w := by
    intro t request w p _ hw hp
    cases t with
    | runner =>
        cases request with
        | run input =>
            cases hp
            exact (run_once_steady input).thread calm_lasting.stable w hw
        | dismiss fid user => cases hp
    | operator n =>
        cases request with
        | run input => cases hp
        | dismiss fid user =>
            cases hp
            exact dismiss_safe n fid user w
  have hstable : ∀ t, alertContract.Stable t (alertContract.idle t) := by
    intro t
    cases t with
    | runner => exact calm_lasting.stable
    | operator n => exact fun _ _ _ _ _ _ _ _ => trivial
  have hinit : ∀ t, alertContract.idle t { findings := findings } := by
    intro t
    cases t with
    | runner => rfl
    | operator n => trivial
  have hinv : Tracked { findings := findings } := ⟨nofun, nofun⟩
  have hholds := Contract.sound hinv hinit hstable hstart hrun
  exact hholds.inv.no_orphans (hholds.idle .runner (hidle .runner))

/-- Nothing was found yet. -/
def noFindings : Findings := ⟨[], List.nodup_nil, List.nodup_nil⟩

/-- A run in which the alert is posted and stored. -/
theorem stored_alert : ∃ c : Config Thread Op Op.Res World,
    Reachable machine Recorded { findings := noFindings } c ∧ (∀ t, c.threads t = none) ∧
      Event.post "f1" "warning" "alert-1" ∈ c.state.log ∧ NoOrphans c.state := by
  have hrun : ((Config.idle { findings := noFindings }).plays machine Recorded
      (.start .runner (.run (diskRun "warning")) :: goOn .runner 17 ++
        [.finish .runner])).bind (fun c =>
        if (c.threads .runner).isNone ∧ Event.post "f1" "warning" "alert-1" ∈ c.state.log
          then some () else none) = some () := by decide +kernel
  obtain ⟨c, hplays, hc⟩ := Option.bind_eq_some_iff.mp hrun
  obtain ⟨hnone, hpost⟩ := (ite_eq_iff.mp hc).elim And.left fun hno => nomatch hno.2
  have hreach : Reachable machine Recorded { findings := noFindings } c := run_of_plays hplays
  have hidle : ∀ t, c.threads t = none := by
    intro t
    by_cases ht : t = .runner
    · rw [ht]
      exact Option.isNone_iff_eq_none.mp hnone
    · refine plays_threads hplays ?_
      intro choice hchoice heq
      simp only [goOn, List.cons_append, List.mem_cons, List.mem_append, List.mem_replicate,
        List.not_mem_nil, or_false] at hchoice
      rcases hchoice with rfl | ⟨-, rfl⟩ | rfl
      · exact ht heq.symm
      · exact ht heq.symm
      · exact ht heq.symm
  exact ⟨c, hreach, hidle, hpost, no_alert_orphaned hreach hidle⟩

/-- The finding is dismissed after its alert is posted and before the id is stored, so that no row
has it. -/
theorem dismissed_in_flight : ¬ ∀ (findings : Findings) (c : Config Thread Op Op.Res World),
    Reachable machine (fun _ _ _ _ => True) { findings := findings } c →
      (∀ t, c.threads t = none) → NoOrphans c.state := by
  intro h
  have hrun : ((Config.idle { findings := noFindings }).plays machine (fun _ _ _ _ => True)
      (.start .runner (.run (diskRun "warning")) :: goOn .runner 8 ++
        .start (.operator 0) (.dismiss "f1" "alice") :: goOn (.operator 0) 3 ++
          .finish (.operator 0) :: goOn .runner 8 ++ [.finish .runner])).bind (fun c =>
        if (c.threads .runner).isNone ∧ (c.threads (.operator 0)).isNone ∧
            Event.post "f1" "warning" "alert-1" ∈ c.state.log ∧
            Event.close "alert-1" ∉ c.state.log ∧
            ∀ row ∈ c.state.findings.rows, row.alertId ≠ some "alert-1"
          then some () else none) = some () := by decide +kernel
  obtain ⟨c, hplays, hc⟩ := Option.bind_eq_some_iff.mp hrun
  obtain ⟨hrunner, hoperator, hpost, hopen, hrows⟩ :=
    (ite_eq_iff.mp hc).elim And.left fun hno => nomatch hno.2
  have hidle : ∀ t, c.threads t = none := by
    intro t
    by_cases ht : t = .runner ∨ t = .operator 0
    · rcases ht with rfl | rfl
      · exact Option.isNone_iff_eq_none.mp hrunner
      · exact Option.isNone_iff_eq_none.mp hoperator
    · refine plays_threads hplays ?_
      intro choice hchoice heq
      simp only [goOn, List.cons_append, List.mem_cons, List.mem_append, List.mem_replicate,
        List.not_mem_nil, or_false] at hchoice
      apply ht
      rw [← heq]
      rcases hchoice with rfl | ((⟨-, rfl⟩ | rfl | ⟨-, rfl⟩) | rfl | ⟨-, rfl⟩) | rfl <;>
        simp [Choice.thread]
  obtain ⟨row, hrow, halert⟩ :=
    (h noFindings c (run_of_plays hplays) hidle).stored _ _ _ hpost hopen
  exact hrows row hrow halert

end Orphans

end SystemsManager.Forecast
