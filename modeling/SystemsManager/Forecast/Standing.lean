import SystemsManager.Forecast.Operations
import SystemsManager.History

/-!
# What the history says about a finding

Whether a finding may have a new alert depends on five columns of its row. `Standing` is what the
history of the run says about the same finding: its last alert, whether its severity rose above that
one, and how often it passed the gates since it failed them. `Stands` relates the two between the
reports of the finding, and `aloof_step` is the theorem to read: whatever sets no column of its
alert while it is open keeps that relation.
-/

namespace SystemsManager.Forecast

open Concurrency

section Standing

/-- What the history says about a finding: the severity and the id of its last alert, unless it was
resolved since; whether its severity rose above that while the alert was stored; in how many reports
it passed the gates since it failed them; and whether it never failed them. -/
structure Standing where
  posted : Option (String × String) := none
  risen : Bool := false
  streak : ℕ := 0
  clean : Bool := true
  deriving DecidableEq

/-- The row has this alert, and a severity above that of the alert. -/
def above (row : Row) : Option (String × String) → Bool
  | some (sev, a) => row.alertId == some a && decide (rank sev < rank row.severity)
  | none => false

/-- One more event. -/
def Standing.next (f : String) (s : Standing) : Event → Standing
  | .gate row true => if row.id = f
      then { s with streak := s.streak + 1, risen := s.risen || above row s.posted } else s
  | .gate row false => if row.id = f then { s with streak := 0, clean := false } else s
  | .post g sev a => if g = f then { s with posted := some (sev, a), risen := false } else s
  | .resolve g => if g = f then { s with posted := none, risen := false } else s
  | .close _ => s
  | .news _ => s

/-- What the history says about a finding. -/
def standing (f : String) (log : List Event) : Standing := log.foldl (Standing.next f) {}

@[simp] theorem standing_concat (f : String) (log : List Event) (e : Event) :
    standing f (log ++ [e]) = (standing f log).next f e := by
  simp [standing]

/-- How the gates of the finding were decided, if the event says so. -/
def gateOf (f : String) : Event → Option Bool
  | .gate row passes => if row.id = f then some passes else none
  | _ => none

/-- In how many reports the finding passed the gates since the last one in which it failed them. -/
def passed (f : String) (log : List Event) : ℕ := trailing id (log.filterMap (gateOf f))

theorem passed_concat (f : String) (log : List Event) (e : Event) :
    passed f (log ++ [e]) = match gateOf f e with
      | some true => passed f log + 1
      | some false => 0
      | none => passed f log := by
  unfold passed
  rw [List.filterMap_append]
  cases hgate : gateOf f e with
  | none => simp [hgate]
  | some passes =>
      cases passes with
      | false => simp [hgate, trailing_concat]
      | true => simp [hgate, trailing_concat]

theorem standing_streak (f : String) (log : List Event) :
    (standing f log).streak = passed f log := by
  induction log using List.reverseRecOn with
  | nil => rfl
  | append_singleton log e ih =>
      rw [standing_concat, passed_concat]
      cases e with
      | gate row passes =>
          by_cases hid : row.id = f
          · cases passes <;> simp [Standing.next, gateOf, hid, ih]
          · cases passes <;> simp [Standing.next, gateOf, hid, ih]
      | post g sev a =>
          by_cases hg : g = f <;> simp [Standing.next, gateOf, hg, ih]
      | close a => exact ih
      | resolve g =>
          by_cases hg : g = f <;> simp [Standing.next, gateOf, hg, ih]
      | news fp => exact ih

/-- An alert comes only after a rise above the last one, or after enough reports inside the gates.
-/
def Spaced (f : String) (before : List Event) (e : Event) : Prop :=
  ∀ sev a, e = .post f sev a → (standing f before).posted ≠ none →
    (standing f before).risen = true ∨ REALERT_RUNS ≤ (standing f before).streak

theorem posted_between {f sev a : String} {before between : List Event}
    (hresolve : .resolve f ∉ between) (hpost : ∀ sev' a', .post f sev' a' ∉ between) :
    (standing f (before ++ .post f sev a :: between)).posted = some (sev, a) := by
  induction between using List.reverseRecOn with
  | nil => simp [Standing.next]
  | append_singleton between e ih =>
      have ih := ih (fun h => hresolve (List.mem_append_left _ h))
        fun sev' a' h => hpost sev' a' (List.mem_append_left _ h)
      rw [← List.cons_append, ← List.append_assoc, standing_concat]
      cases e with
      | gate row passes =>
          cases passes <;> simp only [Standing.next] <;> split <;> exact ih
      | post g sev' a' =>
          have hg : g ≠ f := by
            rintro rfl
            exact hpost sev' a' (by simp)
          simpa [Standing.next, hg] using ih
      | close b => exact ih
      | resolve g =>
          have hg : g ≠ f := by
            rintro rfl
            exact hresolve (by simp)
          simpa [Standing.next, hg] using ih
      | news fp => exact ih

theorem risen_between {f sev a : String} {before between : List Event}
    (hresolve : .resolve f ∉ between) (hpost : ∀ sev' a', .post f sev' a' ∉ between)
    (h : (standing f (before ++ .post f sev a :: between)).risen = true) :
    ∃ row, .gate row true ∈ between ∧ row.id = f ∧ row.alertId = some a ∧
      rank sev < rank row.severity := by
  induction between using List.reverseRecOn with
  | nil => simp [Standing.next] at h
  | append_singleton between e ih =>
      have hresolve' : .resolve f ∉ between := fun h => hresolve (List.mem_append_left _ h)
      have hpost' : ∀ sev' a', .post f sev' a' ∉ between :=
        fun sev' a' h => hpost sev' a' (List.mem_append_left _ h)
      have hlast : (standing f (before ++ .post f sev a :: between)).posted = some (sev, a) :=
        posted_between hresolve' hpost'
      have hearlier : (standing f (before ++ .post f sev a :: between)).risen = true →
          ∃ row, .gate row true ∈ between ++ [e] ∧ row.id = f ∧ row.alertId = some a ∧
            rank sev < rank row.severity := by
        intro hrisen
        obtain ⟨row, hrow, hrest⟩ := ih hresolve' hpost' hrisen
        exact ⟨row, List.mem_append_left _ hrow, hrest⟩
      rw [← List.cons_append, ← List.append_assoc, standing_concat] at h
      cases e with
      | gate row passes =>
          cases passes with
          | false =>
              simp only [Standing.next] at h
              split at h
              · exact hearlier h
              · exact hearlier h
          | true =>
              simp only [Standing.next] at h
              split at h
              · rename_i hid
                simp only [hlast, above, Bool.or_eq_true, Bool.and_eq_true, beq_iff_eq,
                  decide_eq_true_eq] at h
                rcases h with h | ⟨halert, hrank⟩
                · exact hearlier h
                · exact ⟨row, by simp, hid, halert, hrank⟩
              · exact hearlier h
      | post g sev' a' =>
          have hg : g ≠ f := by
            rintro rfl
            exact hpost sev' a' (by simp)
          simp only [Standing.next, if_neg hg] at h
          exact hearlier h
      | close b => exact hearlier h
      | resolve g =>
          have hg : g ≠ f := by
            rintro rfl
            exact hresolve (by simp)
          simp only [Standing.next, if_neg hg] at h
          exact hearlier h
      | news fp => exact hearlier h

end Standing

section Findings

/-- What the row of an open finding has to do with its history. -/
structure Facts (row : Row) (s : Standing) : Prop where
  streak : row.gateStreak ≤ s.streak ∨ s.clean = true
  posted : ∀ sev a, s.posted = some (sev, a) → row.lastReported.isSome = true ∧
    (row.alert = none ∨ row.alertId = some a ∧ row.alertSeverity = some sev) ∧
      (s.clean = true → 1 ≤ s.streak)

theorem Facts.same {row row' : Row} {s : Standing} (h : Facts row s)
    (hstreak : row'.gateStreak = row.gateStreak) (hreported : row'.lastReported = row.lastReported)
    (halert : row'.alertId = row.alertId) (hseverity : row'.alertSeverity = row.alertSeverity) :
    Facts row' s := by
  refine ⟨by rw [hstreak]; exact h.streak, ?_⟩
  intro sev a hposted
  rw [hreported, Row.alert, halert, hseverity]
  exact h.posted sev a hposted

/-- The finding and its history between two reports. -/
structure Stands (f : String) (w : World) : Prop where
  opened : ∀ row ∈ w.findings.rows, row.id = f → row.status = .open → Facts row (standing f w.log)
  shut : (∀ row ∈ w.findings.rows, row.id = f → row.status ≠ .open) →
    (standing f w.log).posted = none

/-- The step leaves the row of the finding and what the history says about it alone. -/
structure Beside (f : String) (w w' : World) : Prop where
  rows : ∀ row, row.id = f → (row ∈ w'.findings.rows ↔ row ∈ w.findings.rows)
  standing : standing f w'.log = standing f w.log

variable {f : String} {w w' : World}

/-- A step beside the finding. -/
theorem Stands.beside (h : Stands f w) (hstep : Beside f w w') : Stands f w' := by
  refine ⟨?_, ?_⟩
  · intro row hrow hid hopen
    rw [hstep.standing]
    exact h.opened row ((hstep.rows row hid).mp hrow) hid hopen
  · intro hshut
    rw [hstep.standing]
    exact h.shut fun row hrow hid => hshut row ((hstep.rows row hid).mpr hrow) hid

theorem each_spaced {log : List Event} {e : Event} (h : Each (Spaced f) log)
    (he : ∀ sev a, e ≠ .post f sev a) : Each (Spaced f) (log ++ [e]) :=
  each_concat.mpr ⟨h, fun sev a heq => absurd heq (he sev a)⟩

theorem set_spaced {fid : String} {only : List Status} {cols : Cols}
    (h : Each (Spaced f) w.log) : Each (Spaced f) (w.set fid only cols).2.log := by
  rcases w.set_cases fid only cols with heq | ⟨changed, -, -, -, t, ht, heq⟩
  · rw [heq]
    exact h
  · rw [heq]
    dsimp only
    split
    · exact each_spaced h nofun
    · exact h

theorem set_beside {fid : String} {only : List Status} {cols : Cols} (hid : fid ≠ f)
    (h : Each (Spaced f) w.log) :
    Each (Spaced f) (w.set fid only cols).2.log ∧ Beside f w (w.set fid only cols).2 := by
  refine ⟨set_spaced h, ?_⟩
  rcases w.set_cases fid only cols with heq | ⟨changed, -, -, -, t, ht, heq⟩
  · rw [heq]
    exact ⟨fun _ _ => Iff.rfl, rfl⟩
  · rw [heq]
    refine ⟨?_, ?_⟩
    · intro row hrid
      constructor
      · intro hrow
        rcases ht.cases hrow with ⟨old, -, hold, rfl⟩ | ⟨hrow, -⟩
        · exact absurd (hold.symm.trans hrid) hid
        · exact hrow
      · intro hrow
        exact ht.apart hrow fun heq => hid (heq.symm.trans hrid)
    · dsimp only
      split
      · rw [standing_concat]
        simp [Standing.next, hid]
      · rfl

/-- A statement on the row of the finding that rests its alert: it stays as it is, or it is
resolved. -/
theorem set_resting {only : List Status} {cols : Cols} (hcols : cols.Resting) (h : Stands f w) :
    Stands f (w.set f only cols).2 := by
  rcases w.set_cases f only cols with heq | ⟨row, hrow, hid, -, t, ht, heq⟩
  · rw [heq]
    exact h
  · rw [heq]
    have hrows : ∀ row' ∈ t.rows, row'.id = f → row' = cols.apply row := by
      intro row' hrow' hid'
      rcases ht.cases hrow' with ⟨old, hold, hold', rfl⟩ | ⟨-, hne⟩
      · rw [Findings.eq_of_id hold hrow (hold'.trans hid.symm)]
      · exact absurd hid' hne
    have hmem : cols.apply row ∈ t.rows := ht.at hrow hid
    have hstatus : (cols.apply row).status = cols.status.getD row.status := rfl
    cases hnew : cols.status with
    | none =>
        rw [hnew, Option.getD_none] at hstatus
        have hlog : World.resolves row cols = false := by simp [World.resolves, hnew]
        simp only [hlog, Bool.false_eq_true, if_false]
        refine ⟨?_, ?_⟩
        · intro row' hrow' hid' hopen
          rw [hrows row' hrow' hid'] at hopen ⊢
          refine (h.opened row hrow hid (hstatus ▸ hopen)).same ?_ ?_ ?_ ?_
          · simp [Cols.apply, hcols.gateStreak]
          · simp [Cols.apply, hcols.lastReported]
          · simp [Cols.apply, hcols.alertId]
          · simp [Cols.apply, hcols.alertSeverity]
        · intro hshut
          refine h.shut fun old hold hold' => ?_
          rw [Findings.eq_of_id hold hrow (hold'.trans hid.symm), ← hstatus]
          exact hshut _ hmem hid
    | some status =>
        rw [hnew, Option.getD_some] at hstatus
        have hclosed : status ≠ .open := fun hopen => hcols.status (hnew.trans (by rw [hopen]))
        refine ⟨?_, ?_⟩
        · intro row' hrow' hid' hopen
          rw [hrows row' hrow' hid', hstatus] at hopen
          exact absurd hopen hclosed
        · intro _
          by_cases hopen : row.status = .open
          · have hlog : World.resolves row cols = true := by
              cases status with
              | «open» => exact absurd rfl hclosed
              | cleared => simp [World.resolves, hnew, hopen]
              | dismissed => simp [World.resolves, hnew, hopen]
            simp [hlog, Standing.next]
          · have hlog : World.resolves row cols = false := by simp [World.resolves, hopen]
            simp only [hlog, Bool.false_eq_true, if_false]
            refine h.shut fun old hold hold' => ?_
            rw [Findings.eq_of_id hold hrow (hold'.trans hid.symm)]
            exact hopen

theorem set_forget {only : List Status} (honly : .open ∉ only) (hsome : only ≠ [])
    (h : Stands f w) :
    Stands f (w.set f only forget).2 := by
  rcases w.set_cases f only forget with heq | ⟨row, hrow, hid, hguard, t, ht, heq⟩
  · rw [heq]
    exact h
  · rw [heq]
    have hshut : row.status ≠ .open := by
      intro hopen
      rcases hguard with hnil | hmem
      · exact hsome hnil
      · exact honly (hopen ▸ hmem)
    have hlog : World.resolves row forget = false := by simp [World.resolves, hshut]
    have hposted : (standing f w.log).posted = none := by
      refine h.shut fun old hold hold' => ?_
      rw [Findings.eq_of_id hold hrow (hold'.trans hid.symm)]
      exact hshut
    simp only [hlog, Bool.false_eq_true, if_false]
    refine ⟨?_, fun _ => hposted⟩
    intro row' hrow' hid' hopen
    rcases ht.cases hrow' with ⟨old, hold, hold', rfl⟩ | ⟨-, hne⟩
    · have hsame := Findings.eq_of_id hold hrow (hold'.trans hid.symm)
      rw [hsame] at hopen
      exact absurd hopen hshut
    · exact absurd hid' hne

/-- What leaves the alert of the finding alone. -/
def Aloof (f : String) : Op → Prop
  | .set fid only cols => fid ≠ f ∨ cols.Resting ∨ cols = forget ∧ .open ∉ only ∧ only ≠ []
  | .gate row => row.id ≠ f
  | .post row => row.id ≠ f
  | .upsert .. => False
  | _ => True

theorem event_beside {e : Event} (fly : Option (String × String)) (h : Each (Spaced f) w.log)
    (he : ∀ s : Standing, s.next f e = s) (hpost : ∀ sev a, e ≠ .post f sev a) :
    Each (Spaced f) (w.log ++ [e]) ∧
      Beside f w { w with inFlight := fly, log := w.log ++ [e] } :=
  ⟨each_spaced h hpost, fun _ _ => Iff.rfl, by rw [standing_concat, he]⟩

/-- An operation that leaves the alert of the finding alone. -/
theorem aloof_step {op : Op} {a : op.Ans} {r : op.Res} (hspaced : Each (Spaced f) w.log)
    (h : Stands f w) (hop : Aloof f op) (hexec : exec op a w = some (r, w')) :
    Each (Spaced f) w'.log ∧ Stands f w' := by
  have hevent : ∀ fly e, (∀ s : Standing, s.next f e = s) → (∀ sev a, e ≠ .post f sev a) →
      Each (Spaced f) (w.log ++ [e]) ∧
        Stands f { w with inFlight := fly, log := w.log ++ [e] } := by
    intro fly e he hpost
    obtain ⟨hspaced', hbeside⟩ := event_beside fly hspaced he hpost
    exact ⟨hspaced', h.beside hbeside⟩
  cases op with
  | now =>
      cases hexec
      exact ⟨hspaced, h⟩
  | gate row =>
      cases hexec
      refine hevent _ _ (fun s => ?_) nofun
      cases wantsAlert a row <;> simp [Standing.next, show row.id ≠ f from hop]
  | find fp =>
      cases a <;> cases hexec <;> exact ⟨hspaced, h⟩
  | get fid =>
      cases a <;> cases hexec <;> exact ⟨hspaced, h⟩
  | openRows =>
      cases a <;> cases hexec <;> exact ⟨hspaced, h⟩
  | unclosed =>
      cases a <;> cases hexec <;> exact ⟨hspaced, h⟩
  | upsert e only => exact hop.elim
  | set fid only cols =>
      cases a with
      | raises =>
          cases hexec
          exact ⟨hspaced, h⟩
      | works =>
          cases hexec
          by_cases hid : fid = f
          · subst hid
            refine ⟨set_spaced hspaced, ?_⟩
            rcases hop with hne | hcols | ⟨rfl, honly, hsome⟩
            · exact absurd rfl hne
            · exact set_resting hcols h
            · exact set_forget honly hsome h
          · obtain ⟨hspaced', hbeside⟩ := set_beside hid hspaced
            exact ⟨hspaced', h.beside hbeside⟩
  | sweep days now =>
      cases a with
      | raises =>
          cases hexec
          exact ⟨hspaced, h⟩
      | works =>
          cases hexec
          refine ⟨hspaced, ?_, ?_⟩
          · intro row hrow hid hopen
            exact h.opened row (Findings.mem_sweep.mp hrow).1 hid hopen
          · intro hshut
            refine h.shut fun row hrow hid hopen => ?_
            refine hshut row (Findings.mem_sweep.mpr ⟨hrow, ?_⟩) hid hopen
            simp [Findings.expired, hopen]
  | post row =>
      cases a with
      | none =>
          cases hexec
          exact ⟨hspaced, h⟩
      | some alert =>
          simp only [exec] at hexec
          split at hexec
          · cases hexec
            refine hevent _ _ (fun s => ?_) ?_
            · simp [Standing.next, show row.id ≠ f from hop]
            · intro sev a heq
              cases heq
              exact hop rfl
          · cases hexec
  | close alert =>
      cases a with
      | false =>
          cases hexec
          exact ⟨hspaced, h⟩
      | true =>
          cases hexec
          exact hevent _ _ (fun _ => rfl) nofun
  | count other =>
      cases hexec
      exact hevent _ _ (fun _ => rfl) nofun

end Findings

end SystemsManager.Forecast
