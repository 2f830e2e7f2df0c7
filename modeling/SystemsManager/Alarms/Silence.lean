import SystemsManager.Alarms.LifeCycle
import SystemsManager.Alarms.Notifications

/-!
# Handled alerts stay silent

The dispatcher sends nothing for an alert that is acknowledged, ignored or closed. Which of these an
alert is, it reads from the object that the cycle holds, and a request between the snapshot and the
evaluation does not reach that object. `silent_while_unhandled` is the theorem to read: along every
run in which the alert that a breaching rule refreshes has not been handled since the snapshot was
read, no firing notification goes out for an alert that is stored as handled.
-/

namespace SystemsManager.Alarms

open Python Sql

variable {Config : Type}

namespace Dispatcher

theorem send_handled (d : Dispatcher) {n : Notification} (hfiring : n.event = .firing)
    (hhandled : n.alert.status.handled = true) : (d.send n).1.channels = [] := by
  have hselected := (send_filters d n).1
  simp only [hfiring, policiesThatShouldDispatch, hhandled, if_true] at hselected
  simp [Outcome.channels, hselected]

end Dispatcher

namespace Engine

open AlertRepository AlertManager

section Silence

/-- The engine, and the alerts that have been acknowledged, ignored or closed since the snapshot of
the cycle was read. -/
structure Watched where
  eng : Engine
  handled : String → Prop := fun _ => False

/-- One piece of work. -/
def Watched.step (v : Watched) (w : Work Config) : Watched where
  eng := v.eng.step w
  handled := fun id => v.eng.rereads w = false ∧
    (v.handled id ∨ (v.eng.scope w).closes id ∨ (v.eng.scope w).handles id)

/-- Some work. -/
def Watched.run (eng : Engine) (works : List (Work Config)) : Watched :=
  works.foldl Watched.step ⟨eng, fun _ => False⟩

/-- The alert that a breaching rule refreshes has not been handled since the snapshot was read,
where the snapshot has it as active. -/
def Unhandled (v : Watched) : Work Config → Prop
  | .evaluate _ rule (.breach _) _ _ _ =>
      ∀ a, (v.eng.ongoingOf rule.ruleId).head? = some a → a.status = .active → ¬ v.handled a.alertId
  | _ => True

/-- An alert of the snapshot that has not been handled since is stored with its status. -/
structure Fresh (v : Watched) : Prop where
  split : v.eng.repo.db.Split
  coherent : Coherent v.eng.repo
  active : ∀ a ∈ v.eng.snapshot, a.status = .active → ¬ v.handled a.alertId →
    ∀ row ∈ v.eng.repo.db.unionAll, row.alertId = a.alertId → row.status = .active

variable {v : Watched} {w : Work Config} {eng : Engine} {works : List (Work Config)}

theorem Watched.run_concat (eng : Engine) (works : List (Work Config)) (w : Work Config) :
    Watched.run eng (works ++ [w]) = (Watched.run eng works).step w := by
  simp [Watched.run]

theorem Watched.run_eng (eng : Engine) (works : List (Work Config)) :
    (Watched.run eng works).eng = eng.run works := by
  induction works using List.reverseRecOn with
  | nil => rfl
  | append_singleton works w ih =>
      rw [Watched.run_concat, Engine.run_concat, ← ih]
      rfl

theorem handles_of_creates {id : String} {ruleId : Option String}
    (h : (eng.scope w).creates id ruleId) : (eng.scope w).handles id := by
  cases w with
  | process corr c alertId now => exact h.1
  | evaluate corr rule reading value alertId now =>
      cases reading with
      | breach c => exact h.1
      | _ => cases h
  | _ => cases h

theorem Fresh.step (h : Fresh v) (hfresh : ∀ id ∈ w.newId, v.eng.Unused id) :
    Fresh (v.step w) := by
  have hserves := step_serves v.eng w hfresh
  have hsplit := hserves.store.split h.split
  refine ⟨hsplit, hserves.coherent h.coherent, ?_⟩
  intro a ha hactive hunhandled row hrow hid
  have houtline : a.outline ∈ (v.eng.step w).snapshot.map Alert.outline := List.mem_map_of_mem ha
  cases hread : v.eng.rereads w with
  | true =>
      rw [step_snapshot_read h.coherent hread] at houtline
      obtain ⟨stored, hstored, hsame⟩ := List.mem_map.mp houtline
      have hstoredid : stored.alertId = a.alertId := congrArg Outline.alertId hsame
      have hstatus : stored.status = a.status := congrArg Outline.status hsame
      have hmem : stored ∈ (v.eng.step w).repo.db.unionAll :=
        List.mem_append_left _ (mem_of_listed hstored).1
      rw [hsplit.unique hrow hmem (hid.trans hstoredid.symm), hstatus]
      exact hactive
  | false =>
      rw [step_snapshot_kept hread] at houtline
      obtain ⟨old, hold, hsame⟩ := List.mem_map.mp houtline
      have holdid : old.alertId = a.alertId := congrArg Outline.alertId hsame
      have holdstatus : old.status = a.status := congrArg Outline.status hsame
      have hbefore : ¬ (v.handled a.alertId ∨ (v.eng.scope w).closes a.alertId ∨
          (v.eng.scope w).handles a.alertId) := fun hno => hunhandled ⟨hread, hno⟩
      rw [not_or, not_or] at hbefore
      rcases hserves.store.rows row hrow with ⟨row₀, hrow₀, hfollows⟩ | hborn
      · have hrow₀id : row₀.alertId = a.alertId := hfollows.alertId.symm.trans hid
        have hwas := h.active old hold (holdstatus.trans hactive)
          (holdid.symm ▸ hbefore.1) row₀ hrow₀
          (hrow₀id.trans holdid.symm)
        rcases hfollows.status with hstatus | hmoves
        · exact hstatus.trans hwas
        · rw [hrow₀id] at hmoves
          generalize row.status = status at hmoves
          cases hmoves with
          | closed hcloses => exact absurd hcloses hbefore.2.1
          | active _ => rfl
          | acknowledged hhandles _ => exact absurd hhandles hbefore.2.2
          | ignored hhandles _ => exact absurd hhandles hbefore.2.2
      · exact absurd (hid ▸ handles_of_creates hborn.creates) hbefore.2.2

theorem write_alert_status {db db' : AeAlarmsDB} {a row : Alert}
    (hwrite : db.writeAlert a = some db') (hrow : row ∈ db'.unionAll)
    (hid : row.alertId = a.alertId) : row.status = a.status := by
  rw [AeAlarmsDB.mem_write hwrite] at hrow
  rcases hrow with rfl | ⟨-, hne⟩
  · simp only [AeAlarmsDB.written]
    split <;> rfl
  · exact absurd hid hne

theorem process_created {repo repo' : AlertRepository} {corr : Correlation} {c : AlertCreate}
    {alertId : String} {now : ℚ} {a row : Alert}
    (h : processAlert repo corr c alertId now = (.created a, repo'))
    (hrow : row ∈ repo'.db.unionAll) (hid : row.alertId = a.alertId) : row.status = a.status := by
  simp only [processAlert] at h
  split at h
  · simp at h
  · split at h
    · simp at h
    · rename_i alert made hmade
      have hcreated : ∀ row ∈ made.db.unionAll, row.alertId = alert.alertId →
          row.status = alert.status := by
        intro row hrow hid
        simp only [create, save, Option.map_map, Option.map_eq_some_iff, Function.comp_apply,
          Prod.mk.injEq] at hmade
        obtain ⟨db, hwrite, rfl, rfl⟩ := hmade
        exact write_alert_status hwrite hrow hid
      cases hwindow : repo.ruleIgnoredUntil c.ruleId now with
      | none =>
          simp only [hwindow, Prod.mk.injEq, Processed.created.injEq] at h
          obtain ⟨rfl, rfl⟩ := h
          exact hcreated row hrow hid
      | some deadline =>
          simp only [hwindow, Prod.mk.injEq, Processed.created.injEq] at h
          obtain ⟨rfl, rfl⟩ := h
          cases hupdate : made.update alertId { status := .ignored, ignoredUntil := some deadline }
              now with
          | none =>
              simp only [hupdate, Option.getD_none] at hrow hid ⊢
              exact hcreated row hrow hid
          | some updated =>
              simp only [hupdate, Option.getD_some] at hrow hid ⊢
              obtain ⟨old, -, hresult, -, -, hwrite⟩ := change_eq_some hupdate
              rw [hresult] at hid ⊢
              exact write_alert_status hwrite hrow hid

/-- What a piece of work notifies of. -/
inductive Notifies (eng : Engine) (w : Work Config) (a : Alert) : Prop where
  | created : (∀ row ∈ (eng.step w).repo.db.unionAll, row.alertId = a.alertId →
      row.status = a.status) → Notifies eng w a
  | refreshed {corr : Correlation} {rule : AlarmRule Config} {c : AlertCreate} {value : PyFloat}
      {alertId : String} {now : ℚ} {old : Alert} :
      w = .evaluate corr rule (.breach c) value alertId now →
      (eng.ongoingOf rule.ruleId).head? = some old → old.alertId = a.alertId →
      old.status = a.status → Notifies eng w a

/-- A request notifies of nothing. -/
theorem serve_firings (eng : Engine) (result : Option (Alert × AlertRepository)) :
    (eng.serve result).firings = eng.firings := by
  simp only [serve]
  split <;> rfl

/-- Closing alerts notifies of nothing. -/
theorem auto_resolve_firings (value : PyFloat) (now : ℚ) (alerts : List Alert) (eng : Engine) :
    (eng.autoResolve value now alerts).firings = eng.firings := by
  induction alerts generalizing eng with
  | nil => rfl
  | cons a rest ih =>
      simp only [autoResolve]
      split
      · exact ih _
      · exact ih _

theorem step_firings (eng : Engine) (w : Work Config) {a : Alert}
    (ha : a ∈ (eng.step w).firings.drop eng.firings.length) : Notifies eng w a := by
  have hsame : (eng.step w).firings = eng.firings → Notifies eng w a := by
    intro hsame
    rw [hsame, List.drop_length] at ha
    cases ha
  cases w with
  | process corr c alertId now =>
      simp only [step] at ha hsame
      split at ha
      · rename_i created repo hprocess
        rw [List.drop_left, List.mem_singleton] at ha
        subst ha
        refine .created ?_
        simp only [step, hprocess]
        exact fun row hrow hid => process_created hprocess hrow hid
      · rename_i outcome repo hnot hprocess
        simp only [List.drop_length] at ha
        cases ha
  | acknowledge alertId now => exact hsame (serve_firings eng _)
  | close alertId reason now => exact hsame (serve_firings eng _)
  | ignore alertId durationHours now => exact hsame (serve_firings eng _)
  | resume alertId now => exact hsame (serve_firings eng _)
  | expireWindows now =>
      refine hsame ?_
      simp only [step, expireIgnoreWindows]
      split <;> rfl
  | evaluate corr rule reading value alertId now =>
      cases reading with
      | ok recovered =>
          refine hsame ?_
          simp only [step, evaluateRule, after_ok_eq]
          split
          · rw [auto_resolve_firings]
            rfl
          · rfl
      | breach c =>
          simp only [step, evaluateRule, after_breach_eq] at ha hsame
          cases hongoing : eng.ongoingOf rule.ruleId with
          | nil =>
              simp only [hongoing] at ha hsame
              split at ha
              · simp only [notOk, List.drop_length] at ha
                cases ha
              · rename_i hstreak
                simp only [fire, notOk] at ha
                split at ha
                · simp only [List.drop_length] at ha
                  cases ha
                · simp only [List.drop_length] at ha
                  cases ha
                · rename_i created repo hprocess
                  rw [List.drop_left, List.mem_singleton] at ha
                  subst ha
                  refine .created ?_
                  simp only [step, evaluateRule, after_breach_eq, hongoing, if_neg hstreak, fire,
                    notOk, hprocess]
                  exact fun row hrow hid => process_created hprocess hrow hid
          | cons old rest =>
              simp only [hongoing] at ha
              rw [List.drop_left, List.mem_singleton] at ha
              subst ha
              have hhead : (eng.ongoingOf rule.ruleId).head? = some old := by
                rw [hongoing]
                rfl
              exact .refreshed rfl hhead rfl rfl
      | _ => exact hsame rfl
  | _ => exact hsame rfl

theorem Fresh.run (hsplit : eng.repo.db.Split) (hcoherent : Coherent eng.repo)
    (hsnapshot : eng.snapshot = []) (hnew : eng.NewIds works) : Fresh (Watched.run eng works) := by
  induction works using List.reverseRecOn with
  | nil =>
      refine ⟨hsplit, hcoherent, ?_⟩
      intro a ha
      rw [show (Watched.run eng ([] : List (Work Config))).eng.snapshot = eng.snapshot from rfl,
        hsnapshot] at ha
      cases ha
  | append_singleton works w ih =>
      rw [Watched.run_concat]
      refine (ih hnew.part).step ?_
      rw [Watched.run_eng]
      exact hnew.unused_next

/-- In every run in which the alert that a breaching rule refreshes has not been handled since the
snapshot was read, whatever the dispatcher and its policies are: where a firing notification goes to
a channel, the alert is not stored as acknowledged, ignored or closed. -/
theorem silent_while_unhandled {eng : Engine} (hsplit : eng.repo.db.Split)
    (hcoherent : Coherent eng.repo) (hsnapshot : eng.snapshot = []) (works : List (Work Config))
    (hnew : eng.NewIds works)
    (hunhandled : Each (fun before w => Unhandled (Watched.run eng before) w) works) :
    Each (fun before w => ∀ a ∈ ((eng.run before).step w).firings.drop
        (eng.run before).firings.length,
      ∀ (d : Dispatcher) (n : Dispatcher.Notification), n.alert = a → n.event = .firing →
        (d.send n).1.channels ≠ [] →
        ∀ row ∈ ((eng.run before).step w).repo.db.unionAll, row.alertId = a.alertId →
          row.status.handled = false) works := by
  rintro before w after hworks a ha d n rfl hfiring hsent row hrow hid
  have hobject : n.alert.status.handled = false := by
    rw [← Bool.not_eq_true]
    exact fun hhandled => hsent (d.send_handled hfiring hhandled)
  rw [hworks, ← List.singleton_append, ← List.append_assoc] at hnew
  have hfresh := hnew.part.unused_next
  cases step_firings _ w ha with
  | created hstored =>
      rw [hstored row hrow hid]
      exact hobject
  | refreshed hw hhead holdid holdstatus =>
      rename_i corr rule c value alertId now old
      have hinv := Fresh.run hsplit hcoherent hsnapshot hnew.part.part
      have hcondition := hunhandled before w after hworks
      subst hw
      rw [← Watched.run_eng] at hhead hrow
      have hold : old ∈ (Watched.run eng before).eng.ongoingOf rule.ruleId :=
        List.mem_of_head? hhead
      obtain ⟨hmem, hlive⟩ := List.mem_filter.mp hold
      rw [Bool.and_eq_true] at hlive
      have hactive : old.status = .active := by
        rw [← holdstatus] at hobject
        have hongoing := hlive.2
        generalize old.status = status at hobject hongoing
        cases status <;> simp_all [AlertStatus.live, AlertStatus.handled]
      -- The refresh leaves every status as it is.
      have hrefresh : Serves {} (Watched.run eng before).eng.repo
          ((Watched.run eng before).eng.step
            (.evaluate corr rule (.breach c) value alertId now)).repo := by
        obtain ⟨rest, hongoing⟩ := List.head?_eq_some_iff.mp hhead
        simp only [step, evaluateRule, after_breach_eq, hongoing]
        exact refresh_serves {} _ _ _ _
      rcases hrefresh.store.rows row hrow with ⟨row₀, hrow₀, hfollows⟩ | hborn
      · have hrow₀id : row₀.alertId = old.alertId :=
          (hfollows.alertId.symm.trans hid).trans holdid.symm
        rw [hfollows.same_status id id id,
          hinv.active old hmem hactive (hcondition old hhead hactive) row₀ hrow₀ hrow₀id]
        rfl
      · exact absurd hborn.creates id

end Silence

end Engine

end SystemsManager.Alarms
