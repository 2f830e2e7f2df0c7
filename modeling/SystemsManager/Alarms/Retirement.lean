import SystemsManager.Alarms.LifeCycle

/-!
# Rules that are turned off

The requests that disable or delete a rule close its ongoing alerts, while a cycle of the rule
engine may hold the rule from before. `AlarmEngine` is the rules and the alerts together, with the
cycle that is under way. `off_leaves_none` is the theorem to read: from the request on, and until
the rule is enabled again, it has no ongoing alert, where the request sees all alerts of the rule,
no closed alert of it is resumed, and the cycle under way neither fires the rule nor writes it back.
-/

namespace SystemsManager.Alarms

open Python Sql

variable {Config : Type}

namespace AlertManager

open AlertRepository

section Closing

variable {repo repo' : AlertRepository} {alertId : String} {reason : Option String}
  {resolvedValue : Option PyFloat} {now : ℚ} {result : Alert}

/-- The store takes the alert back when it is written, and the repository can read it. -/
def Closable (row : Alert) : Prop := isReadable row = true ∧ AeAlarmsDB.isStorable row = true

theorem close_rows (h : closeAlert repo alertId reason resolvedValue now = some (result, repo'))
    {row' : Alert} (hrow' : row' ∈ repo'.db.unionAll) :
    (row'.alertId = alertId → row'.status = .closed) ∧
      ∃ row ∈ repo.db.unionAll, row.alertId = row'.alertId ∧ (Closable row → Closable row') := by
  simp only [closeAlert, Option.bind_eq_some_iff, Option.map_eq_some_iff, Prod.mk.injEq,
    Prod.exists] at h
  obtain ⟨alert, halert, result, changed, hchange, -, rfl⟩ := h
  -- The windows are dropped after the write, and nothing else.
  have hcleared : ∃ row ∈ changed.db.unionAll, row.alertId = row'.alertId ∧
      row.status = row'.status ∧ (Closable row → Closable row') := by
    have hdrop : ∀ (t : Table Alert.alertId) (ruleId : String), row' ∈
        (AeAlarmsDB.dropWindows t ruleId).rows → ∃ row ∈ t.rows, row.alertId = row'.alertId ∧
          row.status = row'.status ∧ (Closable row → Closable row') := by
      intro t ruleId hmem
      simp only [AeAlarmsDB.dropWindows, Table.mem_update] at hmem
      obtain ⟨row, hrow, rfl⟩ := hmem
      refine ⟨row, hrow, ?_⟩
      split
      · exact ⟨rfl, rfl, id⟩
      · exact ⟨rfl, rfl, id⟩
    have hkept : row' ∈ (if reason = some "auto" then changed
        else changed.clearRuleIgnored alert.ruleId).db.unionAll := hrow'
    split at hkept
    · exact ⟨row', hkept, rfl, rfl, id⟩
    · cases halertRule : alert.ruleId with
      | none =>
          rw [halertRule] at hkept
          exact ⟨row', hkept, rfl, rfl, id⟩
      | some ruleId =>
          rw [halertRule] at hkept
          simp only [clearRuleIgnored, AeAlarmsDB.clearIgnoredUntil, AeAlarmsDB.unionAll,
            List.mem_append] at hkept ⊢
          rcases hkept with hkept | hkept
          · obtain ⟨row, hrow, hsame⟩ := hdrop _ _ hkept
            exact ⟨row, .inl hrow, hsame⟩
          · obtain ⟨row, hrow, hsame⟩ := hdrop _ _ hkept
            exact ⟨row, .inr hrow, hsame⟩
  obtain ⟨row, hrow, hid, hstatus, hclosable⟩ := hcleared
  obtain ⟨old, hold, -, -, -, hwrite⟩ := change_eq_some hchange
  obtain ⟨holdmem, holdid⟩ := AeAlarmsDB.mem_of_get_alert (get_alert_of_get_by_id hold).1
  have hget : repo.db.getAlert old.alertId = some old := by
    rw [holdid]
    exact (get_alert_of_get_by_id hold).1
  have hwritten := AeAlarmsDB.written_stored (a := AlertRepository.applyUpdate
    { status := .closed, resolutionReason := reason, resolvedValue := resolvedValue } old now)
    hget rfl rfl rfl rfl
  rw [AeAlarmsDB.mem_write hwrite, hwritten] at hrow
  rcases hrow with rfl | ⟨hmem, hne⟩
  · exact ⟨fun _ => hstatus.symm, old, holdmem, hid, hclosable⟩
  · refine ⟨?_, row, hmem, hid, hclosable⟩
    intro hrowid
    exact absurd ((hid.trans hrowid).trans holdid.symm) hne

theorem close_succeeds (reason : Option String) (resolvedValue : Option PyFloat) (now : ℚ)
    {row : Alert} (hget : repo.db.getAlert alertId = some row) (hclosable : Closable row) :
    (closeAlert repo alertId reason resolvedValue now).isSome = true := by
  have hread : repo.getById alertId = some row := by
    simp only [AlertRepository.getById, hget, Option.filter_some, hclosable.1, if_true]
  have hwrite : ∃ db, repo.db.writeAlert (AlertRepository.applyUpdate
      { status := .closed, resolutionReason := reason, resolvedValue := resolvedValue } row now) =
        some db := by
    have hstorable : AeAlarmsDB.isStorable (AlertRepository.applyUpdate
        { status := .closed, resolutionReason := reason, resolvedValue := resolvedValue } row
        now) = true := hclosable.2
    rw [AeAlarmsDB.write_alert_eq, if_pos hstorable]
    split
    · exact ⟨_, rfl⟩
    · exact ⟨_, rfl⟩
  obtain ⟨db, hwrite⟩ := hwrite
  simp only [closeAlert, hread, Option.bind_some, AlertRepository.update, change, save, hwrite,
    Option.map_some, Option.isSome_some]

theorem close_each_closes (alerts : List Alert) (hsplit : repo.db.Split)
    (hclosable : ∀ row ∈ repo.db.unionAll, row.alertId ∈ alerts.map Alert.alertId →
      Closable row) {row' : Alert}
    (hrow' : row' ∈ (closeEach repo reason resolvedValue now alerts).db.unionAll)
    (hlisted : row'.alertId ∈ alerts.map Alert.alertId) : row'.status = .closed := by
  induction alerts generalizing repo with
  | nil => cases hlisted
  | cons a rest ih =>
      have hrest : ∀ start : AlertRepository, Serves { closes := fun _ => True } start
          (closeEach start reason resolvedValue now rest) :=
        fun start => close_each_serves (fun _ _ => id) rest start fun _ _ _ _ _ => trivial
      simp only [closeEach] at hrow'
      split at hrow'
      · rename_i closed first hclose
        have hserves := close_serves (s := { closes := fun _ => True }) (fun _ _ _ =>
          trivial) hclose
        rw [List.map_cons, List.mem_cons] at hlisted
        rcases hlisted with hid | hid
        · -- What comes after leaves a closed row closed.
          rcases (hrest first).store.rows row' hrow' with ⟨row, hrow, hfollows⟩ | hborn
          · refine hfollows.closed ((close_rows hclose hrow).1 ?_) id
            exact hfollows.alertId.symm.trans hid
          · exact absurd hborn.creates id
        · refine ih (hserves.store.split hsplit) ?_ hrow' hid
          intro row hrow hmem
          obtain ⟨old, hold, holdid, hkeeps⟩ := (close_rows hclose hrow).2
          refine hkeeps (hclosable old hold ?_)
          rw [holdid, List.map_cons]
          exact List.mem_cons_of_mem _ hmem
      · rename_i hrefused
        have htail := ih hsplit (fun row hrow hmem => hclosable row hrow
          (List.mem_cons_of_mem _ hmem)) hrow'
        rw [List.map_cons, List.mem_cons] at hlisted
        rcases hlisted with hid | hid
        · -- There is no row with this id, since closing it would not have been refused.
          rcases (hrest repo).store.rows row' hrow' with ⟨row, hrow, hfollows⟩ | hborn
          · have hrowid : row.alertId = a.alertId := hfollows.alertId.symm.trans hid
            have hget := hsplit.get_alert hrow
            rw [hrowid] at hget
            have hsome := close_succeeds reason resolvedValue now hget
              (hclosable row hrow (by simp [hrowid]))
            rw [hrefused] at hsome
            cases hsome
          · exact absurd hborn.creates id
        · exact htail hid

/-- The list of the ongoing alerts has those of the rule, and the store takes them back. -/
def Complete (db : AeAlarmsDB) (ruleId : String) : Prop :=
  ∀ row ∈ db.alerts.rows, row.ruleId = some ruleId → row ∈ listed db ∧
    AeAlarmsDB.isStorable row = true

theorem close_rule_closes {ruleId closeReason : String} (hsplit : repo.db.Split)
    (hcoherent : Coherent repo) (hcomplete : Complete repo.db ruleId) {row' : Alert}
    (hrow' : row' ∈ (closeRuleAlerts repo ruleId closeReason now).db.unionAll)
    (hrule : row'.ruleId = some ruleId) : row'.status.live = false := by
  by_contra hlive
  rw [Bool.not_eq_false] at hlive
  have hserves : Serves { closes := fun _ => True } repo
      (closeRuleAlerts repo ruleId closeReason now) :=
    close_rule_serves _ _ _ _ (fun _ _ => id) fun _ _ _ _ _ _ => trivial
  rcases hserves.store.rows row' hrow' with ⟨row, hrow, hfollows⟩ | hborn
  · -- The row was ongoing before, and so it was listed.
    have hrowlive : row.status.live = true := by
      rcases hfollows.status with hsame | hmoves
      · rw [← hsame]
        exact hlive
      · generalize row'.status = status at hmoves hlive
        cases hmoves with
        | closed _ => cases hlive
        | active h => exact absurd h id
        | acknowledged h _ => exact absurd h id
        | ignored h _ => exact absurd h id
    have hrowrule : row.ruleId = some ruleId := hfollows.ruleId.symm.trans hrule
    have hmem : row ∈ repo.db.alerts.rows := by
      rw [AeAlarmsDB.unionAll, List.mem_append] at hrow
      rcases hrow with hrow | hrow
      · exact hrow
      · rw [hsplit.archived row hrow] at hrowlive
        cases hrowlive
    have hinlist : row.outline ∈ repo.getActive.1.map Alert.outline := by
      rw [get_active_listed hcoherent]
      exact List.mem_map_of_mem (hcomplete row hmem hrowrule).1
    obtain ⟨a, ha, houtline⟩ := List.mem_map.mp hinlist
    have haid : a.alertId = row.alertId := congrArg Outline.alertId houtline
    have harule : a.ruleId = row.ruleId := congrArg Outline.ruleId houtline
    have hastatus : a.status = row.status := congrArg Outline.status houtline
    rw [close_rule_eq] at hrow'
    have hclosed := close_each_closes _ ?_ ?_ hrow' ?_
    · rw [hclosed] at hlive
      cases hlive
    · rw [get_active_db]
      exact hsplit
    · -- Every alert that is to be closed is listed, and so its row is closable.
      rw [get_active_db]
      intro other hother hid
      obtain ⟨b, hb, hbid⟩ := List.mem_map.mp hid
      obtain ⟨hbmem, hblive⟩ := List.mem_filter.mp hb
      simp only [Bool.and_eq_true, decide_eq_true_eq] at hblive
      have hboutline : b.outline ∈ (listed repo.db).map Alert.outline := by
        rw [← get_active_listed hcoherent]
        exact List.mem_map_of_mem hbmem
      obtain ⟨c, hc, hcoutline⟩ := List.mem_map.mp hboutline
      have hcid : c.alertId = b.alertId := congrArg Outline.alertId hcoutline
      have hcrule : c.ruleId = b.ruleId := congrArg Outline.ruleId hcoutline
      have hcrow := (mem_of_listed hc).1
      have hsame : other = c := hsplit.unique hother (List.mem_append_left _ hcrow)
        (hbid.symm.trans hcid.symm)
      rw [hsame]
      exact ⟨(List.mem_filter.mp hc).2, (hcomplete c hcrow (hcrule.trans hblive.2)).2⟩
    · refine List.mem_map.mpr ⟨a, List.mem_filter.mpr ⟨ha, ?_⟩, haid.trans hfollows.alertId.symm⟩
      simp [hastatus, hrowlive, harule, hrowrule]
  · exact absurd hborn.creates id

end Closing

end AlertManager

/-- The rules with the cycle under way, and the alerts. -/
structure AlarmEngine (Config : Type) where
  rules : System Config
  engine : Engine

/-- The violation that the evaluator returns has the id of the rule. -/
def Reading.ofRule (rule : AlarmRule Config) : Reading → Reading
  | .breach c => .breach { c with ruleId := some rule.ruleId }
  | reading => reading

namespace AlarmEngine

open Engine AlertManager AlertRepository

section Steps

/-- An atomic piece of work: a request for a rule, a step of the cycle, or a request for alerts and
the rest of the cycle, which create no alert. -/
inductive Activity (Config : Type) where
  | updateRule (ruleId : String) (changes : AlarmRuleUpdate Config) (now : ℚ)
  | toggleRule (ruleId : String) (now : ℚ)
  | deleteRule (ruleId : String) (now : ℚ)
  | beginCycle
  | evaluate (corr : Correlation) (reading : Reading) (value : PyFloat) (alertId : String) (now : ℚ)
  | expireRule (ruleId : String)
  | expireRules
  | serve (w : Work Config) (creates : w.newId = none)

/-- The cycle has ended. -/
def idle (p : AlarmEngine Config) : Bool := p.rules.cycles.all fun cycle => cycle.pending.isEmpty

/-- The cycle that was begun last. -/
def current (p : AlarmEngine Config) : Nat := p.rules.cycles.length - 1

/-- A request returns a rule that is not enabled. -/
def isOff (result : Option (AlarmRule Config)) : Bool := result.any fun rule => !rule.enabled

/-- The request turns a rule off, and closes its alerts. -/
def turnsOff (p : AlarmEngine Config) (ruleId : String) : Activity Config → Bool
  | .updateRule asked changes now =>
      let (existing, repo) := getById p.rules.repo asked
      decide (asked = ruleId) && existing.any (fun rule => rule.enabled) &&
        isOff (update repo asked changes now).1
  | .toggleRule asked now => decide (asked = ruleId) && isOff (toggle p.rules.repo asked now).1
  | .deleteRule asked _ => decide (asked = ruleId) && (Alarms.delete p.rules.repo asked).1
  | _ => false

/-- The rules after an activity. `update_rule` looks the rule up before it updates it. -/
def stepRules (p : AlarmEngine Config) : Activity Config → System Config
  | .updateRule ruleId changes now =>
      let (_, repo) := getById p.rules.repo ruleId
      Alarms.step { p.rules with repo := repo } (.update ruleId changes now)
  | .toggleRule ruleId now => Alarms.step p.rules (.toggle ruleId now)
  | .deleteRule ruleId _ => Alarms.step p.rules (.delete ruleId)
  | .beginCycle => if p.idle then Alarms.step p.rules .load else p.rules
  | .evaluate corr reading value alertId now =>
      match nextRule p.rules p.current with
      | none => p.rules
      | some (rule, _) =>
          let (verdict, _) :=
            p.engine.evaluateRule corr rule (reading.ofRule rule) value alertId now
          Alarms.step p.rules (.evaluate p.current verdict now)
  | .expireRule ruleId => Alarms.step p.rules (.expire ruleId)
  | .expireRules => Alarms.step p.rules .expireAll
  | .serve _ _ => p.rules

/-- What an activity does to the alerts. -/
def work (p : AlarmEngine Config) : Activity Config → List (Work Config)
  | .updateRule ruleId changes now =>
      if p.turnsOff ruleId (.updateRule ruleId changes now) then
        [.closeRule ruleId "rule disabled" now] else []
  | .toggleRule ruleId now =>
      if p.turnsOff ruleId (.toggleRule ruleId now) then
        [.closeRule ruleId "rule disabled" now] else []
  | .deleteRule ruleId now =>
      if p.turnsOff ruleId (.deleteRule ruleId now) then
        [.closeRule ruleId "rule deleted" now] else []
  | .evaluate corr reading value alertId now =>
      match nextRule p.rules p.current with
      | none => []
      | some (rule, _) => [.evaluate corr rule (reading.ofRule rule) value alertId now]
  | .serve w _ => [w]
  | _ => []

/-- One activity. -/
def step (p : AlarmEngine Config) (act : Activity Config) : AlarmEngine Config :=
  { rules := p.stepRules act, engine := p.engine.run (p.work act) }

/-- The alarm engine after some activities. -/
def run (p : AlarmEngine Config) (acts : List (Activity Config)) : AlarmEngine Config :=
  acts.foldl step p

/-- What some activities do to the alerts. -/
def works (p : AlarmEngine Config) : List (Activity Config) → List (Work Config)
  | [] => []
  | act :: acts => p.work act ++ (p.step act).works acts

theorem run_concat (p : AlarmEngine Config) (acts : List (Activity Config))
    (act : Activity Config) : p.run (acts ++ [act]) = (p.run acts).step act := by
  simp [run]

/-- The work of activities that go on. -/
theorem works_append (p : AlarmEngine Config) (acts more : List (Activity Config)) :
    p.works (acts ++ more) = p.works acts ++ (p.run acts).works more := by
  induction acts generalizing p with
  | nil => rfl
  | cons first acts ih =>
      rw [List.cons_append, works, ih, works, List.append_assoc]
      rfl

theorem works_concat (p : AlarmEngine Config) (acts : List (Activity Config))
    (act : Activity Config) : p.works (acts ++ [act]) = p.works acts ++ (p.run acts).work act := by
  rw [works_append, works, works, List.append_nil]

theorem run_engine (p : AlarmEngine Config) (acts : List (Activity Config)) :
    (p.run acts).engine = p.engine.run (p.works acts) := by
  induction acts using List.reverseRecOn with
  | nil => rfl
  | append_singleton acts act ih =>
      rw [run_concat, works_concat, Engine.run, List.foldl_append]
      simp only [step, ih, Engine.run]

end Steps

section Conditions

/-- What the requests made of the rule is enabled. -/
def enabled (p : AlarmEngine Config) (ruleId : String) : Bool :=
  (p.rules.intended.get? ruleId).any fun rule => rule.enabled

/-- The evaluation fires the rule, or reaches its end when the rule is due to be written back. -/
def Writes (p : AlarmEngine Config) (rule : AlarmRule Config) (now : ℚ) : Reading → Prop
  | .breach _ => p.engine.fires rule = true ∨
      persistMinIntervalS ≤ now - p.rules.lastPersist.getD rule.ruleId 0
  | .ok _ => persistMinIntervalS ≤ now - p.rules.lastPersist.getD rule.ruleId 0
  | _ => False

/-- The alert is not a closed one of the rule. -/
def NotClosedOf (db : AeAlarmsDB) (ruleId id : String) : Prop :=
  ∀ row ∈ db.unionAll, row.alertId = id → row.ruleId = some ruleId → row.status ≠ .closed

/-- The cycle neither fires nor writes back a rule that was turned off since the cycle took it, no
closed alert of a rule that is off is resumed, and a request that turns the rule off sees all of its
alerts. -/
def Respects (p : AlarmEngine Config) (ruleId : String) : Activity Config → Prop
  | .evaluate _ reading _ _ now =>
      ∀ rule rest, nextRule p.rules p.current = some (rule, rest) → rule.ruleId = ruleId →
        ruleId ∈ rest.changed → p.enabled ruleId = false → ¬ p.Writes rule now reading
  | .serve (.resume alertId _) _ =>
      p.enabled ruleId = false → NotClosedOf p.engine.repo.db ruleId alertId
  | .serve (.expireWindows now) _ =>
      p.enabled ruleId = false → ∀ a ∈ p.engine.snapshot, a.status = .ignored →
        (∃ deadline, a.ignoredUntil = some deadline ∧ deadline ≤ now) →
          NotClosedOf p.engine.repo.db ruleId a.alertId
  | act => p.turnsOff ruleId act = true → Complete p.engine.repo.db ruleId

/-- The tables are split, the snapshot of the repository is as the store has it, no alert is marked
as an exception, and the rules are stored and cached under their ids. -/
structure Sound (p : AlarmEngine Config) : Prop where
  split : p.engine.repo.db.Split
  coherent : Coherent p.engine.repo
  regular : ∀ row ∈ p.engine.repo.db.unionAll, row.status ≠ .exception
  stored : ∀ ruleId row, p.rules.repo.db.get? ruleId = some row → row.ruleId = ruleId
  cached : ∀ ruleId row, p.rules.repo.cache.get? ruleId = some row → row.ruleId = ruleId

end Conditions

end AlarmEngine

section Rules

/-- The rules are stored and cached under their ids. -/
structure Keyed (repo : RuleRepository Config) : Prop where
  stored : ∀ ruleId row, repo.db.get? ruleId = some row → row.ruleId = ruleId
  cached : ∀ ruleId row, repo.cache.get? ruleId = some row → row.ruleId = ruleId

/-- The repository has no enabled rule of this id. -/
structure Off (repo : RuleRepository Config) (ruleId : String) : Prop where
  stored : ∀ row, repo.db.get? ruleId = some row → row.enabled = false
  cached : ∀ row, repo.cache.get? ruleId = some row → row.enabled = false
  listed : ∀ rules, repo.allCache = some rules → ∀ rule ∈ rules, rule.ruleId ≠ ruleId

/-- A cycle has the rule only from before it was turned off. -/
structure Retired (sys : System Config) (ruleId : String) : Prop where
  off : Off sys.repo ruleId
  pending : ∀ cycle ∈ sys.cycles, ∀ rule ∈ cycle.pending, rule.ruleId = ruleId →
    ruleId ∈ cycle.changed

variable {repo : RuleRepository Config} {sys : System Config} {ruleId asked : String}

theorem get_write_rule (db : Dict String (AlarmRule Config)) (rule : AlarmRule Config) :
    ∃ row, row.ruleId = rule.ruleId ∧ row.enabled = rule.enabled ∧
      ∀ key, (writeRule db rule).get? key = if key =
        rule.ruleId then some row else db.get? key := by
  unfold writeRule
  split
  · exact ⟨columns rule, rfl, rfl, fun key => Dict.get?_set _ _ _ _⟩
  · rename_i row _
    exact ⟨{ columns rule with createdAt := row.createdAt }, rfl, rfl,
      fun key => Dict.get?_set _ _ _ _⟩

/-- Writing a rule under its id. -/
theorem write_rule_keyed (db : Dict String (AlarmRule Config)) (rule : AlarmRule Config)
    (h : ∀ key row, db.get? key = some row → row.ruleId = key) (key : String)
    (row : AlarmRule Config) (hrow : (writeRule db rule).get? key = some row) :
    row.ruleId = key := by
  obtain ⟨new, hid, -, hget⟩ := get_write_rule db rule
  rw [hget] at hrow
  split at hrow
  · rename_i hkey
    cases hrow
    exact hid.trans hkey.symm
  · exact h key row hrow

theorem get_by_id_keyed (h : Keyed repo) (asked : String) :
    Keyed (getById repo asked).2 ∧
      ∀ rule, (getById repo asked).1 = some rule → rule.ruleId = asked := by
  unfold getById
  split
  · rename_i cached hcached
    refine ⟨h, ?_⟩
    rintro rule ⟨⟩
    exact h.cached asked cached hcached
  · split
    · exact ⟨h, fun rule hrule => by cases hrule⟩
    · rename_i row hrow
      refine ⟨⟨h.stored, ?_⟩, ?_⟩
      · intro key found hfound
        rw [Dict.get?_set] at hfound
        split at hfound
        · rename_i hkey
          cases hfound
          exact (h.stored asked row hrow).trans hkey.symm
        · exact h.cached key found hfound
      · rintro rule ⟨⟩
        exact h.stored asked row hrow

theorem get_by_id_off (h : Off repo ruleId) (asked : String) :
    Off (getById repo asked).2 ruleId := by
  unfold getById
  split
  · exact h
  · split
    · exact h
    · rename_i row hrow
      refine ⟨h.stored, ?_, h.listed⟩
      intro found hfound
      rw [Dict.get?_set] at hfound
      split at hfound
      · rename_i hkey
        cases hfound
        subst hkey
        exact h.stored row hrow
      · exact h.cached found hfound

theorem update_cases (h : Keyed repo) (asked : String)
    (changes : AlarmRuleUpdate Config) (now : ℚ) :
    update repo asked changes now = (none, (getById repo asked).2) ∨
      ∃ rule, rule.ruleId = asked ∧ update repo asked changes now =
        (some rule, { db := writeRule (getById repo asked).2.db rule
                      cache := (getById repo asked).2.cache.set asked rule
                      allCache := none }) := by
  have hfound := (get_by_id_keyed h asked).2
  unfold update
  split
  · rename_i hnone
    rw [hnone]
    exact .inl rfl
  · rename_i found repo' hsome
    rw [hsome] at hfound ⊢
    exact .inr ⟨applyUpdate changes found now, hfound found rfl, rfl⟩

theorem after_edit_enabled {result : Option (AlarmRule Config) × RuleRepository Config}
    {rule : AlarmRule Config} (h : result.1 = some rule)
    (hstays : ((afterEdit sys asked result).intended.get? asked).any (fun rule => rule.enabled) =
      false) : rule.enabled = false := by
  obtain ⟨found, repo⟩ := result
  cases h
  simpa [afterEdit] using hstays

/-- Requests note the rule in every cycle. -/
theorem mem_note_change {cycles : List (Cycle Config)} {cycle : Cycle Config}
    (h : cycle ∈ noteChange asked cycles) :
    asked ∈ cycle.changed ∧ ∃ old ∈ cycles, old.pending = cycle.pending ∧
      ∀ id ∈ old.changed, id ∈ cycle.changed := by
  obtain ⟨old, hold, rfl⟩ := List.mem_map.mp h
  exact ⟨List.mem_cons_self, old, hold, rfl, fun id hid => List.mem_cons_of_mem _ hid⟩

theorem Retired.note_change (h : Retired sys ruleId) (asked : String) :
    ∀ cycle ∈ noteChange asked sys.cycles, ∀ rule ∈ cycle.pending, rule.ruleId = ruleId →
      ruleId ∈ cycle.changed := by
  intro cycle hcycle rule hrule hid
  obtain ⟨-, old, hold, hpending, hchanged⟩ := mem_note_change hcycle
  rw [← hpending] at hrule
  exact hchanged ruleId (h.pending old hold rule hrule hid)

theorem update_keyed (h : Keyed repo) (asked : String) (changes : AlarmRuleUpdate Config)
    (now : ℚ) : Keyed (update repo asked changes now).2 := by
  have hget := (get_by_id_keyed h asked).1
  rcases update_cases h asked changes now with hnone | ⟨rule, hid, hsome⟩
  · rw [hnone]
    exact hget
  · rw [hsome]
    refine ⟨write_rule_keyed _ rule hget.stored, ?_⟩
    intro key row hrow
    rw [Dict.get?_set] at hrow
    split at hrow
    · rename_i hkey
      cases hrow
      exact hid.trans hkey.symm
    · exact hget.cached key row hrow

/-- A rule is off after an update of it that returned it disabled, and a rule that is off stays off
when another one is updated. -/
theorem update_retired (hkeyed : Keyed sys.repo) {changes : AlarmRuleUpdate Config} {now : ℚ}
    (hoff : Retired sys ruleId ∨
      asked = ruleId ∧ (update sys.repo asked changes now).1 ≠ none)
    (hrule : asked = ruleId → ∀ rule, (update sys.repo asked changes now).1 = some rule →
      rule.enabled = false) :
    Retired (afterEdit sys asked (update sys.repo asked changes now)) ruleId := by
  rcases update_cases hkeyed asked changes now with hnone | ⟨rule, hid, hsome⟩
  · rw [hnone] at hoff ⊢
    rcases hoff with hoff | ⟨-, hfound⟩
    · exact ⟨get_by_id_off hoff.off asked, hoff.pending⟩
    · exact absurd rfl hfound
  · rw [hsome] at hrule ⊢
    obtain ⟨row, hrowid, hrowenabled, hget⟩ := get_write_rule (getById sys.repo asked).2.db rule
    by_cases hasked : asked = ruleId
    · subst hasked
      have hdisabled := hrule rfl rule rfl
      refine ⟨⟨?_, ?_, ?_⟩, fun cycle hcycle _ _ _ => (mem_note_change hcycle).1⟩
      · intro found hfound
        simp only [afterEdit, hget, hid, if_true, Option.some.injEq] at hfound
        rw [← hfound, hrowenabled]
        exact hdisabled
      · intro found hfound
        simp only [afterEdit, Dict.get?_set, if_true, Option.some.injEq] at hfound
        rw [← hfound]
        exact hdisabled
      · intro rules hrules
        cases hrules
    · have hbefore : Retired sys ruleId := by
        rcases hoff with hoff | ⟨heq, -⟩
        · exact hoff
        · exact absurd heq hasked
      have hread := get_by_id_off hbefore.off asked
      refine ⟨⟨?_, ?_, ?_⟩, hbefore.note_change asked⟩
      · intro found hfound
        simp only [afterEdit, hget, hid, if_neg (Ne.symm hasked)] at hfound
        exact hread.stored found hfound
      · intro found hfound
        simp only [afterEdit, Dict.get?_set, if_neg (Ne.symm hasked)] at hfound
        exact hread.cached found hfound
      · intro rules hrules
        cases hrules

theorem toggle_cases (repo : RuleRepository Config) (asked : String) (now : ℚ) :
    toggle repo asked now = (none, (getById repo asked).2) ∨
      ∃ changes, toggle repo asked now = update (getById repo asked).2 asked changes now := by
  unfold toggle
  split
  · rename_i hnone
    rw [hnone]
    exact .inl rfl
  · rename_i existing repo' hsome
    rw [hsome]
    exact .inr ⟨_, rfl⟩

theorem toggle_keyed (h : Keyed repo) (asked : String) (now : ℚ) :
    Keyed (toggle repo asked now).2 := by
  have hget := (get_by_id_keyed h asked).1
  rcases toggle_cases repo asked now with hnone | ⟨changes, hupdate⟩
  · rw [hnone]
    exact hget
  · rw [hupdate]
    exact update_keyed hget asked changes now

theorem Retired.get_by_id (h : Retired sys ruleId) (asked : String) :
    Retired { sys with repo := (getById sys.repo asked).2 } ruleId :=
  ⟨get_by_id_off h.off asked, h.pending⟩

/-- A rule is off after a toggle of it that returned it disabled, and a rule that is off stays off
when another one is toggled. -/
theorem toggle_retired (hkeyed : Keyed sys.repo) {now : ℚ}
    (hoff : Retired sys ruleId ∨ asked = ruleId ∧ (toggle sys.repo asked now).1 ≠ none)
    (hrule : asked = ruleId → ∀ rule, (toggle sys.repo asked now).1 = some rule →
      rule.enabled = false) :
    Retired (afterEdit sys asked (toggle sys.repo asked now)) ruleId := by
  rcases toggle_cases sys.repo asked now with hnone | ⟨changes, hupdate⟩
  · rw [hnone] at hoff ⊢
    rcases hoff with hoff | ⟨-, hfound⟩
    · exact hoff.get_by_id asked
    · exact absurd rfl hfound
  · rw [hupdate] at hoff hrule ⊢
    have hedited : Retired (afterEdit { sys with repo := (getById sys.repo asked).2 } asked
        (update (getById sys.repo asked).2 asked changes now)) ruleId :=
      update_retired (get_by_id_keyed hkeyed asked).1 (hoff.imp_left fun h => h.get_by_id asked)
        hrule
    have hsame : afterEdit { sys with repo := (getById sys.repo asked).2 } asked
        (update (getById sys.repo asked).2 asked changes now) =
          afterEdit sys asked (update (getById sys.repo asked).2 asked changes now) := by
      unfold afterEdit
      split <;> rfl
    rw [← hsame]
    exact hedited

theorem delete_cases (repo : RuleRepository Config) (asked : String) :
    delete repo asked = (false, (getById repo asked).2) ∨
      delete repo asked = (true, { db := (getById repo asked).2.db.erase asked
                                   cache := (getById repo asked).2.cache.erase asked
                                   allCache := none }) := by
  unfold delete
  split
  · rename_i hnone
    rw [hnone]
    exact .inl rfl
  · rename_i existing repo' hsome
    rw [hsome]
    exact .inr rfl

theorem delete_keyed (h : Keyed repo) (asked : String) : Keyed (delete repo asked).2 := by
  have hget := (get_by_id_keyed h asked).1
  have herase : ∀ (rules : Dict String (AlarmRule Config)) (key : String)
      (row : AlarmRule Config), (rules.erase asked).get? key = some row →
        rules.get? key = some row := by
    intro rules key row hrow
    rw [Dict.get?_erase] at hrow
    split at hrow
    · cases hrow
    · exact hrow
  rcases delete_cases repo asked with hfound | hfound
  · rw [hfound]
    exact hget
  · rw [hfound]
    exact ⟨fun key row hrow => hget.stored key row (herase _ key row hrow),
      fun key row hrow => hget.cached key row (herase _ key row hrow)⟩

theorem delete_retired (hoff : Retired sys ruleId ∨
      asked = ruleId ∧ (delete sys.repo asked).1 = true) :
    Retired (afterDelete sys asked (delete sys.repo asked)) ruleId := by
  rcases delete_cases sys.repo asked with hfound | hfound
  · rw [hfound] at hoff ⊢
    rcases hoff with hoff | ⟨-, hfound⟩
    · exact hoff.get_by_id asked
    · cases hfound
  · rw [hfound]
    by_cases hasked : asked = ruleId
    · subst hasked
      refine ⟨⟨?_, ?_, ?_⟩, fun cycle hcycle _ _ _ => (mem_note_change hcycle).1⟩
      · intro found hrow
        simp [afterDelete] at hrow
      · intro found hrow
        simp [afterDelete] at hrow
      · intro rules hrules
        cases hrules
    · have hbefore : Retired sys ruleId := by
        rcases hoff with hoff | ⟨heq, -⟩
        · exact hoff
        · exact absurd heq hasked
      have hread := get_by_id_off hbefore.off asked
      refine ⟨⟨?_, ?_, ?_⟩, hbefore.note_change asked⟩
      · intro found hrow
        simp only [afterDelete, Dict.get?_erase, if_neg (Ne.symm hasked)] at hrow
        exact hread.stored found hrow
      · intro found hrow
        simp only [afterDelete, Dict.get?_erase, if_neg (Ne.symm hasked)] at hrow
        exact hread.cached found hrow
      · intro rules hrules
        cases hrules

theorem load_retired (hkeyed : Keyed sys.repo) (h : Retired sys ruleId) :
    Retired (step sys .load) ruleId := by
  have hrules : (∀ rule ∈ (getAll sys.repo).1, rule.ruleId ≠ ruleId) ∧
      Off (getAll sys.repo).2 ruleId := by
    unfold getAll
    split
    · rename_i rules hcached
      exact ⟨h.off.listed rules hcached, h.off⟩
    · have hread : ∀ rule ∈ ((sys.repo.db.items.map Prod.snd).filter fun row =>
          row.enabled).map dictToRule, rule.ruleId ≠ ruleId := by
        intro rule hrule hid
        obtain ⟨row, hrow, rfl⟩ := List.mem_map.mp hrule
        obtain ⟨hrow, henabled⟩ := List.mem_filter.mp hrow
        obtain ⟨item, hitem, rfl⟩ := List.mem_map.mp hrow
        have hget := Dict.mem_items_iff.mp hitem
        have hkey : item.1 = ruleId := (hkeyed.stored item.1 item.2 hget).symm.trans hid
        rw [hkey] at hget
        rw [h.off.stored item.2 hget] at henabled
        cases henabled
      refine ⟨hread, h.off.stored, h.off.cached, ?_⟩
      rintro rules ⟨⟩
      exact hread
  refine ⟨hrules.2, ?_⟩
  intro cycle hcycle rule hrule hid
  simp only [step, List.mem_append, List.mem_singleton] at hcycle
  rcases hcycle with hcycle | rfl
  · exact h.pending cycle hcycle rule hrule hid
  · exact absurd hid (hrules.1 rule hrule)

theorem next_rule_eq_some {cycle : Nat} {rule : AlarmRule Config} {rest : Cycle Config}
    (h : nextRule sys cycle = some (rule, rest)) :
    ∃ old ∈ sys.cycles, old.pending = rule :: rest.pending ∧ old.changed = rest.changed := by
  unfold nextRule at h
  split at h
  · rename_i first tail changed hcycle
    cases h
    exact ⟨_, List.mem_of_getElem? hcycle, rfl, rfl⟩
  · cases h

theorem evaluate_retired {cycle : Nat} {verdict : Verdict} {now : ℚ} {rule : AlarmRule Config}
    {rest : Cycle Config} (hnext : nextRule sys cycle = some (rule, rest))
    (hpersists : rule.ruleId = ruleId → persists sys ruleId verdict now = false)
    (h : Retired sys ruleId) : Retired (step sys (.evaluate cycle verdict now)) ruleId := by
  obtain ⟨old, hold, hpending, hchanged⟩ := next_rule_eq_some hnext
  have hcycles : ∀ other ∈ sys.cycles.set cycle rest, ∀ next ∈ other.pending,
      next.ruleId = ruleId → ruleId ∈ other.changed := by
    intro other hother next hmem hid
    rcases List.mem_or_eq_of_mem_set hother with hother | rfl
    · exact h.pending other hother next hmem hid
    · rw [← hchanged]
      refine h.pending old hold next ?_ hid
      rw [hpending]
      exact List.mem_cons_of_mem _ hmem
  simp only [step, hnext, evaluateRule]
  split
  · rename_i hwrites
    have hne : rule.ruleId ≠ ruleId := by
      intro hid
      have hkept := hpersists hid
      rw [← hid] at hkept
      rw [show persists { sys with cycles := sys.cycles.set cycle rest } rule.ruleId verdict now =
        persists sys rule.ruleId verdict now from rfl, hkept] at hwrites
      cases hwrites
    obtain ⟨row, -, -, hget⟩ :=
      get_write_rule sys.repo.db { rule with lastEvaluatedAt := some now }
    refine ⟨⟨?_, h.off.cached, h.off.listed⟩, hcycles⟩
    intro found hfound
    rw [hget, if_neg (Ne.symm hne)] at hfound
    exact h.off.stored found hfound
  · exact ⟨h.off, hcycles⟩

theorem step_keyed (h : Keyed sys.repo) (event : Event Config) : Keyed (step sys event).repo := by
  cases event with
  | update asked changes now =>
      have hupdate := update_keyed h asked changes now
      simp only [step, afterEdit]
      split
      · rename_i hresult
        rw [hresult] at hupdate
        exact hupdate
      · rename_i hresult
        rw [hresult] at hupdate
        exact hupdate
  | toggle asked now =>
      have htoggle := toggle_keyed h asked now
      simp only [step, afterEdit]
      split
      · rename_i hresult
        rw [hresult] at htoggle
        exact htoggle
      · rename_i hresult
        rw [hresult] at htoggle
        exact htoggle
  | delete asked =>
      have hdelete := delete_keyed h asked
      simp only [step, afterDelete]
      split
      · rename_i hresult
        rw [hresult] at hdelete
        exact hdelete
      · rename_i hresult
        rw [hresult] at hdelete
        exact hdelete
  | load =>
      simp only [step, getAll]
      split
      · exact h
      · exact ⟨h.stored, h.cached⟩
  | evaluate cycle verdict now =>
      simp only [step]
      split
      · exact h
      · simp only [evaluateRule]
        split
        · exact ⟨write_rule_keyed _ _ h.stored, h.cached⟩
        · exact h
  | expire asked =>
      refine ⟨h.stored, ?_⟩
      intro key row hrow
      simp only [step, Dict.get?_erase] at hrow
      split at hrow
      · cases hrow
      · exact h.cached key row hrow
  | expireAll => exact ⟨h.stored, h.cached⟩

end Rules

namespace AlarmEngine

open Engine AlertManager AlertRepository

section Retirement

variable {p : AlarmEngine Config} {act : Activity Config} {ruleId : String}

theorem step_rules_keyed (h : Keyed p.rules.repo) (act : Activity Config) :
    Keyed (p.stepRules act).repo := by
  cases act with
  | updateRule asked changes now => exact step_keyed (get_by_id_keyed h asked).1 _
  | toggleRule asked now => exact step_keyed h _
  | deleteRule asked now => exact step_keyed h _
  | beginCycle =>
      simp only [stepRules]
      split
      · exact step_keyed h _
      · exact h
  | evaluate corr reading value alertId now =>
      simp only [stepRules]
      split
      · exact h
      · exact step_keyed h _
  | expireRule asked => exact step_keyed h _
  | expireRules => exact step_keyed h _
  | serve w creates => exact h

/-- Work keeps the alerts sound. -/
theorem run_alerts {eng : Engine} (works : List (Work Config)) (hnew : eng.NewIds works)
    (hsplit : eng.repo.db.Split) (hcoherent : Coherent eng.repo)
    (hregular : ∀ row ∈ eng.repo.db.unionAll, row.status ≠ .exception) :
    (eng.run works).repo.db.Split ∧ Coherent (eng.run works).repo ∧
      ∀ row ∈ (eng.run works).repo.db.unionAll, row.status ≠ .exception := by
  induction works using List.reverseRecOn with
  | nil => exact ⟨hsplit, hcoherent, hregular⟩
  | append_singleton works w ih =>
      obtain ⟨hsplit, hcoherent, hregular⟩ := ih hnew.part
      have hserves := step_serves (eng.run works) w hnew.unused_next
      rw [Engine.run_concat]
      refine ⟨hserves.store.split hsplit, hserves.coherent hcoherent, ?_⟩
      intro row' hrow'
      rcases hserves.store.rows row' hrow' with ⟨row, hrow, hfollows⟩ | hborn
      · exact hfollows.regular (hregular row hrow)
      · exact hborn.regular

theorem Sound.run (h : p.Sound) (acts : List (Activity Config))
    (hnew : p.engine.NewIds (p.works acts)) : (p.run acts).Sound := by
  obtain ⟨hsplit, hcoherent, hregular⟩ :=
    run_alerts (p.works acts) hnew h.split h.coherent h.regular
  rw [← run_engine] at hsplit hcoherent hregular
  have hkeyed : Keyed (p.run acts).rules.repo := by
    clear hsplit hcoherent hregular hnew
    induction acts using List.reverseRecOn with
    | nil => exact ⟨h.stored, h.cached⟩
    | append_singleton acts act ih =>
        rw [run_concat]
        exact step_rules_keyed ih act
  exact ⟨hsplit, hcoherent, hregular, hkeyed.stored, hkeyed.cached⟩

/-- The rule has no ongoing alert. -/
def Quiet (db : AeAlarmsDB) (ruleId : String) : Prop :=
  ∀ row ∈ db.unionAll, row.ruleId = some ruleId → row.status.live = false

theorem quiet_step {eng : Engine} (w : Work Config)
    (hfresh : ∀ id ∈ w.newId, eng.Unused id)
    (hregular : ∀ row ∈ eng.repo.db.unionAll, row.status ≠ .exception)
    (hresumes : ∀ id, (eng.scope w).resumes id → NotClosedOf eng.repo.db ruleId id)
    (hcreates : ∀ id, ¬ (eng.scope w).creates id (some ruleId))
    (hquiet : Quiet eng.repo.db ruleId) : Quiet (eng.step w).repo.db ruleId := by
  intro row' hrow' hrule
  rcases (step_serves eng w hfresh).store.rows row' hrow' with ⟨row, hrow, hfollows⟩ | hborn
  · have hrowrule : row.ruleId = some ruleId := hfollows.ruleId.symm.trans hrule
    have hclosed : row.status = .closed := by
      have hdead := hquiet row hrow hrowrule
      have hnormal := hregular row hrow
      generalize row.status = status at hdead hnormal
      cases status <;> simp_all [AlertStatus.live]
    rw [hfollows.closed hclosed fun h => hresumes _ h row hrow rfl hrowrule hclosed]
    rfl
  · have hcreated := hborn.creates
    rw [hrule] at hcreated
    exact absurd hcreated (hcreates row'.alertId)

/-- The rule is turned off, and has no ongoing alert. -/
structure Gone (p : AlarmEngine Config) (ruleId : String) : Prop where
  rules : Retired p.rules ruleId
  quiet : Quiet p.engine.repo.db ruleId

theorem quiet_close_rule {eng : Engine} {asked reason : String} {now : ℚ}
    (hregular : ∀ row ∈ eng.repo.db.unionAll, row.status ≠ .exception)
    (hquiet : Quiet eng.repo.db ruleId) :
    Quiet (eng.run [(.closeRule asked reason now : Work Config)]).repo.db ruleId :=
  quiet_step (.closeRule asked reason now : Work Config) (fun id hid => by cases hid) hregular
    (fun id hid => absurd hid fun h => h) (fun id hid => hid) hquiet

theorem turned_off (hsound : p.Sound) (hrespects : p.Respects ruleId act)
    (hoff : p.turnsOff ruleId act = true) : Gone (p.step act) ruleId := by
  have hkeyed : Keyed p.rules.repo := ⟨hsound.stored, hsound.cached⟩
  have hclosed : Complete p.engine.repo.db ruleId → ∀ reason now,
      Quiet (p.engine.step (.closeRule ruleId reason now : Work Config)).repo.db ruleId :=
    fun hcomplete _ _ row hrow hrule =>
      close_rule_closes hsound.split hsound.coherent hcomplete hrow hrule
  have hresult : ∀ result : Option (AlarmRule Config), isOff result = true →
      result ≠ none ∧ ∀ rule, result = some rule → rule.enabled = false := by
    intro result hresult
    cases result with
    | none => cases hresult
    | some rule =>
        refine ⟨by simp, ?_⟩
        rintro _ ⟨⟩
        simpa [isOff] using hresult
  cases act with
  | updateRule asked changes now =>
      have hcomplete := hrespects hoff
      obtain rfl : asked = ruleId := by
        simp only [turnsOff, Bool.and_eq_true, decide_eq_true_eq] at hoff
        exact hoff.1.1
      refine ⟨?_, ?_⟩
      · simp only [turnsOff, Bool.and_eq_true] at hoff
        obtain ⟨hfound, hdisabled⟩ := hresult _ hoff.2
        exact update_retired (get_by_id_keyed hkeyed asked).1 (.inr ⟨rfl, hfound⟩) fun _ =>
          hdisabled
      · simp only [AlarmEngine.step, work, hoff, if_true]
        exact hclosed hcomplete _ _
  | toggleRule asked now =>
      have hcomplete := hrespects hoff
      obtain rfl : asked = ruleId := by
        simp only [turnsOff, Bool.and_eq_true, decide_eq_true_eq] at hoff
        exact hoff.1
      refine ⟨?_, ?_⟩
      · simp only [turnsOff, Bool.and_eq_true] at hoff
        obtain ⟨hfound, hdisabled⟩ := hresult _ hoff.2
        exact toggle_retired hkeyed (.inr ⟨rfl, hfound⟩) fun _ => hdisabled
      · simp only [AlarmEngine.step, work, hoff, if_true]
        exact hclosed hcomplete _ _
  | deleteRule asked now =>
      have hcomplete := hrespects hoff
      obtain rfl : asked = ruleId := by
        simp only [turnsOff, Bool.and_eq_true, decide_eq_true_eq] at hoff
        exact hoff.1
      refine ⟨?_, ?_⟩
      · simp only [turnsOff, Bool.and_eq_true] at hoff
        exact delete_retired (.inr ⟨rfl, hoff.2⟩)
      · simp only [AlarmEngine.step, work, hoff, if_true]
        exact hclosed hcomplete _ _
  | _ => cases hoff

theorem persists_eq_false {rule : AlarmRule Config} {reading : Reading} {now : ℚ}
    (h : ¬ p.Writes rule now reading) (corr : Correlation) (value : PyFloat) (alertId : String) :
    persists p.rules rule.ruleId
      (p.engine.evaluateRule corr rule (reading.ofRule rule) value alertId now).1 now = false := by
  cases reading with
  | breach c =>
      rw [Writes, not_or] at h
      have hverdict : (p.engine.evaluateRule corr rule ((Reading.breach c).ofRule rule) value
          alertId now).1 = .reached false := by
        simp only [Engine.evaluateRule, Reading.ofRule, after_breach_eq]
        split
        · rename_i hnone
          split
          · rfl
          · rename_i hstreak
            refine absurd ?_ h.1
            simp only [fires, hnone, List.isEmpty_nil, Bool.true_and, decide_eq_true_eq]
            exact Nat.le_of_not_lt hstreak
        · rfl
      rw [hverdict]
      simpa [persists] using h.2
  | ok recovered => simpa [Writes, persists, Engine.evaluateRule, Reading.ofRule] using h
  | _ => rfl

/-- A rule that is off stays off and quiet under an activity that does not enable it. -/
theorem Gone.step (hsound : p.Sound) (hfresh : ∀ w ∈ p.work act, ∀ id ∈ w.newId, p.engine.Unused id)
    (hrespects : p.Respects ruleId act) (hdisabled : p.enabled ruleId = false)
    (hstays : (p.step act).enabled ruleId = false) (h : Gone p ruleId) :
    Gone (p.step act) ruleId := by
  have hkeyed : Keyed p.rules.repo := ⟨hsound.stored, hsound.cached⟩
  cases act with
  | updateRule asked changes now =>
      refine ⟨?_, ?_⟩
      · refine update_retired (get_by_id_keyed hkeyed asked).1 (.inl (h.rules.get_by_id asked)) ?_
        rintro rfl rule hrule
        exact after_edit_enabled hrule hstays
      · simp only [AlarmEngine.step, work]
        split
        · exact quiet_close_rule hsound.regular h.quiet
        · exact h.quiet
  | toggleRule asked now =>
      refine ⟨?_, ?_⟩
      · refine toggle_retired hkeyed (.inl h.rules) ?_
        rintro rfl rule hrule
        exact after_edit_enabled hrule hstays
      · simp only [AlarmEngine.step, work]
        split
        · exact quiet_close_rule hsound.regular h.quiet
        · exact h.quiet
  | deleteRule asked now =>
      refine ⟨delete_retired (.inl h.rules), ?_⟩
      simp only [AlarmEngine.step, work]
      split
      · exact quiet_close_rule hsound.regular h.quiet
      · exact h.quiet
  | beginCycle =>
      refine ⟨?_, h.quiet⟩
      simp only [AlarmEngine.step, stepRules]
      split
      · exact load_retired hkeyed h.rules
      · exact h.rules
  | evaluate corr reading value alertId now =>
      cases hnext : nextRule p.rules p.current with
      | none =>
          refine ⟨?_, ?_⟩
          · simp only [AlarmEngine.step, stepRules, hnext]
            exact h.rules
          · simp only [AlarmEngine.step, work, hnext]
            exact h.quiet
      | some next =>
          obtain ⟨rule, rest⟩ := next
          -- The cycle has the rule from before it was turned off, and so it leaves it alone.
          have hleaves : rule.ruleId = ruleId → ¬ p.Writes rule now reading := by
            intro hid
            obtain ⟨old, hold, hpending, hchanged⟩ := next_rule_eq_some hnext
            have hmem := h.rules.pending old hold rule (by rw [hpending]; simp) hid
            rw [hchanged] at hmem
            exact hrespects rule rest hnext hid hmem hdisabled
          refine ⟨?_, ?_⟩
          · simp only [AlarmEngine.step, stepRules, hnext]
            refine evaluate_retired hnext ?_ h.rules
            rintro rfl
            exact persists_eq_false (hleaves rfl) corr value alertId
          · simp only [AlarmEngine.step, work, hnext] at hfresh ⊢
            refine quiet_step _ (hfresh _ List.mem_cons_self) hsound.regular ?_ ?_ h.quiet
            · intro id hid
              cases reading <;> exact absurd hid (fun h => h)
            · intro id hid
              cases reading with
              | breach c =>
                  obtain ⟨-, hrule, hfires, -⟩ := hid
                  exact hleaves (Option.some.inj hrule).symm (.inl hfires)
              | _ => exact hid
  | expireRule asked =>
      refine ⟨⟨⟨h.rules.off.stored, ?_, h.rules.off.listed⟩, h.rules.pending⟩, h.quiet⟩
      intro row hrow
      simp only [AlarmEngine.step, stepRules, Alarms.step, Dict.get?_erase] at hrow
      split at hrow
      · cases hrow
      · exact h.rules.off.cached row hrow
  | expireRules =>
      refine ⟨⟨⟨h.rules.off.stored, h.rules.off.cached, ?_⟩, h.rules.pending⟩, h.quiet⟩
      intro rules hrules
      cases hrules
  | serve w creates =>
      refine ⟨h.rules, ?_⟩
      refine quiet_step w (hfresh w List.mem_cons_self) hsound.regular ?_ ?_ h.quiet
      · intro id hid
        cases w with
        | resume alertId now =>
            rw [show id = alertId from hid]
            exact hrespects hdisabled
        | expireWindows now =>
            obtain ⟨a, ha, rfl, hstatus, helapsed⟩ := hid
            exact hrespects hdisabled a ha hstatus helapsed
        | evaluate corr rule reading value alertId now => cases creates
        | _ => exact absurd hid (fun h => h)
      · intro id hid
        rw [new_id_of_creates hid] at creates
        cases creates

theorem fresh_next {acts : List (Activity Config)}
    (hnew : p.engine.NewIds (p.works (acts ++ [act]))) :
    ∀ w ∈ (p.run acts).work act, ∀ id ∈ w.newId, (p.run acts).engine.Unused id := by
  intro w hw id hid
  rw [works_concat] at hnew
  rw [run_engine]
  exact hnew.unused id (List.mem_filterMap.mpr ⟨w, hw, hid⟩)

theorem gone_run (hsound : p.Sound) {before more : List (Activity Config)}
    (hnew : p.engine.NewIds (p.works (before ++ act :: more)))
    (hrespects : Each (fun done next => (p.run done).Respects ruleId next)
      (before ++ act :: more))
    (hoff : (p.run before).turnsOff ruleId act = true)
    (hstays : ∀ later rest, more = later ++ rest →
      (p.run (before ++ act :: later)).enabled ruleId = false) :
    Gone (p.run (before ++ act :: more)) ruleId := by
  induction more using List.reverseRecOn with
  | nil =>
      rw [each_concat] at hrespects
      rw [works_concat] at hnew
      rw [run_concat]
      exact turned_off (hsound.run before hnew.part) hrespects.2 hoff
  | append_singleton more next ih =>
      have hsplit : before ++ act :: (more ++ [next]) = (before ++ act :: more) ++ [next] := by
        simp
      rw [hsplit] at hrespects hnew ⊢
      rw [each_concat] at hrespects
      have hfresh := fresh_next hnew
      rw [works_concat] at hnew
      have hthen : Gone (p.run (before ++ act :: more)) ruleId := by
        refine ih hnew.part hrespects.1 ?_
        intro later rest hmore
        exact hstays later (rest ++ [next]) (by rw [hmore, List.append_assoc])
      have hnow := hstays more [next] rfl
      have hafter := hstays (more ++ [next]) [] (List.append_nil _).symm
      rw [hsplit, run_concat] at hafter
      rw [run_concat]
      exact hthen.step (hsound.run _ hnew.part) hfresh hrespects.2 hnow hafter

/-- From a request that disables or deletes a rule on, and until the rule is enabled again, the rule
has no ongoing alert, where the request sees all alerts of the rule, no closed alert of it is
resumed, and the cycle under way neither fires the rule nor writes it back. -/
theorem off_leaves_none (hsound : p.Sound) (before more : List (Activity Config))
    (hnew : p.engine.NewIds (p.works (before ++ act :: more)))
    (hrespects : Each (fun done next => (p.run done).Respects ruleId next)
      (before ++ act :: more))
    (hoff : (p.run before).turnsOff ruleId act = true)
    (hstays : ∀ later rest, more = later ++ rest →
      (p.run (before ++ act :: later)).enabled ruleId = false) :
    Quiet (p.run (before ++ act :: more)).engine.repo.db ruleId :=
  (gone_run hsound hnew hrespects hoff hstays).quiet

/-- One rule, and no alert. -/
def oneRule : AlarmEngine Unit where
  rules := boot (Dict.set ∅ "r" hotRule)
  engine := Engine.idle

theorem one_rule_sound : oneRule.Sound := by
  refine ⟨idle_orderly.split, idle_orderly.coherent, idle_orderly.regular, ?_, ?_⟩
  · intro key row hrow
    simp only [oneRule, boot, Dict.get?_set, Dict.get?_empty] at hrow
    split at hrow
    · rename_i hkey
      cases hrow
      exact hkey.symm
    · cases hrow
  · intro key row hrow
    cases hrow

/-- A cycle in which the rule fires. -/
def firedOnce : List (Activity Unit) :=
  [] ++ [.beginCycle] ++ [.serve .takeSnapshot rfl] ++
    [.evaluate {} (.breach (violation "r")) (.finite 95) "a" 1]

/-- The rule is deleted after the cycle. -/
theorem off_leaves_none_deleted :
    Quiet (oneRule.run (firedOnce ++ .deleteRule "r" 2 :: [])).engine.repo.db "r" := by
  refine off_leaves_none one_rule_sound _ [] ⟨by decide +kernel, ?_⟩ ?_ (by decide +kernel) ?_
  · exact fun id _ row hrow => by cases hrow
  · rw [each_concat, firedOnce, each_concat, each_concat, each_concat]
    refine ⟨⟨⟨⟨each_nil, fun h => by cases h⟩, fun h => by cases h⟩, ?_⟩, ?_⟩
    · intro rule rest _ _ _ hdisabled
      exact absurd hdisabled (by decide +kernel)
    · intro _
      unfold Complete
      decide +kernel
  · rintro later rest hmore
    obtain ⟨rfl, rfl⟩ := List.append_eq_nil_iff.mp hmore.symm
    decide +kernel

/-- A cycle fires a rule that was deleted after the cycle took it, and the alert stays open. -/
theorem deleted_rule_fires : ¬ ∀ (p : AlarmEngine Unit) (before more : List (Activity Unit))
    (act : Activity Unit) (ruleId : String), p.Sound →
    p.engine.NewIds (p.works (before ++ act :: more)) →
    (p.run before).turnsOff ruleId act = true →
    (∀ later rest, more = later ++ rest →
      (p.run (before ++ act :: later)).enabled ruleId = false) →
    (p.run (before ++ act :: more)).idle = true →
    Quiet (p.run (before ++ act :: more)).engine.repo.db ruleId := by
  intro h
  have hquiet := h oneRule [.beginCycle, .serve .takeSnapshot rfl]
    [.evaluate {} (.breach (violation "r")) (.finite 95) "a" 2] (.deleteRule "r" 1) "r"
    one_rule_sound ⟨by decide +kernel, fun id _ row hrow => by cases hrow⟩ (by decide +kernel) (by
      intro later rest hmore
      cases later with
      | nil => decide +kernel
      | cons first later =>
          rw [List.cons_append, List.cons.injEq] at hmore
          obtain ⟨rfl, hmore⟩ := hmore
          obtain ⟨rfl, -⟩ := List.append_eq_nil_iff.mp hmore.symm
          decide +kernel)
    (by decide +kernel)
  revert hquiet
  unfold Quiet
  decide +kernel

end Retirement

end AlarmEngine

end SystemsManager.Alarms
