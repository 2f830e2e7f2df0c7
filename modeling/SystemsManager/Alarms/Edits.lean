import SystemsManager.Alarms.Rules

/-!
# Rule edits and the write-back of evaluations

The engine writes back the rule object it took at the start of its cycle. As long as no cycle
writes back a rule that a request has changed since then, the settings store holds what the
requests made of the rules (`edits_survive`); otherwise the write-back undoes the request, and a
deleted rule is back (`edit_undone`). The store also cannot hold everything an update may set: an
empty optional text becomes `NULL`, and a count of zero cycles for the auto-resolve becomes two.
-/

namespace SystemsManager.Alarms

open Python

variable {Config : Type}

section Definitions

/-- A rule without the time of its last evaluation. -/
def definition (rule : AlarmRule Config) : AlarmRule Config := { rule with lastEvaluatedAt := none }

/-- The settings store holds what the requests made of the rules, up to `last_evaluated_at`. -/
def EditsSurvive (sys : System Config) : Prop :=
  ∀ ruleId, (sys.repo.db.get? ruleId).map definition = (sys.intended.get? ruleId).map definition

/-- The store can hold the rule: no optional text is empty and no count is zero. -/
structure Storable (rule : AlarmRule Config) : Prop where
  description : rule.description ≠ some ""
  sourceHost : rule.sourceHost ≠ some ""
  quietHoursStart : rule.quietHoursStart ≠ some ""
  quietHoursEnd : rule.quietHoursEnd ≠ some ""
  autoResolveCycles : rule.autoResolveCycles ≠ 0
  minTriggerCycles : rule.minTriggerCycles ≠ 0
  correlationGroup : rule.correlationGroup ≠ some ""

/-- A request sets nothing that the store cannot hold: no optional text to the empty one, and not
the auto-resolve count to zero. -/
structure Keeps (changes : AlarmRuleUpdate Config) : Prop where
  description : changes.description ≠ some (some "")
  sourceHost : changes.sourceHost ≠ some (some "")
  quietHoursStart : changes.quietHoursStart ≠ some (some "")
  quietHoursEnd : changes.quietHoursEnd ≠ some (some "")
  autoResolveCycles : changes.autoResolveCycles ≠ some 0
  correlationGroup : changes.correlationGroup ≠ some (some "")

/-- The condition on a piece of work: an update sets nothing that the store cannot hold, and an
evaluation does not write back a rule that a request has changed since the cycle took its list. -/
def Calm (sys : System Config) : Event Config → Prop
  | .update _ changes _ => Keeps changes
  | .evaluate cycle verdict now =>
      ∀ rule rest, nextRule sys cycle = some (rule, rest) →
        persists sys rule.ruleId verdict now = true → rule.ruleId ∉ rest.changed
  | _ => True

/-- The states that calm work leads to. -/
inductive CalmRun (start : System Config) : System Config → Prop where
  | refl : CalmRun start start
  | step {sys : System Config} {event : Event Config} (h : CalmRun start sys)
      (hcalm : Calm sys event) : CalmRun start (step sys event)

/-- A settings store as `write_rule` leaves it: every row under its id, and storable. -/
def Written (db : Dict String (AlarmRule Config)) : Prop :=
  ∀ ruleId row, db.get? ruleId = some row → row.ruleId = ruleId ∧ Storable row

end Definitions

section Columns

variable {rule other : AlarmRule Config}

theorem Storable.of_definition (h : definition rule = definition other) (hother : Storable other) :
    Storable rule := by
  have hfields : rule = { other with lastEvaluatedAt := rule.lastEvaluatedAt } := by
    cases rule
    cases other
    simp only [definition, AlarmRule.mk.injEq] at h ⊢
    simp_all
  rw [hfields]
  exact ⟨hother.1, hother.2, hother.3, hother.4, hother.5, hother.6, hother.7⟩

/-- A text that is not empty stays. -/
theorem or_none_of_ne {text : Option String} (h : text ≠ some "") : orNone text = text := by
  cases text with
  | none => rfl
  | some t =>
      have ht : t ≠ "" := fun e => h (congrArg some e)
      simp [orNone, ht]

theorem columns_of_storable (h : Storable rule) : columns rule = rule := by
  have hmin : max 1 rule.minTriggerCycles = rule.minTriggerCycles := by
    have := h.minTriggerCycles
    omega
  unfold columns
  rw [or_none_of_ne h.description, or_none_of_ne h.sourceHost, or_none_of_ne h.quietHoursStart,
    or_none_of_ne h.quietHoursEnd, or_none_of_ne h.correlationGroup, if_neg h.autoResolveCycles,
    hmin]

theorem dict_to_rule_of_storable (h : Storable rule) : dictToRule rule = rule := by
  have hmin : max 1 rule.minTriggerCycles = rule.minTriggerCycles := by
    have := h.minTriggerCycles
    omega
  unfold dictToRule
  rw [or_none_of_ne h.sourceHost, hmin]

theorem write_rule_eq {db : Dict String (AlarmRule Config)} {row : AlarmRule Config}
    (h : Storable rule) (hrow : db.get? rule.ruleId = some row)
    (hcreated : rule.createdAt = row.createdAt) : writeRule db rule = db.set rule.ruleId rule := by
  unfold writeRule
  rw [hrow, columns_of_storable h]
  dsimp only
  rw [← hcreated]

theorem Keeps.storable {changes : AlarmRuleUpdate Config} (h : Keeps changes)
    (hrule : Storable rule) (now : ℚ) : Storable (applyUpdate changes rule now) := by
  have htext : ∀ {new : Option (Option String)} {old : Option String}, new ≠ some (some "") →
      old ≠ some "" → new.getD old ≠ some "" := by
    intro new old hnew hold
    cases new with
    | none => exact hold
    | some text => exact fun e => hnew (congrArg some e)
  refine ⟨htext h.1 hrule.1, htext h.2 hrule.2, htext h.3 hrule.3, htext h.4 hrule.4, ?_, ?_,
    htext h.6 hrule.7⟩
  · show changes.autoResolveCycles.getD rule.autoResolveCycles ≠ 0
    cases hnew : changes.autoResolveCycles with
    | none => exact hrule.autoResolveCycles
    | some n => exact fun e => h.autoResolveCycles (by rw [hnew]; exact congrArg some e)
  · show changes.minTriggerCycles.getD rule.minTriggerCycles ≠ 0
    cases hnew : changes.minTriggerCycles with
    | none => exact hrule.minTriggerCycles
    | some n =>
        have hpos := changes.min_trigger_pos n hnew
        exact fun e => by simp only [Option.getD_some] at e; omega

end Columns

section Invariant

variable {rule : AlarmRule Config} {db : Dict String (AlarmRule Config)}

/-- The rule is the one in the store, up to the time of its last evaluation. -/
def Current (db : Dict String (AlarmRule Config)) (rule : AlarmRule Config) : Prop :=
  (db.get? rule.ruleId).map definition = some (definition rule)

/-- The caches of the repository hold the rules of the store. -/
structure RepoInv (repo : RuleRepository Config) : Prop where
  written : Written repo.db
  cached : ∀ ruleId rule, repo.cache.get? ruleId = some rule →
    rule.ruleId = ruleId ∧ Current repo.db rule
  listed : ∀ rules, repo.allCache = some rules → ∀ rule ∈ rules, Current repo.db rule

/-- What holds of the repository, the cycles and the store in calm runs: a cycle holds the rules
of the store, except those that requests have changed since. -/
structure Inv (sys : System Config) : Prop where
  repo : RepoInv sys.repo
  pending : ∀ cycle ∈ sys.cycles, ∀ rule ∈ cycle.pending, rule.ruleId ∉ cycle.changed →
    Current sys.repo.db rule
  survive : EditsSurvive sys

theorem Current.exists_row (h : Current db rule) :
    ∃ row, db.get? rule.ruleId = some row ∧ definition row = definition rule :=
  Option.map_eq_some_iff.mp h

theorem Current.storable (h : Current db rule) (hdb : Written db) : Storable rule := by
  obtain ⟨row, hrow, hdef⟩ := h.exists_row
  exact Storable.of_definition hdef.symm (hdb _ row hrow).2

theorem current_of_row (hdb : Written db) {ruleId : String} {row : AlarmRule Config}
    (h : db.get? ruleId = some row) : Current db row := by
  unfold Current
  rw [(hdb ruleId row h).1, h]
  rfl

theorem Current.set (h : Current db rule) {other : AlarmRule Config} {ruleId : String}
    (hne : rule.ruleId ≠ ruleId) : Current (db.set ruleId other) rule := by
  unfold Current
  rw [Dict.get?_set, if_neg hne]
  exact h

variable {repo : RuleRepository Config}

theorem get_by_id_spec (h : RepoInv repo) (ruleId : String) :
    RepoInv (getById repo ruleId).2 ∧ (getById repo ruleId).2.db = repo.db ∧
    (∀ rule, (getById repo ruleId).1 = some rule →
      rule.ruleId = ruleId ∧ Current repo.db rule ∧ Storable rule) := by
  have hdb := h.written
  unfold getById
  cases hcached : repo.cache.get? ruleId with
  | some cached =>
      obtain ⟨hid, hcurrent⟩ := h.cached ruleId cached hcached
      have hstorable := hcurrent.storable hdb
      refine ⟨h, rfl, ?_⟩
      rintro rule ⟨⟩
      rw [dict_to_rule_of_storable hstorable]
      exact ⟨hid, hcurrent, hstorable⟩
  | none =>
      dsimp only
      cases hrow : repo.db.get? ruleId with
      | none =>
          refine ⟨h, rfl, ?_⟩
          rintro rule ⟨⟩
      | some row =>
          obtain ⟨hid, hstorable⟩ := hdb ruleId row hrow
          dsimp only
          rw [dict_to_rule_of_storable hstorable]
          refine ⟨⟨hdb, ?_, h.listed⟩, rfl, ?_⟩
          · intro other rule hother
            rw [Dict.get?_set] at hother
            split at hother
            · rename_i heq
              cases hother
              exact ⟨hid.trans heq.symm, current_of_row hdb hrow⟩
            · exact h.cached other rule hother
          · rintro rule ⟨⟩
            exact ⟨hid, current_of_row hdb hrow, hstorable⟩

theorem get_all_spec (h : RepoInv repo) :
    RepoInv (getAll repo).2 ∧ (getAll repo).2.db = repo.db ∧
    ∀ rule ∈ (getAll repo).1, Current repo.db rule := by
  unfold getAll
  cases hlist : repo.allCache with
  | some rules => exact ⟨h, rfl, h.listed rules hlist⟩
  | none =>
      have hrules : ∀ rule ∈ ((repo.db.items.map Prod.snd).filter fun row => row.enabled).map
          dictToRule, Current repo.db rule := by
        intro rule hrule
        obtain ⟨row, hrow, rfl⟩ := List.mem_map.mp hrule
        obtain ⟨item, hitem, rfl⟩ := List.mem_map.mp (List.mem_filter.mp hrow).1
        have hget := Dict.mem_items_iff.mp hitem
        rw [dict_to_rule_of_storable (h.written _ _ hget).2]
        exact current_of_row h.written hget
      refine ⟨⟨h.written, h.cached, ?_⟩, rfl, hrules⟩
      rintro rules ⟨⟩
      exact hrules

/-- What an edit does to the repository: nothing was found, or the rule it returns is in the
store. -/
structure Edited (repo : RuleRepository Config) (ruleId : String)
    (result : Option (AlarmRule Config) × RuleRepository Config) : Prop where
  kept : RepoInv result.2
  missed : result.1 = none → result.2.db = repo.db
  found : ∀ rule, result.1 = some rule → result.2.db = repo.db.set ruleId rule

theorem Written.set (h : Written db) (hrule : Storable rule) :
    Written (db.set rule.ruleId rule) := by
  intro other row hrow
  rw [Dict.get?_set] at hrow
  split at hrow
  · rename_i heq
    cases hrow
    exact ⟨heq.symm, hrule⟩
  · exact h other row hrow

theorem update_spec (h : RepoInv repo) (ruleId : String) {changes : AlarmRuleUpdate Config}
    (hkeeps : Keeps changes) (now : ℚ) : Edited repo ruleId (update repo ruleId changes now) := by
  obtain ⟨hrepo, hdb, hfound⟩ := get_by_id_spec h ruleId
  unfold update
  generalize hget : getById repo ruleId = result at hrepo hdb hfound
  obtain ⟨found, repo'⟩ := result
  cases found with
  | none => exact ⟨hrepo, fun _ => hdb, fun rule hrule => by cases hrule⟩
  | some existing =>
      obtain ⟨hid, hcurrent, hstorable⟩ := hfound existing rfl
      obtain ⟨row, hrow, hdef⟩ := hcurrent.exists_row
      have hnew : Storable (applyUpdate changes existing now) := hkeeps.storable hstorable now
      have hnewid : (applyUpdate changes existing now).ruleId = ruleId := hid
      have hcreated : (applyUpdate changes existing now).createdAt = row.createdAt := by
        have := congrArg AlarmRule.createdAt hdef
        exact this.symm
      dsimp only at hdb ⊢
      have hwrite : writeRule repo'.db (applyUpdate changes existing now) =
          repo'.db.set ruleId (applyUpdate changes existing now) := by
        rw [write_rule_eq hnew (by rw [hdb]; exact hrow) hcreated, hnewid]
      refine ⟨⟨?_, ?_, ?_⟩, ?_, ?_⟩
      · rw [hwrite, ← hnewid]
        exact hrepo.written.set hnew
      · intro other rule hother
        rw [Dict.get?_set] at hother
        dsimp only
        rw [hwrite]
        split at hother
        · rename_i heq
          cases hother
          refine ⟨hnewid.trans heq.symm, ?_⟩
          unfold Current
          rw [hnewid, Dict.get?_set, if_pos rfl]
          rfl
        · rename_i hne
          obtain ⟨hother_id, hother_current⟩ := hrepo.cached other rule hother
          exact ⟨hother_id, hother_current.set (hother_id ▸ hne)⟩
      · intro rules hrules
        cases hrules
      · intro hnone
        cases hnone
      · intro rule hrule
        cases hrule
        rw [hwrite, hdb]

theorem toggle_spec (h : RepoInv repo) (ruleId : String) (now : ℚ) :
    Edited repo ruleId (toggle repo ruleId now) := by
  obtain ⟨hrepo, hdb, -⟩ := get_by_id_spec h ruleId
  unfold toggle
  generalize getById repo ruleId = result at hrepo hdb
  obtain ⟨found, repo'⟩ := result
  cases found with
  | none => exact ⟨hrepo, fun _ => hdb, fun rule hrule => by cases hrule⟩
  | some existing =>
      have hkeeps : Keeps { enabled := some !existing.enabled : AlarmRuleUpdate Config } := by
        constructor <;> simp
      obtain ⟨hedited, hmissed, hfound⟩ := update_spec hrepo ruleId hkeeps now
      refine ⟨hedited, ?_, ?_⟩
      · intro hnone
        rw [← hdb]
        exact hmissed hnone
      · intro rule hrule
        rw [← hdb]
        exact hfound rule hrule

theorem delete_spec (h : RepoInv repo) (ruleId : String) :
    RepoInv (delete repo ruleId).2 ∧
    ((delete repo ruleId).1 = false → (delete repo ruleId).2.db = repo.db) ∧
    ((delete repo ruleId).1 = true → (delete repo ruleId).2.db = repo.db.erase ruleId) := by
  obtain ⟨hrepo, hdb, -⟩ := get_by_id_spec h ruleId
  unfold delete
  generalize getById repo ruleId = result at hrepo hdb
  obtain ⟨found, repo'⟩ := result
  cases found with
  | none => exact ⟨hrepo, fun _ => hdb, fun htrue => (by cases htrue)⟩
  | some existing =>
      dsimp only at hdb ⊢
      refine ⟨⟨?_, ?_, ?_⟩, fun hfalse => (by cases hfalse), fun _ => (by rw [hdb])⟩
      · intro other row hrow
        rw [Dict.get?_erase] at hrow
        split at hrow
        · cases hrow
        · exact hrepo.written other row hrow
      · intro other rule hother
        rw [Dict.get?_erase] at hother
        split at hother
        · cases hother
        · rename_i hne
          obtain ⟨hid, hcurrent⟩ := hrepo.cached other rule hother
          refine ⟨hid, ?_⟩
          unfold Current
          rw [Dict.get?_erase, if_neg (hid ▸ hne)]
          exact hcurrent
      · intro rules hrules
        cases hrules

end Invariant

section Steps

variable {sys : System Config}

theorem pending_of_note_change {ruleId : String} {cycles : List (Cycle Config)}
    {cycle : Cycle Config} (h : cycle ∈ noteChange ruleId cycles) :
    ∃ old ∈ cycles, cycle.pending = old.pending ∧ cycle.changed = ruleId :: old.changed := by
  obtain ⟨old, hold, rfl⟩ := List.mem_map.mp h
  exact ⟨old, hold, rfl, rfl⟩

/-- An edit keeps the invariant. -/
theorem Inv.after_edit (h : Inv sys) {ruleId : String}
    {result : Option (AlarmRule Config) × RuleRepository Config}
    (hedited : Edited sys.repo ruleId result) : Inv (afterEdit sys ruleId result) := by
  obtain ⟨found, repo⟩ := result
  cases found with
  | none =>
      have hdb := hedited.missed rfl
      refine ⟨hedited.kept, ?_, ?_⟩
      · intro cycle hcycle rule hrule hunchanged
        show Current repo.db rule
        rw [hdb]
        exact h.pending cycle hcycle rule hrule hunchanged
      · intro other
        show (repo.db.get? other).map definition = _
        rw [hdb]
        exact h.survive other
  | some edited =>
      have hdb := hedited.found edited rfl
      refine ⟨hedited.kept, ?_, ?_⟩
      · intro cycle hcycle rule hrule hunchanged
        obtain ⟨old, hold, hpending, hchanged⟩ := pending_of_note_change hcycle
        rw [hchanged, List.mem_cons, not_or] at hunchanged
        show Current repo.db rule
        rw [hdb]
        exact (h.pending old hold rule (hpending ▸ hrule) hunchanged.2).set hunchanged.1
      · intro other
        show (repo.db.get? other).map definition =
          ((sys.intended.set ruleId edited).get? other).map definition
        rw [hdb, Dict.get?_set, Dict.get?_set]
        split
        · rfl
        · exact h.survive other

/-- A deletion keeps the invariant. -/
theorem Inv.after_delete (h : Inv sys) (ruleId : String) :
    Inv (afterDelete sys ruleId (delete sys.repo ruleId)) := by
  obtain ⟨hrepo, hmissed, hfound⟩ := delete_spec h.repo ruleId
  generalize delete sys.repo ruleId = result at hrepo hmissed hfound
  obtain ⟨found, repo⟩ := result
  cases found with
  | false =>
      have hdb : repo.db = sys.repo.db := hmissed rfl
      refine ⟨hrepo, ?_, ?_⟩
      · intro cycle hcycle rule hrule hunchanged
        show Current repo.db rule
        rw [hdb]
        exact h.pending cycle hcycle rule hrule hunchanged
      · intro other
        show (repo.db.get? other).map definition = _
        rw [hdb]
        exact h.survive other
  | true =>
      have hdb : repo.db = sys.repo.db.erase ruleId := hfound rfl
      refine ⟨hrepo, ?_, ?_⟩
      · intro cycle hcycle rule hrule hunchanged
        obtain ⟨old, hold, hpending, hchanged⟩ := pending_of_note_change hcycle
        rw [hchanged, List.mem_cons, not_or] at hunchanged
        show Current repo.db rule
        unfold Current
        rw [hdb, Dict.get?_erase, if_neg hunchanged.1]
        exact h.pending old hold rule (hpending ▸ hrule) hunchanged.2
      · intro other
        show (repo.db.get? other).map definition =
          ((sys.intended.erase ruleId).get? other).map definition
        rw [hdb, Dict.get?_erase, Dict.get?_erase]
        split
        · rfl
        · exact h.survive other

theorem write_back {db : Dict String (AlarmRule Config)} (hdb : Written db)
    {rule : AlarmRule Config} (h : Current db rule) (now : ℚ) :
    Written (writeRule db { rule with lastEvaluatedAt := some now }) ∧
    ∀ ruleId, ((writeRule db { rule with lastEvaluatedAt := some now }).get?
      ruleId).map definition =
      (db.get? ruleId).map definition := by
  obtain ⟨row, hrow, hdef⟩ := h.exists_row
  have hcreated : rule.createdAt = row.createdAt := by
    have := congrArg AlarmRule.createdAt hdef
    exact this.symm
  have hsame : definition { rule with lastEvaluatedAt := some now } = definition rule := rfl
  have hstorable : Storable { rule with lastEvaluatedAt := some now } :=
    Storable.of_definition hsame (h.storable hdb)
  have hwrite : writeRule db { rule with lastEvaluatedAt := some now } =
      db.set rule.ruleId { rule with lastEvaluatedAt := some now } :=
    write_rule_eq hstorable hrow hcreated
  rw [hwrite]
  refine ⟨hdb.set hstorable, fun ruleId => ?_⟩
  rw [Dict.get?_set]
  split
  · rename_i heq
    rw [heq, hrow, Option.map_some, Option.map_some, hdef]
    rfl
  · rfl

theorem Inv.evaluate_rule (h : Inv sys) {rule : AlarmRule Config} {verdict : Verdict} {now : ℚ}
    (hcurrent : persists sys rule.ruleId verdict now = true → Current sys.repo.db rule) :
    Inv (evaluateRule sys rule verdict now) := by
  unfold evaluateRule
  by_cases hpersists : persists sys rule.ruleId verdict now = true
  · rw [if_pos hpersists]
    obtain ⟨hwritten, hsame⟩ := write_back h.repo.written (hcurrent hpersists) now
    have htransfer : ∀ {other : AlarmRule Config}, Current sys.repo.db other →
        Current (writeRule sys.repo.db { rule with lastEvaluatedAt := some now }) other := by
      intro other hother
      unfold Current
      rw [hsame]
      exact hother
    refine ⟨⟨hwritten, ?_, ?_⟩, ?_, ?_⟩
    · intro ruleId other hother
      obtain ⟨hid, hcur⟩ := h.repo.cached ruleId other hother
      exact ⟨hid, htransfer hcur⟩
    · intro rules hrules other hother
      exact htransfer (h.repo.listed rules hrules other hother)
    · intro cycle hcycle other hother hunchanged
      exact htransfer (h.pending cycle hcycle other hother hunchanged)
    · intro ruleId
      show ((writeRule sys.repo.db _).get? ruleId).map definition = _
      rw [hsame]
      exact h.survive ruleId
  · rw [if_neg hpersists]
    exact h

theorem Inv.step (h : Inv sys) {event : Event Config} (hcalm : Calm sys event) :
    Inv (step sys event) := by
  cases event with
  | update ruleId changes now => exact h.after_edit (update_spec h.repo ruleId hcalm now)
  | toggle ruleId now => exact h.after_edit (toggle_spec h.repo ruleId now)
  | delete ruleId => exact h.after_delete ruleId
  | load =>
      obtain ⟨hrepo, hdb, hrules⟩ := get_all_spec h.repo
      refine ⟨hrepo, ?_, ?_⟩
      · intro cycle hcycle rule hrule hunchanged
        show Current (getAll sys.repo).2.db rule
        rw [hdb]
        rcases List.mem_append.mp hcycle with hold | hnew
        · exact h.pending cycle hold rule hrule hunchanged
        · rw [List.mem_singleton] at hnew
          subst hnew
          exact hrules rule hrule
      · intro ruleId
        show ((getAll sys.repo).2.db.get? ruleId).map definition = _
        rw [hdb]
        exact h.survive ruleId
  | evaluate cycle verdict now =>
      unfold Alarms.step
      dsimp only
      cases hnext : nextRule sys cycle with
      | none => exact h
      | some next =>
          obtain ⟨rule, rest⟩ := next
          -- the cycle held the rule at its head
          have hcycle : ⟨rule :: rest.pending, rest.changed⟩ ∈ sys.cycles := by
            unfold nextRule at hnext
            split at hnext
            · rename_i heq
              cases hnext
              exact List.mem_of_getElem? heq
            · cases hnext
          have hinv : Inv { sys with cycles := sys.cycles.set cycle rest } := by
            refine ⟨h.repo, ?_, h.survive⟩
            intro other hother rule' hrule' hunchanged
            rcases List.mem_or_eq_of_mem_set hother with hold | rfl
            · exact h.pending other hold rule' hrule' hunchanged
            · exact h.pending _ hcycle rule' (List.mem_cons_of_mem _ hrule') hunchanged
          apply hinv.evaluate_rule
          intro hpersists
          exact h.pending _ hcycle rule (by simp) (hcalm rule rest hnext hpersists)
  | expire ruleId =>
      refine ⟨⟨h.repo.written, ?_, h.repo.listed⟩, h.pending, h.survive⟩
      intro other rule hother
      show rule.ruleId = other ∧ Current sys.repo.db rule
      have hget : (sys.repo.cache.erase ruleId).get? other = some rule := hother
      rw [Dict.get?_erase] at hget
      split at hget
      · cases hget
      · exact h.repo.cached other rule hget
  | expireAll =>
      refine ⟨⟨h.repo.written, h.repo.cached, ?_⟩, h.pending, h.survive⟩
      intro rules hrules
      cases hrules

theorem inv_boot {db : Dict String (AlarmRule Config)} (hdb : Written db) : Inv (boot db) := by
  refine ⟨⟨hdb, ?_, ?_⟩, ?_, fun _ => rfl⟩
  · intro ruleId rule hrule
    cases hrule
  · intro rules hrules
    cases hrules
  · intro cycle hcycle
    cases hcycle

/-- In every state that calm work reaches, the settings store holds for each rule the definition
of its last update, and no rule that was deleted. -/
theorem edits_survive (db : Dict String (AlarmRule Config)) (hdb : Written db)
    (sys : System Config) (hrun : CalmRun (boot db) sys) : EditsSurvive sys := by
  have hinv : Inv sys := by
    induction hrun with
    | refl => exact inv_boot hdb
    | step _ hcalm ih => exact ih.step hcalm
  exact hinv.survive

/-- A threshold rule; its config is the threshold. -/
def gpuRule (name : String) : AlarmRule (Option ℚ) where
  ruleId := "r"
  name := name
  description := none
  sourceHost := none
  metricSource := "gpu"
  metricName := "temperature"
  ruleType := .thresholdAbove
  config := some 90
  severity := .warning
  enabled := true
  notificationChannelIds := []
  quietHoursStart := none
  quietHoursEnd := none
  autoResolveCycles := 2
  minTriggerCycles := 1
  correlationGroup := none
  createdAt := 0
  updatedAt := 0
  lastEvaluatedAt := none
  lastAlertAt := none

/-- A store with one rule. -/
def oneRule : Dict String (AlarmRule (Option ℚ)) := Dict.empty.set "r" (gpuRule "hot")

theorem one_rule_written : Written oneRule := by
  intro ruleId row hrow
  unfold oneRule at hrow
  rw [Dict.get?_set] at hrow
  split at hrow
  · rename_i heq
    cases hrow
    exact ⟨heq.symm, by constructor <;> simp [gpuRule]⟩
  · cases hrow

/-- A cycle takes the rule, a request renames it, and the evaluation writes the old name back. -/
theorem edit_undone :
    ¬ ∀ (db : Dict String (AlarmRule (Option ℚ))) (events : List (Event (Option ℚ))), Written db →
      (∀ cycle ∈ (events.foldl step (boot db)).cycles, cycle.pending = []) →
      EditsSurvive (events.foldl step (boot db)) := by
  intro h
  have hsurvive := h oneRule
    [.load, .update "r" { name := some "very hot" } 500, .evaluate 0 (.reached false) 1000]
    one_rule_written (by decide +kernel) "r"
  have hnames := congrArg (Option.map AlarmRule.name) hsurvive
  revert hnames
  decide +kernel

/-- An evaluation before the request is harmless. -/
theorem edit_after_evaluation_survives :
    EditsSurvive (step (step (step (boot oneRule) .load) (.evaluate 0 (.reached false) 1000))
      (.update "r" { name := some "very hot" } 1001)) := by
  refine edits_survive oneRule one_rule_written _ (.step (.step (.step .refl trivial) ?_) ?_)
  · intro rule rest hnext _
    have hfirst : (nextRule (step (boot oneRule) .load) 0).all
        (fun next => next.2.changed.isEmpty) = true := by decide +kernel
    rw [hnext, Option.all_some, List.isEmpty_iff] at hfirst
    have hnone : rest.changed = [] := hfirst
    simp [hnone]
  · show Keeps { name := some "very hot" }
    constructor <;> simp

end Steps

end SystemsManager.Alarms
