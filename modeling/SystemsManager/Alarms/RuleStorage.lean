import SystemsManager.Alarms.RuleConfig
import SystemsManager.History

/-!
# Rules in the settings database

A rule goes through four layers: `to_dict` makes a dictionary of it, `write_rule` makes columns of
the dictionary, `_row_to_rule` makes a dictionary of the row again, and `_dict_to_rule` a rule. An
update starts from the cached dictionary or from the row. `rules_survive` is the theorem to read: a
rule is read back from the database as the requests have made it, after its creation and after every
update, if and only if no request sets the number of cycles for the auto-resolve to zero and all
integers can be stored. Times are kept as the texts that stand for them; an empty optional text is
read as absent.
-/

namespace SystemsManager.Alarms

open Python

section Values

/-- `RuleType(...).value`. -/
def RuleType.value : RuleType → String
  | .thresholdAbove => "threshold_above"
  | .thresholdBelow => "threshold_below"
  | .thresholdRange => "threshold_range"
  | .rateOfChange => "rate_of_change"
  | .zScore => "z_score"
  | .movingAverage => "moving_average"
  | .percentile => "percentile"

/-- `RuleType(value)`. -/
def RuleType.ofValue (value : String) : Option RuleType :=
  [.thresholdAbove, .thresholdBelow, .thresholdRange, .rateOfChange, .zScore, .movingAverage,
    .percentile].find? fun ruleType : RuleType => ruleType.value == value

theorem RuleType.of_value (ruleType : RuleType) : ofValue ruleType.value = some ruleType := by
  cases ruleType <;> decide

/-- `Severity(...).value`. -/
def Severity.value : Severity → String
  | .info => "info"
  | .warning => "warning"
  | .critical => "critical"

/-- `Severity(value)`. -/
def Severity.ofValue (value : String) : Option Severity :=
  [.info, .warning, .critical].find? fun severity : Severity => severity.value == value

theorem Severity.of_value (severity : Severity) : ofValue severity.value = some severity := by
  cases severity <;> decide

end Values

namespace Settings

section Models

/-- `TAG_VALUE_RE`. -/
def isMetricTag (text : String) : Bool :=
  1 ≤ text.length && text.length ≤ 128 &&
    text.toList.all fun c => c.isAlphanum || ['_', '.', ':', '-', ' '].contains c

/-- `AlarmRuleCreate`, validated. The ids of channels are UUIDs in their canonical form. -/
structure AlarmRuleCreate where
  name : String
  description : Option String := none
  sourceHost : Option String := none
  metricSource : String
  metricName : String
  ruleType : RuleType
  config : RuleConfig
  severity : Severity := .warning
  enabled : Bool := true
  notificationChannelIds : List String := []
  quietHoursStart : Option String := none
  quietHoursEnd : Option String := none
  autoResolveCycles : Nat := 2
  minTriggerCycles : Nat := 1
  correlationGroup : Option String := none
  name_length : 1 ≤ name.length ∧ name.length ≤ 255
  description_length : ∀ text ∈ description, text.length ≤ 1000
  metric_tags : isMetricTag metricSource = true ∧ isMetricTag metricName = true
  min_trigger_pos : 1 ≤ minTriggerCycles

/-- `to_alarm_rule`, with the id that `uuid4` gives. -/
def AlarmRuleCreate.toAlarmRule (c : AlarmRuleCreate) (ruleId : String) (createdAt updatedAt : ℚ) :
    AlarmRule RuleConfig where
  ruleId := ruleId
  name := c.name
  description := c.description
  sourceHost := c.sourceHost
  metricSource := c.metricSource
  metricName := c.metricName
  ruleType := c.ruleType
  config := c.config
  severity := c.severity
  enabled := c.enabled
  notificationChannelIds := c.notificationChannelIds
  quietHoursStart := c.quietHoursStart
  quietHoursEnd := c.quietHoursEnd
  autoResolveCycles := c.autoResolveCycles
  minTriggerCycles := c.minTriggerCycles
  correlationGroup := c.correlationGroup
  createdAt := createdAt
  updatedAt := updatedAt
  lastEvaluatedAt := none
  lastAlertAt := none

end Models

section Layers

/-- A rule as a dictionary. -/
structure RuleDict where
  ruleId : String
  name : String
  description : Option String
  sourceHost : Option String
  metricSource : String
  metricName : String
  ruleType : String
  config : Json
  severity : String
  enabled : Bool
  notificationChannelIds : Json
  quietHoursStart : Option String
  quietHoursEnd : Option String
  autoResolveCycles : Nat
  minTriggerCycles : Nat
  correlationGroup : Option String
  createdAt : ℚ
  updatedAt : ℚ
  lastEvaluatedAt : Option ℚ
  lastAlertAt : Option ℚ

/-- A row of `rules`. A JSON column has the value whose text it holds. -/
structure RuleRow where
  ruleId : String
  name : String
  description : Option String
  sourceHost : Option String
  metricSource : String
  metricName : String
  ruleType : String
  configJson : Json
  severity : String
  enabled : Nat
  notificationChannelIdsJson : Json
  quietHoursStart : Option String
  quietHoursEnd : Option String
  autoResolveCycles : Nat
  minTriggerCycles : Nat
  correlationGroup : Option String
  createdAt : ℚ
  updatedAt : ℚ
  lastEvaluatedAt : Option ℚ
  lastAlertAt : Option ℚ

/-- `to_dict`. -/
def toDict (rule : AlarmRule RuleConfig) : RuleDict where
  ruleId := rule.ruleId
  name := rule.name
  description := rule.description
  sourceHost := rule.sourceHost
  metricSource := rule.metricSource
  metricName := rule.metricName
  ruleType := rule.ruleType.value
  config := rule.config.modelDump
  severity := rule.severity.value
  enabled := rule.enabled
  notificationChannelIds := Codec.str.list.dump rule.notificationChannelIds
  quietHoursStart := rule.quietHoursStart
  quietHoursEnd := rule.quietHoursEnd
  autoResolveCycles := rule.autoResolveCycles
  minTriggerCycles := rule.minTriggerCycles
  correlationGroup := rule.correlationGroup
  createdAt := rule.createdAt
  updatedAt := rule.updatedAt
  lastEvaluatedAt := rule.lastEvaluatedAt
  lastAlertAt := rule.lastAlertAt

/-- The first integer that is too large for a column. -/
def integerBound : Nat := 2 ^ 63

/-- `value or default`, for JSON. -/
def orDefault (value default : Json) : Json := if value.truthy then value else default

/-- `value or default`, for a count. -/
def orCount (value default : Nat) : Nat := if value = 0 then default else value

/-- The columns that `write_rule` makes. It raises where an integer has no text or is too large for
its column. -/
def toColumns (rule : RuleDict) : Option RuleRow :=
  let config := orDefault rule.config (.dict [])
  let channels := orDefault rule.notificationChannelIds (.list [])
  let autoResolveCycles := orCount rule.autoResolveCycles 2
  let minTriggerCycles := max 1 (orCount rule.minTriggerCycles 1)
  if config.dumpable && channels.dumpable && decide (autoResolveCycles < integerBound) &&
      decide (minTriggerCycles < integerBound) then
    some {
      ruleId := rule.ruleId
      name := rule.name
      description := orNone rule.description
      sourceHost := orNone rule.sourceHost
      metricSource := rule.metricSource
      metricName := rule.metricName
      ruleType := rule.ruleType
      configJson := config
      severity := rule.severity
      enabled := if rule.enabled then 1 else 0
      notificationChannelIdsJson := channels
      quietHoursStart := orNone rule.quietHoursStart
      quietHoursEnd := orNone rule.quietHoursEnd
      autoResolveCycles := autoResolveCycles
      minTriggerCycles := minTriggerCycles
      correlationGroup := orNone rule.correlationGroup
      createdAt := rule.createdAt
      updatedAt := rule.updatedAt
      lastEvaluatedAt := rule.lastEvaluatedAt
      lastAlertAt := rule.lastAlertAt }
  else none

/-- `write_rule`: insert, or update everything but `created_at`. -/
def writeRule (db : Dict String RuleRow) (rule : RuleDict) : Option (Dict String RuleRow) :=
  (toColumns rule).map fun row =>
    match db.get? rule.ruleId with
    | none => db.set rule.ruleId row
    | some old => db.set rule.ruleId { row with createdAt := old.createdAt }

/-- `_row_to_rule`. -/
def rowToRule (row : RuleRow) : RuleDict where
  ruleId := row.ruleId
  name := row.name
  description := row.description
  sourceHost := row.sourceHost
  metricSource := row.metricSource
  metricName := row.metricName
  ruleType := row.ruleType
  config := row.configJson
  severity := row.severity
  enabled := row.enabled != 0
  notificationChannelIds := row.notificationChannelIdsJson
  quietHoursStart := row.quietHoursStart
  quietHoursEnd := row.quietHoursEnd
  autoResolveCycles := row.autoResolveCycles
  minTriggerCycles := orCount row.minTriggerCycles 1
  correlationGroup := row.correlationGroup
  createdAt := row.createdAt
  updatedAt := row.updatedAt
  lastEvaluatedAt := row.lastEvaluatedAt
  lastAlertAt := row.lastAlertAt

/-- `_dict_to_rule`, where it raises nothing. -/
def dictToRule (data : RuleDict) : Option (AlarmRule RuleConfig) := do
  let config ← loadConfig data.config
  let channels ← Codec.str.list.load data.notificationChannelIds
  let ruleType ← RuleType.ofValue data.ruleType
  let severity ← Severity.ofValue data.severity
  pure {
    ruleId := data.ruleId
    name := data.name
    description := data.description
    sourceHost := orNone data.sourceHost
    metricSource := data.metricSource
    metricName := data.metricName
    ruleType := ruleType
    config := config
    severity := severity
    enabled := data.enabled
    notificationChannelIds := channels
    quietHoursStart := data.quietHoursStart
    quietHoursEnd := data.quietHoursEnd
    autoResolveCycles := data.autoResolveCycles
    minTriggerCycles := max 1 (orCount data.minTriggerCycles 1)
    correlationGroup := data.correlationGroup
    createdAt := data.createdAt
    updatedAt := data.updatedAt
    lastEvaluatedAt := data.lastEvaluatedAt
    lastAlertAt := data.lastAlertAt }

/-- The rule that is read from the database, as after a restart. -/
def readBack (db : Dict String RuleRow) (ruleId : String) : Option (AlarmRule RuleConfig) :=
  (db.get? ruleId).bind fun row => dictToRule (rowToRule row)

end Layers

section Repository

/-- `RuleRepository`, without the cached lists. -/
structure Repository where
  db : Dict String RuleRow
  cache : Dict String RuleDict := ∅

/-- `create`, where the write raises nothing. -/
def create (repo : Repository) (c : AlarmRuleCreate) (ruleId : String) (createdAt updatedAt : ℚ) :
    Option (AlarmRule RuleConfig × Repository) :=
  let rule := c.toAlarmRule ruleId createdAt updatedAt
  (writeRule repo.db (toDict rule)).map fun db =>
    (rule, { db := db, cache := repo.cache.set ruleId (toDict rule) })

/-- `get_by_id`: the cache first, then the database. -/
def getById (repo : Repository) (ruleId : String) : Option (AlarmRule RuleConfig) × Repository :=
  match (repo.cache.get? ruleId).bind dictToRule with
  | some rule => (some rule, repo)
  | none =>
      match readBack repo.db ruleId with
      | none => (none, repo)
      | some rule => (some rule, { repo with cache := repo.cache.set ruleId (toDict rule) })

/-- `update`. Where the write raises, the rule is left as it is. -/
def update (repo : Repository) (ruleId : String) (changes : AlarmRuleUpdate RuleConfig) (now : ℚ) :
    Repository :=
  match getById repo ruleId with
  | (none, repo) => repo
  | (some found, repo) =>
      let rule := applyUpdate changes found now
      match writeRule repo.db (toDict rule) with
      | none => repo
      | some db => { db := db, cache := repo.cache.set ruleId (toDict rule) }

/-- A request for the rule, or the end of its time in the cache. -/
inductive Edit where
  | update (changes : AlarmRuleUpdate RuleConfig) (now : ℚ)
  | expire

/-- The repository after an edit. -/
def step (ruleId : String) (repo : Repository) : Edit → Repository
  | .update changes now => update repo ruleId changes now
  | .expire => { repo with cache := repo.cache.erase ruleId }

/-- What an edit is to make of the rule. -/
def Edit.apply (rule : AlarmRule RuleConfig) : Edit → AlarmRule RuleConfig
  | .update changes now => applyUpdate changes rule now
  | .expire => rule

/-- The repository after a creation and some edits. -/
def after (repo : Repository) (c : AlarmRuleCreate) (ruleId : String) (createdAt updatedAt : ℚ)
    (edits : List Edit) : Repository :=
  match create repo c ruleId createdAt updatedAt with
  | none => repo
  | some (_, repo) => edits.foldl (step ruleId) repo

/-- What the requests make of the rule. -/
def intended (c : AlarmRuleCreate) (ruleId : String) (createdAt updatedAt : ℚ)
    (edits : List Edit) : AlarmRule RuleConfig :=
  edits.foldl Edit.apply (c.toAlarmRule ruleId createdAt updatedAt)

/-- A rule with its empty optional texts absent. -/
def normalise (rule : AlarmRule RuleConfig) : AlarmRule RuleConfig :=
  { rule with
    description := orNone rule.description
    sourceHost := orNone rule.sourceHost
    quietHoursStart := orNone rule.quietHoursStart
    quietHoursEnd := orNone rule.quietHoursEnd
    correlationGroup := orNone rule.correlationGroup }

end Repository

section RoundTrip

variable {rule found : AlarmRule RuleConfig}

/-- The store can hold the rule: the count for the auto-resolve is not zero, the counts fit their
columns, and the integers of the configuration have a text. -/
structure Fits (rule : AlarmRule RuleConfig) : Prop where
  auto_pos : rule.autoResolveCycles ≠ 0
  auto_lt : rule.autoResolveCycles < integerBound
  min_lt : rule.minTriggerCycles < integerBound
  config : rule.config.modelDump.dumpable = true

/-- An absent text stays absent. -/
theorem or_none_or_none (text : Option String) : orNone (orNone text) = orNone text := by
  cases text with
  | none => rfl
  | some text => simp [orNone]

theorem normalise_normalise (rule : AlarmRule RuleConfig) :
    normalise (normalise rule) = normalise rule := by
  simp only [normalise, or_none_or_none]

theorem normalise_apply_update (changes : AlarmRuleUpdate RuleConfig)
    (rule : AlarmRule RuleConfig) (now : ℚ) :
    normalise (applyUpdate changes (normalise rule) now) =
      normalise (applyUpdate changes rule now) := by
  have htext : ∀ (new : Option (Option String)) (old : Option String),
      orNone (new.getD (orNone old)) = orNone (new.getD old) := by
    intro new old
    cases new with
    | none => exact or_none_or_none old
    | some text => rfl
  simp only [normalise, applyUpdate, htext]

theorem normalise_update_congr (h : normalise found = normalise rule)
    (changes : AlarmRuleUpdate RuleConfig) (now : ℚ) :
    normalise (applyUpdate changes found now) = normalise (applyUpdate changes rule now) := by
  rw [← normalise_apply_update changes found, h, normalise_apply_update]

theorem Fits.congr (h : Fits rule) (hsame : normalise found = normalise rule) : Fits found := by
  have hauto : found.autoResolveCycles = rule.autoResolveCycles := by
    have := congrArg AlarmRule.autoResolveCycles hsame
    exact this
  have hmin : found.minTriggerCycles = rule.minTriggerCycles := by
    have := congrArg AlarmRule.minTriggerCycles hsame
    exact this
  have hconfig : found.config = rule.config := by
    have := congrArg AlarmRule.config hsame
    exact this
  exact ⟨hauto ▸ h.auto_pos, hauto ▸ h.auto_lt, hmin ▸ h.min_lt, hconfig ▸ h.config⟩

theorem or_default_texts (texts : List String) :
    orDefault (Codec.str.list.dump texts) (.list []) = Codec.str.list.dump texts := by
  cases texts with
  | nil => rfl
  | cons first rest => rfl

theorem or_default_dict (rule : AlarmRule RuleConfig) :
    orDefault (toDict rule).config (.dict []) = rule.config.modelDump ∧
      orDefault (toDict rule).notificationChannelIds (.list []) =
        Codec.str.list.dump rule.notificationChannelIds :=
  ⟨rfl, or_default_texts rule.notificationChannelIds⟩

theorem max_or_one {n : Nat} (h : 1 ≤ n) : max 1 (orCount n 1) = n := by
  rw [orCount, if_neg (by omega)]
  omega

theorem to_columns_read (hmin : 1 ≤ rule.minTriggerCycles) {row : RuleRow}
    (h : toColumns (toDict rule) = some row) :
    row.createdAt = rule.createdAt ∧
      dictToRule (rowToRule row) = some { normalise rule with
        autoResolveCycles := orCount rule.autoResolveCycles 2 } ∧
      (rule.autoResolveCycles ≠ 0 → Fits rule) := by
  obtain ⟨hconfig, hchannels⟩ := or_default_dict rule
  have hcount : max 1 (orCount (toDict rule).minTriggerCycles 1) = rule.minTriggerCycles :=
    max_or_one hmin
  simp only [toColumns, hconfig, hchannels, hcount] at h
  split at h
  · rename_i hfits
    simp only [Bool.and_eq_true, decide_eq_true_eq] at hfits
    cases h
    refine ⟨rfl, ?_, ?_⟩
    · have henabled : ((if (toDict rule).enabled then 1 else 0) != 0) = rule.enabled := by
        have hbool : ∀ b : Bool, ((if b then 1 else 0) != 0) = b := by decide
        exact hbool rule.enabled
      have htype : RuleType.ofValue (toDict rule).ruleType = some rule.ruleType :=
        RuleType.of_value rule.ruleType
      have hseverity : Severity.ofValue (toDict rule).severity = some rule.severity :=
        Severity.of_value rule.severity
      have hone : orCount rule.minTriggerCycles 1 = rule.minTriggerCycles := if_neg (by omega)
      simp only [dictToRule, rowToRule, load_dump_config, Codec.load_dump, htype, hseverity,
        henabled, hone, Option.bind_eq_bind, Option.bind_some, Nat.max_eq_right hmin]
      simp only [toDict, normalise, or_none_or_none, Option.pure_def]
    · intro hpos
      have hauto : orCount rule.autoResolveCycles 2 < integerBound := hfits.1.2
      rw [orCount, if_neg hpos] at hauto
      exact ⟨hpos, hauto, hfits.2, hfits.1.1.1⟩
  · cases h

/-- A rule that fits has columns. -/
theorem Fits.to_columns (h : Fits rule) (hmin : 1 ≤ rule.minTriggerCycles) :
    ∃ row, toColumns (toDict rule) = some row := by
  obtain ⟨hconfig, hchannels⟩ := or_default_dict rule
  have hcount : max 1 (orCount (toDict rule).minTriggerCycles 1) = rule.minTriggerCycles :=
    max_or_one hmin
  have hauto : orCount (toDict rule).autoResolveCycles 2 = rule.autoResolveCycles :=
    if_neg h.auto_pos
  simp only [toColumns, hconfig, hchannels, hcount, hauto, h.config, Json.dumpable_strings,
    h.auto_lt, h.min_lt, decide_true, Bool.and_self, if_true]
  exact ⟨_, rfl⟩

theorem dict_to_dict (hmin : 1 ≤ rule.minTriggerCycles) :
    dictToRule (toDict rule) = some { rule with sourceHost := orNone rule.sourceHost } := by
  have htype : RuleType.ofValue (toDict rule).ruleType = some rule.ruleType :=
    RuleType.of_value rule.ruleType
  have hseverity : Severity.ofValue (toDict rule).severity = some rule.severity :=
    Severity.of_value rule.severity
  have hconfig : loadConfig (toDict rule).config = some rule.config := load_dump_config _
  have hchannels : Codec.str.list.load (toDict rule).notificationChannelIds =
      some rule.notificationChannelIds := Codec.load_dump _ _
  have hcount : max 1 (orCount (toDict rule).minTriggerCycles 1) = rule.minTriggerCycles :=
    max_or_one hmin
  simp only [dictToRule, hconfig, hchannels, htype, hseverity, hcount, Option.bind_eq_bind,
    Option.bind_some]
  rfl

end RoundTrip

section Edits

variable {rule found : AlarmRule RuleConfig} {repo : Repository}

/-- The repository has the rule: the row is read as the rule, and a cached dictionary is that of the
rule, up to empty texts. -/
structure Has (repo : Repository) (rule : AlarmRule RuleConfig) : Prop where
  stored : ∃ row, repo.db.get? rule.ruleId = some row ∧
    dictToRule (rowToRule row) = some (normalise rule)
  cached : ∀ data, repo.cache.get? rule.ruleId = some data →
    ∃ known, data = toDict known ∧ normalise known = normalise rule
  min_pos : 1 ≤ rule.minTriggerCycles

theorem Has.read_back (h : Has repo rule) :
    readBack repo.db rule.ruleId = some (normalise rule) := by
  obtain ⟨row, hrow, hread⟩ := h.stored
  rw [readBack, hrow]
  exact hread

theorem min_pos_of_normalise (hmin : 1 ≤ rule.minTriggerCycles)
    (hsame : normalise found = normalise rule) : 1 ≤ found.minTriggerCycles := by
  have := congrArg AlarmRule.minTriggerCycles hsame
  rw [show found.minTriggerCycles = rule.minTriggerCycles from this]
  exact hmin

theorem Has.get_by_id (h : Has repo rule) :
    ∃ found, (getById repo rule.ruleId).1 = some found ∧ normalise found = normalise rule ∧
      (getById repo rule.ruleId).2.db = repo.db ∧ Has (getById repo rule.ruleId).2 rule := by
  unfold getById
  cases hcached : repo.cache.get? rule.ruleId with
  | some data =>
      obtain ⟨known, rfl, hknown⟩ := h.cached data hcached
      rw [Option.bind_some, dict_to_dict (min_pos_of_normalise h.min_pos hknown)]
      refine ⟨_, rfl, ?_, rfl, h⟩
      rw [← hknown]
      simp only [normalise, or_none_or_none]
  | none =>
      rw [Option.bind_none, h.read_back]
      refine ⟨_, rfl, normalise_normalise rule, rfl, h.stored, ?_, h.min_pos⟩
      intro data hdata
      simp only [Dict.get?_set, if_true, Option.some.injEq] at hdata
      exact ⟨normalise rule, hdata.symm, normalise_normalise rule⟩

/-- The request can be stored: it does not set the count for the auto-resolve to zero, and the
integers that it sets can be stored. -/
structure FitsUpdate (changes : AlarmRuleUpdate RuleConfig) : Prop where
  auto : ∀ n ∈ changes.autoResolveCycles, n ≠ 0 ∧ n < integerBound
  min : ∀ n ∈ changes.minTriggerCycles, n < integerBound
  config : ∀ c ∈ changes.config, c.modelDump.dumpable = true

theorem fits_apply_update (h : Fits rule) (changes : AlarmRuleUpdate RuleConfig) (now : ℚ) :
    Fits (applyUpdate changes rule now) ↔ FitsUpdate changes := by
  constructor
  · intro hfits
    refine ⟨?_, ?_, ?_⟩
    · intro n hn
      have hpos := hfits.auto_pos
      have hlt := hfits.auto_lt
      simp only [applyUpdate, Option.mem_def.mp hn, Option.getD_some] at hpos hlt
      exact ⟨hpos, hlt⟩
    · intro n hn
      have hlt := hfits.min_lt
      simpa only [applyUpdate, Option.mem_def.mp hn, Option.getD_some] using hlt
    · intro c hc
      have hdump := hfits.config
      simpa only [applyUpdate, Option.mem_def.mp hc, Option.getD_some] using hdump
  · intro hchanges
    refine ⟨?_, ?_, ?_, ?_⟩
    · simp only [applyUpdate]
      cases hn : changes.autoResolveCycles with
      | none => exact h.auto_pos
      | some n => exact (hchanges.auto n hn).1
    · simp only [applyUpdate]
      cases hn : changes.autoResolveCycles with
      | none => exact h.auto_lt
      | some n => exact (hchanges.auto n hn).2
    · simp only [applyUpdate]
      cases hn : changes.minTriggerCycles with
      | none => exact h.min_lt
      | some n => exact hchanges.min n hn
    · simp only [applyUpdate]
      cases hc : changes.config with
      | none => exact h.config
      | some c => exact hchanges.config c hc

theorem write_over {db : Dict String RuleRow} {row : RuleRow} (hmin : 1 ≤ rule.minTriggerCycles)
    (hcreated : ∀ old, db.get? rule.ruleId = some old → old.createdAt = rule.createdAt)
    (hrow : toColumns (toDict rule) = some row) :
    writeRule db (toDict rule) = some (db.set rule.ruleId row) := by
  rw [writeRule, hrow, Option.map_some]
  show some (match db.get? rule.ruleId with
    | none => db.set rule.ruleId row
    | some old => db.set rule.ruleId { row with createdAt := old.createdAt }) = _
  split
  · rfl
  · rename_i old hold
    rw [hcreated old hold, ← (to_columns_read hmin hrow).1]

theorem write_has {db : Dict String RuleRow} (hfits : Fits rule) (hmin : 1 ≤ rule.minTriggerCycles)
    (hcreated : ∀ row, db.get? rule.ruleId = some row → row.createdAt = rule.createdAt)
    (cache : Dict String RuleDict) :
    ∃ db', writeRule db (toDict rule) = some db' ∧
      Has { db := db', cache := cache.set rule.ruleId (toDict rule) } rule := by
  obtain ⟨row, hrow⟩ := hfits.to_columns hmin
  obtain ⟨-, hread, -⟩ := to_columns_read hmin hrow
  rw [orCount, if_neg hfits.auto_pos] at hread
  have hcached : ∀ data, (cache.set rule.ruleId (toDict rule)).get? rule.ruleId = some data →
      ∃ known, data = toDict known ∧ normalise known = normalise rule := by
    intro data hdata
    simp only [Dict.get?_set, if_true, Option.some.injEq] at hdata
    exact ⟨rule, hdata.symm, rfl⟩
  refine ⟨_, write_over hmin hcreated hrow, ⟨row, ?_, hread⟩, hcached, hmin⟩
  simp

theorem created_at_of_read {row : RuleRow} (h : dictToRule (rowToRule row) = some found) :
    found.createdAt = row.createdAt := by
  simp only [dictToRule, Option.bind_eq_bind, Option.bind_eq_some_iff, Option.pure_def,
    Option.some.injEq] at h
  obtain ⟨_, -, _, -, _, -, _, -, rfl⟩ := h
  rfl

/-- An update is read back exactly when it can be stored, and the repository then has the updated
rule. -/
theorem update_spec (h : Has repo rule) (hfits : Fits rule)
    (changes : AlarmRuleUpdate RuleConfig) (now : ℚ) :
    (readBack (update repo rule.ruleId changes now).db rule.ruleId =
      some (normalise (applyUpdate changes rule now)) ↔ FitsUpdate changes) ∧
    (FitsUpdate changes →
      Has (update repo rule.ruleId changes now) (applyUpdate changes rule now)) := by
  obtain ⟨found, hfound, hsame, hdb, hthen⟩ := h.get_by_id
  generalize hget : getById repo rule.ruleId = result at hfound hdb hthen
  obtain ⟨_, repo'⟩ := result
  cases hfound
  have hsameNew := normalise_update_congr hsame changes now
  have hmin : 1 ≤ (applyUpdate changes rule now).minTriggerCycles := by
    show 1 ≤ changes.minTriggerCycles.getD rule.minTriggerCycles
    cases hn : changes.minTriggerCycles with
    | none => exact h.min_pos
    | some n => exact changes.min_trigger_pos n hn
  have hminNew := min_pos_of_normalise hmin hsameNew
  have hid : found.ruleId = rule.ruleId := by
    have := congrArg AlarmRule.ruleId hsame
    exact this
  have hidNew : (applyUpdate changes found now).ruleId = rule.ruleId := hid
  have hcreated : ∀ row, repo'.db.get? (applyUpdate changes found now).ruleId = some row →
      row.createdAt = (applyUpdate changes found now).createdAt := by
    intro row hrow
    obtain ⟨stored, hstored, hread⟩ := hthen.stored
    rw [hidNew, hstored] at hrow
    cases hrow
    have hfoundCreated : found.createdAt = rule.createdAt := by
      have := congrArg AlarmRule.createdAt hsame
      exact this
    rw [← created_at_of_read hread]
    exact hfoundCreated.symm
  have hgood : FitsUpdate changes →
      Has (update repo rule.ruleId changes now) (applyUpdate changes rule now) := by
    intro hchanges
    have hfitsNew := ((fits_apply_update hfits changes now).mpr hchanges).congr hsameNew
    obtain ⟨db', hwrite, hhas⟩ := write_has hfitsNew hminNew hcreated repo'.cache
    simp only [update, hget, hwrite]
    rw [hidNew] at hhas
    obtain ⟨row, hrow, hread⟩ := hhas.stored
    refine ⟨⟨row, ?_, ?_⟩, ?_, hmin⟩
    · rw [hidNew] at hrow
      exact hrow
    · rw [← hsameNew]
      exact hread
    · intro data hdata
      obtain ⟨known, hknown, hknownSame⟩ := hhas.cached data (by rw [hidNew]; exact hdata)
      exact ⟨known, hknown, hknownSame.trans hsameNew⟩
  refine ⟨⟨?_, fun hchanges => (hgood hchanges).read_back⟩, hgood⟩
  intro hread
  rw [← fits_apply_update hfits changes now]
  simp only [update, hget] at hread
  split at hread
  · -- The write raised, and so the rule is as before; but as it is read it could be written.
    rename_i hraised
    rw [hthen.read_back, Option.some.injEq] at hread
    have hfitsNew := (hfits.congr hread.symm).congr hsameNew
    obtain ⟨db', hwrite, -⟩ := write_has hfitsNew hminNew hcreated ∅
    rw [hwrite] at hraised
    cases hraised
  · rename_i db' hwrite
    cases hcolumns : toColumns (toDict (applyUpdate changes found now)) with
    | none =>
        rw [writeRule, hcolumns] at hwrite
        cases hwrite
    | some row =>
        rw [write_over hminNew hcreated hcolumns] at hwrite
        cases hwrite
        obtain ⟨-, hrowRead, hrowFits⟩ := to_columns_read hminNew hcolumns
        rw [readBack, hidNew, Dict.get?_set, if_pos rfl, Option.bind_some, hrowRead, ← hsameNew,
          Option.some.injEq] at hread
        -- The count that is read is never zero.
        have hauto : (applyUpdate changes found now).autoResolveCycles ≠ 0 := by
          have hcount := congrArg AlarmRule.autoResolveCycles hread
          have horCount : orCount (applyUpdate changes found now).autoResolveCycles 2 =
              (applyUpdate changes found now).autoResolveCycles := hcount
          intro hzero
          rw [hzero] at horCount
          cases horCount
        exact (hrowFits hauto).congr hsameNew.symm

end Edits

section Survival

variable {repo : Repository} {c : AlarmRuleCreate} {ruleId : String} {createdAt updatedAt : ℚ}

/-- The rule can be stored as it is created. -/
structure FitsCreate (c : AlarmRuleCreate) : Prop where
  auto : c.autoResolveCycles ≠ 0 ∧ c.autoResolveCycles < integerBound
  min : c.minTriggerCycles < integerBound
  config : c.config.modelDump.dumpable = true

/-- The edit can be stored. -/
def Edit.Fits : Edit → Prop
  | .update changes _ => FitsUpdate changes
  | .expire => True

theorem fits_to_alarm_rule (c : AlarmRuleCreate) (ruleId : String) (createdAt updatedAt : ℚ) :
    Fits (c.toAlarmRule ruleId createdAt updatedAt) ↔ FitsCreate c :=
  ⟨fun h => ⟨⟨h.auto_pos, h.auto_lt⟩, h.min_lt, h.config⟩,
    fun h => ⟨h.auto.1, h.auto.2, h.min, h.config⟩⟩

theorem create_has (hnew : repo.db.get? ruleId = none) (hfits : FitsCreate c)
    (createdAt updatedAt : ℚ) : ∃ repo', create repo c ruleId createdAt updatedAt =
      some (c.toAlarmRule ruleId createdAt updatedAt, repo') ∧
      Has repo' (c.toAlarmRule ruleId createdAt updatedAt) := by
  have hfresh : ∀ row, repo.db.get? (c.toAlarmRule ruleId createdAt updatedAt).ruleId = some row →
      row.createdAt = (c.toAlarmRule ruleId createdAt updatedAt).createdAt := by
    intro row hrow
    rw [show (c.toAlarmRule ruleId createdAt updatedAt).ruleId = ruleId from rfl, hnew] at hrow
    cases hrow
  obtain ⟨db', hwrite, hhas⟩ := write_has
    ((fits_to_alarm_rule c ruleId createdAt updatedAt).mpr hfits) c.min_trigger_pos hfresh
    repo.cache
  refine ⟨_, ?_, hhas⟩
  rw [create, hwrite]
  rfl

theorem fits_of_created (hnew : repo.db.get? ruleId = none)
    (h : readBack (after repo c ruleId createdAt updatedAt []).db ruleId =
      some (normalise (c.toAlarmRule ruleId createdAt updatedAt))) : FitsCreate c := by
  rw [← fits_to_alarm_rule c ruleId createdAt updatedAt]
  cases hcolumns : toColumns (toDict (c.toAlarmRule ruleId createdAt updatedAt)) with
  | none =>
      have hraised : create repo c ruleId createdAt updatedAt = none := by
        simp [create, writeRule, hcolumns]
      rw [after, hraised] at h
      simp [readBack, hnew] at h
  | some row =>
      have hover : writeRule repo.db (toDict (c.toAlarmRule ruleId createdAt updatedAt)) =
          some (repo.db.set ruleId row) := by
        refine write_over c.min_trigger_pos ?_ hcolumns
        intro old hold
        rw [show (c.toAlarmRule ruleId createdAt updatedAt).ruleId = ruleId from rfl, hnew] at hold
        cases hold
      obtain ⟨-, hread, hfits⟩ := to_columns_read c.min_trigger_pos hcolumns
      simp only [after, create, hover, Option.map_some, List.foldl_nil, readBack, Dict.get?_set,
        if_true, Option.bind_some, hread, Option.some.injEq] at h
      refine hfits ?_
      have hcount := congrArg AlarmRule.autoResolveCycles h
      have horCount : orCount c.autoResolveCycles 2 = c.autoResolveCycles := hcount
      intro hzero
      rw [show (c.toAlarmRule ruleId createdAt updatedAt).autoResolveCycles =
        c.autoResolveCycles from rfl] at hzero
      rw [hzero] at horCount
      cases horCount

/-- The edits do not change the id. -/
theorem intended_rule_id (edits : List Edit) :
    (intended c ruleId createdAt updatedAt edits).ruleId = ruleId := by
  induction edits using List.reverseRecOn with
  | nil => rfl
  | append_singleton edits e ih =>
      rw [intended, List.foldl_append, List.foldl_cons, List.foldl_nil, ← intended]
      cases e with
      | update changes now => exact ih
      | expire => exact ih

theorem step_spec {rule : AlarmRule RuleConfig} (h : Has repo rule) (hfits : Fits rule) (e : Edit) :
    (readBack (step rule.ruleId repo e).db rule.ruleId = some (normalise (e.apply rule)) ↔
      e.Fits) ∧
    (e.Fits → Has (step rule.ruleId repo e) (e.apply rule) ∧ Fits (e.apply rule)) := by
  cases e with
  | update changes now =>
      obtain ⟨hread, hhas⟩ := update_spec h hfits changes now
      exact ⟨hread, fun hchanges => ⟨hhas hchanges, (fits_apply_update hfits changes now).mpr
        hchanges⟩⟩
  | expire =>
      refine ⟨⟨fun _ => trivial, fun _ => h.read_back⟩, fun _ => ⟨⟨h.stored, ?_, h.min_pos⟩,
        hfits⟩⟩
      intro data hdata
      simp only [step, Dict.get?_erase, Edit.apply, if_true] at hdata
      cases hdata

theorem has_after (hnew : repo.db.get? ruleId = none) (hcreate : FitsCreate c)
    (createdAt updatedAt : ℚ) (edits : List Edit) (hedits : ∀ e ∈ edits, e.Fits) :
    Has (after repo c ruleId createdAt updatedAt edits)
      (intended c ruleId createdAt updatedAt edits) ∧
      Fits (intended c ruleId createdAt updatedAt edits) := by
  obtain ⟨created, hcreated, hhas⟩ := create_has hnew hcreate createdAt updatedAt
  simp only [after, hcreated]
  induction edits using List.reverseRecOn with
  | nil => exact ⟨hhas, (fits_to_alarm_rule c ruleId createdAt updatedAt).mpr hcreate⟩
  | append_singleton edits e ih =>
      obtain ⟨hthen, hfits⟩ := ih fun other hother => hedits other (List.mem_append_left _ hother)
      have hstep := (step_spec hthen hfits e).2 (hedits e (by simp))
      rw [intended_rule_id] at hstep
      rw [List.foldl_append, intended, List.foldl_append]
      exact hstep

/-- A rule is read back from the database as the requests have made it, up to empty optional texts,
after its creation and after every edit, if and only if the creation and all edits can be stored. -/
theorem rules_survive (repo : Repository) (c : AlarmRuleCreate) {ruleId : String}
    (hnew : repo.db.get? ruleId = none) (createdAt updatedAt : ℚ) (edits : List Edit) :
    (∀ done, done <+: edits →
      readBack (after repo c ruleId createdAt updatedAt done).db ruleId =
        some (normalise (intended c ruleId createdAt updatedAt done))) ↔
      FitsCreate c ∧ ∀ e ∈ edits, e.Fits := by
  induction edits using List.reverseRecOn with
  | nil =>
      constructor
      · intro h
        exact ⟨fits_of_created hnew (h [] (List.prefix_refl _)), fun e he => by cases he⟩
      · rintro ⟨hcreate, -⟩ done hdone
        rw [List.prefix_nil.mp hdone]
        have hread := (has_after hnew hcreate createdAt updatedAt []
          fun e he => by cases he).1.read_back
        rw [intended_rule_id] at hread
        exact hread
  | append_singleton edits e ih =>
      have hlast : FitsCreate c → (∀ e ∈ edits, e.Fits) →
          (readBack (after repo c ruleId createdAt updatedAt (edits ++ [e])).db ruleId =
            some (normalise (intended c ruleId createdAt updatedAt (edits ++ [e]))) ↔
            e.Fits) := by
        intro hcreate hedits
        obtain ⟨created, hcreated, -⟩ := create_has hnew hcreate createdAt updatedAt
        obtain ⟨hthen, hfits⟩ := has_after hnew hcreate createdAt updatedAt edits hedits
        have hstep := (step_spec hthen hfits e).1
        rw [intended_rule_id] at hstep
        simp only [after, hcreated, intended, List.foldl_append] at hstep ⊢
        exact hstep
      simp only [List.prefix_concat_iff, ih, List.mem_append, List.mem_singleton,
        or_imp, forall_and, forall_eq]
      constructor
      · rintro ⟨hread, hcreate, hedits⟩
        exact ⟨hcreate, hedits, (hlast hcreate hedits).mp hread⟩
      · rintro ⟨hcreate, hedits, he⟩
        exact ⟨(hlast hcreate hedits).mpr he, hcreate, hedits⟩

/-- A rule with a threshold, and a count for the auto-resolve. -/
def hotCreate (autoResolveCycles : Nat) : AlarmRuleCreate where
  name := "hot"
  description := some ""
  metricSource := "gpu"
  metricName := "temperature"
  ruleType := .thresholdAbove
  config := ⟨{ threshold := some { upper := some (.finite 90), unit := some "C" } }, rfl⟩
  autoResolveCycles := autoResolveCycles
  name_length := by decide
  description_length := by decide
  metric_tags := by decide
  min_trigger_pos := by decide

/-- A rule is created, and renamed after its dictionary has left the cache. -/
theorem rules_survive_renamed :
    (∅ : Dict String RuleRow).get? "r" = none ∧
      ∀ done, done <+: [.expire, .update { name := some "hotter" } 1] →
        readBack (after { db := ∅ } (hotCreate 2) "r" 0 0 done).db "r" =
          some (normalise (intended (hotCreate 2) "r" 0 0 done)) := by
  refine ⟨rfl, (rules_survive { db := ∅ } (hotCreate 2) rfl 0 0 _).mpr ⟨⟨?_, ?_, ?_⟩, ?_⟩⟩
  · decide
  · decide
  · decide +kernel
  · intro e he
    simp only [List.mem_cons, List.not_mem_nil, or_false] at he
    rcases he with rfl | rfl
    · trivial
    · refine ⟨?_, ?_, ?_⟩
      · exact fun n hn => by cases hn
      · exact fun n hn => by cases hn
      · exact fun c hc => by cases hc

/-- A rule that is never to be resolved by itself is read back as one that is, after two cycles. -/
theorem never_resolved_lost : ¬ ∀ (repo : Repository) (c : AlarmRuleCreate) (ruleId : String)
    (createdAt updatedAt : ℚ) (edits : List Edit), repo.db.get? ruleId = none →
    ∀ done, done <+: edits →
      readBack (after repo c ruleId createdAt updatedAt done).db ruleId =
        some (normalise (intended c ruleId createdAt updatedAt done)) := by
  intro h
  have hread := h { db := ∅ } (hotCreate 0) "r" 0 0 [] rfl [] (List.prefix_refl _)
  have hcount := congrArg (Option.map AlarmRule.autoResolveCycles) hread
  revert hcount
  decide +kernel

end Survival

end Settings

end SystemsManager.Alarms
