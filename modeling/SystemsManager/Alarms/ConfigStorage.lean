import SystemsManager.Alarms.RuleStorage

/-!
# How a notification policy is stored

A policy passes through the model, `to_dict`, the columns of `write_config`, the row,
`_row_to_config` and `_dict_to_config`, and an update starts from the cached dictionary or from the
row. `policies_survive` is the theorem to read: a policy is read back from the database as the
requests have made it, after its creation and after every update, if and only if no request sets
the repeat interval to zero, the description to the empty text or the severity to a blank one, and
all integers can be stored. Times are kept as the instants that their texts stand for.
-/

namespace SystemsManager.Alarms.Policies

open Python
open Settings (integerBound orCount orDefault or_default_texts or_none_or_none)

section Models

/-- `NotificationConfigCreate`, validated. The ids of channels are UUIDs in their canonical form,
and the validator drops empty ids of rules. -/
structure NotificationConfigCreate where
  name : String
  description : Option String := none
  channels : List String := []
  enabled : Bool := true
  autoDismiss : Bool := true
  toastDismissSeconds : Nat := 10
  minSeverity : Option String := none
  metricSources : List String := []
  metricNames : List String := []
  sourceHosts : List String := []
  ruleIds : List String := []
  repeatIntervalMinutes : Nat := 30
  notifyOnClear : Bool := false
  minAlarmCount : Nat := 1
  name_length : 1 ≤ name.length ∧ name.length ≤ 255
  description_length : ∀ text ∈ description, text.length ≤ 1000
  toast_range : 1 ≤ toastDismissSeconds ∧ toastDismissSeconds ≤ 600
  rule_ids_text : ∀ id ∈ ruleIds, id ≠ ""
  min_alarm_pos : 1 ≤ minAlarmCount

/-- `NotificationConfigUpdate`, validated: `None` leaves a field as it is. -/
structure NotificationConfigUpdate where
  name : Option String := none
  description : Option String := none
  channels : Option (List String) := none
  enabled : Option Bool := none
  autoDismiss : Option Bool := none
  toastDismissSeconds : Option Nat := none
  minSeverity : Option String := none
  metricSources : Option (List String) := none
  metricNames : Option (List String) := none
  sourceHosts : Option (List String) := none
  ruleIds : Option (List String) := none
  repeatIntervalMinutes : Option Nat := none
  notifyOnClear : Option Bool := none
  minAlarmCount : Option Nat := none
  toast_range : ∀ n ∈ toastDismissSeconds, 1 ≤ n ∧ n ≤ 600 := by simp
  rule_ids_text : ∀ ids ∈ ruleIds, ∀ id ∈ ids, id ≠ "" := by simp
  min_alarm_pos : ∀ n ∈ minAlarmCount, 1 ≤ n := by simp

/-- `NotificationConfig`. -/
structure NotificationConfig where
  configId : String
  name : String
  description : Option String
  channels : List String
  enabled : Bool
  autoDismiss : Bool
  toastDismissSeconds : Nat
  createdAt : ℚ
  lastTriggeredAt : Option ℚ
  triggerCount : Nat
  minSeverity : Option String
  metricSources : List String
  metricNames : List String
  sourceHosts : List String
  ruleIds : List String
  repeatIntervalMinutes : Nat
  notifyOnClear : Bool
  minAlarmCount : Nat
  deriving DecidableEq

/-- The policy that a request asks for, with the id that `uuid4` gives. -/
def NotificationConfigCreate.asked (c : NotificationConfigCreate) (configId : String)
    (createdAt : ℚ) : NotificationConfig where
  configId := configId
  name := c.name
  description := c.description
  channels := c.channels
  enabled := c.enabled
  autoDismiss := c.autoDismiss
  toastDismissSeconds := c.toastDismissSeconds
  createdAt := createdAt
  lastTriggeredAt := none
  triggerCount := 0
  minSeverity := c.minSeverity
  metricSources := c.metricSources
  metricNames := c.metricNames
  sourceHosts := c.sourceHosts
  ruleIds := c.ruleIds
  repeatIntervalMinutes := c.repeatIntervalMinutes
  notifyOnClear := c.notifyOnClear
  minAlarmCount := c.minAlarmCount

/-- The policy that an update asks for. -/
def NotificationConfigUpdate.asked (u : NotificationConfigUpdate) (config : NotificationConfig) :
    NotificationConfig :=
  { config with
    name := u.name.getD config.name
    description := u.description.or config.description
    channels := u.channels.getD config.channels
    enabled := u.enabled.getD config.enabled
    autoDismiss := u.autoDismiss.getD config.autoDismiss
    toastDismissSeconds := u.toastDismissSeconds.getD config.toastDismissSeconds
    minSeverity := u.minSeverity.or config.minSeverity
    metricSources := u.metricSources.getD config.metricSources
    metricNames := u.metricNames.getD config.metricNames
    sourceHosts := u.sourceHosts.getD config.sourceHosts
    ruleIds := u.ruleIds.getD config.ruleIds
    repeatIntervalMinutes := u.repeatIntervalMinutes.getD config.repeatIntervalMinutes
    notifyOnClear := u.notifyOnClear.getD config.notifyOnClear
    minAlarmCount := u.minAlarmCount.getD config.minAlarmCount }

end Models

section Layers

/-- A policy as a dictionary. -/
structure ConfigDict where
  configId : String
  name : String
  description : Option String
  channels : Json
  enabled : Bool
  autoDismiss : Bool
  toastDismissSeconds : Nat
  createdAt : ℚ
  lastTriggeredAt : Option ℚ
  triggerCount : Nat
  minSeverity : Option String
  metricSources : Json
  metricNames : Json
  sourceHosts : Json
  ruleIds : Json
  repeatIntervalMinutes : Nat
  notifyOnClear : Bool
  minAlarmCount : Nat

/-- A row of `configs`. A JSON column has the value whose text it holds. -/
structure ConfigRow where
  configId : String
  name : String
  description : Option String
  channelsJson : Json
  enabled : Nat
  autoDismiss : Nat
  createdAt : ℚ
  lastTriggeredAt : Option ℚ
  triggerCount : Nat
  minSeverity : Option String
  metricSourcesJson : Json
  metricNamesJson : Json
  sourceHostsJson : Json
  repeatIntervalMinutes : Nat
  notifyOnClear : Nat
  minAlarmCount : Nat
  toastDismissSeconds : Nat
  ruleIdsJson : Json

/-- `to_dict`. -/
def toDict (config : NotificationConfig) : ConfigDict where
  configId := config.configId
  name := config.name
  description := config.description
  channels := Codec.str.list.dump config.channels
  enabled := config.enabled
  autoDismiss := config.autoDismiss
  toastDismissSeconds := orCount config.toastDismissSeconds 10
  createdAt := config.createdAt
  lastTriggeredAt := config.lastTriggeredAt
  triggerCount := config.triggerCount
  minSeverity := config.minSeverity
  metricSources := Codec.str.list.dump config.metricSources
  metricNames := Codec.str.list.dump config.metricNames
  sourceHosts := Codec.str.list.dump config.sourceHosts
  ruleIds := Codec.str.list.dump config.ruleIds
  repeatIntervalMinutes := config.repeatIntervalMinutes
  notifyOnClear := config.notifyOnClear
  minAlarmCount := config.minAlarmCount

/-- A truth value in an integer column. -/
def flag (b : Bool) : Nat := if b then 1 else 0

/-- The columns that `write_config` makes. It raises where an integer is too large for its
column. -/
def toColumns (config : ConfigDict) : Option ConfigRow :=
  let repeatIntervalMinutes := orCount config.repeatIntervalMinutes 30
  let minAlarmCount := orCount config.minAlarmCount 1
  let toastDismissSeconds := orCount config.toastDismissSeconds 10
  if [config.triggerCount, repeatIntervalMinutes, minAlarmCount, toastDismissSeconds].all
      (· < integerBound) then
    some {
      configId := config.configId
      name := config.name
      description := orNone config.description
      channelsJson := orDefault config.channels (.list [])
      enabled := flag config.enabled
      autoDismiss := flag config.autoDismiss
      createdAt := config.createdAt
      lastTriggeredAt := config.lastTriggeredAt
      triggerCount := config.triggerCount
      minSeverity := orNone config.minSeverity
      metricSourcesJson := orDefault config.metricSources (.list [])
      metricNamesJson := orDefault config.metricNames (.list [])
      sourceHostsJson := orDefault config.sourceHosts (.list [])
      repeatIntervalMinutes := repeatIntervalMinutes
      notifyOnClear := flag config.notifyOnClear
      minAlarmCount := minAlarmCount
      toastDismissSeconds := toastDismissSeconds
      ruleIdsJson := orDefault config.ruleIds (.list []) }
  else none

/-- `write_config`: insert, or update everything but `created_at`. -/
def writeConfig (db : Dict String ConfigRow) (config : ConfigDict) :
    Option (Dict String ConfigRow) :=
  (toColumns config).map fun row =>
    match db.get? config.configId with
    | none => db.set config.configId row
    | some old => db.set config.configId { row with createdAt := old.createdAt }

/-- `_row_to_config`. -/
def rowToConfig (row : ConfigRow) : ConfigDict where
  configId := row.configId
  name := row.name
  description := row.description
  channels := row.channelsJson
  enabled := row.enabled != 0
  autoDismiss := row.autoDismiss != 0
  toastDismissSeconds := orCount row.toastDismissSeconds 10
  createdAt := row.createdAt
  lastTriggeredAt := row.lastTriggeredAt
  triggerCount := row.triggerCount
  minSeverity := row.minSeverity
  metricSources := row.metricSourcesJson
  metricNames := row.metricNamesJson
  sourceHosts := row.sourceHostsJson
  ruleIds := row.ruleIdsJson
  repeatIntervalMinutes := row.repeatIntervalMinutes
  notifyOnClear := row.notifyOnClear != 0
  minAlarmCount := row.minAlarmCount

/-- `not text.strip()`. -/
def isBlankText (text : String) : Bool := (stripChars text).isEmpty

/-- `_dict_to_config`, where it raises nothing. The lists of every dictionary that is built here
are lists of texts. -/
def dictToConfig (item : ConfigDict) : Option NotificationConfig := do
  let channels ← Codec.str.list.load item.channels
  let metricSources ← Codec.str.list.load item.metricSources
  let metricNames ← Codec.str.list.load item.metricNames
  let sourceHosts ← Codec.str.list.load item.sourceHosts
  let ruleIds ← Codec.str.list.load item.ruleIds
  pure {
    configId := item.configId
    name := item.name
    description := item.description
    channels := channels
    enabled := item.enabled
    autoDismiss := item.autoDismiss
    toastDismissSeconds := orCount item.toastDismissSeconds 10
    createdAt := item.createdAt
    lastTriggeredAt := item.lastTriggeredAt
    triggerCount := item.triggerCount
    minSeverity := item.minSeverity.filter fun text => !isBlankText text
    metricSources := metricSources
    metricNames := metricNames
    sourceHosts := sourceHosts
    ruleIds := ruleIds
    repeatIntervalMinutes := orCount item.repeatIntervalMinutes 30
    notifyOnClear := item.notifyOnClear
    minAlarmCount := orCount item.minAlarmCount 1 }

/-- The policy that is read from the database, as after a restart. -/
def readBack (db : Dict String ConfigRow) (configId : String) : Option NotificationConfig :=
  (db.get? configId).bind fun row => dictToConfig (rowToConfig row)

end Layers

section Repository

/-- `NotificationRepository`, with the policies. -/
structure Repository where
  db : Dict String ConfigRow
  cache : Dict String ConfigDict := ∅

/-- The policy that `create_config` builds. -/
def NotificationConfigCreate.toConfig (c : NotificationConfigCreate) (configId : String)
    (createdAt : ℚ) : NotificationConfig :=
  { c.asked configId createdAt with
    repeatIntervalMinutes := orCount c.repeatIntervalMinutes 30
    minAlarmCount := orCount c.minAlarmCount 1
    toastDismissSeconds := orCount c.toastDismissSeconds 10 }

/-- Write a policy and cache it. Where the write raises, nothing changes. -/
def save (repo : Repository) (config : NotificationConfig) : Repository :=
  match writeConfig repo.db (toDict config) with
  | none => repo
  | some db => { db := db, cache := repo.cache.set config.configId (toDict config) }

/-- `create_config`. -/
def create (repo : Repository) (c : NotificationConfigCreate) (configId : String) (createdAt : ℚ) :
    Repository :=
  save repo (c.toConfig configId createdAt)

/-- The keys that an update sets in a dictionary. -/
def setKeys (u : NotificationConfigUpdate) (data : ConfigDict) : ConfigDict :=
  { data with
    name := u.name.getD data.name
    description := u.description.or data.description
    channels := (u.channels.map Codec.str.list.dump).getD data.channels
    enabled := u.enabled.getD data.enabled
    autoDismiss := u.autoDismiss.getD data.autoDismiss
    toastDismissSeconds := u.toastDismissSeconds.getD data.toastDismissSeconds
    minSeverity := u.minSeverity.or data.minSeverity
    metricSources := (u.metricSources.map Codec.str.list.dump).getD data.metricSources
    metricNames := (u.metricNames.map Codec.str.list.dump).getD data.metricNames
    sourceHosts := (u.sourceHosts.map Codec.str.list.dump).getD data.sourceHosts
    ruleIds := (u.ruleIds.map Codec.str.list.dump).getD data.ruleIds
    repeatIntervalMinutes := u.repeatIntervalMinutes.getD data.repeatIntervalMinutes
    notifyOnClear := u.notifyOnClear.getD data.notifyOnClear
    minAlarmCount := u.minAlarmCount.getD data.minAlarmCount }

/-- `update_config`: from the cached dictionary, or from the row. -/
def update (repo : Repository) (configId : String) (u : NotificationConfigUpdate) : Repository :=
  match (repo.cache.get? configId).or ((repo.db.get? configId).map rowToConfig) with
  | none => repo
  | some data =>
      match dictToConfig (setKeys u data) with
      | none => repo
      | some config => save repo config

/-- A request for the policy, or the end of its time in the cache. -/
inductive Edit where
  | update (u : NotificationConfigUpdate)
  | expire

/-- The repository after an edit. -/
def step (configId : String) (repo : Repository) : Edit → Repository
  | .update u => update repo configId u
  | .expire => { repo with cache := repo.cache.erase configId }

/-- What an edit is to make of the policy. -/
def Edit.apply (config : NotificationConfig) : Edit → NotificationConfig
  | .update u => u.asked config
  | .expire => config

/-- The repository after a creation and some edits. -/
def after (repo : Repository) (c : NotificationConfigCreate) (configId : String) (createdAt : ℚ)
    (edits : List Edit) : Repository :=
  edits.foldl (step configId) (create repo c configId createdAt)

/-- What the requests make of the policy. -/
def intended (c : NotificationConfigCreate) (configId : String) (createdAt : ℚ)
    (edits : List Edit) : NotificationConfig :=
  edits.foldl Edit.apply (c.asked configId createdAt)

end Repository

section RoundTrip

variable {config : NotificationConfig} {row : ConfigRow}

/-- The store can hold the policy as it is. -/
structure Fits (config : NotificationConfig) : Prop where
  description : config.description ≠ some ""
  severity : ∀ text ∈ config.minSeverity, isBlankText text = false
  repeat_pos : config.repeatIntervalMinutes ≠ 0
  repeat_lt : config.repeatIntervalMinutes < integerBound
  alarm_lt : config.minAlarmCount < integerBound

/-- What every policy has: counts in the ranges of the requests. -/
structure InRange (config : NotificationConfig) : Prop where
  toast : 1 ≤ config.toastDismissSeconds ∧ config.toastDismissSeconds ≤ 600
  alarm : 1 ≤ config.minAlarmCount
  trigger : config.triggerCount = 0

theorem InRange.counts (h : InRange config) :
    orCount config.toastDismissSeconds 10 = config.toastDismissSeconds ∧
      orCount config.minAlarmCount 1 = config.minAlarmCount := by
  obtain ⟨htoast, halarm, -⟩ := h
  exact ⟨if_neg (by omega), if_neg (by omega)⟩

/-- The severity without a blank text. -/
def noBlank (text : Option String) : Option String := text.filter fun text => !isBlankText text

theorem dict_to_dict (h : InRange config) : dictToConfig (toDict config) =
    some { config with
      minSeverity := noBlank config.minSeverity
      repeatIntervalMinutes := orCount config.repeatIntervalMinutes 30 } := by
  obtain ⟨htoast, halarm⟩ := h.counts
  simp only [dictToConfig, toDict, Codec.load_dump, Option.bind_eq_bind, Option.bind_some, htoast,
    halarm, Option.pure_def]
  rfl

theorem flag_ne_zero (b : Bool) : (flag b != 0) = b := by
  cases b <;> rfl

/-- An empty text is blank. -/
theorem no_blank_or_none (text : Option String) : noBlank (orNone text) = noBlank text := by
  cases text with
  | none => rfl
  | some text =>
      by_cases hempty : text = ""
      · subst hempty
        rfl
      · have hsome : orNone (some text) = some text := by simp [orNone, hempty]
        rw [hsome]

theorem to_columns_read (h : InRange config) (hrow : toColumns (toDict config) = some row) :
    row.createdAt = config.createdAt ∧ config.minAlarmCount < integerBound ∧
      orCount config.repeatIntervalMinutes 30 < integerBound ∧
      rowToConfig row = toDict { config with
        description := orNone config.description
        minSeverity := orNone config.minSeverity
        repeatIntervalMinutes := orCount config.repeatIntervalMinutes 30 } := by
  obtain ⟨htoast, halarm⟩ := h.counts
  unfold toColumns at hrow
  dsimp only at hrow
  split at hrow
  · rename_i hfits
    cases hrow
    simp only [toDict, halarm, List.all_cons, Bool.and_eq_true, decide_eq_true_eq] at hfits
    refine ⟨rfl, hfits.2.2.1, hfits.2.1, ?_⟩
    simp only [rowToConfig, toDict, htoast, halarm, or_default_texts, flag_ne_zero]
  · cases hrow

theorem to_columns_some (h : InRange config) (halarm : config.minAlarmCount < integerBound)
    (hrepeat : orCount config.repeatIntervalMinutes 30 < integerBound) :
    ∃ row, toColumns (toDict config) = some row := by
  have htoast : config.toastDismissSeconds ≠ 0 ∧ config.toastDismissSeconds < integerBound := by
    have := h.toast
    unfold integerBound
    omega
  have hpos : config.minAlarmCount ≠ 0 := by
    have := h.alarm
    omega
  have hall : [(toDict config).triggerCount, orCount (toDict config).repeatIntervalMinutes 30,
      orCount (toDict config).minAlarmCount 1, orCount (toDict config).toastDismissSeconds 10].all
        (· < integerBound) = true := by
    simp only [List.all_cons, List.all_nil, Bool.and_eq_true, decide_eq_true_eq, and_true, toDict,
      orCount, if_neg htoast.1, if_neg hpos, h.trigger]
    exact ⟨by decide, hrepeat, halarm, htoast.2⟩
  unfold toColumns
  dsimp only
  rw [if_pos hall]
  exact ⟨_, rfl⟩

theorem Fits.same (h : Fits config) : { config with
    description := orNone config.description
    minSeverity := orNone config.minSeverity
    repeatIntervalMinutes := orCount config.repeatIntervalMinutes 30 } = config ∧
    noBlank config.minSeverity = config.minSeverity := by
  have hdescription : orNone config.description = config.description := by
    have := h.description
    revert this
    cases config.description with
    | none => exact fun _ => rfl
    | some text => exact fun htext => by simp [orNone, show text ≠ "" by simpa using htext]
  have hblank : noBlank config.minSeverity = config.minSeverity := by
    have := h.severity
    revert this
    cases config.minSeverity with
    | none => exact fun _ => rfl
    | some text => exact fun htext => by simp [noBlank, htext text rfl]
  have hseverity : orNone config.minSeverity = config.minSeverity := by
    have := h.severity
    revert this
    cases config.minSeverity with
    | none => exact fun _ => rfl
    | some text =>
        intro htext
        have hne : text ≠ "" := by
          rintro rfl
          cases htext "" rfl
        simp [orNone, hne]
  have hrepeat : orCount config.repeatIntervalMinutes 30 = config.repeatIntervalMinutes :=
    if_neg h.repeat_pos
  rw [hdescription, hseverity, hrepeat]
  exact ⟨rfl, hblank⟩

theorem fits_of_layers {description severity : Option String} {interval : Nat}
    (hdescription : config.description = orNone description)
    (hseverity : config.minSeverity = noBlank severity)
    (hinterval : config.repeatIntervalMinutes = orCount interval 30)
    (hlt : config.repeatIntervalMinutes < integerBound)
    (halarm : config.minAlarmCount < integerBound) : Fits config := by
  refine ⟨?_, ?_, ?_, hlt, halarm⟩
  · rw [hdescription, orNone]
    intro hempty
    have := (Option.filter_eq_some_iff.mp hempty).2
    simp at this
  · rw [hseverity, noBlank]
    intro text htext
    have := (Option.filter_eq_some_iff.mp htext).2
    simpa using this
  · rw [hinterval, orCount]
    split
    · decide
    · assumption

end RoundTrip

section Edits

variable {config : NotificationConfig} {repo : Repository} {u : NotificationConfigUpdate}

/-- The repository has the policy, in its row and in the cache if it is there. -/
structure Has (repo : Repository) (config : NotificationConfig) : Prop where
  stored : ∃ row, repo.db.get? config.configId = some row ∧ row.createdAt = config.createdAt ∧
    rowToConfig row = toDict config
  cached : ∀ data ∈ repo.cache.get? config.configId, data = toDict config

theorem Has.read_back (h : Has repo config) (hrange : InRange config) (hfits : Fits config) :
    readBack repo.db config.configId = some config := by
  obtain ⟨row, hrow, -, hread⟩ := h.stored
  have hrepeat : orCount config.repeatIntervalMinutes 30 = config.repeatIntervalMinutes :=
    if_neg hfits.repeat_pos
  rw [readBack, hrow, Option.bind_some, hread, dict_to_dict hrange, hfits.same.2, hrepeat]

theorem save_row {row : ConfigRow} (hrange : InRange config)
    (hcreated : ∀ old, repo.db.get? config.configId = some old → old.createdAt = config.createdAt)
    (hrow : toColumns (toDict config) = some row) :
    save repo config =
      ⟨repo.db.set config.configId row, repo.cache.set config.configId (toDict config)⟩ := by
  have hwrite : writeConfig repo.db (toDict config) = some (repo.db.set config.configId row) := by
    rw [writeConfig, hrow, Option.map_some]
    show some (match repo.db.get? config.configId with
      | none => repo.db.set config.configId row
      | some old => repo.db.set config.configId { row with createdAt := old.createdAt }) = _
    split
    · rfl
    · rename_i old hold
      rw [hcreated old hold, ← (to_columns_read hrange hrow).1]
  rw [save, hwrite]

theorem save_read_back (hrange : InRange config)
    (hcreated : ∀ old, repo.db.get? config.configId = some old → old.createdAt = config.createdAt) :
    (save repo config = repo ∧ ¬ (config.minAlarmCount < integerBound ∧
        orCount config.repeatIntervalMinutes 30 < integerBound)) ∨
      (readBack (save repo config).db config.configId = some { config with
          description := orNone config.description
          minSeverity := noBlank config.minSeverity
          repeatIntervalMinutes := orCount config.repeatIntervalMinutes 30 } ∧
        config.minAlarmCount < integerBound ∧
        orCount config.repeatIntervalMinutes 30 < integerBound) := by
  cases hrow : toColumns (toDict config) with
  | none =>
      refine .inl ⟨by rw [save, writeConfig, hrow]; rfl, ?_⟩
      rintro ⟨halarm, hrepeat⟩
      obtain ⟨row, hsome⟩ := to_columns_some hrange halarm hrepeat
      rw [hrow] at hsome
      cases hsome
  | some row =>
      obtain ⟨-, halarm, hrepeat, hread⟩ := to_columns_read hrange hrow
      refine .inr ⟨?_, halarm, hrepeat⟩
      have hcount : ∀ n, orCount (orCount n 30) 30 = orCount n 30 := by
        intro n
        unfold orCount
        split
        · rfl
        · rfl
      have hrange' : InRange { config with
          description := orNone config.description
          minSeverity := orNone config.minSeverity
          repeatIntervalMinutes := orCount config.repeatIntervalMinutes 30 } :=
        ⟨hrange.toast, hrange.alarm, hrange.trigger⟩
      rw [save_row hrange hcreated hrow, readBack, Dict.get?_set, if_pos rfl, Option.bind_some,
        hread, dict_to_dict hrange']
      simp only [no_blank_or_none, hcount]

theorem save_has (hrange : InRange config) (hfits : Fits config)
    (hcreated : ∀ old, repo.db.get? config.configId = some old → old.createdAt = config.createdAt) :
    Has (save repo config) config := by
  have hrepeat : orCount config.repeatIntervalMinutes 30 < integerBound := by
    rw [orCount, if_neg hfits.repeat_pos]
    exact hfits.repeat_lt
  obtain ⟨row, hrow⟩ := to_columns_some hrange hfits.alarm_lt hrepeat
  obtain ⟨hat, -, -, hread⟩ := to_columns_read hrange hrow
  rw [hfits.same.1] at hread
  rw [save_row hrange hcreated hrow]
  refine ⟨⟨row, by simp, hat, hread⟩, ?_⟩
  intro data hdata
  simp only [Dict.get?_set, if_true, Option.mem_def, Option.some.injEq] at hdata
  exact hdata.symm

/-- The update can be stored. -/
structure FitsUpdate (u : NotificationConfigUpdate) : Prop where
  description : u.description ≠ some ""
  severity : ∀ text ∈ u.minSeverity, isBlankText text = false
  interval : ∀ n ∈ u.repeatIntervalMinutes, n ≠ 0 ∧ n < integerBound
  alarm : ∀ n ∈ u.minAlarmCount, n < integerBound

theorem fits_asked (h : Fits config) : Fits (u.asked config) ↔ FitsUpdate u := by
  constructor
  · intro hfits
    refine ⟨?_, ?_, ?_, ?_⟩
    · intro hempty
      exact hfits.description (by simp [NotificationConfigUpdate.asked, hempty])
    · intro text htext
      exact hfits.severity text (by simp [NotificationConfigUpdate.asked, Option.mem_def.mp htext])
    · intro n hn
      have hpos := hfits.repeat_pos
      have hlt := hfits.repeat_lt
      simp only [NotificationConfigUpdate.asked, Option.mem_def.mp hn, Option.getD_some] at hpos hlt
      exact ⟨hpos, hlt⟩
    · intro n hn
      have hlt := hfits.alarm_lt
      simpa only [NotificationConfigUpdate.asked, Option.mem_def.mp hn, Option.getD_some] using hlt
  · intro hu
    refine ⟨?_, ?_, ?_, ?_, ?_⟩
    · simp only [NotificationConfigUpdate.asked]
      cases htext : u.description with
      | none => simpa using h.description
      | some text =>
          have := hu.description
          rw [htext] at this
          simpa using this
    · simp only [NotificationConfigUpdate.asked]
      cases htext : u.minSeverity with
      | none => simpa using h.severity
      | some text => simpa using hu.severity text htext
    · simp only [NotificationConfigUpdate.asked]
      cases hn : u.repeatIntervalMinutes with
      | none => exact h.repeat_pos
      | some n => exact (hu.interval n hn).1
    · simp only [NotificationConfigUpdate.asked]
      cases hn : u.repeatIntervalMinutes with
      | none => exact h.repeat_lt
      | some n => exact (hu.interval n hn).2
    · simp only [NotificationConfigUpdate.asked]
      cases hn : u.minAlarmCount with
      | none => exact h.alarm_lt
      | some n => exact hu.alarm n hn

theorem in_range_asked (h : InRange config) : InRange (u.asked config) := by
  refine ⟨?_, ?_, h.trigger⟩
  · simp only [NotificationConfigUpdate.asked]
    cases hn : u.toastDismissSeconds with
    | none => exact h.toast
    | some n => exact u.toast_range n hn
  · simp only [NotificationConfigUpdate.asked]
    cases hn : u.minAlarmCount with
    | none => exact h.alarm
    | some n => exact u.min_alarm_pos n hn

theorem set_keys_dict (h : InRange config) :
    setKeys u (toDict config) = toDict (u.asked config) := by
  have htexts : ∀ (new : Option (List String)) (old : List String),
      (new.map Codec.str.list.dump).getD (Codec.str.list.dump old) =
        Codec.str.list.dump (new.getD old) := by
    intro new old
    cases new <;> rfl
  have htoast : u.toastDismissSeconds.getD (orCount config.toastDismissSeconds 10) =
      orCount (u.toastDismissSeconds.getD config.toastDismissSeconds) 10 := by
    have hcounts := (in_range_asked (u := u) h).counts.1
    simp only [NotificationConfigUpdate.asked] at hcounts
    rw [hcounts, h.counts.1]
  simp only [setKeys, toDict, NotificationConfigUpdate.asked, htexts, htoast]

/-- An update is read back exactly when it can be stored, and the repository then has the updated
policy. -/
theorem update_spec (h : Has repo config) (hrange : InRange config) (hfits : Fits config) :
    (readBack (update repo config.configId u).db config.configId = some (u.asked config) ↔
      FitsUpdate u) ∧
    (FitsUpdate u → Has (update repo config.configId u) (u.asked config)) := by
  obtain ⟨row, hrow, hat, hread⟩ := h.stored
  have hdata : (repo.cache.get? config.configId).or
      ((repo.db.get? config.configId).map rowToConfig) = some (toDict config) := by
    cases hcached : repo.cache.get? config.configId with
    | none => rw [Option.none_or, hrow, Option.map_some, hread]
    | some data => rw [Option.some_or, h.cached data hcached]
  have hrangeNew := in_range_asked (u := u) hrange
  have hupdate : update repo config.configId u = save repo { u.asked config with
      minSeverity := noBlank (u.asked config).minSeverity
      repeatIntervalMinutes := orCount (u.asked config).repeatIntervalMinutes 30 } := by
    rw [update, hdata]
    dsimp only
    rw [set_keys_dict hrange, dict_to_dict hrangeNew]
  have hcreated : ∀ old, repo.db.get? config.configId = some old →
      old.createdAt = config.createdAt := by
    intro old hold
    rw [hrow] at hold
    cases hold
    exact hat
  have hgood : FitsUpdate u → Has (update repo config.configId u) (u.asked config) := by
    intro hu
    have hfitsNew := (fits_asked hfits).mpr hu
    have hrepeat : orCount (u.asked config).repeatIntervalMinutes 30 =
        (u.asked config).repeatIntervalMinutes := if_neg hfitsNew.repeat_pos
    rw [hupdate, hfitsNew.same.2, hrepeat]
    exact save_has hrangeNew hfitsNew hcreated
  refine ⟨⟨?_, fun hu => (hgood hu).read_back hrangeNew ((fits_asked hfits).mpr hu)⟩, hgood⟩
  intro hback
  rw [← fits_asked hfits]
  rw [hupdate] at hback
  have hrangeRead : InRange { u.asked config with
      minSeverity := noBlank (u.asked config).minSeverity
      repeatIntervalMinutes := orCount (u.asked config).repeatIntervalMinutes 30 } :=
    ⟨hrangeNew.toast, hrangeNew.alarm, hrangeNew.trigger⟩
  rcases save_read_back hrangeRead hcreated with ⟨hsame, -⟩ | ⟨hnew, halarm, hrepeat⟩
  · -- The write raised, and so the policy is as before.
    rw [hsame, h.read_back hrange hfits, Option.some.injEq] at hback
    rw [← hback]
    exact hfits
  · have heq := Option.some.inj (hnew.symm.trans hback)
    refine fits_of_layers (congrArg NotificationConfig.description heq).symm
      (congrArg NotificationConfig.minSeverity heq).symm
      (congrArg NotificationConfig.repeatIntervalMinutes heq).symm ?_ ?_
    · rw [← heq]
      exact hrepeat
    · exact halarm

end Edits

section Survival

variable {repo : Repository} {c : NotificationConfigCreate} {configId : String} {createdAt : ℚ}

/-- The request for a new policy can be stored. -/
structure FitsCreate (c : NotificationConfigCreate) : Prop where
  description : c.description ≠ some ""
  severity : ∀ text ∈ c.minSeverity, isBlankText text = false
  interval : c.repeatIntervalMinutes ≠ 0 ∧ c.repeatIntervalMinutes < integerBound
  alarm : c.minAlarmCount < integerBound

/-- The edit can be stored. -/
def Edit.Fits : Edit → Prop
  | .update u => FitsUpdate u
  | .expire => True

theorem fits_create_iff : Fits (c.asked configId createdAt) ↔ FitsCreate c :=
  ⟨fun h => ⟨h.description, h.severity, ⟨h.repeat_pos, h.repeat_lt⟩, h.alarm_lt⟩,
    fun h => ⟨h.description, h.severity, h.interval.1, h.interval.2, h.alarm⟩⟩

theorem in_range_create (c : NotificationConfigCreate) (configId : String) (createdAt : ℚ) :
    InRange (c.asked configId createdAt) := ⟨c.toast_range, c.min_alarm_pos, rfl⟩

theorem create_spec (hnew : repo.db.get? configId = none) :
    (readBack (create repo c configId createdAt).db configId = some (c.asked configId createdAt) ↔
      FitsCreate c) ∧
    (FitsCreate c → Has (create repo c configId createdAt) (c.asked configId createdAt)) := by
  have hrange := in_range_create c configId createdAt
  have hconfig : c.toConfig configId createdAt = { c.asked configId createdAt with
      repeatIntervalMinutes := orCount c.repeatIntervalMinutes 30 } := by
    have hcounts := hrange.counts
    simp only [NotificationConfigCreate.asked] at hcounts
    simp only [NotificationConfigCreate.toConfig, NotificationConfigCreate.asked, hcounts]
  have hcreated : ∀ old, repo.db.get? configId = some old → old.createdAt = createdAt := by
    intro old hold
    rw [hnew] at hold
    cases hold
  have hgood : FitsCreate c →
      Has (create repo c configId createdAt) (c.asked configId createdAt) := by
    intro hc
    have hrepeat : orCount c.repeatIntervalMinutes 30 = c.repeatIntervalMinutes :=
      if_neg hc.interval.1
    rw [create, hconfig, hrepeat]
    exact save_has hrange (fits_create_iff.mpr hc) hcreated
  refine ⟨⟨?_, fun hc => (hgood hc).read_back hrange (fits_create_iff.mpr hc)⟩, hgood⟩
  intro hback
  rw [create, hconfig] at hback
  have hrangeRead : InRange { c.asked configId createdAt with
      repeatIntervalMinutes := orCount c.repeatIntervalMinutes 30 } :=
    ⟨hrange.toast, hrange.alarm, hrange.trigger⟩
  rcases save_read_back hrangeRead hcreated with ⟨hsame, -⟩ | ⟨hread, halarm, hrepeat⟩
  · rw [hsame, readBack, hnew] at hback
    cases hback
  · have heq := Option.some.inj (hread.symm.trans hback)
    rw [← fits_create_iff]
    refine fits_of_layers (congrArg NotificationConfig.description heq).symm
      (congrArg NotificationConfig.minSeverity heq).symm
      (congrArg NotificationConfig.repeatIntervalMinutes heq).symm ?_ halarm
    rw [← heq]
    exact hrepeat

/-- The id of the policy stays. -/
theorem intended_config_id (edits : List Edit) :
    (intended c configId createdAt edits).configId = configId := by
  rw [intended]
  induction edits using List.reverseRecOn with
  | nil => rfl
  | append_singleton edits e ih =>
      rw [List.foldl_append, List.foldl_cons, List.foldl_nil]
      cases e with
      | update u => exact ih
      | expire => exact ih

theorem step_spec {config : NotificationConfig} (h : Has repo config) (hrange : InRange config)
    (hfits : Fits config) (e : Edit) :
    (readBack (step config.configId repo e).db config.configId = some (e.apply config) ↔ e.Fits) ∧
    (e.Fits → Has (step config.configId repo e) (e.apply config) ∧ InRange (e.apply config) ∧
      Fits (e.apply config)) := by
  cases e with
  | update u =>
      obtain ⟨hread, hhas⟩ := update_spec (u := u) h hrange hfits
      exact ⟨hread, fun hu => ⟨hhas hu, in_range_asked hrange, (fits_asked hfits).mpr hu⟩⟩
  | expire =>
      refine ⟨⟨fun _ => trivial, fun _ => h.read_back hrange hfits⟩, fun _ => ⟨⟨h.stored, ?_⟩,
        hrange, hfits⟩⟩
      intro data hdata
      simp only [step, Edit.apply, Option.mem_def] at hdata
      simp at hdata

theorem has_after (createdAt : ℚ) (hnew : repo.db.get? configId = none) (hcreate : FitsCreate c)
    (edits : List Edit) (hedits : ∀ e ∈ edits, e.Fits) :
    Has (after repo c configId createdAt edits) (intended c configId createdAt edits) ∧
      InRange (intended c configId createdAt edits) ∧
      Fits (intended c configId createdAt edits) := by
  induction edits using List.reverseRecOn with
  | nil =>
      exact ⟨(create_spec hnew).2 hcreate, in_range_create c configId createdAt,
        fits_create_iff.mpr hcreate⟩
  | append_singleton edits e ih =>
      obtain ⟨hhas, hrange, hfits⟩ := ih fun e he => hedits e (List.mem_append_left _ he)
      have hstep := (step_spec hhas hrange hfits e).2 (hedits e (by simp))
      rw [intended_config_id] at hstep
      rw [after, intended, List.foldl_append, List.foldl_append]
      exact hstep

/-- A policy is read back as the requests have made it, after its creation and after every edit, if
and only if all of them can be stored as they are. -/
theorem policies_survive (repo : Repository) (c : NotificationConfigCreate) {configId : String}
    (hnew : repo.db.get? configId = none) (createdAt : ℚ) (edits : List Edit) :
    (∀ done, done <+: edits → readBack (after repo c configId createdAt done).db configId =
        some (intended c configId createdAt done)) ↔
      FitsCreate c ∧ ∀ e ∈ edits, e.Fits := by
  induction edits using List.reverseRecOn with
  | nil =>
      constructor
      · intro h
        exact ⟨(create_spec hnew).1.mp (h [] (List.prefix_refl _)), fun e he => by cases he⟩
      · rintro ⟨hcreate, -⟩ done hdone
        rw [List.prefix_nil.mp hdone]
        exact (create_spec hnew).1.mpr hcreate
  | append_singleton edits e ih =>
      have hlast : FitsCreate c → (∀ e ∈ edits, e.Fits) →
          (readBack (after repo c configId createdAt (edits ++ [e])).db configId =
            some (intended c configId createdAt (edits ++ [e])) ↔ e.Fits) := by
        intro hcreate hedits
        obtain ⟨hhas, hrange, hfits⟩ := has_after createdAt hnew hcreate edits hedits
        have hstep := (step_spec hhas hrange hfits e).1
        rw [intended_config_id] at hstep
        rw [after, intended, List.foldl_append, List.foldl_append]
        exact hstep
      simp only [List.prefix_concat_iff, ih, List.mem_append, List.mem_singleton, or_imp,
        forall_and, forall_eq]
      constructor
      · rintro ⟨hread, hcreate, hedits⟩
        exact ⟨hcreate, hedits, (hlast hcreate hedits).mp hread⟩
      · rintro ⟨hcreate, hedits, he⟩
        exact ⟨(hlast hcreate hedits).mpr he, hcreate, hedits⟩

/-- A policy with an interval between two notifications. -/
def pagerCreate (repeatIntervalMinutes : Nat) : NotificationConfigCreate where
  name := "pager"
  description := some "night shift"
  minSeverity := some "critical"
  metricSources := ["gpu", ""]
  repeatIntervalMinutes := repeatIntervalMinutes
  name_length := by decide
  description_length := by decide
  toast_range := by decide
  rule_ids_text := by simp
  min_alarm_pos := Nat.one_pos

/-- A policy is created, and turned off after its dictionary has left the cache. -/
theorem policies_survive_disabled :
    (∅ : Dict String ConfigRow).get? "p" = none ∧
      ∀ done, done <+: [.expire, .update { enabled := some false }] →
        readBack (after { db := ∅ } (pagerCreate 5) "p" 0 done).db "p" =
          some (intended (pagerCreate 5) "p" 0 done) := by
  refine ⟨rfl, (policies_survive { db := ∅ } (pagerCreate 5) rfl 0 _).mpr
    ⟨⟨by decide, ?_, by decide,
    by decide⟩, ?_⟩⟩
  · intro text htext
    cases htext
    decide
  · intro e he
    simp only [List.mem_cons, List.not_mem_nil, or_false] at he
    rcases he with rfl | rfl
    · trivial
    · refine ⟨by decide, ?_, ?_, ?_⟩
      · exact fun text htext => nomatch htext
      · exact fun n hn => nomatch hn
      · exact fun n hn => nomatch hn

/-- A policy without a rate limit is read back as one with a limit of thirty minutes. -/
theorem no_rate_limit_lost : ¬ ∀ (repo : Repository) (c : NotificationConfigCreate)
    (configId : String) (createdAt : ℚ) (edits : List Edit), repo.db.get? configId = none →
    ∀ done, done <+: edits → readBack (after repo c configId createdAt done).db configId =
      some (intended c configId createdAt done) := by
  intro h
  have hread := h { db := ∅ } (pagerCreate 0) "p" 0 [] rfl [] (List.prefix_refl _)
  revert hread
  decide +kernel

end Survival

end SystemsManager.Alarms.Policies
