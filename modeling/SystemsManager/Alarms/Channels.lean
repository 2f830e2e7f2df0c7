import Mathlib.Data.Rat.Defs
import SystemsManager.Python.DictUpdate

/-!
# Notification channels, their cache and a failing write

A channel is read from the cached dictionary, or from its row. An update writes its fields into the
very dictionary that the cache holds, before the channel is saved, so that a write that fails leaves
the new fields there. Read `failed_update_unnoticed_iff`: no later call notices a failed update if
and only if the channel was not cached or the update changes nothing. What the cache drops, and
when, is left open. Times are kept as the instants that their texts stand for.
-/

namespace SystemsManager.Alarms.Channels

open Python

section Models

/-- `ChannelType` -/
inductive ChannelType where
  | toast
  | sms
  | email
  | webhook
  | discord
  | webpush
  deriving DecidableEq

/-- `ChannelType(...).value` -/
def ChannelType.value : ChannelType → String
  | .toast => "toast"
  | .sms => "sms"
  | .email => "email"
  | .webhook => "webhook"
  | .discord => "discord"
  | .webpush => "webpush"

/-- `ChannelType(value)` -/
def ChannelType.ofValue (value : String) : Option ChannelType :=
  [.toast, .sms, .email, .webhook, .discord, .webpush].find? fun channelType : ChannelType =>
    channelType.value == value

theorem ChannelType.of_value (channelType : ChannelType) :
    ofValue channelType.value = some channelType := by
  cases channelType <;> decide

/-- `ToastConfig` -/
structure ToastConfig where
  enabled : Bool := true
  deriving DecidableEq

/-- `SmsConfig` -/
structure SmsConfig where
  enabled : Bool := true
  toNumber : String
  deriving DecidableEq

/-- `EmailConfig` -/
structure EmailConfig where
  enabled : Bool := true
  toEmail : String
  subjectPrefix : String := "[ALARM]"
  deriving DecidableEq

/-- `WebhookConfig` -/
structure WebhookConfig where
  enabled : Bool := true
  url : String
  method : String := "POST"
  headers : List (String × String) := []
  secret : Option String := none
  deriving DecidableEq

/-- `DiscordConfig` -/
structure DiscordConfig where
  enabled : Bool := true
  webhookUrl : String
  username : Option String := none
  avatarUrl : Option String := none
  deriving DecidableEq

/-- `WebPushConfig` -/
structure WebPushConfig where
  enabled : Bool := true
  url : String := ""
  token : Option String := none
  verifyTls : Bool := true
  deriving DecidableEq

/-- `ChannelSpecificConfig` -/
structure ChannelSpecificConfig where
  toast : Option ToastConfig := none
  sms : Option SmsConfig := none
  email : Option EmailConfig := none
  webhook : Option WebhookConfig := none
  discord : Option DiscordConfig := none
  webpush : Option WebPushConfig := none
  deriving DecidableEq

/-- `NotificationChannel`. Ids are UUIDs in their canonical form. -/
structure NotificationChannel where
  channelId : String
  name : String
  description : Option String
  channelType : ChannelType
  config : ChannelSpecificConfig
  enabled : Bool
  ruleIds : List String
  createdAt : ℚ
  lastSentAt : Option ℚ
  sendCount : ℕ
  failCount : ℕ
  deriving DecidableEq

/-- `NotificationChannelCreate`, validated -/
structure NotificationChannelCreate where
  name : String
  description : Option String := none
  channelType : ChannelType
  config : ChannelSpecificConfig
  enabled : Bool := true
  ruleIds : List String := []
  name_length : 1 ≤ name.length ∧ name.length ≤ 255
  description_length : ∀ text ∈ description, text.length ≤ 1000

/-- `to_channel`, with the id that `uuid4` gives -/
def NotificationChannelCreate.toChannel (c : NotificationChannelCreate)
    (channelId : String) (now : ℚ) :
    NotificationChannel where
  channelId := channelId
  name := c.name
  description := c.description
  channelType := c.channelType
  config := c.config
  enabled := c.enabled
  ruleIds := c.ruleIds
  createdAt := now
  lastSentAt := none
  sendCount := 0
  failCount := 0

/-- `NotificationChannelUpdate`: `None` leaves a field as it is. -/
structure NotificationChannelUpdate where
  name : Option String := none
  description : Option String := none
  channelType : Option ChannelType := none
  config : Option ChannelSpecificConfig := none
  enabled : Option Bool := none
  ruleIds : Option (List String) := none

/-- Each field that the update gives is the one that the channel has. -/
structure NotificationChannelUpdate.ChangesNothing (u : NotificationChannelUpdate)
    (channel : NotificationChannel) : Prop where
  name : ∀ name ∈ u.name, name = channel.name
  description : ∀ text ∈ u.description, some text = channel.description
  channelType : ∀ channelType ∈ u.channelType, channelType = channel.channelType
  config : ∀ config ∈ u.config, config = channel.config
  enabled : ∀ enabled ∈ u.enabled, enabled = channel.enabled
  ruleIds : ∀ ruleIds ∈ u.ruleIds, ruleIds = channel.ruleIds

end Models

section Layers

/-- A channel as a dictionary. The type is its text, which need not be one of the types. -/
structure ChannelDict where
  channelId : String
  channelType : String
  name : String
  description : Option String
  config : ChannelSpecificConfig
  enabled : Bool
  ruleIds : List String
  createdAt : ℚ
  lastSentAt : Option ℚ
  sendCount : ℕ
  failCount : ℕ
  deriving DecidableEq

/-- `to_dict` -/
def toDict (channel : NotificationChannel) : ChannelDict where
  channelId := channel.channelId
  channelType := channel.channelType.value
  name := channel.name
  description := channel.description
  config := channel.config
  enabled := channel.enabled
  ruleIds := channel.ruleIds
  createdAt := channel.createdAt
  lastSentAt := channel.lastSentAt
  sendCount := channel.sendCount
  failCount := channel.failCount

/-- `_dict_to_channel`: a type that is not known is read as a toast. -/
def dictToChannel (data : ChannelDict) : NotificationChannel where
  channelId := data.channelId
  name := data.name
  description := data.description
  channelType := (ChannelType.ofValue data.channelType).getD .toast
  config := data.config
  enabled := data.enabled
  ruleIds := data.ruleIds
  createdAt := data.createdAt
  lastSentAt := data.lastSentAt
  sendCount := data.sendCount
  failCount := data.failCount

/-- The fields of an update that are not `None`, written into a dictionary. -/
def ChannelDict.assign (data : ChannelDict) (u : NotificationChannelUpdate) : ChannelDict :=
  { data with
    name := u.name.getD data.name
    description := u.description.or data.description
    channelType := (u.channelType.map ChannelType.value).getD data.channelType
    config := u.config.getD data.config
    enabled := u.enabled.getD data.enabled
    ruleIds := u.ruleIds.getD data.ruleIds }

/-- `ch.get("description") or None` -/
def orNone (text : Option String) : Option String := text.filter (· != "")

/-- The rows of the channels, each as the dictionary that `_row_to_channel` makes of it. -/
abbrev ChannelRows := Dict String ChannelDict

/-- `write_channel`: a row that is there keeps its time of creation. -/
def writeChannel (rows : ChannelRows) (ch : ChannelDict) : ChannelRows :=
  rows.set ch.channelId
    { ch with
      description := orNone ch.description
      createdAt := ((rows.get? ch.channelId).map ChannelDict.createdAt).getD ch.createdAt }

end Layers

/-- `NotificationRepository`: the cached dictionaries under the ids of their channels, and the rows
where there is a database. -/
structure Repository where
  cache : Dict String ChannelDict
  settingsDb : Option ChannelRows

/-- What a call returns, or that it raises. -/
inductive Answer where
  | channel (channel : Option NotificationChannel)
  | channels (channels : List NotificationChannel)
  | deleted (found : Bool)
  | done
  | raised
  deriving DecidableEq

namespace Repository

variable (repo : Repository)

/-- The dictionary is in the cache. -/
def hold (channelId : String) (data : ChannelDict) : Repository :=
  { repo with cache := repo.cache.set channelId data }

/-- `_save_channel`; the write fails or not. -/
def saveChannel (channel : NotificationChannel) (fails : Bool) : Option Repository :=
  match repo.settingsDb with
  | none => some repo
  | some rows =>
      if fails then none else some
        { repo with settingsDb := some (writeChannel rows (toDict channel)) }

/-- The row of a channel. -/
def row (channelId : String) : Option ChannelDict :=
  repo.settingsDb.bind fun rows => rows.get? channelId

/-- `create` -/
def create (channel : NotificationChannel) (fails : Bool) : Repository × Answer :=
  match repo.saveChannel channel fails with
  | none => (repo, .raised)
  | some repo => (repo.hold channel.channelId (toDict channel), .channel (some channel))

/-- `get_by_id` -/
def getById (channelId : String) : Repository × Answer := match repo.cache.get? channelId with
  | some cached => (repo, .channel (some (dictToChannel cached)))
  | none => match repo.row channelId with
    | none => (repo, .channel none)
    | some item => (repo.hold channelId item, .channel (some (dictToChannel item)))

/-- The end of `update_channel` and of `update`: the channel is saved and the dictionary cached. -/
def saveAndHold (channelId : String) (data : ChannelDict) (fails : Bool) : Repository × Answer :=
  match repo.saveChannel (dictToChannel data) fails with
  | none => (repo, .raised)
  | some repo => (repo.hold channelId data, .channel (some (dictToChannel data)))

/-- `update`. The fields are written into the dictionary that the cache holds. -/
def update (channelId : String) (u : NotificationChannelUpdate) (fails : Bool) :
    Repository × Answer :=
  match repo.cache.get? channelId with
  | none => (repo, .channel none)
  | some data => (repo.hold channelId (data.assign u)).saveAndHold channelId (data.assign u) fails

/-- `update_channel` for an id; the dictionary of a row is a new one. -/
def updateChannel (channelId : String) (u : NotificationChannelUpdate) (fails : Bool) :
    Repository × Answer :=
  match repo.cache.get? channelId with
  | some data => (repo.hold channelId (data.assign u)).saveAndHold channelId (data.assign u) fails
  | none => match repo.row channelId with
    | none => (repo, .channel none)
    | some item => repo.saveAndHold channelId (item.assign u) fails

/-- `delete` -/
def delete (channelId : String) : Repository × Answer :=
  ({ repo with cache := repo.cache.erase channelId }, .deleted (repo.cache.get? channelId).isSome)

/-- `delete_channel` for an id; a deletion that fails in the database is logged. -/
def deleteChannel (channelId : String) (fails : Bool) : Repository × Answer :=
  ({ cache := repo.cache.erase channelId
     settingsDb := if fails then repo.settingsDb else repo.settingsDb.map fun rows =>
       rows.erase channelId },
    .deleted ((repo.cache.get? channelId).isSome || (!fails && (repo.row channelId).isSome)))

/-- `list_channels` -/
def listChannels : Repository × Answer := match repo.settingsDb with
  | none => (repo, .channels [])
  | some rows =>
      ({ repo with cache := repo.cache.update rows },
        .channels (rows.items.map fun item => dictToChannel item.2))

/-- `get_all` -/
def getAll (enabledOnly : Bool) : Repository × Answer := match repo.settingsDb with
  | none => (repo, .channels [])
  | some rows =>
      (repo, .channels ((rows.items.map fun item => dictToChannel item.2).filter fun channel =>
        !enabledOnly || channel.enabled))

/-- The counters of a dictionary after a delivery. -/
def bumped (data : ChannelDict) (success : Bool) (now : ℚ) : ChannelDict :=
  if success then { data with sendCount := data.sendCount + 1, lastSentAt := some now }
  else { data with failCount := data.failCount + 1 }

/-- `_bump_channel_counters`; a write that fails is logged. -/
def bumpChannelCounters (channelId : String) (success : Bool) (now : ℚ) (fails : Bool) :
    Repository × Answer :=
  match repo.settingsDb with
  | none => (repo, .done)
  | some rows => match rows.get? channelId with
    | none => (repo, .done)
    | some data =>
        if fails then (repo, .done)
        else
          ({ cache := repo.cache.set channelId (bumped data success now)
             settingsDb := some (writeChannel rows (bumped data success now)) }, .done)

end Repository

/-- A call of the repository, with whether its write fails, or the loss of an entry of the cache. -/
inductive Call where
  | create (payload : NotificationChannelCreate) (channelId : String) (now : ℚ) (fails : Bool)
  | getById (channelId : String)
  | getChannel (channelId : String)
  | update (channelId : String) (u : NotificationChannelUpdate) (fails : Bool)
  | updateChannel (channelId : String) (u : NotificationChannelUpdate) (fails : Bool)
  | delete (channelId : String)
  | deleteChannel (channelId : String) (fails : Bool)
  | listChannels
  | getAll (enabledOnly : Bool)
  | bumpChannelCounters (channelId : String) (success : Bool) (now : ℚ) (fails : Bool)
  | drop (channelId : String)

section Calls

-- `uuid.UUID(text)` as the canonical form of the id, where the text is one
variable (parseUuid : String → Option String)

/-- A call: `get_channel`, `update_channel` and `delete_channel` take a text. -/
def Repository.call (repo : Repository) : Call → Repository × Answer
  | .create payload channelId now fails => repo.create (payload.toChannel channelId now) fails
  | .getById channelId => repo.getById channelId
  | .getChannel channelId => match parseUuid channelId with
    | none => (repo, .channel none)
    | some uid => repo.getById uid
  | .update channelId u fails => repo.update channelId u fails
  | .updateChannel channelId u fails => match parseUuid channelId with
    | none => (repo, .channel none)
    | some uid => repo.updateChannel uid u fails
  | .delete channelId => repo.delete channelId
  | .deleteChannel channelId fails => match parseUuid channelId with
    | none => (repo, .deleted false)
    | some uid => repo.deleteChannel uid fails
  | .listChannels => repo.listChannels
  | .getAll enabledOnly => repo.getAll enabledOnly
  | .bumpChannelCounters channelId success now fails =>
    repo.bumpChannelCounters channelId success now fails
  | .drop channelId => ({ repo with cache := repo.cache.erase channelId }, .done)

/-- What some calls answer, one after the other. -/
def Repository.answers (repo : Repository) : List Call → List Answer
  | [] => []
  | call :: calls => (repo.call parseUuid call).2 :: (repo.call parseUuid call).1.answers calls

/-- The channel and the fields that a call of `update` or `update_channel` is for. -/
def Call.updates : Call → Option (String × NotificationChannelUpdate)
  | .update channelId u _ => some (channelId, u)
  | .updateChannel channelId u _ => (parseUuid channelId).map fun uid => (uid, u)
  | _ => none

end Calls

section Alike

/-- The channel with the fields of an update. -/
def NotificationChannel.updated (channel : NotificationChannel) (u : NotificationChannelUpdate) :
    NotificationChannel :=
  { channel with
    name := u.name.getD channel.name
    description := u.description.or channel.description
    channelType := u.channelType.getD channel.channelType
    config := u.config.getD channel.config
    enabled := u.enabled.getD channel.enabled
    ruleIds := u.ruleIds.getD channel.ruleIds }

theorem dict_to_channel_assign (data : ChannelDict) (u : NotificationChannelUpdate) :
    dictToChannel (data.assign u) = (dictToChannel data).updated u := by
  unfold dictToChannel ChannelDict.assign NotificationChannel.updated
  cases htype : u.channelType with
  | none => rfl
  | some channelType =>
      dsimp only [Option.map_some, Option.getD_some]
      rw [ChannelType.of_value, Option.getD_some]

theorem dict_to_channel_to_dict (channel : NotificationChannel) :
    dictToChannel (toDict channel) = channel := by
  unfold dictToChannel toDict
  dsimp only
  rw [ChannelType.of_value, Option.getD_some]

/-- A creation ends as an update does. -/
theorem create_eq (repo : Repository) (channel : NotificationChannel) (fails : Bool) :
    repo.create channel fails = repo.saveAndHold channel.channelId (toDict channel) fails := by
  unfold Repository.create Repository.saveAndHold
  rw [dict_to_channel_to_dict]

theorem get_d_eq_iff {α : Type} (o : Option α) (x : α) : o.getD x = x ↔ ∀ y ∈ o, y = x := by
  cases o with
  | none => exact ⟨fun _ y hy => (by cases hy), fun _ => rfl⟩
  | some y => exact ⟨fun h z hz => (Option.mem_some_iff.mp hz) ▸ h, fun h => h y rfl⟩

/-- So for an optional text. -/
theorem or_eq_iff (o x : Option String) : o.or x = x ↔ ∀ y ∈ o, some y = x := by
  cases o with
  | none => exact ⟨fun _ y hy => (by cases hy), fun _ => rfl⟩
  | some y => exact ⟨fun h z hz => (Option.mem_some_iff.mp hz) ▸ h, fun h => h y rfl⟩

theorem updated_eq_iff (channel : NotificationChannel) (u : NotificationChannelUpdate) :
    channel.updated u = channel ↔ u.ChangesNothing channel := by
  constructor
  · intro h
    exact ⟨(get_d_eq_iff _ _).mp (congrArg NotificationChannel.name h),
      (or_eq_iff _ _).mp (congrArg NotificationChannel.description h),
      (get_d_eq_iff _ _).mp (congrArg NotificationChannel.channelType h),
      (get_d_eq_iff _ _).mp (congrArg NotificationChannel.config h),
      (get_d_eq_iff _ _).mp (congrArg NotificationChannel.enabled h),
      (get_d_eq_iff _ _).mp (congrArg NotificationChannel.ruleIds h)⟩
  · rintro ⟨hname, hdescription, htype, hconfig, henabled, hrules⟩
    unfold NotificationChannel.updated
    rw [(get_d_eq_iff _ _).mpr hname, (or_eq_iff _ _).mpr hdescription,
      (get_d_eq_iff _ _).mpr htype,
      (get_d_eq_iff _ _).mpr hconfig, (get_d_eq_iff _ _).mpr henabled,
        (get_d_eq_iff _ _).mpr hrules]

/-- Repositories with the same rows whose cached dictionaries are read as the same channels. -/
structure Alike (first second : Repository) : Prop where
  settingsDb : first.settingsDb = second.settingsDb
  cache : ∀ key, (first.cache.get? key).map dictToChannel =
    (second.cache.get? key).map dictToChannel

/-- Answers that agree, from repositories that are alike afterwards. -/
def Agree (first second : Repository × Answer) : Prop := first.2 = second.2 ∧ Alike first.1 second.1

variable {first second : Repository}

theorem Alike.hold (h : Alike first second) (channelId : String) {data other : ChannelDict}
    (hsame : dictToChannel data = dictToChannel other) :
    Alike (first.hold channelId data) (second.hold channelId other) := by
  refine ⟨h.settingsDb, fun key => ?_⟩
  unfold Repository.hold
  dsimp only
  rw [Dict.get?_set, Dict.get?_set]
  split
  · exact congrArg some hsame
  · exact h.cache key

theorem Alike.erase (h : Alike first second) (channelId : String) :
    Alike { first with cache := first.cache.erase channelId }
      { second with cache := second.cache.erase channelId } := by
  refine ⟨h.settingsDb, fun key => ?_⟩
  dsimp only
  rw [Dict.get?_erase, Dict.get?_erase]
  split
  · rfl
  · exact h.cache key

theorem Alike.cached (h : Alike first second) (key : String) :
    (first.cache.get? key = none ∧ second.cache.get? key = none) ∨
      ∃ data other, first.cache.get? key = some data ∧ second.cache.get? key = some other ∧
        dictToChannel data = dictToChannel other := by
  have hkey := h.cache key
  cases hfirst : first.cache.get? key with
  | none =>
      rw [hfirst] at hkey
      exact Or.inl ⟨rfl, Option.map_eq_none_iff.mp hkey.symm⟩
  | some data =>
      rw [hfirst] at hkey
      obtain ⟨other, hother, hsame⟩ := Option.map_eq_some_iff.mp hkey.symm
      exact Or.inr ⟨data, other, rfl, hother, hsame.symm⟩

theorem Alike.row (h : Alike first second) (key : String) : first.row key = second.row key := by
  unfold Repository.row
  rw [h.settingsDb]

theorem Alike.saveAndHold (h : Alike first second) (channelId : String) {data other : ChannelDict}
    (hsame : dictToChannel data = dictToChannel other) (fails : Bool) :
    Agree (first.saveAndHold channelId data fails) (second.saveAndHold channelId other fails) := by
  have hdb := h.settingsDb
  unfold Repository.saveAndHold Repository.saveChannel
  rw [← hdb, ← hsame]
  cases first.settingsDb with
  | none => exact ⟨rfl, h.hold channelId hsame⟩
  | some rows =>
      cases fails with
      | true => exact ⟨rfl, h⟩
      | false =>
          have hsaved : Alike
              { first with settingsDb := some (writeChannel rows (toDict (dictToChannel data))) }
              { second with
                settingsDb := some (writeChannel rows (toDict (dictToChannel data))) } :=
            ⟨rfl, h.cache⟩
          exact ⟨rfl, hsaved.hold channelId hsame⟩

theorem Alike.assignAndHold (h : Alike first second) (channelId : String) {data other : ChannelDict}
    (hsame : dictToChannel data = dictToChannel other) (u : NotificationChannelUpdate)
    (fails : Bool) :
    Agree ((first.hold channelId (data.assign u)).saveAndHold channelId (data.assign u) fails)
      ((second.hold channelId (other.assign u)).saveAndHold channelId (other.assign u) fails) := by
  have hassigned : dictToChannel (data.assign u) = dictToChannel (other.assign u) := by
    rw [dict_to_channel_assign, dict_to_channel_assign, hsame]
  exact (h.hold channelId hassigned).saveAndHold channelId hassigned fails

theorem Alike.getById (h : Alike first second) (channelId : String) :
    Agree (first.getById channelId) (second.getById channelId) := by
  have hrow := h.row channelId
  unfold Repository.getById
  rcases h.cached channelId with ⟨hfirst, hsecond⟩ | ⟨data, other, hfirst, hsecond, hsame⟩
  · rw [hfirst, hsecond, ← hrow]
    cases first.row channelId with
    | none => exact ⟨rfl, h⟩
    | some item => exact ⟨rfl, h.hold channelId rfl⟩
  · rw [hfirst, hsecond]
    exact ⟨by dsimp only; rw [hsame], h⟩

theorem Alike.update (h : Alike first second) (channelId : String) (u : NotificationChannelUpdate)
    (fails : Bool) : Agree (first.update channelId u fails) (second.update channelId u fails) := by
  unfold Repository.update
  rcases h.cached channelId with ⟨hfirst, hsecond⟩ | ⟨data, other, hfirst, hsecond, hsame⟩
  · rw [hfirst, hsecond]
    exact ⟨rfl, h⟩
  · rw [hfirst, hsecond]
    exact h.assignAndHold channelId hsame u fails

theorem Alike.updateChannel (h : Alike first second) (channelId : String)
    (u : NotificationChannelUpdate)
    (fails : Bool) :
    Agree (first.updateChannel channelId u fails) (second.updateChannel channelId u fails) := by
  have hrow := h.row channelId
  unfold Repository.updateChannel
  rcases h.cached channelId with ⟨hfirst, hsecond⟩ | ⟨data, other, hfirst, hsecond, hsame⟩
  · rw [hfirst, hsecond, ← hrow]
    cases first.row channelId with
    | none => exact ⟨rfl, h⟩
    | some item => exact h.saveAndHold channelId rfl fails
  · rw [hfirst, hsecond]
    exact h.assignAndHold channelId hsame u fails

theorem Alike.deleteChannel (h : Alike first second) (channelId : String) (fails : Bool) :
    Agree (first.deleteChannel channelId fails) (second.deleteChannel channelId fails) := by
  have hfound : (first.cache.get? channelId).isSome = (second.cache.get? channelId).isSome := by
    rw [← Option.isSome_map (f := dictToChannel), h.cache, Option.isSome_map]
  unfold Repository.deleteChannel
  refine ⟨by dsimp only; rw [hfound, h.row], ?_, (h.erase channelId).cache⟩
  dsimp only
  rw [h.settingsDb]

theorem Alike.listChannels (h : Alike first second) :
    Agree first.listChannels second.listChannels := by
  have hdb := h.settingsDb
  unfold Repository.listChannels
  rw [← hdb]
  cases first.settingsDb with
  | none => exact ⟨rfl, h⟩
  | some rows =>
      refine ⟨rfl, rfl, fun key => ?_⟩
      dsimp only
      rw [Dict.get?_update, Dict.get?_update]
      cases rows.get? key with
      | none => exact h.cache key
      | some item => rfl

theorem Alike.bumpChannelCounters (h : Alike first second) (channelId : String)
    (success : Bool) (now : ℚ)
    (fails : Bool) : Agree (first.bumpChannelCounters channelId success now fails)
      (second.bumpChannelCounters channelId success now fails) := by
  have hdb := h.settingsDb
  unfold Repository.bumpChannelCounters
  rw [← hdb]
  cases first.settingsDb with
  | none => exact ⟨rfl, h⟩
  | some rows =>
      dsimp only
      cases rows.get? channelId with
      | none => exact ⟨rfl, h⟩
      | some data =>
          cases fails with
          | true => exact ⟨rfl, h⟩
          | false => exact ⟨rfl, rfl, (h.hold channelId rfl).cache⟩

variable (parseUuid : String → Option String)

theorem Alike.call (h : Alike first second) (call : Call) :
    Agree (first.call parseUuid call) (second.call parseUuid call) := by
  cases call with
  | create payload channelId now fails =>
      show Agree (first.create _ fails) (second.create _ fails)
      rw [create_eq, create_eq]
      exact h.saveAndHold _ rfl fails
  | getById channelId => exact h.getById channelId
  | getChannel channelId =>
      unfold Repository.call
      dsimp only
      cases parseUuid channelId with
      | none => exact ⟨rfl, h⟩
      | some uid => exact h.getById uid
  | update channelId u fails => exact h.update channelId u fails
  | updateChannel channelId u fails =>
      unfold Repository.call
      dsimp only
      cases parseUuid channelId with
      | none => exact ⟨rfl, h⟩
      | some uid => exact h.updateChannel uid u fails
  | delete channelId =>
      refine ⟨?_, h.erase channelId⟩
      show Answer.deleted (first.cache.get? channelId).isSome =
        .deleted (second.cache.get? channelId).isSome
      rw [← Option.isSome_map (f := dictToChannel), h.cache, Option.isSome_map]
  | deleteChannel channelId fails =>
      unfold Repository.call
      dsimp only
      cases parseUuid channelId with
      | none => exact ⟨rfl, h⟩
      | some uid => exact h.deleteChannel uid fails
  | listChannels => exact h.listChannels
  | getAll enabledOnly =>
      have hdb := h.settingsDb
      unfold Repository.call Repository.getAll
      dsimp only
      rw [← hdb]
      cases first.settingsDb with
      | none => exact ⟨rfl, h⟩
      | some rows => exact ⟨rfl, h⟩
  | bumpChannelCounters channelId success now fails =>
      exact h.bumpChannelCounters channelId success now fails
  | drop channelId => exact ⟨rfl, h.erase channelId⟩

/-- And so all calls to come. -/
theorem Alike.answers (h : Alike first second) (calls : List Call) :
    first.answers parseUuid calls = second.answers parseUuid calls := by
  induction calls generalizing first second with
  | nil => rfl
  | cons call calls ih =>
      obtain ⟨hanswer, hafter⟩ := h.call parseUuid call
      unfold Repository.answers
      rw [hanswer, ih hafter]

end Alike

section Failures

variable (parseUuid : String → Option String)

theorem raised_save {repo : Repository} {channelId : String} {data : ChannelDict} {fails : Bool}
    (h : (repo.saveAndHold channelId data fails).2 = .raised) :
    (repo.saveAndHold channelId data fails).1 = repo := by
  unfold Repository.saveAndHold at h ⊢
  cases hsave : repo.saveChannel (dictToChannel data) fails with
  | none => rfl
  | some saved =>
      rw [hsave] at h
      cases h

theorem raised_update {repo : Repository} {call : Call} {channelId : String}
    {u : NotificationChannelUpdate} (hcall : call.updates parseUuid = some (channelId, u))
    (hraised : (repo.call parseUuid call).2 = .raised) :
    (repo.call parseUuid call).1 = match repo.cache.get? channelId with
      | none => repo
      | some data => repo.hold channelId (data.assign u) := by
  cases call with
  | update uid v fails =>
      cases hcall
      change (repo.update channelId u fails).2 = .raised at hraised
      show (repo.update channelId u fails).1 = _
      unfold Repository.update at hraised ⊢
      cases hcached : repo.cache.get? channelId with
      | none => rfl
      | some data =>
          rw [hcached] at hraised
          exact raised_save hraised
  | updateChannel text v fails =>
      obtain ⟨uid, hparse, heq⟩ := Option.map_eq_some_iff.mp hcall
      cases heq
      unfold Repository.call at hraised ⊢
      dsimp only at hraised ⊢
      rw [hparse] at hraised ⊢
      dsimp only at hraised ⊢
      unfold Repository.updateChannel at hraised ⊢
      cases hcached : repo.cache.get? channelId with
      | none =>
          rw [hcached] at hraised
          dsimp only at hraised ⊢
          cases hrow : repo.row channelId with
          | none => rfl
          | some item =>
              rw [hrow] at hraised
              exact raised_save hraised
      | some data =>
          rw [hcached] at hraised
          exact raised_save hraised
  | _ => cases hcall

/-- After an update whose write has failed, all later calls answer as if it had not been made, if
and only if the channel was not in the cache or the update changes nothing. -/
theorem failed_update_unnoticed_iff (repo : Repository) (call : Call) (channelId : String)
    (u : NotificationChannelUpdate) (hcall : call.updates parseUuid = some (channelId, u))
    (hraised : (repo.call parseUuid call).2 = .raised) :
    (∀ later, (repo.call parseUuid call).1.answers parseUuid later = repo.answers parseUuid later) ↔
      ∀ data ∈ repo.cache.get? channelId, u.ChangesNothing (dictToChannel data) := by
  rw [raised_update parseUuid hcall hraised]
  cases hcached : repo.cache.get? channelId with
  | none => exact ⟨fun _ data hdata => (by cases hdata), fun _ later => rfl⟩
  | some data =>
      dsimp only
      constructor
      · intro h other hother
        cases hother
        -- the next read of the channel already tells
        have hread := h [.getById channelId]
        simp only [Repository.answers, Repository.call, Repository.getById, Repository.hold,
          Dict.get?_set, if_true, hcached, List.cons.injEq, Answer.channel.injEq,
          Option.some.injEq, and_true] at hread
        rw [dict_to_channel_assign] at hread
        exact (updated_eq_iff _ _).mp hread
      · intro h later
        have halike : Alike (repo.hold channelId (data.assign u)) repo := by
          refine ⟨rfl, fun key => ?_⟩
          unfold Repository.hold
          dsimp only
          rw [Dict.get?_set]
          split
          · rename_i hkey
            subst hkey
            rw [hcached, Option.map_some, Option.map_some, dict_to_channel_assign,
              (updated_eq_iff _ _).mpr (h data rfl)]
          · rfl
        exact halike.answers parseUuid later

/-- A channel to create. -/
def toastCreate : NotificationChannelCreate where
  name := "before"
  channelType := .toast
  config := {}
  name_length := by decide
  description_length := by decide

/-- The repository after its creation, where the cache may have dropped it since. -/
def oneChannel (cached : Bool) : Repository :=
  let created := ((⟨Dict.empty, some Dict.empty⟩ : Repository).call some
    (.create toastCreate "u" 0 false)).1
  if cached then created else (created.call some (.drop "u")).1

/-- An update of its name whose write fails. -/
def failedRename : Call := .updateChannel "u" { name := some "after" } true

/-- It goes unnoticed where the channel is not cached. -/
theorem uncached_unnoticed : ((oneChannel false).call some failedRename).2 = .raised ∧
    ∀ later, ((oneChannel false).call some failedRename).1.answers some later =
      (oneChannel false).answers some later :=
  ⟨by decide, (failed_update_unnoticed_iff some (oneChannel false) failedRename "u"
    { name := some "after" } rfl (by decide)).mpr fun _ hdata => (by cases hdata)⟩

/-- Where it is cached, the channel is read with its new name from then on, although its row has the
old one. -/
theorem cached_rename_noticed : ((oneChannel true).call some failedRename).2 = .raised ∧
    ((oneChannel true).call some failedRename).1.settingsDb = (oneChannel true).settingsDb ∧
    ((oneChannel true).call some failedRename).1.answers some [.getChannel "u"] ≠
      (oneChannel true).answers some [.getChannel "u"] := by
  refine ⟨by decide, rfl, by decide⟩

end Failures

end SystemsManager.Alarms.Channels
