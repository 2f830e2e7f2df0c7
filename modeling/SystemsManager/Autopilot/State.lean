import SystemsManager.Python.Value

/-!
# The desired state of the autopilot

`validateState` is the gate that every stored desired state has passed
(`backend/autopilot.py`, `validate_state`). It reads a JSON object, coerces the numbers,
rejects duplicate entries and fills in defaults. `Valid` collects what the planner may rely
on afterwards, and `validate_state_valid` is the only fact the rest of the development uses:
every accepted state satisfies `Valid`.
-/

namespace SystemsManager.Autopilot

open Python

/-- `_PROVIDERS`, which is also the set of registered `ProviderSpec`s. -/
inductive Provider where
  | llama
  | vllm
  | lms
  deriving DecidableEq, Repr

namespace Provider

/-- The name a provider is registered under. -/
def name : Provider → String
  | .llama => "llama"
  | .vllm => "vllm"
  | .lms => "lms"

/-- The provider with this name. -/
def ofName? (text : String) : Option Provider :=
  [llama, vllm, lms].find? fun provider => provider.name == text

/-- `ProviderSpec.single_resident`: a load displaces the host's resident model. -/
def singleResident : Provider → Bool
  | .llama => true
  | .vllm => true
  | .lms => false

/-- `ProviderSpec.unloadable`: the agent has an unload route. -/
def unloadable : Provider → Bool
  | .llama => true
  | .vllm => false
  | .lms => true

/-- `providers.single_resident_names()`, in registration order. -/
def singleResidentNames : List Provider := [llama, lms, vllm].filter singleResident

end Provider

/-- An entry's `failover` mode. -/
inductive Failover where
  | semi
  | auto
  deriving DecidableEq, Repr

/-- An entry's `rank_by` objective. -/
inductive RankBy where
  | speed
  | energy
  | capacity
  deriving DecidableEq, Repr

/-- The autoscale object of an entry. Its values are merged in without a check. -/
structure Autoscale where
  targetSaturation : Json
  upWindowS : Json
  downWindowS : Json

/-- A desired model on a provider. -/
structure Entry where
  model : String
  provider : Provider
  placement : String
  failover : Failover
  priority : Int
  minReplicas : Int
  maxReplicas : Int
  rankBy : RankBy
  sizeMb : Option Int
  autoscale : Option Autoscale

/-- The autopilot's desired state. -/
structure Desired where
  enabled : Bool
  protectUnmanaged : Bool
  entries : List Entry
  speedMaxAgeDays : Option Int

/-- The messages of the `ValueError`s that `validate_state` raises, with the values that their
texts quote. -/
inductive StateError where
  /-- `bad {field} {val!r}` -/
  | bad (field : String) (value : Json)
  /-- `speed_max_age_days must be >= 1, got {age}` -/
  | speedMaxAge (age : Int)
  /-- `entries must be a list` -/
  | entriesNotList
  /-- `each entry must be an object` -/
  | entryNotObject
  /-- `entry missing model` -/
  | missingModel
  /-- `unknown provider {prov!r}` -/
  | unknownProvider (value : Json)
  /-- `duplicate entry {model}/{prov}` -/
  | duplicate (model : String) (provider : Provider)
  /-- `bad replica range {mn}..{mx}` -/
  | replicaRange (minReplicas maxReplicas : Int)
  /-- `size_mb must be >= 1, got {mb}` -/
  | sizeMb (mb : Int)

/-- What `validate_state` may raise. -/
abbrev Raises := Except (Exc StateError)

/-- `SPEED_MAX_AGE_DAYS` -/
def SPEED_MAX_AGE_DAYS : Int := 30

/-- `_AUTOSCALE_DEFAULTS` -/
def autoscaleDefaults : Autoscale where
  targetSaturation := .float (.finite (3 / 4))
  upWindowS := .int 120
  downWindowS := .int 900

/-- `_coerce_int`: type and value errors of `int` name the field, an overflow passes through. -/
def coerceInt (value : Json) (field : String) : Raises Int :=
  match value.toInt with
  | .ok n => pure n
  | .error .overflowError => throw .overflowError
  | .error _ => throw (.valueError (.bad field value))

/-- `_validate_placement`: `"auto"` or a non-empty agent id. -/
def validatePlacement (value : Json) : Raises String :=
  match value with
  | .str s => if strip s = "" then throw (.valueError (.bad "placement" value)) else pure (strip s)
  | _ => throw (.valueError (.bad "placement" value))

/-- `(e.get("model") or "").strip()`: a truthy value that is no string has no `strip`. -/
def modelName (value : Json) : Raises String :=
  match value with
  | .str s => pure (strip s)
  | _ => if value.truthy then throw .attributeError else pure ""

/-- The entry's `provider`, which must be one of `_PROVIDERS`. -/
def providerOf (value : Json) : Raises Provider :=
  match value.str?.bind Provider.ofName? with
  | some provider => pure provider
  | none => throw (.valueError (.unknownProvider value))

/-- The entry's `failover`, which must be `semi` or `auto`. -/
def failoverOf (value : Json) : Raises Failover :=
  match value.str? with
  | some "semi" => pure .semi
  | some "auto" => pure .auto
  | _ => throw (.valueError (.bad "failover" value))

/-- The entry's `rank_by`, `speed` when absent or falsy. -/
def rankByOf (value : Json) : Raises RankBy :=
  if !value.truthy then pure .speed
  else match value.str? with
    | some "speed" => pure .speed
    | some "energy" => pure .energy
    | some "capacity" => pure .capacity
    | _ => throw (.valueError (.bad "rank_by" value))

/-- The entry's declared `size_mb`, if any. -/
def sizeMbOf (value : Json) : Raises (Option Int) :=
  if value.blank then pure none
  else do
    let mb ← coerceInt value "size_mb"
    if mb < 1 then throw (.valueError (.sizeMb mb))
    pure (some mb)

/-- The entry's autoscale object, kept only when the replica range is not a single number. -/
def autoscaleOf (value : Json) (mn mx : Int) : Raises (Option Autoscale) :=
  if mx > mn then
    match value with
    | .null => pure (some autoscaleDefaults)
    | .dict items => pure (some
        { targetSaturation := getItemD items "target_saturation" autoscaleDefaults.targetSaturation
          upWindowS := getItemD items "up_window_s" autoscaleDefaults.upWindowS
          downWindowS := getItemD items "down_window_s" autoscaleDefaults.downWindowS })
    | _ => throw (.valueError (.bad "autoscale" value))
  else pure none

/-- The body of the loop over `entries`, given the entries accepted so far. -/
def validateEntry (accepted : List Entry) (raw : Json) : Raises Entry :=
  match raw with
  | .dict e => do
      let model ← modelName (getItem e "model")
      let prov := getItem e "provider"
      if model = "" then throw (.valueError .missingModel)
      let provider ← providerOf prov
      -- `seen` holds the (model, provider) pairs of the entries accepted so far.
      if accepted.any fun other => other.model == model && other.provider == provider then
        throw (.valueError (.duplicate model provider))
      let failover ← failoverOf (getItemD e "failover" (.str "semi"))
      let mn ← coerceInt (getItemD e "min_replicas" (.int 1)) "min_replicas"
      let mx ← coerceInt (getItemD e "max_replicas" (.int mn)) "max_replicas"
      if mn < 1 || mx < mn then throw (.valueError (.replicaRange mn mx))
      let rankBy ← rankByOf (getItem e "rank_by")
      let placement ← validatePlacement (getItemD e "placement" (.str "auto"))
      let priority ← coerceInt (getItemD e "priority" (.int 100)) "priority"
      let sizeMb ← sizeMbOf (getItem e "size_mb")
      let autoscale ← autoscaleOf (getItem e "autoscale") mn mx
      pure
        { model, provider, placement, failover, priority, minReplicas := mn, maxReplicas := mx,
          rankBy, sizeMb, autoscale }
  | _ => throw (.valueError .entryNotObject)

/-- The loop over `entries`. -/
def validateEntries (accepted : List Entry) : List Json → Raises (List Entry)
  | [] => pure accepted
  | raw :: rest => do
      let entry ← validateEntry accepted raw
      validateEntries (accepted ++ [entry]) rest

/-- The submitted `speed_max_age_days`, or its default when absent. -/
def speedMaxAgeOf (value : Json) : Raises Int :=
  if value.blank then pure SPEED_MAX_AGE_DAYS else coerceInt value "speed_max_age_days"

/-- The submitted `entries`; a falsy value stands for no entries. -/
def entriesOf (value : Json) : Raises (List Json) :=
  match value with
  | .list values => pure values
  | _ => if value.truthy then throw (.valueError .entriesNotList) else pure []

/-- `validate_state` on the items of a JSON object. -/
def validateState (raw : List (String × Json)) : Raises Desired := do
  let age ← speedMaxAgeOf (getItem raw "speed_max_age_days")
  if age < 1 then throw (.valueError (.speedMaxAge age))
  let values ← entriesOf (getItem raw "entries")
  let entries ← validateEntries [] values
  pure
    { enabled := (getItem raw "enabled").truthy
      protectUnmanaged := (getItem raw "protect_unmanaged").truthy
      entries, speedMaxAgeDays := some age }

/-- What an accepted entry satisfies. -/
structure Entry.Valid (entry : Entry) : Prop where
  model_ne : entry.model ≠ ""
  min_pos : 1 ≤ entry.minReplicas
  min_le_max : entry.minReplicas ≤ entry.maxReplicas
  placement_ne : entry.placement ≠ ""
  autoscale_isSome : entry.autoscale.isSome = true ↔ entry.minReplicas < entry.maxReplicas

/-- Two entries name the same model on the same provider. -/
def Entry.Same (entry other : Entry) : Prop :=
  entry.model = other.model ∧ entry.provider = other.provider

/-- What the planner relies on in a desired state. -/
structure Desired.Valid (desired : Desired) : Prop where
  entry_valid : ∀ entry ∈ desired.entries, entry.Valid
  distinct : desired.entries.Pairwise fun entry other => ¬ entry.Same other

theorem autoscale_of_isSome {value : Json} {mn mx : Int} {autoscale : Option Autoscale}
    (h : autoscaleOf value mn mx = .ok autoscale) : autoscale.isSome = true ↔ mn < mx := by
  unfold autoscaleOf at h
  by_cases hlt : mx > mn
  · rw [if_pos hlt] at h
    cases value <;> cases h <;> simpa using hlt
  · rw [if_neg hlt] at h
    cases h
    simpa using hlt

/-- A pinned host is named by a non-empty string. -/
theorem validate_placement_ne {value : Json} {placement : String}
    (h : validatePlacement value = .ok placement) : placement ≠ "" := by
  unfold validatePlacement at h
  cases value with
  | str s =>
      simp only at h
      split at h
      · cases h
      · cases h
        assumption
  | _ => cases h

theorem validate_entry_valid {accepted : List Entry} {raw : Json} {entry : Entry}
    (h : validateEntry accepted raw = .ok entry) :
    entry.Valid ∧ ∀ other ∈ accepted, ¬ other.Same entry := by
  unfold validateEntry at h
  cases raw with
  | dict e =>
      simp only [bind_eq_ok, check_eq_ok, pure_eq_ok] at h
      obtain ⟨model, -, hmodel, provider, -, hnew, failover, -, mn, -, mx, -, hrange, rankBy, -,
        placement, hplacement, priority, -, sizeMb, -, autoscale, hauto, rfl⟩ := h
      simp only [Bool.or_eq_true, decide_eq_true_eq, not_or, not_lt] at hrange
      refine ⟨⟨hmodel, hrange.1, hrange.2, validate_placement_ne hplacement,
        autoscale_of_isSome hauto⟩, ?_⟩
      rintro other hother ⟨hsame, hprov⟩
      apply hnew
      rw [List.any_eq_true]
      exact ⟨other, hother, by simpa using ⟨hsame, hprov⟩⟩
  | _ => cases h

theorem validate_entries_valid {accepted : List Entry} {raws : List Json} {entries : List Entry}
    (hvalid : ∀ entry ∈ accepted, entry.Valid)
    (hdistinct : accepted.Pairwise fun entry other => ¬ entry.Same other)
    (h : validateEntries accepted raws = .ok entries) :
    (∀ entry ∈ entries, entry.Valid) ∧
      entries.Pairwise fun entry other => ¬ entry.Same other := by
  induction raws generalizing accepted with
  | nil =>
      cases h
      exact ⟨hvalid, hdistinct⟩
  | cons raw rest ih =>
      rw [validateEntries, bind_eq_ok] at h
      obtain ⟨entry, hentry, hrest⟩ := h
      obtain ⟨hnew, hother⟩ := validate_entry_valid hentry
      refine ih ?_ ?_ hrest
      · intro e he
        rcases List.mem_append.mp he with he | he
        · exact hvalid e he
        · rw [List.mem_singleton.mp he]
          exact hnew
      · refine List.pairwise_append.mpr ⟨hdistinct, List.pairwise_singleton _ _, ?_⟩
        intro e he f hf
        rw [List.mem_singleton.mp hf]
        exact hother e he

/-- Every state that `validate_state` accepts is valid. -/
theorem validate_state_valid {raw : List (String × Json)} {desired : Desired}
    (h : validateState raw = .ok desired) : desired.Valid := by
  simp only [validateState, bind_eq_ok, check_eq_ok, pure_eq_ok] at h
  obtain ⟨age, -, -, values, -, entries, hentries, rfl⟩ := h
  obtain ⟨hvalid, hdistinct⟩ := validate_entries_valid (by simp) List.Pairwise.nil hentries
  exact ⟨hvalid, hdistinct⟩

end SystemsManager.Autopilot
