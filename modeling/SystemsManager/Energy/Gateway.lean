import SystemsManager.Energy.Counters
import Mathlib.Algebra.Order.Group.Int
import Mathlib.Algebra.Order.Monoid.Prod
import Mathlib.Data.List.DropRight

/-!
# Gateway tokens over whole runs

The gateway records the usage of every proxied response in cumulative counters per agent and
model, and the accumulator differences them like any other counter. A counter that appears in the
store already has its first usage in it, and the first tick that sees a counter only takes it as
the baseline. Read `gateway_tokens` first: at every tick, what has been attributed to an agent is
what was recorded for it, less each model's usage up to the first tick that saw the model; the two
agree only where nothing was recorded.
-/

namespace SystemsManager.Energy

open Python

section Record

/-- The counters of `gateway_usage`, as (generated, prompt) pairs. -/
structure UsageStore where
  counters : Dict String (Int × Int) := ∅
  modelCounters : Dict String (Dict String (Int × Int)) := ∅

/-- `int(value or 0)`. -/
def intOrZero (value : Json) : Except (Exc Unit) Int := if value.truthy then value.toInt else pure 0

/-- The tokens a response adds, `none` when it adds nothing or a number cannot be read. -/
def usageTokens (promptTokens completionTokens : Json) : Option (Int × Int) :=
  match intOrZero promptTokens, intOrZero completionTokens with
  | .ok p, .ok g => if p ≤ 0 ∧ g ≤ 0 then none else some (max 0 g, max 0 p)
  | _, _ => none

/-- `record`. -/
def record (store : UsageStore) (agentId : String) (promptTokens completionTokens : Json)
    (model : Option String) : UsageStore :=
  match usageTokens promptTokens completionTokens with
  | none => store
  | some tokens =>
      if agentId = "" then store else
        { counters := store.counters.tally agentId tokens
          modelCounters := store.modelCounters.set agentId
            ((store.modelCounters.getD agentId ∅).tally (model.getD "") tokens) }

/-- A pair of cumulative counts as the accumulator reads it. -/
def asCounter (tokens : Int × Int) : Counter := ⟨some tokens.1, some tokens.2⟩

/-- `counters()`. -/
def countersView (store : UsageStore) : Dict String Counter :=
  store.counters.mapItems fun _ tokens => asCounter tokens

/-- `model_counters()`. -/
def modelCountersView (store : UsageStore) : Dict String (Dict String Counter) :=
  store.modelCounters.mapItems fun _ models => models.mapItems fun _ tokens => asCounter tokens

end Record

section Runs

/-- What happens in a run: the gateway records a response, or the accumulator ticks on the
buckets of the agents. -/
inductive Event where
  | record (agentId : String) (promptTokens completionTokens : Json) (model : Option String)
  | tick (buckets : Dict String (Dict String Bucket)) (now : ℚ)

/-- The gateway's store and the accumulator's memory. -/
structure GatewaySystem where
  store : UsageStore := {}
  agents : Agents := ∅

/-- What a tick reads when the accumulator is wired to the gateway. -/
def wired (store : UsageStore) (buckets : Dict String (Dict String Bucket)) (now : ℚ) :
    TickInput :=
  { views :=
      { store := some buckets
        usage := .value (countersView store)
        usageModels := .value (modelCountersView store) }
    now := now }

/-- One event. -/
def step (cases : CaseMap) (sys : GatewaySystem) : Event → GatewaySystem
  | .record agentId p g model => { sys with store := record sys.store agentId p g model }
  | .tick buckets now => { sys with agents := after cases sys.agents (wired sys.store buckets now) }

/-- A gateway counter of one model. -/
def CounterKey.ofModel : CounterKey → Bool
  | .gatewayModel _ => true
  | _ => false

/-- The tokens of the gateway counters among the deltas of a tick. -/
def gatewayTokens (deltas : Dict CounterKey (Int × Int)) : Int × Int :=
  ((deltas.items.filter fun item => item.1.ofModel).map Prod.snd).sum

/-- The tokens that an event attributes to an agent from its gateway counters. -/
def attributedBy (cases : CaseMap) (agentId : String) (sys : GatewaySystem) : Event → Int × Int
  | .record .. => 0
  | .tick buckets now =>
      gatewayTokens (deltasOf cases (wired sys.store buckets now) agentId sys.agents)

/-- The tokens that a run attributes to an agent from its gateway counters. -/
def gatewayAttributed (cases : CaseMap) (agentId : String) : GatewaySystem → List Event → Int × Int
  | _, [] => 0
  | sys, event :: rest =>
      attributedBy cases agentId sys event +
        gatewayAttributed cases agentId (step cases sys event) rest

/-- The model and the tokens of an event that records usage of an agent. -/
def usageOf (agentId : String) : Event → Option (String × (Int × Int))
  | .record other p g model =>
      if other = agentId ∧ agentId ≠ "" then
        (usageTokens p g).map fun tokens => (model.getD "", tokens)
      else none
  | .tick _ _ => none

/-- The event is a tick. -/
def Event.isTick : Event → Bool
  | .record .. => false
  | .tick .. => true

/-- The events up to the last tick. -/
def upToLastTick (events : List Event) : List Event := events.rdropWhile fun event => !event.isTick

/-- The events record usage of a model. -/
def records (agentId model : String) (events : List Event) : Bool :=
  events.any fun event => (usageOf agentId event).any fun usage => usage.1 = model

/-- A tick has seen the model's counter. -/
def seenByTick (agentId model : String) (before : List Event) : Bool :=
  records agentId model (upToLastTick before)

/-- The tokens recorded for an agent. -/
def recorded (agentId : String) (events : List Event) : Int × Int :=
  (events.map fun event => ((usageOf agentId event).map Prod.snd).getD 0).sum

/-- The tokens of an event that come after a tick has seen the model's counter. -/
def countedBy (agentId : String) (before : List Event) (event : Event) : Int × Int :=
  match usageOf agentId event with
  | some usage => if seenByTick agentId usage.1 before then usage.2 else 0
  | none => 0

/-- The tokens recorded for an agent, without each model's usage up to the first tick that saw
the model. -/
def counted (agentId : String) : List Event → List Event → Int × Int
  | _, [] => 0
  | before, event :: rest =>
      countedBy agentId before event + counted agentId (before ++ [event]) rest

/-- The agent has a fresh bucket at every tick. -/
def AlwaysFresh (agentId : String) (events : List Event) : Prop :=
  ∀ buckets now, Event.tick buckets now ∈ events → fresh now (buckets.getD agentId ∅) ≠ []

end Runs

section Merged

theorem get?_extract_counters_model (sample : Sample) (model : String) :
    (extractCounters sample).get? (.gatewayModel model) = none := by
  have hadd : ∀ (out : Dict CounterKey Counter) (key : CounterKey) (counter : Option Counter),
      key ≠ .gatewayModel model →
      (addBlock out key counter).get? (.gatewayModel model) = out.get? (.gatewayModel model) := by
    intro out key counter hkey
    cases counter with
    | none => rfl
    | some counter => simp [addBlock, hkey.symm]
  unfold extractCounters
  rw [hadd _ _ _ (by simp), hadd _ _ _ (by simp)]
  rfl

/-- The counters of the servers have no key of a gateway model. -/
theorem get?_merge_counters_model (samples : List (Sample × ℚ)) (model : String) :
    (mergeCounters samples).get? (.gatewayModel model) = none := by
  have hinner : ∀ (items : List (CounterKey × Counter)) (merged : Dict CounterKey Counter),
      (∀ item ∈ items, item.1 ≠ .gatewayModel model) →
      (items.foldl mergeCounter merged).get? (.gatewayModel model) =
        merged.get? (.gatewayModel model) := by
    intro items
    induction items with
    | nil => simp
    | cons item rest ih =>
        intro merged hitems
        rw [List.foldl_cons, ih _ fun other hother => hitems other (by simp [hother])]
        unfold mergeCounter
        rw [Dict.get?_set, if_neg (hitems item (by simp)).symm]
  have houter : ∀ merged : Dict CounterKey Counter,
      (samples.foldl (fun merged entry =>
        (extractCounters entry.1).items.foldl mergeCounter merged) merged).get?
          (.gatewayModel model) = merged.get? (.gatewayModel model) := by
    induction samples with
    | nil => simp
    | cons entry rest ih =>
        intro merged
        rw [List.foldl_cons, ih, hinner]
        intro item hitem hkey
        have hget : (extractCounters entry.1).get? item.1 = some item.2 :=
          Dict.mem_items_iff.mp hitem
        rw [hkey, get?_extract_counters_model] at hget
        cases hget
  exact houter ∅

theorem items_foldl_set_models (items : List (String × Counter))
    (hnodup : (items.map Prod.fst).Nodup) (merged : Dict CounterKey Counter)
    (hnew : ∀ item ∈ items, CounterKey.gatewayModel item.1 ∉ merged.items.map Prod.fst) :
    (items.foldl (fun merged item => merged.set (.gatewayModel item.1) item.2) merged).items =
      merged.items ++ items.map fun item => (.gatewayModel item.1, item.2) := by
  induction items generalizing merged with
  | nil => simp
  | cons item rest ih =>
      rw [List.map_cons, List.nodup_cons] at hnodup
      have hset : (merged.set (.gatewayModel item.1) item.2).items =
          merged.items ++ [(.gatewayModel item.1, item.2)] :=
        set_items_of_not_mem _ (hnew item (by simp))
      rw [List.foldl_cons, ih hnodup.2, hset, List.map_cons, List.append_assoc,
        List.singleton_append]
      intro other hother
      rw [hset, List.map_append, List.mem_append, not_or]
      refine ⟨hnew other (by simp [hother]), ?_⟩
      have hne : other.1 ≠ item.1 := fun e => hnodup.1 (e ▸ List.mem_map_of_mem hother)
      simpa using hne

/-- The counters of one agent in the gateway's store. -/
def modelsOf (store : UsageStore) (agentId : String) : Dict String (Int × Int) :=
  store.modelCounters.getD agentId ∅

/-- A wired tick merges the counters of the servers and, after them, those of the store. -/
theorem items_merged_wired (store : UsageStore) (buckets : Dict String (Dict String Bucket))
    (now : ℚ) (agentId : String) (own : Dict String Bucket) :
    (mergedAt (wired store buckets now).views now agentId own).items =
      (mergeCounters (fresh now own)).items ++
        (modelsOf store agentId).items.map fun item =>
          (.gatewayModel item.1, asCounter item.2) := by
  have hmodels : gatewayModels (wired store buckets now).views agentId =
      some ((modelsOf store agentId).mapItems fun _ tokens => asCounter tokens) := by
    unfold gatewayModels wired modelCountersView modelsOf Dict.getD
    dsimp only
    rw [Dict.get?_map_items]
    cases store.modelCounters.get? agentId <;> rfl
  unfold mergedAt addGateway
  rw [hmodels]
  dsimp only
  rw [items_foldl_set_models _ (Dict.nodup _)]
  · show _ ++ ((modelsOf store agentId).items.map _).map _ = _
    rw [List.map_map]
    rfl
  · intro item _ hmem
    have := Dict.mem_keys_iff.mp hmem
    rw [get?_merge_counters_model] at this
    cases this

theorem get?_merged_wired (store : UsageStore) (buckets : Dict String (Dict String Bucket))
    (now : ℚ) (agentId : String) (own : Dict String Bucket) (model : String) :
    (mergedAt (wired store buckets now).views now agentId own).get? (.gatewayModel model) =
      ((modelsOf store agentId).get? model).map asCounter := by
  have hservers : (mergeCounters (fresh now own)).items.lookup (.gatewayModel model) = none :=
    get?_merge_counters_model _ model
  unfold Dict.get?
  rw [items_merged_wired, List.lookup_append, hservers, Option.none_or]
  induction (modelsOf store agentId).items with
  | nil => rfl
  | cons item rest ih =>
      rw [List.map_cons, lookup_items_cons, lookup_items_cons, ih]
      by_cases h : model = item.1 <;> simp [h]

/-- What a model's counter has grown by since its baseline. -/
def pending (counters : Dict CounterKey Counter) (model : String) (tokens : Int × Int) :
    Int × Int :=
  (grownBy counters (.gatewayModel model, asCounter tokens)).2

/-- The baselines of an agent. -/
def baselines (agents : Agents) (agentId : String) : Dict CounterKey Counter :=
  ((agents.get? agentId).getD {}).counters

variable {agentId : String}

/-- The servers' own counters are none of a model. -/
theorem filter_grown_servers (counters : Dict CounterKey Counter) (samples : List (Sample × ℚ)) :
    ((mergeCounters samples).items.map (grownBy counters)).filter (fun item => item.1.ofModel) =
      [] := by
  rw [List.filter_eq_nil_iff]
  intro item hitem
  obtain ⟨entry, hentry, rfl⟩ := List.mem_map.mp hitem
  have hget := Dict.mem_items_iff.mp hentry
  cases hkey : entry.1 with
  | gatewayModel model =>
      rw [hkey, get?_merge_counters_model] at hget
      cases hget
  | llama => simp [grownBy, hkey, CounterKey.ofModel]
  | vllm => simp [grownBy, hkey, CounterKey.ofModel]
  | gateway => simp [grownBy, hkey, CounterKey.ofModel]

/-- A wired tick for an agent with a fresh bucket attributes the gateway tokens that are pending. -/
theorem attributed_by_wired_tick (cases : CaseMap) (sys : GatewaySystem)
    (buckets : Dict String (Dict String Bucket)) (now : ℚ)
    (hfresh : fresh now (buckets.getD agentId ∅) ≠ []) :
    attributedBy cases agentId sys (.tick buckets now) =
      ((modelsOf sys.store agentId).mapItems (pending (baselines sys.agents agentId))).total := by
  have htick : agentTick cases (wired sys.store buckets now) agentId sys.agents =
      tickAgent cases (wired sys.store buckets now).views now agentId (buckets.getD agentId ∅)
        (sys.agents.get? agentId) := rfl
  obtain ⟨hdeltas, -, -⟩ := advance_spec (baselines sys.agents agentId)
    (mergedAt (wired sys.store buckets now).views now agentId (buckets.getD agentId ∅))
  show gatewayTokens (deltasOf cases (wired sys.store buckets now) agentId sys.agents) = _
  unfold deltasOf
  rw [htick]
  unfold tickAgent
  simp only [hfresh, if_false, Option.map_some, Option.getD_some]
  show ((List.filter _ (advance (baselines sys.agents agentId)
    (mergedAt _ _ _ _)).deltas.items).map Prod.snd).sum = _
  rw [hdeltas, grown, items_merged_wired, List.map_append, List.filter_append, List.map_append,
    List.sum_append, filter_grown_servers, List.map_nil, List.sum_nil, zero_add, List.map_map,
    List.filter_eq_self.mpr]
  · unfold Dict.total Dict.mapItems
    rw [List.map_map, List.map_map]
    rfl
  · intro item hitem
    obtain ⟨entry, _, rfl⟩ := List.mem_map.mp hitem
    rfl

/-- Every counter of the store becomes the baseline. -/
theorem baselines_of_wired_tick (cases : CaseMap) (sys : GatewaySystem)
    (buckets : Dict String (Dict String Bucket)) (now : ℚ)
    (hfresh : fresh now (buckets.getD agentId ∅) ≠ []) (model : String) :
    (baselines (step cases sys (.tick buckets now)).agents agentId).get? (.gatewayModel model) =
      match (modelsOf sys.store agentId).get? model with
      | some tokens => some (asCounter tokens)
      | none => (baselines sys.agents agentId).get? (.gatewayModel model) := by
  have htick : agentTick cases (wired sys.store buckets now) agentId sys.agents =
      tickAgent cases (wired sys.store buckets now).views now agentId (buckets.getD agentId ∅)
        (sys.agents.get? agentId) := rfl
  obtain ⟨-, -, hcounters⟩ := advance_spec (baselines sys.agents agentId)
    (mergedAt (wired sys.store buckets now).views now agentId (buckets.getD agentId ∅))
  -- the agent was seen at this very tick, so it is not evicted
  have hlast : now - now ≤ agentEvictS := by
    rw [sub_self]
    decide +kernel
  have hget := get?_after cases sys.agents (wired sys.store buckets now) agentId (by simp [wired])
  have hstate : stateOf cases (wired sys.store buckets now) agentId sys.agents =
      some { last := some now, counters := (advance (baselines sys.agents agentId)
        (mergedAt (wired sys.store buckets now).views now agentId
          (buckets.getD agentId ∅))).counters } := by
    unfold stateOf
    rw [htick]
    unfold tickAgent
    simp only [hfresh, if_false, Option.map_some, Option.some_or]
    rfl
  rw [hstate, Option.filter_some_pos (by simpa [wired] using hlast)] at hget
  have hbase : baselines (step cases sys (.tick buckets now)).agents agentId =
      (advance (baselines sys.agents agentId) (mergedAt (wired sys.store buckets now).views now
        agentId (buckets.getD agentId ∅))).counters := by
    show ((after cases sys.agents _).get? agentId |>.getD {}).counters = _
    rw [hget]
    rfl
  rw [hbase, hcounters, get?_merged_wired]
  cases (modelsOf sys.store agentId).get? model with
  | none => rfl
  | some tokens =>
      show some (rebased _ _ (asCounter tokens)) = some (asCounter tokens)
      unfold rebased asCounter
      dsimp only
      rw [counter_delta_some_snd, counter_delta_some_snd]

end Merged

section Invariant

variable {cases : CaseMap} {agentId : String}

theorem usage_of_record (other : String) (p g : Json) (model : Option String) :
    usageOf agentId (.record other p g model) =
      if other = agentId ∧ agentId ≠ "" then
        (usageTokens p g).map fun tokens => (model.getD "", tokens)
      else none := rfl

/-- A record adds its usage to the counter of its model. -/
theorem models_of_record (store : UsageStore) (agentId other : String) (p g : Json)
    (model : Option String) :
    modelsOf (record store other p g model) agentId =
      match usageOf agentId (.record other p g model) with
      | some usage => (modelsOf store agentId).tally usage.1 usage.2
      | none => modelsOf store agentId := by
  rw [usage_of_record]
  unfold record modelsOf
  cases usageTokens p g with
  | none => simp
  | some tokens =>
      by_cases hempty : other = ""
      · have hno : ¬ (other = agentId ∧ agentId ≠ "") := fun h => h.2 (h.1 ▸ hempty)
        rw [if_neg hno]
        simp [hempty]
      · by_cases hother : other = agentId
        · subst hother
          simp [hempty]
        · have hne : agentId ≠ other := fun e => hother e.symm
          simp [hempty, hother, hne]

/-- Recorded usage adds to at least one of the two counts. -/
theorem usage_tokens_pos {p g : Json} {tokens : Int × Int} (h : usageTokens p g = some tokens) :
    0 ≤ tokens ∧ tokens ≠ 0 := by
  unfold usageTokens at h
  split at h
  · split at h
    · cases h
    · rename_i hcounts
      cases h
      refine ⟨⟨le_max_left _ _, le_max_left _ _⟩, fun heq => hcounts ?_⟩
      obtain ⟨hg, hp⟩ := Prod.mk.inj heq
      exact ⟨max_eq_left_iff.mp hp, max_eq_left_iff.mp hg⟩
  · cases h

theorem usage_of_pos {event : Event} {usage : String × (Int × Int)}
    (h : usageOf agentId event = some usage) : 0 ≤ usage.2 ∧ usage.2 ≠ 0 := by
  cases event with
  | tick buckets now => cases h
  | record other p g model =>
      rw [usage_of_record] at h
      by_cases hown : other = agentId ∧ agentId ≠ ""
      · rw [if_pos hown] at h
        obtain ⟨tokens, htokens, rfl⟩ := Option.map_eq_some_iff.mp h
        exact usage_tokens_pos htokens
      · rw [if_neg hown] at h
        cases h

/-- The state after a run of events: which counters the store has, which of them have a baseline,
and that what is counted is what was attributed and what is pending. -/
structure GatewayInv (agentId : String) (before : List Event) (sys : GatewaySystem)
    (done : Int × Int) : Prop where
  stored : ∀ model, model ∈ (modelsOf sys.store agentId).keys ↔ records agentId model before = true
  based : ∀ model, seenByTick agentId model before = true →
    ∃ b, (baselines sys.agents agentId).get? (.gatewayModel model) = some (asCounter b) ∧
      b.1 ≤ ((modelsOf sys.store agentId).getD model 0).1 ∧
      b.2 ≤ ((modelsOf sys.store agentId).getD model 0).2
  unbased : ∀ model, seenByTick agentId model before = false →
    (baselines sys.agents agentId).get? (.gatewayModel model) = none
  balance : counted agentId [] before = done +
    ((modelsOf sys.store agentId).mapItems (pending (baselines sys.agents agentId))).total

theorem up_to_last_tick_concat (before : List Event) (event : Event) :
    upToLastTick (before ++ [event]) =
      if event.isTick then before ++ [event] else upToLastTick before := by
  unfold upToLastTick
  rw [List.rdropWhile_concat]
  cases event <;> rfl

theorem records_concat (model : String) (before : List Event) (event : Event) :
    records agentId model (before ++ [event]) =
      (records agentId model before ||
        (usageOf agentId event).any fun usage => usage.1 = model) := by
  unfold records
  rw [List.any_append]
  simp

theorem counted_concat (pre before : List Event) (event : Event) :
    counted agentId pre (before ++ [event]) =
      counted agentId pre before + countedBy agentId (pre ++ before) event := by
  induction before generalizing pre with
  | nil => simp [counted]
  | cons first rest ih =>
      rw [List.cons_append, counted, ih, counted, add_assoc, List.append_assoc,
        List.singleton_append]

theorem gateway_attributed_concat (sys : GatewaySystem) (before : List Event) (event : Event) :
    gatewayAttributed cases agentId sys (before ++ [event]) =
      gatewayAttributed cases agentId sys before +
        attributedBy cases agentId (before.foldl (step cases) sys) event := by
  induction before generalizing sys with
  | nil => simp [gatewayAttributed]
  | cons first rest ih =>
      rw [List.cons_append, gatewayAttributed, ih, gatewayAttributed, add_assoc,
        List.foldl_cons]

/-- Over a baseline that is no larger, the difference is pending. -/
theorem pending_of_based {counters : Dict CounterKey Counter} {model : String}
    {b tokens : Int × Int}
    (hget : counters.get? (.gatewayModel model) = some (asCounter b))
    (h1 : b.1 ≤ tokens.1) (h2 : b.2 ≤ tokens.2) : pending counters model tokens = tokens - b := by
  unfold pending grownBy Dict.getD
  rw [hget]
  dsimp only [asCounter, Option.getD_some]
  rw [counter_delta_known, counter_delta_known, if_pos h1, if_pos h2]
  rfl

/-- Nothing is pending of a counter without a baseline. -/
theorem pending_of_unbased {counters : Dict CounterKey Counter} {model : String}
    {tokens : Int × Int} (hget : counters.get? (.gatewayModel model) = none) :
    pending counters model tokens = 0 := by
  unfold pending grownBy Dict.getD
  rw [hget]
  rfl

theorem records_of_seen {before : List Event} {model : String}
    (hseen : seenByTick agentId model before = true) :
    records agentId model before = true := by
  unfold seenByTick records upToLastTick at hseen
  obtain ⟨event, hevent, husage⟩ := List.any_eq_true.mp hseen
  exact List.any_eq_true.mpr ⟨event, (List.rdropWhile_prefix _ _).subset hevent, husage⟩

/-- What is pending of a model grows by what is counted of a record of its usage. -/
theorem GatewayInv.pending_after_record {before : List Event} {sys : GatewaySystem}
    {done : Int × Int} (h : GatewayInv agentId before sys done) {event : Event}
    {usage : String × (Int × Int)} (husage : usageOf agentId event = some usage) :
    (((modelsOf sys.store agentId).get? usage.1).map
        (pending (baselines sys.agents agentId) usage.1)).getD 0 +
          countedBy agentId before event =
      pending (baselines sys.agents agentId) usage.1
        ((modelsOf sys.store agentId).getD usage.1 0 + usage.2) := by
  obtain ⟨hgen, hprompt⟩ : 0 ≤ usage.2.1 ∧ 0 ≤ usage.2.2 := (usage_of_pos husage).1
  rw [countedBy, husage]
  dsimp only
  cases hs : seenByTick agentId usage.1 before with
  | false =>
      have hget := h.unbased usage.1 hs
      rw [pending_of_unbased hget, if_neg (by simp), add_zero]
      cases (modelsOf sys.store agentId).get? usage.1 with
      | none => rfl
      | some tokens => exact pending_of_unbased hget
  | true =>
      obtain ⟨b, hget, h1, h2⟩ := h.based usage.1 hs
      obtain ⟨tokens, htokens⟩ := Dict.exists_get_of_mem_keys
        ((h.stored usage.1).mpr (records_of_seen hs))
      have hgetD : (modelsOf sys.store agentId).getD usage.1 0 = tokens := by
        simp [Dict.getD, htokens]
      rw [hgetD] at h1 h2 ⊢
      rw [if_pos rfl, htokens, Option.map_some, Option.getD_some, pending_of_based hget h1 h2,
        pending_of_based hget (by rw [Prod.fst_add]; omega) (by rw [Prod.snd_add]; omega)]
      exact sub_add_eq_add_sub _ _ _

/-- A record keeps the invariant. -/
theorem GatewayInv.record {before : List Event} {sys : GatewaySystem} {done : Int × Int}
    (h : GatewayInv agentId before sys done) (other : String) (p g : Json)
    (model : Option String) :
    GatewayInv agentId (before ++ [.record other p g model])
      (step cases sys (.record other p g model)) done := by
  have hmodels : modelsOf (step cases sys (.record other p g model)).store agentId = _ :=
    models_of_record sys.store agentId other p g model
  have hseen : ∀ m, seenByTick agentId m (before ++ [.record other p g model]) =
      seenByTick agentId m before := by
    intro m
    unfold seenByTick
    rw [up_to_last_tick_concat]
    rfl
  have hagents : (step cases sys (.record other p g model)).agents = sys.agents := rfl
  cases husage : usageOf agentId (.record other p g model) with
  | none =>
      rw [husage] at hmodels
      dsimp only at hmodels
      refine ⟨fun m => ?_, fun m hm => ?_, fun m hm => ?_, ?_⟩
      · rw [hmodels, records_concat, husage, h.stored m]
        simp
      · rw [hmodels, hagents]
        exact h.based m (hseen m ▸ hm)
      · rw [hagents]
        exact h.unbased m (hseen m ▸ hm)
      · rw [counted_concat, hmodels, hagents, h.balance, countedBy, husage, add_zero]
  | some usage =>
      rw [husage] at hmodels
      dsimp only at hmodels
      obtain ⟨hgen, hprompt⟩ : 0 ≤ usage.2.1 ∧ 0 ≤ usage.2.2 := (usage_of_pos husage).1
      refine ⟨fun m => ?_, fun m hm => ?_, fun m hm => ?_, ?_⟩
      · have hown : m = usage.1 ↔ ((some usage).any fun usage => usage.1 = m) = true := by
          rw [Option.any_some, decide_eq_true_eq]
          exact eq_comm
        rw [hmodels, records_concat, husage, Dict.mem_keys_tally, h.stored m, Bool.or_eq_true,
          hown, or_comm]
      · obtain ⟨b, hget, h1, h2⟩ := h.based m (hseen m ▸ hm)
        refine ⟨b, hget, ?_, ?_⟩
        · rw [hmodels, Dict.getD_tally, Prod.fst_add]
          split
          · omega
          · simpa using h1
        · rw [hmodels, Dict.getD_tally, Prod.snd_add]
          split
          · omega
          · simpa using h2
      · rw [hagents]
        exact h.unbased m (hseen m ▸ hm)
      · -- the counter of the model is written, and what is pending grows by what is counted
        have hset := Dict.total_map_items_set (modelsOf sys.store agentId)
          (pending (baselines sys.agents agentId)) usage.1
          ((modelsOf sys.store agentId).getD usage.1 0 + usage.2)
        have hold := h.pending_after_record husage
        rw [counted_concat, hmodels, hagents, h.balance, List.nil_append, add_assoc]
        congr 1
        apply add_right_cancel (b := (((modelsOf sys.store agentId).get? usage.1).map
            (pending (baselines sys.agents agentId) usage.1)).getD 0)
        rw [add_assoc, add_comm (countedBy _ _ _), hold]
        exact hset.symm

/-- A tick keeps the invariant, and attributes all that is pending. -/
theorem GatewayInv.tick {before : List Event} {sys : GatewaySystem} {done : Int × Int}
    (h : GatewayInv agentId before sys done) (buckets : Dict String (Dict String Bucket)) (now : ℚ)
    (hfresh : fresh now (buckets.getD agentId ∅) ≠ []) :
    GatewayInv agentId (before ++ [.tick buckets now]) (step cases sys (.tick buckets now))
      (done + attributedBy cases agentId sys (.tick buckets now)) ∧
    counted agentId [] before = done + attributedBy cases agentId sys (.tick buckets now) := by
  have hattributed := attributed_by_wired_tick cases sys buckets now hfresh
  have hbase := baselines_of_wired_tick cases sys buckets now hfresh
  have hstore : (step cases sys (.tick buckets now)).store = sys.store := rfl
  have hrecords : ∀ m, records agentId m (before ++ [.tick buckets now]) =
      records agentId m before := by
    intro m
    rw [records_concat]
    simp [usageOf]
  have hseen : ∀ m, seenByTick agentId m (before ++ [.tick buckets now]) =
      records agentId m before := by
    intro m
    unfold seenByTick
    rw [up_to_last_tick_concat]
    exact hrecords m
  have hcounted : counted agentId [] before =
      done + attributedBy cases agentId sys (.tick buckets now) := by
    rw [hattributed]
    exact h.balance
  -- a stored counter is its own baseline now
  have hstored : ∀ m tokens, (modelsOf sys.store agentId).get? m = some tokens →
      (baselines (step cases sys (.tick buckets now)).agents agentId).get? (.gatewayModel m) =
        some (asCounter tokens) := by
    intro m tokens htokens
    rw [hbase m, htokens]
  refine ⟨⟨fun m => ?_, fun m hm => ?_, fun m hm => ?_, ?_⟩, hcounted⟩
  · rw [hstore, hrecords]
    exact h.stored m
  · rw [hseen, ← h.stored m] at hm
    obtain ⟨tokens, htokens⟩ := Dict.exists_get_of_mem_keys hm
    have hgetD : (modelsOf sys.store agentId).getD m 0 = tokens := by simp [Dict.getD, htokens]
    refine ⟨tokens, hstored m tokens htokens, ?_, ?_⟩
    · rw [hstore, hgetD]
    · rw [hstore, hgetD]
  · rw [hseen] at hm
    have hnone : (modelsOf sys.store agentId).get? m = none := by
      rw [← Option.not_isSome_iff_eq_none, ← Dict.mem_keys_iff, h.stored m, hm]
      simp
    have hnever : seenByTick agentId m before = false := by
      rw [← Bool.not_eq_true]
      intro hs
      rw [records_of_seen hs] at hm
      cases hm
    rw [hbase m, hnone]
    exact h.unbased m hnever
  · rw [counted_concat, ← hcounted, hstore, countedBy]
    show _ + (0 : Int × Int) = _ + _
    congr 1
    symm
    apply List.sum_eq_zero
    intro x hx
    obtain ⟨item, hitem, rfl⟩ := List.mem_map.mp hx
    obtain ⟨entry, hentry, rfl⟩ := List.mem_map.mp hitem
    have hget := hstored entry.1 entry.2 (Dict.mem_items_iff.mp hentry)
    show pending _ entry.1 entry.2 = 0
    rw [pending_of_based hget le_rfl le_rfl, sub_self]

theorem gateway_inv_nil : GatewayInv agentId [] {} 0 := by
  refine ⟨fun model => ?_, fun model hm => ?_, fun model _ => rfl, rfl⟩
  · show model ∈ ([] : List String) ↔ _
    simp [records]
  · simp [seenByTick, upToLastTick, records] at hm

/-- The invariant holds after every run. -/
theorem gateway_inv (cases : CaseMap) (events : List Event) (hfresh : AlwaysFresh agentId events) :
    GatewayInv agentId events (events.foldl (step cases) {})
      (gatewayAttributed cases agentId {} events) := by
  induction events using List.reverseRecOn with
  | nil => exact gateway_inv_nil
  | append_singleton before event ih =>
      have hbefore := ih fun buckets now hin => hfresh buckets now (by simp [hin])
      rw [List.foldl_concat, gateway_attributed_concat]
      cases event with
      | record other p g model =>
          show GatewayInv _ _ _ (_ + (0 : Int × Int))
          rw [add_zero]
          exact hbefore.record other p g model
      | tick buckets now => exact (hbefore.tick buckets now (hfresh buckets now (by simp))).1

theorem counted_by_le (before : List Event) (event : Event) :
    countedBy agentId before event ≤ ((usageOf agentId event).map Prod.snd).getD 0 := by
  unfold countedBy
  cases h : usageOf agentId event with
  | none => exact le_rfl
  | some usage =>
      dsimp only [Option.map_some, Option.getD_some]
      split
      · exact le_rfl
      · exact (usage_of_pos h).1

theorem counted_nonneg (before events : List Event) : 0 ≤ counted agentId before events := by
  induction events generalizing before with
  | nil => exact le_rfl
  | cons event rest ih =>
      refine add_nonneg ?_ (ih _)
      unfold countedBy
      split
      · rename_i usage husage
        split
        · exact (usage_of_pos husage).1
        · exact le_rfl
      · exact le_rfl

/-- No more is counted than was recorded. -/
theorem counted_le_recorded (before events : List Event) :
    counted agentId before events ≤ recorded agentId events := by
  induction events generalizing before with
  | nil => exact le_rfl
  | cons event rest ih =>
      rw [counted, recorded, List.map_cons, List.sum_cons]
      exact add_le_add (counted_by_le before event) (ih _)

/-- The first usage of an agent is not counted, so that not all that was recorded is. -/
theorem counted_ne_recorded {before events : List Event}
    (hbefore : ∀ event ∈ before, usageOf agentId event = none)
    (hevents : ¬ ∀ event ∈ events, usageOf agentId event = none) :
    counted agentId before events ≠ recorded agentId events := by
  induction events generalizing before with
  | nil => exact absurd (fun _ hin => absurd hin List.not_mem_nil) hevents
  | cons event rest ih =>
      rw [counted, recorded, List.map_cons, List.sum_cons]
      intro heq
      obtain ⟨hfirst, hrest⟩ := (add_eq_add_iff_eq_and_eq (counted_by_le before event)
        (counted_le_recorded (before ++ [event]) rest)).mp heq
      cases husage : usageOf agentId event with
      | none =>
          refine ih ?_ (fun h => hevents fun other hin => ?_) hrest
          · intro other hin
            rcases List.mem_append.mp hin with hin | hin
            · exact hbefore other hin
            · rw [List.mem_singleton.mp hin, husage]
          · rcases List.mem_cons.mp hin with rfl | hin
            · exact husage
            · exact h other hin
      | some usage =>
          have hunseen : seenByTick agentId usage.1 before = false := by
            rw [← Bool.not_eq_true]
            intro hseen
            obtain ⟨other, hin, hany⟩ := List.any_eq_true.mp (records_of_seen hseen)
            rw [hbefore other hin] at hany
            cases hany
          unfold countedBy at hfirst
          simp only [husage, hunseen] at hfirst
          exact (usage_of_pos husage).2 hfirst.symm

theorem recorded_of_no_usage {events : List Event}
    (h : ∀ event ∈ events, usageOf agentId event = none) : recorded agentId events = 0 :=
  List.sum_eq_zero fun tokens hin => by
    obtain ⟨event, hevent, rfl⟩ := List.mem_map.mp hin
    rw [h event hevent]
    rfl

/-- What is counted is all that was recorded exactly when nothing was recorded. -/
theorem counted_eq_recorded_iff {events : List Event} :
    counted agentId [] events = recorded agentId events ↔
      ∀ event ∈ events, usageOf agentId event = none := by
  constructor
  · intro heq
    by_contra hsome
    exact counted_ne_recorded (fun _ hin => absurd hin List.not_mem_nil) hsome heq
  · intro hnone
    have hle : counted agentId [] events ≤ recorded agentId events := counted_le_recorded [] events
    have hge : 0 ≤ counted agentId [] events := counted_nonneg [] events
    rw [recorded_of_no_usage hnone] at hle ⊢
    exact le_antisymm hle hge

/-- At every tick of every run in which the agent always has a fresh bucket, the gateway tokens
attributed to it so far are those recorded for it, less each model's usage up to the first tick
that saw the model. They are all that was recorded only where nothing was recorded. -/
theorem gateway_tokens (cases : CaseMap) (agentId : String) (events : List Event)
    (buckets : Dict String (Dict String Bucket)) (now : ℚ)
    (hfresh : AlwaysFresh agentId (events ++ [.tick buckets now])) :
    gatewayAttributed cases agentId {} (events ++ [.tick buckets now]) =
        counted agentId [] events ∧
      (gatewayAttributed cases agentId {} (events ++ [.tick buckets now]) =
          recorded agentId events ↔
        ∀ event ∈ events, usageOf agentId event = none) := by
  have hinv := gateway_inv cases events fun b n hin => hfresh b n (by simp [hin])
  have hcounted : gatewayAttributed cases agentId {} (events ++ [.tick buckets now]) =
      counted agentId [] events := by
    rw [gateway_attributed_concat]
    exact (hinv.tick buckets now (hfresh buckets now (by simp))).2.symm
  refine ⟨hcounted, ?_⟩
  rw [hcounted]
  exact counted_eq_recorded_iff

/-- A bucket that is fresh at time 1000. -/
def oneBucket : Dict String (Dict String Bucket) :=
  Dict.empty.set "box" (Dict.empty.set "lms" ⟨some {}, 1000⟩)

theorem one_bucket_fresh {events : List Event}
    (h : ∀ event ∈ events, event.isTick = true →
      event = .tick oneBucket 1000 ∨ event = .tick oneBucket 1010) : AlwaysFresh "box" events := by
  have hfresh : (fresh 1000 (oneBucket.getD "box" ∅)).isEmpty = false ∧
      (fresh 1010 (oneBucket.getD "box" ∅)).isEmpty = false := by decide +kernel
  intro buckets now hin hnil
  rcases h _ hin rfl with heq | heq
  · cases heq
    rw [hnil] at hfresh
    cases hfresh.1
  · cases heq
    rw [hnil] at hfresh
    cases hfresh.2

/-- A model's first usage is in the counter when a tick first sees it, and is never attributed. -/
theorem first_usage_lost :
    ¬ ∀ (cases : CaseMap) (agentId : String) (events : List Event)
      (buckets : Dict String (Dict String Bucket)) (now : ℚ),
      AlwaysFresh agentId (events ++ [.tick buckets now]) →
      gatewayAttributed cases agentId {} (events ++ [.tick buckets now]) =
        recorded agentId events := by
  intro h
  have heq := h asciiCase "box" [.record "box" (.int 5) (.int 7) (some "m"), .tick oneBucket 1000]
    oneBucket 1010 (one_bucket_fresh (by simp [Event.isTick]))
  revert heq
  decide +kernel

/-- The usage after the first tick that saw the model is attributed. -/
theorem second_usage_attributed :
    gatewayAttributed asciiCase "box" {} ([.record "box" (.int 5) (.int 7) (some "m"),
      .tick oneBucket 1000, .record "box" (.int 1) (.int 2) (some "m")] ++
        [.tick oneBucket 1010]) = (2, 1) := by
  rw [(gateway_tokens _ _ _ _ _ (one_bucket_fresh (by simp [Event.isTick]))).1]
  decide +kernel

end Invariant

end SystemsManager.Energy
