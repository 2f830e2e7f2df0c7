import SystemsManager.Energy.Accumulator

/-!
# What the loop over the merged counters computes

The loop of `_tick_agent` writes the baselines it reads. Because no key is merged twice, each
turn still reads the baseline of before the tick: `advance_spec` gives the deltas, their sum and
the new baselines in terms of the old ones. `tick_column` then follows one column of one counter
of one agent through a whole `tick`: the agents of a tick do not touch each other, so the column
goes through one `counterDelta`, and an agent that is forgotten loses its baseline.
-/

namespace SystemsManager.Energy

open Python

section Delta

@[simp] theorem counter_delta_unknown (last : Option Int) : counterDelta last none = (0, last) := by
  cases last <;> rfl

@[simp] theorem counter_delta_first (cur : Int) : counterDelta none (some cur) = (0, some cur) :=
  rfl

theorem counter_delta_known (last cur : Int) :
    counterDelta (some last) (some cur) =
      (if last ≤ cur then cur - last else cur, some cur) := by
  unfold counterDelta
  dsimp only
  split <;> rfl

theorem counter_delta_some_snd (last : Option Int) (cur : Int) :
    (counterDelta last (some cur)).2 = some cur := by
  cases last with
  | none => rfl
  | some last => rw [counter_delta_known]

end Delta

/-- What a counter has grown by since its baseline. -/
def grownBy (counters : Dict CounterKey Counter) (item : CounterKey × Counter) :
    CounterKey × (Int × Int) :=
  let base := counters.getD item.1 {}
  (item.1, (counterDelta base.gen item.2.gen).1, (counterDelta base.prompt item.2.prompt).1)

/-- The baseline that a counter leaves. -/
def rebased (counters : Dict CounterKey Counter) (key : CounterKey) (cur : Counter) : Counter :=
  let base := counters.getD key {}
  ⟨(counterDelta base.gen cur.gen).2, (counterDelta base.prompt cur.prompt).2⟩

/-- The growth of all merged counters. -/
def grown (counters merged : Dict CounterKey Counter) : List (CounterKey × (Int × Int)) :=
  merged.items.map (grownBy counters)

/-- The counters that an agent's tick differences. -/
def mergedAt (views : Views) (now : ℚ) (agentId : String) (buckets : Dict String Bucket) :
    Dict CounterKey Counter :=
  addGateway views agentId (mergeCounters (fresh now buckets))

section Loop

/-- The loop from any point on: the keys still to come have their old baselines and no delta. -/
theorem foldl_advance (counters : Dict CounterKey Counter)
    (items : List (CounterKey × Counter)) (acc : Advance)
    (hnodup : (items.map Prod.fst).Nodup)
    (hold : ∀ key ∈ items.map Prod.fst, acc.counters.getD key {} = counters.getD key {})
    (hnew : ∀ key ∈ items.map Prod.fst, key ∉ acc.deltas.items.map Prod.fst) :
    (items.foldl advanceOne acc).deltas.items = acc.deltas.items ++ items.map (grownBy counters) ∧
    (items.foldl advanceOne acc).tokens =
      acc.tokens + ((items.map (grownBy counters)).map Prod.snd).sum ∧
    ∀ key, (items.foldl advanceOne acc).counters.get? key =
      match items.lookup key with
      | some cur => some (rebased counters key cur)
      | none => acc.counters.get? key := by
  induction items generalizing acc with
  | nil => simp
  | cons item rest ih =>
      rw [List.map_cons, List.nodup_cons] at hnodup
      have hbase : acc.counters.getD item.1 {} = counters.getD item.1 {} := hold _ (by simp)
      have hdeltas : (advanceOne acc item).deltas.items =
          acc.deltas.items ++ [grownBy counters item] := by
        show setItems item.1 _ acc.deltas.items = _
        rw [set_items_of_not_mem _ (hnew _ (by simp)), hbase]
        rfl
      have htokens : (advanceOne acc item).tokens = acc.tokens + (grownBy counters item).2 := by
        show acc.tokens + _ = _
        rw [hbase]
        rfl
      have hcounters : (advanceOne acc item).counters =
          acc.counters.set item.1 (rebased counters item.1 item.2) := by
        show acc.counters.set item.1 _ = _
        rw [hbase]
        rfl
      have hne : ∀ key ∈ rest.map Prod.fst, key ≠ item.1 := fun key hkey e => hnodup.1 (e ▸ hkey)
      obtain ⟨ihdeltas, ihtokens, ihcounters⟩ := ih (advanceOne acc item) hnodup.2
        (by
          intro key hkey
          rw [hcounters, Dict.getD_set, if_neg (hne key hkey)]
          exact hold key (by simp [hkey]))
        (by
          intro key hkey
          rw [hdeltas, List.map_append, List.mem_append, not_or]
          exact ⟨hnew key (by simp [hkey]), by simpa [grownBy] using hne key hkey⟩)
      rw [List.foldl_cons]
      refine ⟨?_, ?_, ?_⟩
      · rw [ihdeltas, hdeltas, List.map_cons, List.append_assoc, List.singleton_append]
      · rw [ihtokens, htokens, List.map_cons, List.map_cons, List.sum_cons, add_assoc]
      · intro key
        rw [ihcounters, lookup_items_cons, hcounters]
        by_cases hkey : key = item.1
        · -- the key is this turn's, so no later turn has it
          have hnone : rest.lookup key = none :=
            lookup_items_eq_none fun hmem => hne key hmem hkey
          simp [hkey, hkey ▸ hnone]
        · simp [hkey]

theorem advance_spec (counters merged : Dict CounterKey Counter) :
    (advance counters merged).deltas.items = grown counters merged ∧
    (advance counters merged).tokens = ((grown counters merged).map Prod.snd).sum ∧
    ∀ key, (advance counters merged).counters.get? key =
      match merged.get? key with
      | some cur => some (rebased counters key cur)
      | none => counters.get? key := by
  have h := foldl_advance counters merged.items { counters := counters } merged.nodup
    (fun _ _ => rfl) (fun _ _ => by simp [EmptyCollection.emptyCollection, Dict.empty])
  refine ⟨?_, ?_, h.2.2⟩
  · exact h.1
  · simpa [grown, advance] using h.2.1

end Loop

section Column

/-- The two token columns. -/
inductive Column where
  | gen
  | prompt
  deriving DecidableEq

/-- One column of a counter. -/
def Counter.column (counter : Counter) : Column → Option Int
  | .gen => counter.gen
  | .prompt => counter.prompt

/-- One column of a pair of token counts. -/
def pick : Column → Int × Int → Int
  | .gen, tokens => tokens.1
  | .prompt, tokens => tokens.2

/-- One column of one counter in a dictionary of counters. -/
def columnOf (counters : Dict CounterKey Counter) (key : CounterKey) (col : Column) : Option Int :=
  (counters.get? key).bind fun counter => counter.column col

theorem column_getD (counters : Dict CounterKey Counter) (key : CounterKey) (col : Column) :
    (counters.getD key {}).column col = columnOf counters key col := by
  unfold Dict.getD columnOf
  cases counters.get? key with
  | none => cases col <;> rfl
  | some counter => rfl

theorem advance_column (counters merged : Dict CounterKey Counter) (key : CounterKey)
    (col : Column) :
    (pick col ((advance counters merged).deltas.getD key 0),
        columnOf (advance counters merged).counters key col) =
      counterDelta (columnOf counters key col) (columnOf merged key col) := by
  obtain ⟨hdeltas, -, hcounters⟩ := advance_spec counters merged
  have hget : (advance counters merged).deltas.get? key =
      (merged.get? key).map fun cur => (grownBy counters (key, cur)).2 := by
    unfold Dict.get?
    rw [hdeltas]
    unfold grown
    induction merged.items with
    | nil => rfl
    | cons item rest ih =>
        rw [List.map_cons, lookup_items_cons, lookup_items_cons, ih]
        by_cases h : key = item.1
        · subst h
          simp [grownBy]
        · simp [grownBy, h]
  have hcolumn := column_getD counters key col
  rw [Dict.getD, hget]
  unfold columnOf at hcolumn ⊢
  rw [hcounters]
  cases hmerged : merged.get? key with
  | none => cases col <;> rfl
  | some cur =>
      simp only [Option.map_some, Option.getD_some, Option.bind_some]
      rw [← hcolumn]
      cases col <;> rfl

end Column

section Ticks

/-- One tick of a run: what the views gave and the time. -/
structure TickInput where
  views : Views
  now : ℚ

/-- The buckets of an agent that a tick sees. -/
def bucketsOf (input : TickInput) (agentId : String) : Dict String Bucket :=
  (input.views.store.bind fun view => view.get? agentId).getD ∅

/-- The fresh samples of an agent that a tick sees. -/
def freshOf (input : TickInput) (agentId : String) : List (Sample × ℚ) :=
  fresh input.now (bucketsOf input agentId)

/-- What a tick does for one agent, if it has a fresh sample. -/
def agentTick (cases : CaseMap) (input : TickInput) (agentId : String) (agents : Agents) :
    Option AgentTick :=
  tickAgent cases input.views input.now agentId (bucketsOf input agentId) (agents.get? agentId)

/-- The deltas of one agent in a tick. -/
def deltasOf (cases : CaseMap) (input : TickInput) (agentId : String) (agents : Agents) :
    Dict CounterKey (Int × Int) :=
  ((agentTick cases input agentId agents).map fun result => result.deltas).getD ∅

/-- The state of one agent after a tick, before the eviction. -/
def stateOf (cases : CaseMap) (input : TickInput) (agentId : String) (agents : Agents) :
    Option AgentState :=
  ((agentTick cases input agentId agents).map fun result => result.state).or (agents.get? agentId)

/-- The memory after a tick. -/
def after (cases : CaseMap) (agents : Agents) (input : TickInput) : Agents :=
  (tick cases input.views input.now agents).1

/-- The baseline of one column. -/
def baseline (agents : Agents) (agentId : String) (key : CounterKey) (col : Column) :
    Option Int :=
  (agents.get? agentId).bind fun st => columnOf st.counters key col

/-- The merged value of one column that a tick sees. -/
def observed (input : TickInput) (agentId : String) (key : CounterKey) (col : Column) :
    Option Int :=
  if freshOf input agentId = [] then none
  else columnOf (mergedAt input.views input.now agentId (bucketsOf input agentId)) key col

variable (cases : CaseMap)

theorem tick_agent_empty (views : Views) (now : ℚ) (agentId : String)
    (state : Option AgentState) : tickAgent cases views now agentId ∅ state = none := rfl

theorem get?_foldl_tick_one (views : Views) (now : ℚ) (agentId : String)
    (items : List (String × Dict String Bucket)) (hnodup : (items.map Prod.fst).Nodup)
    (acc : Agents × List Increment) :
    (items.foldl (tickOne cases views now) acc).1.get? agentId =
      (((items.lookup agentId).bind fun buckets =>
        tickAgent cases views now agentId buckets (acc.1.get? agentId)).map
          fun result => result.state).or (acc.1.get? agentId) := by
  induction items generalizing acc with
  | nil => rfl
  | cons item rest ih =>
      rw [List.map_cons, List.nodup_cons] at hnodup
      rw [List.foldl_cons, ih hnodup.2, lookup_items_cons]
      by_cases h : agentId = item.1
      · -- this turn is the agent's, and no later one is
        have hnone : rest.lookup agentId = none := lookup_items_eq_none (h ▸ hnodup.1)
        rw [hnone, if_pos h, Option.bind_none, Option.map_none, Option.none_or, Option.bind_some]
        unfold tickOne
        rw [← h]
        cases htick : tickAgent cases views now agentId item.2 (acc.1.get? agentId) with
        | none => simp
        | some result => simp
      · have hsame : (tickOne cases views now acc item).1.get? agentId = acc.1.get? agentId := by
          unfold tickOne
          cases htick : tickAgent cases views now item.1 item.2 (acc.1.get? item.1) with
          | none => rfl
          | some result => simp [h]
        rw [hsame, if_neg h]

/-- One agent through a whole tick. -/
theorem get?_after (agents : Agents) (input : TickInput) (agentId : String)
    (hstore : input.views.store ≠ none) :
    (after cases agents input).get? agentId =
      (stateOf cases input agentId agents).filter
        fun st => input.now - st.last.getD 0 ≤ agentEvictS := by
  unfold after tick stateOf agentTick bucketsOf
  cases hview : input.views.store with
  | none => exact absurd hview hstore
  | some view =>
      simp only [evict, Dict.get?_filter, Option.bind_some]
      rw [get?_foldl_tick_one cases input.views input.now agentId view.items view.nodup]
      have hlookup : view.items.lookup agentId = view.get? agentId := rfl
      rw [hlookup]
      cases view.get? agentId with
      | none => rw [Option.getD_none, tick_agent_empty, Option.bind_none]
      | some buckets => rfl

theorem after_of_store_none {agents : Agents} {input : TickInput}
    (hstore : input.views.store = none) : after cases agents input = agents := by
  unfold after tick
  rw [hstore]

theorem agent_tick_column (agents : Agents) (input : TickInput) (agentId : String)
    (key : CounterKey) (col : Column) :
    (pick col ((deltasOf cases input agentId agents).getD key 0),
        (stateOf cases input agentId agents).bind fun st => columnOf st.counters key col) =
      counterDelta (baseline agents agentId key col) (observed input agentId key col) := by
  unfold deltasOf stateOf agentTick observed freshOf tickAgent
  by_cases hfresh : fresh input.now (bucketsOf input agentId) = []
  · simp only [hfresh, if_true, Option.map_none, Option.none_or, Option.getD_none]
    cases col <;> rfl
  · simp only [hfresh, if_false, Option.map_some, Option.getD_some, Option.some_or,
      Option.bind_some]
    have hbase : columnOf ((agents.get? agentId).getD {}).counters key col =
        baseline agents agentId key col := by
      unfold baseline
      cases agents.get? agentId with
      | none => rfl
      | some st => rfl
    rw [← hbase]
    exact advance_column _ _ key col

/-- A column goes through one `counterDelta` in a tick; if the agent is forgotten, its baseline
is gone. -/
theorem tick_column (agents : Agents) (input : TickInput) (agentId : String) (key : CounterKey)
    (col : Column) :
    pick col ((deltasOf cases input agentId agents).getD key 0) =
        (counterDelta (baseline agents agentId key col) (observed input agentId key col)).1 ∧
      (baseline (after cases agents input) agentId key col = none ∧
          (after cases agents input).get? agentId = none ∨
        baseline (after cases agents input) agentId key col =
          (counterDelta (baseline agents agentId key col)
            (observed input agentId key col)).2) := by
  have h := agent_tick_column cases agents input agentId key col
  refine ⟨congrArg Prod.fst h, ?_⟩
  have hstate := congrArg Prod.snd h
  dsimp only at hstate
  by_cases hstore : input.views.store = none
  · -- the store view raised: no bucket was seen
    have hfresh : freshOf input agentId = [] := by
      unfold freshOf bucketsOf
      rw [hstore]
      rfl
    rw [after_of_store_none cases hstore]
    unfold observed
    rw [if_pos hfresh]
    exact Or.inr rfl
  · have hget := get?_after cases agents input agentId hstore
    cases hfilter : (after cases agents input).get? agentId with
    | none =>
        refine Or.inl ⟨?_, rfl⟩
        unfold baseline
        rw [hfilter]
        rfl
    | some st =>
        refine Or.inr ?_
        rw [hfilter] at hget
        have hsome := Option.eq_some_of_filter_eq_some hget.symm
        rw [← hstate, hsome]
        unfold baseline
        rw [hfilter]

end Ticks

end SystemsManager.Energy
