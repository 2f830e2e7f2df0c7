import SystemsManager.Energy.Counters
import Mathlib.Data.Int.ConditionallyCompleteOrder
import Mathlib.Order.ConditionallyCompleteLattice.Basic

/-!
# The tokens of a server counter over whole runs

A server's cumulative counter reaches the accumulator through any number of buckets, each of
which shows the value of some earlier time. The fresh values are merged by maximum and differenced
against the last merged value. `server_tokens` is the result to read first: as long as no tick
falls back on an older sample, the tokens attributed over a run are at most those the server
served, and without restarts they are exactly the difference of the counter. `fake_restart` shows
what an older sample does: its smaller value is read as a restart, and counted in full.
-/

namespace SystemsManager.Energy

open Python

section TrueCounter

/-- A server's token counter. `served` is everything it has served up to a time; `origin` is what
it had served when the counter last started from zero. -/
structure TrueCounter where
  served : ℚ → Int
  origin : ℚ → Int
  served_mono : Monotone served
  origin_le : ∀ t, origin t ≤ served t
  restarts : ∀ s t, s ≤ t → origin t = origin s ∨ ∃ r, s < r ∧ r ≤ t ∧ origin t = served r

variable (c : TrueCounter)

/-- What the counter shows. -/
def TrueCounter.value (t : ℚ) : Int := c.served t - c.origin t

/-- The counter never starts again from zero. -/
def TrueCounter.NoRestart : Prop := ∀ s t, c.origin s = c.origin t

theorem TrueCounter.value_nonneg (t : ℚ) : 0 ≤ c.value t := by
  have := c.origin_le t
  unfold TrueCounter.value
  omega

/-- Two readings in order: an increase is at most what was served between them, and after a
decrease the later reading itself is. -/
theorem TrueCounter.delta_le {s t : ℚ} (hst : s ≤ t) :
    (counterDelta (some (c.value s)) (some (c.value t))).1 ≤ c.served t - c.served s := by
  have hserved := c.served_mono hst
  have hs := c.value_nonneg s
  rw [counter_delta_known]
  dsimp only
  unfold TrueCounter.value at hs ⊢
  rcases c.restarts s t hst with hsame | ⟨r, hsr, _, horigin⟩
  · -- no restart between: the counter has grown by what was served
    rw [if_pos (by omega)]
    omega
  · -- the counter shows what was served since a restart after `s`
    have hr := c.served_mono hsr.le
    split
    · omega
    · omega

theorem TrueCounter.value_mono {c : TrueCounter} (h : c.NoRestart) : Monotone c.value := by
  intro s t hst
  have hserved := c.served_mono hst
  have horigin := h s t
  unfold TrueCounter.value
  omega

end TrueCounter

section Merge

/-- The value of a column in one sample. -/
def reading (key : CounterKey) (col : Column) (sample : Sample) : Option Int :=
  columnOf (extractCounters sample) key col

theorem foldl_merge_field (l : List (Option Int)) (init : Option Int) :
    (∀ v, l.foldl mergeField init = some v →
      (init = some v ∨ some v ∈ l) ∧ (∀ w, init = some w ∨ some w ∈ l → w ≤ v)) ∧
    (l.foldl mergeField init = none → init = none ∧ ∀ o ∈ l, o = none) := by
  induction l generalizing init with
  | nil =>
      simp only [List.foldl_nil, List.not_mem_nil, or_false, false_implies, implies_true, and_true,
        imp_self]
      intro v hv
      refine ⟨hv, fun w hw => ?_⟩
      rw [hv] at hw
      cases hw
      exact le_refl _
  | cons o rest ih =>
      obtain ⟨ihsome, ihnone⟩ := ih (mergeField init o)
      rw [List.foldl_cons]
      cases o with
      | none =>
          refine ⟨fun v hv => ?_, fun hnone => ?_⟩
          · simpa [mergeField] using ihsome v hv
          · simpa [mergeField] using ihnone hnone
      | some x =>
          refine ⟨fun v hv => ?_, fun hnone => ?_⟩
          · obtain ⟨hmem, hmax⟩ := ihsome v hv
            cases init with
            | none =>
                simp only [mergeField, reduceCtorEq, false_or, List.mem_cons] at hmem hmax ⊢
                exact ⟨hmem.imp_left Eq.symm, fun w hw => hmax w (hw.imp_left Eq.symm)⟩
            | some y =>
                unfold mergeField at hmem hmax
                by_cases hyx : y < x
                · simp only [hyx, if_true, List.mem_cons] at hmem hmax ⊢
                  refine ⟨Or.inr (hmem.imp_left Eq.symm), ?_⟩
                  have hx := hmax x (Or.inl rfl)
                  rintro w (hw | hw | hw)
                  · cases hw
                    omega
                  · cases hw
                    exact hx
                  · exact hmax w (Or.inr hw)
                · simp only [hyx, if_false, List.mem_cons] at hmem hmax ⊢
                  refine ⟨hmem.imp_right Or.inr, ?_⟩
                  have hy := hmax y (Or.inl rfl)
                  rintro w (hw | hw | hw)
                  · exact hmax w (Or.inl hw)
                  · cases hw
                    omega
                  · exact hmax w (Or.inr hw)
          · obtain ⟨hinit, -⟩ := ihnone hnone
            cases init with
            | none => cases hinit
            | some y =>
                unfold mergeField at hinit
                dsimp only at hinit
                split at hinit
                · simp at hinit
                · simp at hinit

theorem column_merge_counter (merged : Dict CounterKey Counter) (item : CounterKey × Counter)
    (key : CounterKey) (col : Column) :
    columnOf (mergeCounter merged item) key col =
      if key = item.1 then mergeField (columnOf merged key col) (item.2.column col)
      else columnOf merged key col := by
  unfold mergeCounter
  by_cases h : key = item.1
  · subst h
    rw [← column_getD merged item.1 col]
    unfold columnOf
    rw [Dict.get?_set, if_pos rfl, if_pos rfl]
    cases col <;> rfl
  · unfold columnOf
    rw [Dict.get?_set, if_neg h, if_neg h]

theorem column_foldl_merge (items : List (CounterKey × Counter))
    (hnodup : (items.map Prod.fst).Nodup) (merged : Dict CounterKey Counter) (key : CounterKey)
    (col : Column) :
    columnOf (items.foldl mergeCounter merged) key col =
      mergeField (columnOf merged key col) ((items.lookup key).bind fun cur => cur.column col) := by
  induction items generalizing merged with
  | nil => simp [mergeField]
  | cons item rest ih =>
      rw [List.map_cons, List.nodup_cons] at hnodup
      rw [List.foldl_cons, ih hnodup.2, lookup_items_cons, column_merge_counter]
      by_cases h : key = item.1
      · have hnone : rest.lookup key = none := lookup_items_eq_none (h ▸ hnodup.1)
        simp [h, h ▸ hnone, mergeField]
      · simp [h]

theorem column_merge_counters (samples : List (Sample × ℚ)) (key : CounterKey) (col : Column) :
    columnOf (mergeCounters samples) key col =
      (samples.map fun entry => reading key col entry.1).foldl mergeField none := by
  have h : ∀ merged : Dict CounterKey Counter,
      columnOf (samples.foldl (fun merged entry =>
        (extractCounters entry.1).items.foldl mergeCounter merged) merged) key col =
      (samples.map fun entry => reading key col entry.1).foldl mergeField
        (columnOf merged key col) := by
    induction samples with
    | nil => simp
    | cons entry rest ih =>
        intro merged
        rw [List.foldl_cons, ih, List.map_cons, List.foldl_cons,
          column_foldl_merge _ (extractCounters entry.1).nodup]
        rfl
  exact h ∅

theorem column_add_gateway (views : Views) (agentId : String) (merged : Dict CounterKey Counter)
    {key : CounterKey} (hkey : key = .llama ∨ key = .vllm) (col : Column) :
    columnOf (addGateway views agentId merged) key col = columnOf merged key col := by
  have hgateway : key ≠ .gateway := by
    rintro rfl
    simp at hkey
  have hmodel : ∀ model, key ≠ .gatewayModel model := by
    rintro model rfl
    simp at hkey
  unfold addGateway
  cases gatewayModels views agentId with
  | some models =>
      dsimp only
      induction models.items generalizing merged with
      | nil => rfl
      | cons item rest ih =>
          rw [List.foldl_cons, ih]
          unfold columnOf
          rw [Dict.get?_set, if_neg (hmodel item.1)]
  | none =>
      dsimp only
      cases views.usage with
      | unwired => rfl
      | failed => rfl
      | value usage =>
          dsimp only
          cases usage.get? agentId with
          | none => rfl
          | some counter =>
              unfold columnOf
              rw [Dict.get?_set, if_neg hgateway]

end Merge

section Times

/-- The later of two times, each possibly missing. -/
def later : Option ℚ → Option ℚ → Option ℚ
  | none, b => b
  | some a, none => some a
  | some a, some b => some (max a b)

/-- The latest of the times of the samples that pass a test. -/
def latestWith (p : Sample → Bool) (samples : List (Sample × ℚ)) : Option ℚ :=
  ((samples.filter fun entry => p entry.1).map Prod.snd).max?

theorem latest_with_some {p : Sample → Bool} {samples : List (Sample × ℚ)} {t : ℚ}
    (h : latestWith p samples = some t) :
    (∃ sample, (sample, t) ∈ samples ∧ p sample = true) ∧
      ∀ entry ∈ samples, p entry.1 = true → entry.2 ≤ t := by
  obtain ⟨hmem, hmax⟩ := List.max?_eq_some_iff.mp h
  constructor
  · obtain ⟨entry, hentry, rfl⟩ := List.mem_map.mp hmem
    obtain ⟨hin, hp⟩ := List.mem_filter.mp hentry
    exact ⟨entry.1, hin, hp⟩
  · intro entry hentry hp
    exact hmax _ (List.mem_map_of_mem (List.mem_filter.mpr ⟨hentry, hp⟩))

theorem latest_with_none {p : Sample → Bool} {samples : List (Sample × ℚ)}
    (h : latestWith p samples = none) : ∀ entry ∈ samples, p entry.1 = false := by
  have hnil := List.max?_eq_none_iff.mp h
  intro entry hentry
  by_contra hp
  have hmem : entry.2 ∈ (samples.filter fun entry => p entry.1).map Prod.snd :=
    List.mem_map_of_mem (List.mem_filter.mpr ⟨hentry, by simpa using hp⟩)
  rw [hnil] at hmem
  cases hmem

end Times

section Runs

/-- The time of the freshest sample of a tick that carries a column. -/
def carriedAt (input : TickInput) (agentId : String) (key : CounterKey) (col : Column) :
    Option ℚ :=
  latestWith (fun sample => (reading key col sample).isSome) (freshOf input agentId)

/-- The time of the freshest sample of a tick that carries the merged value of a column. -/
def attainedAt (input : TickInput) (agentId : String) (key : CounterKey) (col : Column) :
    Option ℚ :=
  latestWith (fun sample => (reading key col sample).isSome &&
    reading key col sample == observed input agentId key col) (freshOf input agentId)

/-- The tokens of one column of one counter that a run of ticks attributes to an agent. -/
def attributed (cases : CaseMap) (agentId : String) (key : CounterKey) (col : Column) :
    Agents → List TickInput → Int
  | _, [] => 0
  | agents, input :: rest =>
      pick col ((deltasOf cases input agentId agents).getD key 0) +
        attributed cases agentId key col (after cases agents input) rest

/-- No tick of the run falls back on an older sample: the freshest sample with the merged value is
not older than that of an earlier tick, unless the merged value is the last one again. `seen` is
the latest time so far. -/
def NotOlder (cases : CaseMap) (agentId : String) (key : CounterKey) (col : Column) :
    Agents → Option ℚ → List TickInput → Prop
  | _, _, [] => True
  | agents, seen, input :: rest =>
      (∀ u t, seen = some u → attainedAt input agentId key col = some t →
        u ≤ t ∨ baseline agents agentId key col = observed input agentId key col) ∧
      NotOlder cases agentId key col (after cases agents input)
        (later seen (attainedAt input agentId key col)) rest

/-- No tick of the run forgets the agent. -/
def Kept (cases : CaseMap) (agentId : String) : Agents → List TickInput → Prop
  | _, [] => True
  | agents, input :: rest =>
      ((stateOf cases input agentId agents).isSome →
        ((after cases agents input).get? agentId).isSome) ∧
      Kept cases agentId (after cases agents input) rest

/-- Every fresh sample carries the true counter's value at the time it was seen, or none. -/
def Carries (c : TrueCounter) (agentId : String) (key : CounterKey) (col : Column)
    (run : List TickInput) : Prop :=
  ∀ input ∈ run, ∀ entry ∈ freshOf input agentId,
    reading key col entry.1 = none ∨ reading key col entry.1 = some (c.value entry.2)

/-- Every fresh sample that carries the counter was seen in this period. -/
def Within (lo hi : ℚ) (agentId : String) (key : CounterKey) (col : Column)
    (run : List TickInput) : Prop :=
  ∀ input ∈ run, ∀ entry ∈ freshOf input agentId,
    (reading key col entry.1).isSome → lo ≤ entry.2 ∧ entry.2 ≤ hi

variable {cases : CaseMap} {agentId : String} {key : CounterKey} {col : Column} {c : TrueCounter}

variable {input : TickInput} {run : List TickInput}

theorem Carries.value_eq (h : Carries c agentId key col run) (hin : input ∈ run)
    {entry : Sample × ℚ} (hentry : entry ∈ freshOf input agentId) {v : Int}
    (hv : reading key col entry.1 = some v) : v = c.value entry.2 := by
  rcases h input hin entry hentry with hnone | hsome
  · rw [hnone] at hv
    cases hv
  · rw [hsome] at hv
    exact (Option.some.inj hv).symm

theorem Carries.tail {rest : List TickInput} (h : Carries c agentId key col (input :: rest)) :
    Carries c agentId key col rest :=
  fun i hi => h i (List.mem_cons_of_mem input hi)

theorem observed_server (hkey : key = .llama ∨ key = .vllm) (input : TickInput) :
    observed input agentId key col =
      ((freshOf input agentId).map fun entry => reading key col entry.1).foldl mergeField none := by
  unfold observed
  by_cases h : freshOf input agentId = []
  · rw [if_pos h, h]
    rfl
  · rw [if_neg h]
    unfold mergedAt
    rw [column_add_gateway _ _ _ hkey, column_merge_counters]
    rfl

theorem observed_some (hkey : key = .llama ∨ key = .vllm) {v : Int}
    (h : observed input agentId key col = some v) :
    (∃ t, attainedAt input agentId key col = some t ∧
      ∃ sample, (sample, t) ∈ freshOf input agentId ∧ reading key col sample = some v) ∧
    ∀ entry ∈ freshOf input agentId, ∀ w, reading key col entry.1 = some w → w ≤ v := by
  have hfold := h
  rw [observed_server hkey] at hfold
  obtain ⟨hmem, hmax⟩ := (foldl_merge_field _ none).1 v hfold
  constructor
  · cases hat : attainedAt input agentId key col with
    | none =>
        -- the sample that has the merged value passes the test
        exfalso
        rcases hmem with hmem | hmem
        · cases hmem
        · obtain ⟨entry, hentry, hread⟩ := List.mem_map.mp hmem
          have hfalse := latest_with_none hat entry hentry
          simp [hread, h] at hfalse
    | some t =>
        obtain ⟨⟨sample, hin, hp⟩, -⟩ := latest_with_some hat
        refine ⟨t, rfl, sample, hin, ?_⟩
        rw [Bool.and_eq_true, beq_iff_eq, h] at hp
        exact hp.2
  · intro entry hentry w hw
    exact hmax w (Or.inr (List.mem_map.mpr ⟨entry, hentry, hw⟩))

theorem observed_none (hkey : key = .llama ∨ key = .vllm)
    (h : observed input agentId key col = none) :
    ∀ entry ∈ freshOf input agentId, reading key col entry.1 = none := by
  rw [observed_server hkey] at h
  have hall := ((foldl_merge_field _ none).2 h).2
  intro entry hentry
  exact hall _ (List.mem_map.mpr ⟨entry, hentry, rfl⟩)

theorem times_of_observed_none (hkey : key = .llama ∨ key = .vllm)
    (h : observed input agentId key col = none) :
    attainedAt input agentId key col = none ∧ carriedAt input agentId key col = none := by
  have hall := observed_none hkey h
  constructor
  · cases hat : attainedAt input agentId key col with
    | none => rfl
    | some t =>
        obtain ⟨⟨sample, hin, hp⟩, -⟩ := latest_with_some hat
        rw [hall _ hin] at hp
        cases hp
  · cases hat : carriedAt input agentId key col with
    | none => rfl
    | some t =>
        obtain ⟨⟨sample, hin, hp⟩, -⟩ := latest_with_some hat
        rw [hall _ hin] at hp
        cases hp

theorem observed_value (hkey : key = .llama ∨ key = .vllm) {lo hi : ℚ}
    (hcarries : Carries c agentId key col run) (hwithin : Within lo hi agentId key col run)
    (hin : input ∈ run) {v : Int} (h : observed input agentId key col = some v) :
    ∃ t, attainedAt input agentId key col = some t ∧ v = c.value t ∧ lo ≤ t ∧ t ≤ hi := by
  obtain ⟨⟨t, hat, sample, hmem, hread⟩, -⟩ := observed_some hkey h
  exact ⟨t, hat, hcarries.value_eq hin hmem hread, hwithin input hin _ hmem (by rw [hread]; rfl)⟩

/-- The baseline is the true counter's value at the latest time a merged value was seen. -/
def Anchored (c : TrueCounter) (base : Option Int) (seen : Option ℚ) : Prop :=
  ∀ b, base = some b → ∃ u, seen = some u ∧ b = c.value u

variable {agents : Agents} {seen : Option ℚ}

/-- One tick: the baseline stays anchored, and what is attributed is at most what was served
between the old and the new latest time. -/
theorem anchored_step (hkey : key = .llama ∨ key = .vllm) {lo hi : ℚ}
    (hcarries : Carries c agentId key col run) (hwithin : Within lo hi agentId key col run)
    (hin : input ∈ run) (hanchored : Anchored c (baseline agents agentId key col) seen)
    (horder : ∀ u t, seen = some u → attainedAt input agentId key col = some t →
      u ≤ t ∨ baseline agents agentId key col = observed input agentId key col) :
    Anchored c (counterDelta (baseline agents agentId key col)
        (observed input agentId key col)).2 (later seen (attainedAt input agentId key col)) ∧
    (counterDelta (baseline agents agentId key col) (observed input agentId key col)).1 ≤
      c.served ((later seen (attainedAt input agentId key col)).getD lo) -
        c.served (seen.getD lo) := by
  cases hobs : observed input agentId key col with
  | none =>
      -- nothing was seen: the baseline and the latest time stay
      obtain ⟨hat, -⟩ := times_of_observed_none hkey hobs
      rw [hat]
      cases seen with
      | none => exact ⟨by simpa [later] using hanchored, by simp [later]⟩
      | some u => exact ⟨by simpa [later] using hanchored, by simp [later]⟩
  | some v =>
      obtain ⟨t, hat, hv, hlo, -⟩ := observed_value hkey hcarries hwithin hin hobs
      rw [hat]
      cases hbase : baseline agents agentId key col with
      | none =>
          rw [counter_delta_first]
          cases hseen : seen with
          | none =>
              refine ⟨fun b hb => ⟨t, rfl, by simpa [hv, eq_comm] using hb⟩, ?_⟩
              have := c.served_mono hlo
              simp only [later, Option.getD_some, Option.getD_none]
              omega
          | some u =>
              have hut : u ≤ t := by
                rcases horder u t hseen hat with h | h
                · exact h
                · rw [hbase, hobs] at h
                  cases h
              have := c.served_mono hut
              simp only [later, max_eq_right hut, Option.getD_some]
              exact ⟨fun b hb => ⟨t, rfl, by simpa [hv, eq_comm] using hb⟩, by omega⟩
      | some b =>
          obtain ⟨u, hseen, hb⟩ := hanchored b hbase
          subst hseen
          simp only [later, Option.getD_some]
          rcases le_or_gt u t with hut | htu
          · rw [max_eq_right hut]
            refine ⟨fun b' hb' => ⟨t, rfl, ?_⟩, ?_⟩
            · rw [counter_delta_known] at hb'
              simpa [hv, eq_comm] using hb'
            · rw [hb, hv]
              exact c.delta_le hut
          · -- an older sample: the merged value is the last one again
            have hsame : b = v := by
              rcases horder u t rfl hat with h | h
              · exact absurd h (not_le.mpr htu)
              · rw [hbase, hobs] at h
                exact Option.some.inj h
            rw [max_eq_left htu.le, counter_delta_known, if_pos hsame.le]
            refine ⟨fun b' hb' => ⟨u, rfl, ?_⟩, ?_⟩
            · have hvb : v = b' := by simpa using hb'
              rw [← hvb, ← hsame, hb]
            · dsimp only
              omega

theorem anchored_none : Anchored c none seen := by
  intro b hb
  cases hb

theorem attributed_le (hkey : key = .llama ∨ key = .vllm) {lo hi : ℚ} (run : List TickInput)
    (hseen : seen.getD lo ≤ hi) (hcarries : Carries c agentId key col run)
    (hwithin : Within lo hi agentId key col run)
    (hanchored : Anchored c (baseline agents agentId key col) seen)
    (horder : NotOlder cases agentId key col agents seen run) :
    attributed cases agentId key col agents run ≤ c.served hi - c.served (seen.getD lo) := by
  induction run generalizing agents seen with
  | nil =>
      have := c.served_mono hseen
      rw [attributed]
      omega
  | cons input rest ih =>
      obtain ⟨hnow, hrest⟩ := horder
      obtain ⟨hanchored', hdelta⟩ := anchored_step hkey hcarries hwithin (by simp) hanchored hnow
      obtain ⟨hpick, hbase⟩ := tick_column cases agents input agentId key col
      have hseen' : (later seen (attainedAt input agentId key col)).getD lo ≤ hi := by
        cases hobs : observed input agentId key col with
        | none =>
            rw [(times_of_observed_none hkey hobs).1]
            cases seen <;> exact hseen
        | some v =>
            obtain ⟨t, hat, -, -, hthi⟩ := observed_value hkey hcarries hwithin (by simp) hobs
            rw [hat]
            cases seen with
            | none => exact hthi
            | some u => exact max_le hseen hthi
      have hnext : Anchored c (baseline (after cases agents input) agentId key col)
          (later seen (attainedAt input agentId key col)) := by
        rcases hbase with ⟨hgone, -⟩ | hbase
        · rw [hgone]
          exact anchored_none
        · rw [hbase]
          exact hanchored'
      have := ih hseen' hcarries.tail
        (fun i hi => hwithin i (List.mem_cons_of_mem _ hi)) hnext hrest
      rw [attributed, hpick]
      omega

theorem baseline_after_of_kept (key : CounterKey) (col : Column)
    (h : (stateOf cases input agentId agents).isSome →
      ((after cases agents input).get? agentId).isSome) :
    baseline (after cases agents input) agentId key col =
      (counterDelta (baseline agents agentId key col) (observed input agentId key col)).2 := by
  rcases (tick_column cases agents input agentId key col).2 with ⟨hgone, hget⟩ | hbase
  · have hstate : stateOf cases input agentId agents = none := by
      rw [← Option.not_isSome_iff_eq_none]
      intro hsome
      simpa [hget] using h hsome
    have hcolumn := congrArg Prod.snd (agent_tick_column cases agents input agentId key col)
    rw [hgone, ← hcolumn, hstate]
    rfl
  · exact hbase

theorem carried_value (hkey : key = .llama ∨ key = .vllm) (hno : c.NoRestart)
    (hcarries : Carries c agentId key col run) (hin : input ∈ run) {v : Int}
    (h : observed input agentId key col = some v) :
    ∃ t, carriedAt input agentId key col = some t ∧ v = c.value t := by
  obtain ⟨⟨t, -, sample, hmem, hread⟩, hmax⟩ := observed_some hkey h
  have hv : v = c.value t := hcarries.value_eq hin hmem hread
  cases hat : carriedAt input agentId key col with
  | none =>
      have := latest_with_none hat _ hmem
      rw [hread] at this
      cases this
  | some freshest =>
      refine ⟨freshest, rfl, ?_⟩
      obtain ⟨⟨other, hother, hp⟩, hlatest⟩ := latest_with_some hat
      obtain ⟨w, hw⟩ := Option.isSome_iff_exists.mp hp
      have hwv : w ≤ v := hmax _ hother w hw
      have hval : w = c.value freshest := hcarries.value_eq hin hother hw
      have hle : c.value t ≤ c.value freshest := by
        apply c.value_mono hno
        exact hlatest _ hmem (by rw [hread]; rfl)
      omega

/-- The times at which a run sees a counter, one for each tick that sees it. -/
def carriedTimes (agentId : String) (key : CounterKey) (col : Column) (run : List TickInput) :
    List ℚ :=
  run.filterMap fun input => carriedAt input agentId key col

theorem carried_times_cons_none (h : carriedAt input agentId key col = none) :
    carriedTimes agentId key col (input :: run) = carriedTimes agentId key col run := by
  unfold carriedTimes
  rw [List.filterMap_cons, h]

theorem carried_times_cons_some {t : ℚ} (h : carriedAt input agentId key col = some t) :
    carriedTimes agentId key col (input :: run) = t :: carriedTimes agentId key col run := by
  unfold carriedTimes
  rw [List.filterMap_cons, h]

/-- Without restarts and evictions, a run attributes the difference between the last value it
sees and the baseline. -/
theorem attributed_eq (hkey : key = .llama ∨ key = .vllm) (hno : c.NoRestart) (run : List TickInput)
    {b : Int} {w : ℚ} (hcarries : Carries c agentId key col run)
    (hanchored : Anchored c (baseline agents agentId key col) seen)
    (horder : NotOlder cases agentId key col agents seen run)
    (hkept : Kept cases agentId agents run) (hbase : baseline agents agentId key col = some b)
    (hb : b = c.value w) :
    attributed cases agentId key col agents run =
      c.value ((carriedTimes agentId key col run).getLastD w) - b := by
  induction run generalizing agents seen b w with
  | nil =>
      rw [attributed, carriedTimes, List.filterMap_nil, List.getLastD_nil]
      omega
  | cons input rest ih =>
      obtain ⟨hnow, hrest⟩ := horder
      obtain ⟨hkeep, hkept⟩ := hkept
      obtain ⟨hpick, -⟩ := tick_column cases agents input agentId key col
      have hafter := baseline_after_of_kept key col hkeep
      have hlater := hcarries.tail
      rw [attributed, hpick, hbase]
      rw [hbase] at hafter
      cases hobs : observed input agentId key col with
      | none =>
          obtain ⟨hat, hcarried⟩ := times_of_observed_none hkey hobs
          rw [hobs, counter_delta_unknown] at hafter
          have hanchored' : Anchored c (baseline (after cases agents input) agentId key col)
              (later seen (attainedAt input agentId key col)) := by
            rw [hafter, hat, ← hbase]
            cases seen <;> exact hanchored
          rw [counter_delta_unknown, ih hlater hanchored' hrest hkept hafter hb,
            carried_times_cons_none hcarried]
          exact zero_add _
      | some v =>
          obtain ⟨freshest, hcarried, hv⟩ := carried_value hkey hno hcarries (by simp) hobs
          obtain ⟨⟨t, hat, sample, hmem, hread⟩, -⟩ := observed_some hkey hobs
          have hvt : v = c.value t := hcarries.value_eq (by simp) hmem hread
          obtain ⟨u, hseen, hbu⟩ := hanchored b hbase
          subst hseen
          -- the merged value is not below the baseline
          have hle : b ≤ v := by
            rcases hnow u t rfl hat with hut | hsame
            · have := c.value_mono hno hut
              omega
            · rw [hbase, hobs] at hsame
              exact (Option.some.inj hsame).le
          rw [hobs, counter_delta_known] at hafter
          have hanchored' : Anchored c (baseline (after cases agents input) agentId key col)
              (later (some u) (attainedAt input agentId key col)) := by
            rw [hafter, hat]
            intro b' hb'
            refine ⟨max u t, rfl, ?_⟩
            have hvb : v = b' := Option.some.inj hb'
            rcases le_total u t with hut | htu
            · rw [max_eq_right hut, ← hvb, hvt]
            · have := c.value_mono hno htu
              rw [max_eq_left htu]
              omega
          rw [counter_delta_known, if_pos hle, ih hlater hanchored' hrest hkept hafter hv,
            carried_times_cons_some hcarried, List.getLastD_cons]
          dsimp only
          omega

/-- Without restarts and evictions, a run that starts without a baseline attributes the
difference between the last and the first value it sees. -/
theorem attributed_eq_of_new (hkey : key = .llama ∨ key = .vllm) (hno : c.NoRestart)
    (run : List TickInput) {first last : ℚ} (hcarries : Carries c agentId key col run)
    (horder : NotOlder cases agentId key col agents none run)
    (hkept : Kept cases agentId agents run) (hbase : baseline agents agentId key col = none)
    (hfirst : (carriedTimes agentId key col run).head? = some first)
    (hlast : (carriedTimes agentId key col run).getLast? = some last) :
    attributed cases agentId key col agents run = c.value last - c.value first := by
  induction run generalizing agents with
  | nil => cases hfirst
  | cons input rest ih =>
      obtain ⟨-, hrest⟩ := horder
      obtain ⟨hkeep, hkept⟩ := hkept
      obtain ⟨hpick, -⟩ := tick_column cases agents input agentId key col
      have hafter := baseline_after_of_kept key col hkeep
      have hlater := hcarries.tail
      rw [attributed, hpick, hbase]
      rw [hbase] at hafter
      cases hobs : observed input agentId key col with
      | none =>
          obtain ⟨hat, hcarried⟩ := times_of_observed_none hkey hobs
          rw [hobs, counter_delta_unknown] at hafter
          rw [hat] at hrest
          rw [carried_times_cons_none hcarried] at hfirst hlast
          rw [counter_delta_unknown, ih hlater hrest hkept hafter hfirst hlast]
          exact zero_add _
      | some v =>
          obtain ⟨freshest, hcarried, hv⟩ := carried_value hkey hno hcarries (by simp) hobs
          obtain ⟨⟨t, hat, sample, hmem, hread⟩, -⟩ := observed_some hkey hobs
          have hvt : v = c.value t := hcarries.value_eq (by simp) hmem hread
          rw [hobs, counter_delta_first] at hafter
          rw [carried_times_cons_some hcarried] at hfirst hlast
          rw [List.head?_cons, Option.some.injEq] at hfirst
          rw [List.getLast?_cons, Option.some.injEq, hfirst, ← List.getLastD_eq_getLast?] at hlast
          have hanchored' : Anchored c (baseline (after cases agents input) agentId key col)
              (later none (attainedAt input agentId key col)) := by
            rw [hafter, hat]
            intro b hb
            exact ⟨t, rfl, by rw [← Option.some.inj hb, hvt]⟩
          rw [hfirst] at hv
          have hexact := attributed_eq hkey hno rest hlater hanchored' hrest hkept hafter hv
          rw [counter_delta_first, hexact, ← hv, ← hlast]
          exact zero_add _

/-- In every run in which no tick falls back on an older sample, the tokens attributed from a
server counter are at most those served, and without restarts and evictions they are the
difference of the counter between the first and the last tick that saw it. -/
theorem server_tokens (c : TrueCounter) (cases : CaseMap) (agentId : String) (key : CounterKey)
    (hkey : key = .llama ∨ key = .vllm) (col : Column) (run : List TickInput) (lo hi : ℚ)
    (hperiod : lo ≤ hi) (hcarries : Carries c agentId key col run)
    (hwithin : Within lo hi agentId key col run)
    (horder : NotOlder cases agentId key col ∅ none run) :
    attributed cases agentId key col ∅ run ≤ c.served hi - c.served lo ∧
    (c.NoRestart → Kept cases agentId ∅ run → ∀ first last,
      (carriedTimes agentId key col run).head? = some first →
      (carriedTimes agentId key col run).getLast? = some last →
      attributed cases agentId key col ∅ run = c.value last - c.value first) := by
  constructor
  · have hstart : (none : Option ℚ).getD lo ≤ hi := hperiod
    exact attributed_le hkey run hstart hcarries hwithin anchored_none horder
  · intro hno hkept first last hfirst hlast
    exact attributed_eq_of_new hkey hno run hcarries horder hkept rfl hfirst hlast

/-- A vllm counter as it stands in one bucket. -/
def vllmBucket (total : Option ℚ) (lastSeen : ℚ) : Bucket :=
  { sample := some { vllm := { totalTokensGenerated := total } }, lastSeen := lastSeen }

/-- A tick that sees the counter in the llama bucket and in the vllm bucket. -/
def twoBuckets (llama vllm : Bucket) (now : ℚ) : TickInput :=
  { views := { store := some (Dict.empty.set "box"
      ((Dict.empty.set "llama" llama).set "vllm" vllm)) }
    now := now }

/-- A server that has served `before` tokens up to `t0` and `later` from then on. -/
def stepCounter (t0 : ℚ) (before later : Nat) (h : before ≤ later) : TrueCounter where
  served t := if t < t0 then before else later
  origin _ := 0
  served_mono := by
    intro s t hst
    dsimp only
    by_cases hs : s < t0
    · rw [if_pos hs]
      split <;> omega
    · rw [if_neg hs, if_neg fun ht => hs (lt_of_le_of_lt hst ht)]
  origin_le t := by
    split <;> omega
  restarts _ _ _ := Or.inl rfl

/-- The vllm bucket goes from 100 to a sample without the counter, while the llama bucket still
shows the 90 of two seconds earlier: the 90 are counted as if the server had restarted. -/
theorem fake_restart :
    ¬ ∀ (c : TrueCounter) (cases : CaseMap) (agentId : String) (key : CounterKey),
      key = .llama ∨ key = .vllm → ∀ (col : Column) (run : List TickInput) (lo hi : ℚ),
      (run.map TickInput.now).Pairwise (· ≤ ·) → lo ≤ hi → Carries c agentId key col run →
      Within lo hi agentId key col run →
      attributed cases agentId key col ∅ run ≤ c.served hi - c.served lo := by
  intro h
  have hle := h (stepCounter 12 90 100 (by decide)) asciiCase "box" .vllm (Or.inr rfl) .gen
    [twoBuckets (vllmBucket (some 90) 10) (vllmBucket (some 100) 12) 20,
      twoBuckets (vllmBucket (some 90) 10) (vllmBucket none 25) 30] 10 12
    (by decide +kernel) (by decide +kernel)
    (by unfold Carries; decide +kernel) (by unfold Within; decide +kernel)
  revert hle
  decide +kernel

/-- A counter that the llama bucket shows late and the vllm bucket shows in time. -/
theorem stale_copy_is_harmless :
    attributed asciiCase "box" .vllm .gen ∅
      [twoBuckets (vllmBucket (some 1000) 1000) (vllmBucket (some 1000) 1000) 1000,
        twoBuckets (vllmBucket (some 1000) 1000) (vllmBucket (some 1005) 1010) 1010] =
      (stepCounter 1010 1000 1005 (by decide)).value 1010 -
        (stepCounter 1010 1000 1005 (by decide)).value 1000 := by
  have horder : NotOlder asciiCase "box" .vllm .gen ∅ none
      [twoBuckets (vllmBucket (some 1000) 1000) (vllmBucket (some 1000) 1000) 1000,
        twoBuckets (vllmBucket (some 1000) 1000) (vllmBucket (some 1005) 1010) 1010] := by
    refine ⟨?_, ?_, trivial⟩
    · intro u t hu
      cases hu
    intro u t hu ht
    refine Or.inl ?_
    have hseen : later none (attainedAt (twoBuckets (vllmBucket (some 1000) 1000)
        (vllmBucket (some 1000) 1000) 1000) "box" .vllm .gen) = some 1000 := by decide +kernel
    have hnow : attainedAt (twoBuckets (vllmBucket (some 1000) 1000)
        (vllmBucket (some 1005) 1010) 1010) "box" .vllm .gen = some 1010 := by decide +kernel
    rw [hseen] at hu
    rw [hnow] at ht
    cases hu
    cases ht
    decide +kernel
  exact (server_tokens (stepCounter 1010 1000 1005 (by decide)) asciiCase "box" .vllm (Or.inr rfl)
    .gen _ 1000 1010 (by decide +kernel) (by unfold Carries; decide +kernel)
    (by unfold Within; decide +kernel) horder).2 (fun _ _ => rfl)
    ⟨by decide +kernel, by decide +kernel, trivial⟩ 1000 1010 (by decide +kernel)
    (by decide +kernel)

end Runs

end SystemsManager.Energy
