import SystemsManager.Alarms.CacheSeries

/-!
# What the metric cache holds

A batch is grouped by series and host, the series are bucketed by shard, and each series takes its
part; `series_add_metric_points` says what that comes to for one series. `MetricCache.Held` is the
invariant of the cache: each series is good, and what is noted as added to a host is the end of what
arrived for it. Read `run_held`.
-/

namespace SystemsManager.Alarms.Storage

open Python

section Grouping

/-- The points of a batch that are for one host of a series. -/
def forHost (batch : List MetricPoint) (key host : String) : List MetricPoint :=
  batch.filter fun p => p.key = key ∧ p.host = host

/-- The points and times of a host in a grouped batch. -/
def Grouped.get? (grouped : Grouped) (key host : String) : Option (List MetricPoint × List ℚ) :=
  (grouped.getD key ∅).get? host

theorem get?_grouped_add (grouped : Grouped) (p : MetricPoint) (key host : String) :
    (grouped.add p).get? key host = if p.key = key ∧ p.host = host then
      some (((grouped.get? key host).getD ([], [])).1 ++ [p],
        ((grouped.get? key host).getD ([], [])).2 ++ [p.timestamp])
      else grouped.get? key host := by
  unfold Grouped.get? Grouped.add
  dsimp only
  rw [Dict.getD_set]
  by_cases hkey : p.key = key
  · subst hkey
    rw [if_pos rfl, Dict.get?_set]
    by_cases hhost : p.host = host
    · subst hhost
      rw [if_pos rfl, if_pos ⟨rfl, rfl⟩]
      rfl
    · rw [if_neg (Ne.symm hhost), if_neg fun hboth => hhost hboth.2]
  · rw [if_neg (Ne.symm hkey), if_neg fun hboth => hkey hboth.1]

theorem get?_group_batch (batch : List MetricPoint) (key host : String) :
    (groupBatch batch).get? key host = if forHost batch key host = [] then none
      else some (forHost batch key host, timesOf (forHost batch key host)) := by
  induction batch using List.reverseRecOn with
  | nil => rfl
  | append_singleton batch p ih =>
      have hgroup : groupBatch (batch ++ [p]) = (groupBatch batch).add p := by
        unfold groupBatch
        rw [List.foldl_append]
        rfl
      have hfilter : forHost (batch ++ [p]) key host =
          forHost batch key host ++ if p.key = key ∧ p.host = host then [p] else [] := by
        unfold forHost
        rw [List.filter_append, List.filter_singleton]
        by_cases hmine : p.key = key ∧ p.host = host
        · rw [if_pos hmine, decide_eq_true hmine]
          rfl
        · rw [if_neg hmine, decide_eq_false hmine]
          rfl
      rw [hgroup, get?_grouped_add, ih, hfilter]
      by_cases hmine : p.key = key ∧ p.host = host
      · have hsome : forHost batch key host ++ [p] ≠ [] := List.append_ne_nil_of_right_ne_nil _
          (List.cons_ne_nil _ _)
        rw [if_pos hmine, if_pos hmine, if_neg hsome]
        by_cases hnone : forHost batch key host = []
        · rw [if_pos hnone, hnone]
          rfl
        · rw [if_neg hnone, Option.getD_some]
          simp only [timesOf, List.map_append, List.map_cons, List.map_nil]
      · rw [if_neg hmine, if_neg hmine, List.append_nil]

/-- The parts of a batch that are for one series. -/
theorem mem_group_batch {batch : List MetricPoint} {key : String}
    {item : String × (List MetricPoint × List ℚ)}
    (h : item ∈ ((groupBatch batch).getD key ∅).items) :
    item.2.1 ≠ [] ∧ item.2.2 = timesOf item.2.1 := by
  have hget := get?_group_batch batch key item.1
  unfold Grouped.get? at hget
  rw [Dict.mem_items_iff.mp (Prod.mk.eta (p := item) ▸ h)] at hget
  split at hget
  · cases hget
  · rename_i hsome
    have hitem := Option.some.inj hget
    rw [hitem]
    exact ⟨hsome, rfl⟩

theorem flatten_set_items {κ α : Type} [DecidableEq κ] (key : κ) (a : α)
    (items : List (κ × List α)) :
    ((setItems key ((items.lookup key).getD [] ++ [a]) items).flatMap Prod.snd).Perm
      (items.flatMap Prod.snd ++ [a]) := by
  induction items with
  | nil => exact List.Perm.refl _
  | cons item rest ih =>
      rw [setItems, lookup_items_cons, List.flatMap_cons]
      by_cases hkey : item.1 = key
      · rw [if_pos hkey, if_pos hkey.symm, List.flatMap_cons]
        show (item.2 ++ [a] ++ _).Perm _
        rw [List.append_assoc, List.append_assoc]
        exact List.perm_append_comm.append_left _
      · rw [if_neg hkey, if_neg (Ne.symm hkey), List.flatMap_cons, List.append_assoc]
        exact ih.append_left _

theorem by_shard_perm (hash : String → ℕ) (keys : List String) :
    ((byShard hash keys).items.flatMap Prod.snd).Perm keys := by
  induction keys using List.reverseRecOn with
  | nil => exact List.Perm.refl _
  | append_singleton keys key ih =>
      have hstep : byShard hash (keys ++ [key]) = (byShard hash keys).set (hash key % N_SHARDS)
          ((byShard hash keys).getD (hash key % N_SHARDS) [] ++ [key]) := by
        unfold byShard
        rw [List.foldl_append]
        rfl
      rw [hstep]
      exact (flatten_set_items _ key _).trans (ih.append_right [key])

end Grouping

section Cache

variable {c : MetricCache}

/-- Reading the series that was written. -/
theorem series_store_self (c : MetricCache) (key : String) (s : Series) :
    (c.store key s).series key = s := by
  unfold MetricCache.series MetricCache.store
  simp only [Dict.getD_set, if_true, Function.update_self]

theorem series_store_of_ne {key other : String} (h : other ≠ key) (s : Series) :
    (c.store key s).series other = c.series other := by
  unfold MetricCache.series MetricCache.store
  simp only [Dict.getD_set, if_neg h, Function.update_of_ne h]

theorem series_foldl_add_key (c : MetricCache) (cutoff : ℚ) (grouped : Grouped) {keys : List String}
    (hnodup : keys.Nodup) (key : String) :
    (keys.foldl (MetricCache.addKey cutoff grouped) c).maxHosts = c.maxHosts ∧
    (keys.foldl (MetricCache.addKey cutoff grouped) c).metricTtl = c.metricTtl ∧
    (keys.foldl (MetricCache.addKey cutoff grouped) c).series key = if key ∈ keys then
      (grouped.getD key ∅).items.foldl (Series.addHost c.maxHosts cutoff) (c.series key)
      else c.series key := by
  induction keys generalizing c with
  | nil => exact ⟨rfl, rfl, rfl⟩
  | cons first rest ih =>
      rw [List.nodup_cons] at hnodup
      obtain ⟨hmax, httl, hseries⟩ := ih (c.addKey cutoff grouped first) hnodup.2
      rw [List.foldl_cons]
      refine ⟨hmax, httl, hseries.trans ?_⟩
      by_cases hkey : key = first
      · subst hkey
        rw [if_neg hnodup.1, if_pos List.mem_cons_self]
        exact series_store_self _ _ _
      · have hsame : (c.addKey cutoff grouped first).series key = c.series key :=
          series_store_of_ne hkey _
        rw [hsame]
        by_cases hrest : key ∈ rest
        · rw [if_pos hrest, if_pos (List.mem_cons_of_mem _ hrest)]
          rfl
        · rw [if_neg hrest, if_neg (by rw [List.mem_cons, not_or]; exact ⟨hkey, hrest⟩)]

theorem series_add_metric_points (hash : String → ℕ) (c : MetricCache) (now : ℚ)
    (batch : List MetricPoint) (key : String) :
    (c.addMetricPoints hash now batch).maxHosts = c.maxHosts ∧
    (c.addMetricPoints hash now batch).metricTtl = c.metricTtl ∧
    (c.addMetricPoints hash now batch).series key =
      ((groupBatch batch).getD key ∅).items.foldl
        (Series.addHost c.maxHosts (now - c.metricTtl)) (c.series key) := by
  unfold MetricCache.addMetricPoints
  split
  · rename_i hnone
    subst hnone
    exact ⟨rfl, rfl, rfl⟩
  · dsimp only
    rw [← List.foldl_flatMap]
    have hperm := by_shard_perm hash (groupBatch batch).keys
    obtain ⟨hmax, httl, hseries⟩ := series_foldl_add_key c (now - c.metricTtl) (groupBatch batch)
      (hperm.nodup_iff.mpr (groupBatch batch).keys_nodup) key
    refine ⟨hmax, httl, hseries.trans ?_⟩
    split
    · rfl
    · -- a series that the batch does not have gets nothing
      rename_i hnot
      rw [hperm.mem_iff, Dict.mem_keys_iff, Option.not_isSome_iff_eq_none] at hnot
      unfold Dict.getD
      rw [hnot]
      rfl

/-- A series without hosts. -/
theorem empty_good {added : String → List MetricPoint} (maxHosts : ℕ) (cutoff : ℚ)
    (h : ∀ host, added host = []) : (Series.mk ∅ ∅ added).Good maxHosts cutoff where
  parallel _ := rfl
  few := Nat.zero_le _
  short _ _ hpoints := by cases hpoints
  kept _ _ hpoints := by cases hpoints
  gone host _ := h host

theorem Series.Good.emptied {maxHosts : ℕ} {cutoff : ℚ} {s : Series} (h : s.Good maxHosts cutoff)
    (hnone : s.points.items = []) : (Series.mk ∅ ∅ s.added).Good maxHosts cutoff := by
  refine empty_good maxHosts cutoff fun host => h.gone host ?_
  unfold Dict.get?
  rw [hnone]
  rfl

/-- What arrived for a host by some operations, in order. -/
def arrivals (ops : List (ℚ × CacheOp)) (key host : String) : List MetricPoint :=
  ops.flatMap fun op => match op.2 with
    | .add batch => forHost batch key host
    | .sweep => []

/-- The invariant of the cache: its series are good, and hold the end of what arrived for their
hosts. -/
structure MetricCache.Held (arrived : String → String → List MetricPoint) (maxHosts : ℕ)
    (ttl cutoff : ℚ)
    (c : MetricCache) : Prop where
  hosts : c.maxHosts = maxHosts
  life : c.metricTtl = ttl
  good : ∀ key, (c.series key).Good maxHosts cutoff
  since : ∀ key host, (c.series key).added host <:+ arrived key host

variable {arrived : String → String → List MetricPoint} {maxHosts : ℕ} {ttl cutoff cutoff' : ℚ}

theorem MetricCache.Held.add (h : c.Held arrived maxHosts ttl cutoff) (hcap : 1 ≤ maxHosts)
    (hash : String → ℕ) {now : ℚ} (hnow : now - ttl ≤ cutoff) (batch : List MetricPoint) :
    (c.addMetricPoints hash now batch).Held (fun key host => arrived key host ++
      forHost batch key host)
      maxHosts ttl cutoff := by
  have hspec := series_add_metric_points hash c now batch
  refine ⟨(hspec "").1.trans h.hosts, (hspec "").2.1.trans h.life, fun key => ?_,
    fun key host => ?_⟩
  · rw [(hspec key).2.2, h.hosts, h.life]
    exact (h.good key).add_hosts hcap hnow fun item hitem => mem_group_batch hitem
  · rw [(hspec key).2.2]
    have hadded := added_add_hosts c.maxHosts (now - c.metricTtl) (c.series key)
      ((groupBatch batch).getD key ∅).nodup host
    have hpart : ((((groupBatch batch).getD key ∅).items.lookup host).map Prod.fst).getD [] =
        forHost batch key host := by
      have hget := get?_group_batch batch key host
      unfold Grouped.get? Dict.get? at hget
      rw [hget]
      by_cases hnone : forHost batch key host = []
      · rw [if_pos hnone, hnone]
        rfl
      · rw [if_neg hnone]
        rfl
    rw [hpart] at hadded
    obtain ⟨earlier, hearlier⟩ := h.since key host
    refine hadded.trans ⟨earlier, ?_⟩
    rw [← List.append_assoc, hearlier]

/-- One series is swept. -/
theorem MetricCache.Held.sweep_key (acc : MetricCache × ℕ)
    (h : acc.1.Held arrived maxHosts ttl cutoff)
    (key : String) : (MetricCache.sweepKey cutoff' acc key).1.Held arrived maxHosts ttl cutoff := by
  obtain ⟨c, removed⟩ := acc
  unfold MetricCache.sweepKey
  dsimp only at h ⊢
  have hswept : ((c.series key).sweep cutoff').Good maxHosts cutoff := (h.good key).sweep
  have hsince : ∀ host, ((c.series key).sweep cutoff').added host <:+ arrived key host :=
    fun host => (added_sweep cutoff' (c.series key) host).trans (h.since key host)
  generalize (c.series key).sweep cutoff' = s at hswept hsince
  split
  · rename_i hnone
    refine ⟨h.hosts, h.life, fun other => ?_, fun other host => ?_⟩
    · by_cases hother : other = key
      · subst hother
        have hseries := hswept.emptied hnone
        unfold MetricCache.series
        simp only [Dict.getD_erase, if_true, Function.update_self]
        exact hseries
      · have hseries := h.good other
        unfold MetricCache.series at hseries ⊢
        simp only [Dict.getD_erase, if_neg hother, Function.update_of_ne hother]
        exact hseries
    · by_cases hother : other = key
      · subst hother
        unfold MetricCache.series
        simp only [Function.update_self]
        exact hsince host
      · have hseries := h.since other host
        unfold MetricCache.series at hseries ⊢
        simp only [Function.update_of_ne hother]
        exact hseries
  · refine ⟨h.hosts, h.life, fun other => ?_, fun other host => ?_⟩
    · by_cases hother : other = key
      · rw [hother, series_store_self]
        exact hswept
      · rw [series_store_of_ne hother]
        exact h.good other
    · by_cases hother : other = key
      · rw [hother, series_store_self]
        exact hsince host
      · rw [series_store_of_ne hother]
        exact h.since other host

theorem MetricCache.Held.sweep (h : c.Held arrived maxHosts ttl cutoff)
    (hash : String → ℕ) (now : ℚ) :
    (c.sweepMetricPoints hash now).1.Held arrived maxHosts ttl cutoff := by
  unfold MetricCache.sweepMetricPoints
  dsimp only
  refine List.foldlRecOn (motive := fun acc : MetricCache × ℕ =>
    acc.1.Held arrived maxHosts ttl cutoff)
    _ _ h fun acc hacc shard _ => ?_
  refine List.foldlRecOn (motive := fun acc : MetricCache × ℕ =>
    acc.1.Held arrived maxHosts ttl cutoff)
    _ _ hacc fun acc hacc key _ => ?_
  split
  · exact hacc
  · exact hacc.sweep_key acc key

theorem new_held (ttl cutoff : ℚ) (maxHostsPerSeries : Option ℤ)
    (arrived : String → String → List MetricPoint) :
    (MetricCache.new ttl maxHostsPerSeries).Held arrived (hostCap maxHostsPerSeries)
    ttl cutoff := by
  exact ⟨rfl, rfl, fun key => empty_good _ _ fun host => rfl, fun key host => List.nil_suffix⟩

theorem one_le_host_cap (maxHostsPerSeries : Option ℤ) : 1 ≤ hostCap maxHostsPerSeries := by
  have hle : ∀ n : ℤ, 1 ≤ (max 1 n).toNat := fun n => by omega
  exact hle _

theorem run_held (hash : String → ℕ) (ttl : ℚ) (maxHostsPerSeries : Option ℤ)
    (ops : List (ℚ × CacheOp))
    (now : ℚ) (hnow : ∀ op ∈ ops, op.1 ≤ now) :
    ((MetricCache.new ttl maxHostsPerSeries).run hash ops).Held (arrivals ops)
      (hostCap maxHostsPerSeries) ttl (now - ttl) := by
  induction ops using List.reverseRecOn with
  | nil => exact new_held ttl _ maxHostsPerSeries _
  | append_singleton ops op ih =>
      have hheld := ih fun earlier hearlier => hnow earlier (List.mem_append_left _ hearlier)
      have hlast : op.1 - ttl ≤ now - ttl :=
        sub_le_sub_right (hnow op (List.mem_append_right _ (List.mem_singleton_self _))) ttl
      have hrun : (MetricCache.new ttl maxHostsPerSeries).run hash (ops ++ [op]) =
          ((MetricCache.new ttl maxHostsPerSeries).run hash ops).apply hash op := by
        unfold MetricCache.run
        rw [List.foldl_append]
        rfl
      have harrivals : arrivals (ops ++ [op]) = fun key host => arrivals ops key host ++
          match op.2 with
          | .add batch => forHost batch key host
          | .sweep => [] := by
        funext key host
        unfold arrivals
        rw [List.flatMap_append, List.flatMap_singleton]
      rw [hrun, harrivals]
      obtain ⟨time, action⟩ := op
      cases action with
      | add batch => exact hheld.add (one_le_host_cap _) hash hlast batch
      | sweep =>
          have hswept := hheld.sweep hash time
          dsimp only
          simp only [List.append_nil]
          exact hswept

end Cache

end SystemsManager.Alarms.Storage
