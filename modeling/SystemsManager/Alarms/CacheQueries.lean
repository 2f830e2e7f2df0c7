import Mathlib.Data.Finset.Dedup
import Mathlib.Data.Finset.Order
import SystemsManager.Alarms.CacheExact
import SystemsManager.Python.Extremes

/-!
# What the metric cache returns

`get_metric_points` cuts each host's list where the window begins, merges the lists by time and
takes the last points; for the newest point alone it compares the ends of the lists. Read
`cache_exact` for the first way, and `newest_agrees_iff` for where the second agrees with it.
-/

namespace SystemsManager.Alarms.Storage

open Python

section Window

/-- The points at or after a time, or all of them. -/
def atOrAfter (since : Option ℚ) (points : List MetricPoint) : List MetricPoint := match since with
  | none => points
  | some since => points.filter fun p => since ≤ p.timestamp

theorem at_or_after_append (since : Option ℚ) (l l' : List MetricPoint) :
    atOrAfter since (l ++ l') = atOrAfter since l ++ atOrAfter since l' := by
  cases since with
  | none => rfl
  | some since => exact List.filter_append _ _

theorem at_or_after_sorted (since : Option ℚ) {l : List MetricPoint}
    (h : l.Pairwise fun p q => p.timestamp ≤ q.timestamp) :
    (atOrAfter since l).Pairwise fun p q => p.timestamp ≤ q.timestamp := by
  cases since with
  | none => exact h
  | some since => exact h.filter _

/-- Each point with its time. -/
def pairsOf (points : List MetricPoint) : List (ℚ × MetricPoint) :=
  points.map fun p => (p.timestamp, p)

/-- The hosts that a query asks for. -/
def Series.asked (s : Series) (hostname : Option String) : List String := match hostname with
  | none => s.points.keys
  | some name => if name = "" then s.points.keys else [name]

/-- The points that a series holds for a query. -/
def Series.retained (s : Series) (hostname : Option String) : List MetricPoint :=
  (s.asked hostname).flatMap fun host => s.points.getD host []

/-- What a query relies on: the lists of each host are parallel, not empty and in time order. -/
structure Series.InOrder (s : Series) : Prop where
  parallel : ∀ host, s.stamps.get? host = (s.points.get? host).map timesOf
  some_point : ∀ host points, s.points.get? host = some points → points ≠ []
  sorted : ∀ host points, s.points.get? host = some points →
    points.Pairwise fun p q => p.timestamp ≤ q.timestamp

variable {s : Series}

theorem Series.InOrder.lists (h : s.InOrder) (host : String) :
    s.stamps.getD host [] = timesOf (s.points.getD host []) ∧
      (s.points.getD host []).Pairwise fun p q => p.timestamp ≤ q.timestamp := by
  unfold Dict.getD
  rw [h.parallel]
  cases hpoints : s.points.get? host with
  | none => exact ⟨rfl, List.Pairwise.nil⟩
  | some points => exact ⟨rfl, h.sorted host points hpoints⟩

theorem zip_times (points : List MetricPoint) : (timesOf points).zip points = pairsOf points := by
  induction points with
  | nil => rfl
  | cons p rest ih => exact congrArg _ ih

theorem Series.InOrder.window (h : s.InOrder) (since : Option ℚ) (host : String) :
    windowOf s since host = pairsOf (atOrAfter since (s.points.getD host [])) := by
  obtain ⟨hstamps, hsorted⟩ := h.lists host
  unfold windowOf
  rw [hstamps]
  cases since with
  | none => exact zip_times _
  | some since =>
      dsimp only
      have hdrop : (s.points.getD host []).drop
        (bisectLeft (timesOf (s.points.getD host [])) since) =
          atOrAfter (some since) (s.points.getD host []) := drop_bisect_left hsorted since
      have htimes : (timesOf (s.points.getD host [])).drop
          (bisectLeft (timesOf (s.points.getD host [])) since) =
          timesOf (atOrAfter (some since) (s.points.getD host [])) := by
        rw [← hdrop]
        exact List.map_drop.symm
      rw [htimes, hdrop, zip_times]

theorem Series.InOrder.windows (h : s.InOrder) (since : Option ℚ) (hostname : Option String) :
    (s.asked hostname).flatMap (windowOf s since) =
      pairsOf (atOrAfter since (s.retained hostname)) := by
  unfold Series.retained
  generalize s.asked hostname = hosts
  induction hosts with
  | nil => cases since <;> rfl
  | cons host rest ih =>
      rw [List.flatMap_cons, List.flatMap_cons, ih, h.window]
      unfold pairsOf
      rw [← List.map_append, at_or_after_append]

/-- The points of a query before the last ones are taken. -/
def Series.merged (s : Series) (since : Option ℚ) (hostname : Option String) : List MetricPoint :=
  let points := atOrAfter since (s.retained hostname)
  if 1 < (s.asked hostname).length then sortedBy MetricPoint.timestamp points else points

theorem Series.merged_pairs (s : Series) (since : Option ℚ) (hostname : Option String) :
    (if 1 < (s.asked hostname).length then
      sortedBy Prod.fst (pairsOf (atOrAfter since (s.retained hostname)))
      else pairsOf (atOrAfter since (s.retained hostname))) = pairsOf
        (s.merged since hostname) := by
  unfold Series.merged
  dsimp only
  split
  · exact (List.map_insertionSort (fun p q : MetricPoint => p.timestamp ≤ q.timestamp)
      (fun p q : ℚ × MetricPoint => p.1 ≤ q.1) (fun p => (p.timestamp, p)) _
      fun _ _ _ _ => Iff.rfl).symm
  · rfl

theorem Series.InOrder.merged (h : s.InOrder) (since : Option ℚ) (hostname : Option String) :
    (s.merged since hostname).Perm (atOrAfter since (s.retained hostname)) ∧
      (s.merged since hostname).Pairwise fun p q => p.timestamp ≤ q.timestamp := by
  unfold Series.merged
  dsimp only
  split
  · exact ⟨sorted_by_perm _ _, List.pairwise_insertionSort _ _⟩
  · rename_i hfew
    refine ⟨List.Perm.refl _, at_or_after_sorted since ?_⟩
    -- one host at most, whose list is in order
    unfold Series.retained
    generalize s.asked hostname = hosts at hfew
    cases hosts with
    | nil => exact List.Pairwise.nil
    | cons host rest =>
        have hrest : rest = [] := by
          rw [List.length_cons] at hfew
          exact List.length_eq_zero_iff.mp (by omega)
        rw [hrest, List.flatMap_singleton]
        exact (h.lists host).2

end Window

section Query

/-- What a query returns. -/
theorem get_metric_points_eq {c : MetricCache} {source metricName : String}
    (h : (c.series (seriesKey source metricName)).InOrder) (since : Option ℚ) (limit : ℤ)
    (hostname : Option String) :
    c.getMetricPoints source metricName since limit hostname =
      if limit = 1 ∧ since = none ∧
      1 < ((c.series (seriesKey source metricName)).asked hostname).length then
        newestOf (c.series (seriesKey source metricName))
          ((c.series (seriesKey source metricName)).asked hostname)
      else lastOf limit ((c.series (seriesKey source metricName)).merged since hostname) := by
  generalize hs : c.series (seriesKey source metricName) = s at h
  have hquery : c.getMetricPoints source metricName since limit hostname =
      if limit = 1 ∧ since = none ∧ 1 < (s.asked hostname).length then newestOf s (s.asked hostname)
      else (lastOf limit (if 1 < (s.asked hostname).length then
        sortedBy Prod.fst ((s.asked hostname).flatMap (windowOf s since))
        else (s.asked hostname).flatMap (windowOf s since))).map Prod.snd := by
    rw [← hs]
    rfl
  rw [hquery, h.windows, Series.merged_pairs]
  have hlast : ∀ l : List MetricPoint, (lastOf limit (pairsOf l)).map Prod.snd =
    lastOf limit l := by
    intro l
    have hpoints : (pairsOf l).map Prod.snd = l := by
      unfold pairsOf
      rw [List.map_map]
      exact List.map_id l
    have hlength : (pairsOf l).length = l.length := List.length_map _
    unfold lastOf
    split
    · rw [List.map_drop, hpoints, hlength]
    · rw [List.map_drop, hpoints]
  rw [hlast]

/-- The list of one host is short and in time order, and it is what was added since the host was
last evicted, but for points past the time to live or older than the newest `MAX_POINTS_PER_SERIES`.
-/
structure HostExact (arrived added : List MetricPoint) (cutoff : ℚ)
    (points : List MetricPoint) : Prop where
  sorted : points.Pairwise fun p q => p.timestamp ≤ q.timestamp
  short : points.length ≤ MAX_POINTS_PER_SERIES
  since : added <:+ arrived
  kept : KeptOf cutoff added points

/-- A series that holds what it should. -/
structure Series.Exact (arrived : String → List MetricPoint) (maxHosts : ℕ)
    (cutoff : ℚ) (s : Series) :
    Prop where
  few : s.points.items.length ≤ maxHosts
  parallel : ∀ host, s.stamps.get? host = (s.points.get? host).map timesOf
  hosts : ∀ host points, s.points.get? host = some points →
    HostExact (arrived host) (s.added host) cutoff points

/-- A query returns the last of the points at or after `since`, in time order. -/
def QueryExact (c : MetricCache) (source metricName : String) (since : Option ℚ) (limit : ℤ)
    (hostname : Option String) : Prop :=
  ∃ all : List MetricPoint,
    all.Perm (atOrAfter since ((c.series (seriesKey source metricName)).retained hostname)) ∧
    all.Pairwise (fun p q => p.timestamp ≤ q.timestamp) ∧
    c.getMetricPoints source metricName since limit hostname = all.drop (all.length - limit.toNat)

variable {arrived : String → String → List MetricPoint} {maxHosts : ℕ} {ttl cutoff : ℚ}
    {c : MetricCache}

theorem MetricCache.Held.sorted (h : c.Held arrived maxHosts ttl cutoff) {key : String}
    (harrive : ∀ host, (arrived key host).Pairwise fun p q =>
      p.timestamp ≤ q.timestamp) {host : String}
    {points : List MetricPoint} (hpoints : (c.series key).points.get? host = some points) :
    points.Pairwise fun p q => p.timestamp ≤ q.timestamp := by
  obtain ⟨dropped, hadded, -⟩ := (h.good key).kept host points hpoints
  obtain ⟨earlier, hearlier⟩ := h.since key host
  have hsub : points.Sublist (arrived key host) := by
    rw [← hearlier, hadded]
    exact (List.sublist_append_right dropped points).trans (List.sublist_append_right earlier _)
  exact (harrive host).sublist hsub

theorem MetricCache.Held.in_order (h : c.Held arrived maxHosts ttl cutoff) {key : String}
    (harrive : ∀ host, (arrived key host).Pairwise fun p q => p.timestamp ≤ q.timestamp) :
    (c.series key).InOrder where
  parallel := (h.good key).parallel
  some_point host points hpoints := ((h.good key).short host points hpoints).1
  sorted _ _ hpoints := h.sorted harrive hpoints

/-- After any batches and sweeps in which the points of each host arrive in time order, every series
holds what it should, and every query with a time or for two points or more returns the last of what
is held. -/
theorem cache_exact (hash : String → ℕ) (ttl : ℚ) (maxHostsPerSeries : Option ℤ)
    (ops : List (ℚ × CacheOp)) (now : ℚ) (hnow : ∀ op ∈ ops, op.1 ≤ now)
    (harrive : ∀ key host, (arrivals ops key host).Pairwise fun p q => p.timestamp ≤ q.timestamp) :
    (∀ key, (((MetricCache.new ttl maxHostsPerSeries).run hash ops).series key).Exact
      (arrivals ops key) (hostCap maxHostsPerSeries) (now - ttl)) ∧
    ∀ source metricName since limit hostname, since ≠ none ∨ 2 ≤ limit → 1 ≤ limit →
      QueryExact ((MetricCache.new ttl maxHostsPerSeries).run hash ops) source
      metricName since limit
        hostname := by
  have hheld := run_held hash ttl maxHostsPerSeries ops now hnow
  refine ⟨fun key => ?_, fun source metricName since limit hostname hslow hlimit => ?_⟩
  · have hgood := hheld.good key
    exact ⟨hgood.few, hgood.parallel, fun host points hpoints =>
      ⟨hheld.sorted (harrive key) hpoints, (hgood.short host points hpoints).2,
        hheld.since key host,
        hgood.kept host points hpoints⟩⟩
  · have horder := hheld.in_order (harrive (seriesKey source metricName))
    obtain ⟨hperm, hsorted⟩ := horder.merged since hostname
    refine ⟨_, hperm, hsorted, ?_⟩
    rw [get_metric_points_eq horder, if_neg]
    · exact if_pos (lt_of_lt_of_le one_pos hlimit)
    · rintro ⟨hone, hnone, -⟩
      rcases hslow with hsince | htwo
      · exact hsince hnone
      · omega

theorem arrivals_batch {batch : List MetricPoint}
    (h : batch.Pairwise fun p q => p.timestamp ≤ q.timestamp) (time : ℚ) (key host : String) :
    (arrivals [(time, .add batch)] key host).Pairwise fun p q => p.timestamp ≤ q.timestamp := by
  have hbatch : arrivals [(time, .add batch)] key host = forHost batch key host := List.append_nil _
  rw [hbatch]
  exact h.filter _

/-- A point of one metric. -/
def reading (host : String) (timestamp : ℚ) : MetricPoint :=
  ⟨"agent", "cpu", some host, timestamp, 0⟩

/-- Two hosts report one after the other. -/
def oneAfterOther : List (ℚ × CacheOp) := [(5, .add [reading "a" 1, reading "b" 2, reading "a" 3])]

/-- The last two points of the metric. -/
theorem one_after_other_exact :
    QueryExact ((MetricCache.new 60 none).run (fun _ => 0) oneAfterOther) "agent"
      "cpu" none 2 none ∧
      ((MetricCache.new 60 none).run (fun _ => 0) oneAfterOther).getMetricPoints "agent"
        "cpu" none 2 none =
        [reading "b" 2, reading "a" 3] := by
  refine ⟨(cache_exact (fun _ => 0) 60 none oneAfterOther 5 (by decide)
    (arrivals_batch (by decide) 5)).2 "agent" "cpu" none 2 none (Or.inr (by decide))
      (by decide), ?_⟩
  decide +kernel

end Query

section Newest

/-- The last point of a host. -/
def Series.tail (s : Series) (host : String) : Option MetricPoint :=
  (s.points.getD host []).getLast?

/-- A host whose last point has the newest time of the series. -/
def Series.Newest (s : Series) (host : String) : Prop := ∃ p, s.tail host = some p ∧
  ∀ other q, s.tail other = some q → q.timestamp ≤ p.timestamp

variable {s : Series}

theorem Series.InOrder.newest_of (h : s.InOrder) (hosts : List String) :
    newestOf s hosts = (firstMax MetricPoint.timestamp (hosts.filterMap s.tail)).toList := by
  have hloop : ∀ step : Option (MetricPoint × ℚ) → String → Option (MetricPoint × ℚ),
      (∀ (best : Option MetricPoint) host, step (best.map fun p => (p, p.timestamp)) host =
        ((s.tail host).elim best (better MetricPoint.timestamp best)).map
          fun p => (p, p.timestamp)) →
      ∀ best : Option MetricPoint, hosts.foldl step (best.map fun p => (p, p.timestamp)) =
        ((hosts.filterMap s.tail).foldl (better MetricPoint.timestamp) best).map
          fun p => (p, p.timestamp) := by
    intro step hstep
    induction hosts with
    | nil => exact fun _ => rfl
    | cons host rest ih =>
        intro best
        rw [List.foldl_cons, hstep, ih]
        cases htail : s.tail host with
        | none =>
            rw [List.filterMap_cons_none htail]
            rfl
        | some p =>
            rw [List.filterMap_cons_some htail]
            rfl
  have hstart : (none : Option (MetricPoint × ℚ)) = none.map fun p => (p, p.timestamp) := rfl
  unfold Storage.newestOf firstMax
  rw [hstart, hloop]
  · cases (hosts.filterMap s.tail).foldl (better MetricPoint.timestamp) none with
    | none => rfl
    | some p => rfl
  · intro best host
    have hstamp : (s.stamps.getD host []).getLast? = (s.tail host).map MetricPoint.timestamp := by
      rw [(h.lists host).1]
      exact List.getLast?_map
    rw [hstamp]
    cases htail : s.tail host with
    | none => rfl
    | some p =>
        have hpoint : (s.points.getD host []).getLast? = some p := htail
        rw [hpoint]
        cases best with
        | none => rfl
        | some q =>
            show (if q.timestamp < p.timestamp then _ else _) =
              Option.map _ (if q.timestamp < p.timestamp then _ else _)
            split
            · rfl
            · rfl

theorem last_of_all {α : Type} {limit : ℤ} {l : List α} (h : (l.length : ℤ) ≤ limit) :
    lastOf limit l = l := by
  unfold lastOf
  split
  · rw [Nat.sub_eq_zero_of_le (by omega), List.drop_zero]
  · have hnil : l = [] := List.length_eq_zero_iff.mp (by omega)
    rw [hnil, List.drop_nil]

theorem last_of_one {α : Type} (l : List α) : lastOf 1 l = l.getLast?.toList := by
  unfold lastOf
  rw [if_pos one_pos]
  cases hlast : l.getLast? with
  | none =>
      rw [List.getLast?_eq_none_iff.mp hlast]
      rfl
  | some a =>
      obtain ⟨front, rfl⟩ := List.getLast?_eq_some_iff.mp hlast
      rw [List.length_append, List.length_singleton]
      exact List.drop_left' (by show front.length = front.length + 1 - 1; omega)

/-- The last point of a list of the series is its host's. -/
def Series.Own (s : Series) : Prop := ∀ host p, s.tail host = some p → p.host = host

theorem Series.Own.nodup (h : s.Own) : (s.points.keys.filterMap s.tail).Nodup :=
  s.points.keys_nodup.filterMap fun _ _ _ hp hq =>
    (h _ _ hp).symm.trans (h _ _ hq)

theorem mem_keys_of_tail {host : String} {p : MetricPoint} (h : s.tail host = some p) :
    host ∈ s.points.keys := by
  unfold Series.tail Dict.getD at h
  cases hpoints : s.points.get? host with
  | none =>
      rw [hpoints] at h
      cases h
  | some points => exact Dict.mem_keys_of_get hpoints

theorem Series.Own.alone_iff (h : s.Own) :
    (∀ a ∈ s.points.keys.filterMap s.tail, ∀ b ∈ s.points.keys.filterMap s.tail,
      (∀ d ∈ s.points.keys.filterMap s.tail, d.timestamp ≤ a.timestamp) →
      (∀ d ∈ s.points.keys.filterMap s.tail, d.timestamp ≤ b.timestamp) → a = b) ↔
    ∀ host other, s.Newest host → s.Newest other → host = other := by
  have hmem : ∀ host p, s.tail host = some p → p ∈ s.points.keys.filterMap s.tail :=
    fun host p hp => List.mem_filterMap.mpr ⟨host, mem_keys_of_tail hp, hp⟩
  have hmax : ∀ p : MetricPoint, (∀ d ∈ s.points.keys.filterMap s.tail, d.timestamp ≤ p.timestamp) ↔
      ∀ other q, s.tail other = some q → q.timestamp ≤ p.timestamp := by
    intro p
    refine ⟨fun hall other q hq => hall q (hmem other q hq), fun hall d hd => ?_⟩
    obtain ⟨other, -, hother⟩ := List.mem_filterMap.mp hd
    exact hall other d hother
  constructor
  · rintro halone host other ⟨p, hp, hpmax⟩ ⟨q, hq, hqmax⟩
    have heq := halone p (hmem host p hp) q (hmem other q hq) ((hmax p).mpr hpmax)
      ((hmax q).mpr hqmax)
    rw [← h host p hp, ← h other q hq, heq]
  · intro halone a ha b hb hamax hbmax
    obtain ⟨host, -, hhost⟩ := List.mem_filterMap.mp ha
    obtain ⟨other, -, hother⟩ := List.mem_filterMap.mp hb
    have heq := halone host other ⟨a, hhost, (hmax a).mp hamax⟩ ⟨b, hother, (hmax b).mp hbmax⟩
    rw [heq, hother] at hhost
    exact (Option.some.inj hhost).symm

theorem Series.InOrder.last_merged (h : s.InOrder) {m : MetricPoint}
    (hlast : (sortedBy MetricPoint.timestamp (s.retained none)).getLast? = some m) :
    LastMax MetricPoint.timestamp (s.points.keys.filterMap s.tail) m := by
  have hretained : s.retained none =
    (s.points.keys.map fun host => s.points.getD host []).flatten :=
    List.flatMap_def
  have htails : s.points.keys.filterMap s.tail =
      (s.points.keys.map fun host => s.points.getD host []).filterMap List.getLast? := by
    rw [List.filterMap_map]
    rfl
  have hsorted : ∀ l ∈ s.points.keys.map (fun host => s.points.getD host []),
      l.Pairwise fun p q => p.timestamp ≤ q.timestamp := by
    intro l hl
    obtain ⟨host, -, rfl⟩ := List.mem_map.mp hl
    exact (h.lists host).2
  have hm := last_sorted_by MetricPoint.timestamp (s.retained none)
  rw [hlast] at hm
  have hm : LastMax MetricPoint.timestamp (s.retained none) m := hm
  have hn := last_sorted_by MetricPoint.timestamp (s.points.keys.filterMap s.tail)
  cases hlast' : (sortedBy MetricPoint.timestamp (s.points.keys.filterMap s.tail)).getLast? with
  | none =>
      -- a point that is held is in a list with a last point
      rw [hlast'] at hn
      have hnil : s.points.keys.filterMap s.tail = [] := hn
      obtain ⟨host, hhost, hmem⟩ := List.mem_flatMap.mp hm.max.1
      have hnone := List.filterMap_eq_nil_iff.mp hnil host hhost
      rw [Series.tail, List.getLast?_eq_none_iff] at hnone
      rw [hnone] at hmem
      cases hmem
  | some n =>
      rw [hlast'] at hn
      have hn : LastMax MetricPoint.timestamp (s.points.keys.filterMap s.tail) n := hn
      rw [htails] at hn
      have hflat := last_max_flatten hsorted hn
      rw [← hretained] at hflat
      rw [hm.unique hflat, htails]
      exact hn

theorem Series.InOrder.exists_tail (h : s.InOrder) {host : String} (hhost : host ∈ s.points.keys) :
    ∃ p, s.tail host = some p := by
  obtain ⟨points, hpoints⟩ := Dict.exists_get_of_mem_keys hhost
  unfold Series.tail Dict.getD
  rw [hpoints, Option.getD_some]
  refine Option.ne_none_iff_exists'.mp fun hnone => ?_
  exact h.some_point host points hpoints (List.getLast?_eq_none_iff.mp hnone)

theorem Series.InOrder.length_keys_le (h : s.InOrder) :
    s.points.keys.length ≤ (s.retained none).length := by
  have hle : ∀ hosts : List String, (∀ host ∈ hosts, host ∈ s.points.keys) →
      hosts.length ≤ (hosts.flatMap fun host => s.points.getD host []).length := by
    intro hosts
    induction hosts with
    | nil => exact fun _ => Nat.zero_le _
    | cons host rest ih =>
        intro hkeys
        obtain ⟨p, hp⟩ := h.exists_tail (hkeys host List.mem_cons_self)
        have hsome : 0 < (s.points.getD host []).length :=
          List.length_pos_of_mem (List.mem_of_getLast? hp)
        have hrest := ih fun other hother => hkeys other (List.mem_cons_of_mem _ hother)
        rw [List.flatMap_cons, List.length_append, List.length_cons]
        omega
  exact hle s.points.keys fun _ hhost => hhost

/-- In a series whose points are in order, the fast path and the general one agree exactly where one
host alone has the newest time. -/
theorem newest_iff {c : MetricCache} {source metricName : String}
    (h : (c.series (seriesKey source metricName)).InOrder)
    (hown : (c.series (seriesKey source metricName)).Own) {limit : ℤ}
    (hlimit : (((c.series (seriesKey source metricName)).retained none).length : ℤ) ≤ limit) :
    c.getMetricPoints source metricName none 1 none =
      (c.getMetricPoints source metricName none limit none).getLast?.toList ↔
    ∀ host other, (c.series (seriesKey source metricName)).Newest host →
      (c.series (seriesKey source metricName)).Newest other → host = other := by
  rw [get_metric_points_eq h, get_metric_points_eq h]
  generalize c.series (seriesKey source metricName) = s at h hown hlimit
  have hmerged : ((s.merged none none).length : ℤ) ≤ limit := by
    rw [(h.merged none none).1.length_eq]
    exact hlimit
  by_cases hmany : 1 < s.points.keys.length
  · have hone : (1 : ℤ) = 1 ∧ (none : Option ℚ) = none ∧ 1 < (s.asked none).length :=
      ⟨rfl, rfl, hmany⟩
    have hkeys := h.length_keys_le
    have hslow : ¬ (limit = 1 ∧ (none : Option ℚ) = none ∧ 1 < (s.asked none).length) := by
      rintro ⟨rfl, -, -⟩
      omega
    rw [if_pos hone, if_neg hslow, last_of_all hmerged]
    have hsort : s.merged none none = sortedBy MetricPoint.timestamp (s.retained none) :=
      if_pos hmany
    have hfast : newestOf s (s.asked none) =
        (firstMax MetricPoint.timestamp (s.points.keys.filterMap s.tail)).toList := h.newest_of _
    rw [hfast, hsort, ← hown.alone_iff]
    have hfirst := first_max_spec MetricPoint.timestamp (s.points.keys.filterMap s.tail)
    cases hbest : firstMax MetricPoint.timestamp (s.points.keys.filterMap s.tail) with
    | none =>
        -- there are hosts, and each has a last point
        rw [hbest] at hfirst
        have hnil : s.points.keys.filterMap s.tail = [] := hfirst
        obtain ⟨host, hhost⟩ := List.exists_mem_of_length_pos (Nat.lt_of_succ_lt hmany)
        obtain ⟨p, hp⟩ := h.exists_tail hhost
        rw [List.filterMap_eq_nil_iff] at hnil
        rw [hnil host hhost] at hp
        cases hp
    | some best =>
        rw [hbest] at hfirst
        have hfirst : FirstMax MetricPoint.timestamp (s.points.keys.filterMap s.tail) best := hfirst
        cases hlast : (sortedBy MetricPoint.timestamp (s.retained none)).getLast? with
        | none =>
            have hlength := (sorted_by_perm MetricPoint.timestamp (s.retained none)).length_eq
            rw [List.getLast?_eq_none_iff.mp hlast, List.length_nil] at hlength
            omega
        | some m =>
            rw [← first_eq_last_iff hown.nodup hfirst (h.last_merged hlast)]
            exact ⟨fun heq => List.cons.inj heq |>.1, fun heq => by rw [heq]⟩
  · have hfew : ¬ ((1 : ℤ) = 1 ∧ (none : Option ℚ) = none ∧ 1 < (s.asked none).length) :=
      fun hall => hmany hall.2.2
    have hfew' : ¬ (limit = 1 ∧ (none : Option ℚ) = none ∧ 1 < (s.asked none).length) :=
      fun hall => hmany hall.2.2
    rw [if_neg hfew, if_neg hfew', last_of_one, last_of_all hmerged]
    refine ⟨fun _ host other hhost hother => ?_, fun _ => rfl⟩
    obtain ⟨p, hp, -⟩ := hhost
    obtain ⟨q, hq, -⟩ := hother
    have hhosts := mem_keys_of_tail hp
    have hothers := mem_keys_of_tail hq
    generalize s.points.keys = keys at hmany hhosts hothers
    match keys, hhosts, hothers with
    | [only], hhosts, hothers =>
        rw [List.mem_singleton.mp hhosts, List.mem_singleton.mp hothers]
    | _ :: _ :: _, _, _ =>
        rw [List.length_cons, List.length_cons] at hmany
        omega

variable {arrived : String → String → List MetricPoint} {maxHosts : ℕ} {ttl cutoff : ℚ}
    {c : MetricCache}

theorem host_of_mem_arrivals {ops : List (ℚ × CacheOp)} {key host : String} {p : MetricPoint}
    (h : p ∈ arrivals ops key host) : p.host = host := by
  obtain ⟨op, -, hp⟩ := List.mem_flatMap.mp h
  cases hop : op.2 with
  | add batch =>
      rw [hop] at hp
      exact (of_decide_eq_true (List.mem_filter.mp hp).2).2
  | sweep =>
      rw [hop] at hp
      cases hp

theorem MetricCache.Held.own {ops : List (ℚ × CacheOp)}
    (h : c.Held (arrivals ops) maxHosts ttl cutoff)
    (key : String) : (c.series key).Own := by
  intro host p hp
  obtain ⟨points, hpoints⟩ := Dict.exists_get_of_mem_keys (mem_keys_of_tail hp)
  unfold Series.tail Dict.getD at hp
  rw [hpoints, Option.getD_some] at hp
  obtain ⟨dropped, hadded, -⟩ := (h.good key).kept host points hpoints
  obtain ⟨earlier, hearlier⟩ := h.since key host
  have hmem : p ∈ arrivals ops key host := by
    rw [← hearlier, hadded]
    exact List.mem_append_right _ (List.mem_append_right _ (List.mem_of_getLast? hp))
  exact host_of_mem_arrivals hmem

/-- After any batches and sweeps in which the points of each host arrive in time order, the fast
path for the newest point agrees with the last point of the general query exactly where one host
alone has the newest time of the series. -/
theorem newest_agrees_iff (hash : String → ℕ) (ttl : ℚ) (maxHostsPerSeries : Option ℤ)
    (ops : List (ℚ × CacheOp))
    (harrive : ∀ key host, (arrivals ops key host).Pairwise fun p q => p.timestamp ≤ q.timestamp)
    (source metricName : String) (limit : ℤ)
    (hlimit : (((((MetricCache.new ttl maxHostsPerSeries).run hash ops).series
      (seriesKey source metricName)).retained none).length : ℤ) ≤ limit) :
    ((MetricCache.new ttl maxHostsPerSeries).run hash ops).getMetricPoints source
    metricName none 1 none =
      (((MetricCache.new ttl maxHostsPerSeries).run hash ops).getMetricPoints source
        metricName none limit
        none).getLast?.toList ↔
    ∀ host other,
      (((MetricCache.new ttl maxHostsPerSeries).run hash ops).series
        (seriesKey source metricName)).Newest host →
      (((MetricCache.new ttl maxHostsPerSeries).run hash ops).series
        (seriesKey source metricName)).Newest other → host = other := by
  obtain ⟨now, hnow⟩ := (ops.map Prod.fst).toFinset.exists_le
  have hheld := run_held hash ttl maxHostsPerSeries ops now fun op hop =>
    hnow _ (List.mem_toFinset.mpr (List.mem_map_of_mem hop))
  exact newest_iff (hheld.in_order (harrive _)) (hheld.own _) hlimit

/-- The newest point of two hosts that report one after the other. -/
theorem one_after_other_newest :
    ((MetricCache.new 60 none).run (fun _ => 0) oneAfterOther).getMetricPoints "agent"
      "cpu" none 1 none =
      (((MetricCache.new 60 none).run (fun _ => 0) oneAfterOther).getMetricPoints
        "agent" "cpu" none 3
        none).getLast?.toList ↔
    ∀ host other,
      (((MetricCache.new 60 none).run (fun _ => 0) oneAfterOther).series
        (seriesKey "agent" "cpu")).Newest host →
      (((MetricCache.new 60 none).run (fun _ => 0) oneAfterOther).series
        (seriesKey "agent" "cpu")).Newest other → host = other :=
  newest_agrees_iff (fun _ => 0) 60 none oneAfterOther
    (arrivals_batch (by decide) 5) "agent" "cpu" 3
    (by decide +kernel)

/-- Two hosts report at the same time. -/
def atOnce : List (ℚ × CacheOp) := [(5, .add [reading "a" 1, reading "b" 1])]

/-- The fast path returns the first host's point, the general query ends with the second one's. -/
theorem at_once_disagrees :
    (∀ key host, (arrivals atOnce key host).Pairwise fun p q => p.timestamp ≤ q.timestamp) ∧
    (((((MetricCache.new 60 none).run (fun _ => 0) atOnce).series
      (seriesKey "agent" "cpu")).retained none).length : ℤ) ≤ 2 ∧
    ((MetricCache.new 60 none).run (fun _ => 0) atOnce).getMetricPoints "agent" "cpu" none 1 none =
      [reading "a" 1] ∧
    (((MetricCache.new 60 none).run (fun _ => 0) atOnce).getMetricPoints "agent" "cpu" none 2
      none).getLast?.toList = [reading "b" 1] := by
  refine ⟨arrivals_batch (by decide) 5, ?_, ?_, ?_⟩
  · decide +kernel
  · decide +kernel
  · decide +kernel

end Newest

end SystemsManager.Alarms.Storage
