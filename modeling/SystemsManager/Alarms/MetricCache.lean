import Mathlib.Data.List.MinMax
import SystemsManager.Python.Bisect
import SystemsManager.Python.Dict

/-!
# The metric cache of the alarm engine

`MetricCache` of `backend/storage/cache.py` keeps for every series and every host two parallel
lists: the points and their times. `add_metric_points` groups a batch, trims what is past the time
to live, cuts each list at `_MAX_POINTS_PER_SERIES` and evicts the stalest host of a full series;
`sweep_metric_points` removes the hosts that went silent; `get_metric_points` merges the lists. The
locks of the shards are left out: the operations are taken one after another. `added` notes for each
list the points that were added since the host was last evicted. Read `cache_exact` for what a query
returns.
-/

namespace SystemsManager.Alarms.Storage

open Python

/-- A `MetricPoint`, as far as the cache reads it. Its time is in seconds; one without a time zone
is taken as UTC. -/
structure MetricPoint where
  source : String
  metricName : String
  hostname : Option String
  timestamp : ℚ
  value : ℚ
  deriving DecidableEq

/-- `f"{p.source}:{p.metric_name}"` -/
def seriesKey (source metricName : String) : String := source ++ ":" ++ metricName

/-- The series of a point. -/
def MetricPoint.key (p : MetricPoint) : String := seriesKey p.source p.metricName

/-- `p.hostname or ""` -/
def MetricPoint.host (p : MetricPoint) : String := p.hostname.getD ""

/-- `_MAX_POINTS_PER_SERIES` -/
def MAX_POINTS_PER_SERIES : ℕ := 2500

/-- `_MAX_HOSTS_PER_SERIES` -/
def MAX_HOSTS_PER_SERIES : ℤ := 256

/-- `_N_SHARDS` -/
def N_SHARDS : ℕ := 16

/-- The lists of one series, and what was added to each since its host was last evicted. -/
structure Series where
  points : Dict String (List MetricPoint)
  stamps : Dict String (List ℚ)
  added : String → List MetricPoint

/-- The cache. -/
structure MetricCache where
  metricTtl : ℚ
  maxHosts : ℕ
  metricPoints : Dict String (Dict String (List MetricPoint))
  pointTimestamps : Dict String (Dict String (List ℚ))
  added : String → String → List MetricPoint

/-- `max(1, int(max_hosts_per_series or self._MAX_HOSTS_PER_SERIES))` -/
def hostCap (maxHostsPerSeries : Option ℤ) : ℕ :=
  let n := match maxHostsPerSeries with
    | none => MAX_HOSTS_PER_SERIES
    | some n => if n = 0 then MAX_HOSTS_PER_SERIES else n
  (max 1 n).toNat

/-- `MetricCache(metric_ttl_seconds, max_hosts_per_series)` -/
def MetricCache.new (ttl : ℚ) (maxHostsPerSeries : Option ℤ) : MetricCache where
  metricTtl := ttl
  maxHosts := hostCap maxHostsPerSeries
  metricPoints := ∅
  pointTimestamps := ∅
  added _ _ := []

section Series

/-- The host is popped from both dictionaries. -/
def Series.evict (s : Series) (host : String) : Series where
  points := s.points.erase host
  stamps := s.stamps.erase host
  added := Function.update s.added host []

/-- `min(series_ts, key=lambda h: series_ts[h][-1] if series_ts[h] else 0.0)` -/
def Series.stalest (s : Series) : Option String :=
  s.stamps.keys.argmin fun host => ((s.stamps.getD host []).getLast?).getD 0

/-- A full series evicts its stalest host before it takes in a new one. -/
def Series.makeRoom (maxHosts : ℕ) (s : Series) (host : String) : Series :=
  if (s.points.get? host).isNone ∧ maxHosts ≤ s.points.items.length then
    match s.stalest with
    | some stalest => s.evict stalest
    | none => s
  else s

/-- The parallel lists of a host, or empty ones. -/
def Series.lists (s : Series) (host : String) : List MetricPoint × List ℚ :=
  (s.points.getD host [], s.stamps.getD host [])

/-- The points before `cutoff` at the front are dropped. -/
def trimExpired (cutoff : ℚ) (lists : List MetricPoint × List ℚ) : List MetricPoint × List ℚ :=
  let (points, timestamps) := lists
  match timestamps with
  | [] => lists
  | t :: _ =>
      if t < cutoff then
        let drop := (timestamps.takeWhile (· < cutoff)).length
        (points.drop drop, timestamps.drop drop)
      else lists

/-- The hard cap: the oldest points go first, then the front of the batch. -/
def extendCapped (lists new : List MetricPoint × List ℚ) : List MetricPoint × List ℚ :=
  let (points, timestamps) := lists
  let (newPts, newTs) := new
  let projected := points.length + newPts.length
  if projected > MAX_POINTS_PER_SERIES then
    let excess := projected - MAX_POINTS_PER_SERIES
    let drop := min excess points.length
    let rest := excess - drop
    (points.drop drop ++ newPts.drop rest, timestamps.drop drop ++ newTs.drop rest)
  else (points ++ newPts, timestamps ++ newTs)

/-- The body of the loop over the hosts of a batch. -/
def Series.addHost (maxHosts : ℕ) (cutoff : ℚ) (s : Series)
    (item : String × (List MetricPoint × List ℚ)) : Series :=
  let (host, new) := item
  let s := s.makeRoom maxHosts host
  let (points, timestamps) := extendCapped (trimExpired cutoff (s.lists host)) new
  { points := s.points.set host points
    stamps := s.stamps.set host timestamps
    added := Function.update s.added host (s.added host ++ new.1) }

/-- The hosts whose newest point is past the time to live. -/
def Series.dead (cutoff : ℚ) (s : Series) : List String :=
  s.stamps.keys.filter fun host => match (s.stamps.getD host []).getLast? with
    | none => true
    | some t => t < cutoff

/-- They are removed. -/
def Series.sweep (cutoff : ℚ) (s : Series) : Series := (s.dead cutoff).foldl Series.evict s

end Series

section Cache

/-- The lists of a series, empty where there are none. -/
def MetricCache.series (c : MetricCache) (key : String) : Series where
  points := c.metricPoints.getD key ∅
  stamps := c.pointTimestamps.getD key ∅
  added := c.added key

/-- The lists of a series are written back. -/
def MetricCache.store (c : MetricCache) (key : String) (s : Series) : MetricCache :=
  { c with
    metricPoints := c.metricPoints.set key s.points
    pointTimestamps := c.pointTimestamps.set key s.stamps
    added := Function.update c.added key s.added }

/-- One batch, by series and host. -/
abbrev Grouped := Dict String (Dict String (List MetricPoint × List ℚ))

/-- A point joins its group. -/
def Grouped.add (grouped : Grouped) (p : MetricPoint) : Grouped :=
  let hosts := grouped.getD p.key ∅
  let slot := hosts.getD p.host ([], [])
  grouped.set p.key (hosts.set p.host (slot.1 ++ [p], slot.2 ++ [p.timestamp]))

/-- The batch, grouped in one pass. -/
def groupBatch (batch : List MetricPoint) : Grouped := batch.foldl Grouped.add ∅

/-- The series of a batch, bucketed by shard. -/
def byShard (hash : String → ℕ) (keys : List String) : Dict ℕ (List String) :=
  keys.foldl (fun shards key =>
    let shard := hash key % N_SHARDS
    shards.set shard (shards.getD shard [] ++ [key])) ∅

/-- The part of a batch that is for one series. -/
def MetricCache.addKey (cutoff : ℚ) (grouped : Grouped) (c : MetricCache) (key : String) :
    MetricCache :=
  c.store key ((grouped.getD key ∅).items.foldl (Series.addHost c.maxHosts cutoff) (c.series key))

/-- `add_metric_points` -/
def MetricCache.addMetricPoints (hash : String → ℕ) (c : MetricCache) (now : ℚ)
    (batch : List MetricPoint) : MetricCache :=
  if batch = [] then c
  else
    let grouped := groupBatch batch
    let cutoff := now - c.metricTtl
    (byShard hash grouped.keys).items.foldl
      (fun c bucket => bucket.2.foldl (MetricCache.addKey cutoff grouped) c) c

/-- A sweep of one series; the count grows where the series is removed. -/
def MetricCache.sweepKey (cutoff : ℚ) (acc : MetricCache × ℕ) (key : String) : MetricCache × ℕ :=
  let (c, removed) := acc
  let s := (c.series key).sweep cutoff
  if s.points.items = [] then
    ({ c with
      metricPoints := c.metricPoints.erase key
      pointTimestamps := c.pointTimestamps.erase key
      added := Function.update c.added key s.added }, removed + 1)
  else (c.store key s, removed)

/-- `sweep_metric_points`, shard by shard. -/
def MetricCache.sweepMetricPoints (hash : String → ℕ) (c : MetricCache) (now : ℚ) :
    MetricCache × ℕ :=
  let cutoff := now - c.metricTtl
  (List.range N_SHARDS).foldl (fun acc shard =>
    acc.1.metricPoints.keys.foldl (fun acc key =>
      if hash key % N_SHARDS ≠ shard then acc else MetricCache.sweepKey cutoff acc key) acc) (c, 0)

/-- `pairs[-limit:]` -/
def lastOf {α : Type} (limit : ℤ) (pairs : List α) : List α :=
  if 0 < limit then pairs.drop (pairs.length - limit.toNat) else pairs.drop (-limit).toNat

/-- The fast path: the newest of the last points. -/
def newestOf (s : Series) (hosts : List String) : List MetricPoint :=
  let best := hosts.foldl (fun (best : Option (MetricPoint × ℚ)) host =>
    match (s.stamps.getD host []).getLast?, (s.points.getD host []).getLast? with
    | some t, some p => match best with
        | none => some (p, t)
        | some (_, newest) => if newest < t then some (p, t) else best
    | _, _ => best) none
  match best with
  | some (p, _) => [p]
  | none => []

/-- The pairs of one host, from `since` on. -/
def windowOf (s : Series) (since : Option ℚ) (host : String) : List (ℚ × MetricPoint) :=
  let points := s.points.getD host []
  let timestamps := s.stamps.getD host []
  match since with
  | none => timestamps.zip points
  | some since =>
      let i := bisectLeft timestamps since
      (timestamps.drop i).zip (points.drop i)

/-- `get_metric_points` -/
def MetricCache.getMetricPoints (c : MetricCache) (source metricName : String) (since : Option ℚ)
    (limit : ℤ) (hostname : Option String) : List MetricPoint :=
  let s := c.series (seriesKey source metricName)
  let hosts := match hostname with
    | none => s.points.keys
    | some name => if name = "" then s.points.keys else [name]
  if limit = 1 ∧ since = none ∧ 1 < hosts.length then newestOf s hosts
  else
    let pairs := hosts.flatMap (windowOf s since)
    let pairs := if 1 < hosts.length then sortedBy Prod.fst pairs else pairs
    (lastOf limit pairs).map Prod.snd

/-- What is done to the cache. -/
inductive CacheOp where
  | add (batch : List MetricPoint)
  | sweep

/-- An operation at a time. -/
def MetricCache.apply (hash : String → ℕ) (c : MetricCache) (op : ℚ × CacheOp) : MetricCache :=
  match op.2 with
  | .add batch => c.addMetricPoints hash op.1 batch
  | .sweep => (c.sweepMetricPoints hash op.1).1

/-- Operations one after another. -/
def MetricCache.run (hash : String → ℕ) (c : MetricCache)
    (ops : List (ℚ × CacheOp)) : MetricCache :=
  ops.foldl (MetricCache.apply hash) c

end Cache

end SystemsManager.Alarms.Storage
