import SystemsManager.Alarms.MetricCache
import SystemsManager.Python.DictUpdate

/-!
# The lists of a series

`Series.Good` is the invariant of a series: its lists are parallel and short, there are not too many
of them, and each is what was added to it since its host was last evicted, without the points that
are past the time to live or older than the newest `MAX_POINTS_PER_SERIES`. Read
`Series.Good.add_host` for what the points of a batch do to a host, and `added_add_host` for what is
noted of them.
-/

namespace SystemsManager.Alarms.Storage

open Python

section Lists

/-- `points` is what is left of `added`: the points missing at its front are past the time to live,
or `MAX_POINTS_PER_SERIES` newer ones have been added. -/
def KeptOf (cutoff : ℚ) (added points : List MetricPoint) : Prop :=
  ∃ dropped, added = dropped ++ points ∧ ∀ i p, dropped[i]? = some p →
    p.timestamp < cutoff ∨ i + MAX_POINTS_PER_SERIES < added.length

variable {cutoff cutoff' : ℚ} {added points new : List MetricPoint}

theorem KeptOf.trim (h : KeptOf cutoff added points) (hle : cutoff' ≤ cutoff) :
    KeptOf cutoff added (points.dropWhile fun p => p.timestamp < cutoff') := by
  obtain ⟨dropped, rfl, hdropped⟩ := h
  refine ⟨dropped ++ points.takeWhile fun p => p.timestamp < cutoff', ?_, fun i p hp => ?_⟩
  · rw [List.append_assoc, List.takeWhile_append_dropWhile]
  · rcases Nat.lt_or_ge i dropped.length with hi | hi
    · rw [List.getElem?_append_left hi] at hp
      exact hdropped i p hp
    · rw [List.getElem?_append_right hi] at hp
      have hexpired := List.mem_takeWhile_imp (p := fun p : MetricPoint => p.timestamp < cutoff')
        (List.mem_of_getElem? hp)
      exact Or.inl (lt_of_lt_of_le (of_decide_eq_true hexpired) hle)

theorem KeptOf.extend (h : KeptOf cutoff added points) :
    KeptOf cutoff (added ++ new)
      ((points ++ new).drop ((points ++ new).length - MAX_POINTS_PER_SERIES)) := by
  obtain ⟨dropped, rfl, hdropped⟩ := h
  generalize hexcess : (points ++ new).length - MAX_POINTS_PER_SERIES = excess
  refine ⟨dropped ++ (points ++ new).take excess, ?_, fun i p hp => ?_⟩
  · rw [List.append_assoc, List.append_assoc, List.take_append_drop]
  · rcases Nat.lt_or_ge i dropped.length with hi | hi
    · rw [List.getElem?_append_left hi] at hp
      rcases hdropped i p hp with hold | hnewer
      · exact Or.inl hold
      · refine Or.inr (lt_of_lt_of_le hnewer ?_)
        exact (List.sublist_append_left (dropped ++ points) new).length_le
    · -- one of the excess: the cap is reached behind it
      obtain ⟨hlt, -⟩ := List.getElem?_eq_some_iff.mp hp
      rw [List.length_append, List.length_take] at hlt
      refine Or.inr ?_
      rw [List.append_assoc, List.length_append]
      omega

/-- What stands behind a front of a list. -/
theorem drop_length_takeWhile {α : Type} (p : α → Bool) (l : List α) :
    l.drop (l.takeWhile p).length = l.dropWhile p := by
  have hdrop : (l.takeWhile p ++ l.dropWhile p).drop (l.takeWhile p).length = l.dropWhile p :=
    List.drop_left
  rwa [List.takeWhile_append_dropWhile] at hdrop

theorem drop_split {α : Type} (a b : List α) (excess : ℕ) :
    a.drop (min excess a.length) ++ b.drop (excess - min excess a.length) =
      (a ++ b).drop excess := by
  rw [List.drop_append]
  rcases Nat.le_total excess a.length with hle | hle
  · rw [Nat.min_eq_left hle, Nat.sub_self, Nat.sub_eq_zero_of_le hle]
  · rw [Nat.min_eq_right hle, List.drop_length, List.drop_eq_nil_of_le hle]

/-- The lists of a host: the times are those of the points. -/
def timesOf (points : List MetricPoint) : List ℚ := points.map MetricPoint.timestamp

/-- Trimming keeps the lists parallel. -/
theorem trim_expired_eq (cutoff : ℚ) (points : List MetricPoint) :
    trimExpired cutoff (points, timesOf points) =
      (points.dropWhile (fun p => p.timestamp < cutoff),
        timesOf (points.dropWhile fun p => p.timestamp < cutoff)) := by
  have hdrop : points.drop ((timesOf points).takeWhile (· < cutoff)).length =
      points.dropWhile fun p => p.timestamp < cutoff := by
    rw [timesOf, List.takeWhile_map, List.length_map]
    exact drop_length_takeWhile _ _
  cases points with
  | nil => rfl
  | cons p rest =>
      show (if p.timestamp < cutoff then _ else _) = _
      by_cases hold : p.timestamp < cutoff
      · rw [if_pos hold, ← hdrop]
        simp only [timesOf, List.map_drop]
      · rw [if_neg hold, List.dropWhile_cons_of_neg (by simpa using hold)]

theorem extend_capped_eq (points new : List MetricPoint) :
    extendCapped (points, timesOf points) (new, timesOf new) =
      ((points ++ new).drop ((points ++ new).length - MAX_POINTS_PER_SERIES),
        timesOf ((points ++ new).drop ((points ++ new).length - MAX_POINTS_PER_SERIES))) := by
  have htimes : ∀ l : List MetricPoint, (timesOf l).length = l.length :=
    fun l => List.length_map _
  simp only [extendCapped]
  by_cases hmany : points.length + new.length > MAX_POINTS_PER_SERIES
  · rw [if_pos hmany, drop_split, List.length_append]
    refine Prod.ext rfl ?_
    have hstamps := drop_split (timesOf points) (timesOf new)
      (points.length + new.length - MAX_POINTS_PER_SERIES)
    rw [htimes] at hstamps
    show (timesOf points).drop _ ++ (timesOf new).drop _ = _
    rw [hstamps]
    simp only [timesOf, List.map_drop, List.map_append]
  · have hnothing : (points ++ new).length - MAX_POINTS_PER_SERIES = 0 := by
      rw [List.length_append]
      omega
    rw [if_neg hmany, hnothing, List.drop_zero]
    simp only [timesOf, List.map_append]

end Lists

section Series

/-- What holds of a series between any two operations. -/
structure Series.Good (maxHosts : ℕ) (cutoff : ℚ) (s : Series) : Prop where
  parallel : ∀ host, s.stamps.get? host = (s.points.get? host).map timesOf
  few : s.points.items.length ≤ maxHosts
  short : ∀ host points, s.points.get? host = some points →
    points ≠ [] ∧ points.length ≤ MAX_POINTS_PER_SERIES
  kept : ∀ host points, s.points.get? host = some points → KeptOf cutoff (s.added host) points
  gone : ∀ host, s.points.get? host = none → s.added host = []

variable {maxHosts : ℕ} {cutoff cutoff' : ℚ} {s : Series} {host : String}

theorem Series.Good.evict (h : s.Good maxHosts cutoff) (host : String) :
    (s.evict host).Good maxHosts cutoff := by
  have hget : ∀ other points, (s.evict host).points.get? other = some points →
      other ≠ host ∧ s.points.get? other = some points := by
    intro other points hpoints
    rw [Series.evict, Dict.get?_erase] at hpoints
    split at hpoints
    · cases hpoints
    · rename_i hother
      exact ⟨hother, hpoints⟩
  refine ⟨fun other => ?_, ?_, fun other points hpoints => ?_, fun other points hpoints => ?_,
    fun other hnone => ?_⟩
  · rw [Series.evict, Dict.get?_erase, Dict.get?_erase]
    split
    · rfl
    · exact h.parallel other
  · exact (Dict.length_erase_le _ _).trans h.few
  · exact h.short other points (hget other points hpoints).2
  · obtain ⟨hother, hpoints'⟩ := hget other points hpoints
    show KeptOf cutoff (Function.update s.added host [] other) points
    rw [Function.update_of_ne hother]
    exact h.kept other points hpoints'
  · show Function.update s.added host [] other = []
    by_cases hother : other = host
    · rw [hother, Function.update_self]
    · rw [Function.update_of_ne hother]
      rw [Series.evict, Dict.get?_erase, if_neg hother] at hnone
      exact h.gone other hnone

theorem Series.Good.sweep (h : s.Good maxHosts cutoff) :
    (s.sweep cutoff').Good maxHosts cutoff := by
  unfold Series.sweep
  generalize s.dead cutoff' = dead
  induction dead generalizing s with
  | nil => exact h
  | cons host rest ih => exact ih (h.evict host)

/-- There is room for the host: it is there already, or a place is free. -/
def Series.HasRoom (maxHosts : ℕ) (s : Series) (host : String) : Prop :=
  host ∈ s.points.keys ∨ s.points.items.length < maxHosts

theorem Series.Good.make_room (h : s.Good maxHosts cutoff) (hcap : 1 ≤ maxHosts) (host : String) :
    (s.makeRoom maxHosts host).Good maxHosts cutoff ∧
    (s.makeRoom maxHosts host).HasRoom maxHosts host ∧
      ∀ other, (s.makeRoom maxHosts host).points.get? other = s.points.get? other ∧
          (s.makeRoom maxHosts host).added other = s.added other ∨
        other ≠ host ∧ (s.makeRoom maxHosts host).points.get? other = none := by
  unfold Series.makeRoom
  split
  · rename_i hfull
    obtain ⟨hnew, hmany⟩ := hfull
    -- a full series has a host, so there is a stalest one
    have hsome : s.points.items ≠ [] := by
      intro hnil
      rw [hnil, List.length_nil] at hmany
      omega
    obtain ⟨item, hitem⟩ := List.exists_mem_of_ne_nil _ hsome
    have hstamp : item.1 ∈ s.stamps.keys := by
      rw [Dict.mem_keys_iff, h.parallel, Dict.mem_items_iff.mp (Prod.mk.eta (p := item) ▸ hitem)]
      rfl
    cases hstalest : s.stalest with
    | none =>
        rw [Series.stalest, List.argmin_eq_none] at hstalest
        rw [hstalest] at hstamp
        cases hstamp
    | some stalest =>
        have hmem : stalest ∈ s.points.keys := by
          have hstamps := List.argmin_mem (Option.mem_def.mpr hstalest)
          rw [Dict.mem_keys_iff, h.parallel, Option.isSome_map] at hstamps
          exact Dict.mem_keys_iff.mpr hstamps
        have hne : host ≠ stalest := by
          rintro rfl
          rw [Dict.mem_keys_iff] at hmem
          rw [Option.isNone_iff_eq_none.mp hnew] at hmem
          cases hmem
        refine ⟨h.evict stalest, Or.inr ?_, fun other => ?_⟩
        · exact lt_of_lt_of_le (Dict.length_erase_lt hmem) h.few
        · by_cases hother : other = stalest
          · refine Or.inr ⟨fun heq => hne (heq.symm.trans hother), ?_⟩
            simp only [Series.evict, Dict.get?_erase, if_pos hother]
          · refine Or.inl ⟨?_, ?_⟩
            · simp only [Series.evict, Dict.get?_erase, if_neg hother]
            · exact Function.update_of_ne hother _ _
  · rename_i hroom
    refine ⟨h, ?_, fun other => Or.inl ⟨rfl, rfl⟩⟩
    by_cases hknown : host ∈ s.points.keys
    · exact Or.inl hknown
    · refine Or.inr ?_
      rw [Dict.mem_keys_iff, Option.not_isSome_iff_eq_none] at hknown
      rw [hknown] at hroom
      have hnot : ¬ maxHosts ≤ s.points.items.length := fun hle => hroom ⟨rfl, hle⟩
      omega

theorem Series.Good.add_host (h : s.Good maxHosts cutoff) (hcap : 1 ≤ maxHosts)
    (hle : cutoff' ≤ cutoff)
    {new : List MetricPoint} (hnew : new ≠ []) :
    (s.addHost maxHosts cutoff' (host, (new, timesOf new))).Good maxHosts cutoff := by
  obtain ⟨hgood, hroom, -⟩ := h.make_room hcap host
  generalize hs : s.makeRoom maxHosts host = r at hgood hroom
  have hlists : r.lists host = (r.points.getD host [], timesOf (r.points.getD host [])) := by
    unfold Series.lists Dict.getD
    rw [hgood.parallel]
    cases r.points.get? host with
    | none => rfl
    | some points => rfl
  have hkept : KeptOf cutoff (r.added host) (r.points.getD host []) := by
    unfold Dict.getD
    cases hpoints : r.points.get? host with
    | none =>
        rw [hgood.gone host hpoints]
        exact ⟨[], rfl, fun i p hp => by cases hp⟩
    | some points => exact hgood.kept host points hpoints
  generalize hold : (r.points.getD host []).dropWhile (fun p => p.timestamp < cutoff') = old
  generalize hlast : (old ++ new).drop ((old ++ new).length - MAX_POINTS_PER_SERIES) = last
  have hadd : s.addHost maxHosts cutoff' (host, (new, timesOf new)) =
      { points := r.points.set host last
        stamps := r.stamps.set host (timesOf last)
        added := Function.update r.added host (r.added host ++ new) } := by
    simp only [Series.addHost, hs, hlists, trim_expired_eq, hold, extend_capped_eq, hlast]
  have hkept' : KeptOf cutoff (r.added host ++ new) last := by
    rw [← hlast, ← hold]
    exact (hkept.trim hle).extend
  have hcount : last ≠ [] ∧ last.length ≤ MAX_POINTS_PER_SERIES := by
    have hpositive : 0 < new.length := List.length_pos_iff.mpr hnew
    have hlength : last.length =
        (old ++ new).length - ((old ++ new).length - MAX_POINTS_PER_SERIES) := by
      rw [← hlast, List.length_drop]
    rw [List.length_append] at hlength
    have hmax : MAX_POINTS_PER_SERIES = 2500 := rfl
    refine ⟨?_, by omega⟩
    intro hnil
    rw [hnil, List.length_nil] at hlength
    omega
  rw [hadd]
  refine ⟨fun other => ?_, ?_, fun other points hpoints => ?_, fun other points hpoints => ?_,
    fun other hnone => ?_⟩
  · show (r.stamps.set host (timesOf last)).get? other = _
    rw [Dict.get?_set, Dict.get?_set]
    split
    · rfl
    · exact hgood.parallel other
  · rw [Dict.length_set]
    split
    · exact hgood.few
    · rename_i hnot
      exact hroom.resolve_left hnot
  · rw [Dict.get?_set] at hpoints
    split at hpoints
    · cases hpoints
      exact hcount
    · exact hgood.short other points hpoints
  · show KeptOf cutoff (Function.update r.added host (r.added host ++ new) other) points
    rw [Dict.get?_set] at hpoints
    split at hpoints
    · rename_i hother
      cases hpoints
      rw [hother, Function.update_self]
      exact hkept'
    · rename_i hother
      rw [Function.update_of_ne hother]
      exact hgood.kept other points hpoints
  · show Function.update r.added host (r.added host ++ new) other = []
    rw [Dict.get?_set] at hnone
    split at hnone
    · cases hnone
    · rename_i hother
      rw [Function.update_of_ne hother]
      exact hgood.gone other hnone

theorem added_add_host (maxHosts : ℕ) (cutoff : ℚ) (s : Series)
    (item : String × (List MetricPoint × List ℚ)) (other : String) :
    (s.addHost maxHosts cutoff item).added other <:+
      s.added other ++ if other = item.1 then item.2.1 else [] := by
  have hroom : (s.makeRoom maxHosts item.1).added other <:+ s.added other := by
    unfold Series.makeRoom
    split
    · cases s.stalest with
      | none => exact List.suffix_refl _
      | some stalest =>
          show Function.update s.added stalest [] other <:+ _
          by_cases hother : other = stalest
          · rw [hother, Function.update_self]
            exact List.nil_suffix
          · exact ⟨[], Function.update_of_ne hother _ _⟩
    · exact List.suffix_refl _
  show Function.update (s.makeRoom maxHosts item.1).added item.1
    ((s.makeRoom maxHosts item.1).added item.1 ++ item.2.1) other <:+ _
  by_cases hother : other = item.1
  · rw [if_pos hother, hother, Function.update_self]
    obtain ⟨earlier, hearlier⟩ := hother ▸ hroom
    exact ⟨earlier, by rw [← hearlier, List.append_assoc]⟩
  · rw [if_neg hother, Function.update_of_ne hother, List.append_nil]
    exact hroom

theorem added_sweep (cutoff : ℚ) (s : Series) (host : String) :
    (s.sweep cutoff).added host <:+ s.added host := by
  unfold Series.sweep
  generalize s.dead cutoff = dead
  induction dead generalizing s with
  | nil => exact List.suffix_refl _
  | cons first rest ih =>
      refine (ih (s.evict first)).trans ?_
      show Function.update s.added first [] host <:+ _
      by_cases hhost : host = first
      · rw [hhost, Function.update_self]
        exact List.nil_suffix
      · exact ⟨[], Function.update_of_ne hhost _ _⟩

theorem Series.Good.add_hosts (h : s.Good maxHosts cutoff) (hcap : 1 ≤ maxHosts)
    (hle : cutoff' ≤ cutoff)
    {items : List (String × (List MetricPoint × List ℚ))}
    (hitems : ∀ item ∈ items, item.2.1 ≠ [] ∧ item.2.2 = timesOf item.2.1) :
    (items.foldl (Series.addHost maxHosts cutoff') s).Good maxHosts cutoff := by
  induction items generalizing s with
  | nil => exact h
  | cons item rest ih =>
      obtain ⟨host, new, stamps⟩ := item
      obtain ⟨hnew, hstamps⟩ := hitems _ List.mem_cons_self
      have hstamps' : stamps = timesOf new := hstamps
      subst hstamps'
      exact ih (h.add_host hcap hle hnew) fun item hitem =>
        hitems item (List.mem_cons_of_mem _ hitem)

/-- And what is noted of them. -/
theorem added_add_hosts (maxHosts : ℕ) (cutoff : ℚ) (s : Series)
    {items : List (String × (List MetricPoint × List ℚ))} (hnodup : (items.map Prod.fst).Nodup)
    (other : String) :
    (items.foldl (Series.addHost maxHosts cutoff) s).added other <:+
      s.added other ++ ((items.lookup other).map Prod.fst).getD [] := by
  induction items generalizing s with
  | nil =>
      show s.added other <:+ s.added other ++ []
      exact ⟨[], (List.append_nil _).symm⟩
  | cons item rest ih =>
      rw [List.map_cons, List.nodup_cons] at hnodup
      obtain ⟨earlier, hearlier⟩ := added_add_host maxHosts cutoff s item other
      rw [List.foldl_cons, lookup_items_cons]
      refine (ih (s.addHost maxHosts cutoff item) hnodup.2).trans ?_
      by_cases hother : other = item.1
      · -- the host does not come again
        have hrest : rest.lookup other = none := lookup_items_eq_none (hother ▸ hnodup.1)
        rw [if_pos hother] at hearlier
        rw [if_pos hother, hrest]
        exact ⟨earlier, by rw [Option.map_none, Option.getD_none, List.append_nil, hearlier]; rfl⟩
      · rw [if_neg hother, List.append_nil] at hearlier
        rw [if_neg hother, ← hearlier, List.append_assoc]
        exact List.suffix_append _ _

end Series

end SystemsManager.Alarms.Storage
