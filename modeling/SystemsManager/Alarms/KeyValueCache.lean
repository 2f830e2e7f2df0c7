import Mathlib.Tactic.NormNum
import SystemsManager.Python.OrderedDict

/-!
# The key/value part of the alarm engine's cache

`get`, `set` and `delete` of `MetricCache` keep entries with a time to live in an `OrderedDict`, the
least recently used one first. A `set` into a full cache evicts that one before it is known whether
the key is new, so that overwriting a key costs another entry. Read `lru_of_served`: without such an
overwrite an entry is missing only if as many other keys were used since as the cache holds; and
`get_answers_last_set`: what a `get` answers is the last value set.
-/

namespace SystemsManager.Alarms.Storage

open Python

variable {V : Type}

/-- `CacheEntry` -/
structure CacheEntry (V : Type) where
  value : V
  expiresAt : ℚ
  deriving DecidableEq

/-- `is_expired` -/
def CacheEntry.isExpired (entry : CacheEntry V) (now : ℚ) : Bool := entry.expiresAt < now

/-- The entries of the cache, and what has happened to its keys, the newest first. -/
structure KeyValueCache (V : Type) where
  metricTtl : ℤ
  maxEntries : ℤ
  cache : Dict String (CacheEntry V)
  history : List (Use String)

namespace KeyValueCache

/-- A cache without entries. -/
def new (metricTtl maxEntries : ℤ) : KeyValueCache V := ⟨metricTtl, maxEntries, ∅, []⟩

variable (c : KeyValueCache V)

/-- `_evict` -/
def evict (key : String) : KeyValueCache V := { c with cache := c.cache.erase key }

/-- `_evict_expired` -/
def evictExpired (now : ℚ) : KeyValueCache V :=
  { c with cache := c.cache.filter fun _ entry => !entry.isExpired now }

/-- `_evict_oldest` -/
def evictOldest : KeyValueCache V := { c with cache := c.cache.popFirst }

/-- The cache is full. -/
def Full : Prop := c.maxEntries ≤ c.cache.items.length

instance : Decidable c.Full := inferInstanceAs (Decidable (_ ≤ _))

/-- `get` -/
def get (now : ℚ) (key : String) : KeyValueCache V × Option V := match c.cache.get? key with
  | none => (c, none)
  | some entry =>
      if entry.isExpired now then (c.evict key, none)
      else
        ({ c with
          cache := c.cache.moveToEnd key
          history := .used key :: c.history }, some entry.value)

/-- The room that `set` makes: expired entries go first, then the oldest. -/
def makeRoom (now : ℚ) : KeyValueCache V :=
  let c := if c.Full then c.evictExpired now else c
  if c.Full then c.evictOldest else c

/-- `ttl_seconds or self._metric_ttl` -/
def ttlOf (ttlSeconds : Option ℤ) : ℤ := match ttlSeconds with
  | none => c.metricTtl
  | some ttl => if ttl = 0 then c.metricTtl else ttl

/-- `set` -/
def set (now : ℚ) (key : String) (value : V) (ttlSeconds : Option ℤ) : KeyValueCache V :=
  let ttl := c.ttlOf ttlSeconds
  let c := c.makeRoom now
  { c with
    cache := (c.cache.set key ⟨value, now + ttl⟩).moveToEnd key
    history := .used key :: c.history }

/-- `delete` -/
def delete (key : String) : KeyValueCache V × Bool :=
  ({ c.evict key with history := .deleted key :: c.history }, (c.cache.get? key).isSome)

end KeyValueCache

/-- A call of the cache. -/
inductive CacheCall (V : Type) where
  | get (key : String)
  | set (key : String) (value : V) (ttlSeconds : Option ℤ)
  | delete (key : String)

namespace KeyValueCache

/-- A call at a time. -/
def call (c : KeyValueCache V) (now : ℚ) : CacheCall V → KeyValueCache V
  | .get key => (c.get now key).1
  | .set key value ttlSeconds => c.set now key value ttlSeconds
  | .delete key => (c.delete key).1

/-- No entry has expired. -/
def fresh (c : KeyValueCache V) (now : ℚ) : Bool :=
  c.cache.items.all fun item => !item.2.isExpired now

/-- A `set` does not overwrite a key of a full cache, unless it is the oldest one. -/
def noOverwrite (c : KeyValueCache V) : CacheCall V → Bool
  | .set key _ _ => !decide c.Full || !c.cache.keys.contains key || c.cache.keys.head? == some key
  | _ => true

end KeyValueCache

/-- The caches that are reached by calls that find no entry expired and meet a condition. -/
inductive Served (allow : KeyValueCache V → CacheCall V → Bool) (metricTtl maxEntries : ℤ) :
    KeyValueCache V → Prop where
  | new : Served allow metricTtl maxEntries (.new metricTtl maxEntries)
  | call {c : KeyValueCache V} {now : ℚ} {op : CacheCall V} : Served allow metricTtl maxEntries c →
      c.fresh now = true → allow c op = true → Served allow metricTtl maxEntries (c.call now op)

/-- The cache is not too large, and a key that was used and not deleted is missing only where as
many other keys were used since as the cache may hold. -/
def KeyValueCache.LeastRecentlyUsed (c : KeyValueCache V) : Prop :=
  c.cache.items.length ≤ c.maxEntries ∧
    ∀ key, Use.used key ∈ c.history → Use.deleted key ∉ since c.history key →
      c.cache.get? key = none → c.maxEntries ≤ (usedKeys (since c.history key)).card

namespace KeyValueCache

variable {c : KeyValueCache V} {now : ℚ}

theorem evict_expired_fresh (h : c.fresh now = true) : c.evictExpired now = c := by
  have hsame : c.cache.filter (fun _ entry => !entry.isExpired now) = c.cache := by
    refine Dict.ext ?_
    exact List.filter_eq_self.mpr (List.all_eq_true.mp h)
  unfold evictExpired
  rw [hsame]

theorem make_room_fresh (h : c.fresh now = true) :
    c.makeRoom now = if c.Full then c.evictOldest else c := by
  unfold makeRoom
  dsimp only
  by_cases hfull : c.Full
  · rw [if_pos hfull, evict_expired_fresh h, if_pos hfull]
  · rw [if_neg hfull, if_neg hfull]

theorem length_keys (c : KeyValueCache V) : c.cache.keys.length = c.cache.items.length :=
  List.length_map _

/-- The invariant: the cache retains its keys. -/
def Ordered (c : KeyValueCache V) : Prop := Retains c.maxEntries c.history c.cache.keys

theorem Ordered.get (h : c.Ordered) (hfresh : c.fresh now = true) (key : String) :
    (c.get now key).1.Ordered := by
  unfold KeyValueCache.get
  cases hentry : c.cache.get? key with
  | none => exact h
  | some entry =>
      have hlive : entry.isExpired now = false := by
        have hitem := List.all_eq_true.mp hfresh _ (Dict.mem_items_iff.mpr hentry)
        exact (Bool.not_eq_true' _).mp hitem
      have hkey := Dict.mem_keys_of_get hentry
      dsimp only
      rw [if_neg (by rw [hlive]; exact Bool.false_ne_true)]
      unfold Ordered
      dsimp only
      rw [Dict.keys_move_to_end hkey]
      exact Retains.use_known h hkey

theorem Ordered.set (h : c.Ordered) (hmax : 1 ≤ c.maxEntries) (hfresh : c.fresh now = true)
    {key : String} {value : V} {ttlSeconds : Option ℤ}
    (hallow : c.noOverwrite (.set key value ttlSeconds) = true) :
    (c.set now key value ttlSeconds).Ordered := by
  have hroom := make_room_fresh hfresh
  unfold KeyValueCache.set Ordered
  dsimp only
  rw [Dict.keys_set_move_to_end, hroom]
  by_cases hfull : c.Full
  · rw [if_pos hfull]
    show Retains c.maxEntries (.used key :: c.history)
      (c.cache.popFirst.keys.filter (· != key) ++ [key])
    rw [Dict.keys_pop_first]
    unfold Full at hfull
    rw [← length_keys] at hfull
    unfold Ordered at h
    unfold noOverwrite at hallow
    rw [decide_eq_true (by unfold Full; rw [← length_keys]; exact hfull)] at hallow
    generalize c.cache.keys = keys at h hfull hallow
    cases keys with
    | nil =>
        rw [List.length_nil] at hfull
        omega
    | cons first rest =>
        rw [List.tail_cons]
        by_cases hkey : key = first
        · -- the oldest entry is the one that is overwritten
          subst hkey
          have hknown := Retains.use_known h List.mem_cons_self
          rwa [List.filter_cons_of_neg (by simp)] at hknown
        · have hnew : key ∉ first :: rest := by
            intro hmem
            dsimp only at hallow
            rw [List.contains_iff_mem.mpr hmem] at hallow
            simp only [Bool.not_true, Bool.false_or, List.head?_cons, beq_iff_eq,
              Option.some.injEq] at hallow
            exact hkey hallow.symm
          have hrest : rest.filter (· != key) = rest := by
            rw [List.filter_eq_self]
            intro other hother
            rw [bne_iff_ne]
            rintro rfl
            exact hnew (List.mem_cons_of_mem _ hother)
          rw [hrest]
          exact Retains.use_full h hnew hfull
  · rw [if_neg hfull]
    unfold Full at hfull
    rw [← length_keys, not_le] at hfull
    by_cases hkey : key ∈ c.cache.keys
    · exact Retains.use_known h hkey
    · have hsame : c.cache.keys.filter (· != key) = c.cache.keys := by
        rw [List.filter_eq_self]
        intro other hother
        rw [bne_iff_ne]
        rintro rfl
        exact hkey hother
      rw [hsame]
      exact Retains.use_new h hkey hfull

theorem Ordered.delete (h : c.Ordered) (key : String) : (c.delete key).1.Ordered := by
  unfold Ordered
  show Retains c.maxEntries (.deleted key :: c.history) (c.cache.erase key).keys
  rw [Dict.keys_erase]
  exact Retains.delete h key

theorem max_entries_call (c : KeyValueCache V) (now : ℚ) (op : CacheCall V) :
    (c.call now op).maxEntries = c.maxEntries := by
  cases op with
  | get key =>
      show (c.get now key).1.maxEntries = c.maxEntries
      unfold KeyValueCache.get
      split
      · rfl
      · split <;> rfl
  | set key value ttlSeconds =>
      show (c.makeRoom now).maxEntries = c.maxEntries
      unfold makeRoom
      dsimp only
      by_cases hfull : c.Full
      · rw [if_pos hfull]
        split <;> rfl
      · rw [if_neg hfull, if_neg hfull]
  | delete key => rfl

end KeyValueCache

open KeyValueCache

/-- In every run that finds no entry expired and overwrites no key of a full cache but the oldest,
the cache is within its bound, and an entry is missing only where as many other keys were used since
its own last use as the cache may hold. -/
theorem lru_of_served (metricTtl maxEntries : ℤ) (hmax : 1 ≤ maxEntries) (c : KeyValueCache V)
    (h : Served noOverwrite metricTtl maxEntries c) : c.LeastRecentlyUsed := by
  have hordered : c.maxEntries = maxEntries ∧ c.Ordered := by
    induction h with
    | new =>
        refine ⟨rfl, List.nodup_nil, ⟨fun key hkey => (by cases hkey), List.Pairwise.nil⟩, ?_,
          fun key hused => (by cases hused)⟩
        show (0 : ℤ) ≤ maxEntries
        omega
    | @call c now op _ hfresh hallow ih =>
        obtain ⟨hbound, hkeeps⟩ := ih
        refine ⟨(max_entries_call c now op).trans hbound, ?_⟩
        cases op with
        | get key => exact hkeeps.get hfresh key
        | set key value ttlSeconds => exact hkeeps.set (hbound ▸ hmax) hfresh hallow
        | delete key => exact hkeeps.delete key
  obtain ⟨-, hordered⟩ := hordered
  refine ⟨by rw [← length_keys]; exact hordered.size, fun key hused hdeleted hnone => ?_⟩
  refine hordered.missing key hused hdeleted fun hmem => ?_
  rw [Dict.mem_keys_iff, hnone] at hmem
  cases hmem

/-- Three keys are set in a cache for two. -/
def threeSets : KeyValueCache ℕ :=
  (((KeyValueCache.new 60 2).call 0 (.set "a" 1 none)).call 1 (.set "b" 2 none)).call 2
    (.set "c" 3 none)

/-- The first one gives way to the two others. -/
theorem three_sets_lru : threeSets.cache.get? "a" = none ∧ threeSets.LeastRecentlyUsed := by
  refine ⟨by decide +kernel, lru_of_served 60 2 (by decide) threeSets ?_⟩
  refine .call (.call (.call .new ?_ ?_) ?_ ?_) ?_ ?_ <;> decide +kernel

/-- Two keys are set in a cache for two, and the second is overwritten. -/
def secondOverwritten : KeyValueCache ℕ :=
  (((KeyValueCache.new 60 2).call 0 (.set "a" 1 none)).call 1 (.set "b" 2 none)).call 2
    (.set "b" 3 none)

/-- The first is evicted, although only one other key was used since. -/
theorem overwrite_evicts : Served (fun _ _ => true) 60 2 secondOverwritten ∧
    ¬ secondOverwritten.LeastRecentlyUsed := by
  constructor
  · refine .call (.call (.call .new ?_ rfl) ?_ rfl) ?_ rfl <;> decide +kernel
  · intro h
    have hmissing := h.2 "a" (by decide +kernel) (by decide +kernel) (by decide +kernel)
    revert hmissing
    decide +kernel

section Coherence

/-- The cache after some calls, each at its own time. -/
def KeyValueCache.run (metricTtl maxEntries : ℤ) (calls : List (ℚ × CacheCall V)) :
    KeyValueCache V :=
  calls.foldl (fun c op => c.call op.1 op.2) (.new metricTtl maxEntries)

/-- The call sets or deletes the key. -/
def CacheCall.writes (key : String) : CacheCall V → Prop
  | .get _ => False
  | .set other _ _ => other = key
  | .delete other => other = key

/-- The entry is that of the last call that sets or deletes the key, which is a `set`. -/
def LastSet (metricTtl maxEntries : ℤ) (calls : List (ℚ × CacheCall V)) (key : String)
    (entry : CacheEntry V) : Prop :=
  ∃ before time value ttlSeconds after, calls = before ++
    (time, .set key value ttlSeconds) :: after ∧
    (∀ op ∈ after, ¬ op.2.writes key) ∧
    entry = ⟨value, time + (KeyValueCache.run metricTtl maxEntries before).ttlOf ttlSeconds⟩

variable {metricTtl maxEntries : ℤ} {calls : List (ℚ × CacheCall V)} {c : KeyValueCache V}
  {key : String} {entry : CacheEntry V} {now : ℚ}

theorem LastSet.concat {op : CacheCall V} (h : LastSet metricTtl maxEntries calls key entry)
    (hop : ¬ op.writes key) : LastSet metricTtl maxEntries (calls ++ [(now, op)]) key entry := by
  obtain ⟨before, time, value, ttlSeconds, after, rfl, hafter, hentry⟩ := h
  refine ⟨before, time, value, ttlSeconds, after ++ [(now, op)], by simp, ?_, hentry⟩
  intro later hlater
  rcases List.mem_append.mp hlater with hlater | hlater
  · exact hafter later hlater
  · rwa [List.mem_singleton.mp hlater]

/-- What makes room only drops entries. -/
theorem get_of_make_room (h : (c.makeRoom now).cache.get? key = some entry) :
    c.cache.get? key = some entry := by
  have hexpired : ∀ {key entry}, (c.evictExpired now).cache.get? key = some entry →
      c.cache.get? key = some entry := by
    intro key entry h
    unfold KeyValueCache.evictExpired at h
    rw [Dict.get?_filter, Option.filter_eq_some_iff] at h
    exact h.1
  have hroom : ∀ {c' : KeyValueCache V}, (∀ {key entry}, c'.cache.get? key = some entry →
      c.cache.get? key = some entry) →
      (if c'.Full then c'.evictOldest else c').cache.get? key = some entry →
      c.cache.get? key = some entry := by
    intro c' hkept h
    split at h
    · exact hkept (Dict.get_of_pop_first h)
    · exact hkept h
  refine hroom ?_ h
  split
  · exact hexpired
  · exact id

/-- What a call leaves of the entry of a key was there before, or the call has set it. -/
theorem get_of_call {op : CacheCall V} (h : (c.call now op).cache.get? key = some entry) :
    (c.cache.get? key = some entry ∧ ¬ op.writes key) ∨
      ∃ value ttlSeconds, op = .set key value ttlSeconds ∧
        entry = ⟨value, now + c.ttlOf ttlSeconds⟩ := by
  cases op with
  | get other =>
      refine .inl ⟨?_, id⟩
      simp only [call, KeyValueCache.get] at h
      split at h
      · exact h
      · split at h
        · rw [KeyValueCache.evict, Dict.get?_erase] at h
          split at h
          · cases h
          · exact h
        · rwa [Dict.get?_move_to_end] at h
  | set other value ttlSeconds =>
      simp only [call, KeyValueCache.set, Dict.get?_move_to_end, Dict.get?_set] at h
      split at h
      · rename_i hkey
        cases h
        exact .inr ⟨value, ttlSeconds, by rw [hkey], rfl⟩
      · rename_i hkey
        exact .inl ⟨get_of_make_room h, fun heq => hkey heq.symm⟩
  | delete other =>
      simp only [call, KeyValueCache.delete, KeyValueCache.evict, Dict.get?_erase] at h
      split at h
      · cases h
      · rename_i hkey
        exact .inl ⟨h, fun heq => hkey heq.symm⟩

/-- The entries of a cache are those that were last set. -/
theorem last_set_of_run
    (h : (KeyValueCache.run metricTtl maxEntries calls).cache.get? key = some entry) :
    LastSet metricTtl maxEntries calls key entry := by
  induction calls using List.reverseRecOn generalizing entry with
  | nil => cases h
  | append_singleton calls op ih =>
      obtain ⟨now, op⟩ := op
      have hrun : KeyValueCache.run metricTtl maxEntries (calls ++ [(now, op)]) =
          (KeyValueCache.run metricTtl maxEntries calls).call now op := by
        simp [KeyValueCache.run]
      rw [hrun] at h
      rcases get_of_call h with ⟨hget, hop⟩ | ⟨value, ttlSeconds, rfl, rfl⟩
      · exact (ih hget).concat hop
      · refine ⟨calls, now, value, ttlSeconds, [], rfl, fun later hlater => ?_, rfl⟩
        cases hlater

/-- Whatever the calls and their times, a `get` that answers gives the value of the last `set` of
the key, which nothing has deleted since and whose time to live is not over. -/
theorem get_answers_last_set (metricTtl maxEntries : ℤ) (calls : List (ℚ × CacheCall V)) (now : ℚ)
    (key : String) (value : V)
    (h : ((KeyValueCache.run metricTtl maxEntries calls).get now key).2 = some value) :
    ∃ expiresAt, LastSet metricTtl maxEntries calls key ⟨value, expiresAt⟩ ∧ now ≤ expiresAt := by
  unfold KeyValueCache.get at h
  split at h
  · cases h
  · rename_i entry hentry
    split at h
    · cases h
    · rename_i hlive
      cases h
      refine ⟨entry.expiresAt, last_set_of_run hentry, ?_⟩
      exact not_lt.mp fun hlt => hlive (decide_eq_true hlt)

/-- The second value of a key that was set twice. -/
theorem get_answers_last_set_twice :
    ∃ expiresAt, LastSet 60 2 [(0, .set "a" 1 none), (1, .set "a" 2 (some 5))] "a" ⟨2, expiresAt⟩ ∧
      (3 : ℚ) ≤ expiresAt :=
  get_answers_last_set 60 2 _ 3 "a" 2 (by decide +kernel)

end Coherence

end SystemsManager.Alarms.Storage
