import Mathlib.Data.Finset.Card
import Mathlib.Data.Finset.Dedup
import SystemsManager.Python.DictUpdate

/-!
# Ordered dictionaries and recency

An `OrderedDict` can move a key to its end and pop its first item, and so keep its keys in the order
of their last use. `since` is what happened after the last use of a key. Read `Retains`: the keys of
a cache that lets the least recently used one go, and what a use and a deletion do to them.
-/

namespace Python

variable {κ ν : Type} [DecidableEq κ]

namespace Dict

/-- `d.move_to_end(key)`, for a key that is there. -/
def moveToEnd (d : Dict κ ν) (key : κ) : Dict κ ν := match d.get? key with
  | none => d
  | some value => (d.erase key).set key value

/-- `d.popitem(last=False)`, for its effect on the dictionary. -/
def popFirst (d : Dict κ ν) : Dict κ ν where
  items := d.items.tail
  nodup := ((List.tail_sublist d.items).map Prod.fst).nodup d.nodup

/-- The keys after one is gone. -/
theorem keys_erase (d : Dict κ ν) (key : κ) : (d.erase key).keys = d.keys.filter (· != key) := by
  unfold erase filter keys
  dsimp only
  rw [List.filter_map]
  rfl

omit [DecidableEq κ] in
theorem keys_pop_first (d : Dict κ ν) : d.popFirst.keys = d.keys.tail := List.map_tail

theorem keys_set (d : Dict κ ν) (key : κ) (value : ν) :
    (d.set key value).keys = if key ∈ d.keys then d.keys else d.keys ++ [key] :=
  keys_set_items key value d.items

/-- The key that is moved comes last, the others keep their order. -/
theorem keys_move_to_end {d : Dict κ ν} {key : κ} (h : key ∈ d.keys) :
    (d.moveToEnd key).keys = d.keys.filter (· != key) ++ [key] := by
  obtain ⟨value, hvalue⟩ := exists_get_of_mem_keys h
  have hgone : key ∉ (d.erase key).keys := by
    rw [keys_erase, List.mem_filter]
    rintro ⟨-, hne⟩
    exact bne_iff_ne.mp hne rfl
  unfold moveToEnd
  rw [hvalue]
  dsimp only
  rw [keys_set, if_neg hgone, keys_erase]

theorem get?_move_to_end (d : Dict κ ν) (key other : κ) :
    (d.moveToEnd key).get? other = d.get? other := by
  unfold moveToEnd
  cases hkey : d.get? key with
  | none => rfl
  | some value =>
      rw [get?_set, get?_erase]
      by_cases hother : other = key
      · rw [if_pos hother, hother, hkey]
      · rw [if_neg hother, if_neg hother]

theorem get_of_pop_first {d : Dict κ ν} {key : κ} {value : ν}
    (h : d.popFirst.get? key = some value) : d.get? key = some value :=
  mem_items_iff.mp (List.mem_of_mem_tail (mem_items_iff.mpr h))

/-- A key that is written and moved comes last. -/
theorem keys_set_move_to_end (d : Dict κ ν) (key : κ) (value : ν) :
    ((d.set key value).moveToEnd key).keys = d.keys.filter (· != key) ++ [key] := by
  have hkey : key ∈ (d.set key value).keys := by
    rw [mem_keys_iff, get?_set, if_pos rfl]
    rfl
  rw [keys_move_to_end hkey, keys_set]
  split
  · rfl
  · rw [List.filter_append, List.filter_singleton, bne_self_eq_false]
    exact congrArg (· ++ [key]) (List.append_nil _)

end Dict

/-- What happens to a key. -/
inductive Use (κ : Type) where
  | used (key : κ)
  | deleted (key : κ)
  deriving DecidableEq

/-- What happened after the last use of a key; a history begins with the newest. -/
def since (history : List (Use κ)) (key : κ) : List (Use κ) := history.takeWhile (· ≠ .used key)

/-- The keys that were used in a history. -/
def usedKeys (history : List (Use κ)) : Finset κ :=
  (history.filterMap fun use => match use with
    | .used key => some key
    | .deleted _ => none).toFinset

variable {history : List (Use κ)} {key other : κ}

/-- A key is among those that were used. -/
theorem mem_used_keys : key ∈ usedKeys history ↔ Use.used key ∈ history := by
  unfold usedKeys
  rw [List.mem_toFinset, List.mem_filterMap]
  constructor
  · rintro ⟨use, huse, hkey⟩
    cases use with
    | used k =>
        cases hkey
        exact huse
    | deleted k => cases hkey
  · exact fun h => ⟨_, h, rfl⟩

theorem since_used (history : List (Use κ)) (key : κ) : since (.used key :: history) key = [] :=
  List.takeWhile_cons_of_neg (by simp)

theorem since_other {use : Use κ} (h : use ≠ .used key) :
    since (use :: history) key = use :: since history key :=
  List.takeWhile_cons_of_pos (decide_eq_true h)

/-- What has happened to a list of keys that are in the order of their last use: each was used and
not deleted since, and each later one was used after it. -/
structure ByRecency (history : List (Use κ)) (keys : List κ) : Prop where
  used : ∀ key ∈ keys, Use.used key ∈ history ∧ Use.deleted key ∉ since history key
  order : keys.Pairwise fun key other => Use.used other ∈ since history key

variable {keys : List κ}

theorem ByRecency.sublist {keys' : List κ} (h : ByRecency history keys)
    (hsub : keys'.Sublist keys) :
    ByRecency history keys' :=
  ⟨fun key hkey => h.used key (hsub.subset hkey), h.order.sublist hsub⟩

/-- A key is used and comes last. -/
theorem ByRecency.use (h : ByRecency history keys) (hnew : key ∉ keys) :
    ByRecency (.used key :: history) (keys ++ [key]) := by
  have hother : ∀ other ∈ keys, since (.used key :: history) other =
    .used key :: since history other := by
    intro other hmem
    refine since_other fun heq => hnew ?_
    cases heq
    exact hmem
  refine ⟨fun other hmem => ?_, ?_⟩
  · rcases List.mem_append.mp hmem with hmem | hmem
    · obtain ⟨hused, hdeleted⟩ := h.used other hmem
      refine ⟨List.mem_cons_of_mem _ hused, ?_⟩
      rw [hother other hmem, List.mem_cons, not_or]
      exact ⟨fun heq => (by cases heq), hdeleted⟩
    · rw [List.mem_singleton.mp hmem, since_used]
      exact ⟨List.mem_cons_self, List.not_mem_nil⟩
  · rw [List.pairwise_append]
    refine ⟨?_, List.pairwise_singleton _ _, fun first hfirst last hlast => ?_⟩
    · refine h.order.imp_of_mem fun hfirst _ hlater => ?_
      rw [hother _ hfirst]
      exact List.mem_cons_of_mem _ hlater
    · rw [List.mem_singleton.mp hlast, hother first hfirst]
      exact List.mem_cons_self

/-- A key is deleted. -/
theorem ByRecency.delete (h : ByRecency history keys) (hgone : key ∉ keys) :
    ByRecency (.deleted key :: history) keys := by
  have hother : ∀ other, since (.deleted key :: history) other =
    .deleted key :: since history other :=
    fun other => since_other fun heq => (by cases heq)
  refine ⟨fun other hmem => ?_, h.order.imp fun hlater => ?_⟩
  · obtain ⟨hused, hdeleted⟩ := h.used other hmem
    refine ⟨List.mem_cons_of_mem _ hused, ?_⟩
    rw [hother, List.mem_cons, not_or]
    refine ⟨fun heq => ?_, hdeleted⟩
    cases heq
    exact hgone hmem
  · rw [hother]
    exact List.mem_cons_of_mem _ hlater

/-- Use of more keys does not make them fewer. -/
theorem card_used_keys_le (use : Use κ) (history : List (Use κ)) :
    (usedKeys history).card ≤ (usedKeys (use :: history)).card := by
  refine Finset.card_le_card fun key hkey => ?_
  rw [mem_used_keys] at hkey ⊢
  exact List.mem_cons_of_mem _ hkey

/-- The keys of a cache for `max` of them that lets the least recently used one go: they are in the
order of their last use, and a key that was used and not deleted is missing only where `max` other
keys were used since. -/
structure Retains (max : ℤ) (history : List (Use κ)) (keys : List κ) : Prop where
  nodup : keys.Nodup
  recency : ByRecency history keys
  size : (keys.length : ℤ) ≤ max
  missing : ∀ key, Use.used key ∈ history → Use.deleted key ∉ since history key → key ∉ keys →
    max ≤ (usedKeys (since history key)).card

variable {max : ℤ}

/-- A key is used and comes last. The other keys that are missing then were missing before, or as
many others were used since. -/
theorem Retains.use {keys' : List κ} (h : Retains max history keys) (hsub : keys'.Sublist keys)
    (hnew : key ∉ keys') (hroom : (keys'.length : ℤ) < max)
    (hgone : ∀ other ∈ keys, other ≠ key → other ∉ keys' →
      max ≤ (usedKeys (.used key :: since history other)).card) :
    Retains max (.used key :: history) (keys' ++ [key]) := by
  refine ⟨?_, (h.recency.sublist hsub).use hnew, ?_, fun other hused hdeleted hnone => ?_⟩
  · rw [List.nodup_append]
    refine ⟨hsub.nodup h.nodup, List.nodup_singleton _, fun a ha b hb => ?_⟩
    rw [List.mem_singleton.mp hb]
    rintro rfl
    exact hnew ha
  · rw [List.length_append, List.length_singleton]
    omega
  · rw [List.mem_append, List.mem_singleton, not_or] at hnone
    have hne : Use.used key ≠ .used other := fun heq => hnone.2 (by cases heq; rfl)
    rw [since_other hne] at hdeleted ⊢
    rw [List.mem_cons, not_or] at hdeleted
    by_cases hmem : other ∈ keys
    · exact hgone other hmem hnone.2 hnone.1
    · have hused' := (List.mem_cons.mp hused).resolve_left fun heq => hne heq.symm
      have hbefore := h.missing other hused' hdeleted.2 hmem
      have hle := card_used_keys_le (.used key) (since history other)
      omega

/-- A key that is there is used. -/
theorem Retains.use_known (h : Retains max history keys) (hkey : key ∈ keys) :
    Retains max (.used key :: history) (keys.filter (· != key) ++ [key]) := by
  have hnew : key ∉ keys.filter (· != key) :=
    fun hmem => bne_iff_ne.mp (List.mem_filter.mp hmem).2 rfl
  refine h.use List.filter_sublist hnew ?_ fun other hmem hother hgone => ?_
  · have hlt : (keys.filter (· != key)).length < keys.length := by
      rw [List.length_filter_lt_length_iff_exists]
      exact ⟨key, hkey, by simp⟩
    have hsize := h.size
    omega
  · have hkept : other ∈ keys.filter (· != key) := List.mem_filter.mpr ⟨hmem, bne_iff_ne.mpr hother⟩
    exact absurd hkept hgone

theorem Retains.use_new (h : Retains max history keys) (hnew : key ∉ keys)
    (hroom : (keys.length : ℤ) < max) : Retains max (.used key :: history) (keys ++ [key]) :=
  h.use (List.Sublist.refl _) hnew hroom fun _ hmem _ hgone => absurd hmem hgone

/-- A new key is used, and the least recently used one makes room for it. -/
theorem Retains.use_full {first : κ} {rest : List κ} (h : Retains max history (first :: rest))
    (hnew : key ∉ first :: rest) (hfull : max ≤ (first :: rest).length) :
    Retains max (.used key :: history) (rest ++ [key]) := by
  rw [List.mem_cons, not_or] at hnew
  rw [List.length_cons] at hfull
  have hsize := h.size
  rw [List.length_cons] at hsize
  refine h.use (List.sublist_cons_self _ _) hnew.2 (by omega) fun other hmem _ hgone => ?_
  have hfirst : other = first := (List.mem_cons.mp hmem).resolve_right hgone
  subst hfirst
  -- the keys behind it and the new one were all used since
  have hnodup := (List.nodup_cons.mp h.nodup).2
  have hsub : insert key rest.toFinset ⊆ usedKeys (.used key :: since history other) := by
    intro k hk
    rw [mem_used_keys]
    rcases Finset.mem_insert.mp hk with rfl | hk
    · exact List.mem_cons_self
    · exact List.mem_cons_of_mem _
        ((List.pairwise_cons.mp h.recency.order).1 k (List.mem_toFinset.mp hk))
  have hcard := Finset.card_le_card hsub
  rw [Finset.card_insert_of_notMem (by rw [List.mem_toFinset]; exact hnew.2),
    List.toFinset_card_of_nodup hnodup] at hcard
  omega

/-- A key is deleted. -/
theorem Retains.delete (h : Retains max history keys) (key : κ) :
    Retains max (.deleted key :: history) (keys.filter (· != key)) := by
  have hother : ∀ other, since (.deleted key :: history) other =
    .deleted key :: since history other :=
    fun other => since_other fun heq => (by cases heq)
  have hgone : key ∉ keys.filter (· != key) :=
    fun hmem => bne_iff_ne.mp (List.mem_filter.mp hmem).2 rfl
  refine ⟨List.filter_sublist.nodup h.nodup,
    (h.recency.sublist List.filter_sublist).delete hgone, ?_,
    fun other hused hdeleted hnone => ?_⟩
  · have hle := List.length_filter_le (· != key) keys
    have hsize := h.size
    omega
  · rw [hother] at hdeleted ⊢
    rw [List.mem_cons, not_or] at hdeleted
    have hne : other ≠ key := fun heq => hdeleted.1 (by rw [heq])
    have hused' := (List.mem_cons.mp hused).resolve_left fun heq => (by cases heq)
    have hbefore := h.missing other hused' hdeleted.2 fun hmem =>
      hnone (List.mem_filter.mpr ⟨hmem, bne_iff_ne.mpr hne⟩)
    have hle := card_used_keys_le (.deleted key) (since history other)
    omega

end Python
