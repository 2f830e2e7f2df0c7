import SystemsManager.Python.Dict
import Mathlib.Algebra.BigOperators.Group.List.Basic
import Mathlib.Algebra.Group.Prod

/-!
# Tallies

A tally is a dictionary of amounts into which amounts are added under a key, a key that is not
there counting as zero. `total_tally` says that the amounts of a tally add up to everything that
was added; `sum_tally_keys` says the same of a list of keys, once it names every key.
-/

namespace Python

namespace Dict

variable {κ M : Type} [DecidableEq κ] [AddCommMonoid M]

/-- `d[key] = d.get(key, 0) + amount`. -/
def tally (d : Dict κ M) (key : κ) (amount : M) : Dict κ M := d.set key (d.getD key 0 + amount)

/-- `sum(d.values())`. -/
def total (d : Dict κ M) : M := (d.items.map Prod.snd).sum

/-- Reading after an amount was added. -/
@[simp] theorem getD_tally (d : Dict κ M) (key other : κ) (amount : M) :
    (d.tally key amount).getD other 0 = d.getD other 0 + if other = key then amount else 0 := by
  unfold tally
  rw [getD_set]
  by_cases h : other = key
  · rw [if_pos h, if_pos h, h]
  · rw [if_neg h, if_neg h, add_zero]

omit [DecidableEq κ] in
@[simp] theorem total_empty : (∅ : Dict κ M).total = 0 := rfl

/-- The amounts after a write: the old one is replaced. -/
theorem sum_set_items (key : κ) (value : M) (items : List (κ × M))
    (hnodup : (items.map Prod.fst).Nodup) :
    ((setItems key value items).map Prod.snd).sum + (items.lookup key).getD 0 =
      (items.map Prod.snd).sum + value := by
  induction items with
  | nil => simp [setItems]
  | cons item rest ih =>
      rw [List.map_cons, List.nodup_cons] at hnodup
      rw [lookup_items_cons]
      by_cases h : item.1 = key
      · simp only [setItems, h, if_true, List.map_cons, List.sum_cons, Option.getD_some]
        rw [add_comm value, add_assoc, add_comm value, ← add_assoc, add_comm item.2]
      · have hne : key ≠ item.1 := fun e => h e.symm
        simp only [setItems, h, hne, if_false, List.map_cons, List.sum_cons]
        rw [add_assoc, ih hnodup.2, add_assoc]

theorem total_map_items_set {ν : Type} (d : Dict κ ν) (f : κ → ν → M) (key : κ) (value : ν) :
    ((d.set key value).mapItems f).total + ((d.get? key).map (f key)).getD 0 =
      (d.mapItems f).total + f key value := by
  have hset : ((d.set key value).mapItems f).items =
      setItems key (f key value) (d.mapItems f).items := by
    show (setItems key value d.items).map _ = setItems key _ (d.items.map _)
    induction d.items with
    | nil => rfl
    | cons item rest ih =>
        by_cases h : item.1 = key
        · simp [setItems, h]
        · simp only [setItems, h, if_false, List.map_cons, ih]
  have hsum := sum_set_items key (f key value) (d.mapItems f).items (d.mapItems f).nodup
  have hget : (d.mapItems f).items.lookup key = (d.get? key).map (f key) := get?_map_items d f key
  rw [← hset, hget] at hsum
  exact hsum

/-- What a tally adds up to grows by the amount added. -/
@[simp] theorem total_tally [IsRightCancelAdd M] (d : Dict κ M) (key : κ) (amount : M) :
    (d.tally key amount).total = d.total + amount := by
  have h := sum_set_items key (d.getD key 0 + amount) d.items d.nodup
  apply add_right_cancel (b := d.getD key 0)
  calc (d.tally key amount).total + d.getD key 0
      = d.total + (d.getD key 0 + amount) := h
    _ = d.total + amount + d.getD key 0 := by rw [add_comm (d.getD key 0), add_assoc]

section Loop

variable {α : Type} (key : α → κ) (amount : α → M)

/-- What a loop of additions adds up to. -/
theorem total_foldl_tally [IsRightCancelAdd M] (l : List α) (d : Dict κ M) :
    (l.foldl (fun d x => d.tally (key x) (amount x)) d).total = d.total + (l.map amount).sum := by
  induction l generalizing d with
  | nil => simp
  | cons x rest ih => rw [List.foldl_cons, ih, total_tally, List.map_cons, List.sum_cons, add_assoc]

/-- What a loop of additions adds under one key. -/
theorem getD_foldl_tally (l : List α) (d : Dict κ M) (k : κ) :
    (l.foldl (fun d x => d.tally (key x) (amount x)) d).getD k 0 =
      d.getD k 0 + ((l.filter fun x => k = key x).map amount).sum := by
  induction l generalizing d with
  | nil => simp
  | cons x rest ih =>
      rw [List.foldl_cons, ih, getD_tally, List.filter_cons]
      by_cases h : k = key x <;> simp [h, add_assoc]

end Loop

/-- A write may add a key and removes none. -/
theorem mem_keys_tally {d : Dict κ M} {key other : κ} {amount : M} :
    other ∈ (d.tally key amount).keys ↔ other = key ∨ other ∈ d.keys := by
  unfold tally
  rw [mem_keys_iff, mem_keys_iff, get?_set]
  by_cases h : other = key <;> simp [h]

theorem getD_of_not_mem_keys {d : Dict κ M} {key : κ} (h : key ∉ d.keys) : d.getD key 0 = 0 := by
  rw [mem_keys_iff, Option.not_isSome_iff_eq_none] at h
  simp [getD, h]

omit [AddCommMonoid M] in
/-- Of two writes to a key the second one counts. -/
theorem set_set (d : Dict κ M) (key : κ) (first second : M) :
    (d.set key first).set key second = d.set key second := by
  refine ext ?_
  show setItems key second (setItems key first d.items) = setItems key second d.items
  induction d.items with
  | nil => simp [setItems]
  | cons item rest ih =>
      by_cases h : item.1 = key
      · simp [setItems, h]
      · simp [setItems, h, ih]

omit [AddCommMonoid M] in
/-- Writing the value that is there changes nothing. -/
theorem set_get? {d : Dict κ M} {key : κ} {value : M} (h : d.get? key = some value) :
    d.set key value = d := by
  refine ext ?_
  have hlookup : d.items.lookup key = some value := h
  show setItems key value d.items = d.items
  clear h
  generalize d.items = items at hlookup
  induction items with
  | nil => cases hlookup
  | cons item rest ih =>
      rw [lookup_items_cons] at hlookup
      by_cases hkey : key = item.1
      · rw [if_pos hkey] at hlookup
        simp [setItems, hkey, ← Option.some.inj hlookup]
      · rw [if_neg hkey] at hlookup
        simp [setItems, Ne.symm hkey, ih hlookup]

/-- Two amounts under a key are added up. -/
theorem tally_tally (d : Dict κ M) (key : κ) (first second : M) :
    (d.tally key first).tally key second = d.tally key (first + second) := by
  have hget : (d.tally key first).getD key 0 = d.getD key 0 + first := by
    rw [getD_tally, if_pos rfl]
  rw [tally, hget, tally, tally, set_set, add_assoc]

/-- Adding nothing under a known key changes nothing. -/
theorem tally_zero {d : Dict κ M} {key : κ} (h : key ∈ d.keys) : d.tally key 0 = d := by
  obtain ⟨value, hget⟩ := exists_get_of_mem_keys h
  rw [tally, add_zero]
  refine set_get? ?_
  rw [getD, hget, Option.getD_some]

/-- The amounts under the keys are the values. -/
theorem sum_tally_keys (d : Dict κ M) : (d.keys.map fun key => d.getD key 0).sum = d.total := by
  have hvalues : d.keys.map (fun key => d.getD key 0) = d.items.map Prod.snd := by
    unfold keys
    rw [List.map_map]
    apply List.map_congr_left
    intro item hitem
    have hget : d.get? item.1 = some item.2 := mem_items_iff.mp hitem
    simp [getD, hget]
  rw [hvalues]
  rfl

end Dict

end Python
