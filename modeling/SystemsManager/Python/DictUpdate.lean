import SystemsManager.Python.Dict

/-!
# Merging and cutting dictionaries

`d.update(e)` writes the items of `e` one by one, and `dict(list(d.items())[:n])` is a dictionary of
the first items. Read `get?_update` first.
-/

namespace Python

namespace Dict

variable {κ ν : Type} [DecidableEq κ]

/-- `d.update(e)`. -/
def update (d e : Dict κ ν) : Dict κ ν := e.items.foldl (fun d item => d.set item.1 item.2) d

/-- `dict(list(d.items())[:n])` -/
def take (d : Dict κ ν) (n : ℕ) : Dict κ ν where
  items := d.items.take n
  nodup := ((List.take_sublist n d.items).map Prod.fst).nodup d.nodup

/-- Writing items whose keys differ: each key has the value that was written last. -/
theorem get?_foldl_set {items : List (κ × ν)} (hnodup : (items.map Prod.fst).Nodup) (d : Dict κ ν)
    (key : κ) :
    (items.foldl (fun d item => d.set item.1 item.2) d).get? key =
      (items.lookup key).or (d.get? key) := by
  induction items generalizing d with
  | nil => rfl
  | cons item rest ih =>
      rw [List.map_cons, List.nodup_cons] at hnodup
      rw [List.foldl_cons, ih hnodup.2, lookup_items_cons, get?_set]
      by_cases hkey : key = item.1
      · have hrest : rest.lookup key = none := lookup_items_eq_none (hkey ▸ hnodup.1)
        rw [if_pos hkey, if_pos hkey, hrest]
        rfl
      · rw [if_neg hkey, if_neg hkey]

@[simp] theorem get?_update (d e : Dict κ ν) (key : κ) :
    (d.update e).get? key = (e.get? key).or (d.get? key) :=
  get?_foldl_set e.nodup d key

theorem get?_of_take {d : Dict κ ν} {n : ℕ} {key : κ} {value : ν}
    (h : (d.take n).get? key = some value) : d.get? key = some value :=
  mem_items_iff.mp (List.mem_of_mem_take (mem_items_iff.mpr h))

/-- A write makes a dictionary longer under a new key only. -/
theorem length_set (d : Dict κ ν) (key : κ) (value : ν) : (d.set key value).items.length =
    if key ∈ d.keys then d.items.length else d.items.length + 1 := by
  have hkeys := congrArg List.length (keys_set_items key value d.items)
  rw [List.length_map] at hkeys
  show (setItems key value d.items).length = _
  rw [hkeys]
  show (if key ∈ d.keys then _ else _ : List κ).length = _
  split
  · rw [List.length_map]
  · rw [List.length_append, List.length_map, List.length_singleton]

/-- A dictionary that loses a key gets shorter. -/
theorem length_erase_lt {d : Dict κ ν} {key : κ} (h : key ∈ d.keys) :
    (d.erase key).items.length < d.items.length := by
  obtain ⟨item, hitem, rfl⟩ := List.mem_map.mp h
  show (d.items.filter fun other => other.1 != item.1).length < d.items.length
  rw [List.length_filter_lt_length_iff_exists]
  exact ⟨item, hitem, by simp⟩

theorem length_erase_le (d : Dict κ ν) (key : κ) : (d.erase key).items.length ≤ d.items.length :=
  List.length_filter_le ..

end Dict

end Python
