import Mathlib.Data.List.Nodup
import Mathlib.Data.List.Basic
import Mathlib.Data.Prod.Basic

/-!
# Insertion-ordered dictionaries

A Python `dict` remembers the order in which its keys were first written, and a loop over it
follows that order. `Dict κ ν` is the list of its items together with the proof that no key
occurs twice, so that the order of a loop and the answer of a lookup come from one value.
Read `get?_set` first: it is the only fact about a write that a client needs.
-/

namespace Python

/-- A dictionary: its items in insertion order, each key once. -/
structure Dict (κ ν : Type) where
  items : List (κ × ν)
  nodup : (items.map Prod.fst).Nodup

variable {κ ν μ : Type} [DecidableEq κ]

/-- The items after `d[key] = value`: a known key keeps its place, a new one goes last. -/
def setItems (key : κ) (value : ν) : List (κ × ν) → List (κ × ν)
  | [] => [(key, value)]
  | item :: rest =>
      if item.1 = key then (key, value) :: rest else item :: setItems key value rest

/-- Looking a key up in a list of items, one item at a time. -/
theorem lookup_items_cons [BEq κ] [LawfulBEq κ] (key : κ) (item : κ × ν) (rest : List (κ × ν)) :
    (item :: rest).lookup key = if key = item.1 then some item.2 else rest.lookup key := by
  rw [List.lookup_cons]
  by_cases h : key = item.1
  · simp [h]
  · rw [beq_false_of_ne h, if_neg h]

variable {items : List (κ × ν)} {key : κ}

attribute [local simp] setItems in
theorem set_items_of_not_mem (value : ν) (h : key ∉ items.map Prod.fst) :
    setItems key value items = items ++ [(key, value)] := by
  induction items with
  | nil => rfl
  | cons item rest ih =>
      rw [List.map_cons, List.mem_cons, not_or] at h
      rw [setItems, if_neg fun e => h.1 e.symm, ih h.2, List.cons_append]

/-- A write changes the key list only by appending a new key. -/
theorem keys_set_items (key : κ) (value : ν) (items : List (κ × ν)) :
    (setItems key value items).map Prod.fst =
      if key ∈ items.map Prod.fst then items.map Prod.fst else items.map Prod.fst ++ [key] := by
  induction items with
  | nil => simp [setItems]
  | cons item rest ih =>
      by_cases h : item.1 = key
      · simp [setItems, h]
      · have hne : key ≠ item.1 := fun e => h e.symm
        simp only [setItems, h, if_false, List.map_cons, ih, List.mem_cons, hne, false_or]
        split <;> simp

omit [DecidableEq κ] in
/-- What is found is one of the items. -/
theorem mem_of_lookup_items [BEq κ] [LawfulBEq κ] {key : κ} {value : ν} {items : List (κ × ν)}
    (h : items.lookup key = some value) : (key, value) ∈ items := by
  obtain ⟨front, back, rfl, -⟩ := List.lookup_eq_some_iff.mp h
  simp

omit [DecidableEq κ] in
theorem lookup_items_eq_none [BEq κ] [LawfulBEq κ] (h : key ∉ items.map Prod.fst) :
    items.lookup key = none := by
  rw [List.lookup_eq_none_iff]
  intro other hother
  rw [bne_iff_ne]
  rintro rfl
  exact h (List.mem_map_of_mem hother)

/-- Reading a key after a write sees the write, or the old items. -/
theorem lookup_set_items [BEq κ] [LawfulBEq κ] (key other : κ) (value : ν) (items : List (κ × ν)) :
    (setItems key value items).lookup other =
      if other = key then some value else items.lookup other := by
  induction items with
  | nil => simp [setItems, lookup_items_cons]
  | cons item rest ih =>
      by_cases hk : item.1 = key
      · by_cases h : other = key <;> simp [setItems, lookup_items_cons, hk, h]
      · by_cases h : other = item.1
        · simp [setItems, lookup_items_cons, hk, h]
        · simp [setItems, lookup_items_cons, hk, h, ih]

theorem set_items_of_lookup [BEq κ] [LawfulBEq κ] {value : ν} (h : items.lookup key = some value) :
    setItems key value items = items := by
  induction items with
  | nil => cases h
  | cons item rest ih =>
      rw [lookup_items_cons] at h
      rw [setItems]
      split
      · rename_i hkey
        rw [if_pos hkey.symm] at h
        rw [← hkey, ← Option.some.inj h]
      · rename_i hkey
        rw [if_neg (Ne.symm hkey)] at h
        rw [ih h]

theorem set_items_eq_iff [BEq κ] [LawfulBEq κ] {value : ν} :
    setItems key value items = items ↔ items.lookup key = some value := by
  refine ⟨fun h => ?_, set_items_of_lookup⟩
  rw [← h, lookup_set_items, if_pos rfl]

namespace Dict

omit [DecidableEq κ] in
/-- Two dictionaries with the same items are equal. -/
@[ext] theorem ext {d e : Dict κ ν} (h : d.items = e.items) : d = e := by
  cases d
  cases e
  cases h
  rfl

instance [DecidableEq ν] : DecidableEq (Dict κ ν) := fun d e =>
  decidable_of_iff (d.items = e.items) ⟨Dict.ext, fun h => by rw [h]⟩

/-- `{}`. -/
def empty : Dict κ ν := ⟨[], List.nodup_nil⟩

instance : EmptyCollection (Dict κ ν) := ⟨empty⟩

/-- `list(d)`: the keys in insertion order. -/
def keys (d : Dict κ ν) : List κ := d.items.map Prod.fst

/-- `d.get(key)`. -/
def get? (d : Dict κ ν) (key : κ) : Option ν := d.items.lookup key

/-- `d.get(key, default)`. -/
def getD (d : Dict κ ν) (key : κ) (default : ν) : ν := (d.get? key).getD default

/-- `d[key] = value`. -/
def set (d : Dict κ ν) (key : κ) (value : ν) : Dict κ ν where
  items := setItems key value d.items
  nodup := by
    rw [keys_set_items]
    split
    · exact d.nodup
    · rename_i hnew
      exact List.nodup_append.mpr ⟨d.nodup, List.nodup_singleton _, by
        intro a ha b hb
        rw [List.mem_singleton] at hb
        rintro rfl
        exact hnew (hb ▸ ha)⟩

/-- `d.setdefault(key, value)`, for its effect on the dictionary. -/
def setDefault (d : Dict κ ν) (key : κ) (value : ν) : Dict κ ν :=
  if (d.get? key).isSome then d else d.set key value

omit [DecidableEq κ] in
theorem keys_map_items (f : κ → ν → μ) (items : List (κ × ν)) :
    (items.map fun item => (item.1, f item.1 item.2)).map Prod.fst = items.map Prod.fst := by
  simp

/-- `{key: f(key, value) for key, value in d.items()}`. -/
def mapItems (d : Dict κ ν) (f : κ → ν → μ) : Dict κ μ where
  items := d.items.map fun item => (item.1, f item.1 item.2)
  nodup := by
    rw [keys_map_items]
    exact d.nodup

/-- The items that pass a test, for `DELETE` and `pop`. -/
def filter (d : Dict κ ν) (p : κ → ν → Bool) : Dict κ ν where
  items := d.items.filter fun item => p item.1 item.2
  nodup := (List.filter_sublist.map Prod.fst).nodup d.nodup

/-- `d.pop(key, None)`, for its effect on the dictionary. -/
def erase (d : Dict κ ν) (key : κ) : Dict κ ν := d.filter fun other _ => other != key

omit [DecidableEq κ] in
theorem keys_nodup (d : Dict κ ν) : d.keys.Nodup := d.nodup

variable {d : Dict κ ν} {key : κ}

theorem mem_keys_iff : key ∈ d.keys ↔ (d.get? key).isSome := by
  unfold keys get?
  induction d.items with
  | nil => simp
  | cons item rest ih =>
      rw [List.map_cons, List.mem_cons, ih, lookup_items_cons]
      by_cases h : key = item.1 <;> simp [h]

theorem exists_get_of_mem_keys (h : key ∈ d.keys) : ∃ value, d.get? key = some value :=
  Option.isSome_iff_exists.mp (mem_keys_iff.mp h)

theorem mem_keys_of_get {value : ν} (h : d.get? key = some value) : key ∈ d.keys :=
  mem_keys_iff.mpr (by simp [h])

theorem mem_items_iff {value : ν} : (key, value) ∈ d.items ↔ d.get? key = some value := by
  obtain ⟨items, hnodup⟩ := d
  simp only [get?]
  induction items with
  | nil => simp
  | cons item rest ih =>
      rw [List.map_cons, List.nodup_cons] at hnodup
      rw [List.mem_cons, lookup_items_cons, ih hnodup.2]
      by_cases h : key = item.1
      · have hnot : rest.lookup key ≠ some value := by
          intro hl
          apply hnodup.1
          rw [← h]
          exact List.mem_map_of_mem ((ih hnodup.2).mpr hl)
        simp [h, h ▸ hnot, Prod.ext_iff, eq_comm]
      · simp [h, Prod.ext_iff]

@[simp] theorem get?_set (d : Dict κ ν) (key other : κ) (value : ν) :
    (d.set key value).get? other = if other = key then some value else d.get? other :=
  lookup_set_items key other value d.items

/-- Reading with a default after a write. -/
@[simp] theorem getD_set (d : Dict κ ν) (key other : κ) (value default : ν) :
    (d.set key value).getD other default = if other = key then value else d.getD other default := by
  unfold getD
  rw [get?_set]
  split <;> rfl

theorem set_eq_iff {value : ν} : d.set key value = d ↔ d.get? key = some value := by
  unfold get?
  rw [← set_items_eq_iff]
  exact ⟨fun h => congrArg items h, fun h => Dict.ext h⟩

/-- Reading after `setdefault`: an old value wins. -/
theorem get?_set_default (d : Dict κ ν) (key other : κ) (value : ν) :
    (d.setDefault key value).get? other =
      if other = key then some ((d.get? key).getD value) else d.get? other := by
  unfold setDefault
  cases h : d.get? key with
  | none => simp
  | some old =>
      by_cases ho : other = key <;> simp [ho, h]

/-- Reading a comprehension. -/
@[simp] theorem get?_map_items (d : Dict κ ν) (f : κ → ν → μ) (key : κ) :
    (d.mapItems f).get? key = (d.get? key).map (f key) := by
  obtain ⟨items, hnodup⟩ := d
  simp only [mapItems, get?]
  clear hnodup
  induction items with
  | nil => rfl
  | cons item rest ih =>
      rw [List.map_cons, lookup_items_cons, lookup_items_cons, ih]
      by_cases h : key = item.1 <;> simp [h]

@[simp] theorem get?_empty (key : κ) : (∅ : Dict κ ν).get? key = none := rfl

/-- Looking up in what passed the test. -/
@[simp] theorem get?_filter (d : Dict κ ν) (p : κ → ν → Bool) (key : κ) :
    (d.filter p).get? key = (d.get? key).filter (p key) := by
  cases hd : d.get? key with
  | none =>
      rw [Option.filter_none, ← Option.not_isSome_iff_eq_none]
      intro hsome
      obtain ⟨value, hvalue⟩ := Option.isSome_iff_exists.mp hsome
      have hmem := (List.mem_filter.mp (mem_items_iff.mpr hvalue)).1
      rw [mem_items_iff, hd] at hmem
      cases hmem
  | some value =>
      by_cases hp : p key value = true
      · rw [Option.filter_some_pos hp]
        exact mem_items_iff.mp (List.mem_filter.mpr ⟨mem_items_iff.mpr hd, hp⟩)
      · rw [Option.filter_some_neg (Bool.eq_false_iff.mpr hp), ← Option.not_isSome_iff_eq_none]
        intro hsome
        obtain ⟨other, hother⟩ := Option.isSome_iff_exists.mp hsome
        have hmem := List.mem_filter.mp (mem_items_iff.mpr hother)
        have heq := mem_items_iff.mp hmem.1
        rw [hd] at heq
        cases heq
        exact hp hmem.2

/-- Looking up after a key is gone. -/
@[simp] theorem get?_erase (d : Dict κ ν) (key other : κ) :
    (d.erase key).get? other = if other = key then none else d.get? other := by
  unfold erase
  rw [get?_filter]
  by_cases h : other = key
  · cases hd : d.get? other <;> simp [h, Option.filter]
  · cases hd : d.get? other <;> simp [h, Option.filter]

/-- Reading with a default after a key is gone. -/
@[simp] theorem getD_erase (d : Dict κ ν) (key other : κ) (default : ν) :
    (d.erase key).getD other default = if other = key then default else d.getD other default := by
  unfold getD
  rw [get?_erase]
  split <;> rfl

end Dict

end Python
