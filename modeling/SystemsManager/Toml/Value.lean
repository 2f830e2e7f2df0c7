import Mathlib.Data.List.Basic
import SystemsManager.Python.Dict

/-!
# TOML values

The values of TOML 1.0. A table or an array that is written as a value is `static`: nothing can be
added to it later. The other tables are those of headers and dotted keys, and the other arrays are
arrays of tables. `update` walks along a path as the parser does: it creates the tables on the way
and enters the last table of an array of tables. `leaves` lists what a table holds, by path, where
tables are gone through and arrays are not.
-/

namespace Toml

open Python

/-- A key without dots. -/
abbrev Name := List Char

/-- A dotted key. -/
abbrev Path := List Name

/-- A calendar date. -/
structure Date where
  year : Nat
  month : Nat
  day : Nat
  deriving DecidableEq

/-- A time of day. -/
structure Time where
  hour : Nat
  minute : Nat
  second : Nat
  micro : Nat
  deriving DecidableEq

/-- A date, a time, or both, with the offset in minutes where there is one. -/
inductive Moment where
  | date (date : Date)
  | time (time : Time)
  | both (date : Date) (time : Time) (offset : Option Int)
  deriving DecidableEq

/-- A value, over the type of the floats. -/
inductive Value (F : Type) where
  | str (text : List Char)
  | int (n : Int)
  | float (x : F)
  | bool (b : Bool)
  | moment (m : Moment)
  | array (static : Bool) (values : List (Value F))
  | table (static : Bool) (items : List (Name × Value F))

/-- What a table holds, in the order of insertion. -/
abbrev Items (F : Type) := List (Name × Value F)

variable {F : Type}

section Equality

variable [DecidableEq F]

mutual
/-- Whether two values are the same. -/
def Value.same : Value F → Value F → Bool
  | .str a, .str b => a == b
  | .int a, .int b => a == b
  | .float a, .float b => a == b
  | .bool a, .bool b => a == b
  | .moment a, .moment b => a == b
  | .array s as, .array t bs => s == t && sameValues as bs
  | .table s as, .table t bs => s == t && sameItems as bs
  | _, _ => false
  termination_by structural v => v

/-- Whether two lists of values are the same. -/
def sameValues : List (Value F) → List (Value F) → Bool
  | [], [] => true
  | a :: as, b :: bs => a.same b && sameValues as bs
  | _, _ => false
  termination_by structural vs => vs

/-- Whether two lists of items are the same. -/
def sameItems : List (Name × Value F) → List (Name × Value F) → Bool
  | [], [] => true
  | a :: as, b :: bs => sameItem a b && sameItems as bs
  | _, _ => false
  termination_by structural items => items

/-- Whether two items are the same. -/
def sameItem : Name × Value F → Name × Value F → Bool
  | (n, a), (m, b) => n == m && a.same b
  termination_by structural item => item
end

mutual
/-- The comparison decides equality. -/
theorem Value.same_iff : ∀ a b : Value F, a.same b = true ↔ a = b
  | .str a, b => by cases b <;> simp [Value.same]
  | .int a, b => by cases b <;> simp [Value.same]
  | .float a, b => by cases b <;> simp [Value.same]
  | .bool a, b => by cases b <;> simp [Value.same]
  | .moment a, b => by cases b <;> simp [Value.same]
  | .array s as, b => by cases b <;> simp [Value.same, same_values_iff as]
  | .table s as, b => by cases b <;> simp [Value.same, same_items_iff as]
  termination_by structural a => a

theorem same_values_iff : ∀ a b : List (Value F), sameValues a b = true ↔ a = b
  | [], b => by cases b <;> simp [sameValues]
  | a :: as, b => by cases b <;> simp [sameValues, Value.same_iff a, same_values_iff as]
  termination_by structural a => a

theorem same_items_iff : ∀ a b : List (Name × Value F), sameItems a b = true ↔ a = b
  | [], b => by cases b <;> simp [sameItems]
  | a :: as, b => by cases b <;> simp [sameItems, same_item_iff a, same_items_iff as]
  termination_by structural a => a

theorem same_item_iff : ∀ a b : Name × Value F, sameItem a b = true ↔ a = b
  | (n, a), (m, b) => by simp [sameItem, Value.same_iff a]
  termination_by structural a => a
end

instance : DecidableEq (Value F) := fun a b => decidable_of_iff _ (Value.same_iff a b)

end Equality

mutual
/-- The leaves of a value, with their paths: a value that is no table is a leaf. -/
def Value.leaves : Value F → List (Path × Value F)
  | .table _ items => leavesItems items
  | v => [([], v)]
  termination_by structural v => v

/-- The leaves of a list of items. -/
def leavesItems : List (Name × Value F) → List (Path × Value F)
  | [] => []
  | item :: rest => leavesItem item ++ leavesItems rest
  termination_by structural items => items

/-- The leaves of an item. -/
def leavesItem : Name × Value F → List (Path × Value F)
  | (name, v) => v.leaves.map fun leaf => (name :: leaf.1, leaf.2)
  termination_by structural item => item
end

/-- The leaves of a table. -/
abbrev leaves (items : Items F) : List (Path × Value F) := leavesItems items

/-- A leaf of a table is a leaf of one of its items. -/
theorem mem_leaves {items : Items F} {path : Path} {v : Value F} :
    (path, v) ∈ leaves items ↔ ∃ name w rest, (name, w) ∈ items ∧ path = name :: rest ∧
      (rest, v) ∈ w.leaves := by
  induction items with
  | nil => simp [leaves, leavesItems]
  | cons item items ih =>
      obtain ⟨name, w⟩ := item
      unfold leaves at ih ⊢
      rw [leavesItems, List.mem_append, ih, leavesItem, List.mem_map]
      constructor
      · rintro (⟨leaf, hleaf, heq⟩ | ⟨name', w', rest, hmem, hrest⟩)
        · cases heq
          exact ⟨name, w, leaf.1, List.mem_cons_self .., rfl, hleaf⟩
        · exact ⟨name', w', rest, List.mem_cons_of_mem _ hmem, hrest⟩
      · rintro ⟨name', w', rest, hmem, rfl, hrest⟩
        rcases List.mem_cons.mp hmem with heq | hmem
        · cases heq
          exact .inl ⟨(rest, v), hrest, rfl⟩
        · exact .inr ⟨name', w', rest, hmem, rfl, hrest⟩

theorem lookup_of_mem {items : Items F} (hnodup : (items.map Prod.fst).Nodup) {name : Name}
    {v : Value F} (h : (name, v) ∈ items) : items.lookup name = some v := by
  induction items with
  | nil => cases h
  | cons item items ih =>
      rw [List.map_cons, List.nodup_cons] at hnodup
      rw [lookup_items_cons]
      rcases List.mem_cons.mp h with heq | hmem
      · rw [← heq]
        exact if_pos rfl
      · rw [if_neg, ih hnodup.2 hmem]
        rintro rfl
        exact hnodup.1 (List.mem_map.mpr ⟨(item.1, v), hmem, rfl⟩)

/-- Change the table at the end of a path: missing tables are created, and of an array of tables
the last one is entered. -/
def update (f : Items F → Option (Items F)) : Path → Items F → Option (Items F)
  | [], items => f items
  | name :: path, items =>
      match items.lookup name with
      | none => (update f path []).map fun sub => setItems name (.table false sub) items
      | some (.table false sub) =>
          (update f path sub).map fun sub => setItems name (.table false sub) items
      | some (.array false elems) =>
          match elems.getLast? with
          | some (.table false sub) => (update f path sub).map fun sub =>
              setItems name (.array false (elems.dropLast ++ [.table false sub])) items
          | _ => none
      | some _ => none

/-- Add a value under a name that is not there yet. -/
def addItem (name : Name) (v : Value F) (items : Items F) : Option (Items F) :=
  if (items.lookup name).isSome then none else some (setItems name v items)

/-- Add a table to the array of tables under a name. -/
def pushTable (name : Name) (items : Items F) : Option (Items F) :=
  match items.lookup name with
  | none => some (setItems name (.array false [.table false []]) items)
  | some (.array false elems) =>
      some (setItems name (.array false (elems ++ [.table false []])) items)
  | some _ => none

/-- Add a value at a path. -/
def setLeaf (path : Path) (v : Value F) (items : Items F) : Option (Items F) :=
  match path.getLast? with
  | some name => update (addItem name v) path.dropLast items
  | none => none

/-- Add a table to the array of tables at a path. -/
def appendTable (path : Path) (items : Items F) : Option (Items F) :=
  match path.getLast? with
  | some name => update (pushTable name) path.dropLast items
  | none => none

end Toml
