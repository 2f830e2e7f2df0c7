import Mathlib.Data.List.Nodup
import Mathlib.Data.List.Perm.Basic

/-!
# Tables with a primary key

A table is a list of rows, no two of which have the same key. Each statement of the language has
one lemma that says which rows there are afterwards: `mem_put` for an insertion that replaces,
`mem_insert_new` for one that does not, `mem_update` and `mem_delete`. Proofs about a store use
these and never look into the list.
-/

namespace Sql

/-- Rows with distinct keys. -/
structure Table {ρ κ : Type} (key : ρ → κ) where
  rows : List ρ
  nodup : (rows.map key).Nodup

namespace Table

variable {ρ κ : Type} {key : ρ → κ} [DecidableEq κ]

/-- A table without rows. -/
def empty : Table key := ⟨[], List.nodup_nil⟩

/-- The row with a key. -/
def find? (t : Table key) (k : κ) : Option ρ := t.rows.find? fun row => decide (key row = k)

/-- `INSERT OR REPLACE`. -/
def put (t : Table key) (row : ρ) : Table key where
  rows :=
    if key row ∈ t.rows.map key then t.rows.map fun other =>
      if key other = key row then row else other
    else t.rows ++ [row]
  nodup := by
    split
    · rename_i hmem
      rw [List.map_map]
      have hkeys : key ∘ (fun other => if key other = key row then row else other) = key := by
        funext other
        simp only [Function.comp_apply]
        split
        · rename_i heq
          exact heq.symm
        · rfl
      rw [hkeys]
      exact t.nodup
    · rename_i hmem
      rw [List.map_append, List.map_singleton]
      exact t.nodup.append (List.nodup_singleton _) (by simpa using hmem)

/-- `INSERT OR IGNORE`. -/
def insertNew (t : Table key) (row : ρ) : Table key :=
  if key row ∈ t.rows.map key then t else t.put row

/-- `INSERT OR REPLACE` of many rows. -/
def putAll (t : Table key) (rows : List ρ) : Table key := rows.foldl put t

/-- `INSERT OR IGNORE` of many rows. -/
def insertAllNew (t : Table key) (rows : List ρ) : Table key := rows.foldl insertNew t

/-- `DELETE ... WHERE`. -/
def delete (t : Table key) (p : ρ → Bool) : Table key where
  rows := t.rows.filter fun row => !p row
  nodup := t.nodup.sublist (List.filter_sublist.map key)

/-- `UPDATE ... SET ... WHERE`; the key stays. -/
def update (t : Table key) (p : ρ → Bool) (f : ρ → ρ) (hf : ∀ row, key (f row) = key row) :
    Table key where
  rows := t.rows.map fun row => if p row then f row else row
  nodup := by
    rw [List.map_map]
    have hkeys : key ∘ (fun row => if p row then f row else row) = key := by
      funext row
      simp only [Function.comp_apply]
      split
      · exact hf row
      · rfl
    rw [hkeys]
    exact t.nodup

variable {t : Table key} {row other : ρ} {k : κ}

omit [DecidableEq κ] in
theorem eq_of_key (h : row ∈ t.rows) (hother : other ∈ t.rows) (hkey : key row = key other) :
    row = other :=
  List.inj_on_of_nodup_map t.nodup h hother hkey

theorem find_eq_some : t.find? k = some row ↔ row ∈ t.rows ∧ key row = k := by
  constructor
  · intro h
    exact ⟨List.mem_of_find?_eq_some h, by simpa using List.find?_some h⟩
  · rintro ⟨hmem, hkey⟩
    have hsome : (t.find? k).isSome := by
      rw [find?, List.find?_isSome]
      exact ⟨row, hmem, by simpa using hkey⟩
    obtain ⟨found, hfound⟩ := Option.isSome_iff_exists.mp hsome
    have hmem' := List.mem_of_find?_eq_some hfound
    have hkey' : key found = k := by simpa using List.find?_some hfound
    rw [hfound, eq_of_key hmem hmem' (hkey.trans hkey'.symm)]

theorem find_eq_none : t.find? k = none ↔ ∀ row ∈ t.rows, key row ≠ k := by
  rw [find?, List.find?_eq_none]
  simp

@[simp] theorem mem_put :
    other ∈ (t.put row).rows ↔ other = row ∨ other ∈ t.rows ∧ key other ≠ key row := by
  simp only [put]
  split
  · rename_i hmem
    rw [List.mem_map]
    constructor
    · rintro ⟨old, hold, rfl⟩
      split
      · exact .inl rfl
      · rename_i hne
        exact .inr ⟨hold, hne⟩
    · rintro (rfl | ⟨hother, hne⟩)
      · obtain ⟨old, hold, hkey⟩ := List.mem_map.mp hmem
        exact ⟨old, hold, if_pos hkey⟩
      · exact ⟨other, hother, if_neg hne⟩
  · rename_i hmem
    rw [List.mem_append, List.mem_singleton, or_comm]
    have hne : other ∈ t.rows → key other ≠ key row := by
      intro hother heq
      exact hmem (List.mem_map.mpr ⟨other, hother, heq⟩)
    tauto

/-- The rows after `INSERT OR IGNORE`. -/
theorem mem_insert_new : other ∈ (t.insertNew row).rows ↔
    other ∈ t.rows ∨ other = row ∧ key row ∉ t.rows.map key := by
  simp only [insertNew]
  split
  · rename_i hmem
    tauto
  · rename_i hmem
    rw [mem_put]
    have hne : other ∈ t.rows → key other ≠ key row := by
      intro hother heq
      exact hmem (List.mem_map.mpr ⟨other, hother, heq⟩)
    tauto

/-- The rows after many replacing insertions: those inserted, and the old ones whose keys were
not. -/
theorem mem_put_all {rows : List ρ} (hnodup : (rows.map key).Nodup) :
    other ∈ (t.putAll rows).rows ↔ other ∈ rows ∨ other ∈ t.rows ∧ key other ∉ rows.map key := by
  induction rows generalizing t with
  | nil => simp [putAll]
  | cons first rest ih =>
      rw [List.map_cons, List.nodup_cons] at hnodup
      rw [putAll, List.foldl_cons, ← putAll, ih hnodup.2, mem_put, List.mem_cons, List.map_cons,
        List.mem_cons]
      have hfirst : other = first → key other ∉ rest.map key := fun heq => heq ▸ hnodup.1
      tauto

theorem mem_insert_all_new {rows : List ρ} (hnodup : (rows.map key).Nodup) :
    other ∈ (t.insertAllNew rows).rows ↔
      other ∈ t.rows ∨ other ∈ rows ∧ key other ∉ t.rows.map key := by
  induction rows generalizing t with
  | nil => simp [insertAllNew]
  | cons first rest ih =>
      rw [List.map_cons, List.nodup_cons] at hnodup
      have hrest : other ∈ rest → key other ≠ key first := by
        intro hother heq
        exact hnodup.1 (List.mem_map.mpr ⟨other, hother, heq⟩)
      have hkeys : key other ∈ (t.insertNew first).rows.map key ↔
          key other ∈ t.rows.map key ∨ key other = key first := by
        simp only [List.mem_map, mem_insert_new]
        constructor
        · rintro ⟨row, hrow | ⟨rfl, -⟩, hkey⟩
          · exact .inl ⟨row, hrow, hkey⟩
          · exact .inr hkey.symm
        · rintro (⟨row, hrow, hkey⟩ | hkey)
          · exact ⟨row, .inl hrow, hkey⟩
          · by_cases hmem : key first ∈ t.rows.map key
            · obtain ⟨row, hrow, hrowkey⟩ := List.mem_map.mp hmem
              exact ⟨row, .inl hrow, hrowkey.trans hkey.symm⟩
            · exact ⟨first, .inr ⟨rfl, by simpa using hmem⟩, hkey.symm⟩
      rw [insertAllNew, List.foldl_cons, ← insertAllNew, ih hnodup.2, mem_insert_new, hkeys,
        List.mem_cons]
      have hfirst : other = first → (key first ∉ t.rows.map key ↔ key other ∉ t.rows.map key) := by
        rintro rfl
        rfl
      tauto

omit [DecidableEq κ] in
@[simp] theorem mem_delete {p : ρ → Bool} :
    row ∈ (t.delete p).rows ↔ row ∈ t.rows ∧ p row = false := by
  simp [delete]

omit [DecidableEq κ] in
/-- The rows after an update. -/
@[simp] theorem mem_update {p : ρ → Bool} {f : ρ → ρ} {hf : ∀ row, key (f row) = key row} :
    row ∈ (t.update p f hf).rows ↔ ∃ old ∈ t.rows, row = if p old then f old else old := by
  simp only [update, List.mem_map]
  constructor
  · rintro ⟨old, hold, rfl⟩
    exact ⟨old, hold, rfl⟩
  · rintro ⟨old, hold, rfl⟩
    exact ⟨old, hold, rfl⟩

omit [DecidableEq κ] in
theorem nodup_filter (p : ρ → Bool) : ((t.rows.filter p).map key).Nodup :=
  t.nodup.sublist (List.filter_sublist.map key)

end Table

end Sql
