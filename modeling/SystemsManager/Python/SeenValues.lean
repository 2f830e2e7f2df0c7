import Mathlib.Data.Finset.Card
import Mathlib.Data.Finset.Image
import Mathlib.Algebra.Order.Group.Int
import SystemsManager.Python.DictUpdate

/-!
# Tables of the values seen

A table keeps the distinct values seen under each key, at most `maxKeys` keys and at most `cap`
values under each. `letIn` lets a value in, or turns it away. Nothing is ever forgotten, so what was
admitted in a whole history is bounded by what the last table holds: read `card_known_le` and
`card_known_keys_le`.
-/

namespace Python

variable {κ ν : Type} [DecidableEq κ]

/-- The distinct values seen under each key. -/
abbrev SeenValues (κ ν : Type) := Dict κ (Finset ν)

namespace SeenValues

/-- The values of a key with a new one, if there are fewer than `cap`. -/
def letInto [DecidableEq ν] (cap : ℤ) (seen : SeenValues κ ν) (key : κ) (value : ν)
    (values : Finset ν) :
    SeenValues κ ν × Bool :=
  if value ∈ values then (seen, true)
  else if (values.card : ℤ) < cap then (seen.set key (insert value values), true)
  else (seen, false)

/-- A value under a key: a new key needs room in the table, a new value room under its key. -/
def letIn [DecidableEq ν] (maxKeys : ℕ) (cap : ℤ) (seen : SeenValues κ ν) (key : κ) (value : ν) :
    SeenValues κ ν × Bool :=
  match seen.get? key with
  | some values => seen.letInto cap key value values
  | none =>
      if maxKeys ≤ seen.items.length then (seen, false)
      else SeenValues.letInto cap (seen.set key ∅) key value ∅

/-- The value has been seen under the key. -/
def Known (seen : SeenValues κ ν) (key : κ) (value : ν) : Prop :=
  ∃ values, seen.get? key = some values ∧ value ∈ values

/-- The bounds of the table. -/
structure Within (maxKeys : ℕ) (cap : ℤ) (seen : SeenValues κ ν) : Prop where
  keys : seen.items.length ≤ maxKeys
  values : ∀ key values, seen.get? key = some values → (values.card : ℤ) ≤ max cap 0

/-- Nothing has been forgotten between the two tables. -/
def Grows (seen seen' : SeenValues κ ν) : Prop :=
  ∀ key value, seen.Known key value → seen'.Known key value

variable {maxKeys : ℕ} {cap : ℤ} {seen seen' : SeenValues κ ν} {key : κ} {value : ν}
  {values : Finset ν}

theorem Grows.refl (seen : SeenValues κ ν) : Grows seen seen := fun _ _ h => h

theorem Grows.trans {seen'' : SeenValues κ ν} (h : Grows seen seen') (h' : Grows seen' seen'') :
    Grows seen seen'' := fun key value hknown => h' key value (h key value hknown)

theorem within_empty : Within maxKeys cap (∅ : SeenValues κ ν) :=
  ⟨Nat.zero_le _, fun _ _ h => by cases h⟩

section Admit

variable [DecidableEq ν]

/-- Letting a value in under a known key. -/
theorem let_into_within (h : Within maxKeys cap seen) (hkey : seen.get? key = some values) :
    Within maxKeys cap (seen.letInto cap key value values).1 := by
  unfold letInto
  split
  · exact h
  · split
    · rename_i hroom
      refine ⟨?_, fun other values' hother => ?_⟩
      · rw [Dict.length_set, if_pos (Dict.mem_keys_of_get hkey)]
        exact h.keys
      · rw [Dict.get?_set] at hother
        split at hother
        · cases hother
          have hcard := Finset.card_insert_le value values
          have hmax := le_max_left cap 0
          omega
        · exact h.values other values' hother
    · exact h

omit [DecidableEq ν] in
/-- The table that has a new key without values. -/
theorem within_new_key (h : Within maxKeys cap seen) (hroom : ¬maxKeys ≤ seen.items.length)
    (hkey : seen.get? key = none) : Within maxKeys cap (Dict.set seen key ∅) := by
  refine ⟨?_, fun other values' hother => ?_⟩
  · rw [Dict.length_set, if_neg]
    · omega
    · rw [Dict.mem_keys_iff, hkey]
      exact Bool.false_ne_true
  · rw [Dict.get?_set] at hother
    split at hother
    · cases hother
      exact le_max_right cap 0
    · exact h.values other values' hother

/-- Admitting keeps the bounds. -/
theorem let_in_within (key : κ) (value : ν) (h : Within maxKeys cap seen) :
    Within maxKeys cap (seen.letIn maxKeys cap key value).1 := by
  unfold letIn
  split
  · rename_i values hkey
    exact let_into_within h hkey
  · rename_i hkey
    split
    · exact h
    · rename_i hroom
      exact let_into_within (within_new_key h hroom hkey) (by rw [Dict.get?_set, if_pos rfl])

/-- Letting a value in forgets nothing. -/
theorem let_into_grows (hkey : seen.get? key = some values) :
    Grows seen (seen.letInto cap key value values).1 := by
  unfold letInto
  split
  · exact Grows.refl seen
  · split
    · rintro other value' ⟨values', hother, hmem⟩
      show ∃ values'', (seen.set key _).get? other = _ ∧ _
      rw [Dict.get?_set]
      split
      · rename_i hsame
        rw [hsame, hkey] at hother
        cases hother
        exact ⟨_, rfl, Finset.mem_insert_of_mem hmem⟩
      · exact ⟨values', hother, hmem⟩
    · exact Grows.refl seen

variable (maxKeys cap seen key value) in
/-- Admitting forgets nothing. -/
theorem let_in_grows : Grows seen (seen.letIn maxKeys cap key value).1 := by
  unfold letIn
  split
  · rename_i values hkey
    exact let_into_grows hkey
  · rename_i hkey
    split
    · exact Grows.refl seen
    · have hset : Grows seen (Dict.set seen key ∅) := by
        rintro other value' ⟨values', hother, hmem⟩
        refine ⟨values', ?_, hmem⟩
        rw [Dict.get?_set, if_neg]
        · exact hother
        · rintro rfl
          rw [hkey] at hother
          cases hother
      exact hset.trans (let_into_grows (by rw [Dict.get?_set, if_pos rfl]))

/-- A value that is let in is known. -/
theorem let_into_known (hkey : seen.get? key = some values)
    (h : (seen.letInto cap key value values).2 = true) :
    (seen.letInto cap key value values).1.Known key value := by
  unfold letInto at h ⊢
  split
  · rename_i hmem
    exact ⟨values, hkey, hmem⟩
  · rename_i hnew
    rw [if_neg hnew] at h
    split
    · refine ⟨insert value values, ?_, Finset.mem_insert_self ..⟩
      show (seen.set key _).get? key = _
      rw [Dict.get?_set, if_pos rfl]
    · rename_i hfull
      rw [if_neg hfull] at h
      cases h

variable (maxKeys cap seen key value) in
/-- An admitted value is known. -/
theorem let_in_known (h : (seen.letIn maxKeys cap key value).2 = true) :
    (seen.letIn maxKeys cap key value).1.Known key value := by
  unfold letIn at h ⊢
  split
  · rename_i values hkey
    simp only [hkey] at h
    exact let_into_known hkey h
  · rename_i hkey
    simp only [hkey] at h
    split
    · rename_i hfull
      rw [if_pos hfull] at h
      cases h
    · rename_i hroom
      rw [if_neg hroom] at h
      exact let_into_known (by rw [Dict.get?_set, if_pos rfl]) h

end Admit

/-- No more than `cap` values are known under a key. -/
theorem card_known_le (h : Within maxKeys cap seen) {values : Finset ν}
    (hvalues : ∀ value ∈ values, seen.Known key value) : (values.card : ℤ) ≤ max cap 0 := by
  rcases values.eq_empty_or_nonempty with rfl | ⟨first, hfirst⟩
  · exact le_max_right cap 0
  · obtain ⟨all, hall, -⟩ := hvalues first hfirst
    refine le_trans ?_ (h.values key all hall)
    refine Int.ofNat_le.mpr (Finset.card_le_card fun value hvalue => ?_)
    obtain ⟨all', hall', hmem⟩ := hvalues value hvalue
    rw [hall] at hall'
    cases hall'
    exact hmem

/-- Values are known under no more than `maxKeys` keys. -/
theorem card_known_keys_le (h : Within maxKeys cap seen) {keys : Finset κ}
    (hkeys : ∀ key ∈ keys, ∃ value, seen.Known key value) : keys.card ≤ maxKeys := by
  refine le_trans ?_ h.keys
  have hsub : keys ⊆ (Dict.keys seen).toFinset := by
    intro key hkey
    obtain ⟨value, all, hall, -⟩ := hkeys key hkey
    exact List.mem_toFinset.mpr (Dict.mem_keys_of_get hall)
  refine (Finset.card_le_card hsub).trans ((List.toFinset_card_le _).trans ?_)
  exact le_of_eq (List.length_map _)

end SeenValues

end Python
