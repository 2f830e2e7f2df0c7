import SystemsManager.Python.Dict
import SystemsManager.Python.Value

/-!
# The fields of an object

A JSON object is the list of its items, so a write to it is `setItems`. Read `get_item_set`, which
is what a proof about an updated record needs.
-/

namespace Python

variable {items : List (String × Json)} {key other : String} {value : Json}

/-- Every field of an object after a write. -/
theorem get_item_set : getItem (setItems key value items) other =
    if other = key then value else getItem items other := by
  unfold getItem
  rw [lookup_set_items]
  split <;> rfl

/-- Writing several fields. -/
def writeAll (writes : List (String × Json)) (items : List (String × Json)) :
    List (String × Json) :=
  writes.foldl (fun items write => setItems write.1 write.2 items) items

/-- A field that is written last is there. -/
theorem lookup_write_all {writes : List (String × Json)} (h : key ∉ writes.map Prod.fst) :
    (writeAll writes items).lookup key = items.lookup key := by
  induction writes generalizing items with
  | nil => rfl
  | cons write rest ih =>
      rw [List.map_cons, List.mem_cons, not_or] at h
      exact (ih h.2).trans ((lookup_set_items ..).trans (if_neg h.1))

/-- Writing several fields changes nothing exactly when each of them is there. -/
theorem write_all_eq_iff {writes : List (String × Json)} (h : (writes.map Prod.fst).Nodup) :
    writeAll writes items = items ↔ ∀ write ∈ writes, items.lookup write.1 = some write.2 := by
  constructor
  · intro hsame
    induction writes generalizing items with
    | nil => exact fun write hwrite => nomatch hwrite
    | cons first rest ih =>
        rw [List.map_cons, List.nodup_cons] at h
        have hfirst : items.lookup first.1 = some first.2 := by
          rw [← hsame]
          exact (lookup_write_all h.1).trans ((lookup_set_items ..).trans (if_pos rfl))
        have hrest : writeAll rest items = items := by
          have hstep : writeAll rest (setItems first.1 first.2 items) = items := hsame
          rwa [set_items_of_lookup hfirst] at hstep
        intro write hwrite
        rcases List.mem_cons.mp hwrite with rfl | hmem
        · exact hfirst
        · exact ih h.2 hrest write hmem
  · intro hthere
    induction writes generalizing items with
    | nil => rfl
    | cons first rest ih =>
        rw [List.map_cons, List.nodup_cons] at h
        show writeAll rest (setItems first.1 first.2 items) = items
        rw [set_items_of_lookup (hthere first (List.mem_cons_self ..))]
        exact ih h.2 fun write hwrite => hthere write (List.mem_cons_of_mem _ hwrite)

end Python
