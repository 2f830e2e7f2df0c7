import SystemsManager.Toml.Document

/-!
# Documents with statements left out

`Part` compares what two lists of statements build, path by path. `run_part` is the theorem to
read: where the one list is the other with statements left out, none of them within an array of
tables and no header without its pairs, the values that are left are the values that were there,
and what is missing are the values of the pairs that were left out (`leaves_part`,
`leaves_extra`).
-/

namespace Toml

open Python

variable {F : Type}

section Looking

/-- The value at a path through open tables. -/
def look : Path → Items F → Option (Value F)
  | [], items => some (.table false items)
  | name :: path, items =>
      match items.lookup name with
      | some (.table false sub) => look path sub
      | some v => if path.isEmpty then some v else none
      | none => none

/-- The value at a path from this value on. -/
def Value.look (v : Value F) (path : Path) : Option (Value F) :=
  match v with
  | .table false sub => Toml.look path sub
  | v => if path.isEmpty then some v else none

/-- The value can be extended by later statements. -/
def Value.isOpen : Value F → Bool
  | .table false _ => true
  | .array false _ => true
  | _ => false

@[simp] theorem look_empty (name : Name) (path : Path) :
    look (name :: path) ([] : Items F) = none := rfl

/-- The first step along a path. -/
theorem look_cons (name : Name) (path : Path) (items : Items F) :
    look (name :: path) items = (items.lookup name).bind fun v => v.look path := by
  rw [look]
  split
  · rename_i sub hsub
    rw [hsub]
    rfl
  · rename_i v hv hlookup
    have hclosed : v.look path = if path.isEmpty then some v else none := by
      unfold Value.look
      split
      · rename_i sub
        exact (hv sub rfl).elim
      · rfl
    rw [hlookup, Option.bind_some, hclosed]
  · rename_i hnone
    rw [hnone]
    rfl

@[simp] theorem Value.look_nil (v : Value F) : v.look [] = some v := by
  unfold Value.look
  split
  · rfl
  · rfl

theorem Value.look_cons_of_closed {v : Value F} (h : ∀ sub, v ≠ .table false sub) (name : Name)
    (path : Path) : v.look (name :: path) = none := by
  unfold Value.look
  split
  · rename_i sub
    exact absurd rfl (h sub)
  · rfl

/-- The value under a name. -/
theorem look_single (name : Name) (items : Items F) : look [name] items = items.lookup name := by
  rw [look_cons]
  cases items.lookup name with
  | none => rfl
  | some v => exact v.look_nil

theorem look_set_items (name other : Name) (v : Value F) (path : Path) (items : Items F) :
    look (other :: path) (setItems name v items) =
      if other = name then v.look path else look (other :: path) items := by
  rw [look_cons, lookup_set_items]
  split
  · rfl
  · rw [look_cons]

end Looking

section Parts

/-- How what is found at one path compares: it is the same, or both are open tables, or it is
missing on the left, where it is an open table or one of the extras. -/
inductive Fits (extra : Value F → Prop) : Option (Value F) → Option (Value F) → Prop where
  | same (o) : Fits extra o o
  | tables (sub' sub) : Fits extra (some (.table false sub')) (some (.table false sub))
  | table (sub) : Fits extra none (some (.table false sub))
  | extra (v) (h : extra v) : Fits extra none (some v)

/-- The first table holds what the second one holds but for the extras, and it has the same arrays
of tables. -/
def Part (extra : Path → Value F → Prop) (items' items : Items F) : Prop :=
  ∀ path, Fits (extra path) (look path items') (look path items)

variable {extra : Path → Value F → Prop} {items items' next next' : Items F}

theorem Part.refl (extra : Path → Value F → Prop) (items : Items F) : Part extra items items :=
  fun _ => .same _

/-- What is found under a name. -/
theorem Part.value (h : Part extra items' items) (name : Name) (path : Path) :
    Fits (extra (name :: path)) ((items'.lookup name).bind fun v => v.look path)
      ((items.lookup name).bind fun v => v.look path) := by
  have hfits := h (name :: path)
  rwa [look_cons, look_cons] at hfits

theorem Part.set (h : Part extra items' items) (name : Name) {v' v : Value F}
    (hv : ∀ path, Fits (extra (name :: path)) (v'.look path) (v.look path)) :
    Part extra (setItems name v' items') (setItems name v items) := by
  intro path
  cases path with
  | nil => exact .tables _ _
  | cons other path =>
      rw [look_set_items, look_set_items]
      split
      · rename_i heq
        subst heq
        exact hv path
      · exact h (other :: path)

theorem Part.set_right (h : Part extra items' items) (name : Name) {v : Value F}
    (hv : ∀ path, Fits (extra (name :: path)) ((items'.lookup name).bind fun v => v.look path)
      (v.look path)) : Part extra items' (setItems name v items) := by
  intro path
  cases path with
  | nil => exact .tables _ _
  | cons other path =>
      rw [look_set_items]
      split
      · rename_i heq
        subst heq
        rw [look_cons]
        exact hv path
      · exact h (other :: path)

/-- The tables under a name. -/
theorem Part.sub (h : Part extra items' items) {name : Name} {sub' sub : Items F}
    (hsub' : items'.lookup name = some (.table false sub'))
    (hsub : items.lookup name = some (.table false sub)) :
    Part (fun path => extra (name :: path)) sub' sub := by
  intro path
  have hfits := h.value name path
  rw [hsub', hsub] at hfits
  exact hfits

theorem Part.sub_missing (h : Part extra items' items) {name : Name} {sub : Items F}
    (hsub' : items'.lookup name = none) (hsub : items.lookup name = some (.table false sub)) :
    Part (fun path => extra (name :: path)) [] sub := by
  intro path
  have hfits := h.value name path
  rw [hsub', hsub] at hfits
  cases path with
  | nil => exact .tables _ _
  | cons other path => exact hfits

theorem Part.array (h : Part extra items' items)
    (hextra : ∀ path v, extra path v → v.isOpen = false) {name : Name} {elems : List (Value F)} :
    items'.lookup name = some (.array false elems) ↔
      items.lookup name = some (.array false elems) := by
  have hfits := h.value name []
  constructor
  · intro hlook
    rw [hlook] at hfits
    cases hlookup : items.lookup name with
    | none =>
        rw [hlookup] at hfits
        cases hfits
    | some v =>
        rw [hlookup] at hfits
        simp only [Option.bind_some, Value.look_nil] at hfits
        cases hfits with
        | same => rfl
  · intro hlook
    rw [hlook] at hfits
    cases hlookup : items'.lookup name with
    | none =>
        rw [hlookup] at hfits
        simp only [Option.bind_some, Option.bind_none, Value.look_nil] at hfits
        cases hfits with
        | extra _ hv =>
            have hopen := hextra _ _ hv
            cases hopen
    | some v =>
        rw [hlookup] at hfits
        simp only [Option.bind_some, Value.look_nil] at hfits
        cases hfits with
        | same => rfl

end Parts

section Updates

variable {extra : Path → Value F → Prop} {f : Items F → Option (Items F)}
variable {items items' next next' : Items F}

attribute [local simp] update in
/-- The same change on both sides. -/
theorem update_part (hextra : ∀ path v, extra path v → v.isOpen = false) {path : Path}
    (hf : ∀ extra' : Path → Value F → Prop, (∀ path v, extra' path v → v.isOpen = false) →
      ∀ n' n m' m, Part extra' n' n → f n' = some m' → f n = some m → Part extra' m' m)
    (h : Part extra items' items) (hnext' : update f path items' = some next')
    (hnext : update f path items = some next) : Part extra next' next := by
  induction path generalizing extra items' items next' next with
  | nil => exact hf extra hextra _ _ _ _ h hnext' hnext
  | cons name path ih =>
      have hsub : ∀ path v, extra (name :: path) v → v.isOpen = false :=
        fun path v hv => hextra _ v hv
      rw [update] at hnext' hnext
      split at hnext
      · -- The second table lacks the name, and so does the first.
        rename_i hnone
        have hnone' : items'.lookup name = none := by
          have hfits := h.value name []
          rw [hnone] at hfits
          cases hlookup : items'.lookup name with
          | none => rfl
          | some v =>
              rw [hlookup] at hfits
              cases hv : v.look [] with
              | none => simp at hv
              | some w =>
                  simp only [Option.bind_some, Option.bind_none, hv] at hfits
                  cases hfits
        simp only [hnone', Option.map_eq_some_iff] at hnext' hnext
        obtain ⟨sub', hsub', rfl⟩ := hnext'
        obtain ⟨sub₁, hsub₁, rfl⟩ := hnext
        have heq : sub' = sub₁ := Option.some.inj (hsub'.symm.trans hsub₁)
        rw [heq]
        exact h.set name fun path => .same _
      · rename_i sub hlookup
        rw [Option.map_eq_some_iff] at hnext
        obtain ⟨sub₁, hsub₁, rfl⟩ := hnext
        split at hnext'
        · rename_i hnone'
          rw [Option.map_eq_some_iff] at hnext'
          obtain ⟨sub', hsub', rfl⟩ := hnext'
          exact h.set name (ih hsub (h.sub_missing hnone' hlookup) hsub' hsub₁)
        · rename_i sub₀ hlookup'
          rw [Option.map_eq_some_iff] at hnext'
          obtain ⟨sub', hsub', rfl⟩ := hnext'
          exact h.set name (ih hsub (h.sub hlookup' hlookup) hsub' hsub₁)
        · rename_i elems hlookup'
          rw [h.array hextra] at hlookup'
          rw [hlookup] at hlookup'
          cases hlookup'
        · cases hnext'
      · rename_i elems hlookup
        have hlookup' := (h.array hextra).mpr hlookup
        rw [hlookup'] at hnext'
        split at hnext
        · rename_i sub hlast
          simp only [hlast, Option.map_eq_some_iff] at hnext'
          rw [Option.map_eq_some_iff] at hnext
          obtain ⟨sub', hsub', rfl⟩ := hnext'
          obtain ⟨sub₁, hsub₁, rfl⟩ := hnext
          have heq : sub' = sub₁ := Option.some.inj (hsub'.symm.trans hsub₁)
          rw [heq]
          exact h.set name fun path => .same _
        · cases hnext
      · cases hnext

theorem update_grows {path : Path}
    (hf : ∀ n m, f n = some m → Part (fun rest => extra (path ++ rest)) n m)
    (hplain : ∀ q, q <+: path → ∀ elems, look q items ≠ some (.array false elems))
    (hnext : update f path items = some next) : Part extra items next := by
  induction path generalizing extra items next with
  | nil => exact hf items next hnext
  | cons name path ih =>
      rw [update] at hnext
      split at hnext
      · rename_i hnone
        rw [Option.map_eq_some_iff] at hnext
        obtain ⟨sub, hsub, rfl⟩ := hnext
        have hpart : Part (fun rest => extra (name :: rest)) [] sub := by
          refine ih hf ?_ hsub
          intro q _ elems hlook
          cases q with
          | nil => cases hlook
          | cons other q => cases hlook
        refine (Part.refl extra items).set_right name fun rest => ?_
        rw [hnone, Option.bind_none]
        cases rest with
        | nil => exact .table sub
        | cons other rest => exact hpart (other :: rest)
      · rename_i sub hlookup
        rw [Option.map_eq_some_iff] at hnext
        obtain ⟨sub₁, hsub₁, rfl⟩ := hnext
        have hpart : Part (fun rest => extra (name :: rest)) sub sub₁ := by
          refine ih hf ?_ hsub₁
          intro q hq elems hlook
          refine hplain (name :: q) (List.cons_prefix_cons.mpr ⟨rfl, hq⟩) elems ?_
          rw [look_cons, hlookup]
          exact hlook
        refine (Part.refl extra items).set_right name fun rest => ?_
        rw [hlookup]
        exact hpart rest
      · rename_i elems hlookup
        refine absurd ?_ (hplain [name] (by simp) elems)
        rw [look_single, hlookup]
      · cases hnext

theorem Fits.trans {extra : Value F → Prop} {a b c : Option (Value F)} (h : Fits extra a b)
    (h' : Fits extra b c) : Fits extra a c := by
  cases h with
  | same => exact h'
  | tables sub' sub =>
      cases h' with
      | same => exact .tables _ _
      | tables => exact .tables _ _
  | table sub =>
      cases h' with
      | same => exact .table _
      | tables => exact .table _
  | extra v hv =>
      cases h' with
      | same => exact .extra v hv
      | tables => exact .table _

theorem Part.trans {last : Items F} (h : Part extra items' items) (h' : Part extra items last) :
    Part extra items' last :=
  fun path => (h path).trans (h' path)

theorem add_item_part (name : Name) (v : Value F) (extra : Path → Value F → Prop)
    (h : Part extra items' items) (hnext' : addItem name v items' = some next')
    (hnext : addItem name v items = some next) : Part extra next' next := by
  unfold addItem at hnext' hnext
  split at hnext'
  · cases hnext'
  · split at hnext
    · cases hnext
    · cases hnext'
      cases hnext
      exact h.set name fun path => .same _

theorem push_table_part (name : Name) (hextra : ∀ path v, extra path v → v.isOpen = false)
    (h : Part extra items' items) (hnext' : pushTable name items' = some next')
    (hnext : pushTable name items = some next) : Part extra next' next := by
  unfold pushTable at hnext' hnext
  split at hnext
  · rename_i hnone
    cases hnext
    split at hnext'
    · cases hnext'
      exact h.set name fun path => .same _
    · rename_i elems hlookup'
      rw [h.array hextra, hnone] at hlookup'
      cases hlookup'
    · cases hnext'
  · rename_i elems hlookup
    cases hnext
    rw [(h.array hextra).mpr hlookup] at hnext'
    cases hnext'
    exact h.set name fun path => .same _
  · cases hnext

theorem add_item_grows {name : Name} {v : Value F} (hv : v.isOpen = false)
    (hextra : extra [name] v) (hnext : addItem name v items = some next) :
    Part extra items next := by
  unfold addItem at hnext
  split at hnext
  · cases hnext
  · rename_i hnone
    cases hnext
    refine (Part.refl extra items).set_right name fun rest => ?_
    rw [Option.not_isSome_iff_eq_none.mp hnone, Option.bind_none]
    cases rest with
    | nil =>
        rw [Value.look_nil]
        exact .extra v hextra
    | cons other rest =>
        rw [Value.look_cons_of_closed]
        · exact .same _
        · rintro sub rfl
          cases hv

end Updates

section Arrays

variable {f : Items F → Option (Items F)} {items next : Items F}

/-- The arrays of tables are at these paths. -/
def ArraysIn (arrays : Path → Prop) (items : Items F) : Prop :=
  ∀ path elems, look path items = some (.array false elems) → arrays path

theorem ArraysIn.set {arrays : Path → Prop} (h : ArraysIn arrays items) (name : Name)
    {v : Value F} (hv : ∀ path elems, v.look path = some (.array false elems) →
      arrays (name :: path)) : ArraysIn arrays (setItems name v items) := by
  intro path elems hlook
  cases path with
  | nil => cases hlook
  | cons other path =>
      rw [look_set_items] at hlook
      split at hlook
      · rename_i heq
        subst heq
        exact hv path elems hlook
      · exact h (other :: path) elems hlook

theorem update_arrays {arrays : Path → Prop} {path : Path}
    (hf : ∀ n m, ArraysIn (fun rest => arrays (path ++ rest)) n → f n = some m →
      ArraysIn (fun rest => arrays (path ++ rest)) m)
    (h : ArraysIn arrays items) (hnext : update f path items = some next) :
    ArraysIn arrays next := by
  induction path generalizing arrays items next with
  | nil => exact hf items next h hnext
  | cons name path ih =>
      rw [update] at hnext
      split at hnext
      · rw [Option.map_eq_some_iff] at hnext
        obtain ⟨sub, hsub, rfl⟩ := hnext
        refine h.set name (ih hf ?_ hsub)
        intro q elems hlook
        cases q with
        | nil => cases hlook
        | cons other q => cases hlook
      · rename_i sub hlookup
        rw [Option.map_eq_some_iff] at hnext
        obtain ⟨sub₁, hsub₁, rfl⟩ := hnext
        refine h.set name (ih hf ?_ hsub₁)
        intro q elems hlook
        refine h (name :: q) elems ?_
        rw [look_cons, hlookup]
        exact hlook
      · rename_i elems hlookup
        have hname : arrays [name] := h [name] elems (by rw [look_single, hlookup])
        split at hnext
        · rw [Option.map_eq_some_iff] at hnext
          obtain ⟨sub, hsub, rfl⟩ := hnext
          refine h.set name ?_
          intro q elems' hlook
          cases q with
          | nil => exact hname
          | cons other q =>
              rw [Value.look_cons_of_closed (fun _ => by simp)] at hlook
              cases hlook
        · cases hnext
      · cases hnext

end Arrays

section Leaves

variable {f : Items F → Option (Items F)} {items next : Items F}

/-- No open table has a name twice. -/
def Distinct (items : Items F) : Prop :=
  ∀ path sub, look path items = some (.table false sub) → (sub.map Prod.fst).Nodup

theorem Distinct.nodup (h : Distinct items) : (items.map Prod.fst).Nodup := h [] items rfl

/-- A table without names. -/
theorem distinct_nil : Distinct ([] : Items F) := by
  intro path sub hlook
  cases path with
  | nil =>
      cases hlook
      exact List.nodup_nil
  | cons name path => cases hlook

theorem Distinct.set (h : Distinct items) (name : Name) {v : Value F}
    (hv : ∀ path sub, v.look path = some (.table false sub) → (sub.map Prod.fst).Nodup) :
    Distinct (setItems name v items) := by
  intro path sub hlook
  cases path with
  | nil =>
      cases hlook
      rw [keys_set_items]
      split
      · exact h.nodup
      · rename_i hnot
        exact List.nodup_append.mpr ⟨h.nodup, List.nodup_singleton _, by
          rintro a ha b hb rfl
          rw [List.mem_singleton] at hb
          exact hnot (hb ▸ ha)⟩
  | cons other path =>
      rw [look_set_items] at hlook
      split at hlook
      · exact hv path sub hlook
      · exact h (other :: path) sub hlook

theorem nodup_of_closed {v : Value F} (h : ∀ sub, v ≠ .table false sub) (path : Path)
    (sub : Items F) (hlook : v.look path = some (.table false sub)) :
    (sub.map Prod.fst).Nodup := by
  cases path with
  | nil =>
      rw [Value.look_nil] at hlook
      exact absurd (Option.some.inj hlook) (h sub)
  | cons name path =>
      rw [Value.look_cons_of_closed h] at hlook
      cases hlook

/-- A change keeps the names apart. -/
theorem update_distinct {path : Path} (hf : ∀ n m, Distinct n → f n = some m → Distinct m)
    (h : Distinct items) (hnext : update f path items = some next) : Distinct next := by
  induction path generalizing items next with
  | nil => exact hf items next h hnext
  | cons name path ih =>
      rw [update] at hnext
      split at hnext
      · rw [Option.map_eq_some_iff] at hnext
        obtain ⟨sub, hsub, rfl⟩ := hnext
        exact h.set name (ih distinct_nil hsub)
      · rename_i sub hlookup
        rw [Option.map_eq_some_iff] at hnext
        obtain ⟨sub₁, hsub₁, rfl⟩ := hnext
        refine h.set name (ih ?_ hsub₁)
        intro q last hlook
        refine h (name :: q) last ?_
        rw [look_cons, hlookup]
        exact hlook
      · split at hnext
        · rw [Option.map_eq_some_iff] at hnext
          obtain ⟨sub, hsub, rfl⟩ := hnext
          exact h.set name (nodup_of_closed fun _ => by simp)
        · cases hnext
      · cases hnext

theorem look_of_mem_leaves (h : Distinct items) {path : Path} {v : Value F}
    (hleaf : (path, v) ∈ leaves items) : ∃ front back w, path = front ++ back ∧
      look front items = some w ∧ (∀ sub, w ≠ .table false sub) ∧ (back, v) ∈ w.leaves := by
  induction path generalizing items with
  | nil =>
      obtain ⟨name, w, rest, -, hpath, -⟩ := mem_leaves.mp hleaf
      cases hpath
  | cons first path ih =>
      obtain ⟨name, w, rest, hmem, hpath, hrest⟩ := mem_leaves.mp hleaf
      cases hpath
      have hlookup : items.lookup first = some w := lookup_of_mem h.nodup hmem
      by_cases hopen : ∃ sub, w = .table false sub
      · obtain ⟨sub, rfl⟩ := hopen
        have hsub : Distinct sub := by
          intro q last hlook
          refine h (first :: q) last ?_
          rw [look_cons, hlookup]
          exact hlook
        rw [Value.leaves] at hrest
        obtain ⟨front, back, w, rfl, hlook, hclosed, hback⟩ := ih hsub hrest
        refine ⟨first :: front, back, w, rfl, ?_, hclosed, hback⟩
        rw [look_cons, hlookup]
        exact hlook
      · refine ⟨[first], path, w, rfl, by rw [look_single, hlookup], ?_, hrest⟩
        exact fun sub heq => hopen ⟨sub, heq⟩

theorem mem_leaves_of_look {front back : Path} {v w : Value F}
    (hlook : look front items = some w) (hleaf : (back, v) ∈ w.leaves) :
    (front ++ back, v) ∈ leaves items := by
  induction front generalizing items with
  | nil =>
      cases hlook
      rw [Value.leaves] at hleaf
      exact hleaf
  | cons name front ih =>
      rw [look_cons, Option.bind_eq_some_iff] at hlook
      obtain ⟨u, hlookup, hlook⟩ := hlook
      have hmem : (name, u) ∈ items := mem_of_lookup_items hlookup
      refine mem_leaves.mpr ⟨name, u, front ++ back, hmem, rfl, ?_⟩
      unfold Value.look at hlook
      split at hlook
      · rw [Value.leaves]
        exact ih hlook
      · rename_i hclosed
        split at hlook
        · rename_i hempty
          cases hlook
          rw [List.isEmpty_iff] at hempty
          rw [hempty]
          exact hleaf
        · cases hlook

variable {extra : Path → Value F → Prop} {items' : Items F}

theorem leaves_part (h : Part extra items' items) (hdistinct : Distinct items') {path : Path}
    {v : Value F} (hleaf : (path, v) ∈ leaves items') : (path, v) ∈ leaves items := by
  obtain ⟨front, back, w, rfl, hlook, hclosed, hback⟩ := look_of_mem_leaves hdistinct hleaf
  refine mem_leaves_of_look ?_ hback
  have hfits := h front
  rw [hlook] at hfits
  generalize look front items = found at hfits ⊢
  cases hfits with
  | same => rfl
  | tables sub' sub => exact absurd rfl (hclosed sub')

end Leaves

end Toml
