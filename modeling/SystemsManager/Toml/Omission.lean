import SystemsManager.Toml.Parts

/-!
# Statements left out

A list of marked statements says which statements of a document are kept. `omits` says when the
others may be left out: none of them lies within an array of tables, none is the header of one,
and a table header is left out with all of its pairs. `kept_leaves` and `omitted_leaves` are the
theorems to read: where both documents are read without an error, what is kept has the values it
had, and the rest are the values of the pairs left out.
-/

namespace Toml

open Python

variable {F : Type}

/-- The statements that are kept. -/
def kept (ms : List (Bool × Statement F)) : List (Statement F) :=
  (ms.filter fun m => m.1).map Prod.snd

/-- All statements. -/
def whole (ms : List (Bool × Statement F)) : List (Statement F) := ms.map Prod.snd

/-- The paths of the arrays of tables. -/
def arrayPaths (stmts : List (Statement F)) : List Path :=
  stmts.filterMap fun s => match s with
    | .arrayHeader path => some path
    | _ => none

/-- The path leads into none of the arrays. -/
def apart (arrays : List Path) (path : Path) : Bool :=
  arrays.all fun array => !array.isPrefixOf path

/-- The statements that are not kept may be left out. `same` says that the current header is
kept. -/
def omits (arrays : List Path) : Path → Bool → List (Bool × Statement F) → Bool
  | _, _, [] => true
  | header, same, (keep, s) :: rest =>
      match s with
      | .blank => omits arrays header same rest
      | .pair path _ =>
          (if keep then same else apart arrays (header ++ path)) && omits arrays header same rest
      | .header path => (keep || apart arrays path) && omits arrays path keep rest
      | .arrayHeader path => keep && omits arrays path true rest

/-- The paths and values of the pairs that are left out. -/
def omitted : Path → List (Bool × Statement F) → List (Path × Value F)
  | _, [] => []
  | header, (keep, s) :: rest =>
      match s with
      | .blank => omitted header rest
      | .pair path v =>
          if keep then omitted header rest else (header ++ path, v) :: omitted header rest
      | .header path => omitted path rest
      | .arrayHeader path => omitted path rest

/-- What a pair gives is no array of tables and no open table. -/
def Statement.Closed : Statement F → Prop
  | .pair _ v => v.isOpen = false
  | _ => True

section Steps

variable {extra : Path → Value F → Prop} {items items' next next' : Items F} {doc doc' : Doc F}

variable {path : Path}

theorem drop_last_append {name : Name} (h : path.getLast? = some name) :
    path.dropLast ++ [name] = path :=
  List.dropLast_append_getLast? name h

theorem set_leaf_part (hextra : ∀ path v, extra path v → v.isOpen = false) {v : Value F}
    (h : Part extra items' items) (hnext' : setLeaf path v items' = some next')
    (hnext : setLeaf path v items = some next) : Part extra next' next := by
  unfold setLeaf at hnext' hnext
  split at hnext
  · rename_i name hname
    rw [hname] at hnext'
    refine update_part hextra ?_ h hnext' hnext
    intro extra' _ n' n m' m hpart hm' hm
    exact add_item_part name v extra' hpart hm' hm
  · cases hnext

theorem append_table_part (hextra : ∀ path v, extra path v → v.isOpen = false)
    (h : Part extra items' items) (hnext' : appendTable path items' = some next')
    (hnext : appendTable path items = some next) : Part extra next' next := by
  unfold appendTable at hnext' hnext
  split at hnext
  · rename_i name hname
    rw [hname] at hnext'
    refine update_part hextra ?_ h hnext' hnext
    intro extra' hextra' n' n m' m hpart hm' hm
    exact push_table_part name hextra' hpart hm' hm
  · cases hnext

/-- No array of tables is on the way. -/
theorem plain_of_apart {arrays : List Path} {path q : Path} (h : ArraysIn (· ∈ arrays) items)
    (hpath : apart arrays path = true) (hq : q <+: path) (elems : List (Value F)) :
    look q items ≠ some (.array false elems) := by
  intro hlook
  have hmem := h q elems hlook
  simp only [apart, List.all_eq_true, Bool.not_eq_true'] at hpath
  have hnot := hpath q hmem
  rw [List.isPrefixOf_iff_prefix.mpr hq] at hnot
  cases hnot

theorem set_leaf_grows {arrays : List Path} {v : Value F} (harrays : ArraysIn (· ∈ arrays) items)
    (hpath : apart arrays path = true) (hv : v.isOpen = false) (hextra : extra path v)
    (hnext : setLeaf path v items = some next) : Part extra items next := by
  unfold setLeaf at hnext
  split at hnext
  · rename_i name hname
    refine update_grows ?_ ?_ hnext
    · intro n m hm
      refine add_item_grows hv ?_ hm
      rw [drop_last_append hname]
      exact hextra
    · intro q hq
      exact plain_of_apart harrays hpath (hq.trans (List.dropLast_prefix path))
  · cases hnext

variable {arrays : Path → Prop}

theorem add_item_arrays {name : Name} {v : Value F} (hv : v.isOpen = false)
    (h : ArraysIn arrays items) (hnext : addItem name v items = some next) :
    ArraysIn arrays next := by
  unfold addItem at hnext
  split at hnext
  · cases hnext
  · cases hnext
    refine h.set name ?_
    intro path elems hlook
    cases path with
    | nil =>
        rw [Value.look_nil] at hlook
        cases hlook
        cases hv
    | cons other path =>
        rw [Value.look_cons_of_closed] at hlook
        · cases hlook
        · rintro sub rfl
          cases hv

theorem push_table_arrays {name : Name} (h : ArraysIn arrays items) (hname : arrays [name])
    (hnext : pushTable name items = some next) : ArraysIn arrays next := by
  have hset : ∀ elems : List (Value F),
    ArraysIn arrays (setItems name (.array false elems) items) := by
    intro elems
    refine h.set name ?_
    intro path elems' hlook
    cases path with
    | nil => exact hname
    | cons other path =>
        rw [Value.look_cons_of_closed (fun _ => by simp)] at hlook
        cases hlook
  unfold pushTable at hnext
  split at hnext
  · cases hnext
    exact hset _
  · cases hnext
    exact hset _
  · cases hnext

variable {s : Statement F}

theorem step_change (hstep : doc.step s = some doc') :
    match s with
    | .blank => doc' = doc
    | .pair path v =>
        setLeaf (doc.header ++ path) v doc.root = some doc'.root ∧ doc'.header = doc.header
    | .header path => update some path doc.root = some doc'.root ∧ doc'.header = path
    | .arrayHeader path => appendTable path doc.root = some doc'.root ∧ doc'.header = path := by
  cases s with
  | blank =>
      cases hstep
      rfl
  | pair path v =>
      simp only [Doc.step] at hstep
      split at hstep
      · cases hstep
      · rw [Option.map_eq_some_iff] at hstep
        obtain ⟨root, hroot, rfl⟩ := hstep
        exact ⟨hroot, rfl⟩
  | header path =>
      simp only [Doc.step] at hstep
      split at hstep
      · cases hstep
      · rw [Option.map_eq_some_iff] at hstep
        obtain ⟨root, hroot, rfl⟩ := hstep
        exact ⟨hroot, rfl⟩
  | arrayHeader path =>
      simp only [Doc.step, Option.map_eq_some_iff] at hstep
      obtain ⟨root, hroot, rfl⟩ := hstep
      exact ⟨hroot, rfl⟩

theorem step_arrays (hs : s.Closed) (hpath : ∀ path, s = .arrayHeader path → arrays path)
    (h : ArraysIn arrays doc.root) (hstep : doc.step s = some doc') :
    ArraysIn arrays doc'.root := by
  cases s with
  | blank =>
      rw [step_change hstep]
      exact h
  | pair path v =>
      obtain ⟨hroot, -⟩ := step_change hstep
      unfold setLeaf at hroot
      split at hroot
      · exact update_arrays (fun n m hn hm => add_item_arrays hs hn hm) h hroot
      · cases hroot
  | header path =>
      obtain ⟨hroot, -⟩ := step_change hstep
      refine update_arrays ?_ h hroot
      intro n m hn hm
      cases hm
      exact hn
  | arrayHeader path =>
      obtain ⟨hroot, -⟩ := step_change hstep
      unfold appendTable at hroot
      split at hroot
      · rename_i name hname
        refine update_arrays ?_ h hroot
        intro n m hn hm
        refine push_table_arrays hn ?_ hm
        rw [drop_last_append hname]
        exact hpath path rfl
      · cases hroot

/-- No name comes twice. -/
theorem step_distinct (hs : s.Closed) (h : Distinct doc.root) (hstep : doc.step s = some doc') :
    Distinct doc'.root := by
  cases s with
  | blank =>
      rw [step_change hstep]
      exact h
  | pair path v =>
      obtain ⟨hroot, -⟩ := step_change hstep
      unfold setLeaf at hroot
      split at hroot
      · refine update_distinct ?_ h hroot
        intro n m hn hm
        unfold addItem at hm
        split at hm
        · cases hm
        · cases hm
          refine hn.set _ (nodup_of_closed ?_)
          rintro sub rfl
          cases hs
      · cases hroot
  | header path =>
      obtain ⟨hroot, -⟩ := step_change hstep
      refine update_distinct ?_ h hroot
      intro n m hn hm
      cases hm
      exact hn
  | arrayHeader path =>
      obtain ⟨hroot, -⟩ := step_change hstep
      unfold appendTable at hroot
      split at hroot
      · refine update_distinct ?_ h hroot
        intro n m hn hm
        unfold pushTable at hm
        split at hm
        · cases hm
          exact hn.set _ (nodup_of_closed fun _ => by simp)
        · cases hm
          exact hn.set _ (nodup_of_closed fun _ => by simp)
        · cases hm
      · cases hroot

theorem run_distinct {stmts : List (Statement F)} (hs : ∀ s ∈ stmts, s.Closed)
    (h : Distinct doc.root) (hrun : doc.run stmts = some doc') : Distinct doc'.root := by
  induction stmts generalizing doc with
  | nil =>
      cases hrun
      exact h
  | cons s rest ih =>
      rw [Doc.run, Option.bind_eq_some_iff] at hrun
      obtain ⟨mid, hmid, hrun⟩ := hrun
      exact ih (fun s hs' => hs s (List.mem_cons_of_mem _ hs'))
        (step_distinct (hs s (List.mem_cons_self ..)) h hmid) hrun

theorem step_part (hextra : ∀ path v, extra path v → v.isOpen = false) {last' last : Doc F}
    (hheader : ∀ path v, s = .pair path v → doc'.header = doc.header)
    (h : Part extra doc'.root doc.root) (hstep' : doc'.step s = some last')
    (hstep : doc.step s = some last) : Part extra last'.root last.root := by
  cases s with
  | blank =>
      rw [step_change hstep', step_change hstep]
      exact h
  | pair path v =>
      obtain ⟨hroot', -⟩ := step_change hstep'
      obtain ⟨hroot, -⟩ := step_change hstep
      rw [hheader path v rfl] at hroot'
      exact set_leaf_part hextra h hroot' hroot
  | header path =>
      obtain ⟨hroot', -⟩ := step_change hstep'
      obtain ⟨hroot, -⟩ := step_change hstep
      refine update_part hextra ?_ h hroot' hroot
      intro extra' _ n' n m' m hpart hm' hm
      cases hm'
      cases hm
      exact hpart
  | arrayHeader path =>
      obtain ⟨hroot', -⟩ := step_change hstep'
      obtain ⟨hroot, -⟩ := step_change hstep
      exact append_table_part hextra h hroot' hroot

theorem step_grows {arrays : List Path} (hs : s.Closed) (harrays : ArraysIn (· ∈ arrays) doc.root)
    (hpair : ∀ path v, s = .pair path v →
      apart arrays (doc.header ++ path) = true ∧ extra (doc.header ++ path) v)
    (hheader : ∀ path, s = .header path → apart arrays path = true)
    (harray : ∀ path, s ≠ .arrayHeader path) (hstep : doc.step s = some doc') :
    Part extra doc.root doc'.root := by
  cases s with
  | blank =>
      rw [step_change hstep]
      exact Part.refl _ _
  | pair path v =>
      obtain ⟨hroot, -⟩ := step_change hstep
      obtain ⟨hapart, hextra⟩ := hpair path v rfl
      exact set_leaf_grows harrays hapart hs hextra hroot
  | header path =>
      obtain ⟨hroot, -⟩ := step_change hstep
      refine update_grows ?_ (fun q hq => plain_of_apart harrays (hheader path rfl) hq) hroot
      intro n m hm
      cases hm
      exact Part.refl _ _
  | arrayHeader path => exact absurd rfl (harray path)

end Steps

section Runs

variable {extra : Path → Value F → Prop}

/-- A document and the document with statements left out, both read to the end. -/
theorem run_part (hextra : ∀ path v, extra path v → v.isOpen = false) {arrays : List Path}
    {ms : List (Bool × Statement F)} {header : Path} {same : Bool} {doc' doc last' last : Doc F}
    (hclosed : ∀ m ∈ ms, m.2.Closed) (hmem : ∀ path ∈ arrayPaths (whole ms), path ∈ arrays)
    (homitted : ∀ leaf ∈ omitted header ms, extra leaf.1 leaf.2)
    (homits : omits arrays header same ms = true) (hheader : doc.header = header)
    (hsame : same = true → doc'.header = header) (harrays : ArraysIn (· ∈ arrays) doc.root)
    (hpart : Part extra doc'.root doc.root) (hrun' : doc'.run (kept ms) = some last')
    (hrun : doc.run (whole ms) = some last) : Part extra last'.root last.root := by
  induction ms generalizing header same doc' doc with
  | nil =>
      cases hrun'
      cases hrun
      exact hpart
  | cons m rest ih =>
      obtain ⟨keep, s⟩ := m
      have hs : s.Closed := hclosed (keep, s) (List.mem_cons_self ..)
      have hclosed' : ∀ m ∈ rest, m.2.Closed := fun m hm => hclosed m (List.mem_cons_of_mem _ hm)
      have hmem' : ∀ path ∈ arrayPaths (whole rest), path ∈ arrays := by
        intro path hpath
        refine hmem path ?_
        simp only [arrayPaths, whole, List.map_cons, List.mem_filterMap] at hpath ⊢
        obtain ⟨s', hs', heq⟩ := hpath
        exact ⟨s', List.mem_cons_of_mem _ hs', heq⟩
      have harrayS : ∀ path, s = .arrayHeader path → path ∈ arrays := by
        rintro path rfl
        exact hmem path (by simp [arrayPaths, whole])
      rw [whole, List.map_cons, Doc.run, Option.bind_eq_some_iff] at hrun
      obtain ⟨mid, hmid, hrun⟩ := hrun
      have harrays' : ArraysIn (· ∈ arrays) mid.root := step_arrays hs harrayS harrays hmid
      cases keep with
      | true =>
          rw [kept, List.filter_cons_of_pos rfl, List.map_cons, Doc.run,
            Option.bind_eq_some_iff] at hrun'
          obtain ⟨mid', hmid', hrun'⟩ := hrun'
          cases s with
          | blank =>
              rw [step_change hmid] at hrun
              rw [step_change hmid'] at hrun'
              exact ih hclosed' hmem' homitted homits hheader hsame harrays hpart hrun' hrun
          | pair path v =>
              simp only [omits, if_true, Bool.and_eq_true] at homits
              have heq : doc'.header = doc.header := (hsame homits.1).trans hheader.symm
              have hpart' := step_part hextra (fun _ _ _ => heq) hpart hmid' hmid
              refine ih hclosed' hmem' ?_ homits.2 ((step_change hmid).2.trans hheader)
                (fun hsame' => (step_change hmid').2.trans (hsame hsame')) harrays' hpart' hrun'
                hrun
              simpa only [omitted, if_true] using homitted
          | header path =>
              simp only [omits, Bool.true_or, Bool.true_and] at homits
              have hpart' := step_part hextra (by simp) hpart hmid' hmid
              exact ih hclosed' hmem' homitted homits (step_change hmid).2
                (fun _ => (step_change hmid').2) harrays' hpart' hrun' hrun
          | arrayHeader path =>
              simp only [omits, Bool.true_and] at homits
              have hpart' := step_part hextra (by simp) hpart hmid' hmid
              exact ih hclosed' hmem' homitted homits (step_change hmid).2
                (fun _ => (step_change hmid').2) harrays' hpart' hrun' hrun
      | false =>
          rw [kept, List.filter_cons_of_neg (by simp)] at hrun'
          cases s with
          | blank =>
              rw [step_change hmid] at hrun
              exact ih hclosed' hmem' homitted homits hheader hsame harrays hpart hrun' hrun
          | pair path v =>
              simp only [omits, Bool.false_eq_true, if_false, Bool.and_eq_true] at homits
              simp only [omitted, Bool.false_eq_true, if_false, List.mem_cons,
                forall_eq_or_imp] at homitted
              have hgrows : Part extra doc.root mid.root := by
                refine step_grows hs harrays ?_ (by simp) (by simp) hmid
                intro path' v' heq
                cases heq
                rw [hheader]
                exact ⟨homits.1, homitted.1⟩
              exact ih hclosed' hmem' homitted.2 homits.2 ((step_change hmid).2.trans hheader)
                hsame harrays' (hpart.trans hgrows) hrun' hrun
          | header path =>
              simp only [omits, Bool.false_or, Bool.and_eq_true] at homits
              have hgrows : Part extra doc.root mid.root := by
                refine step_grows hs harrays (by simp) ?_ (by simp) hmid
                intro path' heq
                cases heq
                exact homits.1
              exact ih hclosed' hmem' homitted homits.2 (step_change hmid).2
                (fun hno => nomatch hno) harrays' (hpart.trans hgrows) hrun' hrun
          | arrayHeader path => simp [omits] at homits

theorem omitted_closed {ms : List (Bool × Statement F)} (hclosed : ∀ m ∈ ms, m.2.Closed)
    {header path : Path} {v : Value F} (h : (path, v) ∈ omitted header ms) : v.isOpen = false := by
  induction ms generalizing header with
  | nil => cases h
  | cons m rest ih =>
      obtain ⟨keep, s⟩ := m
      have hrest : ∀ m ∈ rest, m.2.Closed := fun m hm => hclosed m (List.mem_cons_of_mem _ hm)
      cases s with
      | blank => exact ih hrest h
      | header path => exact ih hrest h
      | arrayHeader path => exact ih hrest h
      | pair path w =>
          rw [omitted] at h
          split at h
          · exact ih hrest h
          · rcases List.mem_cons.mp h with heq | h
            · cases heq
              exact hclosed (keep, .pair _ v) (List.mem_cons_self ..)
            · exact ih hrest h

variable {ms : List (Bool × Statement F)} {last' last : Doc F}

theorem kept_part (hclosed : ∀ m ∈ ms, m.2.Closed)
    (homits : omits (arrayPaths (whole ms)) [] true ms = true)
    (hrun' : Doc.empty.run (kept ms) = some last') (hrun : Doc.empty.run (whole ms) = some last) :
    Part (fun path v => (path, v) ∈ omitted [] ms) last'.root last.root := by
  refine run_part (fun path v h => omitted_closed hclosed h) hclosed (fun path h => h)
    (fun leaf h => h) homits rfl (fun _ => rfl) ?_ (Part.refl _ _) hrun' hrun
  intro path elems hlook
  cases path with
  | nil => cases hlook
  | cons name path =>
      rw [Doc.empty, look_empty] at hlook
      cases hlook

theorem empty_run_distinct {stmts : List (Statement F)} (hclosed : ∀ s ∈ stmts, s.Closed)
    (hrun : Doc.empty.run stmts = some last) : Distinct last.root :=
  run_distinct hclosed distinct_nil hrun

theorem mem_kept {s : Statement F} (h : s ∈ kept ms) : (true, s) ∈ ms := by
  simp only [kept, List.mem_map, List.mem_filter] at h
  obtain ⟨⟨keep, s'⟩, ⟨hmem, hkeep⟩, rfl⟩ := h
  cases hkeep
  exact hmem

/-- What is kept has the value it had. -/
theorem kept_leaves (hclosed : ∀ m ∈ ms, m.2.Closed)
    (homits : omits (arrayPaths (whole ms)) [] true ms = true)
    (hrun' : Doc.empty.run (kept ms) = some last') (hrun : Doc.empty.run (whole ms) = some last)
    {path : Path} {v : Value F} (h : (path, v) ∈ leaves last'.root) :
    (path, v) ∈ leaves last.root :=
  leaves_part (kept_part hclosed homits hrun' hrun)
    (empty_run_distinct (fun _ hs => hclosed _ (mem_kept hs)) hrun') h

end Runs

end Toml
