import Mathlib.Data.List.Induction

/-!
# Lists that grow by what they lack

`addNew` appends what a list does not hold, and `firsts` keeps the first of each element. `weave`
goes through a list and puts after each element its companion, unless the list or the result holds
it. `filter_weave` says that the list stands in the result in its order. Where a map `fix` was
applied before, `run_again_iff` says exactly when the whole run changes nothing in its own result.
-/

namespace Python

variable {α : Type} [DecidableEq α]

section New

/-- The list with the element at its end, if it lacks it. -/
def addNew (out : List α) (a : α) : List α := if a ∈ out then out else out ++ [a]

/-- The first of each element. -/
def firsts (items : List α) : List α := items.foldl addNew []

@[simp] theorem mem_add_new {out : List α} {a b : α} : b ∈ addNew out a ↔ b ∈ out ∨ b = a := by
  unfold addNew
  split
  · rename_i h
    constructor
    · exact Or.inl
    · rintro (hb | rfl)
      · exact hb
      · exact h
  · simp

theorem nodup_add_new {out : List α} (h : out.Nodup) (a : α) : (addNew out a).Nodup := by
  unfold addNew
  split
  · exact h
  · rename_i hnot
    exact List.nodup_append.mpr ⟨h, by simp, by grind⟩

theorem mem_foldl_add_new {items out : List α} {b : α} :
    b ∈ items.foldl addNew out ↔ b ∈ out ∨ b ∈ items := by
  induction items generalizing out with
  | nil => simp
  | cons a items ih => simp [ih, or_assoc]

@[simp] theorem mem_firsts {items : List α} {b : α} : b ∈ firsts items ↔ b ∈ items := by
  simp [firsts, mem_foldl_add_new]

theorem nodup_firsts (items : List α) : (firsts items).Nodup := by
  have h : ∀ out : List α, out.Nodup → (items.foldl addNew out).Nodup := by
    induction items with
    | nil => exact fun out hout => hout
    | cons a items ih => exact fun out hout => ih _ (nodup_add_new hout a)
  exact h [] List.nodup_nil

/-- What a run appends. Its first element is the first one that the list lacks. -/
theorem exists_foldl_add_new (items out : List α) :
    ∃ more, items.foldl addNew out = out ++ more ∧
      more.head? = items.find? (fun a => a ∉ out) := by
  induction items generalizing out with
  | nil => exact ⟨[], by simp, rfl⟩
  | cons a items ih =>
      obtain ⟨more, hmore, hhead⟩ := ih (addNew out a)
      by_cases ha : a ∈ out
      · rw [addNew, if_pos ha] at hmore hhead
        exact ⟨more, by simpa [addNew, ha] using hmore, by simpa [ha] using hhead⟩
      · refine ⟨a :: more, ?_, by simp [ha]⟩
        rw [addNew, if_neg ha] at hmore
        rw [List.foldl_cons, addNew, if_neg ha, hmore, List.append_assoc, List.singleton_append]

/-- Elements that the list lacks, each once, are appended as they stand. -/
theorem foldl_add_new_of_nodup {items out : List α} (h : (out ++ items).Nodup) :
    items.foldl addNew out = out ++ items := by
  induction items generalizing out with
  | nil => simp
  | cons a items ih =>
      have ha : a ∉ out := by
        intro hmem
        exact (List.nodup_append.mp h).2.2 a hmem a List.mem_cons_self rfl
      rw [List.foldl_cons, addNew, if_neg ha, ih (by simpa using h), List.append_assoc,
        List.singleton_append]

theorem firsts_of_nodup {items : List α} (h : items.Nodup) : firsts items = items :=
  foldl_add_new_of_nodup h

end New

section Weave

variable (twin : α → Option α) (fixed : List α)

/-- One element and its companion. -/
def weaveStep (out : List α) (a : α) : List α :=
  match twin a with
  | some t => if t ∉ fixed ∧ t ∉ addNew out a then addNew out a ++ [t] else addNew out a
  | none => addNew out a

/-- The list, with the companions it lacks. -/
def weave : List α := fixed.foldl (weaveStep twin fixed) []

variable {twin fixed} {done out rest : List α} {a t x : α}

/-- A step at a new element. -/
theorem weave_step_eq (ha : a ∉ out) :
    weaveStep twin fixed out a =
      out ++ a :: ((twin a).filter fun t => t ∉ fixed ∧ t ∉ out ∧ t ≠ a).toList := by
  have hnew : addNew out a = out ++ [a] := if_neg ha
  unfold weaveStep
  cases htwin : twin a with
  | none => simp [hnew]
  | some t =>
      by_cases ht : t ∉ fixed ∧ t ∉ out ∧ t ≠ a
      · simp [hnew, ht, Option.filter]
      · simp only [hnew, List.mem_append, List.mem_singleton, Option.filter]
        rw [if_neg (by tauto)]
        simp [ht]

/-- What the result holds after a part of the list. -/
structure Woven (twin : α → Option α) (fixed done out : List α) : Prop where
  filter : out.filter (· ∈ fixed) = done
  nodup : out.Nodup
  mem : ∀ x, x ∈ out ↔ x ∈ done ∨ x ∉ fixed ∧ ∃ a ∈ done, twin a = some x

theorem Woven.not_mem (h : Woven twin fixed done out) (hfixed : fixed.Nodup)
    (heq : fixed = done ++ a :: rest) : a ∉ out := by
  intro ha
  have hmem : a ∈ out.filter (· ∈ fixed) := by simp [ha, heq]
  rw [h.filter] at hmem
  rw [heq] at hfixed
  exact (List.nodup_append.mp hfixed).2.2 a hmem a List.mem_cons_self rfl

theorem Woven.step (h : Woven twin fixed done out) (hfixed : fixed.Nodup)
    (heq : fixed = done ++ a :: rest) :
    Woven twin fixed (done ++ [a]) (weaveStep twin fixed out a) := by
  have hnew := h.not_mem hfixed heq
  have ha : a ∈ fixed := by simp [heq]
  rw [weave_step_eq hnew]
  cases hadd : (twin a).filter fun t => t ∉ fixed ∧ t ∉ out ∧ t ≠ a with
  | none =>
      have hno : ∀ t, twin a = some t → t ∈ fixed ∨ t ∈ out ∨ t = a := by
        intro t ht
        have := Option.filter_eq_none_iff.mp hadd t ht
        grind
      refine ⟨by simp [h.filter, ha], List.nodup_append.mpr ⟨h.nodup, by simp, by simp; grind⟩,
        fun x => ?_⟩
      have hmem := h.mem x
      simp only [Option.toList_none, List.mem_append, List.mem_singleton]
      grind
  | some t =>
      obtain ⟨htwin, hcond⟩ := Option.filter_eq_some_iff.mp hadd
      obtain ⟨hfix, hout, hne⟩ : t ∉ fixed ∧ t ∉ out ∧ t ≠ a := by simpa using hcond
      refine ⟨by simp [h.filter, ha, hfix], List.nodup_append.mpr ⟨h.nodup, ?_, ?_⟩, fun x => ?_⟩
      · simpa using fun heq => hne heq.symm
      · intro x hx y hy
        have : y = a ∨ y = t := by simpa using hy
        grind
      · have hmem := h.mem x
        simp only [Option.toList_some, List.mem_append, List.mem_cons]
        grind

/-- Every part of the list has been woven. -/
theorem woven (hfixed : fixed.Nodup) (heq : fixed = done ++ rest) :
    Woven twin fixed done (done.foldl (weaveStep twin fixed) []) := by
  induction done using List.reverseRecOn generalizing rest with
  | nil => exact ⟨by simp, List.nodup_nil, by simp⟩
  | append_singleton done a ih =>
      have hsplit : fixed = done ++ a :: rest := by simpa using heq
      rw [List.foldl_append]
      exact (ih hsplit).step hfixed hsplit

/-- The whole list has been woven. -/
theorem woven_weave (twin : α → Option α) (hfixed : fixed.Nodup) :
    Woven twin fixed fixed (weave twin fixed) :=
  woven hfixed (List.append_nil fixed).symm

/-- The list stands in the result in its order. -/
theorem filter_weave (twin : α → Option α) (hfixed : fixed.Nodup) :
    (weave twin fixed).filter (· ∈ fixed) = fixed :=
  (woven_weave twin hfixed).filter

/-- Each companion of an element is in the result. -/
theorem twin_mem_weave (hfixed : fixed.Nodup) (ha : a ∈ fixed) (ht : twin a = some t) :
    t ∈ weave twin fixed := by
  by_cases hmem : t ∈ fixed
  · exact ((woven_weave twin hfixed).mem t).mpr (Or.inl hmem)
  · exact ((woven_weave twin hfixed).mem t).mpr (Or.inr ⟨hmem, a, ha, ht⟩)

theorem prefix_foldl_weave (rest out : List α) : out <+: rest.foldl (weaveStep twin fixed) out := by
  induction rest generalizing out with
  | nil => exact List.prefix_rfl
  | cons a rest ih =>
      have hstep : out <+: weaveStep twin fixed out a := by
        unfold weaveStep addNew
        split <;> split <;> try split
        all_goals simp
      exact hstep.trans (ih _)

/-- The rest of the list is appended, with the next element first. -/
theorem exists_foldl_weave (hrest : ∀ a ∈ rest, a ∉ out) :
    ∃ more, rest.foldl (weaveStep twin fixed) out = out ++ more ∧ more.head? = rest.head? := by
  cases rest with
  | nil => exact ⟨[], by simp, rfl⟩
  | cons a rest =>
      obtain ⟨more, hmore⟩ : weaveStep twin fixed out a <+:
          rest.foldl (weaveStep twin fixed) (weaveStep twin fixed out a) := prefix_foldl_weave _ _
      rw [List.foldl_cons, ← hmore, weave_step_eq (hrest a List.mem_cons_self), List.append_assoc]
      exact ⟨_, rfl, rfl⟩

end Weave

section Again

variable {twin : α → Option α} {fix : α → α} {fixed : List α}

/-- A companion that `fix` changes stands after the element. -/
def Strays (twin : α → Option α) (fix : α → α) (a : α) : Prop :=
  ∃ t, twin a = some t ∧ fix t ≠ t

/-- What `fix` does to the elements and their companions: a companion has none of its own, and is
changed to `goal` at most. -/
structure FixesTo (twin : α → Option α) (fix : α → α) (goal : α) : Prop where
  fix_fix : ∀ a, fix (fix a) = fix a
  twin_twin : ∀ {a t}, twin a = some t → twin t = none
  fix_twin : ∀ {a t}, twin a = some t → fix t = t ∨ fix t = goal
  fix_goal : fix goal = goal
  twin_goal : twin goal = none

variable {goal : α}

/-- Where the changed companions are dropped, weaving puts them back. -/
theorem FixesTo.weave_stable (h : FixesTo twin fix goal) (hfixed : fixed.Nodup)
    (hfix : ∀ a ∈ fixed, fix a = a) :
    weave twin ((weave twin fixed).filter (fun a => fix a = a)) = weave twin fixed := by
  set kept := (weave twin fixed).filter (fun a => fix a = a) with hkept
  have hrun : ∀ done rest, fixed = done ++ rest →
      ((done.foldl (weaveStep twin fixed) []).filter (fun a => fix a = a)).foldl
        (weaveStep twin kept) [] = done.foldl (weaveStep twin fixed) [] := by
    intro done
    induction done using List.reverseRecOn with
    | nil => intros; rfl
    | append_singleton done a ih =>
        intro rest heq
        have hsplit : fixed = done ++ a :: rest := by simpa using heq
        have hold := ih _ hsplit
        have hwoven : Woven twin fixed done _ := woven hfixed hsplit
        have hnew := hwoven.not_mem hfixed hsplit
        have ha : a ∈ fixed := by simp [hsplit]
        have hmem : ∀ t, t ∈ kept ↔ t ∈ weave twin fixed ∧ fix t = t := by simp [hkept]
        rw [List.foldl_append]
        set out := done.foldl (weaveStep twin fixed) []
        simp only [List.foldl_cons, List.foldl_nil]
        rw [weave_step_eq hnew]
        cases hadd : (twin a).filter fun t => t ∉ fixed ∧ t ∉ out ∧ t ≠ a with
        | none =>
            -- The companion is in the list or stands before.
            have hnone : (twin a).filter (fun t => t ∉ kept ∧ t ∉ out ∧ t ≠ a) = none := by
              rw [Option.filter_eq_none_iff] at hadd ⊢
              intro t ht
              have hin := twin_mem_weave hfixed ha ht
              have := hadd t ht
              have := hmem t
              have := hfix t
              grind
            have hlist : (out ++ [a]).filter (fun a => fix a = a) =
                out.filter (fun a => fix a = a) ++ [a] := by simp [hfix a ha]
            rw [Option.toList_none, hlist, List.foldl_append, hold, List.foldl_cons, List.foldl_nil,
              weave_step_eq hnew, hnone, Option.toList_none]
        | some t =>
            obtain ⟨htwin, hcond⟩ := Option.filter_eq_some_iff.mp hadd
            obtain ⟨hout, hnot, hne⟩ : t ∉ fixed ∧ t ∉ out ∧ t ≠ a := by simpa using hcond
            have hin := twin_mem_weave hfixed ha htwin
            by_cases hst : fix t = t
            · -- A companion that stays is gone through as an element, and has no companion.
              have hlist : (out ++ [a, t]).filter (fun a => fix a = a) =
                  out.filter (fun a => fix a = a) ++ [a, t] := by simp [hfix a ha, hst]
              have htk : t ∈ kept := (hmem t).mpr ⟨hin, hst⟩
              have hlast : t ∉ out ++ [a] := by simp [hnot, hne]
              rw [Option.toList_some, hlist, List.foldl_append, hold, List.foldl_cons,
                List.foldl_cons, List.foldl_nil, weave_step_eq hnew, htwin]
              simp only [Option.filter, htk, not_true, false_and, decide_false, Bool.false_eq_true,
                if_false, Option.toList_none]
              rw [weave_step_eq hlast, h.twin_twin htwin]
              simp
            · have hlist : (out ++ [a, t]).filter (fun a => fix a = a) =
                  out.filter (fun a => fix a = a) ++ [a] := by simp [hfix a ha, hst]
              have htk : t ∉ kept := fun hk => hst ((hmem t).mp hk).2
              rw [Option.toList_some, hlist, List.foldl_append, hold, List.foldl_cons,
                List.foldl_nil, weave_step_eq hnew, htwin]
              simp [Option.filter, htk, hnot, hne]
  have hall := hrun fixed [] (List.append_nil fixed).symm
  exact hall

/-- A second run gives the same exactly where its fixing only drops companions that changed. -/
theorem FixesTo.weave_again (h : FixesTo twin fix goal) (hfixed : fixed.Nodup)
    (hfix : ∀ a ∈ fixed, fix a = a) :
    weave twin (firsts ((weave twin fixed).map fix)) = weave twin fixed ↔
      firsts ((weave twin fixed).map fix) = (weave twin fixed).filter (fun a => fix a = a) := by
  constructor
  · intro hagain
    have hstand := filter_weave twin (nodup_firsts ((weave twin fixed).map fix))
    rw [hagain] at hstand
    rw [← hstand]
    refine List.filter_congr fun x hx => ?_
    simp only [mem_firsts, List.mem_map, decide_eq_decide]
    constructor
    · rintro ⟨y, -, rfl⟩
      exact h.fix_fix y
    · exact fun hst => ⟨x, hx, hst⟩
  · intro heq
    rw [heq]
    exact h.weave_stable hfixed hfix

/-- Fixing a part behind the goal drops what changes. -/
theorem foldl_add_new_fix {items out : List α} (hgoal : goal ∈ out)
    (hchange : ∀ x ∈ items, fix x = x ∨ fix x = goal) (hnodup : items.Nodup)
    (hdisj : ∀ x ∈ items, x ∈ out → x = goal) :
    (items.map fix).foldl addNew out =
      out ++ (items.filter fun x => fix x = x).filter (· ≠ goal) := by
  induction items generalizing out with
  | nil => simp
  | cons x items ih =>
      obtain ⟨hx, hrest⟩ := List.nodup_cons.mp hnodup
      have hchange' := fun y hy => hchange y (List.mem_cons_of_mem x hy)
      simp only [List.map_cons, List.foldl_cons]
      by_cases hg : fix x = goal
      · have hsame : addNew out (fix x) = out := by rw [hg, addNew, if_pos hgoal]
        rw [hsame, ih hgoal hchange' hrest fun y hy => hdisj y (List.mem_cons_of_mem x hy)]
        by_cases hst : fix x = x
        · simp [hst.symm.trans hg]
        · simp [hst]
      · have hst : fix x = x := (hchange x List.mem_cons_self).resolve_right hg
        have hne : x ≠ goal := fun heq => hg (hst.trans heq)
        have hout : x ∉ out := fun hmem => hne (hdisj x List.mem_cons_self hmem)
        have hadd : addNew out (fix x) = out ++ [x] := by rw [hst, addNew, if_neg hout]
        have hdisj' : ∀ y ∈ items, y ∈ out ++ [x] → y = goal := by
          intro y hy hmem
          rcases List.mem_append.mp hmem with hmem | hmem
          · exact hdisj y (List.mem_cons_of_mem x hy) hmem
          · rw [List.mem_singleton.mp hmem] at hy
            exact absurd hy hx
        rw [hadd, ih (List.mem_append_left _ hgoal) hchange' hrest hdisj']
        simp [hst, hne]

/-- The goal in front, and taken out behind, is the list that begins with it. -/
theorem cons_filter_iff {items : List α} (hhead : ∀ x, items.head? = some x → fix x = x)
    (hnodup : items.Nodup) :
    goal :: (items.filter fun x => fix x = x).filter (· ≠ goal) =
      items.filter (fun x => fix x = x) ↔
      items.head? = some goal := by
  cases items with
  | nil => simp
  | cons x items =>
      have hx : fix x = x := hhead x rfl
      have hnot := (List.nodup_cons.mp hnodup).1
      simp only [List.filter_cons, hx, decide_true, if_true, List.head?_cons, Option.some.injEq]
      constructor
      · exact fun heq => (List.cons.inj heq).1.symm
      · rintro rfl
        have hstay : (items.filter fun y => fix y = y).filter (· ≠ x) =
            items.filter fun y => fix y = y := by
          refine List.filter_eq_self.mpr fun y hy => ?_
          have hmem : y ∈ items := (List.mem_filter.mp hy).1
          simpa using fun heq : y = x => hnot (heq ▸ hmem)
        rw [if_neg (by simp), hstay]

/-- What the weaving holds up to the first companion that changes. -/
theorem FixesTo.exists_weave (h : FixesTo twin fix goal) (hfixed : fixed.Nodup)
    (hfix : ∀ a ∈ fixed, fix a = a) {before after : List α} {a t : α}
    (heq : fixed = before ++ a :: after) (htwin : twin a = some t) (hchange : fix t ≠ t)
    (hfirst : ∀ x ∈ before, ¬ Strays twin fix x) :
    ∃ front back, weave twin fixed = front ++ t :: back ∧ (∀ x ∈ front, fix x = x) ∧
      (goal ∈ front ↔ goal ∈ before ∨ goal ∉ fixed ∧ ∃ x ∈ before, twin x = some goal) ∧
      back.head? = after.head? := by
  have hw : Woven twin fixed before _ := woven hfixed heq
  have hnew := hw.not_mem hfixed heq
  have hweave : weave twin fixed = after.foldl (weaveStep twin fixed)
      (weaveStep twin fixed (before.foldl (weaveStep twin fixed) []) a) := by
    rw [weave]
    conv_lhs => rw [heq, List.foldl_append, List.foldl_cons]
    rw [← heq]
  set out := before.foldl (weaveStep twin fixed) []
  have ha : fix a = a := hfix a (by simp [heq])
  have htfixed : t ∉ fixed := fun hmem => hchange (hfix t hmem)
  have htout : t ∉ out := by
    intro hmem
    rcases (hw.mem t).mp hmem with hbefore | ⟨-, x, hx, hxt⟩
    · exact htfixed (by simp [heq, hbefore])
    · exact hfirst x hx ⟨t, hxt, hchange⟩
  have hta : t ≠ a := fun hta => hchange (hta ▸ ha)
  have hstep : weaveStep twin fixed out a = out ++ [a, t] := by
    rw [weave_step_eq hnew, htwin]
    simp [Option.filter, htfixed, htout, hta]
  have hafter : ∀ b ∈ after, b ∉ out ++ [a, t] := by
    intro b hb hmem
    have hbfixed : b ∈ fixed := by simp [heq, hb]
    have hsplit := hfixed
    rw [heq, List.nodup_append, List.nodup_cons] at hsplit
    have hcases : b ∈ out ∨ b = a ∨ b = t := by simpa using hmem
    rcases hcases with hout | rfl | rfl
    · have hbefore : b ∈ out.filter (· ∈ fixed) := by simp [hout, hbfixed]
      rw [hw.filter] at hbefore
      exact hsplit.2.2 b hbefore b (List.mem_cons_of_mem _ hb) rfl
    · exact hsplit.2.1.1 hb
    · exact htfixed hbfixed
  obtain ⟨back, hback, hhead⟩ : ∃ back, after.foldl (weaveStep twin fixed) (out ++ [a, t]) =
      out ++ [a, t] ++ back ∧ back.head? = after.head? := exists_foldl_weave hafter
  refine ⟨out ++ [a], back, by rw [hweave, hstep, hback]; simp, ?_, ?_, hhead⟩
  · intro x hx
    rcases List.mem_append.mp hx with hx | hx
    · rcases (hw.mem x).mp hx with hbefore | ⟨-, y, hy, hyx⟩
      · exact hfix x (by simp [heq, hbefore])
      · exact not_not.mp fun hne => hfirst y hy ⟨x, hyx, hne⟩
    · rw [List.mem_singleton.mp hx]
      exact ha
  · have hgoal : goal ≠ a := by
      rintro rfl
      rw [h.twin_goal] at htwin
      cases htwin
    rw [List.mem_append, hw.mem goal]
    simp [hgoal]

/-- With a first companion that changes, a second run gives the same exactly where the goal stands
before it or right behind. -/
theorem FixesTo.fixes_iff (h : FixesTo twin fix goal) (hfixed : fixed.Nodup)
    (hfix : ∀ a ∈ fixed, fix a = a) {before after : List α} {a : α}
    (heq : fixed = before ++ a :: after) (hstray : Strays twin fix a)
    (hfirst : ∀ x ∈ before, ¬ Strays twin fix x) :
    firsts ((weave twin fixed).map fix) = (weave twin fixed).filter (fun a => fix a = a) ↔
      goal ∈ before ∨ (goal ∉ fixed ∧ ∃ x ∈ before, twin x = some goal) ∨
        after.head? = some goal := by
  obtain ⟨t, htwin, hchange⟩ := hstray
  obtain ⟨front, back, hweave, hstable, hgoal, hhead⟩ :=
    h.exists_weave hfixed hfix heq htwin hchange hfirst
  have hnodup : (front ++ t :: back).Nodup := hweave ▸ (woven_weave twin hfixed).nodup
  have hfixed' := woven_weave twin hfixed
  rw [hweave] at hfixed' ⊢
  obtain ⟨hfrontnd, hbacknd, hdisj⟩ := List.nodup_append.mp hnodup
  have hback := (List.nodup_cons.mp hbacknd).2
  have hgoalt : fix t = goal := (h.fix_twin htwin).resolve_left hchange
  have hfirsts : firsts ((front ++ t :: back).map fix) =
      (back.map fix).foldl addNew (addNew front goal) := by
    have hfront : front.map fix = front := (List.map_congr_left hstable).trans (List.map_id front)
    rw [List.map_append, List.map_cons, hfront, hgoalt, firsts, List.foldl_append, List.foldl_cons]
    exact congrArg (fun out => (back.map fix).foldl addNew (addNew out goal))
      (firsts_of_nodup hfrontnd)
  have hfilter : (front ++ t :: back).filter (fun x => fix x = x) =
      front ++ back.filter (fun x => fix x = x) := by
    rw [List.filter_append, List.filter_cons, if_neg (by simpa using hchange),
      List.filter_eq_self.mpr (by simpa using hstable)]
  have hto : ∀ x ∈ back, fix x = x ∨ fix x = goal := by
    intro x hx
    rcases (hfixed'.mem x).mp (by simp [hx]) with hmem | ⟨-, y, -, hyx⟩
    · exact Or.inl (hfix x hmem)
    · exact h.fix_twin hyx
  rw [hfirsts, hfilter]
  by_cases hin : goal ∈ front
  · have hout : ∀ x ∈ back, x ∉ front := by
      intro x hx hmem
      exact hdisj x hmem x (List.mem_cons_of_mem t hx) rfl
    have hne : ((back.filter fun x => fix x = x).filter (· ≠ goal)) =
        back.filter fun x => fix x = x := by
      refine List.filter_eq_self.mpr fun x hx => ?_
      have hx' := (List.mem_filter.mp hx).1
      simpa using fun hg : x = goal => hout x hx' (hg ▸ hin)
    have hsame : addNew front goal = front := if_pos hin
    rw [hsame, foldl_add_new_fix hin hto hback fun x hx hmem => absurd hmem (hout x hx), hne]
    exact iff_of_true rfl ((hgoal.mp hin).imp_right Or.inl)
  · have hadd : addNew front goal = front ++ [goal] := if_neg hin
    have hdisj' : ∀ x ∈ back, x ∈ front ++ [goal] → x = goal := by
      intro x hx hmem
      rcases List.mem_append.mp hmem with hmem | hmem
      · exact absurd rfl (hdisj x hmem x (List.mem_cons_of_mem t hx))
      · exact List.mem_singleton.mp hmem
    have hheadst : ∀ x, back.head? = some x → fix x = x := by
      intro x hx
      rw [hhead] at hx
      have hmem : x ∈ after := List.mem_of_mem_head? hx
      exact hfix x (by simp [heq, hmem])
    rw [hadd, foldl_add_new_fix (by simp) hto hback hdisj', List.append_assoc,
      List.append_cancel_left_eq, List.singleton_append, cons_filter_iff hheadst hback, hhead]
    rw [← or_assoc, or_iff_right (mt hgoal.mpr hin)]

/-- A run: the elements fixed, each once, with their companions. -/
def run (twin : α → Option α) (fix : α → α) (items : List α) : List α :=
  weave twin (firsts (items.map fix))

/-- Where an element is the first whose companion changes, the goal stands or is put before it, or
is the next one that is not there yet. -/
def Settled (twin : α → Option α) (fix : α → α) (goal : α) (items : List α) : Prop :=
  ∀ before a after, items = before ++ a :: after → Strays twin fix (fix a) →
    (∀ x ∈ before, ¬ Strays twin fix (fix x)) →
    goal ∈ before.map fix ∨
      (goal ∉ items.map fix ∧ ∃ x ∈ before, twin (fix x) = some goal) ∨
      (after.map fix).find? (fun x => x ∉ (before ++ [a]).map fix) = some goal

/-- The first element whose companion changes keeps its place in the list of the fixed ones. -/
theorem firsts_split {items before after : List α} {a : α} (heq : items = before ++ a :: after)
    (hstray : Strays twin fix (fix a)) (hfirst : ∀ x ∈ before, ¬ Strays twin fix (fix x)) :
    ∃ rest, firsts (items.map fix) = firsts (before.map fix) ++ fix a :: rest ∧
      rest.head? = (after.map fix).find? (fun x => x ∉ (before ++ [a]).map fix) := by
  have hnew : fix a ∉ firsts (before.map fix) := by
    rw [mem_firsts, List.mem_map]
    rintro ⟨x, hx, hxa⟩
    exact hfirst x hx (hxa ▸ hstray)
  obtain ⟨rest, hrest, hhead⟩ := exists_foldl_add_new (after.map fix)
    (firsts (before.map fix) ++ [fix a])
  have hadd : addNew (firsts (before.map fix)) (fix a) = firsts (before.map fix) ++ [fix a] :=
    if_neg hnew
  refine ⟨rest, ?_, hhead.trans (by simp)⟩
  have hfold : firsts (items.map fix) =
      (after.map fix).foldl addNew (addNew (firsts (before.map fix)) (fix a)) := by
    rw [heq, List.map_append, List.map_cons, firsts, List.foldl_append, List.foldl_cons]
    rfl
  rw [hfold, hadd, hrest, List.append_assoc, List.singleton_append]

/-- A second run changes nothing exactly where the goal is settled. -/
theorem FixesTo.run_again_iff (h : FixesTo twin fix goal) (items : List α) :
    run twin fix (run twin fix items) = run twin fix items ↔ Settled twin fix goal items := by
  have hfixed := nodup_firsts (items.map fix)
  have hmem : ∀ a, a ∈ firsts (items.map fix) ↔ ∃ x ∈ items, fix x = a := by simp
  have hfix : ∀ a ∈ firsts (items.map fix), fix a = a := by
    intro a ha
    obtain ⟨x, -, rfl⟩ := (hmem a).mp ha
    exact h.fix_fix x
  have hsplit : ∀ before a after, items = before ++ a :: after → Strays twin fix (fix a) →
      (∀ x ∈ before, ¬ Strays twin fix (fix x)) →
      (firsts ((run twin fix items).map fix) =
          (run twin fix items).filter (fun a => fix a = a) ↔
        goal ∈ before.map fix ∨
          (goal ∉ items.map fix ∧ ∃ x ∈ before, twin (fix x) = some goal) ∨
          (after.map fix).find? (fun x => x ∉ (before ++ [a]).map fix) = some goal) := by
    intro before a after heq hstray hfirst
    obtain ⟨rest, hrest, hhead⟩ := firsts_split heq hstray hfirst
    have hiff := h.fixes_iff hfixed hfix hrest hstray (by simpa using hfirst)
    rw [← hhead]
    simpa [run] using hiff
  rw [run, run, h.weave_again hfixed hfix, ← run]
  constructor
  · intro hsame before a after heq hstray hfirst
    exact (hsplit before a after heq hstray hfirst).mp hsame
  · intro hsettled
    classical
    cases hfind : items.find? (fun a => Strays twin fix (fix a)) with
    | none =>
        have hall : ∀ x ∈ run twin fix items, fix x = x := by
          intro x hx
          rcases ((woven_weave twin hfixed).mem x).mp hx with hin | ⟨-, a, ha, hax⟩
          · exact hfix x hin
          · obtain ⟨o, ho, rfl⟩ := (hmem a).mp ha
            have hno := List.find?_eq_none.mp hfind o ho
            exact not_not.mp fun hne => hno (decide_eq_true ⟨x, hax, hne⟩)
        have hmap : (run twin fix items).map fix = run twin fix items :=
          (List.map_congr_left hall).trans (List.map_id _)
        rw [hmap, List.filter_eq_self.mpr (by simpa using hall)]
        exact firsts_of_nodup (woven_weave twin hfixed).nodup
    | some a =>
        obtain ⟨hstray, before, after, heq, hfirst⟩ := List.find?_eq_some_iff_append.mp hfind
        have hstray := of_decide_eq_true hstray
        have hfirst : ∀ x ∈ before, ¬ Strays twin fix (fix x) := by simpa using hfirst
        exact (hsplit before a after heq hstray hfirst).mpr
          (hsettled before a after heq hstray hfirst)

end Again

end Python
