import Mathlib.Data.List.Induction
import Mathlib.Data.List.Sort
import SystemsManager.Python.Value

/-!
# The first and the last maximum of a list

A loop that keeps the best value so far and replaces it only by a better one ends with the first of
the values with the greatest key; a stable sort puts the last of them at the end. Read
`first_eq_last_iff`: the two are the same value exactly where no other one has the greatest key.
-/

namespace Python

variable {α κ : Type} [LinearOrder κ] {key : α → κ} {l : List α} {m n : α}

/-- `m` is the first value with the greatest key. -/
def FirstMax (key : α → κ) (l : List α) (m : α) : Prop :=
  ∃ front back, l = front ++ m :: back ∧ (∀ a ∈ front, key a < key m) ∧ ∀ a ∈ back, key a ≤ key m

/-- `m` is the last value with the greatest key. -/
def LastMax (key : α → κ) (l : List α) (m : α) : Prop :=
  ∃ front back, l = front ++ m :: back ∧ (∀ a ∈ front, key a ≤ key m) ∧ ∀ a ∈ back, key a < key m

/-- The best value so far and a further one. -/
def better (key : α → κ) : Option α → α → Option α
  | none, a => some a
  | some best, a => if key best < key a then some a else some best

/-- The loop over the values. -/
def firstMax (key : α → κ) (l : List α) : Option α := l.foldl (better key) none

/-- The loop ends with the first maximum. -/
theorem first_max_spec (key : α → κ) (l : List α) : match firstMax key l with
    | none => l = []
    | some m => FirstMax key l m := by
  induction l using List.reverseRecOn with
  | nil => rfl
  | append_singleton l a ih =>
      have hstep : firstMax key (l ++ [a]) = better key (firstMax key l) a := by
        unfold firstMax
        rw [List.foldl_append]
        rfl
      rw [hstep]
      cases hbest : firstMax key l with
      | none =>
          rw [hbest] at ih
          subst ih
          exact ⟨[], [], rfl, fun _ h => (by cases h), fun _ h => (by cases h)⟩
      | some best =>
          rw [hbest] at ih
          obtain ⟨front, back, rfl, hfront, hback⟩ := ih
          show match better key (some best) a with
            | none => _
            | some m => FirstMax key _ m
          rw [better]
          by_cases hlt : key best < key a
          · rw [if_pos hlt]
            refine ⟨front ++ best :: back, [], rfl, fun b hb => ?_, fun _ h => (by cases h)⟩
            rcases List.mem_append.mp hb with hb | hb
            · exact (hfront b hb).trans hlt
            · rcases List.mem_cons.mp hb with rfl | hb
              · exact hlt
              · exact lt_of_le_of_lt (hback b hb) hlt
          · rw [if_neg hlt]
            refine ⟨front, back ++ [a], ?_, hfront, fun b hb => ?_⟩
            · rw [List.append_assoc, List.cons_append]
            · rcases List.mem_append.mp hb with hb | hb
              · exact hback b hb
              · rw [List.mem_singleton.mp hb]
                exact not_lt.mp hlt

/-- The last value after an insertion into a sorted list. -/
theorem last_ordered_insert (key : α → κ) (a : α) {l : List α}
    (hsorted : l.Pairwise fun b c => key b ≤ key c) :
    (l.orderedInsert (fun b c => key b ≤ key c) a).getLast? = match l.getLast? with
      | none => some a
      | some b => if key a ≤ key b then some b else some a := by
  induction l with
  | nil => rfl
  | cons b rest ih =>
      rw [List.pairwise_cons] at hsorted
      rw [List.orderedInsert_cons]
      cases hlast : rest.getLast? with
      | none =>
          have hnone := List.getLast?_eq_none_iff.mp hlast
          subst hnone
          split
          · rename_i hle
            show some b = if key a ≤ key b then some b else some a
            rw [if_pos hle]
          · rename_i hle
            show some a = if key a ≤ key b then some b else some a
            rw [if_neg hle]
      | some c =>
          have hc : key b ≤ key c := hsorted.1 c (List.mem_of_getLast? hlast)
          have hcons : ∀ (d : α) (l : List α), l.getLast? = some c →
            (d :: l).getLast? = some c := by
            intro d l hl
            rw [List.getLast?_cons, hl]
            rfl
          rw [hcons b rest hlast]
          dsimp only
          split
          · rename_i hle
            rw [if_pos (hle.trans hc)]
            exact hcons a _ (hcons b rest hlast)
          · have hrest := ih hsorted.2
            rw [hlast] at hrest
            dsimp only at hrest
            rw [List.getLast?_cons, hrest]
            split
            · rfl
            · rfl

/-- A stable sort ends with the last maximum. -/
theorem last_sorted_by (key : α → κ) (l : List α) : match (sortedBy key l).getLast? with
    | none => l = []
    | some m => LastMax key l m := by
  induction l with
  | nil => rfl
  | cons a rest ih =>
      have hsorted : (sortedBy key rest).Pairwise fun b c => key b ≤ key c :=
        List.pairwise_insertionSort _ _
      have hinsert := last_ordered_insert key a hsorted
      show match ((sortedBy key rest).orderedInsert (fun b c => key b ≤ key c) a).getLast? with
        | none => _
        | some m => LastMax key _ m
      rw [hinsert]
      cases hlast : (sortedBy key rest).getLast? with
      | none =>
          rw [hlast] at ih
          subst ih
          exact ⟨[], [], rfl, fun _ h => (by cases h), fun _ h => (by cases h)⟩
      | some b =>
          rw [hlast] at ih
          obtain ⟨front, back, hrest, hfront, hback⟩ := ih
          dsimp only
          by_cases hle : key a ≤ key b
          · rw [if_pos hle]
            refine ⟨a :: front, back, by rw [hrest, List.cons_append], fun c hc => ?_, hback⟩
            rcases List.mem_cons.mp hc with rfl | hc
            · exact hle
            · exact hfront c hc
          · rw [if_neg hle]
            refine ⟨[], rest, rfl, fun _ h => (by cases h), fun c hc => ?_⟩
            have hmem : c ∈ front ++ b :: back := hrest ▸ hc
            have hbest : key c ≤ key b := by
              rcases List.mem_append.mp hmem with hc | hc
              · exact hfront c hc
              · rcases List.mem_cons.mp hc with rfl | hc
                · exact le_refl _
                · exact (hback c hc).le
            exact lt_of_le_of_lt hbest (not_le.mp hle)

/-- The first maximum is a member, and no member has a greater key. -/
theorem FirstMax.max (h : FirstMax key l m) : m ∈ l ∧ ∀ a ∈ l, key a ≤ key m := by
  obtain ⟨front, back, rfl, hfront, hback⟩ := h
  refine ⟨List.mem_append_right _ List.mem_cons_self, fun a ha => ?_⟩
  rcases List.mem_append.mp ha with ha | ha
  · exact (hfront a ha).le
  · rcases List.mem_cons.mp ha with rfl | ha
    · exact le_refl _
    · exact hback a ha

theorem LastMax.max (h : LastMax key l m) : m ∈ l ∧ ∀ a ∈ l, key a ≤ key m := by
  obtain ⟨front, back, rfl, hfront, hback⟩ := h
  refine ⟨List.mem_append_right _ List.mem_cons_self, fun a ha => ?_⟩
  rcases List.mem_append.mp ha with ha | ha
  · exact hfront a ha
  · rcases List.mem_cons.mp ha with rfl | ha
    · exact le_refl _
    · exact (hback a ha).le

/-- There is one last maximum. -/
theorem LastMax.unique (h : LastMax key l m) (h' : LastMax key l n) : m = n := by
  obtain ⟨front, back, hl, hfront, hback⟩ := h
  obtain ⟨front', back', hl', hfront', hback'⟩ := h'
  rw [hl] at hl'
  rcases List.append_eq_append_iff.mp hl' with ⟨more, rfl, hrest⟩ | ⟨more, rfl, hrest⟩
  · cases more with
    | nil => exact (List.cons.inj hrest).1
    | cons first more =>
        -- the other one comes later, so its key is smaller, and not smaller
        rw [List.cons_append] at hrest
        obtain ⟨rfl, rfl⟩ := List.cons.inj hrest
        have hlt := hback n (List.mem_append_right _ List.mem_cons_self)
        have hle := hfront' m (List.mem_append_right _ List.mem_cons_self)
        exact absurd hle (not_le.mpr hlt)
  · cases more with
    | nil => exact (List.cons.inj hrest).1.symm
    | cons first more =>
        rw [List.cons_append] at hrest
        obtain ⟨rfl, rfl⟩ := List.cons.inj hrest
        have hlt := hback' m (List.mem_append_right _ List.mem_cons_self)
        have hle := hfront n (List.mem_append_right _ List.mem_cons_self)
        exact absurd hle (not_le.mpr hlt)

/-- Of different values, the first and the last maximum are the same exactly where no two of them
share the greatest key. -/
theorem first_eq_last_iff (hnodup : l.Nodup) (hfirst : FirstMax key l m) (hlast : LastMax key l n) :
    m = n ↔ ∀ a ∈ l, ∀ b ∈ l, (∀ d ∈ l, key d ≤ key a) → (∀ d ∈ l, key d ≤ key b) → a = b := by
  constructor
  · rintro rfl
    have honly : ∀ a ∈ l, (∀ d ∈ l, key d ≤ key a) → a = m := by
      intro a ha hmax
      obtain ⟨front, back, hl, hfront, -⟩ := hfirst
      obtain ⟨front', back', hl', -, hback'⟩ := hlast
      have hmem : m ∈ l := hl ▸ List.mem_append_right _ List.mem_cons_self
      have hle := hmax m hmem
      rw [hl] at ha
      rcases List.mem_append.mp ha with ha | ha
      · exact absurd hle (not_le.mpr (hfront a ha))
      · rcases List.mem_cons.mp ha with rfl | ha
        · rfl
        · -- both cuts are the same, as the values differ
          rw [hl] at hnodup hl'
          have hback : back = back' := by
            rcases List.append_eq_append_iff.mp hl' with ⟨more, hfront',
              hrest⟩ | ⟨more, hfront', hrest⟩
            · cases more with
              | nil => exact (List.cons.inj hrest).2
              | cons first more =>
                  rw [List.cons_append] at hrest
                  obtain ⟨rfl, rfl⟩ := List.cons.inj hrest
                  exact absurd (List.mem_append_right more List.mem_cons_self)
                    (List.nodup_cons.mp (List.nodup_append.mp hnodup).2.1).1
            · cases more with
              | nil => exact (List.cons.inj hrest).2.symm
              | cons first more =>
                  rw [List.cons_append] at hrest
                  obtain ⟨rfl, rfl⟩ := List.cons.inj hrest
                  have hin : m ∈ front := hfront' ▸ List.mem_append_right _ List.mem_cons_self
                  exact absurd rfl ((List.nodup_append.mp hnodup).2.2 m hin m List.mem_cons_self)
          exact absurd hle (not_le.mpr (hback' a (hback ▸ ha)))
    intro a ha b hb hmaxa hmaxb
    rw [honly a ha hmaxa, honly b hb hmaxb]
  · intro hunique
    exact hunique m hfirst.max.1 n hlast.max.1 hfirst.max.2 hlast.max.2

theorem last_max_flatten {ls : List (List α)}
    (hsorted : ∀ l ∈ ls, l.Pairwise fun a b => key a ≤ key b)
    (h : LastMax key (ls.filterMap List.getLast?) m) : LastMax key ls.flatten m := by
  induction ls with
  | nil =>
      obtain ⟨front, back, hnil, -, -⟩ := h
      exact absurd hnil (List.append_ne_nil_of_right_ne_nil _ (List.cons_ne_nil _ _)).symm
  | cons l rest ih =>
      have hrest := fun l hl => hsorted l (List.mem_cons_of_mem _ hl)
      -- the values of a sorted list are at most its last one
      have hle : ∀ other ∈ l :: rest, ∀ last, other.getLast? = some last →
          ∀ a ∈ other, key a ≤ key last := by
        intro other hother last hlast a ha
        have hpair := hsorted other hother
        obtain ⟨front, rfl⟩ := List.getLast?_eq_some_iff.mp hlast
        rw [List.pairwise_append] at hpair
        rcases List.mem_append.mp ha with ha | ha
        · exact hpair.2.2 a ha last (List.mem_singleton_self _)
        · rw [List.mem_singleton.mp ha]
      rw [List.flatten_cons]
      cases hlast : l.getLast? with
      | none =>
          rw [List.filterMap_cons_none hlast] at h
          rw [List.getLast?_eq_none_iff.mp hlast, List.nil_append]
          exact ih hrest h
      | some last =>
          rw [List.filterMap_cons_some hlast] at h
          have hl := hle l List.mem_cons_self last hlast
          obtain ⟨front, back, hcut, hfront, hback⟩ := h
          cases front with
          | nil =>
              rw [List.nil_append] at hcut
              obtain ⟨rfl, rfl⟩ := List.cons.inj hcut
              obtain ⟨before, rfl⟩ := List.getLast?_eq_some_iff.mp hlast
              refine ⟨before, rest.flatten, by rw [List.append_assoc]; rfl,
                fun a ha => hl a (List.mem_append_left _ ha), fun a ha => ?_⟩
              obtain ⟨other, hother, ha⟩ := List.mem_flatten.mp ha
              obtain ⟨tail, htail⟩ := Option.ne_none_iff_exists'.mp
                (fun hnone => (by rw [List.getLast?_eq_none_iff.mp hnone] at ha; cases ha) :
                  other.getLast? ≠ none)
              exact lt_of_le_of_lt (hle other (List.mem_cons_of_mem _ hother) tail htail a ha)
                (hback tail (List.mem_filterMap.mpr ⟨other, hother, htail⟩))
          | cons first front =>
              rw [List.cons_append] at hcut
              obtain ⟨rfl, htails⟩ := List.cons.inj hcut
              obtain ⟨front', back', hflat, hfront', hback'⟩ :=
                ih hrest ⟨front, back, htails, fun a ha =>
                  hfront a (List.mem_cons_of_mem _ ha), hback⟩
              refine ⟨l ++ front', back', by rw [hflat, List.append_assoc], fun a ha => ?_, hback'⟩
              rcases List.mem_append.mp ha with ha | ha
              · exact (hl a ha).trans (hfront last List.mem_cons_self)
              · exact hfront' a ha

end Python
