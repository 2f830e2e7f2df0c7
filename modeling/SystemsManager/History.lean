import Mathlib.Data.List.Induction

/-!
# Histories

A list read from left to right is a history: each element comes with the elements before it.
`Each Q l` states a property of every element together with its past. `each_concat` is the rule
by which a property of histories is proved one event at a time.
-/

namespace SystemsManager

variable {α : Type*} {Q : List α → α → Prop}

/-- Every element of the history satisfies `Q` together with what came before it. -/
def Each (Q : List α → α → Prop) (l : List α) : Prop :=
  ∀ before x after, l = before ++ x :: after → Q before x

theorem each_nil : Each Q [] := by
  intro before x after h
  simp at h

/-- A history that one more event extends. -/
theorem each_concat {l : List α} {x : α} : Each Q (l ++ [x]) ↔ Each Q l ∧ Q l x := by
  constructor
  · intro h
    refine ⟨?_, h l x [] rfl⟩
    rintro before y after rfl
    exact h before y (after ++ [x]) (by simp)
  · rintro ⟨hl, hx⟩ before y after h
    rcases List.eq_nil_or_concat after with rfl | ⟨after', z, rfl⟩
    · obtain ⟨rfl, hyx⟩ := List.append_inj' h rfl
      cases hyx
      exact hx
    · rw [List.concat_eq_append, ← List.cons_append, ← List.append_assoc] at h
      exact hl before y after' (List.append_inj' h rfl).1

theorem Each.part {l m : List α} (h : Each Q (l ++ m)) : Each Q l := by
  rintro before x after rfl
  exact h before x (after ++ m) (by simp)

theorem each_append {l m : List α} (hl : Each Q l) (hm : ∀ x ∈ m, ∀ before, Q before x) :
    Each Q (l ++ m) := by
  induction m using List.reverseRecOn with
  | nil => simpa using hl
  | append_singleton m x ih =>
      rw [← List.append_assoc, each_concat]
      exact ⟨ih fun y hy => hm y (List.mem_append_left _ hy), hm x (by simp) _⟩

theorem each_of_map {β : Type*} {f : β → α} {l : List β} (h : Each Q (l.map f)) :
    Each (fun before x => Q (before.map f) (f x)) l := by
  rintro before x after rfl
  exact h (before.map f) (f x) (after.map f) (by simp)

/-- If every element is near fewer than `k` of those before it, then at most `k` elements are
pairwise near each other. -/
theorem length_filter_le_of_each {r : α → α → Prop} [∀ x y, Decidable (r x y)] {k : ℕ}
    {l : List α} (h : Each (fun before x => (before.filter fun y => r x y).length < k) l)
    {p : α → Prop} [DecidablePred p]
    (hp : Each (fun before x => p x → ∀ y ∈ before, p y → r x y) l) :
    (l.filter p).length ≤ k := by
  induction l using List.reverseRecOn with
  | nil => simp
  | append_singleton l x ih =>
      rw [each_concat] at h hp
      rw [List.filter_append, List.length_append]
      by_cases hx : p x
      · have hsub : (l.filter p).length ≤ (l.filter fun y => r x y).length := by
          simp only [← List.countP_eq_length_filter]
          apply List.countP_mono_left
          intro y hy hpy
          simpa using hp.2 hx y hy (by simpa using hpy)
        have hlast : ([x].filter p).length = 1 := by simp [hx]
        omega
      · have hlast : ([x].filter p).length = 0 := by simp [hx]
        have := ih h.1 hp.1
        omega

/-- The last `k` elements satisfy `p`. -/
def Recent (p : α → Bool) (k : ℕ) (l : List α) : Prop :=
  ∃ earlier recent, l = earlier ++ recent ∧ recent.length = k ∧ ∀ x ∈ recent, p x = true

/-- How many elements at the end satisfy `p`. -/
def trailing (p : α → Bool) (l : List α) : ℕ := (l.reverse.takeWhile p).length

@[simp] theorem trailing_concat (p : α → Bool) (l : List α) (x : α) :
    trailing p (l ++ [x]) = if p x then trailing p l + 1 else 0 := by
  simp only [trailing, List.reverse_append, List.reverse_singleton, List.singleton_append,
    List.takeWhile_cons]
  split <;> simp

theorem Recent.le_trailing {p : α → Bool} {k : ℕ} {l : List α} (h : Recent p k l) :
    k ≤ trailing p l := by
  obtain ⟨earlier, recent, rfl, rfl, hrecent⟩ := h
  rw [trailing, List.reverse_append, List.takeWhile_append_of_pos]
  · simp
  · intro x hx
    exact hrecent x (List.mem_reverse.mp hx)

theorem recent_of_trailing {p : α → Bool} {k : ℕ} {l : List α} (h : k ≤ trailing p l) :
    Recent p k l := by
  have hlength : trailing p l ≤ l.length := by
    simpa [trailing] using (List.takeWhile_prefix (l := l.reverse) p).length_le
  refine ⟨l.take (l.length - k), l.drop (l.length - k), (List.take_append_drop _ _).symm, ?_, ?_⟩
  · rw [List.length_drop]
    omega
  · intro x hx
    have hx' : x ∈ l.reverse.take k := by
      rw [List.take_reverse]
      simpa using hx
    have htake : l.reverse.take k <+: l.reverse.takeWhile p :=
      List.prefix_of_prefix_length_le (List.take_prefix _ _) (List.takeWhile_prefix p)
        (Nat.le_trans (List.length_take_le _ _) h)
    exact List.all_eq_true.mp List.all_takeWhile x (htake.subset hx')

end SystemsManager
