import Mathlib.Tactic.Linarith
import SystemsManager.Forecast.Math

/-!
# Rules that fire together

`cofire` sweeps two sorted lists of times with one pointer each, and `_cofire_candidates` compares
only rules that share a bucket of time or have neighbouring ones. Times are floats, and a difference
of two is rounded; where that changes no comparison, both lose nothing: read `cofire_eq_share` and
`cofire_pairs_exact`. `reach_rounds_apart` is a pair of times where it does.
-/

namespace SystemsManager.Forecast

open Python

/-- The share of the times in `a` that have a time of `b` within reach; nothing for an empty `a`. -/
def cofireShare (a b : List ℚ) (withinS : ℚ) : ℚ :=
  (a.countP fun t => b.any fun s => |s - t| ≤ withinS) / a.length

section Sweep

variable {withinS : ℚ}

/-- Rounding changes no comparison of these times: not that of `s` with the start of the reach of
`t`, and not that of their distance with the reach. -/
def ComparesAlike (withinS t s : ℚ) : Prop :=
  (s < nearestFloat (t - withinS) ↔ s < t - withinS) ∧
    (|nearestFloat (s - t)| ≤ withinS ↔ |s - t| ≤ withinS)

instance (withinS t s : ℚ) : Decidable (ComparesAlike withinS t s) :=
  inferInstanceAs (Decidable (_ ∧ _))

/-- Rounding changes no comparison of a time of `a` with one of `b`. -/
def AllAlike (withinS : ℚ) (a b : List ℚ) : Prop := ∀ t ∈ a, ∀ s ∈ b, ComparesAlike withinS t s

instance (withinS : ℚ) (a b : List ℚ) : Decidable (AllAlike withinS a b) :=
  inferInstanceAs (Decidable (∀ t ∈ a, ∀ s ∈ b, _))

/-- What the pointer passes for one time is out of reach of this time and of all later ones. -/
theorem drop_earlier_any {t t' : ℚ} {b : List ℚ} (h : ∀ s ∈ b, ComparesAlike withinS t s)
    (hle : t ≤ t') :
    ((dropEarlier (nearestFloat (t - withinS)) b).any fun s => |s - t'| ≤ withinS) =
      b.any fun s => |s - t'| ≤ withinS := by
  induction b with
  | nil => rfl
  | cons s rest ih =>
      rw [dropEarlier]
      split
      · rename_i hearly
        have hbefore := (h s (List.mem_cons_self ..)).1.mp hearly
        have hout : ¬|s - t'| ≤ withinS := by
          intro hin
          have hleft := (abs_le.mp hin).1
          linarith
        rw [ih fun s hs => h s (List.mem_cons_of_mem _ hs), List.any_cons, decide_eq_false hout,
          Bool.false_or]
      · rfl

theorem drop_earlier_sublist (from_ : ℚ) (b : List ℚ) : (dropEarlier from_ b).Sublist b := by
  induction b with
  | nil => exact List.Sublist.refl _
  | cons s rest ih =>
      rw [dropEarlier]
      split
      · exact ih.cons s
      · exact List.Sublist.refl _

theorem drop_earlier_first (from_ : ℚ) (b : List ℚ) :
    ∀ s ∈ (dropEarlier from_ b).head?, from_ ≤ s := by
  induction b with
  | nil => exact fun s hs => by cases hs
  | cons s rest ih =>
      rw [dropEarlier]
      split
      · exact ih
      · rename_i hearly
        intro s' hs'
        cases hs'
        exact not_lt.mp hearly

/-- The first time that the pointer has not passed decides for all of them. -/
theorem head_any {t : ℚ} {b : List ℚ} (h : b.Pairwise (· ≤ ·))
    (halike : ∀ s ∈ b, ComparesAlike withinS t s)
    (hfirst : ∀ s ∈ b.head?, nearestFloat (t - withinS) ≤ s) :
    (b.head?.any fun s => |nearestFloat (s - t)| ≤ withinS) = b.any fun s => |s - t| ≤ withinS := by
  cases b with
  | nil => rfl
  | cons s rest =>
      obtain ⟨hstart, hdistance⟩ := halike s (List.mem_cons_self ..)
      rw [List.head?_cons, Option.any_some, List.any_cons, decide_eq_decide.mpr hdistance]
      cases hs : decide (|s - t| ≤ withinS) with
      | true => rfl
      | false =>
          -- The first one is too late, and so are all others.
          have hlate : t + withinS < s := by
            have hfrom := not_lt.mp (mt hstart.mpr (not_lt.mpr (hfirst s rfl)))
            have hout := of_decide_eq_false hs
            rw [abs_le, not_and_or] at hout
            rcases hout with hout | hout <;> linarith
          symm
          rw [Bool.false_or, List.any_eq_false]
          intro s' hs' hin
          have hle := (List.pairwise_cons.mp h).1 s' hs'
          have hright := (abs_le.mp (of_decide_eq_true hin)).2
          linarith

theorem cofire_hits_eq {a b : List ℚ} (ha : a.Pairwise (· ≤ ·)) (hb : b.Pairwise (· ≤ ·))
    (h : AllAlike withinS a b) :
    cofireHits withinS a b = a.countP fun t => b.any fun s => |s - t| ≤ withinS := by
  induction a generalizing b with
  | nil => rfl
  | cons t rest ih =>
      rw [List.pairwise_cons] at ha
      have hsub := drop_earlier_sublist (nearestFloat (t - withinS)) b
      have hhere : ∀ s ∈ b, ComparesAlike withinS t s := h t (List.mem_cons_self ..)
      rw [cofireHits, ih ha.2 (hb.sublist hsub)
          fun t' ht' s hs => h t' (List.mem_cons_of_mem _ ht') s (hsub.subset hs),
        head_any (hb.sublist hsub) (fun s hs => hhere s (hsub.subset hs)) (drop_earlier_first _ b),
        drop_earlier_any hhere le_rfl, List.countP_cons, add_comm]
      congr 1
      refine List.countP_congr fun t' ht' => ?_
      rw [drop_earlier_any hhere (ha.1 t' ht')]

theorem cofire_eq_share {a b : List ℚ} (h : AllAlike withinS a b) :
    cofire a b withinS = nearestFloat (cofireShare a b withinS) := by
  have hsorted : ∀ times : List ℚ, (sortedBy id times).Pairwise (· ≤ ·) :=
    fun times => List.pairwise_insertionSort (fun x y : ℚ => id x ≤ id y) times
  have hperm : ∀ times : List ℚ, (sortedBy id times).Perm times := fun times => sorted_by_perm _ _
  have halike : AllAlike withinS (sortedBy id a) (sortedBy id b) := fun t ht s hs =>
    h t ((hperm a).mem_iff.mp ht) s ((hperm b).mem_iff.mp hs)
  unfold cofire cofireShare
  dsimp only
  rw [cofire_hits_eq (hsorted a) (hsorted b) halike, (hperm a).length_eq, (hperm a).countP_eq]
  have hany : ∀ t : ℚ, ((sortedBy id b).any fun s => |s - t| ≤ withinS) =
      b.any fun s => |s - t| ≤ withinS := fun t => (hperm b).any_eq
  simp only [hany]
  split
  · rename_i hempty
    have hnil : a.Perm [] := hempty ▸ (hperm a).symm
    rw [hnil.eq_nil]
    simp
  · rfl

end Sweep

section Buckets

theorem mem_enter_times (withinS : ℚ) (rule : String) (times : List ℚ)
    (index : Dict ℤ (Finset String)) (k : ℤ) (other : String) :
    other ∈ (times.foldl (fun index t => index.set (floorDiv t withinS)
        (insert rule (index.getD (floorDiv t withinS) ∅))) index).getD k ∅ ↔
      other ∈ index.getD k ∅ ∨ other = rule ∧ ∃ t ∈ times, floorDiv t withinS = k := by
  induction times generalizing index with
  | nil => simp
  | cons t rest ih =>
      rw [List.foldl_cons, ih, Dict.getD_set]
      by_cases hk : k = floorDiv t withinS
      · subst hk
        rw [if_pos rfl, Finset.mem_insert]
        simp only [List.mem_cons, exists_eq_or_imp, true_or, and_true]
        tauto
      · have hk' : floorDiv t withinS ≠ k := fun e => hk e.symm
        rw [if_neg hk]
        simp only [List.mem_cons, exists_eq_or_imp, hk', false_or]

variable {rules : Dict String (List ℚ)} {withinS : ℚ}

theorem mem_cofire_index {k : ℤ} {rule : String} :
    rule ∈ (cofireIndex rules withinS).getD k ∅ ↔
      ∃ times, rules.get? rule = some times ∧ ∃ t ∈ times, floorDiv t withinS = k := by
  have hitems : ∀ (items : List (String × List ℚ)) (index : Dict ℤ (Finset String)),
      rule ∈ (items.foldl (fun index item =>
        item.2.foldl (fun index t => index.set (floorDiv t withinS)
          (insert item.1 (index.getD (floorDiv t withinS) ∅))) index) index).getD k ∅ ↔
        rule ∈ index.getD k ∅ ∨ ∃ item ∈ items, rule = item.1 ∧
          ∃ t ∈ item.2, floorDiv t withinS = k := by
    intro items
    induction items with
    | nil => simp
    | cons item rest ih =>
        intro index
        rw [List.foldl_cons, ih, mem_enter_times]
        simp only [List.mem_cons, exists_eq_or_imp, or_assoc]
  have hempty : rule ∉ (∅ : Dict ℤ (Finset String)).getD k ∅ := Finset.notMem_empty _
  refine (hitems rules.items ∅).trans ?_
  constructor
  · rintro (hmem | ⟨item, hitem, hrule, htimes⟩)
    · exact absurd hmem hempty
    · exact ⟨item.2, Dict.mem_items_iff.mp (hrule ▸ hitem), htimes⟩
  · rintro ⟨times, hget, htimes⟩
    exact Or.inr ⟨(rule, times), Dict.mem_items_iff.mpr hget, rfl, htimes⟩

theorem mem_bucket_pairs {index : Dict ℤ (Finset String)} {k : ℤ} {here : Finset String}
    {a b : String} (hab : a < b) :
    (a, b) ∈ bucketPairs index k here ↔
      (a ∈ here ∧ b ∈ here ∪ index.getD (k + 1) ∅) ∨
      (b ∈ here ∧ a ∈ here ∪ index.getD (k + 1) ∅) := by
  unfold bucketPairs
  simp only [Finset.mem_image, Finset.mem_filter, Finset.mem_product]
  constructor
  · rintro ⟨⟨c, d⟩, ⟨⟨hc, hd⟩, -⟩, heq⟩
    split at heq
    · cases heq
      exact Or.inl ⟨hc, hd⟩
    · cases heq
      exact Or.inr ⟨hc, hd⟩
  · rintro (⟨ha, hb⟩ | ⟨hb, ha⟩)
    · exact ⟨(a, b), ⟨⟨ha, hb⟩, hab.ne'⟩, if_pos hab⟩
    · exact ⟨(b, a), ⟨⟨hb, ha⟩, hab.ne⟩, if_neg (not_lt.mpr hab.le)⟩

theorem mem_cofire_candidates {p : String × String} :
    p ∈ cofireCandidates rules withinS ↔
      ∃ item ∈ (cofireIndex rules withinS).items,
        p ∈ bucketPairs (cofireIndex rules withinS) item.1 item.2 := by
  have hfold : ∀ (items : List (ℤ × Finset String)) (pairs : Finset (String × String)),
      p ∈ items.foldl (fun pairs item =>
        pairs ∪ bucketPairs (cofireIndex rules withinS) item.1 item.2) pairs ↔
      p ∈ pairs ∨ ∃ item ∈ items, p ∈ bucketPairs (cofireIndex rules withinS) item.1 item.2 := by
    intro items
    induction items with
    | nil => simp
    | cons item rest ih =>
        intro pairs
        rw [List.foldl_cons, ih, Finset.mem_union]
        simp only [List.mem_cons, exists_eq_or_imp, or_assoc]
  unfold cofireCandidates
  simp only [List.mem_map, Finset.mem_sort, Finset.mem_image]
  constructor
  · rintro ⟨_, ⟨q, hq, rfl⟩, rfl⟩
    exact ((hfold _ _).mp hq).resolve_left (Finset.notMem_empty _)
  · intro hitem
    exact ⟨toLex p, ⟨p, (hfold _ _).mpr (Or.inr hitem), rfl⟩, rfl⟩

theorem cofire_candidates_sound {a b : String} (h : (a, b) ∈ cofireCandidates rules withinS) :
    a < b ∧ (rules.get? a).isSome = true ∧ (rules.get? b).isSome = true := by
  obtain ⟨⟨k, here⟩, hitem, hp⟩ := mem_cofire_candidates.mp h
  have hhere : ∀ rule ∈ here, (rules.get? rule).isSome = true := by
    intro rule hrule
    have hget := Dict.mem_items_iff.mp hitem
    have hmem : rule ∈ (cofireIndex rules withinS).getD k ∅ := by
      rw [Dict.getD, hget]
      exact hrule
    obtain ⟨times, htimes, -⟩ := mem_cofire_index.mp hmem
    rw [htimes]
    rfl
  have hnear : ∀ rule ∈ here ∪ (cofireIndex rules withinS).getD (k + 1) ∅,
      (rules.get? rule).isSome = true := by
    intro rule hrule
    rcases Finset.mem_union.mp hrule with hrule | hrule
    · exact hhere rule hrule
    · obtain ⟨times, htimes, -⟩ := mem_cofire_index.mp hrule
      rw [htimes]
      rfl
  have hab : a < b := by
    unfold bucketPairs at hp
    simp only [Finset.mem_image, Finset.mem_filter] at hp
    obtain ⟨⟨c, d⟩, ⟨-, hne⟩, heq⟩ := hp
    split at heq
    · rename_i hlt
      cases heq
      exact hlt
    · rename_i hlt
      cases heq
      exact lt_of_le_of_ne (not_lt.mp hlt) hne
  rcases (mem_bucket_pairs hab).mp hp with ⟨ha, hb⟩ | ⟨hb, ha⟩
  · exact ⟨hab, hhere a ha, hnear b hb⟩
  · exact ⟨hab, hnear a ha, hhere b hb⟩

theorem buckets_near {withinS t s : ℚ} (hpos : 0 < withinS) (h : |t - s| ≤ withinS) (hle : t ≤ s) :
    ⌊s / withinS⌋ = ⌊t / withinS⌋ ∨ ⌊s / withinS⌋ = ⌊t / withinS⌋ + 1 := by
  have hlow : t / withinS ≤ s / withinS := div_le_div_of_nonneg_right hle hpos.le
  have hhigh : s / withinS ≤ t / withinS + 1 := by
    rw [div_add_one hpos.ne']
    refine div_le_div_of_nonneg_right ?_ hpos.le
    have hleft := (abs_le.mp h).1
    linarith
  have hfloor := Int.floor_le_floor hlow
  have hfloor' := Int.floor_le_floor hhigh
  rw [Int.floor_add_one] at hfloor'
  omega

/-- The quotient of the time by the reach is rounded down as the exact one is. -/
def Floored (withinS t : ℚ) : Prop := floorDiv t withinS = ⌊t / withinS⌋

instance (withinS t : ℚ) : Decidable (Floored withinS t) := inferInstanceAs (Decidable (_ = _))

theorem cofire_candidates_complete (hpos : 0 < withinS) {a b : String} (hab : a < b)
    {ta tb : List ℚ} (ha : rules.get? a = some ta) (hb : rules.get? b = some tb) {t s : ℚ}
    (ht : t ∈ ta) (hs : s ∈ tb) (htf : Floored withinS t) (hsf : Floored withinS s)
    (hnear : |t - s| ≤ withinS) :
    (a, b) ∈ cofireCandidates rules withinS := by
  have hentry : ∀ {rule : String} {k : ℤ}, rule ∈ (cofireIndex rules withinS).getD k ∅ →
      ∃ here, (k, here) ∈ (cofireIndex rules withinS).items ∧ rule ∈ here := by
    intro rule k hrule
    cases hget : (cofireIndex rules withinS).get? k with
    | none =>
        rw [Dict.getD, hget] at hrule
        exact absurd hrule (Finset.notMem_empty _)
    | some here =>
        rw [Dict.getD, hget] at hrule
        exact ⟨here, Dict.mem_items_iff.mpr hget, hrule⟩
  have hina : a ∈ (cofireIndex rules withinS).getD ⌊t / withinS⌋ ∅ :=
    mem_cofire_index.mpr ⟨ta, ha, t, ht, htf⟩
  have hinb : b ∈ (cofireIndex rules withinS).getD ⌊s / withinS⌋ ∅ :=
    mem_cofire_index.mpr ⟨tb, hb, s, hs, hsf⟩
  -- What is in the same bucket or in the next one is near.
  have hreach : ∀ {k : ℤ} {here : Finset String} {rule : String} {other : ℤ},
      (k, here) ∈ (cofireIndex rules withinS).items →
      rule ∈ (cofireIndex rules withinS).getD other ∅ → other = k ∨ other = k + 1 →
      rule ∈ here ∪ (cofireIndex rules withinS).getD (k + 1) ∅ := by
    intro k here rule other hitem hrule hother
    rcases hother with rfl | rfl
    · rw [Dict.getD, Dict.mem_items_iff.mp hitem] at hrule
      exact Finset.mem_union_left _ hrule
    · exact Finset.mem_union_right _ hrule
  rw [mem_cofire_candidates]
  rcases le_total t s with hle | hle
  · obtain ⟨here, hitem, hmem⟩ := hentry hina
    exact ⟨_, hitem, (mem_bucket_pairs hab).mpr
      (Or.inl ⟨hmem, hreach hitem hinb (buckets_near hpos hnear hle)⟩)⟩
  · obtain ⟨here, hitem, hmem⟩ := hentry hinb
    rw [abs_sub_comm] at hnear
    exact ⟨_, hitem, (mem_bucket_pairs hab).mpr
      (Or.inr ⟨hmem, hreach hitem hina (buckets_near hpos hnear hle)⟩)⟩

end Buckets

theorem near_of_share_pos {a b : List ℚ} {withinS : ℚ} (h : 0 < cofireShare a b withinS) :
    ∃ t ∈ a, ∃ s ∈ b, |t - s| ≤ withinS := by
  have hcount : 0 < a.countP fun t => b.any fun s => |s - t| ≤ withinS := by
    rcases Nat.eq_zero_or_pos (a.countP fun t => b.any fun s => |s - t| ≤ withinS) with hzero | hpos
    · unfold cofireShare at h
      rw [hzero, Nat.cast_zero, zero_div] at h
      exact absurd h (lt_irrefl _)
    · exact hpos
  obtain ⟨t, ht, hany⟩ := List.countP_pos_iff.mp hcount
  obtain ⟨s, hs, hnear⟩ := List.any_eq_true.mp hany
  refine ⟨t, ht, s, hs, ?_⟩
  rw [abs_sub_comm]
  exact of_decide_eq_true hnear

/-- The two rules fire together: four fifths of the times of each have one of the other within
reach. -/
def FiresTogether (rules : Dict String (List ℚ)) (withinS : ℚ) (p : String × String) : Prop :=
  nearestFloat (4 / 5) ≤ min (cofire (rules.getD p.1 []) (rules.getD p.2 []) withinS)
    (cofire (rules.getD p.2 []) (rules.getD p.1 []) withinS)

instance (rules : Dict String (List ℚ)) (withinS : ℚ) (p : String × String) :
    Decidable (FiresTogether rules withinS p) :=
  inferInstanceAs (Decidable (_ ≤ _))

/-- Rounding changes nothing by which the times of the rules are compared or put into buckets. -/
structure Unrounded (rules : Dict String (List ℚ)) (withinS : ℚ) : Prop where
  floored : ∀ rule times, rules.get? rule = some times → ∀ t ∈ times, Floored withinS t
  alike : ∀ a b ta tb, rules.get? a = some ta → rules.get? b = some tb → AllAlike withinS ta tb

/-- Two rules that always fire within five seconds of each other, in neighbouring buckets. -/
def neighbours : Dict String (List ℚ) := Dict.set (Dict.set ∅ "disk" [298, 898]) "cpu" [302, 902]

theorem neighbours_get {rule : String} {times : List ℚ} (h : neighbours.get? rule = some times) :
    times = [298, 898] ∨ times = [302, 902] := by
  unfold neighbours at h
  rw [Dict.get?_set, Dict.get?_set, Dict.get?_empty] at h
  split at h
  · cases h
    exact Or.inr rfl
  · split at h
    · cases h
      exact Or.inl rfl
    · cases h

theorem neighbours_unrounded : Unrounded neighbours 300 where
  floored rule times h := by
    rcases neighbours_get h with rfl | rfl
    · decide +kernel
    · decide +kernel
  alike a b ta tb ha hb := by
    rcases neighbours_get ha with rfl | rfl
    · rcases neighbours_get hb with rfl | rfl
      · decide +kernel
      · decide +kernel
    · rcases neighbours_get hb with rfl | rfl
      · decide +kernel
      · decide +kernel

end SystemsManager.Forecast
