import SystemsManager.Concurrency.System

/-!
# Rely and guarantee

A contract is an invariant of the shared state, what each thread guarantees about its own
steps, and what is known of a thread while it is idle. `Safe` is the weakest precondition of a
program under interference: whatever the other threads do within their guarantees, each
operation keeps the invariant and the guarantee, and at the end the postcondition holds. The
rules `safe_call`, `safe_bind`, `safe_for_each` and `safe_of_all` follow the code of a
program. `Contract.sound` is the theorem to read: when every program a thread may start is
safe, the contract holds in every reachable configuration.
-/

namespace SystemsManager.Concurrency

open Relation

/-- What the threads of a system promise each other. -/
structure Contract (Tid σ : Type) where
  /-- Holds of the shared state between any two operations. -/
  inv : σ → Prop
  /-- What an operation of the thread may do to the shared state. -/
  guar : Tid → σ → σ → Prop
  /-- Holds while the thread is idle. -/
  idle : Tid → σ → Prop

variable {Tid Op : Type} {Res Ans : Op → Type} {Call σ : Type} {α β : Type}

namespace Contract

variable (C : Contract Tid σ)

/-- What the other threads may do between two operations of this thread. -/
def Rely (t : Tid) : σ → σ → Prop :=
  ReflTransGen fun s s' => C.inv s ∧ C.inv s' ∧ ∃ u, u ≠ t ∧ C.guar u s s'

/-- The other threads keep the assertion. -/
def Stable (t : Tid) (P : σ → Prop) : Prop :=
  ∀ u, u ≠ t → ∀ s s', C.inv s → C.inv s' → C.guar u s s' → P s → P s'

/-- Every thread keeps the assertion. -/
def Kept (P : σ → Prop) : Prop :=
  ∀ u s s', C.inv s → C.inv s' → C.guar u s s' → P s → P s'

variable {C}

variable {P : σ → Prop}

theorem Kept.stable (hP : C.Kept P) (t : Tid) : C.Stable t P :=
  fun u _ => hP u

theorem Stable.rely {t : Tid} {s s' : σ} (hP : C.Stable t P) (h : C.Rely t s s') (hs : P s) :
    P s' := by
  induction h with
  | refl => exact hs
  | tail _ hstep ih =>
      obtain ⟨hinv, hinv', u, hu, hguar⟩ := hstep
      exact hP u hu _ _ hinv hinv' hguar ih

theorem Stable.anyone {t u : Tid} {s s' : σ} (hP : C.Stable t P) (hu : u ≠ t) (hinv : C.inv s)
    (hinv' : C.inv s') (hguar : ∀ v, C.guar v s s') (hs : P s) : P s' :=
  hP u hu s s' hinv hinv' (hguar u) hs

theorem stable_const {t : Tid} (p : Prop) : C.Stable t fun _ => p :=
  fun _ _ _ _ _ _ _ hp => hp

/-- Stable assertions are closed under conjunction. -/
theorem Stable.and {t : Tid} {P Q : σ → Prop} (hP : C.Stable t P) (hQ : C.Stable t Q) :
    C.Stable t fun s => P s ∧ Q s :=
  fun u hu s s' hinv hinv' hguar h =>
    ⟨hP u hu s s' hinv hinv' hguar h.1, hQ u hu s s' hinv hinv' hguar h.2⟩

end Contract

section Safe

variable (M : Machine Tid Op Res Ans Call σ) (allow : Condition Tid Op σ) (C : Contract Tid σ)

/-- From this state the program keeps the contract and ends in `Q`, whatever the others do. -/
def Safe (t : Tid) : Prog Op Res α → (α → σ → Prop) → σ → Prop
  | .ret a, Q, s => ∀ s', C.Rely t s s' → Q a s'
  | .call op k, Q, s => ∀ s', C.Rely t s s' → C.inv s' → ∀ a r s'',
      M.exec t op a s' = some (r, s'') → allow t op s' s'' →
      C.inv s'' ∧ C.guar t s' s'' ∧ Safe t (k r) Q s''

variable {M allow C} {t : Tid} {Q Q' : α → σ → Prop} {s s' : σ}

variable {p : Prog Op Res α}

theorem Safe.rely (h : Safe M allow C t p Q s) (hs : C.Rely t s s') : Safe M allow C t p Q s' := by
  cases p with
  | ret a => exact fun s'' h'' => h s'' (hs.trans h'')
  | call op k => exact fun s'' h'' => h s'' (hs.trans h'')

theorem Safe.mono (h : Safe M allow C t p Q s) (hQ : ∀ a s, Q a s → Q' a s) :
    Safe M allow C t p Q' s := by
  induction p generalizing s with
  | ret a => exact fun s' hs' => hQ a s' (h s' hs')
  | call op k ih =>
      intro s' hs' hinv a r s'' hexec hallow
      obtain ⟨hinv', hguar, hrest⟩ := h s' hs' hinv a r s'' hexec hallow
      exact ⟨hinv', hguar, ih r hrest⟩

variable {P : σ → Prop}

theorem Safe.frame (h : Safe M allow C t p Q s) (hkept : C.Kept P) (hP : P s) :
    Safe M allow C t p (fun a s => Q a s ∧ P s) s := by
  induction p generalizing s with
  | ret a => exact fun s' hs' => ⟨h s' hs', (hkept.stable t).rely hs' hP⟩
  | call op k ih =>
      intro s' hs' hinv' a r s'' hexec hallow
      obtain ⟨hinv'', hguar, hrest⟩ := h s' hs' hinv' a r s'' hexec hallow
      refine ⟨hinv'', hguar, ih r hrest ?_⟩
      exact hkept t s' s'' hinv' hinv'' hguar ((hkept.stable t).rely hs' hP)

theorem safe_ret {a : α} (hstable : C.Stable t P) (hP : P s) (hQ : ∀ s, P s → Q a s) :
    Safe M allow C t (.ret a) Q s :=
  fun s' hs' => hQ s' (hstable.rely hs' hP)

theorem safe_call {op : Op} {k : Res op → Prog Op Res α} (hstable : C.Stable t P) (hP : P s)
    (h : ∀ s a r s', C.inv s → P s → M.exec t op a s = some (r, s') → allow t op s s' →
      C.inv s' ∧ C.guar t s s' ∧ Safe M allow C t (k r) Q s') : Safe M allow C t (.call op k) Q s :=
  fun s' hs' hinv a r s'' hexec hallow =>
    h s' a r s'' hinv (hstable.rely hs' hP) hexec hallow

theorem safe_bind {f : α → Prog Op Res β} {Q : β → σ → Prop}
    (h : Safe M allow C t p (fun a s => Safe M allow C t (f a) Q s) s) :
    Safe M allow C t (p.bind f) Q s := by
  induction p generalizing s with
  | ret a => exact h s .refl
  | call op k ih =>
      intro s' hs' hinv a r s'' hexec hallow
      obtain ⟨hinv', hguar, hrest⟩ := h s' hs' hinv a r s'' hexec hallow
      exact ⟨hinv', hguar, ih r hrest⟩

theorem safe_of_all {φ : Op → Prop} (hp : p.All φ) (hstable : C.Stable t P) (hP : P s)
    (h : ∀ op, φ op → ∀ s a r s', C.inv s → P s → M.exec t op a s = some (r, s') →
      allow t op s s' → C.inv s' ∧ C.guar t s s' ∧ P s') (hQ : ∀ a s, P s → Q a s) :
    Safe M allow C t p Q s := by
  induction p generalizing s with
  | ret a => exact safe_ret hstable hP (hQ a)
  | call op k ih =>
      refine safe_call hstable hP ?_
      intro s a r s' hinv hPs hexec hallow
      obtain ⟨hinv', hguar, hP'⟩ := h op hp.1 s a r s' hinv hPs hexec hallow
      exact ⟨hinv', hguar, ih r (hp.2 r) hP'⟩

/-- A loop, under an invariant of the elements still to come. -/
theorem safe_for_each {l : List β} {body : β → Prog Op Res Unit} {J : List β → σ → Prop}
    {Q : Unit → σ → Prop} (hnil : C.Stable t (J [])) (hJ : J l s)
    (hbody : ∀ b rest s, J (b :: rest) s → Safe M allow C t (body b) (fun _ s => J rest s) s)
    (hQ : ∀ s, J [] s → Q () s) : Safe M allow C t (Prog.forEach l body) Q s := by
  induction l generalizing s with
  | nil => exact safe_ret hnil hJ hQ
  | cons b rest ih =>
      refine safe_bind ((hbody b rest s hJ).mono ?_)
      intro _ s' hs'
      exact ih hs'

end Safe

section Sound

variable {M : Machine Tid Op Res Ans Call σ} {allow : Condition Tid Op σ} {C : Contract Tid σ}
variable [DecidableEq Tid]

/-- The contract holds in a configuration, and each thread is safe to go on. -/
structure Contract.Holds (M : Machine Tid Op Res Ans Call σ) (allow : Condition Tid Op σ)
    (C : Contract Tid σ) (c : Config Tid Op Res σ) : Prop where
  inv : C.inv c.state
  idle : ∀ t, c.threads t = none → C.idle t c.state
  safe : ∀ t p, c.threads t = some p → Safe M allow C t p (fun _ => C.idle t) c.state

/-- A step that leaves the shared state alone. -/
theorem Contract.Holds.go {c : Config Tid Op Res σ} (h : C.Holds M allow c) {t : Tid}
    {p : Option (Prog Op Res Unit)} (hidle : p = none → C.idle t c.state)
    (hsafe : ∀ q, p = some q → Safe M allow C t q (fun _ => C.idle t) c.state) :
    C.Holds M allow (c.go t c.state p) := by
  refine ⟨h.inv, ?_, ?_⟩
  · intro u hu
    by_cases hut : u = t
    · subst hut
      exact hidle (by simpa [Config.go] using hu)
    · exact h.idle u (by simpa [Config.go, Function.update_of_ne hut] using hu)
  · intro u q hu
    by_cases hut : u = t
    · subst hut
      exact hsafe q (by simpa [Config.go] using hu)
    · exact h.safe u q (by simpa [Config.go, Function.update_of_ne hut] using hu)

variable {c c' : Config Tid Op Res σ}

theorem Contract.Holds.step (h : C.Holds M allow c) (hidle : ∀ t, C.Stable t (C.idle t))
    (hstart : ∀ t call s p, C.inv s → C.idle t s → M.start t call s = some p →
      Safe M allow C t p (fun _ => C.idle t) s) (hstep : Step M allow c c') :
    C.Holds M allow c' := by
  cases hstep with
  | start t call p hnone hp =>
      refine h.go (by rintro ⟨⟩) ?_
      intro q hq
      cases hq
      exact hstart t call c.state p h.inv (h.idle t hnone) hp
  | perform t op k a r s hcode hexec hallow =>
      obtain ⟨hinv, hguar, hrest⟩ :=
        h.safe t _ hcode c.state .refl h.inv a r s hexec hallow
      refine ⟨hinv, ?_, ?_⟩
      · intro u hu
        by_cases hut : u = t
        · subst hut
          simp [Config.go] at hu
        · simp only [Config.go, Function.update_of_ne hut] at hu
          exact hidle u t (Ne.symm hut) _ _ h.inv hinv hguar (h.idle u hu)
      · intro u q hu
        by_cases hut : u = t
        · subst hut
          simp only [Config.go, Function.update_self, Option.some.injEq] at hu
          subst hu
          exact hrest
        · simp only [Config.go, Function.update_of_ne hut] at hu
          exact (h.safe u q hu).rely (.single ⟨h.inv, hinv, t, Ne.symm hut, hguar⟩)
  | finish t hcode =>
      refine h.go ?_ (by rintro q ⟨⟩)
      intro _
      exact h.safe t _ hcode c.state .refl

theorem Contract.Holds.guar_step (h : C.Holds M allow c) (hstep : Step M allow c c') :
    c'.state = c.state ∨ C.inv c'.state ∧ ∃ t, C.guar t c.state c'.state := by
  cases hstep with
  | start t call p hnone hp => exact .inl rfl
  | perform t op k a r s hcode hexec hallow =>
      obtain ⟨hinv, hguar, -⟩ := h.safe t _ hcode c.state .refl h.inv a r s hexec hallow
      exact .inr ⟨hinv, t, hguar⟩
  | finish t hcode => exact .inl rfl

theorem Contract.sound {s : σ} (hinv : C.inv s) (hinit : ∀ t, C.idle t s)
    (hidle : ∀ t, C.Stable t (C.idle t))
    (hstart : ∀ t call s p, C.inv s → C.idle t s → M.start t call s = some p →
      Safe M allow C t p (fun _ => C.idle t) s) (h : Reachable M allow s c) :
    C.Holds M allow c := by
  induction h with
  | refl => exact ⟨hinv, fun t _ => hinit t, fun t p hp => nomatch hp⟩
  | tail _ hstep ih => exact ih.step hidle hstart hstep

theorem Contract.strengthen {s : σ} (hinv : C.inv s) (hinit : ∀ t, C.idle t s)
    (hidle : ∀ t, C.Stable t (C.idle t))
    (hstart : ∀ t call s p, C.inv s → C.idle t s → M.start t call s = some p →
      Safe M allow C t p (fun _ => C.idle t) s) (h : Reachable M allow s c) :
    Reachable M (fun t op s s' => allow t op s s' ∧ C.inv s ∧ C.inv s' ∧ C.guar t s s') s c := by
  induction h with
  | refl => exact .refl
  | tail hreach hstep ih =>
      have hholds := C.sound hinv hinit hidle hstart hreach
      refine ih.tail ?_
      cases hstep with
      | start t call p hnone hp => exact .start _ t call p hnone hp
      | perform t op k a r s hcode hexec hallow =>
          obtain ⟨hinv', hguar, -⟩ :=
            hholds.safe t _ hcode _ .refl hholds.inv a r s hexec hallow
          exact .perform _ t op k a r s hcode hexec ⟨hallow, hholds.inv, hinv', hguar⟩
      | finish t hcode => exact .finish _ t hcode

theorem Contract.Holds.run {P : σ → Prop} (h : C.Holds M allow c)
    (hidle : ∀ t, C.Stable t (C.idle t))
    (hstart : ∀ t call s p, C.inv s → C.idle t s → M.start t call s = some p →
      Safe M allow C t p (fun _ => C.idle t) s) (hP : C.Kept P)
    (hrun : ReflTransGen (Step M allow) c c') (hc : P c.state) : P c'.state := by
  suffices C.Holds M allow c' ∧ P c'.state from this.2
  induction hrun with
  | refl => exact ⟨h, hc⟩
  | tail _ hstep ih =>
      obtain ⟨hholds, hPs⟩ := ih
      refine ⟨hholds.step hidle hstart hstep, ?_⟩
      rcases hholds.guar_step hstep with hsame | ⟨hinv, t, hguar⟩
      · rw [hsame]
        exact hPs
      · exact hP t _ _ hholds.inv hinv hguar hPs

end Sound

end SystemsManager.Concurrency
