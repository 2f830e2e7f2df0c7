import SystemsManager.Python.Value

/-!
# Loops that may raise

A `for` loop over a list whose body may raise is `List.foldlM` in `Except`. The rules below
are the induction principles for it: an invariant that may speak about the part of the list
already done, and a relation between two loops over the same list.
-/

namespace Python

variable {ε α σ τ : Type}

/-- Two computations one after another, where neither raises. -/
theorem bind_total {β : Type} {x : Except ε α} {f : α → Except ε β} {a : α} (hx : x = .ok a)
    (hf : ∃ b, f a = .ok b) : ∃ b, x >>= f = .ok b := by
  rw [hx]
  exact hf

variable {f : σ → α → Except ε σ} {l : List α}

theorem foldlM_ok {s r : σ} (I : List α → σ → Prop) (h : l.foldlM f s = .ok r) (h0 : I [] s)
    (hstep : ∀ done a rest, l = done ++ a :: rest →
      ∀ s s', I done s → f s a = .ok s' → I (done ++ [a]) s') : I l r := by
  suffices ∀ (done rest : List α) (s : σ), l = done ++ rest → I done s →
      rest.foldlM f s = .ok r → I l r from this [] l s rfl h0 h
  intro done rest
  induction rest generalizing done with
  | nil =>
      intro s hl hI hr
      cases hr
      rw [hl, List.append_nil]
      exact hI
  | cons a rest ih =>
      intro s hl hI hr
      rw [List.foldlM_cons, bind_eq_ok] at hr
      obtain ⟨s', hs', hr⟩ := hr
      exact ih (done ++ [a]) s' (by simpa using hl) (hstep done a rest hl s s' hI hs') hr

theorem foldlM_ok_const {s r : σ} (I : σ → Prop) (h : l.foldlM f s = .ok r) (h0 : I s)
    (hstep : ∀ a ∈ l, ∀ s s', I s → f s a = .ok s' → I s') : I r :=
  foldlM_ok (fun _ => I) h h0 fun _ a _ hl s s' hI hs =>
    hstep a (by simp [hl]) s s' hI hs

theorem foldlM_total {s : σ} (I : List α → σ → Prop) (h0 : I [] s)
    (hstep : ∀ done a rest, l = done ++ a :: rest →
      ∀ s, I done s → ∃ s', f s a = .ok s' ∧ I (done ++ [a]) s') :
    ∃ r, l.foldlM f s = .ok r ∧ I l r := by
  suffices ∀ (done rest : List α) (s : σ), l = done ++ rest → I done s →
      ∃ r, rest.foldlM f s = .ok r ∧ I l r from this [] l s rfl h0
  intro done rest
  induction rest generalizing done with
  | nil =>
      intro s hl hI
      refine ⟨s, rfl, ?_⟩
      rw [hl, List.append_nil]
      exact hI
  | cons a rest ih =>
      intro s hl hI
      obtain ⟨s', hs', hI'⟩ := hstep done a rest hl s hI
      obtain ⟨r, hr, hI''⟩ := ih (done ++ [a]) s' (by simpa using hl) hI'
      refine ⟨r, ?_, hI''⟩
      rw [List.foldlM_cons, hs']
      exact hr

theorem foldlM_total_const {s : σ} (I : σ → Prop) (h0 : I s)
    (hstep : ∀ a ∈ l, ∀ s, I s → ∃ s', f s a = .ok s' ∧ I s') : ∃ r, l.foldlM f s = .ok r ∧ I r :=
  foldlM_total (fun _ => I) h0 fun _ a _ hl s hI => hstep a (by simp [hl]) s hI

theorem mapM_total {β : Type} {f : α → Except ε β} (h : ∀ a ∈ l, ∃ b, f a = .ok b) :
    ∃ bs, l.mapM f = .ok bs := by
  induction l with
  | nil => exact ⟨[], rfl⟩
  | cons a rest ih =>
      obtain ⟨b, hb⟩ := h a (List.mem_cons_self ..)
      obtain ⟨bs, hbs⟩ := ih fun x hx => h x (List.mem_cons_of_mem _ hx)
      refine ⟨b :: bs, ?_⟩
      rw [List.mapM_cons, hb]
      show (rest.mapM f >>= fun bs => pure (b :: bs)) = .ok (b :: bs)
      rw [hbs]
      rfl

theorem foldlM_ok_step {s r : σ} (I : σ → Prop) (h : l.foldlM f s = .ok r) (h0 : I s)
    (hstep : ∀ a ∈ l, ∀ s s', I s → f s a = .ok s' → I s') :
    ∀ a ∈ l, ∃ s s', I s ∧ f s a = .ok s' := by
  have hloop := foldlM_ok (fun done s => I s ∧ ∀ a ∈ done, ∃ s s', I s ∧ f s a = .ok s') h
    ⟨h0, fun a ha => nomatch ha⟩ (by
      rintro done a rest rfl s s' ⟨hI, hdone⟩ hs
      refine ⟨hstep a (by simp) s s' hI hs, fun b hb => ?_⟩
      rcases List.mem_append.mp hb with hb | hb
      · exact hdone b hb
      · rw [List.mem_singleton.mp hb]
        exact ⟨s, s', hI, hs⟩)
  exact hloop.2

theorem foldlM_ok_rel {g : τ → α → Except ε τ} {s r : σ} {t u : τ} (V : List α → σ → τ → Prop)
    (hf : l.foldlM f s = .ok r) (hg : l.foldlM g t = .ok u) (h0 : V [] s t)
    (hstep : ∀ done a rest, l = done ++ a :: rest → ∀ s s' t t', V done s t →
      f s a = .ok s' → g t a = .ok t' → V (done ++ [a]) s' t') : V l r u := by
  suffices ∀ (done rest : List α) (s : σ) (t : τ), l = done ++ rest → V done s t →
      rest.foldlM f s = .ok r → rest.foldlM g t = .ok u → V l r u from
    this [] l s t rfl h0 hf hg
  intro done rest
  induction rest generalizing done with
  | nil =>
      intro s t hl hV hr hu
      cases hr
      cases hu
      rw [hl, List.append_nil]
      exact hV
  | cons a rest ih =>
      intro s t hl hV hr hu
      rw [List.foldlM_cons, bind_eq_ok] at hr hu
      obtain ⟨s', hs', hr⟩ := hr
      obtain ⟨t', ht', hu⟩ := hu
      exact ih (done ++ [a]) s' t' (by simpa using hl)
        (hstep done a rest hl s s' t t' hV hs' ht') hr hu

end Python
