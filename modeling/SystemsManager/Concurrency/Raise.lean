import SystemsManager.Concurrency.RelyGuarantee

/-!
# Programs that may raise

A program of type `Raising Op Res α` ends with a result, or with nothing when an exception has gone
through it. `Raising` is a monad in which an exception ends everything after it. `Preserves` says
that a program keeps an assertion under interference, whatever it returns and wherever it raises;
its rules follow the code.
-/

namespace SystemsManager.Concurrency

variable {Tid Op : Type} {Res Ans : Op → Type} {Call σ : Type} {α β τ : Type}

/-- A program that an exception may end. -/
def Raising (Op : Type) (Res : Op → Type) (α : Type) : Type := Prog Op Res (Option α)

namespace Raising

/-- Run one program, then another on its result, unless the first has raised. -/
def bind (p : Raising Op Res α) (f : α → Raising Op Res β) : Raising Op Res β :=
  Prog.bind p fun
    | none => .ret none
    | some a => f a

instance : Monad (Raising Op Res) where
  pure a := Prog.ret (some a)
  bind := bind

/-- One operation that raises nothing. -/
def ask (op : Op) : Raising Op Res (Res op) := Prog.call op fun r => .ret (some r)

/-- An exception. -/
def raised : Raising Op Res α := Prog.ret none

/-- A loop that carries a value. -/
def fold (f : τ → β → Raising Op Res τ) : τ → List β → Raising Op Res τ
  | acc, [] => Prog.ret (some acc)
  | acc, b :: rest => (f acc b).bind fun acc => fold f acc rest

/-- A program at the top of a thread: an exception ends the thread. -/
def toThread (p : Raising Op Res α) : Prog Op Res Unit := Prog.bind p fun _ => .ret ()

@[simp] theorem ask_bind (op : Op) (f : Res op → Raising Op Res β) :
    (ask op : Raising Op Res (Res op)).bind f = Prog.call op f := rfl

@[simp] theorem pure_eq (a : α) : (pure a : Raising Op Res α) = Prog.ret (some a) := rfl

@[simp] theorem bind_eq (p : Raising Op Res α) (f : α → Raising Op Res β) :
    p >>= f = p.bind f := rfl

/-- Running programs one after another is associative. -/
theorem bind_assoc {γ : Type} (p : Raising Op Res α) (f : α → Raising Op Res β)
    (g : β → Raising Op Res γ) : (p.bind f).bind g = p.bind fun a => (f a).bind g := by
  refine (Prog.bind_assoc p _ _).trans ?_
  refine congrArg (Prog.bind p) (funext fun r => ?_)
  cases r with
  | none => rfl
  | some a => rfl

/-- A sequence performs what its parts perform. -/
theorem all_bind {φ : Op → Prop} {p : Raising Op Res α} {f : α → Raising Op Res β}
    (hp : Prog.All φ p) (hf : ∀ a, Prog.All φ (f a)) : Prog.All φ (p.bind f) := by
  refine Prog.All.bind hp ?_
  intro r
  cases r with
  | none => trivial
  | some a => exact hf a

/-- A loop performs what its body performs. -/
theorem all_fold {φ : Op → Prop} {l : List β} {f : τ → β → Raising Op Res τ} {init : τ}
    (h : ∀ acc, ∀ b ∈ l, Prog.All φ (f acc b)) : Prog.All φ (fold f init l) := by
  induction l generalizing init with
  | nil => trivial
  | cons b rest ih =>
      refine all_bind (h init b (List.mem_cons_self ..)) fun acc => ?_
      exact ih fun acc c hc => h acc c (List.mem_cons_of_mem _ hc)

end Raising

section Rules

variable {M : Machine Tid Op Res Ans Call σ} {allow : Condition Tid Op σ} {C : Contract Tid σ}
variable {t : Tid} {J : σ → Prop} {s : σ}

variable {p : Raising Op Res α} {f : α → Raising Op Res β}

theorem safe_try {Q : Option β → σ → Prop} (hnone : C.Stable t (Q none))
    (h : Safe M allow C t p (fun r s => match r with
      | none => Q none s
      | some a => Safe M allow C t (f a) Q s) s) : Safe M allow C t (p.bind f) Q s := by
  refine safe_bind (h.mono ?_)
  intro r s hr
  cases r with
  | none => exact safe_ret hnone hr fun _ h => h
  | some a => exact hr

/-- What holds at the end of a program: one thing if it has raised, another if it has a result. -/
def Ended (N : σ → Prop) (R : α → σ → Prop) : Option α → σ → Prop
  | none => N
  | some a => R a

theorem Safe.weaken {N N' : σ → Prop} {R : α → σ → Prop} (h : Safe M allow C t p (Ended N R) s)
    (hN : ∀ s, N s → N' s) : Safe M allow C t p (Ended N' R) s := by
  refine h.mono ?_
  intro r s hr
  cases r with
  | none => exact hN s hr
  | some a => exact hr

theorem safe_then {N : σ → Prop} {R : α → σ → Prop} {Q : β → σ → Prop} (hN : C.Stable t N)
    (hp : Safe M allow C t p (Ended N R) s)
    (hf : ∀ a s, R a s → Safe M allow C t (f a) (Ended N Q) s) :
    Safe M allow C t (p.bind f) (Ended N Q) s := by
  refine safe_try hN (hp.mono ?_)
  intro r s hr
  cases r with
  | none => exact hr
  | some a => exact hf a s hr

/-- A loop, under an invariant of the elements still to come. -/
theorem safe_fold {l : List β} {f : τ → β → Raising Op Res τ} {init : τ} {N : σ → Prop}
    {J : List β → σ → Prop} (hN : C.Stable t N) (hnil : C.Stable t (J [])) (hJ : J l s)
    (hbody : ∀ acc b rest s, J (b :: rest) s →
      Safe M allow C t (f acc b) (Ended N fun _ => J rest) s) :
    Safe M allow C t (Raising.fold f init l) (Ended N fun _ => J []) s := by
  induction l generalizing init s with
  | nil => exact safe_ret hnil hJ fun _ h => h
  | cons b rest ih => exact safe_then hN (hbody init b rest s hJ) fun _ _ h => ih h

variable (M allow C t)

/-- The program keeps the contract and the assertion, whatever the others do. -/
def Preserves (J : σ → Prop) (p : Prog Op Res α) : Prop :=
  ∀ s, J s → Safe M allow C t p (fun _ => J) s

variable {M allow C t}

theorem preserves_ret (hJ : C.Stable t J) (a : α) : Preserves M allow C t J (.ret a) :=
  fun _ hs => safe_ret hJ hs fun _ h => h

/-- An operation that keeps the contract and the assertion. -/
theorem preserves_call {op : Op} {k : Res op → Prog Op Res α} (hJ : C.Stable t J)
    (hop : ∀ s a r s', C.inv s → J s → M.exec t op a s = some (r, s') → allow t op s s' →
      C.inv s' ∧ C.guar t s s' ∧ J s') (hk : ∀ r, Preserves M allow C t J (k r)) :
    Preserves M allow C t J (.call op k) := by
  intro s hs
  refine safe_call hJ hs ?_
  intro s a r s' hinv hs hexec hallow
  obtain ⟨hinv', hguar, hs'⟩ := hop s a r s' hinv hs hexec hallow
  exact ⟨hinv', hguar, hk r s' hs'⟩

/-- One program after another. -/
theorem Preserves.bind {p : Prog Op Res α} {f : α → Prog Op Res β} (hp : Preserves M allow C t J p)
    (hf : ∀ a, Preserves M allow C t J (f a)) : Preserves M allow C t J (p.bind f) := by
  intro s hs
  refine safe_bind ((hp s hs).mono ?_)
  intro a s hs
  exact hf a s hs

theorem Preserves.try (hJ : C.Stable t J) (hp : Preserves M allow C t J p)
    (hf : ∀ a, Preserves M allow C t J (f a)) : Preserves M allow C t J (p.bind f) := by
  refine Preserves.bind hp ?_
  intro r
  cases r with
  | none => exact preserves_ret hJ none
  | some a => exact hf a

/-- A loop. -/
theorem preserves_fold {l : List β} {f : τ → β → Raising Op Res τ} {init : τ} (hJ : C.Stable t J)
    (h : ∀ acc, ∀ b ∈ l, Preserves M allow C t J (f acc b)) :
    Preserves M allow C t J (Raising.fold f init l) := by
  induction l generalizing init with
  | nil => exact preserves_ret hJ _
  | cons b rest ih =>
      refine Preserves.try hJ (h init b (List.mem_cons_self ..)) fun acc => ?_
      exact ih fun acc c hc => h acc c (List.mem_cons_of_mem _ hc)

theorem Preserves.thread (hJ : C.Stable t J) (hp : Preserves M allow C t J p) :
    Preserves M allow C t J p.toThread :=
  hp.bind fun _ => preserves_ret hJ ()

end Rules

end SystemsManager.Concurrency
