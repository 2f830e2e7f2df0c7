import Mathlib.Logic.Function.Basic

/-!
# Programs of atomic operations

A thread's code is a tree: it returns, or it performs an atomic operation and continues with
the answer. `Prog` is a monad, so that code is written with `do`. Between two operations other
threads may run; what an operation does to the shared state is fixed elsewhere
(`Concurrency/System.lean`).

`Prog.All φ` says that a program performs only operations that satisfy `φ`, whatever the
answers are.
-/

namespace SystemsManager.Concurrency

/-- A program over the operations `Op`, whose answers have the types `Res`. -/
inductive Prog (Op : Type) (Res : Op → Type) (α : Type) : Type where
  | ret (a : α)
  | call (op : Op) (k : Res op → Prog Op Res α)

namespace Prog

variable {Op : Type} {Res : Op → Type} {α β : Type}

/-- Run one program, then another on its result. -/
def bind : Prog Op Res α → (α → Prog Op Res β) → Prog Op Res β
  | .ret a, f => f a
  | .call op k, f => .call op fun r => (k r).bind f

instance : Monad (Prog Op Res) where
  pure := .ret
  bind := bind

/-- One operation. -/
def perform (op : Op) : Prog Op Res (Res op) := .call op .ret

/-- Run the body on each element of a list in turn. -/
def forEach : List α → (α → Prog Op Res Unit) → Prog Op Res Unit
  | [], _ => .ret ()
  | a :: rest, body => (body a).bind fun _ => forEach rest body

/-- Every operation of the program satisfies `φ`. -/
def All (φ : Op → Prop) : Prog Op Res α → Prop
  | .ret _ => True
  | .call op k => φ op ∧ ∀ r, (k r).All φ

@[simp] theorem pure_eq (a : α) : (pure a : Prog Op Res α) = .ret a := rfl

@[simp] theorem bind_eq (p : Prog Op Res α) (f : α → Prog Op Res β) : p >>= f = p.bind f := rfl

@[simp] theorem ret_bind (a : α) (f : α → Prog Op Res β) : (Prog.ret a).bind f = f a := rfl

@[simp] theorem call_bind (op : Op) (k : Res op → Prog Op Res α) (f : α → Prog Op Res β) :
    (Prog.call op k).bind f = .call op fun r => (k r).bind f := rfl

@[simp] theorem perform_bind (op : Op) (f : Res op → Prog Op Res β) :
    (perform op).bind f = .call op f := rfl

/-- Running programs one after another is associative. -/
theorem bind_assoc {γ : Type} (p : Prog Op Res α) (f : α → Prog Op Res β)
    (g : β → Prog Op Res γ) : (p.bind f).bind g = p.bind fun a => (f a).bind g := by
  induction p with
  | ret a => rfl
  | call op k ih =>
      simp only [call_bind]
      congr 1
      funext r
      exact ih r

variable {φ : Op → Prop}

@[simp] theorem all_ret (a : α) : (Prog.ret a : Prog Op Res α).All φ := trivial

@[simp] theorem all_call (op : Op) (k : Res op → Prog Op Res α) :
    (Prog.call op k).All φ ↔ φ op ∧ ∀ r, (k r).All φ := Iff.rfl

@[simp] theorem all_perform (op : Op) : (perform op : Prog Op Res (Res op)).All φ ↔ φ op :=
  ⟨fun h => h.1, fun h => ⟨h, fun _ => trivial⟩⟩

/-- A sequence performs what its parts perform. -/
theorem All.bind {p : Prog Op Res α} {f : α → Prog Op Res β} (hp : p.All φ)
    (hf : ∀ a, (f a).All φ) : (p.bind f).All φ := by
  induction p with
  | ret a => exact hf a
  | call op k ih => exact ⟨hp.1, fun r => ih r (hp.2 r)⟩

/-- A loop performs what its body performs. -/
theorem All.forEach {l : List α} {body : α → Prog Op Res Unit} (h : ∀ a ∈ l, (body a).All φ) :
    (Prog.forEach l body).All φ := by
  induction l with
  | nil => trivial
  | cons a rest ih =>
      refine All.bind (h a (List.mem_cons_self ..)) fun _ => ?_
      exact ih fun b hb => h b (List.mem_cons_of_mem _ hb)

/-- Operations that satisfy more satisfy less. -/
theorem All.mono {ψ : Op → Prop} {p : Prog Op Res α} (hp : p.All φ) (h : ∀ op, φ op → ψ op) :
    p.All ψ := by
  induction p with
  | ret a => trivial
  | call op k ih => exact ⟨h op hp.1, fun r => ih r (hp.2 r)⟩

end Prog

end SystemsManager.Concurrency
