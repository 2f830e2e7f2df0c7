import SystemsManager.Concurrency.Prog
import Mathlib.Data.List.Basic

/-!
# Procedures of one thread

A procedure is code with local variables, exceptions and calls: from the variables it gives a
program of operations, whose result is a value or an exception beside the new variables. The calls
that a run has made, with their answers, are its log. `Triple P p Q E` says that from variables and
a log with `P`, every run of `p` that returns ends with `Q` and every run that raises ends with `E`.
There is one rule for each way to put procedures together; read `Triple.seq`, `Triple.catch` and
`Triple.ensuring`.
-/

namespace SystemsManager.Concurrency

variable {Op : Type} {Res : Op → Type} {σ ε α β : Type}

/-- Operations with their answers. -/
abbrev Log (Op : Type) (Res : Op → Type) := List ((op : Op) × Res op)

/-- The program performs the operations of the log and gives the result. -/
inductive Prog.Runs : Prog Op Res α → Log Op Res → α → Prop where
  | ret (a : α) : Runs (.ret a) [] a
  | call (op : Op) (k : Res op → Prog Op Res α) (r : Res op) (log : Log Op Res) (a : α)
      (h : Runs (k r) log a) : Runs (.call op k) (⟨op, r⟩ :: log) a

/-- A run of one program and then another. -/
theorem runs_bind {p : Prog Op Res α} {f : α → Prog Op Res β} {log : Log Op Res} {b : β}
    (h : (p.bind f).Runs log b) :
    ∃ a first rest, p.Runs first a ∧ (f a).Runs rest b ∧ log = first ++ rest := by
  induction p generalizing log with
  | ret a => exact ⟨a, [], log, .ret a, h, rfl⟩
  | call op k ih =>
      cases h with
      | call op k r log b h =>
          obtain ⟨a, first, rest, hfirst, hrest, rfl⟩ := ih r h
          exact ⟨a, ⟨op, r⟩ :: first, rest, .call op _ r first a hfirst, hrest, rfl⟩

/-- The run in which every operation is answered by `reply`. -/
def Prog.follow (reply : (op : Op) → Res op) : Prog Op Res α → Log Op Res × α
  | .ret a => ([], a)
  | .call op k => (⟨op, reply op⟩ :: ((k (reply op)).follow reply).1,
    ((k (reply op)).follow reply).2)

/-- It is one of the runs. -/
theorem runs_follow (reply : (op : Op) → Res op) (p : Prog Op Res α) :
    p.Runs (p.follow reply).1 (p.follow reply).2 := by
  induction p with
  | ret a => exact .ret a
  | call op k ih => exact .call op k (reply op) _ _ (ih (reply op))

/-- Code with the local variables `σ` and the exceptions `ε`. -/
def Proc (Op : Type) (Res : Op → Type) (σ ε α : Type) : Type := σ → Prog Op Res (Except ε α × σ)

namespace Proc

/-- One procedure, then another on its value. -/
def bind (p : Proc Op Res σ ε α) (f : α → Proc Op Res σ ε β) : Proc Op Res σ ε β := fun s =>
  Prog.bind (p s) fun
    | (.ok a, s) => f a s
    | (.error e, s) => .ret (.error e, s)

instance : Monad (Proc Op Res σ ε) where
  pure a := fun s => .ret (.ok a, s)
  bind := bind

/-- One operation. -/
def ask (op : Op) : Proc Op Res σ ε (Res op) := fun s => .call op fun r => .ret (.ok r, s)

/-- `raise` -/
def raise (e : ε) : Proc Op Res σ ε α := fun s => .ret (.error e, s)

/-- What a computation without calls gives. -/
def lift (x : Except ε α) : Proc Op Res σ ε α := fun s => .ret (x, s)

/-- The variables. -/
def get : Proc Op Res σ ε σ := fun s => .ret (.ok s, s)

/-- An assignment. -/
def modify (f : σ → σ) : Proc Op Res σ ε Unit := fun s => .ret (.ok (), f s)

/-- `try` with `except` -/
def catch_ (p : Proc Op Res σ ε α) (h : ε → Proc Op Res σ ε α) : Proc Op Res σ ε α := fun s =>
  Prog.bind (p s) fun
    | (.ok a, s) => .ret (.ok a, s)
    | (.error e, s) => h e s

/-- `try` with `finally` -/
def ensuring (p : Proc Op Res σ ε α) (q : Proc Op Res σ ε Unit) : Proc Op Res σ ε α := fun s =>
  Prog.bind (p s) fun out => Prog.bind (q out.2) fun
    | (.ok (), s) => .ret (out.1, s)
    | (.error e, s) => .ret (.error e, s)

/-- `if` without `else` -/
def onlyIf (b : Bool) (p : Proc Op Res σ ε Unit) : Proc Op Res σ ε Unit := if b then p else pure ()

/-- A loop over a list. -/
def forEach (body : β → Proc Op Res σ ε Unit) : List β → Proc Op Res σ ε Unit
  | [] => pure ()
  | b :: rest => bind (body b) fun _ => forEach body rest

/-- A loop over a list that a result of its body ends. -/
def firstSome (body : β → Proc Op Res σ ε (Option α)) : List β → Proc Op Res σ ε (Option α)
  | [] => pure none
  | b :: rest => bind (body b) fun
      | some a => pure (some a)
      | none => firstSome body rest

end Proc

/-- What holds of the variables and the log. -/
abbrev Assertion (Op : Type) (Res : Op → Type) (σ : Type) := σ → Log Op Res → Prop

/-- What holds at the end: one thing where a value is returned, another where it is raised. -/
def Ends (Q : α → Assertion Op Res σ) (E : ε → Assertion Op Res σ) :
    Except ε α × σ → Log Op Res → Prop
  | (.ok a, s), log => Q a s log
  | (.error e, s), log => E e s log

/-- Every run from `P` ends with `Q` where it returns and with `E` where it raises. -/
def Triple (P : Assertion Op Res σ) (p : Proc Op Res σ ε α) (Q : α → Assertion Op Res σ)
    (E : ε → Assertion Op Res σ) : Prop :=
  ∀ s past, P s past → ∀ log out, (p s).Runs log out → Ends Q E out (past ++ log)

section Rules

variable {P P' : Assertion Op Res σ} {Q Q' : α → Assertion Op Res σ} {E E' : ε → Assertion Op Res σ}
variable {R : β → Assertion Op Res σ} {p : Proc Op Res σ ε α}

@[simp] theorem ends_ok {a : α} {s : σ} {log : Log Op Res} :
    Ends Q E (.ok a, s) log ↔ Q a s log := Iff.rfl

@[simp] theorem ends_error {e : ε} {s : σ} {log : Log Op Res} :
    Ends Q E (.error e, s) log ↔ E e s log := Iff.rfl

/-- Less is asked of the start, or more of the end. -/
theorem Triple.conseq (h : Triple P p Q E) (hP : ∀ s l, P' s l → P s l)
    (hQ : ∀ a s l, Q a s l → Q' a s l) (hE : ∀ e s l, E e s l → E' e s l) : Triple P' p Q' E' := by
  intro s past hs log out hrun
  have hout := h s past (hP s past hs) log out hrun
  obtain ⟨result, s'⟩ := out
  cases result with
  | ok a => exact hQ a s' _ hout
  | error e => exact hE e s' _ hout

/-- A value. -/
theorem triple_pure {a : α} (h : ∀ s l, P s l → Q a s l) :
    Triple P (pure a : Proc Op Res σ ε α) Q E := by
  intro s past hs log out hrun
  cases hrun with
  | ret => simpa using h s past hs

/-- An exception. -/
theorem triple_raise {e : ε} (h : ∀ s l, P s l → E e s l) :
    Triple P (Proc.raise e : Proc Op Res σ ε α) Q E := by
  intro s past hs log out hrun
  cases hrun with
  | ret => simpa using h s past hs

/-- A computation without calls. -/
theorem triple_lift {x : Except ε α} (hQ : ∀ a s l, x = .ok a → P s l → Q a s l)
    (hE : ∀ e s l, x = .error e → P s l → E e s l) :
    Triple P (Proc.lift x : Proc Op Res σ ε α) Q E := by
  intro s past hs log out hrun
  cases hrun with
  | ret =>
      cases x with
      | ok a => simpa using hQ a s past rfl hs
      | error e => simpa using hE e s past rfl hs

/-- An operation is written into the log. -/
theorem triple_ask {op : Op} {Q : Res op → Assertion Op Res σ}
    (h : ∀ r s l, P s l → Q r s (l ++ [⟨op, r⟩])) : Triple P (Proc.ask op) Q E := by
  intro s past hs log out hrun
  cases hrun with
  | call op k r log out hrun =>
      cases hrun with
      | ret => exact h r s past hs

/-- Reading the variables. -/
theorem triple_get {Q : σ → Assertion Op Res σ} (h : ∀ s l, P s l → Q s s l) :
    Triple P (Proc.get : Proc Op Res σ ε σ) Q E := by
  intro s past hs log out hrun
  cases hrun with
  | ret => simpa using h s past hs

/-- An assignment. -/
theorem triple_modify {f : σ → σ} {Q : Unit → Assertion Op Res σ}
    (h : ∀ s l, P s l → Q () (f s) l) :
    Triple P (Proc.modify f : Proc Op Res σ ε Unit) Q E := by
  intro s past hs log out hrun
  cases hrun with
  | ret => simpa using h s past hs

/-- One procedure after another. -/
theorem Triple.seq {p : Proc Op Res σ ε β} {f : β → Proc Op Res σ ε α} (hp : Triple P p R E)
    (hf : ∀ b, Triple (R b) (f b) Q E) : Triple P (p >>= f) Q E := by
  intro s past hs log out hrun
  obtain ⟨middle, first, rest, hfirst, hrest, rfl⟩ := runs_bind hrun
  have hmiddle := hp s past hs first middle hfirst
  obtain ⟨result, s'⟩ := middle
  rw [← List.append_assoc]
  cases result with
  | ok b => exact hf b s' _ hmiddle rest out hrest
  | error e =>
      cases hrest with
      | ret => simpa using hmiddle

/-- An exception that is handled. -/
theorem Triple.catch {h : ε → Proc Op Res σ ε α} {F : ε → Assertion Op Res σ}
    (hp : Triple P p Q F) (hh : ∀ e, Triple (F e) (h e) Q E) : Triple P (p.catch_ h) Q E := by
  intro s past hs log out hrun
  obtain ⟨middle, first, rest, hfirst, hrest, rfl⟩ := runs_bind hrun
  have hmiddle := hp s past hs first middle hfirst
  obtain ⟨result, s'⟩ := middle
  rw [← List.append_assoc]
  cases result with
  | ok a =>
      cases hrest with
      | ret => simpa using hmiddle
  | error e => exact hh e s' _ hmiddle rest out hrest

/-- What is done in any case. -/
theorem Triple.ensuring {q : Proc Op Res σ ε Unit} {S : α → Assertion Op Res σ}
    {F : ε → Assertion Op Res σ} (hp : Triple P p S F)
    (hok : ∀ a, Triple (S a) q (fun _ => Q a) E) (herror : ∀ e, Triple (F e) q (fun _ => E e) E) :
    Triple P (p.ensuring q) Q E := by
  intro s past hs log out hrun
  obtain ⟨⟨result, s'⟩, first, rest, hfirst, hrest, rfl⟩ := runs_bind hrun
  obtain ⟨⟨ended, s''⟩, second, last, hsecond, hlast, rfl⟩ := runs_bind hrest
  have hmiddle := hp s past hs first _ hfirst
  rw [← List.append_assoc, ← List.append_assoc]
  cases result with
  | ok a =>
      have hfinal := hok a s' _ hmiddle second _ hsecond
      cases ended with
      | ok _ =>
          cases hlast with
          | ret => simpa using hfinal
      | error e =>
          cases hlast with
          | ret => simpa using hfinal
  | error e =>
      have hfinal := herror e s' _ hmiddle second _ hsecond
      cases ended with
      | ok _ =>
          cases hlast with
          | ret => simpa using hfinal
      | error e =>
          cases hlast with
          | ret => simpa using hfinal

/-- What is done in one case only. -/
theorem triple_only_if {b : Bool} {p : Proc Op Res σ ε Unit} {Q : Unit → Assertion Op Res σ}
    (hp : b = true → Triple P p Q E) (h : ∀ s l, b = false → P s l → Q () s l) :
    Triple P (Proc.onlyIf b p) Q E := by
  cases b with
  | true => exact hp rfl
  | false => exact triple_pure fun s l hs => h s l rfl hs

/-- A loop, under an invariant of the elements still to come. -/
theorem triple_for_each {body : β → Proc Op Res σ ε Unit} {I : List β → Assertion Op Res σ}
    {l : List β} (hbody : ∀ b rest, Triple (I (b :: rest)) (body b) (fun _ => I rest) E) :
    Triple (I l) (Proc.forEach body l) (fun _ => I []) E := by
  induction l with
  | nil => exact triple_pure fun _ _ h => h
  | cons b rest ih => exact Triple.seq (hbody b rest) fun _ => ih

/-- A loop that a result ends, under an invariant of the elements still to come. -/
theorem triple_first_some {body : β → Proc Op Res σ ε (Option α)} {I : List β → Assertion Op Res σ}
    {l : List β} (hbody : ∀ b rest, Triple (I (b :: rest)) (body b)
      (fun r => match r with
        | some a => Q a
        | none => I rest) E) :
    Triple (I l) (Proc.firstSome body l)
      (fun r => match r with
        | some a => Q a
        | none => I []) E := by
  induction l with
  | nil => exact triple_pure fun _ _ h => h
  | cons b rest ih =>
      refine Triple.seq (hbody b rest) fun r => ?_
      cases r with
      | some a => exact triple_pure fun _ _ h => h
      | none => exact ih

end Rules

/-- Every run from `W` ends with `W`, however it ends. -/
abbrev Keeps (W : Assertion Op Res σ) (p : Proc Op Res σ ε α) : Prop :=
  Triple W p (fun _ => W) fun _ => W

section Keeping

variable {W : Assertion Op Res σ} {p : Proc Op Res σ ε α}

theorem keeps_pure {a : α} : Keeps W (pure a : Proc Op Res σ ε α) := triple_pure fun _ _ h => h

theorem keeps_raise {e : ε} : Keeps W (Proc.raise e : Proc Op Res σ ε α) :=
  triple_raise fun _ _ h => h

theorem keeps_lift {x : Except ε α} : Keeps W (Proc.lift x : Proc Op Res σ ε α) :=
  triple_lift (fun _ _ _ _ h => h) fun _ _ _ _ h => h

theorem keeps_get : Keeps W (Proc.get : Proc Op Res σ ε σ) := triple_get fun _ _ h => h

theorem keeps_modify {f : σ → σ} (h : ∀ s l, W s l → W (f s) l) :
    Keeps W (Proc.modify f : Proc Op Res σ ε Unit) := triple_modify h

theorem keeps_ask {op : Op} (h : ∀ r s l, W s l → W s (l ++ [⟨op, r⟩])) :
    Keeps W (Proc.ask op : Proc Op Res σ ε (Res op)) := triple_ask h

theorem Keeps.seq {p : Proc Op Res σ ε β} {f : β → Proc Op Res σ ε α} (hp : Keeps W p)
    (hf : ∀ b, Keeps W (f b)) : Keeps W (p >>= f) := Triple.seq hp hf

theorem Keeps.catch {h : ε → Proc Op Res σ ε α} (hp : Keeps W p) (hh : ∀ e, Keeps W (h e)) :
    Keeps W (p.catch_ h) := Triple.catch hp hh

theorem Keeps.only_if {b : Bool} {p : Proc Op Res σ ε Unit} (hp : Keeps W p) :
    Keeps W (Proc.onlyIf b p) := triple_only_if (fun _ => hp) fun _ _ _ h => h

theorem Keeps.first_some {body : β → Proc Op Res σ ε (Option α)} {l : List β}
    (hbody : ∀ b, Keeps W (body b)) : Keeps W (Proc.firstSome body l) := by
  induction l with
  | nil => exact keeps_pure
  | cons b rest ih =>
      refine Keeps.seq (hbody b) fun r => ?_
      cases r with
      | some a => exact keeps_pure
      | none => exact ih

end Keeping

end SystemsManager.Concurrency
