import Mathlib.Logic.Relation
import SystemsManager.Concurrency.Prog

/-!
# Systems of threads

A machine says what the operations do to the shared state and which programs a thread may
start. A configuration is the shared state and the code that each thread still has to run; a
step starts a program, performs one operation of one thread, or ends a program. `Reachable`
collects the configurations of all interleavings whose operations are allowed by a given
condition, and `play` runs one interleaving, so that a single run can be computed.
-/

namespace SystemsManager.Concurrency

open Relation

/-- The operations of a machine act on a shared state `σ`; what the state does not determine
(a clock, the answer of another system) is passed in as a value of type `Ans op`. An operation
without a result is blocked. `start` gives the code of a call by a thread, if it may make it. -/
structure Machine (Tid Op : Type) (Res Ans : Op → Type) (Call σ : Type) where
  exec : Tid → (op : Op) → Ans op → σ → Option (Res op × σ)
  start : Tid → Call → σ → Option (Prog Op Res Unit)

/-- The machine, where the threads make only some of their calls. -/
def Machine.guarded {Tid Op : Type} {Res Ans : Op → Type} {Call σ : Type}
    (M : Machine Tid Op Res Ans Call σ) (ok : Tid → Call → σ → Prop)
    [∀ t call s, Decidable (ok t call s)] : Machine Tid Op Res Ans Call σ where
  exec := M.exec
  start t call s := if ok t call s then M.start t call s else none

/-- The machine, where the outside gives only some of its answers. -/
def Machine.answering {Tid Op : Type} {Res Ans : Op → Type} {Call σ : Type}
    (M : Machine Tid Op Res Ans Call σ) (ok : (op : Op) → Ans op → Prop)
    [∀ op a, Decidable (ok op a)] : Machine Tid Op Res Ans Call σ where
  exec t op a s := if ok op a then M.exec t op a s else none
  start := M.start

/-- What an operation does under such an answer. -/
theorem Machine.answering_exec {Tid Op : Type} {Res Ans : Op → Type} {Call σ : Type}
    {M : Machine Tid Op Res Ans Call σ} {ok : (op : Op) → Ans op → Prop}
    [∀ op a, Decidable (ok op a)] {t : Tid} {op : Op} {a : Ans op} {s s' : σ} {r : Res op}
    (h : (M.answering ok).exec t op a s = some (r, s')) :
    ok op a ∧ M.exec t op a s = some (r, s') := by
  simp only [Machine.answering] at h
  split at h
  · rename_i hok
    exact ⟨hok, h⟩
  · cases h

/-- A condition on the operations of a run: who performs what, and the states around it. -/
abbrev Condition (Tid Op σ : Type) := Tid → Op → σ → σ → Prop

/-- The shared state and, for each thread that is not idle, the rest of its code. -/
structure Config (Tid Op : Type) (Res : Op → Type) (σ : Type) where
  state : σ
  threads : Tid → Option (Prog Op Res Unit)

variable {Tid Op : Type} {Res Ans : Op → Type} {Call σ : Type} [DecidableEq Tid]
variable (M : Machine Tid Op Res Ans Call σ) (allow : Condition Tid Op σ)

/-- All threads are idle. -/
def Config.idle (s : σ) : Config Tid Op Res σ := ⟨s, fun _ => none⟩

/-- The thread goes on with this code. -/
def Config.go (c : Config Tid Op Res σ) (t : Tid) (s : σ) (p : Option (Prog Op Res Unit)) :
    Config Tid Op Res σ :=
  ⟨s, Function.update c.threads t p⟩

/-- One step of one thread. -/
inductive Step : Config Tid Op Res σ → Config Tid Op Res σ → Prop where
  | start (c : Config Tid Op Res σ) (t : Tid) (call : Call) (p : Prog Op Res Unit) :
      c.threads t = none → M.start t call c.state = some p → Step c (c.go t c.state (some p))
  | perform (c : Config Tid Op Res σ) (t : Tid) (op : Op) (k : Res op → Prog Op Res Unit)
      (a : Ans op) (r : Res op) (s : σ) :
      c.threads t = some (.call op k) → M.exec t op a c.state = some (r, s) →
      allow t op c.state s → Step c (c.go t s (some (k r)))
  | finish (c : Config Tid Op Res σ) (t : Tid) :
      c.threads t = some (.ret ()) → Step c (c.go t c.state none)

/-- The configurations that a run from an idle state reaches. -/
def Reachable (s : σ) : Config Tid Op Res σ → Prop :=
  ReflTransGen (Step M allow) (Config.idle s)

/-- The choices of a scheduler: which thread moves, what it calls when it is idle, and what the
outside answers. -/
inductive Choice (Tid : Type) {Op : Type} (Ans : Op → Type) (Call : Type) where
  | start (t : Tid) (call : Call)
  | perform (t : Tid) (answer : (op : Op) → Ans op)
  | finish (t : Tid)

variable {M allow}

/-- The step of a choice, if it is possible. -/
def Config.play (M : Machine Tid Op Res Ans Call σ) (allow : Condition Tid Op σ)
    [∀ t op s s', Decidable (allow t op s s')] (c : Config Tid Op Res σ) :
    Choice Tid Ans Call → Option (Config Tid Op Res σ)
  | .start t call =>
      match c.threads t with
      | none => (M.start t call c.state).map fun p => c.go t c.state (some p)
      | some _ => none
  | .perform t answer =>
      match c.threads t with
      | some (.call op k) =>
          match M.exec t op (answer op) c.state with
          | some (r, s) => if allow t op c.state s then some (c.go t s (some (k r))) else none
          | none => none
      | _ => none
  | .finish t =>
      match c.threads t with
      | some (.ret _) => some (c.go t c.state none)
      | _ => none

/-- The run of a list of choices, if it is possible. -/
def Config.plays (M : Machine Tid Op Res Ans Call σ) (allow : Condition Tid Op σ)
    [∀ t op s s', Decidable (allow t op s s')] (c : Config Tid Op Res σ)
    (choices : List (Choice Tid Ans Call)) : Option (Config Tid Op Res σ) :=
  choices.foldlM (Config.play M allow) c

/-- A choice is a step. -/
theorem step_of_play [∀ t op s s', Decidable (allow t op s s')] {c c' : Config Tid Op Res σ}
    {choice : Choice Tid Ans Call} (h : c.play M allow choice = some c') : Step M allow c c' := by
  cases choice with
  | start t call =>
      simp only [Config.play] at h
      split at h
      · rename_i hidle
        rw [Option.map_eq_some_iff] at h
        obtain ⟨p, hp, rfl⟩ := h
        exact .start c t call p hidle hp
      · cases h
  | perform t answer =>
      simp only [Config.play] at h
      split at h
      · rename_i op k hcode
        split at h
        · rename_i r s hexec
          split at h
          · rename_i hallow
            cases h
            exact .perform c t op k _ r s hcode hexec hallow
          · cases h
        · cases h
      · cases h
  | finish t =>
      simp only [Config.play] at h
      split at h
      · rename_i a hcode
        cases h
        exact .finish c t hcode
      · cases h

variable {choices : List (Choice Tid Ans Call)}

theorem run_of_plays [∀ t op s s', Decidable (allow t op s s')] {c c' : Config Tid Op Res σ}
    (h : c.plays M allow choices = some c') : ReflTransGen (Step M allow) c c' := by
  induction choices generalizing c with
  | nil =>
      cases h
      exact .refl
  | cons choice rest ih =>
      simp only [Config.plays, List.foldlM_cons, Option.bind_eq_bind, Option.bind_eq_some_iff] at h
      obtain ⟨next, hnext, h⟩ := h
      exact .head (step_of_play hnext) (ih h)

variable {c : Config Tid Op Res σ}

theorem exists_run_of_plays [∀ t op s s', Decidable (allow t op s s')] {β : Type}
    {f : Config Tid Op Res σ → Option β} {x : β} (h : (c.plays M allow choices).bind f = some x) :
    ∃ c', ReflTransGen (Step M allow) c c' ∧ f c' = some x := by
  obtain ⟨c', hc', hf⟩ := Option.bind_eq_some_iff.mp h
  exact ⟨c', run_of_plays hc', hf⟩

/-- The thread of a choice. -/
def Choice.thread : Choice Tid Ans Call → Tid
  | .start t _ => t
  | .perform t _ => t
  | .finish t => t

/-- A choice leaves the other threads alone. -/
theorem play_threads [∀ t op s s', Decidable (allow t op s s')] {c c' : Config Tid Op Res σ}
    {choice : Choice Tid Ans Call} (h : c.play M allow choice = some c') {t : Tid}
    (ht : choice.thread ≠ t) : c'.threads t = c.threads t := by
  have hgo : ∀ s p, (c.go choice.thread s p).threads t = c.threads t := by
    intro s p
    simp [Config.go, Function.update_of_ne (Ne.symm ht)]
  cases choice with
  | start u call =>
      simp only [Config.play] at h
      split at h
      · obtain ⟨p, -, rfl⟩ := Option.map_eq_some_iff.mp h
        exact hgo _ _
      · cases h
  | perform u answer =>
      simp only [Config.play] at h
      split at h
      · split at h
        · split at h
          · cases h
            exact hgo _ _
          · cases h
        · cases h
      · cases h
  | finish u =>
      simp only [Config.play] at h
      split at h
      · cases h
        exact hgo _ _
      · cases h

theorem plays_threads [∀ t op s s', Decidable (allow t op s s')] {c c' : Config Tid Op Res σ}
    (h : c.plays M allow choices = some c') {t : Tid} (ht : ∀ choice ∈ choices, choice.thread ≠ t) :
    c'.threads t = c.threads t := by
  induction choices generalizing c with
  | nil =>
      cases h
      rfl
  | cons choice rest ih =>
      simp only [Config.plays, List.foldlM_cons, Option.bind_eq_bind, Option.bind_eq_some_iff] at h
      obtain ⟨next, hnext, h⟩ := h
      rw [ih h fun c hc => ht c (List.mem_cons_of_mem _ hc),
        play_threads hnext (ht choice (List.mem_cons_self ..))]

theorem Reachable.strengthen (meets : Condition Tid Op σ) {s : σ}
    (hmeets : ∀ c, Reachable M allow s c → ∀ t op a r s', M.exec t op a c.state = some (r, s') →
      allow t op c.state s' → meets t op c.state s') (h : Reachable M allow s c) :
    Reachable M (fun t op s s' => allow t op s s' ∧ meets t op s s') s c := by
  induction h with
  | refl => exact .refl
  | tail hreach hstep ih =>
      refine ih.tail ?_
      cases hstep with
      | start t call p hidle hp => exact .start _ t call p hidle hp
      | perform t op k a r s hcode hexec hallow =>
          exact .perform _ t op k a r s hcode hexec
            ⟨hallow, hmeets _ hreach t op a r s hexec hallow⟩
      | finish t hcode => exact .finish _ t hcode

theorem Reachable.strengthen_ops {φ : Op → Prop} {s : σ}
    (hstart : ∀ t call s p, M.start t call s = some p → p.All φ) (h : Reachable M allow s c) :
    Reachable M (fun t op s s' => allow t op s s' ∧ φ op) s c := by
  suffices Reachable M (fun t op s s' => allow t op s s' ∧ φ op) s c ∧
      ∀ t p, c.threads t = some p → p.All φ from this.1
  induction h with
  | refl => exact ⟨.refl, fun t p hp => nomatch hp⟩
  | @tail c c' hreach hstep ih =>
      obtain ⟨hrun, hcode⟩ := ih
      have hgo : ∀ (t : Tid) (s : σ) (q : Option (Prog Op Res Unit)),
          (∀ p, q = some p → p.All φ) →
          ∀ u p, (c.go t s q).threads u = some p → p.All φ := by
        intro t s q hq u p hp
        by_cases hut : u = t
        · subst hut
          exact hq p (by simpa [Config.go] using hp)
        · exact hcode u p (by simpa [Config.go, Function.update_of_ne hut] using hp)
      cases hstep with
      | start t call p hidle hp =>
          refine ⟨hrun.tail (.start _ t call p hidle hp), hgo t _ _ ?_⟩
          rintro q ⟨⟩
          exact hstart t call _ p hp
      | perform t op k a r s hthread hexec hallow =>
          have hall := hcode t _ hthread
          refine ⟨hrun.tail (.perform _ t op k a r s hthread hexec ⟨hallow, hall.1⟩),
            hgo t _ _ ?_⟩
          rintro q ⟨⟩
          exact hall.2 r
      | finish t hthread =>
          refine ⟨hrun.tail (.finish _ t hthread), hgo t _ _ ?_⟩
          intro q hq
          cases hq

theorem Reachable.invariant {I : σ → Prop} {s : σ} (hs : I s)
    (hI : ∀ t op a r s s', I s → M.exec t op a s = some (r, s') → allow t op s s' → I s')
    (h : Reachable M allow s c) : I c.state := by
  induction h with
  | refl => exact hs
  | tail _ hstep ih =>
      cases hstep with
      | start t call p hidle hp => exact ih
      | perform t op k a r s hthread hexec hallow => exact hI t op a r _ s ih hexec hallow
      | finish t hthread => exact ih

theorem Reachable.mono {allow' : Condition Tid Op σ} {s : σ}
    (hle : ∀ t op s s', allow t op s s' → allow' t op s s') (h : Reachable M allow s c) :
    Reachable M allow' s c := by
  induction h with
  | refl => exact .refl
  | tail _ hstep ih =>
      refine ih.tail ?_
      cases hstep with
      | start t call p hidle hp => exact .start _ t call p hidle hp
      | perform t op k a r s hcode hexec hallow =>
          exact .perform _ t op k a r s hcode hexec (hle _ _ _ _ hallow)
      | finish t hcode => exact .finish _ t hcode

end SystemsManager.Concurrency
