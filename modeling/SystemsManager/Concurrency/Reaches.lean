import Mathlib.Logic.Basic
import Mathlib.Data.Option.Basic

/-!
# Runs of a partial step function

`Reaches step allowed start s`: a run of allowed events leads from `start` to `s`. An event that is
not possible in a state has no result there. `Reaches.invariant` is the rule for what every run
keeps, and `reaches_of_play` turns a computed run into one.
-/

namespace SystemsManager.Concurrency

variable {σ ε : Type} (step : σ → ε → Option σ) (allowed : σ → ε → Prop)

/-- A run of allowed events leads to this state. -/
inductive Reaches (start : σ) : σ → Prop where
  | refl : Reaches start start
  | next {s s' : σ} {e : ε} (h : Reaches start s) (hallowed : allowed s e)
      (hstep : step s e = some s') : Reaches start s'

/-- Runs these events one after the other, as long as they pass a test. -/
def play (ok : σ → ε → Bool) : σ → List ε → Option σ
  | s, [] => some s
  | s, e :: rest => if ok s e then (step s e).bind fun s' => play ok s' rest else none

variable {step allowed} {start s t : σ}

/-- What holds at the start and is kept by each allowed event holds at the end of every run. -/
theorem Reaches.invariant {I : σ → Prop} (hstart : I start)
    (hkeeps : ∀ {s e s'}, I s → allowed s e → step s e = some s' → I s')
    (h : Reaches step allowed start s) : I s := by
  induction h with
  | refl => exact hstart
  | next _ hallowed hstep ih => exact hkeeps ih hallowed hstep

/-- Two runs, one after the other. -/
theorem Reaches.trans (h : Reaches step allowed start s) (h' : Reaches step allowed s t) :
    Reaches step allowed start t := by
  induction h' with
  | refl => exact h
  | next _ hallowed hstep ih => exact ih.next hallowed hstep

/-- A computed run is a run. -/
theorem reaches_of_play {ok : σ → ε → Bool} (hok : ∀ s e, ok s e = true → allowed s e)
    {events : List ε} (h : play step ok start events = some t) : Reaches step allowed start t := by
  induction events generalizing start with
  | nil =>
      cases h
      exact .refl
  | cons e rest ih =>
      rw [play] at h
      split at h
      · rename_i hallowed
        obtain ⟨s, hs, hrest⟩ := Option.bind_eq_some_iff.mp h
        exact (Reaches.refl.next (hok _ _ hallowed) hs).trans (ih hrest)
      · cases h

end SystemsManager.Concurrency
