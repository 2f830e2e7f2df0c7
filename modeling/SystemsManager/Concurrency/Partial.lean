import SystemsManager.Concurrency.Procedure

/-!
# Programs that are under way

`Partly p log q`: the program `p` has performed the operations of the log and goes on as `q`. What
a triple says of the logs of whole runs holds of the log of a partial run too, where the assertion
passes from a log to its beginnings: every program can go on to its end. Read `Triple.partly`.
-/

namespace SystemsManager.Concurrency

variable {Op : Type} {Res : Op → Type} {σ ε α : Type}

/-- The program has performed the operations of the log, and this is the rest of it. -/
inductive Partly (p : Prog Op Res α) : Log Op Res → Prog Op Res α → Prop where
  | start : Partly p [] p
  | call {log : Log Op Res} {op : Op} {k : Res op → Prog Op Res α} (r : Res op)
      (h : Partly p log (.call op k)) : Partly p (log ++ [⟨op, r⟩]) (k r)

theorem Partly.runs {p q : Prog Op Res α} {log rest : Log Op Res} {a : α} (h : Partly p log q)
    (hrest : q.Runs rest a) : p.Runs (log ++ rest) a := by
  induction h generalizing rest with
  | start => exact hrest
  | call r h ih =>
      rw [List.append_assoc]
      exact ih (.call _ _ r rest a hrest)

/-- A run to the end is a partial run. -/
theorem Partly.ended {p : Prog Op Res α} {log : Log Op Res} {a : α} (h : Partly p log (.ret a)) :
    p.Runs log a := by
  have hruns := h.runs (.ret a)
  rwa [List.append_nil] at hruns

/-- An assertion about logs that passes to the beginnings of a log holds of a partial run, if every
run of the procedure ends with it. -/
theorem Triple.partly {P : Assertion Op Res σ} {A : Log Op Res → Prop} {p : Proc Op Res σ ε α}
    (h : Triple P p (fun _ _ log => A log) fun _ _ log => A log)
    (hbefore : ∀ log rest, A (log ++ rest) → A log) (reply : (op : Op) → Res op) {s : σ}
    (hs : P s []) {log : Log Op Res} {q : Prog Op Res (Except ε α × σ)}
    (hpartly : Partly (p s) log q) :
    A log := by
  have hend := h s [] hs _ _ (hpartly.runs (runs_follow reply q))
  refine hbefore log (q.follow reply).1 ?_
  generalize (q.follow reply).2 = out at hend
  obtain ⟨result, s'⟩ := out
  cases result with
  | ok _ => exact hend
  | error _ => exact hend

/-- What holds where the procedure has returned. -/
theorem Triple.returned {P : Assertion Op Res σ} {Q : α → Assertion Op Res σ}
    {E : ε → Assertion Op Res σ} {p : Proc Op Res σ ε α} (h : Triple P p Q E)
    {s s' : σ} (hs : P s [])
    {log : Log Op Res} {a : α} (hpartly : Partly (p s) log (.ret (.ok a, s'))) : Q a s' log :=
  h s [] hs _ _ hpartly.ended

end SystemsManager.Concurrency
