import SystemsManager.Bench.WatcherSteps

/-!
# Baselines and their successors

A promotion replaces a pinned run by the run of a check. `Observed` is the watcher with the history
of this: the runs that have been pinned, the run ids that agents have answered, and the runs that a
promotion has replaced. `Sound` is what holds as long as agents answer new run ids and nobody pins a
run by hand: every check in flight has one row, the newest of its baseline, and a run that was
replaced never comes back. Read `Sound.step` first.
-/

namespace SystemsManager.BenchBaseline

open Python Sql

/-- The watcher and its history. -/
structure Observed where
  watcher : Watcher
  baselines : List String
  answered : List String
  replaced : List String

namespace Observed

/-- The beginning of the history. -/
def start (runs : List Run) (clock : ℚ) : Observed where
  watcher := Watcher.start runs clock
  baselines := (runs.filter (·.baseline)).map (·.runId)
  answered := []
  replaced := []

/-- The history after an event that leads to a new state. -/
def after (o : Observed) (e : Event) (s : Watcher) : Observed :=
  match e, o.watcher.phase with
  | .call (.ok runId), _ => { o with watcher := s, answered := runId :: o.answered }
  | .promote, .promoting _ _ _ _ b runId =>
      { o with
        watcher := s, baselines := runId :: o.baselines, replaced := b.runId :: o.replaced }
  | _, _ => { o with watcher := s }

/-- One event. -/
def step (tz : ℚ) (o : Observed) (e : Event) : Option Observed :=
  (o.watcher.step tz e).map (o.after e)

end Observed

/-- An agent answers a run id that no run of this history had, and nobody pins a run by hand. -/
def Ordinary (o : Observed) : Event → Prop
  | .call (.ok runId) => runId ∉ o.baselines ∧ runId ∉ o.answered
  | .pin _ => False
  | _ => True

instance (o : Observed) (e : Event) : Decidable (Ordinary o e) :=
  match e with
  | .call (.ok _) => inferInstanceAs (Decidable (_ ∧ _))
  | .pin _ => inferInstanceAs (Decidable False)
  | .call (.error _) | .wait _ | .begin _ | .poll | .promote | .plan _ _ | .prep _ | .apply
  | .recheck _ | .quiet _ _ | .restart | .delete _ | .clear _ _ | .store _ => isTrue trivial

/-- The baselines that the tick may still write rows for. -/
def Phase.names : Phase → List String
  | .idle => []
  | .polling _ _ _ todo => todo.map Prod.fst
  | .promoting _ _ _ todo b _ => b.runId :: todo.map Prod.fst
  | .planning _ _ _ _ todo _ items => todo.map (·.runId) ++ items.map (·.run.runId)
  | .launching _ items => items.map (·.run.runId)
  | .answered _ item _ items => (item :: items).map (·.run.runId)

/-- The checks that the tick has still to poll. -/
def Phase.todo : Phase → List (String × Active)
  | .polling _ _ _ todo => todo
  | .promoting _ _ _ todo _ _ => todo
  | _ => []

/-- The pinned runs that the poll goes by. -/
def Phase.pins : Phase → List Run
  | .polling _ _ pins _ => pins
  | .promoting _ _ pins _ _ _ => pins
  | _ => []

/-- The checks that the tick has prepared. -/
def Phase.items : Phase → List Item
  | .planning _ _ _ _ _ _ items => items
  | .launching _ items => items
  | .answered _ item _ items => item :: items
  | _ => []

/-- The rows and the checks in flight: each of these has the newest row of its baseline, and each
running row has its check. -/
structure Rows (baselines answered : List String) (checks : List Check)
    (active : Dict String Active) :
    Prop where
  sorted : checks.Pairwise fun c d => d.id < c.id
  known : ∀ c ∈ checks, c.baselineRunId ∈ baselines
  ran : ∀ c ∈ checks, ∀ x, c.runId = some x → x ∈ answered
  once : ∀ c ∈ checks, ∀ d ∈ checks, ∀ x, c.runId = some x → d.runId = some x → c = d
  later : ∀ c ∈ checks, ∀ d ∈ checks, c.runId = some d.baselineRunId → c.id < d.id
  running : ∀ c ∈ checks, c.status = .running → c.promoted = false ∧
    ∃ act, active.get? c.baselineRunId = some act ∧ act.checkId = c.id
  active : ∀ b act, active.get? b = some act → ∃ c ∈ checks, c.id = act.checkId ∧
    c.baselineRunId = b ∧ c.runId = some act.runId ∧ c.status = .running ∧
    c.trigger = act.trigger ∧ act.runId ∉ baselines ∧
    ∀ d ∈ checks, d.baselineRunId = b → d.id ≤ c.id

section Checks

variable {baselines answered : List String} {checks : List Check} {active : Dict String Active}

/-- A row is found by its id. -/
theorem eq_of_id (hsorted : checks.Pairwise fun c d => d.id < c.id) {c d : Check} (hc : c ∈ checks)
    (hd : d ∈ checks) (hid : c.id = d.id) : c = d := by
  obtain ⟨newer, older, rfl⟩ := List.append_of_mem hc
  obtain ⟨-, holder, hnewer⟩ := List.pairwise_append.mp hsorted
  rcases List.mem_append.mp hd with hd | hd
  · exact absurd hid (Nat.ne_of_lt (hnewer d hd c (List.mem_cons_self ..)))
  · rcases List.mem_cons.mp hd with rfl | hd
    · rfl
    · exact absurd hid (Nat.ne_of_gt ((List.pairwise_cons.mp holder).1 d hd))

variable {c : Check}

theorem id_lt_next (hsorted : checks.Pairwise fun c d => d.id < c.id) (hc : c ∈ checks) :
    c.id < nextId checks := by
  cases checks with
  | nil => cases hc
  | cons first rest =>
      show c.id < first.id + 1
      rcases List.mem_cons.mp hc with rfl | hrest
      · exact Nat.lt_succ_self _
      · exact Nat.lt_succ_of_lt ((List.pairwise_cons.mp hsorted).1 c hrest)

variable {b : String}

theorem mem_prune_of_ne (hc : c ∈ checks) (hb : c.baselineRunId ≠ b) : c ∈ pruneChecks b checks :=
  keep_newest_others hc (Or.inl (decide_eq_false hb))

theorem mem_of_prune (hc : c ∈ pruneChecks b checks) : c ∈ checks :=
  mem_of_keep_newest hc

theorem mem_prune_head (c : Check) (b : String) (rest : List Check) :
    c ∈ pruneChecks b (c :: rest) := by
  exact List.mem_cons_self ..

theorem mem_prune_newest (hsorted : checks.Pairwise fun c d => d.id < c.id) (hc : c ∈ checks)
    (hnewest : ∀ d ∈ checks, d.baselineRunId = b → d.id ≤ c.id) : c ∈ pruneChecks b checks := by
  obtain ⟨newer, older, rfl⟩ := List.append_of_mem hc
  refine keep_newest_of_rank ?_
  have hnone : newer.filter (fun d => decide (d.baselineRunId = b)) = [] := by
    refine List.filter_eq_nil_iff.mpr fun d hd hb => ?_
    have hle := hnewest d (List.mem_append_left _ hd) (of_decide_eq_true hb)
    have hlt := (List.pairwise_append.mp hsorted).2.2 d hd c (List.mem_cons_self ..)
    exact absurd hle (Nat.not_le_of_lt hlt)
  rw [hnone]
  decide

theorem Rows.prune (h : Rows baselines answered checks active)
    (hb : ∀ act, active.get? b = some act → ∀ c ∈ checks, c.id = act.checkId →
      c ∈ pruneChecks b checks) :
    Rows baselines answered (pruneChecks b checks) active where
  sorted := h.sorted.sublist (keep_newest_sublist _ _)
  known c hc := h.known c (mem_of_prune hc)
  ran c hc := h.ran c (mem_of_prune hc)
  once c hc d hd := h.once c (mem_of_prune hc) d (mem_of_prune hd)
  later c hc d hd := h.later c (mem_of_prune hc) d (mem_of_prune hd)
  running c hc := h.running c (mem_of_prune hc)
  active b' act hact := by
    obtain ⟨c, hc, hid, hbase, hrest, hstatus, htrigger, hnew, hnewest⟩ := h.active b' act hact
    refine ⟨c, ?_, hid, hbase, hrest, hstatus, htrigger, hnew,
      fun d hd => hnewest d (mem_of_prune hd)⟩
    by_cases hne : b' = b
    · subst hne
      exact hb act hact c hc hid
    · exact mem_prune_of_ne hc fun e => hne (hbase.symm.trans e)

theorem Rows.insert (h : Rows baselines answered checks active) {row : Check}
    (hid : row.id = nextId checks) (hstatus : row.status ≠ .running) (hrun : row.runId = none)
    (hknown : row.baselineRunId ∈ baselines) (hfree : active.get? row.baselineRunId = none) :
    Rows baselines answered (pruneChecks row.baselineRunId (row :: checks)) active := by
  refine Rows.prune (show Rows _ _ (row :: checks) _ from ⟨?_, ?_, ?_, ?_, ?_, ?_, ?_⟩) ?_
  · refine List.pairwise_cons.mpr ⟨fun c hc => ?_, h.sorted⟩
    rw [hid]
    exact id_lt_next h.sorted hc
  · rintro c (_ | ⟨_, hc⟩)
    · exact hknown
    · exact h.known c hc
  · rintro c (_ | ⟨_, hc⟩) x hx
    · rw [hrun] at hx
      cases hx
    · exact h.ran c hc x hx
  · rintro c (_ | ⟨_, hc⟩) d (_ | ⟨_, hd⟩) x hx hy
    · rfl
    · rw [hrun] at hx
      cases hx
    · rw [hrun] at hy
      cases hy
    · exact h.once c hc d hd x hx hy
  · rintro c (_ | ⟨_, hc⟩) d (_ | ⟨_, hd⟩) hx
    · rw [hrun] at hx
      cases hx
    · rw [hrun] at hx
      cases hx
    · rw [hid]
      exact id_lt_next h.sorted hc
    · exact h.later c hc d hd hx
  · rintro c (_ | ⟨_, hc⟩) hc'
    · exact absurd hc' hstatus
    · exact h.running c hc hc'
  · intro b act hact
    obtain ⟨c, hc, hcid, hbase, hrun', hc', htrigger, hnew, hnewest⟩ := h.active b act hact
    refine ⟨c, List.mem_cons_of_mem _ hc, hcid, hbase, hrun', hc', htrigger, hnew, ?_⟩
    rintro d (_ | ⟨_, hd⟩) hd'
    · rw [hd', hact] at hfree
      cases hfree
    · exact hnewest d hd hd'
  · intro act hact
    rw [hfree] at hact
    cases hact

variable {act : Active}

theorem Rows.launch (h : Rows baselines answered checks active) {row : Check}
    (hid : row.id = nextId checks) (hstatus : row.status = .running)
    (hpromoted : row.promoted = false) (hrun : row.runId = some act.runId)
    (hknown : row.baselineRunId ∈ baselines) (hfree : active.get? row.baselineRunId = none)
    (hcheck : act.checkId = row.id) (htrigger : row.trigger = act.trigger)
    (hanswered : act.runId ∈ answered) (hnew : act.runId ∉ baselines)
    (hunused : ∀ c ∈ checks, c.runId ≠ some act.runId) :
    Rows baselines answered (pruneChecks row.baselineRunId (row :: checks))
      (active.set row.baselineRunId act) := by
  have hsorted : (row :: checks).Pairwise fun c d => d.id < c.id := by
    refine List.pairwise_cons.mpr ⟨fun c hc => ?_, h.sorted⟩
    rw [hid]
    exact id_lt_next h.sorted hc
  refine Rows.prune (show Rows _ _ (row :: checks) _ from ⟨hsorted, ?_, ?_, ?_, ?_, ?_, ?_⟩) ?_
  · rintro c (_ | ⟨_, hc⟩)
    · exact hknown
    · exact h.known c hc
  · rintro c (_ | ⟨_, hc⟩) x hx
    · rw [hrun] at hx
      cases hx
      exact hanswered
    · exact h.ran c hc x hx
  · rintro c (_ | ⟨_, hc⟩) d (_ | ⟨_, hd⟩) x hx hy
    · rfl
    · exact absurd (hy.trans (hx.symm.trans hrun)) (hunused d hd)
    · exact absurd (hx.trans (hy.symm.trans hrun)) (hunused c hc)
    · exact h.once c hc d hd x hx hy
  · -- The run is no baseline yet, and the row is the newest.
    rintro c (_ | ⟨_, hc⟩) d (_ | ⟨_, hd⟩) hx
    · rw [hrun, Option.some.injEq] at hx
      exact absurd hknown (hx ▸ hnew)
    · rw [hrun, Option.some.injEq] at hx
      exact absurd (h.known d hd) (hx ▸ hnew)
    · rw [hid]
      exact id_lt_next h.sorted hc
    · exact h.later c hc d hd hx
  · rintro c (_ | ⟨_, hc⟩) hc'
    · refine ⟨hpromoted, act, ?_, hcheck⟩
      rw [Dict.get?_set, if_pos rfl]
    · obtain ⟨hprom, act', hact', hid'⟩ := h.running c hc hc'
      refine ⟨hprom, act', ?_, hid'⟩
      rw [Dict.get?_set, if_neg]
      · exact hact'
      · intro e
        rw [e, hfree] at hact'
        cases hact'
  · intro b act' hact'
    rw [Dict.get?_set] at hact'
    split at hact'
    · rename_i hb
      cases hact'
      refine ⟨row, List.mem_cons_self .., hcheck.symm, hb.symm, hrun, hstatus, htrigger, hnew, ?_⟩
      rintro d (_ | ⟨_, hd⟩) _
      · exact Nat.le_refl _
      · exact Nat.le_of_lt ((List.pairwise_cons.mp hsorted).1 d hd)
    · rename_i hb
      obtain ⟨c, hc, hcid, hbase, hrun', hc', htrigger', hnew', hnewest⟩ := h.active b act' hact'
      refine ⟨c, List.mem_cons_of_mem _ hc, hcid, hbase, hrun', hc', htrigger', hnew', ?_⟩
      rintro d (_ | ⟨_, hd⟩) hd'
      · exact absurd hd'.symm hb
      · exact hnewest d hd hd'
  · intro act' hact' c hc hcid
    rw [Dict.get?_set, if_pos rfl] at hact'
    cases hact'
    have hcrow : c = row := eq_of_id hsorted hc (List.mem_cons_self ..) (hcid.trans hcheck)
    rw [hcrow]
    exact mem_prune_head ..

theorem Rows.settle (h : Rows baselines answered checks active) (hact : active.get? b = some act)
    {f : Check → Check}
    (hf : ∀ c, (f c).id = c.id ∧ (f c).baselineRunId = c.baselineRunId ∧ (f c).runId = c.runId ∧
      (f c).status ≠ .running) :
    Rows baselines answered (checks.map fun c => if c.id = act.checkId then f c else c)
      (active.erase b) := by
  have hsame : ∀ c : Check, (if c.id = act.checkId then f c else c).id = c.id ∧
      (if c.id = act.checkId then f c else c).baselineRunId = c.baselineRunId ∧
      (if c.id = act.checkId then f c else c).runId = c.runId := by
    intro c
    split
    · exact ⟨(hf c).1, (hf c).2.1, (hf c).2.2.1⟩
    · exact ⟨rfl, rfl, rfl⟩
  refine ⟨?_, ?_, ?_, ?_, ?_, ?_, ?_⟩
  · refine List.pairwise_map.mpr (h.sorted.imp fun {c d} hlt => ?_)
    rw [(hsame c).1, (hsame d).1]
    exact hlt
  · intro c' hc'
    obtain ⟨c, hc, rfl⟩ := List.mem_map.mp hc'
    rw [(hsame c).2.1]
    exact h.known c hc
  · intro c' hc' x hx
    obtain ⟨c, hc, rfl⟩ := List.mem_map.mp hc'
    exact h.ran c hc x ((hsame c).2.2 ▸ hx)
  · intro c' hc' d' hd' x hx hy
    obtain ⟨c, hc, rfl⟩ := List.mem_map.mp hc'
    obtain ⟨d, hd, rfl⟩ := List.mem_map.mp hd'
    rw [h.once c hc d hd x ((hsame c).2.2 ▸ hx) ((hsame d).2.2 ▸ hy)]
  · intro c' hc' d' hd' hx
    obtain ⟨c, hc, rfl⟩ := List.mem_map.mp hc'
    obtain ⟨d, hd, rfl⟩ := List.mem_map.mp hd'
    rw [(hsame c).1, (hsame d).1]
    refine h.later c hc d hd ?_
    rw [← (hsame c).2.2, ← (hsame d).2.1]
    exact hx
  · intro c' hc' hstatus
    obtain ⟨c, hc, rfl⟩ := List.mem_map.mp hc'
    split at hstatus
    · exact absurd hstatus (hf c).2.2.2
    · rename_i hid
      rw [if_neg hid]
      obtain ⟨hprom, act', hact', hid'⟩ := h.running c hc hstatus
      refine ⟨hprom, act', ?_, hid'⟩
      rw [Dict.get?_erase, if_neg]
      · exact hact'
      · intro e
        rw [e, hact] at hact'
        cases hact'
        exact hid hid'.symm
  · intro b' act' hact'
    rw [Dict.get?_erase] at hact'
    split at hact'
    · cases hact'
    · rename_i hb
      obtain ⟨c, hc, hcid, hbase, hrun, hstatus, htrigger, hnew, hnewest⟩ := h.active b' act' hact'
      -- The other check has another row, which stays as it is.
      have hne : c.id ≠ act.checkId := by
        intro e
        obtain ⟨d, hd, hdid, hdbase, -⟩ := h.active b act hact
        have hcd := eq_of_id h.sorted hc hd (e.trans hdid.symm)
        rw [hcd, hdbase] at hbase
        exact hb hbase.symm
      refine ⟨c, ?_, hcid, hbase, hrun, hstatus, htrigger, hnew, ?_⟩
      · exact List.mem_map.mpr ⟨c, hc, if_neg hne⟩
      · intro d' hd' hdbase
        obtain ⟨d, hd, rfl⟩ := List.mem_map.mp hd'
        rw [(hsame d).1]
        exact hnewest d hd ((hsame d).2.1 ▸ hdbase)

theorem Rows.mem_prune_settled (h : Rows baselines answered checks active)
    (hact : active.get? b = some act) {f : Check → Check}
    (hf : ∀ c, (f c).id = c.id ∧ (f c).baselineRunId = c.baselineRunId ∧ (f c).runId = c.runId ∧
      (f c).status ≠ .running) {c' : Check}
    (hc' : c' ∈ checks.map fun c => if c.id = act.checkId then f c else c)
    (hid : c'.id = act.checkId) :
    c' ∈ pruneChecks b (checks.map fun c => if c.id = act.checkId then f c else c) := by
  obtain ⟨c, hc, hcid, -, -, -, -, -, hnewest⟩ := h.active b act hact
  refine mem_prune_newest (h.settle hact hf).sorted hc' fun d' hd' hdbase => ?_
  obtain ⟨d, hd, rfl⟩ := List.mem_map.mp hd'
  have hle : c.id ≤ c'.id := Nat.le_of_eq (hcid.trans hid.symm)
  by_cases hdid : d.id = act.checkId
  · rw [if_pos hdid] at hdbase ⊢
    rw [(hf d).1]
    exact (hnewest d hd ((hf d).2.1 ▸ hdbase)).trans hle
  · rw [if_neg hdid] at hdbase ⊢
    exact (hnewest d hd hdbase).trans hle

theorem Rows.pin (h : Rows baselines answered checks active) {x : String}
    (hx : ∀ b act, active.get? b = some act → act.runId ≠ x) :
    Rows (x :: baselines) answered checks active where
  sorted := h.sorted
  known c hc := List.mem_cons_of_mem _ (h.known c hc)
  ran := h.ran
  once := h.once
  later := h.later
  running := h.running
  active b act hact := by
    obtain ⟨c, hc, hid, hbase, hrun, hstatus, htrigger, hnew, hnewest⟩ := h.active b act hact
    refine ⟨c, hc, hid, hbase, hrun, hstatus, htrigger, ?_, hnewest⟩
    exact List.not_mem_cons_of_ne_of_not_mem (hx b act hact) hnew

theorem Rows.answer (h : Rows baselines answered checks active) (x : String) :
    Rows baselines (x :: answered) checks active :=
  { h with ran := fun c hc y hy => List.mem_cons_of_mem _ (h.ran c hc y hy) }

theorem Rows.row (h : Rows baselines answered checks active) (hact : active.get? b = some act)
    (hc : c ∈ checks) (hid : c.id = act.checkId) :
    c.baselineRunId = b ∧ c.runId = some act.runId ∧ c.status = .running ∧
      c.trigger = act.trigger ∧ ∀ d ∈ checks, d.baselineRunId = b → d.id ≤ c.id := by
  obtain ⟨d, hd, hdid, hbase, hrun, hstatus, htrigger, -, hnewest⟩ := h.active b act hact
  have hcd := eq_of_id h.sorted hc hd (hid.trans hdid.symm)
  rw [hcd]
  exact ⟨hbase, hrun, hstatus, htrigger, hnewest⟩

theorem get_foldl_set {α ν : Type} (key : α → String) (value : α → ν) {rows : List α}
    (d : Dict String ν) (hnodup : (rows.map key).Nodup) (k : String) (v : ν) :
    (rows.foldl (fun d a => d.set (key a) (value a)) d).get? k = some v ↔
      (∃ a ∈ rows, key a = k ∧ value a = v) ∨ k ∉ rows.map key ∧ d.get? k = some v := by
  induction rows generalizing d with
  | nil => simp
  | cons a rest ih =>
      rw [List.map_cons, List.nodup_cons] at hnodup
      rw [List.foldl_cons, ih _ hnodup.2, Dict.get?_set]
      by_cases hk : k = key a
      · subst hk
        simp only [if_pos, Option.some.injEq, List.mem_cons, exists_eq_or_imp, List.map_cons,
          true_or, not_true_eq_false, false_and, or_false, true_and]
        constructor
        · rintro (h | h)
          · exact Or.inr h
          · exact Or.inl h.2
        · rintro (h | ⟨c, hc, hkey, hv⟩)
          · exact Or.inr ⟨hnodup.1, h⟩
          · exact absurd (List.mem_map.mpr ⟨c, hc, hkey⟩) hnodup.1
      · have hka : key a ≠ k := fun e => hk e.symm
        simp only [List.mem_cons, exists_eq_or_imp, hka, false_and, false_or, List.map_cons, hk,
          if_false]

/-- The check was in flight when the process stopped, and no run is known for it. -/
def Check.lost (c : Check) : Bool := c.status = .running && c.runId.getD "" = ""

/-- A row that a new process finds. -/
def Check.found (c : Check) : Check :=
  if c.lost then { c with status := .failed, error := some "lost across a manager restart" } else c

theorem found_same (c : Check) : c.found.id = c.id ∧ c.found.baselineRunId = c.baselineRunId ∧
    c.found.runId = c.runId ∧ c.found.ts = c.ts ∧ c.found.trigger = c.trigger ∧
    c.found.promoted = c.promoted := by
  unfold Check.found
  split <;> exact ⟨rfl, rfl, rfl, rfl, rfl, rfl⟩

theorem found_running (h : c.found.status = .running) : c.lost = false ∧ c.found = c := by
  unfold Check.found at h ⊢
  split at h
  · cases h
  · rename_i hlost
    exact ⟨Bool.eq_false_iff.mpr hlost, by rw [if_neg hlost]⟩

theorem Rows.adopted {s : Watcher} (h : Rows baselines answered s.checks s.active) (b : String)
    (act : Active) : s.resume.active.get? b = some act ↔
      ∃ c ∈ s.checks, c.status = .running ∧ c.lost = false ∧ c.baselineRunId = b ∧
        c.adopted s.clock = act := by
  let kept : List Check := s.checks.reverse.filter fun c => c.status = .running && !c.lost
  have hkept : ∀ c, c ∈ kept ↔ c ∈ s.checks ∧ c.status = .running ∧ c.lost = false := by
    intro c
    simp only [kept, List.mem_filter, List.mem_reverse, Bool.and_eq_true, decide_eq_true_eq,
      Bool.not_eq_true']
  have hnodup : (kept.map (·.baselineRunId)).Nodup := by
    refine List.Nodup.map_on ?_ (List.Nodup.filter _ (List.nodup_reverse.mpr ?_))
    · intro c hc d hd hbase
      obtain ⟨hc, hcrun, -⟩ := (hkept c).mp hc
      obtain ⟨hd, hdrun, -⟩ := (hkept d).mp hd
      obtain ⟨-, act, hact, hid⟩ := h.running c hc hcrun
      obtain ⟨-, act', hact', hid'⟩ := h.running d hd hdrun
      rw [hbase, hact'] at hact
      cases hact
      exact eq_of_id h.sorted hc hd (hid.symm.trans hid')
    · exact h.sorted.imp fun hlt e => absurd hlt (by rw [e]; exact Nat.lt_irrefl _)
  have hfold := get_foldl_set (fun c : Check => c.baselineRunId) (fun c => c.adopted s.clock) ∅
    hnodup b act
  refine hfold.trans ?_
  rw [Dict.get?_empty]
  constructor
  · rintro (⟨c, hc, hrest⟩ | ⟨-, hnone⟩)
    · obtain ⟨hc, hrun, hlost⟩ := (hkept c).mp hc
      exact ⟨c, hc, hrun, hlost, hrest⟩
    · cases hnone
  · rintro ⟨c, hc, hrun, hlost, hrest⟩
    exact Or.inl ⟨c, (hkept c).mpr ⟨hc, hrun, hlost⟩, hrest⟩

theorem Rows.resume {s : Watcher} (h : Rows baselines answered s.checks s.active) :
    Rows baselines answered (s.checks.map Check.found) s.resume.active := by
  refine ⟨?_, ?_, ?_, ?_, ?_, ?_, ?_⟩
  · refine List.pairwise_map.mpr (h.sorted.imp fun {c d} hlt => ?_)
    rw [(found_same c).1, (found_same d).1]
    exact hlt
  · intro c' hc'
    obtain ⟨c, hc, rfl⟩ := List.mem_map.mp hc'
    rw [(found_same c).2.1]
    exact h.known c hc
  · intro c' hc' x hx
    obtain ⟨c, hc, rfl⟩ := List.mem_map.mp hc'
    exact h.ran c hc x ((found_same c).2.2.1 ▸ hx)
  · intro c' hc' d' hd' x hx hy
    obtain ⟨c, hc, rfl⟩ := List.mem_map.mp hc'
    obtain ⟨d, hd, rfl⟩ := List.mem_map.mp hd'
    rw [h.once c hc d hd x ((found_same c).2.2.1 ▸ hx) ((found_same d).2.2.1 ▸ hy)]
  · intro c' hc' d' hd' hx
    obtain ⟨c, hc, rfl⟩ := List.mem_map.mp hc'
    obtain ⟨d, hd, rfl⟩ := List.mem_map.mp hd'
    rw [(found_same c).1, (found_same d).1]
    refine h.later c hc d hd ?_
    rw [← (found_same c).2.2.1, ← (found_same d).2.1]
    exact hx
  · intro c' hc' hstatus
    obtain ⟨c, hc, rfl⟩ := List.mem_map.mp hc'
    obtain ⟨hlost, hfound⟩ := found_running hstatus
    rw [hfound] at hstatus ⊢
    refine ⟨(h.running c hc hstatus).1, c.adopted s.clock, ?_, rfl⟩
    exact (h.adopted _ _).mpr ⟨c, hc, hstatus, hlost, rfl, rfl⟩
  · intro b act hact
    obtain ⟨c, hc, hstatus, hlost, hbase, rfl⟩ := (h.adopted b act).mp hact
    obtain ⟨-, old, hold, hid⟩ := h.running c hc hstatus
    rw [hbase] at hold
    obtain ⟨-, hrun, -, htrigger, hnewest⟩ := h.row hold hc hid.symm
    obtain ⟨-, -, -, -, -, -, -, hnew, -⟩ := h.active b old hold
    have hfound : c.found = c := by
      unfold Check.found
      rw [if_neg (Bool.eq_false_iff.mp hlost)]
    have hsame : (c.adopted s.clock).runId = old.runId := by
      show c.runId.getD "" = old.runId
      rw [hrun]
      rfl
    refine ⟨c, List.mem_map.mpr ⟨c, hc, hfound⟩, rfl, hbase, ?_, hstatus, rfl, ?_, ?_⟩
    · rw [hsame]
      exact hrun
    · rw [hsame]
      exact hnew
    · intro d' hd' hdbase
      obtain ⟨d, hd, rfl⟩ := List.mem_map.mp hd'
      rw [(found_same d).1]
      exact hnewest d hd ((found_same d).2.1 ▸ hdbase)

theorem Rows.resume_free {s : Watcher} (h : Rows baselines answered s.checks s.active)
    (hb : s.active.get? b = none) : s.resume.active.get? b = none := by
  cases hact : s.resume.active.get? b with
  | none => rfl
  | some act =>
      obtain ⟨c, hc, hstatus, -, hbase, -⟩ := (h.adopted b act).mp hact
      obtain ⟨-, old, hold, -⟩ := h.running c hc hstatus
      rw [hbase, hb] at hold
      cases hold

end Checks

/-- A check that is about to be launched: its entry waits for it, and none of its baseline is in
flight. -/
def Prepared (s : Watcher) (item : Item) : Prop :=
  s.active.get? item.run.runId = none ∧
    ∃ p, s.pending.get? item.run.runId = some p ∧ p.ident = item.pend.ident ∧
      p.trigger = item.pend.trigger ∧ p.starting = true

/-- What holds of the watcher and its history. -/
structure Sound (o : Observed) : Prop where
  unique : (o.watcher.runs.map (·.runId)).Nodup
  rows : Rows o.baselines o.answered o.watcher.checks o.watcher.active
  pinned : ∀ r ∈ o.watcher.runs, r.baseline = true →
    r.runId ∈ o.baselines ∧ r.runId ∉ o.replaced
  pending : ∀ b, (o.watcher.pending.get? b).isSome = true → b ∈ o.baselines
  dead : ∀ b ∈ o.replaced, b ∈ o.baselines ∧ o.watcher.active.get? b = none ∧
    b ∉ o.watcher.phase.names
  names : ∀ b ∈ o.watcher.phase.names, b ∈ o.baselines
  nodup : o.watcher.phase.names.Nodup
  todo : ∀ entry ∈ o.watcher.phase.todo, o.watcher.active.get? entry.1 = some entry.2
  pins : ∀ b ∈ o.watcher.phase.pins, b.runId ∈ o.baselines ∧ ∀ r ∈ o.watcher.runs,
    r.runId = b.runId → r.baseline = true → r.modelId = b.modelId ∧ r.agentId = b.agentId
  live : ∀ cfg now since hosts todo live items,
    o.watcher.phase = .planning cfg now since hosts todo live items →
      ∀ b ∈ o.watcher.phase.names, b ∈ live
  items : ∀ item ∈ o.watcher.phase.items, Prepared o.watcher item
  promoting : ∀ cfg now pins todo b x, o.watcher.phase = .promoting cfg now pins todo b x →
    b ∈ pins ∧ x ∉ o.baselines ∧ o.watcher.active.get? b.runId = none ∧
      ∃ c ∈ o.watcher.checks, c.baselineRunId = b.runId ∧ c.runId = some x ∧
        c.promoted = true ∧ c.autoSettled = true
  answer : ∀ now item x items, o.watcher.phase = .answered now item (.ok x) items →
    x ∈ o.answered ∧ x ∉ o.baselines ∧ ∀ c ∈ o.watcher.checks, c.runId ≠ some x

namespace Sound

variable {o : Observed} {s : Watcher}

theorem start {runs : List Run} (hruns : (runs.map (·.runId)).Nodup) (clock : ℚ) :
    Sound (Observed.start runs clock) where
  unique := hruns
  rows := by
    refine ⟨List.Pairwise.nil, ?_, ?_, ?_, ?_, ?_, ?_⟩
    · intro c hc
      cases hc
    · intro c hc
      cases hc
    · intro c hc
      cases hc
    · intro c hc
      cases hc
    · intro c hc
      cases hc
    · intro b act hact
      cases hact
  pinned r hr hpinned := by
    refine ⟨List.mem_map_of_mem (List.mem_filter.mpr ⟨hr, hpinned⟩), ?_⟩
    exact List.not_mem_nil
  pending b hb := by cases hb
  dead b hb := by cases hb
  names b hb := by cases hb
  nodup := List.nodup_nil
  todo entry hentry := by cases hentry
  pins b hb := by cases hb
  live _ _ _ _ _ _ _ h := by cases h
  items item hitem := by cases hitem
  promoting cfg now pins todo b x h := by cases h
  answer now item x items h := by cases h

theorem frame (h : Sound o) (hruns : s.runs = o.watcher.runs)
    (hchecks : s.checks = o.watcher.checks) (hactive : s.active = o.watcher.active)
    (hpending : s.pending = o.watcher.pending) (hphase : s.phase = o.watcher.phase) :
    Sound { o with watcher := s } := by
  obtain ⟨⟨runs, checks, builds, schedule, active, pending, quiet, clock, ident, phase⟩,
    bl, ans, rep⟩ := o
  obtain ⟨runs', checks', builds', schedule', active', pending', quiet', clock', ident', phase'⟩ :=
    s
  cases hruns
  cases hchecks
  cases hactive
  cases hpending
  cases hphase
  exact ⟨h.unique, h.rows, h.pinned, h.pending, h.dead, h.names, h.nodup, h.todo, h.pins, h.live,
    h.items, h.promoting, h.answer⟩

theorem runsChange (h : Sound o) {runs : List Run} (hunique : (runs.map (·.runId)).Nodup)
    (hpinned : ∀ r ∈ runs, r.baseline = true → r ∈ o.watcher.runs) :
    Sound { o with watcher := { o.watcher with runs := runs } } :=
  { h with
    unique := hunique
    pinned := fun r hr hb => h.pinned r (hpinned r hr hb) hb
    pins := fun b hb => ⟨(h.pins b hb).1, fun r hr hid hr' =>
      (h.pins b hb).2 r (hpinned r hr hr') hid hr'⟩ }

theorem begin (h : Sound o) (cfg : Config) (now : ℚ) :
    Sound { o with
      watcher := { o.watcher with
        phase := .polling cfg now o.watcher.pinned o.watcher.active.items } } where
  unique := h.unique
  rows := h.rows
  pinned := h.pinned
  pending := h.pending
  dead b hb := by
    obtain ⟨hknown, hactive, -⟩ := h.dead b hb
    refine ⟨hknown, hactive, fun hmem => ?_⟩
    obtain ⟨act, hact⟩ := Dict.exists_get_of_mem_keys hmem
    rw [hactive] at hact
    cases hact
  names b hb := by
    obtain ⟨act, hact⟩ := Dict.exists_get_of_mem_keys hb
    obtain ⟨c, hc, -, hbase, -⟩ := h.rows.active b act hact
    exact hbase ▸ h.rows.known c hc
  nodup := o.watcher.active.keys_nodup
  todo entry hentry := Dict.mem_items_iff.mp hentry
  pins b hb := by
    obtain ⟨hmem, hpinned⟩ := mem_pinned.mp hb
    refine ⟨(h.pinned b hmem hpinned).1, fun r hr hid _ => ?_⟩
    -- Run ids are unique, so the two are the same run.
    have hsame : r = b := List.inj_on_of_nodup_map h.unique hr hmem hid
    rw [hsame]
    exact ⟨rfl, rfl⟩
  live _ _ _ _ _ _ _ hphase := by cases hphase
  items item hitem := by cases hitem
  promoting _ _ _ _ _ _ hphase := by cases hphase
  answer _ _ _ _ hphase := by cases hphase

section Poll

variable {cfg : Config} {now : ℚ} {pins : List Run} {rid : String} {act : Active}
  {todo : List (String × Active)}

theorem dropped (h : Sound o)
    (hphase : o.watcher.phase = .polling cfg now pins ((rid, act) :: todo)) {checks : List Check}
    (hrows : Rows o.baselines o.answered checks (o.watcher.active.erase rid)) {phase : Phase}
    (hnames : ∀ b ∈ phase.names, b ∈ rid :: todo.map Prod.fst) (hnodup : phase.names.Nodup)
    (htodo : phase.todo = todo) (hpins : phase.pins = pins) (hitems : phase.items = [])
    (hlive : ∀ cfg now since hosts todo live items,
      phase ≠ .planning cfg now since hosts todo live items)
    (hpromoting : ∀ cfg now pins todo b x, phase = .promoting cfg now pins todo b x →
      b ∈ pins ∧ x ∉ o.baselines ∧ (o.watcher.active.erase rid).get? b.runId = none ∧
        ∃ c ∈ checks, c.baselineRunId = b.runId ∧ c.runId = some x ∧
          c.promoted = true ∧ c.autoSettled = true)
    (hanswer : ∀ now item x items, phase ≠ .answered now item (.ok x) items) :
    Sound { o with
      watcher := { o.watcher with
        checks := checks, active := o.watcher.active.erase rid, phase := phase } } where
  unique := h.unique
  rows := hrows
  pinned := h.pinned
  pending := h.pending
  dead b hb := by
    obtain ⟨hknown, hactive, hnot⟩ := h.dead b hb
    rw [hphase] at hnot
    refine ⟨hknown, ?_, fun hmem => hnot (hnames b hmem)⟩
    show (o.watcher.active.erase rid).get? b = none
    rw [Dict.get?_erase, hactive, ite_self]
  names b hb := h.names b (by rw [hphase]; exact hnames b hb)
  nodup := hnodup
  todo entry hentry := by
    have hentry : entry ∈ todo := htodo ▸ hentry
    have hold := h.nodup
    rw [hphase] at hold
    have hne : entry.1 ≠ rid := by
      intro e
      exact (List.nodup_cons.mp hold).1 (List.mem_map.mpr ⟨entry, hentry, e⟩)
    show (o.watcher.active.erase rid).get? entry.1 = some entry.2
    rw [Dict.get?_erase, if_neg hne]
    exact h.todo entry (by rw [hphase]; exact List.mem_cons_of_mem _ hentry)
  pins b hb := h.pins b (by rw [hphase]; exact hpins ▸ hb)
  live cfg now since hosts todo live items he :=
    absurd he (hlive cfg now since hosts todo live items)
  items item hitem := by
    have hitem : item ∈ phase.items := hitem
    rw [hitems] at hitem
    cases hitem
  promoting := hpromoting
  answer now item x items he := absurd he (hanswer now item x items)

theorem poll (h : Sound o) (hphase : o.watcher.phase = .polling cfg now pins ((rid, act) :: todo))
    {s : Watcher} {promoted : Option (Run × String)}
    (hpolled : Polled now pins rid act o.watcher s promoted) :
    Sound { o with
      watcher := { s with phase := Phase.polled cfg now pins todo promoted } } := by
  have hold := h.nodup
  rw [hphase] at hold
  have hact : o.watcher.active.get? rid = some act :=
    h.todo (rid, act) (by rw [hphase]; exact List.mem_cons_self ..)
  have hgone : (o.watcher.active.erase rid).get? rid = none := by
    rw [Dict.get?_erase, if_pos rfl]
  -- A settled row: the pruning finds no check of its baseline in flight.
  have hsettle : ∀ (b : Run) (out : Outcome), b.runId = rid → out.status ≠ .running →
      Rows o.baselines o.answered
        ((o.watcher.dropActive rid).settleCheck b act.checkId out).checks
        (o.watcher.active.erase rid) := by
    intro b out hid hstatus
    refine Rows.prune (h.rows.settle hact (f := fun c => c.settled o.watcher.clock out)
      fun c => ⟨rfl, rfl, rfl, hstatus⟩) ?_
    intro act' hact'
    rw [hid, hgone] at hact'
    cases hact'
  cases hpolled with
  | unpinned hpins =>
      refine h.dropped hphase (h.rows.settle hact (f := fun c =>
          { c with ts := now, status := .skipped, error := some "baseline unpinned" })
        fun c => ⟨rfl, rfl, rfl, by simp⟩) ?_ (List.nodup_cons.mp hold).2 rfl rfl rfl ?_ ?_ ?_
      · exact fun b hb => List.mem_cons_of_mem _ hb
      · intro _ _ _ _ _ _ _ he
        cases he
      · intro _ _ _ _ _ _ he
        cases he
      · intro _ _ _ _ he
        cases he
  | waiting =>
      refine ⟨h.unique, h.rows, h.pinned, h.pending, ?_, ?_, ?_, ?_, ?_, ?_, ?_, ?_, ?_⟩
      · intro b hb
        obtain ⟨hknown, hactive, hnot⟩ := h.dead b hb
        rw [hphase] at hnot
        exact ⟨hknown, hactive, fun hmem => hnot (List.mem_cons_of_mem _ hmem)⟩
      · exact fun b hb => h.names b (by rw [hphase]; exact List.mem_cons_of_mem _ hb)
      · exact (List.nodup_cons.mp hold).2
      · exact fun entry he => h.todo entry (by rw [hphase]; exact List.mem_cons_of_mem _ he)
      · exact fun b hb => h.pins b (by rw [hphase]; exact hb)
      · intro _ _ _ _ _ _ _ he
        cases he
      · intro item hitem
        cases hitem
      · intro _ _ _ _ _ _ he
        cases he
      · intro _ _ _ _ he
        cases he
  | settled b out hb hid hstatus hpromoted =>
      refine h.dropped hphase (hsettle b out hid hstatus) ?_ (List.nodup_cons.mp hold).2 rfl rfl rfl
        ?_ ?_ ?_
      · exact fun b hb => List.mem_cons_of_mem _ hb
      · intro _ _ _ _ _ _ _ he
        cases he
      · intro _ _ _ _ _ _ he
        cases he
      · intro _ _ _ _ he
        cases he
  | promotes b out hb hid hstatus hpromoted htrigger =>
      obtain ⟨c, hc, hcid, hbase, hrun, -, hctrigger, hnew, -⟩ := h.rows.active rid act hact
      refine h.dropped hphase (hsettle b out hid hstatus) ?_ ?_ rfl rfl rfl ?_ ?_ ?_
      · intro b' hb'
        rw [← hid]
        exact hb'
      · show (b.runId :: todo.map Prod.fst).Nodup
        rw [hid]
        exact hold
      · intro _ _ _ _ _ _ _ he
        cases he
      · intro _ _ _ _ _ _ he
        cases he
        refine ⟨hb, hnew, hid ▸ hgone, c.settled o.watcher.clock out, ?_, ?_, hrun, hpromoted, ?_⟩
        · show c.settled o.watcher.clock out ∈ pruneChecks b.runId _
          rw [hid]
          exact h.rows.mem_prune_settled hact (f := fun c => c.settled o.watcher.clock out)
            (fun c => ⟨rfl, rfl, rfl, hstatus⟩) (List.mem_map.mpr ⟨c, hc, if_pos hcid⟩) hcid
        · exact hbase.trans hid.symm
        · show (c.trigger.auto && decide (out.status ≠ .running)) = true
          rw [hctrigger, htrigger, decide_eq_true hstatus]
          rfl
      · intro _ _ _ _ he
        cases he

theorem promoting_unused (h : Sound o) {b : Run} {x : String}
    (hphase : o.watcher.phase = .promoting cfg now pins todo b x) (b' : String) (act : Active)
    (hact : o.watcher.active.get? b' = some act) : act.runId ≠ x := by
  rintro rfl
  obtain ⟨-, -, -, c, hc, -, hrun, -, hsettled⟩ := h.promoting _ _ _ _ _ _ hphase
  obtain ⟨d, hd, -, -, hrun', hstatus, -⟩ := h.rows.active b' act hact
  have hcd := h.rows.once c hc d hd _ hrun hrun'
  rw [Check.autoSettled, hcd, hstatus] at hsettled
  simp at hsettled

/-- The run of a check replaces its baseline. -/
theorem promote (h : Sound o) {b : Run} {x : String}
    (hphase : o.watcher.phase = .promoting cfg now pins todo b x) :
    Sound { o with
      watcher := { o.watcher.pinRun b.modelId b.agentId x with
        phase := .polling cfg now pins todo }
      baselines := x :: o.baselines
      replaced := b.runId :: o.replaced } := by
  obtain ⟨hpin, hnew, hactive, -⟩ := h.promoting _ _ _ _ _ _ hphase
  have hnodup := h.nodup
  have hnames := h.names
  rw [hphase] at hnodup hnames
  have hbase : b.runId ∈ o.baselines := hnames b.runId (List.mem_cons_self ..)
  -- Of the runs that are pinned now, one is the new baseline, and the others were pinned before.
  have hpinned : ∀ r' ∈ (o.watcher.pinRun b.modelId b.agentId x).runs, r'.baseline = true →
      r'.runId = x ∨ r' ∈ o.watcher.runs ∧ r'.runId ≠ b.runId := by
    intro r' hr' hbaseline
    obtain ⟨r, hr, rfl⟩ := List.mem_map.mp hr'
    by_cases hx : r.runId = x
    · rw [if_pos hx]
      exact Or.inl hx
    · rw [if_neg hx] at hbaseline ⊢
      by_cases hpair : r.modelId = b.modelId ∧ r.agentId = b.agentId
      · rw [if_pos hpair] at hbaseline
        cases hbaseline
      · rw [if_neg hpair] at hbaseline ⊢
        refine Or.inr ⟨hr, fun hid => hpair ?_⟩
        exact (h.pins b (by rw [hphase]; exact hpin)).2 r hr hid hbaseline
  have hreplaced : x ∉ b.runId :: o.replaced := by
    refine List.not_mem_cons_of_ne_of_not_mem ?_ ?_
    · rintro rfl
      exact hnew hbase
    · exact fun hx => hnew (h.dead x hx).1
  refine ⟨?_, h.rows.pin (h.promoting_unused hphase), ?_, ?_, ?_, ?_, ?_, ?_, ?_, ?_, ?_, ?_, ?_⟩
  · have hids : (o.watcher.pinRun b.modelId b.agentId x).runs.map (·.runId) =
        o.watcher.runs.map (·.runId) := by
      show ((o.watcher.runs.map _).map _) = _
      rw [List.map_map]
      refine List.map_congr_left fun r _ => ?_
      show (if r.runId = x then _ else _ : Run).runId = r.runId
      split
      · rfl
      · split <;> rfl
    exact hids ▸ h.unique
  · intro r hr hbaseline
    rcases hpinned r hr hbaseline with rfl | ⟨hr, hne⟩
    · exact ⟨List.mem_cons_self .., hreplaced⟩
    · obtain ⟨hknown, hlive⟩ := h.pinned r hr hbaseline
      exact ⟨List.mem_cons_of_mem _ hknown, List.not_mem_cons_of_ne_of_not_mem hne hlive⟩
  · exact fun b' hb' => List.mem_cons_of_mem _ (h.pending b' hb')
  · intro b' hb'
    rcases List.mem_cons.mp hb' with rfl | hb'
    · exact ⟨List.mem_cons_of_mem _ hbase, hactive, (List.nodup_cons.mp hnodup).1⟩
    · obtain ⟨hknown, hfree, hnot⟩ := h.dead b' hb'
      rw [hphase] at hnot
      exact ⟨List.mem_cons_of_mem _ hknown, hfree, fun hmem => hnot (List.mem_cons_of_mem _ hmem)⟩
  · exact fun b' hb' => List.mem_cons_of_mem _ (hnames b' (List.mem_cons_of_mem _ hb'))
  · exact (List.nodup_cons.mp hnodup).2
  · exact fun entry he => h.todo entry (by rw [hphase]; exact he)
  · intro b' hb'
    obtain ⟨hknown, hpair⟩ := h.pins b' (by rw [hphase]; exact hb')
    refine ⟨List.mem_cons_of_mem _ hknown, fun r hr hid hbaseline => ?_⟩
    rcases hpinned r hr hbaseline with rfl | ⟨hr, -⟩
    · exact absurd (hid ▸ hknown) hnew
    · exact hpair r hr hid hbaseline
  · intro _ _ _ _ _ _ _ he
    cases he
  · intro item hitem
    cases hitem
  · intro _ _ _ _ _ _ he
    cases he
  · intro _ _ _ _ he
    cases he

end Poll

/-- Checks of baselines are queued. -/
theorem queued (h : Sound o) {runIds : List String} {trigger : Trigger}
    (hqueued : Queued runIds trigger o.watcher s) (hknown : ∀ b ∈ runIds, b ∈ o.baselines) :
    Sound { o with watcher := s } := by
  have hpending : ∀ b, (s.pending.get? b).isSome = true → b ∈ o.baselines := by
    intro b hb
    rcases hqueued.pending b with hsame | ⟨hb, -⟩
    · exact h.pending b (hsame ▸ hb)
    · exact hknown b hb
  have hprepared : ∀ item, Prepared o.watcher item → Prepared s item := by
    rintro item ⟨hfree, p, hp, hident, htrigger, hstarting⟩
    refine ⟨by rw [hqueued.active]; exact hfree, p, ?_, hident, htrigger, hstarting⟩
    rcases hqueued.pending item.run.runId with hsame | ⟨-, hnot, -⟩
    · rw [hsame]
      exact hp
    · rw [hp] at hnot
      exact absurd hstarting (Bool.eq_false_iff.mp hnot)
  have hruns := hqueued.runs
  have hchecks := hqueued.checks
  have hactive := hqueued.active
  have hphase := hqueued.phase
  refine ⟨?_, ?_, ?_, hpending, ?_, ?_, ?_, ?_, ?_, ?_, ?_, ?_, ?_⟩
  · exact hruns ▸ h.unique
  · show Rows o.baselines o.answered s.checks s.active
    rw [hchecks, hactive]
    exact h.rows
  · exact fun r hr => h.pinned r (hruns ▸ hr)
  · intro b hb
    show b ∈ o.baselines ∧ s.active.get? b = none ∧ b ∉ s.phase.names
    rw [hactive, hphase]
    exact h.dead b hb
  · exact fun b hb => h.names b (hphase ▸ hb)
  · exact hphase ▸ h.nodup
  · intro entry he
    show s.active.get? entry.1 = some entry.2
    rw [hactive]
    exact h.todo entry (hphase ▸ he)
  · intro b hb
    obtain ⟨hknown, hpair⟩ := h.pins b (hphase ▸ hb)
    exact ⟨hknown, fun r hr => hpair r (hruns ▸ hr)⟩
  · intro _ _ _ _ _ _ _ he b hb
    exact h.live _ _ _ _ _ _ _ (hphase.symm.trans he) b (hphase ▸ hb)
  · exact fun item hitem => hprepared item (h.items item (hphase ▸ hitem))
  · intro _ _ _ _ _ _ he
    show _ ∧ _ ∧ s.active.get? _ = none ∧ ∃ c ∈ s.checks, _
    rw [hactive, hchecks]
    exact h.promoting _ _ _ _ _ _ (hphase.symm.trans he)
  · intro _ _ _ _ he
    show _ ∧ _ ∧ ∀ c ∈ s.checks, _
    rw [hchecks]
    exact h.answer _ _ _ _ (hphase.symm.trans he)

theorem mem_pinned (h : Sound o) {b : String} (hb : b ∈ o.watcher.pinned.map (·.runId)) :
    b ∈ o.baselines ∧ b ∉ o.replaced := by
  obtain ⟨r, hr, rfl⟩ := List.mem_map.mp hb
  obtain ⟨hmem, hpinned⟩ := BenchBaseline.mem_pinned.mp hr
  exact h.pinned r hmem hpinned

/-- No run is pinned twice. -/
theorem pinned_nodup (h : Sound o) : (o.watcher.pinned.map (·.runId)).Nodup := by
  have hperm : (o.watcher.pinned.map (·.runId)).Perm
      ((o.watcher.runs.filter (·.baseline)).map (·.runId)) :=
    (sorted_by_perm _ _).map _
  refine hperm.nodup_iff.mpr ?_
  exact (List.filter_sublist.map _).nodup h.unique

section Plan

variable {cfg : Config} {now : ℚ} {since : Option ℚ} {hosts : List Host} {b : Run} {todo : List Run}
  {live : List String} {items : List Item}

/-- The loop over the pinned runs begins. -/
theorem toPlan (h : Sound o) (cfg : Config) (now : ℚ) (since : Option ℚ) (hosts : List Host) :
    Sound { o with
      watcher := { o.watcher with
        phase := .planning cfg now since hosts o.watcher.pinned
          (o.watcher.pinned.map (·.runId)) [] } } where
  unique := h.unique
  rows := h.rows
  pinned := h.pinned
  pending := h.pending
  dead b hb := by
    obtain ⟨hknown, hfree, -⟩ := h.dead b hb
    refine ⟨hknown, hfree, fun hmem => ?_⟩
    rw [show Phase.names _ = _ from List.append_nil _] at hmem
    exact (h.mem_pinned hmem).2 hb
  names b hb := by
    rw [show Phase.names _ = _ from List.append_nil _] at hb
    exact (h.mem_pinned hb).1
  nodup := by
    rw [show Phase.names _ = _ from List.append_nil _]
    exact h.pinned_nodup
  todo entry he := by cases he
  pins b hb := by cases hb
  live _ _ _ _ _ _ _ he b hb := by
    cases he
    rwa [show Phase.names _ = _ from List.append_nil _] at hb
  items item hitem := by cases hitem
  promoting _ _ _ _ _ _ he := by cases he
  answer _ _ _ _ he := by cases he

theorem skipped (h : Sound o) (hb : b.runId ∈ o.baselines)
    (hactive : o.watcher.active.get? b.runId = none)
    (hitems : ∀ item ∈ o.watcher.phase.items, item.run.runId ≠ b.runId)
    (hpromoting : ∀ cfg now pins todo b x, o.watcher.phase ≠ .promoting cfg now pins todo b x)
    (hanswer : ∀ now item x items, o.watcher.phase ≠ .answered now item (.ok x) items)
    (trigger : Trigger) (out : Outcome) (hstatus : out.status ≠ .running) (build : String) :
    Sound { o with
      watcher := (o.watcher.insertCheck b trigger out none build "").dropPending b.runId } where
  unique := h.unique
  rows := Rows.insert h.rows rfl hstatus rfl hb hactive
  pinned := h.pinned
  pending b' hb' := by
    have hb' : ((o.watcher.pending.erase b.runId).get? b').isSome = true := hb'
    rw [Dict.get?_erase] at hb'
    split at hb'
    · cases hb'
    · exact h.pending b' hb'
  dead := h.dead
  names := h.names
  nodup := h.nodup
  todo := h.todo
  pins := h.pins
  live := h.live
  items item hitem := by
    obtain ⟨hfree, p, hp, hrest⟩ := h.items item hitem
    refine ⟨hfree, p, ?_, hrest⟩
    show (o.watcher.pending.erase b.runId).get? item.run.runId = some p
    rw [Dict.get?_erase, if_neg (hitems item hitem)]
    exact hp
  promoting _ _ _ _ _ _ he := absurd he (hpromoting _ _ _ _ _ _)
  answer _ _ _ _ he := absurd he (hanswer _ _ _ _)

variable {item : Option Item}

theorem planNext (h : Sound o)
    (hphase : o.watcher.phase = .planning cfg now since hosts (b :: todo) live items)
    (hitem : ∀ i, item = some i → i.run = b ∧ Prepared o.watcher i) :
    Sound { o with
      watcher := { o.watcher with
        phase := .planning cfg now since hosts todo live (items ++ item.toList) } } := by
  -- The baselines of the rest and of the items are those from before, perhaps without this one.
  have hsub : (Phase.planning cfg now since hosts todo live (items ++ item.toList)).names.Subperm
      o.watcher.phase.names := by
    rw [hphase]
    show List.Subperm (todo.map (·.runId) ++ (items ++ item.toList).map (·.run.runId))
      ((b :: todo).map (·.runId) ++ items.map (·.run.runId))
    rw [List.map_append, ← List.append_assoc, List.map_cons, List.cons_append]
    cases item with
    | none => exact (List.sublist_cons_of_sublist _ (by simp)).subperm
    | some i =>
        rw [Option.toList_some, List.map_singleton, (hitem i rfl).1]
        exact (List.perm_append_singleton _ _).subperm
  refine ⟨h.unique, h.rows, h.pinned, h.pending, ?_, ?_, ?_, ?_, ?_, ?_, ?_, ?_, ?_⟩
  · intro b' hb'
    obtain ⟨hknown, hfree, hnot⟩ := h.dead b' hb'
    exact ⟨hknown, hfree, fun hmem => hnot (hsub.subset hmem)⟩
  · exact fun b' hb' => h.names b' (hsub.subset hb')
  · obtain ⟨names, hperm, hsublist⟩ := hsub
    exact hperm.nodup_iff.mp (hsublist.nodup h.nodup)
  · intro entry he
    cases he
  · intro b' hb'
    cases hb'
  · intro _ _ _ _ _ _ _ he b' hb'
    cases he
    exact h.live _ _ _ _ _ _ _ hphase b' (hsub.subset hb')
  · intro i hi
    rcases List.mem_append.mp hi with hi | hi
    · exact h.items i (by rw [hphase]; exact hi)
    · exact (hitem i (Option.mem_toList.mp hi)).2
  · intro _ _ _ _ _ _ he
    cases he
  · intro _ _ _ _ he
    cases he

theorem started (h : Sound o)
    (hphase : o.watcher.phase = .planning cfg now since hosts (b :: todo) live items)
    (hactive : o.watcher.active.get? b.runId = none) {pend : Pending}
    (hpend : o.watcher.pending.get? b.runId = some pend)
    (hstart : Started b pend o.watcher s item) :
    Sound { o with
      watcher := { s with
        phase := .planning cfg now since hosts todo live (items ++ item.toList) } } := by
  have hnodup := h.nodup
  rw [hphase] at hnodup
  have hothers : ∀ i ∈ o.watcher.phase.items, i.run.runId ≠ b.runId := by
    rw [hphase]
    intro i hi e
    refine (List.nodup_cons.mp hnodup).1 (List.mem_append_right _ ?_)
    exact List.mem_map.mpr ⟨i, hi, e⟩
  cases hstart with
  | waits => exact h.planNext hphase fun i hi => by cases hi
  | skips error build =>
      have hskipped := h.skipped (h.pending b.runId (by rw [hpend]; rfl)) hactive hothers
        (by simp [hphase]) (by simp [hphase]) pend.trigger
        { status := .skipped, error := some error } (by simp) build
      exact hskipped.planNext hphase fun i hi => by cases hi
  | item body build hfree =>
      have hput : Sound { o with
          watcher := o.watcher.putPending b.runId { pend with starting := true } } := by
        refine { h with pending := ?_, items := ?_ }
        · intro b' hb'
          have hb' : ((o.watcher.pending.set b.runId _).get? b').isSome = true := hb'
          rw [Dict.get?_set] at hb'
          split at hb'
          · rename_i e
            exact h.pending b' (by rw [e, hpend]; rfl)
          · exact h.pending b' hb'
        · intro i hi
          obtain ⟨hfree, p, hp, hrest⟩ := h.items i hi
          refine ⟨hfree, p, ?_, hrest⟩
          show (o.watcher.pending.set b.runId _).get? i.run.runId = some p
          rw [Dict.get?_set, if_neg (hothers i hi)]
          exact hp
      refine hput.planNext hphase fun i hi => ?_
      cases hi
      refine ⟨rfl, hactive, { pend with starting := true }, ?_, rfl, rfl, rfl⟩
      show (o.watcher.pending.set b.runId _).get? b.runId = _
      rw [Dict.get?_set, if_pos rfl]

theorem prep (h : Sound o) {tz : ℚ}
    (hphase : o.watcher.phase = .planning cfg now since hosts (b :: todo) live items)
    (hplanned : Planned tz cfg now since b o.watcher s item) :
    Sound { o with
      watcher := { s with
        phase := .planning cfg now since hosts todo live (items ++ item.toList) } } := by
  cases hplanned with
  | stays => exact h.planNext hphase fun i hi => by cases hi
  | known pend _ _ hactive hpend hstart => exact h.started hphase hactive hpend hstart
  | due _ _ hactive hpend hdue hstart =>
      have hb : b.runId ∈ o.baselines := by
        refine h.names b.runId ?_
        rw [hphase]
        exact List.mem_append_left _ (List.mem_cons_self ..)
      have hqueued : Queued [b.runId] .nightly o.watcher (o.watcher.enqueue b.runId .nightly "") :=
        Queued.enqueue "" (List.mem_singleton_self _) (by rw [hpend]; rfl)
      have hsound := h.queued hqueued fun b' hb' => List.mem_singleton.mp hb' ▸ hb
      refine hsound.started hphase hactive ?_ hstart
      show (o.watcher.pending.set b.runId _).get? b.runId = _
      rw [Dict.get?_set, if_pos rfl]

/-- The tick goes on with the items that are left. -/
theorem after (h : Sound o) {now : ℚ} {items : List Item}
    (hnames : ∀ b ∈ (Phase.after now items).names, b ∈ o.watcher.phase.names)
    (hnodup : (Phase.after now items).names.Nodup)
    (hitems : ∀ item ∈ items, item ∈ o.watcher.phase.items) :
    Sound { o with watcher := { o.watcher with phase := .after now items } } := by
  cases items with
  | nil =>
      refine ⟨h.unique, h.rows, h.pinned, h.pending, ?_, ?_, hnodup, ?_, ?_, ?_, ?_, ?_, ?_⟩
      · intro b hb
        exact ⟨(h.dead b hb).1, (h.dead b hb).2.1, List.not_mem_nil⟩
      · exact fun b hb => h.names b (hnames b hb)
      · intro entry he
        cases he
      · intro b hb
        cases hb
      · intro _ _ _ _ _ _ _ he
        cases he
      · intro i hi
        cases hi
      · intro _ _ _ _ _ _ he
        cases he
      · intro _ _ _ _ he
        cases he
  | cons item rest =>
      refine ⟨h.unique, h.rows, h.pinned, h.pending, ?_, ?_, hnodup, ?_, ?_, ?_, ?_, ?_, ?_⟩
      · intro b hb
        exact ⟨(h.dead b hb).1, (h.dead b hb).2.1, fun hmem => (h.dead b hb).2.2 (hnames b hmem)⟩
      · exact fun b hb => h.names b (hnames b hb)
      · intro entry he
        cases he
      · intro b hb
        cases hb
      · intro _ _ _ _ _ _ _ he
        cases he
      · exact fun i hi => h.items i (hitems i hi)
      · intro _ _ _ _ _ _ he
        cases he
      · intro _ _ _ _ he
        cases he

theorem names_after (now : ℚ) (items : List Item) :
    (Phase.after now items).names = items.map (·.run.runId) := by
  cases items <;> rfl

/-- The loop over the pinned runs ends: what is pending for other runs is dropped. -/
theorem planned (h : Sound o)
    (hphase : o.watcher.phase = .planning cfg now since hosts [] live items) :
    Sound { o with
      watcher := { o.watcher with
        pending := o.watcher.pending.filter fun rid _ => live.contains rid
        phase := .after now items } } := by
  have hget : ∀ rid, (o.watcher.pending.filter fun rid _ => live.contains rid).get? rid =
      (o.watcher.pending.get? rid).filter fun _ => live.contains rid :=
    fun rid => Dict.get?_filter _ _ rid
  have hfiltered : Sound { o with
      watcher := { o.watcher with
        pending := o.watcher.pending.filter fun rid _ => live.contains rid } } := by
    refine { h with pending := ?_, items := ?_ }
    · intro b hb
      have hb : ((o.watcher.pending.filter fun rid _ => live.contains rid).get? b).isSome = true :=
        hb
      rw [hget] at hb
      obtain ⟨p, hp⟩ := Option.isSome_iff_exists.mp hb
      exact h.pending b (by rw [(Option.filter_eq_some_iff.mp hp).1]; rfl)
    · intro item hitem
      obtain ⟨hfree, p, hp, hrest⟩ := h.items item hitem
      refine ⟨hfree, p, ?_, hrest⟩
      show (o.watcher.pending.filter fun rid _ => live.contains rid).get? item.run.runId = some p
      rw [hget]
      refine Option.filter_eq_some_iff.mpr ⟨hp, ?_⟩
      have hname : item.run.runId ∈ o.watcher.phase.names := by
        rw [hphase] at hitem ⊢
        exact List.mem_append_right _ (List.mem_map_of_mem hitem)
      exact List.contains_iff_mem.mpr (h.live _ _ _ _ _ _ _ hphase _ hname)
  have hold : o.watcher.phase.names = items.map (·.run.runId) := by
    rw [hphase]
    rfl
  refine hfiltered.after ?_ ?_ ?_
  · intro b hb
    show b ∈ o.watcher.phase.names
    rw [hold, ← names_after now]
    exact hb
  · rw [names_after, ← hold]
    exact h.nodup
  · intro item hitem
    show item ∈ o.watcher.phase.items
    rw [hphase]
    exact hitem

end Plan

section Launch

variable {now : ℚ} {item : Item} {items : List Item} {answer : Except String String}

theorem call (h : Sound o) (hphase : o.watcher.phase = .launching now (item :: items))
    (hnew : ∀ x, answer = .ok x → x ∉ o.baselines ∧ x ∉ o.answered) :
    Sound { o with
      watcher := { o.watcher with phase := .answered now item answer items }
      answered := answer.toOption.toList ++ o.answered } := by
  have hrows : Rows o.baselines (answer.toOption.toList ++ o.answered) o.watcher.checks
      o.watcher.active := by
    cases answer with
    | ok x => exact h.rows.answer x
    | error text => exact h.rows
  have hnames : (Phase.answered now item answer items).names = o.watcher.phase.names := by
    rw [hphase]
    rfl
  refine ⟨h.unique, hrows, h.pinned, h.pending, ?_, ?_, ?_, ?_, ?_, ?_, ?_, ?_, ?_⟩
  · intro b hb
    show b ∈ o.baselines ∧ o.watcher.active.get? b = none ∧ b ∉ Phase.names _
    rw [hnames]
    exact h.dead b hb
  · exact fun b hb => h.names b (hnames ▸ hb)
  · exact hnames.symm ▸ h.nodup
  · intro entry he
    cases he
  · intro b hb
    cases hb
  · intro _ _ _ _ _ _ _ he
    cases he
  · exact fun i hi => h.items i (by rw [hphase]; exact hi)
  · intro _ _ _ _ _ _ he
    cases he
  · intro _ _ x _ he
    cases he
    obtain ⟨hbase, hanswered⟩ := hnew x rfl
    refine ⟨List.mem_cons_self .., hbase, fun c hc hrun => ?_⟩
    exact hanswered (h.rows.ran c hc x hrun)

/-- The outcome of a call is applied. -/
theorem apply (h : Sound o) (hphase : o.watcher.phase = .answered now item answer items)
    (hlaunched : Launched now item answer o.watcher s) :
    Sound { o with watcher := { s with phase := .after now items } } := by
  have hnodup := h.nodup
  have hnames := h.names
  rw [hphase] at hnodup hnames
  have hb : item.run.runId ∈ o.baselines := hnames _ (List.mem_cons_self ..)
  obtain ⟨hactive, -⟩ := h.items item (by rw [hphase]; exact List.mem_cons_self ..)
  have hothers : ∀ i ∈ items, i.run.runId ≠ item.run.runId := by
    intro i hi e
    exact (List.nodup_cons.mp hnodup).1 (List.mem_map.mpr ⟨i, hi, e⟩)
  -- Before its outcome is applied the item is set aside.
  have hrest : Sound { o with watcher := { o.watcher with phase := .after now items } } := by
    refine h.after ?_ ?_ ?_
    · intro b hmem
      rw [names_after] at hmem
      rw [hphase]
      exact List.mem_cons_of_mem _ hmem
    · rw [names_after]
      exact (List.nodup_cons.mp hnodup).2
    · intro i hi
      rw [hphase]
      exact List.mem_cons_of_mem _ hi
  have hafter : ∀ i ∈ (Phase.after now items).items, i.run.runId ≠ item.run.runId := by
    intro i hi
    cases items with
    | nil => cases hi
    | cons first rest => exact hothers i hi
  have hpromoting : ∀ cfg now' pins todo b x,
      Phase.after now items ≠ .promoting cfg now' pins todo b x := by
    intro _ _ _ _ _ _ he
    cases items <;> cases he
  have hanswer : ∀ now' i x rest, Phase.after now items ≠ .answered now' i (.ok x) rest := by
    intro _ _ _ _ he
    cases items <;> cases he
  cases hlaunched with
  | stale hstale => exact hrest
  | accepted x pend hok hpend =>
      cases hok
      obtain ⟨hanswered, hnew, hunused⟩ := h.answer _ _ _ _ hphase
      refine ⟨hrest.unique, ?_, hrest.pinned, ?_, ?_, hrest.names, hrest.nodup, ?_, hrest.pins,
        hrest.live, ?_, ?_, ?_⟩
      · exact Rows.launch h.rows rfl rfl rfl rfl hb hactive rfl rfl hanswered hnew hunused
      · intro b' hb'
        have hb' : ((o.watcher.pending.erase item.run.runId).get? b').isSome = true := hb'
        rw [Dict.get?_erase] at hb'
        split at hb'
        · cases hb'
        · exact h.pending b' hb'
      · intro b' hb'
        obtain ⟨hknown, hfree, hnot⟩ := hrest.dead b' hb'
        refine ⟨hknown, ?_, hnot⟩
        show (o.watcher.active.set item.run.runId _).get? b' = none
        rw [Dict.get?_set, if_neg]
        · exact hfree
        · rintro rfl
          refine (h.dead _ hb').2.2 ?_
          rw [hphase]
          exact List.mem_cons_self ..
      · intro entry he
        cases items <;> cases he
      · intro i hi
        obtain ⟨hfree, p, hp, hkeep⟩ := hrest.items i hi
        have hne := hafter i hi
        refine ⟨?_, p, ?_, hkeep⟩
        · show (o.watcher.active.set item.run.runId _).get? i.run.runId = none
          rw [Dict.get?_set, if_neg hne]
          exact hfree
        · show (o.watcher.pending.erase item.run.runId).get? i.run.runId = some p
          rw [Dict.get?_erase, if_neg hne]
          exact hp
      · exact fun _ _ _ _ _ _ he => absurd he (hpromoting _ _ _ _ _ _)
      · exact fun _ _ _ _ he => absurd he (hanswer _ _ _ _)
  | settled text error status pend hansw hpend hstatus =>
      exact hrest.skipped hb hactive hafter hpromoting hanswer pend.trigger
        { status := status, error := some error } hstatus item.build
  | retried text pend pend' hansw hpend htrigger hident hfree =>
      refine { hrest with pending := ?_, items := ?_ }
      · intro b' hb'
        have hb' : ((o.watcher.pending.set item.run.runId pend').get? b').isSome = true := hb'
        rw [Dict.get?_set] at hb'
        split at hb'
        · rename_i e
          rw [e]
          exact hb
        · exact h.pending b' hb'
      · intro i hi
        obtain ⟨hfree, p, hp, hkeep⟩ := hrest.items i hi
        refine ⟨hfree, p, ?_, hkeep⟩
        show (o.watcher.pending.set item.run.runId pend').get? i.run.runId = some p
        rw [Dict.get?_set, if_neg (hafter i hi)]
        exact hp

end Launch

theorem restart (h : Sound o) : Sound { o with watcher := o.watcher.resume } where
  unique := h.unique
  rows := h.rows.resume
  pinned := h.pinned
  pending b hb := by cases hb
  dead b hb := ⟨(h.dead b hb).1, h.rows.resume_free (h.dead b hb).2.1, List.not_mem_nil⟩
  names b hb := by cases hb
  nodup := List.nodup_nil
  todo entry he := by cases he
  pins b hb := by cases hb
  live _ _ _ _ _ _ _ he := by cases he
  items item hitem := by cases hitem
  promoting _ _ _ _ _ _ he := by cases he
  answer _ _ _ _ he := by cases he

/-- A stored run is not pinned. -/
theorem store (h : Sound o) (run : Run) (mine : Run → Bool) (n : ℕ) :
    Sound { o with
      watcher := { o.watcher with
        runs := keepNewest mine (·.baseline) n
          (if (o.watcher.readRun run.runId).isSome then o.watcher.runs
            else { run with baseline := false } :: o.watcher.runs) } } := by
  obtain ⟨hunique, hpinned, -⟩ := stored_runs h.unique run mine n
  exact h.runsChange hunique hpinned

/-- Every ordinary event keeps the watcher sound. -/
theorem step (h : Sound o) {tz : ℚ} {e : Event} {o' : Observed} (hordinary : Ordinary o e)
    (hstep : o.step tz e = some o') : Sound o' := by
  obtain ⟨s, hs, rfl⟩ := Option.map_eq_some_iff.mp hstep
  cases e with
  | wait now =>
      simp only [Watcher.step] at hs
      split at hs
      · cases hs
        exact h.frame rfl rfl rfl rfl rfl
      · cases hs
  | begin cfg =>
      simp only [Watcher.step] at hs
      split at hs
      · cases hs
        exact h.begin cfg _
      · cases hs
  | poll =>
      simp only [Watcher.step] at hs
      split at hs
      · rename_i cfg now pins rid act todo hphase
        cases hs
        exact h.poll hphase (polled cfg now pins rid act o.watcher)
      · cases hs
  | promote =>
      simp only [Watcher.step] at hs
      split at hs
      · rename_i cfg now pins todo b x hphase
        cases hs
        simp only [Observed.after, hphase]
        exact h.promote hphase
      · cases hs
  | plan buildOf hosts =>
      simp only [Watcher.step] at hs
      split at hs
      · rename_i cfg now pins hphase
        cases hs
        have hqueued := @queued_detect cfg o.watcher.pinned now buildOf o.watcher
        have hdetect := h.queued hqueued fun b hb => (h.mem_pinned hb).1
        generalize o.watcher.detectBuildChanges cfg o.watcher.pinned now buildOf =
          t at hqueued hdetect
        obtain ⟨schedule, hschedule⟩ := schedule_since_eq t cfg now
        have hpinned : ({ t with schedule := schedule } : Watcher).pinned = o.watcher.pinned := by
          unfold Watcher.pinned
          rw [← hqueued.runs]
        have hplan :=
          (hdetect.frame (s := { t with schedule := schedule }) rfl rfl rfl rfl rfl).toPlan
          cfg now (t.scheduleSince cfg now).2 hosts
        simp only [hschedule]
        rw [← hpinned]
        exact hplan
      · cases hs
  | prep build =>
      simp only [Watcher.step] at hs
      split at hs
      · rename_i cfg now since hosts b todo live items hphase
        cases hs
        exact h.prep hphase (BenchBaseline.planned cfg now since hosts build o.watcher b)
      · rename_i cfg now since hosts live items hphase
        cases hs
        exact h.planned hphase
      · cases hs
  | call answer =>
      simp only [Watcher.step] at hs
      split at hs
      · rename_i now item items hphase
        cases hs
        cases answer with
        | ok x => exact h.call hphase fun y hy => by cases hy; exact hordinary
        | error text => exact h.call hphase fun y hy => by cases hy
      · cases hs
  | apply =>
      simp only [Watcher.step] at hs
      split at hs
      · rename_i now item answer items hphase
        cases hs
        exact h.apply hphase (launched o.watcher now item answer)
      · cases hs
  | recheck runId =>
      simp only [Watcher.step] at hs
      split at hs
      · cases hs
        exact h.queued (queued_recheck runId) fun b hb => (h.mem_pinned hb).1
      · cases hs
  | quiet agentId seconds =>
      simp only [Watcher.step] at hs
      split at hs
      · cases hs
        exact h.frame rfl rfl rfl rfl rfl
      · cases hs
  | restart =>
      cases hs
      exact h.restart
  | pin runId => cases hordinary
  | delete runId =>
      cases hs
      exact h.runsChange ((List.filter_sublist.map _).nodup h.unique) fun r hr _ =>
        (List.mem_filter.mp hr).1
  | clear modelId agentId =>
      cases hs
      exact h.runsChange ((List.filter_sublist.map _).nodup h.unique) fun r hr _ =>
        (List.mem_filter.mp hr).1
  | store run =>
      cases hs
      exact h.store run _ _

end Sound

end SystemsManager.BenchBaseline
