import Mathlib.Tactic.Linarith
import SystemsManager.Concurrency.Reaches
import SystemsManager.Bench.Lineage

/-!
# Nightly checks

Whether the nightly check of a slot has been made is read off the newest settled row of an automatic
check, in a table of which only the newest rows stay. `Nights` is the watcher with the nightly
checks that agents have accepted, each under the first run of its line of promotions. Read
`nightly_once`: at most one per slot, as long as no row of a manual check pushes that newest row out
and no restart falls between an agent's answer and its record.
-/

namespace SystemsManager.BenchBaseline

open Python Sql Concurrency

/-- A nightly check that an agent has accepted: the first run of the line, the schedule, and when
its entry was created. -/
structure Launch where
  root : String
  nightlyAt : String
  born : ℚ
  deriving DecidableEq

/-- The watcher with the history of its nightly checks: for each run the first one of its line, for
each entry of `_pending` its schedule and the time of its creation. -/
structure Nights where
  observed : Observed
  root : String → String
  born : ℕ → String × ℚ
  launches : List Launch

namespace Nights

/-- The watcher. -/
abbrev watcher (n : Nights) : Watcher := n.observed.watcher

/-- The nightly checks that the answer of an agent adds. -/
def accepted (n : Nights) (item : Item) : List Launch :=
  if item.pend.trigger = .nightly then
    [⟨n.root item.run.runId, (n.born item.pend.ident).1, (n.born item.pend.ident).2⟩]
  else []

/-- The history after an event that leads to a new state. -/
def after (n : Nights) (e : Event) (o : Observed) : Nights :=
  match e, n.watcher.phase with
  | .prep _, .planning cfg _ _ _ _ _ _ =>
      -- A new entry has been created by a round that hands out an identity.
      if o.watcher.nextIdent = n.watcher.nextIdent then { n with observed := o }
      else
        { n with
          observed := o
          born := Function.update n.born n.watcher.nextIdent (cfg.nightlyAt, n.watcher.clock) }
  | .promote, .promoting _ _ _ _ b x =>
      { n with observed := o, root := Function.update n.root x (n.root b.runId) }
  | .call (.ok _), .launching _ (item :: _) =>
      { n with observed := o, launches := n.accepted item ++ n.launches }
  | _, _ => { n with observed := o }

/-- Nothing has happened yet. -/
def start (runs : List Run) (clock : ℚ) : Nights :=
  ⟨Observed.start runs clock, id, fun _ => ("", 0), []⟩

/-- One event. -/
def step (tz : ℚ) (n : Nights) (e : Event) : Option Nights :=
  (n.observed.step tz e).map (n.after e)

end Nights

/-- The newest settled row of an automatic check of a baseline, or of the one that promoted it. -/
def newestAuto (checks : List Check) (b : String) : Option Check :=
  checks.find? fun c => c.concerns b && c.autoSettled

/-- Fewer than 199 rows of the baseline are newer than its newest settled row of an automatic check,
if it has one. -/
def Room (checks : List Check) (b : String) : Prop :=
  (∀ c ∈ checks, c.baselineRunId = b → c.autoSettled = false) ∨
    ((checks.takeWhile fun c => !(c.baselineRunId = b && c.autoSettled)).filter
      fun c => c.baselineRunId = b).length < 199

instance (checks : List Check) (b : String) : Decidable (Room checks b) :=
  inferInstanceAs (Decidable (_ ∨ _))

/-- A slot of the schedule lies after the one time and not after the creation of the entry. -/
def Apart (tz : ℚ) (t : ℚ) (entry : String × ℚ) : Prop :=
  ∃ now slot, slotTs tz now entry.1 = some slot ∧ t < slot ∧ slot ≤ entry.2

/-- The nightly check of the baseline has been accepted, and its launch is not recorded yet. -/
def AcceptedNow (s : Watcher) (b : String) : Prop :=
  ∃ now item x items, s.phase = .answered now item (.ok x) items ∧ item.run.runId = b ∧
    item.pend.trigger = .nightly

/-- The nightly check that was created at `t` shows: an automatic check is in flight, the newest
settled row of one is not older, or its acceptance is not recorded yet. -/
def Shows (replaced : List String) (s : Watcher) (b : String) (t : ℚ) : Prop :=
  (∃ act, s.active.get? b = some act ∧ act.trigger.auto = true) ∨
    (∃ c, newestAuto s.checks b = some c ∧ t ≤ c.ts ∧
      (c.baselineRunId = b ∨ c.baselineRunId ∈ replaced)) ∨
    AcceptedNow s b

section Newest

variable {checks : List Check} {b b' : String} {c row : Check}

theorem last_auto_ts_eq (s : Watcher) (b : String) :
    s.lastAutoTs b = (newestAuto s.checks b).map (·.ts) := rfl

theorem find_of_sublist {p : Check → Bool} {part all : List Check} (hsub : part.Sublist all)
    (hnodup : all.Nodup) (hfind : all.find? p = some c) (hmem : c ∈ part) :
    part.find? p = some c := by
  induction hsub with
  | slnil => cases hmem
  | cons a hsub ih =>
      rw [List.nodup_cons] at hnodup
      rw [List.find?_cons] at hfind
      split at hfind
      · cases hfind
        exact absurd (hsub.subset hmem) hnodup.1
      · exact ih hnodup.2 hfind hmem
  | cons_cons a hsub ih =>
      rw [List.nodup_cons] at hnodup
      rw [List.find?_cons] at hfind ⊢
      split at hfind
      · exact hfind
      · rename_i hnot
        rcases List.mem_cons.mp hmem with rfl | hmem
        · have hpos := List.find?_some hfind
          rw [hnot] at hpos
          cases hpos
        · exact ih hnodup.2 hfind hmem

theorem nodup_of_sorted (hsorted : checks.Pairwise fun c d => d.id < c.id) : checks.Nodup :=
  hsorted.imp fun hlt e => absurd hlt (by rw [e]; exact Nat.lt_irrefl _)

theorem newest_auto_prune (hsorted : checks.Pairwise fun c d => d.id < c.id)
    (hnewest : newestAuto checks b = some c) (hkept : c ∈ pruneChecks b' checks) :
    newestAuto (pruneChecks b' checks) b = some c :=
  find_of_sublist (keep_newest_sublist _ _) (nodup_of_sorted hsorted) hnewest hkept

theorem newest_auto_of_newest (hsorted : checks.Pairwise fun c d => d.id < c.id) (hc : c ∈ checks)
    (hconcerns : c.concerns b = true) (hauto : c.autoSettled = true)
    (hnewer : ∀ d ∈ checks, d.concerns b = true → d.id ≤ c.id) : newestAuto checks b = some c := by
  obtain ⟨newer, older, rfl⟩ := List.append_of_mem hc
  refine List.find?_eq_some_iff_append.mpr ⟨by rw [hconcerns, hauto]; rfl, newer, older, rfl, ?_⟩
  intro d hd
  rw [Bool.not_eq_true', Bool.and_eq_false_iff]
  left
  rw [← Bool.not_eq_true]
  intro hd'
  have hle := hnewer d (List.mem_append_left _ hd) hd'
  have hlt := (List.pairwise_append.mp hsorted).2.2 d hd c (List.mem_cons_self ..)
  omega

theorem newest_auto_map {g : Check → Check} (hnewest : newestAuto checks b = some c) (hc : g c = c)
    (hg : ∀ d ∈ checks, (d.concerns b && d.autoSettled) = false →
      ((g d).concerns b && (g d).autoSettled) = false) :
    newestAuto (checks.map g) b = some c := by
  obtain ⟨hpos, newer, older, rfl, hnewer⟩ := List.find?_eq_some_iff_append.mp hnewest
  refine List.find?_eq_some_iff_append.mpr ⟨hpos, newer.map g, older.map g, ?_, ?_⟩
  · rw [List.map_append, List.map_cons, hc]
  · intro d' hd'
    obtain ⟨d, hd, rfl⟩ := List.mem_map.mp hd'
    rw [Bool.not_eq_true']
    exact hg d (List.mem_append_left _ hd) ((Bool.not_eq_true' _).mp (hnewer d hd))

theorem mem_prune_of_room (hroom : Room checks b) (hnewest : newestAuto checks b = some c)
    (hbase : c.baselineRunId = b) (row : Check) : c ∈ pruneChecks b (row :: checks) := by
  obtain ⟨hc, newer, older, rfl, hnewer⟩ := List.find?_eq_some_iff_append.mp hnewest
  rw [Bool.and_eq_true] at hc
  rcases hroom with hnone | hroom
  · have hnot := hnone c (List.mem_append_right _ (List.mem_cons_self ..)) hbase
    rw [hc.2] at hnot
    cases hnot
  · -- The rows that the condition counts are those before the newest.
    have htake : (newer ++ c :: older).takeWhile
        (fun c => !(decide (c.baselineRunId = b) && c.autoSettled)) = newer := by
      rw [List.takeWhile_append_of_pos, List.takeWhile_cons_of_neg, List.append_nil]
      · simp [hbase, hc.2]
      · intro d hd
        have hd := hnewer d hd
        rw [Bool.not_eq_true', Bool.and_eq_false_iff] at hd
        rw [Bool.not_eq_true', Bool.and_eq_false_iff]
        refine hd.imp_left fun hd => ?_
        rw [Check.concerns, Bool.or_eq_false_iff] at hd
        exact hd.1
    rw [htake] at hroom
    show c ∈ keepNewest _ _ 200 ((row :: newer) ++ c :: older)
    refine keep_newest_of_rank ?_
    rw [List.filter_cons]
    split
    · rw [List.length_cons]
      omega
    · omega

end Newest

section Few

variable {checks : List Check}

theorem few_insert (h : ∀ b, (checks.filter fun c => c.baselineRunId = b).length ≤ 200)
    (row : Check)
    (b : String) :
    ((pruneChecks row.baselineRunId (row :: checks)).filter fun c => c.baselineRunId = b).length ≤
      200 := by
  by_cases hb : b = row.baselineRunId
  · subst hb
    exact length_keep_newest _ _
  · refine ((keep_newest_sublist _ _).filter _).length_le.trans ?_
    rw [List.filter_cons_of_neg]
    · exact h b
    · simpa using fun e : row.baselineRunId = b => hb e.symm

theorem few_map (h : ∀ b, (checks.filter fun c => c.baselineRunId = b).length ≤ 200)
    {g : Check → Check} (hg : ∀ c, (g c).baselineRunId = c.baselineRunId) (b : String) :
    ((checks.map g).filter fun c => c.baselineRunId = b).length ≤ 200 := by
  rw [List.filter_map, List.length_map]
  refine le_of_eq_of_le (congrArg List.length (List.filter_congr fun c _ => ?_)) (h b)
  show decide ((g c).baselineRunId = b) = decide (c.baselineRunId = b)
  rw [hg]

theorem prune_of_few (h : ∀ b, (checks.filter fun c => c.baselineRunId = b).length ≤ 200)
    (b : String) : pruneChecks b checks = checks :=
  keep_newest_eq (h b)

end Few

section Shows

variable {baselines answered replaced : List String} {s s' : Watcher} {b : String} {t : ℚ}

theorem Shows.insert (h : Shows replaced s b t) (hrows : Rows baselines answered s.checks s.active)
    {row : Check} (hid : row.id = nextId s.checks) (hlive : row.baselineRunId ∉ replaced)
    (hpromoted : row.promoted = false) (hts : t ≤ row.ts)
    (hfree : s.active.get? row.baselineRunId = none)
    (hroom : row.trigger = .manual → Room s.checks row.baselineRunId)
    (hactive : ∀ a act, s.active.get? a = some act → s'.active.get? a = some act)
    (hlaunched : row.status = .running →
      ∃ act, s'.active.get? row.baselineRunId = some act ∧ act.trigger = row.trigger)
    (hchecks : s'.checks = pruneChecks row.baselineRunId (row :: s.checks))
    (haccepted : AcceptedNow s b → b = row.baselineRunId → row.trigger ≠ .manual)
    (hphase : AcceptedNow s b → b ≠ row.baselineRunId → AcceptedNow s' b) :
    Shows replaced s' b t := by
  have hsorted : (row :: s.checks).Pairwise fun c d => d.id < c.id := by
    refine List.pairwise_cons.mpr ⟨fun c hc => ?_, hrows.sorted⟩
    rw [hid]
    exact id_lt_next hrows.sorted hc
  -- The row is about its own baseline only.
  have hown : ∀ a, a ≠ row.baselineRunId → row.concerns a = false := by
    intro a ha
    rw [Check.concerns, hpromoted, Bool.and_false, Bool.or_false]
    exact decide_eq_false fun e => ha e.symm
  by_cases hb : b = row.baselineRunId
  · by_cases hauto : row.autoSettled = true
    · refine Or.inr (Or.inl ⟨row, ?_, hts, Or.inl hb.symm⟩)
      rw [hchecks]
      refine newest_auto_prune hsorted ?_ (mem_prune_head ..)
      refine List.find?_cons_of_pos ?_
      rw [Check.concerns, hauto, decide_eq_true hb.symm]
      rfl
    · by_cases hmanual : row.trigger = .manual
      · rcases h with ⟨act, hact, -⟩ | ⟨c, hnewest, hct, hwhose⟩ | hnow
        · rw [hb, hfree] at hact
          cases hact
        · refine Or.inr (Or.inl ⟨c, ?_, hct, hwhose⟩)
          rw [hchecks]
          refine newest_auto_prune hsorted ?_ ?_
          · refine (List.find?_cons_of_neg ?_).trans hnewest
            simp [Bool.eq_false_iff.mpr hauto]
          · by_cases hbase : c.baselineRunId = row.baselineRunId
            · refine mem_prune_of_room (hroom hmanual) ?_ hbase row
              rw [← hb]
              exact hnewest
            · exact mem_prune_of_ne (List.mem_cons_of_mem _ (List.mem_of_find?_eq_some hnewest))
                hbase
        · exact absurd hmanual (haccepted hnow hb)
      · -- A row of an automatic check that is not settled is that of a launch.
        have hrunning : row.status = .running := by
          by_contra hne
          refine hauto ?_
          rw [Check.autoSettled, decide_eq_true hne, Bool.and_true]
          cases htrigger : row.trigger with
          | nightly => rfl
          | build => rfl
          | manual => exact absurd htrigger hmanual
        obtain ⟨act, hact, htrigger⟩ := hlaunched hrunning
        refine Or.inl ⟨act, hb ▸ hact, ?_⟩
        rw [htrigger]
        cases htrigger : row.trigger with
        | nightly => rfl
        | build => rfl
        | manual => exact absurd htrigger hmanual
  · rcases h with ⟨act, hact, hauto⟩ | ⟨c, hnewest, hct, hwhose⟩ | hnow
    · exact Or.inl ⟨act, hactive b act hact, hauto⟩
    · refine Or.inr (Or.inl ⟨c, ?_, hct, hwhose⟩)
      rw [hchecks]
      refine newest_auto_prune hsorted ?_ ?_
      · refine (List.find?_cons_of_neg ?_).trans hnewest
        simp [hown b hb]
      · refine mem_prune_of_ne (List.mem_cons_of_mem _ (List.mem_of_find?_eq_some hnewest)) ?_
        rcases hwhose with hwhose | hwhose
        · exact fun e => hb (hwhose.symm.trans e)
        · exact fun e => hlive (e ▸ hwhose)
    · exact Or.inr (Or.inr (hphase hnow hb))

/-- A check in flight ends with its row settled: the row shows if the check was automatic, and else
the newest row does that did before. -/
theorem Shows.settle (h : Shows replaced s b t) (hrows : Rows baselines answered s.checks s.active)
    {rid : String} {act : Active} (hact : s.active.get? rid = some act)
    {f : Check → Check}
    (hf : ∀ c, (f c).id = c.id ∧ (f c).baselineRunId = c.baselineRunId ∧ (f c).runId = c.runId ∧
      (f c).status ≠ .running)
    (htrigger : ∀ c, (f c).trigger = c.trigger) (hts : ∀ c, t ≤ (f c).ts)
    (hrun : act.runId ≠ b) (hphase : ¬AcceptedNow s b)
    (hactive : s'.active = s.active.erase rid)
    (hchecks : s'.checks = s.checks.map fun c => if c.id = act.checkId then f c else c) :
    Shows replaced s' b t := by
  obtain ⟨row, hrow, hid, hbase, hrowrun, hstatus, hrowtrigger, -, hnewest⟩ :=
    hrows.active rid act hact
  have hsettled := hrows.settle hact hf
  have hmem : f row ∈ s'.checks := by
    rw [hchecks]
    exact List.mem_map.mpr ⟨row, hrow, if_pos hid⟩
  -- A row that was settled before stays, so the newest one stays unless the settled row is newer.
  have hold : ∀ c, newestAuto s.checks b = some c →
      ((f row).concerns b && (f row).autoSettled) = false → newestAuto s'.checks b = some c := by
    intro c hc hnot
    have hsame : ∀ d ∈ s.checks, d.id = act.checkId → d = row := fun d hd e =>
      eq_of_id hrows.sorted hd hrow (e.trans hid.symm)
    rw [hchecks]
    refine newest_auto_map hc (if_neg fun e => ?_) fun d hd hd' => ?_
    · have hpos := List.find?_some hc
      rw [hsame c (List.mem_of_find?_eq_some hc) e] at hpos
      simp [Check.autoSettled, hstatus] at hpos
    · split
      · rename_i e
        rw [hsame d hd e]
        exact hnot
      · exact hd'
  by_cases hb : b = rid
  · by_cases hauto : act.trigger.auto = true
    · refine Or.inr (Or.inl ⟨f row, ?_, hts row, Or.inl ?_⟩)
      · rw [hchecks]
        refine newest_auto_of_newest hsettled.sorted (hchecks ▸ hmem) ?_ ?_ ?_
        · rw [Check.concerns, (hf row).2.1, hbase, decide_eq_true hb.symm]
          rfl
        · rw [Check.autoSettled, htrigger, hrowtrigger, hauto, decide_eq_true (hf row).2.2.2]
          rfl
        · -- No newer row is one of the baseline or has it as its run.
          intro d hd hconcerns
          rw [Check.concerns, Bool.or_eq_true, Bool.and_eq_true] at hconcerns
          obtain ⟨d₀, hd₀, rfl⟩ := List.mem_map.mp hd
          rcases hconcerns with hown | ⟨hrun', -⟩
          · have hown := of_decide_eq_true hown
            by_cases hdid : d₀.id = act.checkId
            · rw [if_pos hdid, (hf d₀).1, (hf row).1, hdid, hid]
            · rw [if_neg hdid] at hown ⊢
              rw [(hf row).1]
              exact hnewest d₀ hd₀ (hown.trans hb)
          · refine Nat.le_of_lt (hsettled.later _ hd (f row) (hchecks ▸ hmem) ?_)
            rw [(hf row).2.1, hbase, ← hb]
            exact of_decide_eq_true hrun'
      · exact (hf row).2.1.trans (hbase.trans hb.symm)
    · rcases h with ⟨act', hact', hauto'⟩ | ⟨c, hc, hct, hwhose⟩ | hnow
      · rw [hb, hact] at hact'
        cases hact'
        exact absurd hauto' hauto
      · refine Or.inr (Or.inl ⟨c, hold c hc ?_, hct, hwhose⟩)
        rw [Check.autoSettled, htrigger, hrowtrigger, Bool.eq_false_iff.mpr hauto]
        simp
      · exact absurd hnow hphase
  · rcases h with ⟨act', hact', hauto'⟩ | ⟨c, hc, hct, hwhose⟩ | hnow
    · refine Or.inl ⟨act', ?_, hauto'⟩
      rw [hactive, Dict.get?_erase, if_neg hb]
      exact hact'
    · refine Or.inr (Or.inl ⟨c, hold c hc ?_, hct, hwhose⟩)
      have hother : (f row).concerns b = false := by
        rw [Check.concerns, (hf row).2.1, (hf row).2.2.1, hbase, hrowrun, Bool.or_eq_false_iff]
        refine ⟨decide_eq_false fun e => hb e.symm, ?_⟩
        rw [decide_eq_false]
        · rfl
        · exact fun e => hrun (Option.some.inj e)
      rw [hother]
      rfl
    · exact absurd hnow hphase

/-- A new process finds the rows of the old one: a check in flight is adopted, or its row is settled
as a failed one. -/
theorem Shows.resume (h : Shows replaced s b t) (hrows : Rows baselines answered s.checks s.active)
    (hnone : ¬AcceptedNow s b)
    (hlaunched : ∀ act, s.active.get? b = some act → act.trigger.auto = true → ∀ c ∈ s.checks,
      c.id = act.checkId → t ≤ c.ts) : Shows replaced s.resume b t := by
  have hfound := hrows.resume
  have hchecks : s.resume.checks = s.checks.map Check.found := rfl
  by_cases hflight : ∃ act, s.active.get? b = some act ∧ act.trigger.auto = true
  · obtain ⟨act, hact, hauto⟩ := hflight
    obtain ⟨row, hrow, hid, hbase, -, hstatus, htrigger, -, hnewest⟩ := hrows.active b act hact
    cases hlost : row.lost with
    | false =>
        refine Or.inl ⟨row.adopted s.clock, ?_, ?_⟩
        · exact (hrows.adopted b _).mpr ⟨row, hrow, hstatus, hlost, hbase, rfl⟩
        · show row.trigger.auto = true
          rw [htrigger]
          exact hauto
    | true =>
        obtain ⟨hfid, hfbase, -, hfts, hftrigger, -⟩ := found_same row
        have hmem : row.found ∈ s.checks.map Check.found := List.mem_map_of_mem hrow
        refine Or.inr (Or.inl ⟨row.found, ?_, ?_, Or.inl (hfbase.trans hbase)⟩)
        · rw [hchecks]
          refine newest_auto_of_newest hfound.sorted hmem ?_ ?_ ?_
          · rw [Check.concerns, hfbase, decide_eq_true hbase]
            rfl
          · have hfailed : row.found.status = .failed := by
              rw [Check.found, if_pos hlost]
            rw [Check.autoSettled, hftrigger, htrigger, hauto, hfailed]
            rfl
          · intro d' hd' hconcerns
            rw [Check.concerns, Bool.or_eq_true, Bool.and_eq_true] at hconcerns
            rcases hconcerns with hown | ⟨hrun, -⟩
            · obtain ⟨d, hd, rfl⟩ := List.mem_map.mp hd'
              rw [(found_same d).1, hfid]
              exact hnewest d hd ((found_same d).2.1.symm.trans (of_decide_eq_true hown))
            · refine Nat.le_of_lt (hfound.later d' hd' row.found hmem ?_)
              rw [hfbase, hbase]
              exact of_decide_eq_true hrun
        · rw [hfts]
          exact hlaunched act hact hauto row hrow hid
  · -- No row that is settled now counts, so the newest one stays.
    rcases h with hact | ⟨c, hc, hct, hwhose⟩ | hnow
    · exact absurd hact hflight
    · refine Or.inr (Or.inl ⟨c, ?_, hct, hwhose⟩)
      rw [hchecks]
      refine newest_auto_map hc ?_ fun d hd hd' => ?_
      · have hsettled := List.find?_some hc
        rw [Bool.and_eq_true, Check.autoSettled, Bool.and_eq_true] at hsettled
        rw [Check.found, if_neg]
        simp [Check.lost, of_decide_eq_true hsettled.2.2]
      · cases hlost : d.lost with
        | false =>
            rw [Check.found, if_neg (by rw [hlost]; exact Bool.false_ne_true)]
            exact hd'
        | true =>
            obtain ⟨-, hfbase, hfrun, -, hftrigger, hfpromoted⟩ := found_same d
            have hrunning : d.status = .running := by
              rw [Check.lost, Bool.and_eq_true] at hlost
              exact of_decide_eq_true hlost.1
            obtain ⟨hunpromoted, act, hact, hid⟩ := hrows.running d hd hrunning
            obtain ⟨-, -, -, htrigger, -⟩ := hrows.row hact hd hid.symm
            rw [Bool.and_eq_false_iff]
            by_cases hbase : d.baselineRunId = b
            · right
              rw [Check.autoSettled, hftrigger, htrigger, Bool.and_eq_false_iff]
              left
              rw [← Bool.not_eq_true]
              exact fun hauto => hflight ⟨act, hbase ▸ hact, hauto⟩
            · left
              rw [Check.concerns, hfbase, hfpromoted, hunpromoted, Bool.and_false, Bool.or_false]
              exact decide_eq_false hbase
    · exact absurd hnow hnone

end Shows

/-- What the part of the tick that is under way knows: a poll began after all nightly checks were
created, and a check that is to be promoted was recorded after that. -/
def Begun (launches : List Launch) (s : Watcher) : Prop :=
  match s.phase with
  | .polling _ now _ _ => now ≤ s.clock ∧ ∀ l ∈ launches, l.born ≤ now
  | .promoting _ now _ _ b x =>
      (now ≤ s.clock ∧ ∀ l ∈ launches, l.born ≤ now) ∧
      ∃ row ∈ s.checks, row.baselineRunId = b.runId ∧ row.runId = some x ∧ row.promoted = true ∧
        row.autoSettled = true ∧ ∀ l ∈ launches, l.born ≤ row.ts
  | .planning _ now _ _ _ _ _ => now ≤ s.clock
  | _ => True

/-- The check in flight for a baseline, if it is automatic, was launched after the nightly checks of
the baseline were created. -/
def LaunchedAfter (launches : List Launch) (root : String) (s : Watcher) (b : String) : Prop :=
  ∀ act, s.active.get? b = some act → act.trigger.auto = true → ∀ c ∈ s.checks,
    c.id = act.checkId → ∀ l ∈ launches, l.root = root → l.born ≤ c.ts

section InFlight

variable {launches : List Launch} {root b : String} {s s' : Watcher}
  {baselines answered : List String}

theorem LaunchedAfter.insert (h : LaunchedAfter launches root s b)
    (hsorted : s.checks.Pairwise fun c d => d.id < c.id) {row : Check} {b' : String}
    (hid : row.id = nextId s.checks) (hts : ∀ l ∈ launches, l.born ≤ row.ts)
    (hactive : ∀ act, s'.active.get? b = some act →
      s.active.get? b = some act ∨ act.checkId = row.id)
    (hchecks : s'.checks = pruneChecks b' (row :: s.checks)) :
    LaunchedAfter launches root s' b := by
  intro act hact hauto c hc hcid l hl hroot
  rw [hchecks] at hc
  rcases List.mem_cons.mp (mem_of_prune hc) with rfl | hc
  · exact hts l hl
  · rcases hactive act hact with hold | hnew
    · exact h act hold hauto c hc hcid l hl hroot
    · have hlt := id_lt_next hsorted hc
      omega

theorem LaunchedAfter.settle (h : LaunchedAfter launches root s b)
    (hrows : Rows baselines answered s.checks s.active) {rid : String} {act : Active}
    (hact : s.active.get? rid = some act) {f : Check → Check} (hf : ∀ c, (f c).id = c.id)
    (hactive : s'.active = s.active.erase rid)
    (hchecks : s'.checks = s.checks.map fun c => if c.id = act.checkId then f c else c) :
    LaunchedAfter launches root s' b := by
  intro act' hact' hauto c' hc' hcid l hl hroot
  rw [hactive, Dict.get?_erase] at hact'
  split at hact'
  · cases hact'
  · rename_i hne
    rw [hchecks] at hc'
    obtain ⟨c, hc, rfl⟩ := List.mem_map.mp hc'
    by_cases hid : c.id = act.checkId
    · -- It would be the row of two checks in flight.
      rw [if_pos hid, hf] at hcid
      have hbase := (hrows.row hact hc hid).1
      have hbase' := (hrows.row hact' hc hcid).1
      exact absurd (hbase'.symm.trans hbase) hne
    · rw [if_neg hid] at hcid ⊢
      exact h act' hact' hauto c hc hcid l hl hroot

theorem LaunchedAfter.resume (h : LaunchedAfter launches root s b)
    (hrows : Rows baselines answered s.checks s.active) :
    LaunchedAfter launches root s.resume b := by
  intro act hact hauto c' hc' hcid l hl hroot
  obtain ⟨row, hrow, hstatus, -, hbase, rfl⟩ := (hrows.adopted b act).mp hact
  obtain ⟨-, old, hold, hid⟩ := hrows.running row hrow hstatus
  rw [hbase] at hold
  obtain ⟨-, -, -, htrigger, -⟩ := hrows.row hold hrow hid.symm
  have hc' : c' ∈ s.checks.map Check.found := hc'
  obtain ⟨c, hc, rfl⟩ := List.mem_map.mp hc'
  rw [(found_same c).1] at hcid
  rw [(found_same c).2.2.2.1]
  refine h old hold ?_ c hc (hcid.trans hid.symm) l hl hroot
  rw [← htrigger]
  exact hauto

end InFlight

theorem Begun.wait {launches : List Launch} {s : Watcher} (h : Begun launches s) {now : ℚ}
    (hnow : s.clock ≤ now) : Begun launches { s with clock := now } := by
  unfold Begun at h ⊢
  show match s.phase with
    | .polling _ now' _ _ => now' ≤ now ∧ _
    | .promoting _ now' _ _ b x => (now' ≤ now ∧ _) ∧ _
    | .planning _ now' _ _ _ _ _ => now' ≤ now
    | _ => True
  cases hphase : s.phase with
  | polling cfg began pins todo =>
      rw [hphase] at h
      exact ⟨h.1.trans hnow, h.2⟩
  | promoting cfg began pins todo b x =>
      rw [hphase] at h
      exact ⟨⟨h.1.1.trans hnow, h.1.2⟩, h.2⟩
  | planning cfg began since hosts todo live items =>
      rw [hphase] at h
      exact le_trans h hnow
  | idle => trivial
  | launching began items => trivial
  | answered began item answer items => trivial

/-- What holds of the watcher and its nightly checks. -/
structure Punctual (tz : ℚ) (n : Nights) : Prop where
  sound : Sound n.observed
  few : ∀ b, (n.watcher.checks.filter fun c => c.baselineRunId = b).length ≤ 200
  injective : ∀ y z, y ∉ n.observed.replaced → z ∉ n.observed.replaced → n.root y = n.root z → y = z
  unused : ∀ x, x ∉ n.observed.baselines → n.root x = x ∧ ∀ l ∈ n.launches, l.root ≠ x
  past : ∀ l ∈ n.launches, l.born ≤ n.watcher.clock
  begun : Begun n.launches n.watcher
  idents : ∀ b p, n.watcher.pending.get? b = some p → p.ident < n.watcher.nextIdent
  created : ∀ b p, n.watcher.pending.get? b = some p → p.trigger = .nightly →
    (n.born p.ident).2 ≤ n.watcher.clock
  waiting : ∀ b p, b ∉ n.observed.replaced → n.watcher.pending.get? b = some p →
    p.trigger = .nightly → AcceptedNow n.watcher b ∨
      ∀ l ∈ n.launches, l.root = n.root b → Apart tz l.born (n.born p.ident)
  shown : ∀ b, b ∉ n.observed.replaced → ∀ l ∈ n.launches, l.root = n.root b →
    Shows n.observed.replaced n.watcher b l.born
  inflight : ∀ b, b ∉ n.observed.replaced → LaunchedAfter n.launches (n.root b) n.watcher b
  apart : n.launches.Pairwise fun l l' => l.root = l'.root →
    Apart tz l'.born (l.nightlyAt, l.born)

/-- The rows of manual checks that are recorded find room. -/
def Roomy (s s' : Watcher) : Prop :=
  ∀ c ∈ s'.checks, c.id = nextId s.checks → c.trigger = .manual → Room s.checks c.baselineRunId

instance (s s' : Watcher) : Decidable (Roomy s s') :=
  inferInstanceAs (Decidable (∀ c ∈ s'.checks, _ → _ → _))

/-- A restart falls between the acceptance of a nightly check and its record. -/
def lostByRestart (s : Watcher) (e : Event) : Bool :=
  match e, s.phase with
  | .restart, .answered _ item (.ok _) _ => item.pend.trigger = .nightly
  | _, _ => false

/-- Agents answer new run ids and nobody pins a run by hand; the rows of manual checks find room; no
restart falls between the acceptance of a nightly check and its record. -/
def Regular (tz : ℚ) (n : Nights) (e : Event) : Prop :=
  Ordinary n.observed e ∧ (∀ s' ∈ n.watcher.step tz e, Roomy n.watcher s') ∧
    lostByRestart n.watcher e = false

instance (tz : ℚ) (n : Nights) (e : Event) : Decidable (Regular tz n e) :=
  inferInstanceAs (Decidable (_ ∧ _ ∧ _))

namespace Punctual

variable {tz : ℚ} {n : Nights}

theorem start {runs : List Run} (hruns : (runs.map (·.runId)).Nodup) (clock : ℚ) :
    Punctual tz (Nights.start runs clock) where
  sound := Sound.start hruns clock
  few b := Nat.zero_le _
  injective _ _ _ _ h := h
  unused x hx := ⟨rfl, fun l hl => by cases hl⟩
  past l hl := by cases hl
  begun := trivial
  idents b p hp := by cases hp
  created b p hp := by cases hp
  waiting b p hb hp := by cases hp
  shown b hb l hl := by cases hl
  inflight b hb act hact := by cases hact
  apart := List.Pairwise.nil

theorem keep (h : Punctual tz n) {o : Observed} (hsound : Sound o)
    (hbaselines : o.baselines = n.observed.baselines) (hreplaced : o.replaced = n.observed.replaced)
    (hfew : ∀ b, (o.watcher.checks.filter fun c => c.baselineRunId = b).length ≤ 200)
    (hclock : n.watcher.clock ≤ o.watcher.clock) (hbegun : Begun n.launches o.watcher)
    (hpending : ∀ b p, o.watcher.pending.get? b = some p →
      p.ident < o.watcher.nextIdent ∧ (p.trigger = .nightly → ∃ p₀,
        n.watcher.pending.get? b = some p₀ ∧ p₀.trigger = .nightly ∧ p₀.ident = p.ident ∧
          (AcceptedNow n.watcher b → AcceptedNow o.watcher b)))
    (hshown : ∀ b, b ∉ n.observed.replaced → ∀ l ∈ n.launches, l.root = n.root b →
      Shows n.observed.replaced o.watcher b l.born)
    (hinflight : ∀ b, b ∉ n.observed.replaced → LaunchedAfter n.launches (n.root b) o.watcher b) :
    Punctual tz { n with observed := o } where
  sound := hsound
  few := hfew
  injective y z hy hz := h.injective y z (hreplaced ▸ hy) (hreplaced ▸ hz)
  unused x hx := h.unused x (hbaselines ▸ hx)
  past l hl := (h.past l hl).trans hclock
  begun := hbegun
  idents b p hp := (hpending b p hp).1
  created b p hp htrigger := by
    obtain ⟨p₀, hp₀, htrigger₀, hident, -⟩ := (hpending b p hp).2 htrigger
    exact hident ▸ (h.created b p₀ hp₀ htrigger₀).trans hclock
  waiting b p hb hp htrigger := by
    obtain ⟨p₀, hp₀, htrigger₀, hident, hnow⟩ := (hpending b p hp).2 htrigger
    refine (h.waiting b p₀ (hreplaced ▸ hb) hp₀ htrigger₀).imp hnow ?_
    exact fun hapart => hident ▸ hapart
  shown b hb := by
    show ∀ l ∈ n.launches, _ → Shows o.replaced o.watcher b l.born
    rw [hreplaced]
    exact hshown b (hreplaced ▸ hb)
  inflight b hb := hinflight b (hreplaced ▸ hb)
  apart := h.apart

theorem not_accepted {s : Watcher} {b : String}
    (h : ∀ now item x items, s.phase ≠ .answered now item (.ok x) items) : ¬AcceptedNow s b := by
  rintro ⟨now, item, x, items, hphase, -⟩
  exact h _ _ _ _ hphase

theorem run_unused (h : Punctual tz n) {b : String} {act : Active}
    (hact : n.watcher.active.get? b = some act) {b' : String} {l : Launch} (hl : l ∈ n.launches)
    (hroot : l.root = n.root b') : act.runId ≠ b' := by
  rintro rfl
  obtain ⟨-, -, -, -, -, -, -, hnew, -⟩ := h.sound.rows.active b act hact
  obtain ⟨hself, hnone⟩ := h.unused _ hnew
  exact hnone l hl (hroot.trans hself)

section Poll

variable {cfg : Config} {now : ℚ} {pins : List Run} {rid : String} {act : Active}
  {todo : List (String × Active)}

theorem settled_checks (h : Punctual tz n) (rid : String) (b : Run) (id : ℕ) (out : Outcome) :
    ((n.watcher.dropActive rid).settleCheck b id out).checks =
      n.watcher.checks.map fun c => if c.id = id then c.settled n.watcher.clock out else c := by
  refine prune_of_few (few_map h.few fun c => ?_) b.runId
  split <;> rfl

theorem poll (h : Punctual tz n)
    (hphase : n.watcher.phase = .polling cfg now pins ((rid, act) :: todo)) {s : Watcher}
    {promoted : Option (Run × String)} (hpolled : Polled now pins rid act n.watcher s promoted) :
    Punctual tz { n with
      observed := { n.observed with
        watcher := { s with phase := Phase.polled cfg now pins todo promoted } } } := by
  have hsound := h.sound.poll hphase hpolled
  obtain ⟨hruns, hclock, hquiet, hbuilds⟩ := hpolled.same
  have hbegun := h.begun
  unfold Begun at hbegun
  rw [hphase] at hbegun
  obtain ⟨hle, hborn⟩ := hbegun
  have hact : n.watcher.active.get? rid = some act :=
    h.sound.todo (rid, act) (by
      rw [show n.observed.watcher.phase = _ from hphase]
      exact List.mem_cons_self ..)
  have hrows := h.sound.rows
  have hnone : ∀ b, ¬AcceptedNow n.watcher b := by
    intro b
    refine not_accepted fun _ _ _ _ he => ?_
    rw [hphase] at he
    cases he
  -- What a settled row changes, with a time that is not before any nightly check.
  have hsettle : ∀ (f : Check → Check) (s' : Watcher),
      (∀ c, (f c).id = c.id ∧ (f c).baselineRunId = c.baselineRunId ∧ (f c).runId = c.runId ∧
        (f c).status ≠ .running) → (∀ c, (f c).trigger = c.trigger) →
      (∀ c, ∀ l ∈ n.launches, l.born ≤ (f c).ts) → s'.active = n.watcher.active.erase rid →
      (s'.checks = n.watcher.checks.map fun c => if c.id = act.checkId then f c else c) →
      s'.clock = n.watcher.clock → s'.pending = n.watcher.pending →
      s'.nextIdent = n.watcher.nextIdent → Sound { n.observed with watcher := s' } →
      Begun n.launches s' → Punctual tz
        { n with observed := { n.observed with watcher := s' } } := by
    intro f s' hf htrigger hts hactive hchecks hclock hpending hident hsound hbegun
    refine h.keep hsound rfl rfl ?_ (le_of_eq hclock.symm) hbegun ?_ ?_ ?_
    · intro b
      show (s'.checks.filter _).length ≤ 200
      rw [hchecks]
      refine few_map h.few (fun c => ?_) b
      split
      · exact (hf c).2.1
      · rfl
    · intro b p hp
      have hp : n.watcher.pending.get? b = some p := hpending ▸ hp
      refine ⟨hident ▸ h.idents b p hp, fun ht => ⟨p, hp, ht, rfl, fun hnow => ?_⟩⟩
      exact absurd hnow (hnone b)
    · intro b hb l hl hroot
      exact (h.shown b hb l hl hroot).settle hrows hact hf htrigger (fun c => hts c l hl)
        (h.run_unused hact hl hroot) (hnone b) hactive hchecks
    · intro b hb
      exact (h.inflight b hb).settle hrows hact (fun c => (hf c).1) hactive hchecks
  cases hpolled with
  | unpinned hpins =>
      exact hsettle
        (fun c => { c with ts := now, status := .skipped, error := some "baseline unpinned" })
        _ (fun c => ⟨rfl, rfl, rfl, by simp⟩) (fun c => rfl) (fun c => hborn) rfl rfl rfl rfl rfl
        hsound ⟨hle, hborn⟩
  | waiting =>
      refine h.keep hsound rfl rfl h.few le_rfl ⟨hle, hborn⟩ ?_ ?_ h.inflight
      · exact fun b p hp => ⟨h.idents b p hp, fun ht => ⟨p, hp, ht, rfl, fun hnow =>
          absurd hnow (hnone b)⟩⟩
      · intro b hb l hl hroot
        refine (h.shown b hb l hl hroot).imp_right fun hshown => hshown.imp_right fun hnow => ?_
        exact absurd hnow (hnone b)
  | settled b out hb hid hstatus hpromoted =>
      refine hsettle (fun c => c.settled n.watcher.clock out) _ (fun c => ⟨rfl, rfl, rfl, hstatus⟩)
        (fun c => rfl) (fun c => h.past) rfl ?_ rfl rfl rfl hsound ⟨hle, hborn⟩
      exact h.settled_checks rid b act.checkId out
  | promotes b out hb hid hstatus hpromoted htrigger =>
      refine hsettle (fun c => c.settled n.watcher.clock out) _ (fun c => ⟨rfl, rfl, rfl, hstatus⟩)
        (fun c => rfl) (fun c => h.past) rfl ?_ rfl rfl rfl hsound ⟨⟨hle, hborn⟩, ?_⟩
      · exact h.settled_checks rid b act.checkId out
      · obtain ⟨row, hrow, hrid, hbase, hrun, -, hrowtrigger, -⟩ := hrows.active rid act hact
        refine ⟨row.settled n.watcher.clock out, ?_, hbase.trans hid.symm, hrun, hpromoted, ?_,
          h.past⟩
        · show _ ∈ ((n.watcher.dropActive rid).settleCheck b act.checkId out).checks
          rw [h.settled_checks rid b act.checkId out]
          exact List.mem_map.mpr ⟨row, hrow, if_pos hrid⟩
        · show (row.trigger.auto && decide (out.status ≠ .running)) = true
          rw [hrowtrigger, htrigger, decide_eq_true hstatus]
          rfl

/-- A promotion: the new baseline goes on with the line, and the row of its check shows. -/
theorem promote (h : Punctual tz n) {b : Run} {x : String}
    (hphase : n.watcher.phase = .promoting cfg now pins todo b x) :
    Punctual tz { n with
      observed :=
        { n.observed with
          watcher := { n.watcher.pinRun b.modelId b.agentId x with
            phase := .polling cfg now pins todo }
          baselines := x :: n.observed.baselines
          replaced := b.runId :: n.observed.replaced }
      root := Function.update n.root x (n.root b.runId) } := by
  have hsound := h.sound.promote hphase
  obtain ⟨-, hnew, -, -⟩ := h.sound.promoting _ _ _ _ _ _ hphase
  have hbegun := h.begun
  unfold Begun at hbegun
  rw [hphase] at hbegun
  obtain ⟨⟨hle, hborn⟩, row, hrow, hbase, hrun, hpromoted, hauto, hts⟩ := hbegun
  have hlive : b.runId ∉ n.observed.replaced := by
    intro hmem
    refine (h.sound.dead _ hmem).2.2 ?_
    rw [show n.observed.watcher.phase = _ from hphase]
    exact List.mem_cons_self ..
  have hxlive : x ∉ n.observed.replaced := fun hmem => hnew (h.sound.dead x hmem).1
  have hnone : ∀ b, ¬AcceptedNow n.watcher b := by
    intro b'
    refine not_accepted fun _ _ _ _ he => ?_
    rw [hphase] at he
    cases he
  have hpend : n.watcher.pending.get? x = none := by
    cases hp : n.watcher.pending.get? x with
    | none => rfl
    | some p => exact absurd (h.sound.pending x (by rw [hp]; rfl)) hnew
  have hactive : n.watcher.active.get? x = none := by
    cases ha : n.watcher.active.get? x with
    | none => rfl
    | some act =>
        obtain ⟨c, hc, -, hcbase, -⟩ := h.sound.rows.active x act ha
        exact absurd (hcbase ▸ h.sound.rows.known c hc) hnew
  have hroot : ∀ y, y ≠ x → Function.update n.root x (n.root b.runId) y = n.root y :=
    fun y hy => Function.update_of_ne hy _ _
  refine ⟨hsound, h.few, ?_, ?_, h.past, ⟨hle, hborn⟩, h.idents, h.created, ?_, ?_, ?_, h.apart⟩
  · intro y z hy hz he
    obtain ⟨hyb, hy⟩ := not_or.mp (mt List.mem_cons.mpr hy)
    obtain ⟨hzb, hz⟩ := not_or.mp (mt List.mem_cons.mpr hz)
    have he : Function.update n.root x (n.root b.runId) y =
        Function.update n.root x (n.root b.runId) z := he
    by_cases hyx : y = x
    · by_cases hzx : z = x
      · rw [hyx, hzx]
      · rw [hroot z hzx, hyx, Function.update_self] at he
        exact absurd (h.injective _ _ hlive hz he).symm hzb
    · by_cases hzx : z = x
      · rw [hroot y hyx, hzx, Function.update_self] at he
        exact absurd (h.injective _ _ hy hlive he) hyb
      · rw [hroot y hyx, hroot z hzx] at he
        exact h.injective y z hy hz he
  · intro y hy
    obtain ⟨hyx, hy⟩ := not_or.mp (mt List.mem_cons.mpr hy)
    exact ⟨(hroot y hyx).trans (h.unused y hy).1, (h.unused y hy).2⟩
  · intro y p hy hp ht
    have hyx : y ≠ x := by
      rintro rfl
      rw [show n.watcher.pending.get? y = some p from hp] at hpend
      cases hpend
    right
    show ∀ l ∈ n.launches, l.root = Function.update n.root x (n.root b.runId) y → _
    rw [hroot y hyx]
    have hy : y ∉ n.observed.replaced := fun hmem => hy (List.mem_cons_of_mem _ hmem)
    exact (h.waiting y p hy hp ht).resolve_left (hnone y)
  · intro y hy l hl hlroot
    have hy' : y ∉ n.observed.replaced := fun hmem => hy (List.mem_cons_of_mem _ hmem)
    by_cases hyx : y = x
    · -- The row of the promoted check is the only one about its run.
      refine Or.inr (Or.inl ⟨row, ?_, hts l hl, Or.inr (hbase ▸ List.mem_cons_self ..)⟩)
      rw [hyx]
      refine newest_auto_of_newest h.sound.rows.sorted hrow ?_ hauto ?_
      · rw [Check.concerns, hpromoted, decide_eq_true hrun, Bool.and_self, Bool.or_true]
      · intro d hd hconcerns
        rw [Check.concerns, Bool.or_eq_true, Bool.and_eq_true] at hconcerns
        rcases hconcerns with hown | ⟨hrun', -⟩
        · exact absurd (of_decide_eq_true hown ▸ h.sound.rows.known d hd) hnew
        · rw [h.sound.rows.once d hd row hrow x (of_decide_eq_true hrun') hrun]
    · have hlroot : l.root = n.root y := hlroot.trans (hroot y hyx)
      rcases h.shown y hy' l hl hlroot with hact | ⟨c, hc, hct, hwhose⟩ | hnow
      · exact Or.inl hact
      · exact Or.inr (Or.inl ⟨c, hc, hct, hwhose.imp_right (List.mem_cons_of_mem _)⟩)
      · exact absurd hnow (hnone y)
  · intro y hy act hact hauto c hc hcid l hl hlroot
    have hyx : y ≠ x := by
      rintro rfl
      rw [show n.watcher.active.get? y = some act from hact] at hactive
      cases hactive
    have hy : y ∉ n.observed.replaced := fun hmem => hy (List.mem_cons_of_mem _ hmem)
    exact h.inflight y hy act hact hauto c hc hcid l hl (hlroot.trans (hroot y hyx))

end Poll

theorem queued (h : Punctual tz n) {runIds : List String} {trigger : Trigger} {s : Watcher}
    (hqueued : Queued runIds trigger n.watcher s) (htrigger : trigger ≠ .nightly)
    (hknown : ∀ b ∈ runIds, b ∈ n.observed.baselines) :
    Punctual tz { n with observed := { n.observed with watcher := s } } := by
  have haccepted : ∀ b, AcceptedNow n.watcher b → AcceptedNow s b := by
    rintro b ⟨now, item, x, items, hphase, hrest⟩
    exact ⟨now, item, x, items, hqueued.phase.trans hphase, hrest⟩
  refine h.keep (h.sound.queued hqueued hknown) rfl rfl ?_ (le_of_eq hqueued.clock.symm) ?_ ?_ ?_ ?_
  · intro b
    show (s.checks.filter _).length ≤ 200
    rw [hqueued.checks]
    exact h.few b
  · have hbegun := h.begun
    unfold Begun at hbegun ⊢
    show match s.phase with
      | .polling _ now _ _ => _
      | .promoting _ now _ _ b x => _
      | .planning _ now _ _ _ _ _ => _
      | _ => _
    rw [hqueued.phase, hqueued.checks, hqueued.clock]
    exact hbegun
  · intro b p hp
    rcases hqueued.pending b with hsame | ⟨-, -, p', hp', htrigger', -, hident⟩
    · have hp : n.watcher.pending.get? b = some p := hsame ▸ hp
      exact ⟨(h.idents b p hp).trans_le hqueued.idents, fun ht =>
        ⟨p, hp, ht, rfl, haccepted b⟩⟩
    · have hp : s.pending.get? b = some p := hp
      rw [hp'] at hp
      cases hp
      exact ⟨hident, fun ht => absurd (htrigger'.symm.trans ht) htrigger⟩
  · intro b hb l hl hroot
    have hold := h.shown b hb l hl hroot
    unfold Shows at hold ⊢
    show (∃ act, s.active.get? b = _ ∧ _) ∨ (∃ c, newestAuto s.checks b = _ ∧ _) ∨ _
    rw [hqueued.active, hqueued.checks]
    exact hold.imp_right fun hold => hold.imp_right (haccepted b)
  · intro b hb
    have hold := h.inflight b hb
    unfold LaunchedAfter at hold ⊢
    show ∀ act, s.active.get? b = _ → _ → ∀ c ∈ s.checks, _
    rw [hqueued.active, hqueued.checks]
    exact hold

theorem frame (h : Punctual tz n) {o : Observed} (hsound : Sound o)
    (hbaselines : o.baselines = n.observed.baselines) (hreplaced : o.replaced = n.observed.replaced)
    (hchecks : o.watcher.checks = n.watcher.checks) (hactive : o.watcher.active = n.watcher.active)
    (hclock : n.watcher.clock ≤ o.watcher.clock) (hbegun : Begun n.launches o.watcher)
    (hidents : n.watcher.nextIdent ≤ o.watcher.nextIdent)
    (hpending : ∀ b p, o.watcher.pending.get? b = some p → ∃ p₀,
      n.watcher.pending.get? b = some p₀ ∧ p₀.trigger = p.trigger ∧ p₀.ident = p.ident)
    (haccepted : ∀ b, AcceptedNow n.watcher b → AcceptedNow o.watcher b) :
    Punctual tz { n with observed := o } := by
  refine h.keep hsound hbaselines hreplaced ?_ hclock hbegun ?_ ?_ ?_
  · rw [hchecks]
    exact h.few
  · intro b p hp
    obtain ⟨p₀, hp₀, htrigger, hident⟩ := hpending b p hp
    refine ⟨hident ▸ (h.idents b p₀ hp₀).trans_le hidents, fun ht => ?_⟩
    exact ⟨p₀, hp₀, htrigger.trans ht, hident, haccepted b⟩
  · intro b hb l hl hroot
    have hold := h.shown b hb l hl hroot
    unfold Shows at hold ⊢
    rw [hchecks, hactive]
    exact hold.imp_right fun hold => hold.imp_right (haccepted b)
  · intro b hb
    have hold := h.inflight b hb
    unfold LaunchedAfter at hold ⊢
    rw [hchecks, hactive]
    exact hold

section Plan

variable {cfg : Config} {now : ℚ} {since : Option ℚ} {hosts : List Host} {b : Run} {todo : List Run}
  {live : List String} {items : List Item}

theorem planning_not_accepted {s : Watcher}
    (hphase : s.phase = .planning cfg now since hosts todo live items) (b : String) :
    ¬AcceptedNow s b := by
  refine not_accepted fun _ _ _ _ he => ?_
  rw [hphase] at he
  cases he

/-- A nightly check is queued: a slot lies between the earlier ones of the line and now. -/
theorem create (h : Punctual tz n)
    (hphase : n.watcher.phase = .planning cfg now since hosts (b :: todo) live items)
    (hactive : n.watcher.active.get? b.runId = none) (hpend : n.watcher.pending.get? b.runId = none)
    (hdue : nightlyDue tz now cfg.nightlyAt (n.watcher.lastAutoTs b.runId) since = true) :
    Punctual tz { n with
      observed := { n.observed with watcher := n.watcher.enqueue b.runId .nightly "" }
      born := Function.update n.born n.watcher.nextIdent (cfg.nightlyAt, n.watcher.clock) } := by
  have hname : b.runId ∈ n.observed.watcher.phase.names := by
    rw [show n.observed.watcher.phase = _ from hphase]
    exact List.mem_append_left _ (List.mem_cons_self ..)
  have hlive : b.runId ∉ n.observed.replaced := fun hmem => (h.sound.dead _ hmem).2.2 hname
  have hqueued : Queued [b.runId] .nightly n.watcher (n.watcher.enqueue b.runId .nightly "") :=
    Queued.enqueue "" (List.mem_singleton_self _) (by rw [hpend]; rfl)
  have hsound := h.sound.queued hqueued fun b' hb' =>
    List.mem_singleton.mp hb' ▸ h.sound.names _ hname
  have hnow : now ≤ n.watcher.clock := by
    have hbegun := h.begun
    unfold Begun at hbegun
    rw [hphase] at hbegun
    exact hbegun
  have hget : ∀ b' p, (n.watcher.enqueue b.runId .nightly "").pending.get? b' = some p →
      (b' = b.runId ∧ p.ident = n.watcher.nextIdent) ∨
        (n.watcher.pending.get? b' = some p ∧ p.ident < n.watcher.nextIdent) := by
    intro b' p hp
    have hp : (n.watcher.pending.set b.runId _).get? b' = some p := hp
    rw [Dict.get?_set] at hp
    split at hp
    · rename_i hb'
      cases hp
      exact Or.inl ⟨hb', rfl⟩
    · exact Or.inr ⟨hp, h.idents b' p hp⟩
  have hborn : ∀ p : Pending, p.ident < n.watcher.nextIdent →
      Function.update n.born n.watcher.nextIdent (cfg.nightlyAt, n.watcher.clock) p.ident =
        n.born p.ident :=
    fun p hp => Function.update_of_ne (Nat.ne_of_lt hp) _ _
  refine ⟨hsound, h.few, h.injective, h.unused, h.past, h.begun, ?_, ?_, ?_, h.shown, h.inflight,
    h.apart⟩
  · intro b' p hp
    show p.ident < n.watcher.nextIdent + 1
    rcases hget b' p hp with ⟨-, hident⟩ | ⟨-, hident⟩ <;> omega
  · intro b' p hp ht
    show (Function.update n.born _ _ p.ident).2 ≤ n.watcher.clock
    rcases hget b' p hp with ⟨-, hident⟩ | ⟨hp, hident⟩
    · rw [hident, Function.update_self]
    · rw [hborn p hident]
      exact h.created b' p hp ht
  · intro b' p hb' hp ht
    right
    show ∀ l ∈ n.launches, l.root = n.root b' →
      Apart tz l.born (Function.update n.born _ _ p.ident)
    rcases hget b' p hp with ⟨rfl, hident⟩ | ⟨hp, hident⟩
    · rw [hident, Function.update_self]
      intro l hl hroot
      -- The earlier check shows in the newest settled row, which is older than the slot.
      rcases h.shown b.runId hlive l hl hroot with ⟨act, hact, -⟩ | ⟨c, hc, hct, -⟩ | hnow
      · rw [hactive] at hact
        cases hact
      · unfold nightlyDue at hdue
        rw [last_auto_ts_eq, hc] at hdue
        split at hdue
        · cases hdue
        · rename_i slot hslot
          split at hdue
          · cases hdue
          · rename_i hpassed
            rw [not_or, not_lt] at hpassed
            refine ⟨now, slot, hslot, ?_, hpassed.1.trans hnow⟩
            exact lt_of_le_of_lt hct (of_decide_eq_true hdue)
      · exact absurd hnow (planning_not_accepted hphase _)
    · rw [hborn p hident]
      exact (h.waiting b' p hb' hp ht).resolve_left (planning_not_accepted hphase _)

theorem started (h : Punctual tz n)
    (hphase : n.watcher.phase = .planning cfg now since hosts (b :: todo) live items)
    (hactive : n.watcher.active.get? b.runId = none) {pend : Pending}
    (hpend : n.watcher.pending.get? b.runId = some pend) {s : Watcher} {item : Option Item}
    (hstart : Started b pend n.watcher s item) (hroomy : Roomy n.watcher s) :
    Punctual tz { n with
      observed := { n.observed with
        watcher := { s with
          phase := .planning cfg now since hosts todo live (items ++ item.toList) } } } := by
  have hsound := h.sound.started hphase hactive hpend hstart
  have hnow : now ≤ n.watcher.clock := by
    have hbegun := h.begun
    unfold Begun at hbegun
    rw [hphase] at hbegun
    exact hbegun
  have hnone := planning_not_accepted hphase
  have hlive : b.runId ∉ n.observed.replaced := by
    intro hmem
    refine (h.sound.dead _ hmem).2.2 ?_
    rw [show n.observed.watcher.phase = _ from hphase]
    exact List.mem_append_left _ (List.mem_cons_self ..)
  cases hstart with
  | waits =>
      exact h.frame hsound rfl rfl rfl rfl le_rfl hnow (Nat.le_refl _)
        (fun b' p hp => ⟨p, hp, rfl, rfl⟩) fun b' hb' => absurd hb' (hnone b')
  | skips error build =>
      refine h.keep hsound rfl rfl (few_insert h.few _) le_rfl hnow ?_ ?_ ?_
      · intro b' p hp
        have hp : (n.watcher.pending.erase b.runId).get? b' = some p := hp
        rw [Dict.get?_erase] at hp
        split at hp
        · cases hp
        · exact ⟨h.idents b' p hp, fun ht => ⟨p, hp, ht, rfl, fun hacc => absurd hacc (hnone b')⟩⟩
      · intro b' hb' l hl hroot
        refine (h.shown b' hb' l hl hroot).insert h.sound.rows rfl hlive rfl
          (h.past l hl) hactive ?_
          (fun _ _ hact => hact) (fun he => by cases he) rfl (fun hacc => absurd hacc (hnone b'))
          (fun hacc => absurd hacc (hnone b'))
        intro hmanual
        exact hroomy _ (mem_prune_head ..) rfl hmanual
      · intro b' hb'
        exact (h.inflight b' hb').insert h.sound.rows.sorted rfl h.past
          (fun act hact => Or.inl hact)
          rfl
  | item body build hfree =>
      refine h.frame hsound rfl rfl rfl rfl le_rfl hnow (Nat.le_refl _) ?_ fun b' hb' =>
        absurd hb' (hnone b')
      intro b' p hp
      have hp : (n.watcher.pending.set b.runId { pend with starting := true }).get? b' = some p :=
        hp
      rw [Dict.get?_set] at hp
      split at hp
      · rename_i hb'
        cases hp
        exact ⟨pend, hb' ▸ hpend, rfl, rfl⟩
      · exact ⟨p, hp, rfl, rfl⟩

theorem after_prep (build : String)
    (hphase : n.watcher.phase = .planning cfg now since hosts todo live items) (o : Observed) :
    n.after (.prep build) o =
      if o.watcher.nextIdent = n.watcher.nextIdent then { n with observed := o }
      else
        { n with
          observed := o
          born := Function.update n.born n.watcher.nextIdent (cfg.nightlyAt,
            n.watcher.clock) } := by
  simp only [Nights.after, hphase]

theorem started_ident {pend : Pending} {s s' : Watcher} {item : Option Item}
    (hstart : Started b pend s s' item) : s'.nextIdent = s.nextIdent := by
  cases hstart <;> rfl

/-- A round of the loop over the pinned runs. -/
theorem prep (h : Punctual tz n) (build : String)
    (hphase : n.watcher.phase = .planning cfg now since hosts (b :: todo) live items) {s : Watcher}
    {item : Option Item} (hplanned : Planned tz cfg now since b n.watcher s item)
    (hroomy : Roomy n.watcher s) :
    Punctual tz (n.after (.prep build) { n.observed with
      watcher := { s with
        phase := .planning cfg now since hosts todo live (items ++ item.toList) } }) := by
  rw [after_prep build hphase]
  have hsound := h.sound.prep hphase hplanned
  cases hplanned with
  | stays =>
      rw [if_pos rfl]
      have hnow : now ≤ n.watcher.clock := by
        have hbegun := h.begun
        unfold Begun at hbegun
        rw [hphase] at hbegun
        exact hbegun
      exact h.frame hsound rfl rfl rfl rfl le_rfl hnow (Nat.le_refl _)
        (fun b' p hp => ⟨p, hp, rfl, rfl⟩) fun b' hb' =>
          absurd hb' (planning_not_accepted hphase b')
  | known pend _ _ hactive hpend hstart =>
      rw [if_pos (started_ident hstart)]
      exact h.started hphase hactive hpend hstart hroomy
  | due _ _ hactive hpend hdue hstart =>
      have hident : s.nextIdent ≠ n.watcher.nextIdent := by
        rw [started_ident hstart]
        exact Nat.succ_ne_self _
      rw [if_neg hident]
      refine (h.create hphase hactive hpend hdue).started hphase hactive ?_ hstart hroomy
      show (n.watcher.pending.set b.runId _).get? b.runId = _
      rw [Dict.get?_set, if_pos rfl]

theorem planned (h : Punctual tz n)
    (hphase : n.watcher.phase = .planning cfg now since hosts [] live items) :
    Punctual tz { n with
      observed := { n.observed with
        watcher := { n.watcher with
          pending := n.watcher.pending.filter fun rid _ => live.contains rid
          phase := .after now items } } } := by
  refine h.frame (h.sound.planned hphase) rfl rfl rfl rfl le_rfl ?_ (Nat.le_refl _) ?_ fun b' hb' =>
    absurd hb' (planning_not_accepted hphase b')
  · cases items <;> trivial
  · intro b' p hp
    have hp : (n.watcher.pending.filter fun rid _ => live.contains rid).get? b' = some p := hp
    rw [Dict.get?_filter] at hp
    exact ⟨p, (Option.filter_eq_some_iff.mp hp).1, rfl, rfl⟩

end Plan

section Launch

variable {now : ℚ} {item : Item} {items : List Item}

/-- An agent answers. A nightly check that it accepts comes after a slot that the earlier ones of
the line came before. -/
theorem call (h : Punctual tz n) (hphase : n.watcher.phase = .launching now (item :: items))
    {answer : Except String String}
    (hnew : ∀ x, answer = .ok x → x ∉ n.observed.baselines ∧ x ∉ n.observed.answered) :
    Punctual tz { n with
      observed :=
        { n.observed with
          watcher := { n.watcher with phase := .answered now item answer items }
          answered := answer.toOption.toList ++ n.observed.answered }
      launches := match answer with
        | .ok _ => n.accepted item ++ n.launches
        | .error _ => n.launches } := by
  have hsound := h.sound.call hphase hnew
  have hnone : ∀ b, ¬AcceptedNow n.watcher b := by
    intro b
    refine not_accepted fun _ _ _ _ he => ?_
    rw [hphase] at he
    cases he
  have hquiet : Punctual tz { n with
      observed := { n.observed with
        watcher := { n.watcher with phase := .answered now item answer items }
        answered := answer.toOption.toList ++ n.observed.answered } } :=
    h.frame hsound rfl rfl rfl rfl le_rfl trivial (Nat.le_refl _)
      (fun b' p hp => ⟨p, hp, rfl, rfl⟩) fun b' hb' => absurd hb' (hnone b')
  cases answer with
  | error text => exact hquiet
  | ok x =>
      by_cases hnightly : item.pend.trigger = .nightly
      · have hitem : item ∈ n.observed.watcher.phase.items := by
          rw [show n.observed.watcher.phase = _ from hphase]
          exact List.mem_cons_self ..
        obtain ⟨hactive, p, hp, hident, htrigger, -⟩ := h.sound.items item hitem
        have hname : item.run.runId ∈ n.observed.watcher.phase.names := by
          rw [show n.observed.watcher.phase = _ from hphase]
          exact List.mem_cons_self ..
        have hknown := h.sound.names _ hname
        have hlive : item.run.runId ∉ n.observed.replaced :=
          fun hmem => (h.sound.dead _ hmem).2.2 hname
        have hp : n.watcher.pending.get? item.run.runId = some p := hp
        have hptrigger : p.trigger = .nightly := htrigger.trans hnightly
        have hborn := h.created _ p hp hptrigger
        have hapart := (h.waiting _ p hlive hp hptrigger).resolve_left (hnone _)
        rw [hident] at hborn hapart
        -- The acceptance is one of the line of this baseline and of no other.
        have hother : ∀ b, b ∉ n.observed.replaced → n.root item.run.runId = n.root b →
            b = item.run.runId := fun b hb hroot => (h.injective _ _ hlive hb hroot).symm
        have hnow : ∀ b, b = item.run.runId → AcceptedNow
            { n.watcher with phase := .answered now item (.ok x) items } b :=
          fun b hb => ⟨now, item, x, items, rfl, hb.symm, hnightly⟩
        have haccepted : n.accepted item ++ n.launches =
            ⟨n.root item.run.runId, (n.born item.pend.ident).1, (n.born item.pend.ident).2⟩ ::
              n.launches := by
          rw [Nights.accepted, if_pos hnightly]
          rfl
        simp only [haccepted]
        refine ⟨hsound, hquiet.few, hquiet.injective, ?_, ?_, trivial,
          hquiet.idents, hquiet.created,
          ?_, ?_, ?_, List.pairwise_cons.mpr ⟨?_, h.apart⟩⟩
        · intro y hy
          refine ⟨(h.unused y hy).1, ?_⟩
          rintro l (_ | ⟨_, hl⟩)
          · intro he
            have hylive : y ∉ n.observed.replaced := fun hmem => hy (h.sound.dead y hmem).1
            have hsame := hother y hylive (he.trans (h.unused y hy).1.symm)
            exact hy (hsame ▸ hknown)
          · exact (h.unused y hy).2 l hl
        · rintro l (_ | ⟨_, hl⟩)
          · exact hborn
          · exact h.past l hl
        · intro b q hb hq ht
          by_cases hbi : b = item.run.runId
          · exact Or.inl (hnow b hbi)
          · right
            rintro l (_ | ⟨_, hl⟩) hroot
            · exact absurd (hother b hb hroot) hbi
            · exact (h.waiting b q hb hq ht).resolve_left (hnone b) l hl hroot
        · rintro b hb l (_ | ⟨_, hl⟩) hroot
          · exact Or.inr (Or.inr (hnow b (hother b hb hroot)))
          · exact hquiet.shown b hb l hl hroot
        · rintro b hb act hact hauto c hc hcid l (_ | ⟨_, hl⟩) hroot
          · have hact : n.watcher.active.get? b = some act := hact
            rw [hother b hb hroot, hactive] at hact
            cases hact
          · exact h.inflight b hb act hact hauto c hc hcid l hl hroot
        · intro l hl hroot
          exact hapart l hl hroot.symm
      · have hempty : n.accepted item ++ n.launches = n.launches := by
          rw [Nights.accepted, if_neg hnightly]
          rfl
        simp only [hempty]
        exact hquiet

/-- The outcome of a call is applied. -/
theorem apply (h : Punctual tz n) {answer : Except String String}
    (hphase : n.watcher.phase = .answered now item answer items) {s : Watcher}
    (hlaunched : Launched now item answer n.watcher s) (hroomy : Roomy n.watcher s) :
    Punctual tz { n with
      observed := { n.observed with watcher := { s with phase := .after now items } } } := by
  have hsound := h.sound.apply hphase hlaunched
  have hitem : item ∈ n.observed.watcher.phase.items := by
    rw [show n.observed.watcher.phase = _ from hphase]
    exact List.mem_cons_self ..
  obtain ⟨hactive, p, hp, hident, htrigger, -⟩ := h.sound.items item hitem
  have hactive : n.watcher.active.get? item.run.runId = none := hactive
  have hp : n.watcher.pending.get? item.run.runId = some p := hp
  have hlive : item.run.runId ∉ n.observed.replaced := by
    intro hmem
    refine (h.sound.dead _ hmem).2.2 ?_
    rw [show n.observed.watcher.phase = _ from hphase]
    exact List.mem_cons_self ..
  have hbegun : ∀ s : Watcher, s.phase = .after now items → Begun n.launches s := by
    intro s hs
    unfold Begun
    rw [hs]
    cases items <;> trivial
  -- The acceptance that this outcome records, if it is one.
  have hnow : ∀ b, AcceptedNow n.watcher b →
      b = item.run.runId ∧ item.pend.trigger = .nightly ∧ ∃ x, answer = .ok x := by
    rintro b ⟨now', item', x, items', he, hb, ht⟩
    rw [hphase] at he
    cases he
    exact ⟨hb.symm, ht, x, rfl⟩
  have herase : ∀ b q, (n.watcher.pending.erase item.run.runId).get? b = some q →
      b ≠ item.run.runId ∧ n.watcher.pending.get? b = some q := by
    intro b q hq
    rw [Dict.get?_erase] at hq
    split at hq
    · cases hq
    · rename_i hb
      exact ⟨hb, hq⟩
  have hothers : ∀ b q, (n.watcher.pending.erase item.run.runId).get? b = some q →
      q.ident < n.watcher.nextIdent ∧ (q.trigger = .nightly → ∃ p₀,
        n.watcher.pending.get? b = some p₀ ∧ p₀.trigger = .nightly ∧ p₀.ident = q.ident ∧
          (AcceptedNow n.watcher b → AcceptedNow { s with phase := .after now items } b)) := by
    intro b q hq
    obtain ⟨hb, hq⟩ := herase b q hq
    exact ⟨h.idents b q hq, fun ht => ⟨q, hq, ht, rfl, fun hacc => absurd (hnow b hacc).1 hb⟩⟩
  cases hlaunched with
  | stale hstale =>
      rw [hp] at hstale
      exact absurd hident (of_decide_eq_true hstale)
  | accepted x pend hok hpend =>
      have hpp : pend = p := Option.some.inj (hpend.symm.trans hp)
      refine h.keep hsound rfl rfl (few_insert h.few _) le_rfl (hbegun _ rfl) hothers ?_ ?_
      · intro b hb l hl hroot
        refine (h.shown b hb l hl hroot).insert h.sound.rows rfl hlive rfl (h.past l hl) hactive ?_
          ?_ ?_ rfl ?_ ?_
        · exact fun hmanual => hroomy _ (mem_prune_head ..) rfl hmanual
        · intro a act hact
          show (n.watcher.active.set item.run.runId _).get? a = some act
          rw [Dict.get?_set, if_neg]
          · exact hact
          · rintro rfl
            rw [hactive] at hact
            cases hact
        · intro _
          refine ⟨⟨x, now, pend.trigger, item.build, pend.buildFrom,
            nextId n.watcher.checks⟩, ?_, rfl⟩
          show (n.watcher.active.set item.run.runId _).get? item.run.runId = _
          rw [Dict.get?_set, if_pos rfl]
        · intro hacc _ hmanual
          have hmanual : pend.trigger = .manual := hmanual
          rw [hpp, htrigger, (hnow b hacc).2.1] at hmanual
          cases hmanual
        · exact fun hacc hb => absurd (hnow b hacc).1 hb
      · intro b hb
        refine (h.inflight b hb).insert h.sound.rows.sorted rfl h.past (fun act hact => ?_) rfl
        have hact : (n.watcher.active.set item.run.runId _).get? b = some act := hact
        rw [Dict.get?_set] at hact
        split at hact
        · cases hact
          exact Or.inr rfl
        · exact Or.inl hact
  | settled text error status pend hansw hpend hstatus =>
      have hnone : ∀ b, ¬AcceptedNow n.watcher b := by
        intro b hacc
        obtain ⟨x, hx⟩ := (hnow b hacc).2.2
        rw [hansw] at hx
        cases hx
      refine h.keep hsound rfl rfl (few_insert h.few _) le_rfl (hbegun _ rfl) hothers ?_ ?_
      · intro b hb l hl hroot
        refine (h.shown b hb l hl hroot).insert h.sound.rows rfl hlive rfl (h.past l hl) hactive ?_
          (fun _ _ hact => hact) (fun he =>
            absurd he hstatus) rfl (fun hacc => absurd hacc (hnone b))
          (fun hacc => absurd hacc (hnone b))
        exact fun hmanual => hroomy _ (mem_prune_head ..) rfl hmanual
      · intro b hb
        exact (h.inflight b hb).insert h.sound.rows.sorted rfl h.past (fun act hact => Or.inl hact)
          rfl
  | retried text pend pend' hansw hpend htrigger' hident' hfree =>
      refine h.frame hsound rfl rfl rfl rfl le_rfl (hbegun _ rfl) (Nat.le_refl _) ?_ ?_
      · intro b q hq
        have hq : (n.watcher.pending.set item.run.runId pend').get? b = some q := hq
        rw [Dict.get?_set] at hq
        split at hq
        · rename_i hb
          cases hq
          exact ⟨pend, hb ▸ hpend, htrigger'.symm, hident'.symm⟩
        · exact ⟨q, hq, rfl, rfl⟩
      · intro b hacc
        obtain ⟨x, hx⟩ := (hnow b hacc).2.2
        rw [hansw] at hx
        cases hx

end Launch

theorem restart (h : Punctual tz n) (hlost : lostByRestart n.watcher .restart = false) :
    Punctual tz { n with observed := { n.observed with watcher := n.watcher.resume } } := by
  have hnone : ∀ b, ¬AcceptedNow n.watcher b := by
    rintro b ⟨now, item, x, items, hphase, -, ht⟩
    simp only [lostByRestart, hphase] at hlost
    exact absurd ht (of_decide_eq_false hlost)
  refine h.keep h.sound.restart rfl rfl ?_ le_rfl trivial ?_ ?_ ?_
  · exact fun b => few_map h.few (fun c => (found_same c).2.1) b
  · intro b p hp
    cases hp
  · intro b hb l hl hroot
    refine (h.shown b hb l hl hroot).resume h.sound.rows (hnone b) ?_
    exact fun act hact hauto c hc hid => h.inflight b hb act hact hauto c hc hid l hl hroot
  · intro b hb
    exact (h.inflight b hb).resume h.sound.rows

/-- The loop over the pinned runs begins. -/
theorem plan (h : Punctual tz n) {cfg : Config} {now : ℚ} {pins : List Run}
    (hphase : n.watcher.phase = .polling cfg now pins []) (buildOf : String → String)
    (hosts : List Host) :
    Punctual tz { n with
      observed := { n.observed with
        watcher :=
          let scheduled :=
            (n.watcher.detectBuildChanges cfg n.watcher.pinned now buildOf).scheduleSince cfg now
          { scheduled.1 with
            phase := .planning cfg now scheduled.2 hosts n.watcher.pinned
              (n.watcher.pinned.map (·.runId)) [] } } } := by
  have hqueued := @queued_detect cfg n.watcher.pinned now buildOf n.watcher
  have hdetect := h.queued hqueued (by decide) fun b hb => (h.sound.mem_pinned hb).1
  have hnow : now ≤ n.watcher.clock := by
    have hbegun := h.begun
    unfold Begun at hbegun
    rw [hphase] at hbegun
    exact hbegun.1
  generalize n.watcher.detectBuildChanges cfg n.watcher.pinned now buildOf = t at hqueued hdetect
  obtain ⟨schedule, hschedule⟩ := schedule_since_eq t cfg now
  have hpinned : ({ t with schedule := schedule } : Watcher).pinned = n.watcher.pinned := by
    unfold Watcher.pinned
    rw [← hqueued.runs]
  have hsound :=
    (hdetect.sound.frame (s := { t with schedule := schedule }) rfl rfl rfl rfl rfl).toPlan
    cfg now (t.scheduleSince cfg now).2 hosts
  simp only [hschedule]
  rw [← hpinned]
  refine hdetect.frame hsound rfl rfl rfl rfl le_rfl ?_ (Nat.le_refl _)
    (fun b p hp => ⟨p, hp, rfl, rfl⟩) ?_
  · show now ≤ t.clock
    rw [hqueued.clock]
    exact hnow
  · rintro b ⟨now', item, x, items, he, -⟩
    have he : t.phase = _ := he
    rw [hqueued.phase, hphase] at he
    cases he

theorem step (h : Punctual tz n) {e : Event} {n' : Nights} (hregular : Regular tz n e)
    (hstep : n.step tz e = some n') : Punctual tz n' := by
  obtain ⟨o, ho, rfl⟩ := Option.map_eq_some_iff.mp hstep
  obtain ⟨s, hs, rfl⟩ := Option.map_eq_some_iff.mp ho
  obtain ⟨hordinary, hroomy, hlost⟩ := hregular
  have hroomy : Roomy n.watcher s := hroomy s hs
  have hs : n.watcher.step tz e = some s := hs
  have hpending : ∀ b p, n.watcher.pending.get? b = some p → ∃ p₀,
      n.watcher.pending.get? b = some p₀ ∧ p₀.trigger = p.trigger ∧ p₀.ident = p.ident :=
    fun b p hp => ⟨p, hp, rfl, rfl⟩
  cases e with
  | wait now =>
      simp only [Watcher.step] at hs
      split at hs
      · rename_i hle
        cases hs
        exact h.frame (h.sound.frame rfl rfl rfl rfl rfl) rfl rfl rfl rfl hle (h.begun.wait hle)
          (Nat.le_refl _) hpending fun b hb => hb
      · cases hs
  | begin cfg =>
      simp only [Watcher.step] at hs
      split at hs
      · rename_i hphase
        cases hs
        refine h.frame (h.sound.begin cfg _) rfl rfl rfl rfl le_rfl ⟨le_rfl, h.past⟩ (Nat.le_refl _)
          hpending ?_
        rintro b ⟨now, item, x, items, he, -⟩
        rw [hphase] at he
        cases he
      · cases hs
  | poll =>
      simp only [Watcher.step] at hs
      split at hs
      · rename_i cfg now pins rid act todo hphase
        cases hs
        exact h.poll hphase (polled cfg now pins rid act n.watcher)
      · cases hs
  | promote =>
      simp only [Watcher.step] at hs
      split at hs
      · rename_i cfg now pins todo b x hphase
        cases hs
        have hpromote := h.promote hphase
        simp only [Nights.after, Observed.after, hphase]
        exact hpromote
      · cases hs
  | plan buildOf hosts =>
      simp only [Watcher.step] at hs
      split at hs
      · rename_i cfg now pins hphase
        cases hs
        exact h.plan hphase buildOf hosts
      · cases hs
  | prep build =>
      simp only [Watcher.step] at hs
      split at hs
      · rename_i cfg now since hosts b todo live items hphase
        cases hs
        exact h.prep build hphase
          (BenchBaseline.planned cfg now since hosts build n.watcher b) hroomy
      · rename_i cfg now since hosts live items hphase
        cases hs
        rw [after_prep build hphase, if_pos]
        · exact h.planned hphase
        · rfl
      · cases hs
  | call answer =>
      simp only [Watcher.step] at hs
      split at hs
      · rename_i now item items hphase
        cases hs
        cases answer with
        | ok x =>
            have hnew : ∀ y, Except.ok (ε := String) x = .ok y →
                y ∉ n.observed.baselines ∧ y ∉ n.observed.answered := by
              intro y hy
              cases hy
              exact hordinary
            have hcall := h.call hphase hnew
            simp only [Nights.after, Observed.after, hphase]
            exact hcall
        | error text =>
            have hnew : ∀ y, Except.error text = Except.ok (α := String) y →
                y ∉ n.observed.baselines ∧ y ∉ n.observed.answered := by
              intro y hy
              cases hy
            exact h.call hphase hnew
      · cases hs
  | apply =>
      simp only [Watcher.step] at hs
      split at hs
      · rename_i now item answer items hphase
        cases hs
        exact h.apply hphase (launched n.watcher now item answer) hroomy
      · cases hs
  | recheck runId =>
      simp only [Watcher.step] at hs
      split at hs
      · cases hs
        exact h.queued (queued_recheck runId) (by decide) fun b hb => (h.sound.mem_pinned hb).1
      · cases hs
  | quiet agentId seconds =>
      simp only [Watcher.step] at hs
      split at hs
      · cases hs
        exact h.frame (h.sound.frame rfl rfl rfl rfl rfl) rfl rfl rfl rfl le_rfl h.begun
          (Nat.le_refl _) hpending fun b hb => hb
      · cases hs
  | restart =>
      cases hs
      exact h.restart hlost
  | pin runId => cases hordinary
  | delete runId =>
      cases hs
      refine h.frame (h.sound.runsChange ((List.filter_sublist.map _).nodup h.sound.unique) ?_) rfl
        rfl
        rfl rfl le_rfl h.begun (Nat.le_refl _) hpending fun b hb => hb
      exact fun r hr _ => (List.mem_filter.mp hr).1
  | clear modelId agentId =>
      cases hs
      refine h.frame (h.sound.runsChange ((List.filter_sublist.map _).nodup h.sound.unique) ?_) rfl
        rfl
        rfl rfl le_rfl h.begun (Nat.le_refl _) hpending fun b hb => hb
      exact fun r hr _ => (List.mem_filter.mp hr).1
  | store run =>
      cases hs
      exact h.frame (h.sound.store run _ _) rfl rfl rfl rfl le_rfl h.begun (Nat.le_refl _) hpending
        fun b hb => hb

end Punctual

/-- The nightly checks of a line that were accepted and whose entries were created at or after this
slot and before the next. -/
def Nights.inSlot (n : Nights) (root hhmm : String) (slot : ℚ) : List Launch :=
  n.launches.filter fun l =>
    l.root = root && l.nightlyAt = hhmm && slot ≤ l.born && l.born < slot + 86400

theorem slots_apart {tz now now' : ℚ} {hhmm : String} {slot slot' : ℚ}
    (h : slotTs tz now hhmm = some slot) (h' : slotTs tz now' hhmm = some slot') :
    ∃ days : ℤ, slot' = slot + days * 86400 := by
  unfold slotTs at h h'
  split at h
  · rename_i hour minute hparse
    rw [hparse] at h'
    cases h
    cases h'
    refine ⟨⌊(now' + tz) / 86400⌋ - ⌊(now + tz) / 86400⌋, ?_⟩
    push_cast
    ring
  · cases h

theorem not_apart_of_slot {tz now : ℚ} {hhmm : String} {slot t t' : ℚ}
    (hslot : slotTs tz now hhmm = some slot) (ht : slot ≤ t) (ht' : t' < slot + 86400) :
    ¬Apart tz t (hhmm, t') := by
  rintro ⟨now', slot', hslot', hlt, hle⟩
  obtain ⟨days, rfl⟩ := slots_apart hslot hslot'
  have hle : slot + days * 86400 ≤ t' := hle
  -- The other slot would be less than a day later.
  have hpos : (0 : ℚ) < days := by linarith
  have hone : (days : ℚ) < 1 := by linarith
  have hpos : 0 < days := by exact_mod_cast hpos
  have hone : days < 1 := by exact_mod_cast hone
  omega

section Samples

/-- The settings of the samples. -/
def nightConfig : Config where
  enabled := true
  nightlyAt := "02:00"
  onBuildChange := true
  promoteOnBuildChange := true
  regressionPct := 10

/-- A tick with these hosts for one pinned run, up to the first call of an agent. -/
def nightTick (hosts : List Host) : List Event :=
  [.plan (fun _ => "") hosts, .prep "", .prep ""]

/-- A night of the first run of `twoRuns`, which the agent answers with this run id. -/
def nightCheck (runId : String) : List Event :=
  .begin nightConfig ::
    nightTick [{ agentId := "a1", online := true, model := "m", models := [], state := "ready" }] ++
      [.call (.ok runId), .apply]

/-- A tick before the slot records the schedule. -/
def armed : List Event := .begin nightConfig :: nightTick [] ++ [.wait 180000]

/-- The run of a check is stored, and the check is recorded. -/
def nightDone (runId : String) : List Event :=
  [.store { runId := runId, modelId := "m", agentId := "a1", provider := "llama", ok := true
            baseline := false, genTps := some 100, spreadMin := none, config := [] },
    .begin nightConfig, .poll] ++ nightTick []

/-- A re-check of the first run by hand while its host is offline. -/
def offlineRecheck : List Event := [.recheck (some "r1"), .begin nightConfig] ++ nightTick []

end Samples

end SystemsManager.BenchBaseline
