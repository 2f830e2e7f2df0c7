import SystemsManager.History
import SystemsManager.Autopilot.Eviction

/-!
# What a plan charges to a host

Every load and scale-up of a plan is charged to the VRAM or to the RAM budget of its agent. A
displaced resident gives memory back, but only to the comparison: the budget itself goes down
by the full size, and the slot passes to a managed model, so that no resident is given back
twice. `Accounted` relates the budgets and the resident table of a pass to the actions emitted
so far, `WithinBudgets` is the bound on a finished plan, and `plan_within_budgets` is the
theorem to read first.
-/

namespace SystemsManager.Autopilot

open Python Relation

/-- The action is charged to the RAM budget of its agent. -/
def Action.usesRam (act : Action) (observed : Observed) : Bool :=
  usesRamBudget act.provider act.model observed act.agentId

/-- The size of the action's model. -/
def Action.sizeMb (act : Action) (observed : Observed) : Int :=
  (modelSizeMb observed act.provider act.model).getD 0

/-- The actions that put a model on the agent and are charged to its RAM budget, or to its VRAM
budget. -/
def charged (observed : Observed) (ram : Bool) (aid : String) (acts : List Action) :
    List Action :=
  acts.filter fun act => act.kind.places && act.agentId == aid && act.usesRam observed == ram

/-- The sum of the sizes. -/
def totalMb (observed : Observed) (acts : List Action) : Int :=
  (acts.map fun act => act.sizeMb observed).sum

/-- The resident table after one action. -/
def takeSlot (res : Residents) (act : Action) : Residents :=
  if act.kind.places && act.provider.singleResident then
    res.set (act.provider, act.agentId) act.model
  else res

namespace Inputs

variable (inp : Inputs)

/-- The resident table after the given actions. -/
def residentsAfter (acts : List Action) : Residents :=
  acts.foldl takeSlot (residents inp.desired inp.observed (some inp.ledger) (some inp.now))

/-- The unmanaged resident that an action displaces after the actions `before`. -/
def displaced (before : List Action) (act : Action) : Option String :=
  displacedBy act.provider act.model act.agentId (inp.residentsAfter before) inp.managed

/-- The displaced resident, when its memory is given back to the action's own budget. -/
def credited (before : List Action) (act : Action) : Option String :=
  (inp.displaced before act).filter fun cur =>
    usesRamBudget act.provider cur inp.observed act.agentId == act.usesRam inp.observed

/-- The size of the credited resident, zero if there is none. -/
def creditedMb (before : List Action) (act : Action) : Int :=
  match inp.credited before act with
  | some cur => (modelSizeMb inp.observed act.provider cur).getD 0
  | none => 0

/-- The budgets and the comparison that let the action pass after the actions `before`. -/
def Paid (before : List Action) (act : Action) : Prop :=
  act.kind.places = true →
    (act.provider, act.model) ∈ inp.managed ∧
    totalMb inp.observed (charged inp.observed (act.usesRam inp.observed) act.agentId before) +
        act.sizeMb inp.observed + VRAM_HEADROOM_MB ≤
      (if act.usesRam inp.observed then (initState inp).budgets.freeRam
        else (initState inp).budgets.free).getD act.agentId 0 +
      displaceCredit act.provider act.model act.agentId (inp.residentsAfter before) inp.managed
        inp.observed

end Inputs

/-- What a plan may charge to its agents. -/
structure WithinBudgets (inp : Inputs) (acts : List Action) : Prop where
  /-- The VRAM charges fit the host's memory. -/
  vram : ∀ aid a, inp.observed.agents.get? aid = some a →
    charged inp.observed false aid acts ≠ [] →
    totalMb inp.observed (charged inp.observed false aid acts) + VRAM_HEADROOM_MB ≤
      max a.vramTotalMb a.vramFreeMb
  /-- Without a displacement on the agent they fit its free memory. -/
  vram_free : ∀ aid a, inp.observed.agents.get? aid = some a →
    charged inp.observed false aid acts ≠ [] →
    Each (fun before act => act.kind.places = true → act.agentId = aid →
      inp.displaced before act = none) acts →
    totalMb inp.observed (charged inp.observed false aid acts) + VRAM_HEADROOM_MB ≤ a.vramFreeMb
  /-- The RAM charges fit the free RAM and what the last of them gets back. -/
  ram : ∀ aid a, inp.observed.agents.get? aid = some a →
    ∀ before act after, acts = before ++ act :: after →
    act ∈ charged inp.observed true aid acts → charged inp.observed true aid after = [] →
    totalMb inp.observed (charged inp.observed true aid acts) + VRAM_HEADROOM_MB ≤
      a.ramFreeMb.getD 0 + inp.creditedMb before act
  /-- A slot whose resident was credited has none to credit again. -/
  once : ∀ before act between act' after,
    acts = before ++ act :: between ++ act' :: after →
    act.kind.places = true → act'.kind.places = true →
    act'.provider = act.provider → act'.agentId = act.agentId →
    inp.credited before act ≠ none → inp.credited (before ++ act :: between) act' = none

/-- What the passes know about the actions emitted so far. -/
structure Accounted (inp : Inputs) (st : PassState) : Prop where
  residents : st.budgets.residents = inp.residentsAfter st.actions
  free : ∀ aid, st.budgets.free.getD aid 0 = (initState inp).budgets.free.getD aid 0 -
    totalMb inp.observed (charged inp.observed false aid st.actions)
  freeRam : ∀ aid, st.budgets.freeRam.getD aid 0 = (initState inp).budgets.freeRam.getD aid 0 -
    totalMb inp.observed (charged inp.observed true aid st.actions)
  paid : Each inp.Paid st.actions

theorem total_mb_append (observed : Observed) (xs ys : List Action) :
    totalMb observed (xs ++ ys) = totalMb observed xs + totalMb observed ys := by
  unfold totalMb
  rw [List.map_append, List.sum_append]

/-- Charges are collected in order. -/
theorem charged_append (observed : Observed) (ram : Bool) (aid : String) (xs ys : List Action) :
    charged observed ram aid (xs ++ ys) =
      charged observed ram aid xs ++ charged observed ram aid ys :=
  List.filter_append _ _

variable {acts : List Action} {observed : Observed} {aid : String} {ram : Bool}

theorem charged_eq_nil (h : ∀ act ∈ acts, act.kind.places = false) :
    charged observed ram aid acts = [] := by
  unfold charged
  rw [List.filter_eq_nil_iff]
  intro act hact
  simp [h act hact]

theorem take_slots_of_not_places (res : Residents) (h : ∀ act ∈ acts, act.kind.places = false) :
    acts.foldl takeSlot res = res := by
  induction acts with
  | nil => rfl
  | cons act rest ih =>
      have hact : takeSlot res act = res := by simp [takeSlot, h act (List.mem_cons_self ..)]
      rw [List.foldl_cons, hact]
      exact ih fun x hx => h x (List.mem_cons_of_mem _ hx)

theorem Inputs.residents_after_append (inp : Inputs) (xs ys : List Action) :
    inp.residentsAfter (xs ++ ys) = ys.foldl takeSlot (inp.residentsAfter xs) :=
  List.foldl_append

variable {inp : Inputs}

theorem Accounted.append {st st' : PassState} (hacc : Accounted inp st)
    (hacts : st'.actions = st.actions ++ acts) (hbudgets : st'.budgets = st.budgets)
    (h : ∀ act ∈ acts, act.kind.places = false) :
    Accounted inp st' where
  residents := by
    rw [hacts, hbudgets, inp.residents_after_append, take_slots_of_not_places _ h]
    exact hacc.residents
  free aid := by
    rw [hacts, hbudgets, charged_append, charged_eq_nil h, List.append_nil]
    exact hacc.free aid
  freeRam aid := by
    rw [hacts, hbudgets, charged_append, charged_eq_nil h, List.append_nil]
    exact hacc.freeRam aid
  paid := by
    rw [hacts]
    refine each_append hacc.paid ?_
    intro act hact before hplaces
    rw [h act hact] at hplaces
    cases hplaces

variable {act : Action}

theorem charged_singleton (hplaces : act.kind.places = true) :
    totalMb observed (charged observed ram aid [act]) =
      if aid = act.agentId ∧ act.usesRam observed = ram then act.sizeMb observed else 0 := by
  unfold charged totalMb
  by_cases hc : aid = act.agentId ∧ act.usesRam observed = ram
  · simp [hc.1, hc.2, hplaces]
  · rw [if_neg hc, List.filter_cons_of_neg]
    · rfl
    · simp only [hplaces, Bool.true_and, Bool.and_eq_true, beq_iff_eq]
      exact fun h => hc ⟨h.1.symm, h.2⟩

/-- What a placement leaves in the VRAM budget. -/
theorem commit_budget_free (e : Entry) (aid other : String) (size : Option Int) (b : Budgets)
    (observed : Observed) :
    (commitBudget e aid size b observed).free.getD other 0 = b.free.getD other 0 -
      if other = aid ∧ usesRamBudget e.provider e.model observed aid = false
      then size.getD 0 else 0 := by
  unfold commitBudget
  cases usesRamBudget e.provider e.model observed aid with
  | true => simp
  | false =>
      by_cases h : other = aid
      · simp [h]
      · simp [h]

/-- What a placement leaves in the RAM budget. -/
theorem commit_budget_free_ram (e : Entry) (aid other : String) (size : Option Int) (b : Budgets)
    (observed : Observed) :
    (commitBudget e aid size b observed).freeRam.getD other 0 = b.freeRam.getD other 0 -
      if other = aid ∧ usesRamBudget e.provider e.model observed aid = true
      then size.getD 0 else 0 := by
  unfold commitBudget
  cases usesRamBudget e.provider e.model observed aid with
  | false => simp
  | true =>
      by_cases h : other = aid
      · simp [h]
      · simp [h]

theorem Accounted.paid_of_admits {st : PassState} (hacc : Accounted inp st) {e : Entry}
    {kind : ActionKind} {reason aid : String} (he : e ∈ inp.desired.entries)
    (hadmits : admits inp e st.budgets aid = true) :
    inp.Paid st.actions (placeAction inp e kind reason aid) := by
  intro _
  refine ⟨Inputs.entry_managed he, ?_⟩
  simp only [admits, Bool.and_eq_true] at hadmits
  obtain ⟨⟨⟨hsome, -⟩, -⟩, hfit⟩ := hadmits
  obtain ⟨a, ha⟩ := Option.isSome_iff_exists.mp hsome
  simp only [fitAndSize, ha, Bool.and_eq_true, decide_eq_true_eq, hacc.residents] at hfit
  have hbound := hfit.2
  unfold Budgets.available at hbound
  simp only [Action.usesRam, Action.sizeMb, placeAction]
  by_cases hram : usesRamBudget e.provider e.model inp.observed aid = true
  · simp only [hram, if_true, hacc.freeRam] at hbound ⊢
    omega
  · rw [Bool.not_eq_true] at hram
    simp only [hram, Bool.false_eq_true, if_false, hacc.free] at hbound ⊢
    omega

theorem Accounted.place {st : PassState} (hacc : Accounted inp st) {e : Entry} {kind : ActionKind}
    {purpose reason aid : String} {migrations : Int} (he : e ∈ inp.desired.entries)
    (hkind : kind.places = true) (hadmits : admits inp e st.budgets aid = true) :
    Accounted inp
      { placement inp e kind purpose reason st aid with migrations := migrations } := by
  -- The wake in front of the placement changes no account; the placement itself does.
  have hwoken : Accounted inp { st with actions := st.actions ++ wakeFirst inp e aid purpose } :=
    hacc.append rfl rfl fun act => wake_first_places
  have hcharge : ∀ ram other, totalMb inp.observed (charged inp.observed ram other
      [placeAction inp e kind reason aid]) =
      if other = aid ∧ usesRamBudget e.provider e.model inp.observed aid = ram
      then (modelSizeMb inp.observed e.provider e.model).getD 0 else 0 :=
    fun ram other => charged_singleton hkind
  refine ⟨?_, ?_, ?_, ?_⟩
  · show (if e.provider.singleResident then st.budgets.residents.set (e.provider, aid) e.model
      else st.budgets.residents) = inp.residentsAfter
        (st.actions ++ wakeFirst inp e aid purpose ++ [placeAction inp e kind reason aid])
    rw [inp.residents_after_append, ← hwoken.residents, List.foldl_cons, List.foldl_nil]
    simp [takeSlot, placeAction, hkind]
  · intro other
    show (commitBudget e aid _ st.budgets inp.observed).free.getD other 0 = _ - totalMb _ (charged _
      _ _ (st.actions ++ wakeFirst inp e aid purpose ++ [placeAction inp e kind reason aid]))
    have hleft := hwoken.free other
    rw [commit_budget_free, charged_append, total_mb_append, hcharge]
    simp only [fitAndSize] at hleft ⊢
    omega
  · intro other
    show (commitBudget e aid _ st.budgets inp.observed).freeRam.getD other 0 = _ - totalMb _
      (charged _ _ _ (st.actions ++ wakeFirst inp e aid purpose ++
        [placeAction inp e kind reason aid]))
    have hleft := hwoken.freeRam other
    rw [commit_budget_free_ram, charged_append, total_mb_append, hcharge]
    simp only [fitAndSize] at hleft ⊢
    omega
  · show Each _ (st.actions ++ wakeFirst inp e aid purpose ++ [placeAction inp e kind reason aid])
    rw [each_concat]
    exact ⟨hwoken.paid, hwoken.paid_of_admits he hadmits⟩

/-- Nothing is charged at the start. -/
theorem accounted_init (inp : Inputs) : Accounted inp (initState inp) where
  residents := rfl
  free aid := by simp [initState, charged, totalMb]
  freeRam aid := by simp [initState, charged, totalMb]
  paid := each_nil

theorem Accounted.move {st st' : PassState} (hacc : Accounted inp st) (h : Move inp st st') :
    Accounted inp st' := by
  cases h with
  | note k placed => exact ⟨hacc.residents, hacc.free, hacc.freeRam, hacc.paid⟩
  | place e kind purpose reason aid migrations he hkind heligible hadmits =>
      exact hacc.place he hkind hadmits
  | reclaim act hdown =>
      refine hacc.append rfl rfl ?_
      intro act' hact'
      rw [List.mem_singleton.mp hact', hdown]
      rfl

theorem passes_accounted {st : PassState} (h : Moves inp (initState inp) st) :
    Accounted inp st := by
  induction h with
  | refl => exact accounted_init _
  | tail _ hmove ih => exact ih.move hmove

theorem mem_charged :
    act ∈ charged observed ram aid acts ↔ act ∈ acts ∧ act.kind.places = true ∧
      act.agentId = aid ∧ act.usesRam observed = ram := by
  simp [charged, and_assoc]

theorem exists_last_charge (h : charged observed ram aid acts ≠ []) :
    ∃ before act after, acts = before ++ act :: after ∧
      act ∈ charged observed ram aid acts ∧ charged observed ram aid after = [] := by
  induction acts using List.reverseRecOn with
  | nil => exact absurd rfl h
  | append_singleton acts last ih =>
      by_cases hlast : last ∈ charged observed ram aid (acts ++ [last])
      · exact ⟨acts, last, [], rfl, hlast, rfl⟩
      · have hnil : charged observed ram aid [last] = [] := by
          rw [List.eq_nil_iff_forall_not_mem]
          intro act hact
          have hmem := mem_charged.mp hact
          rw [List.mem_singleton] at hmem
          obtain ⟨rfl, hrest⟩ := hmem
          exact hlast (mem_charged.mpr ⟨by simp, hrest⟩)
        rw [charged_append, hnil, List.append_nil] at h
        obtain ⟨before, act, after, rfl, hact, hafter⟩ := ih h
        refine ⟨before, act, after ++ [last], by simp, ?_, ?_⟩
        · rw [charged_append]
          exact List.mem_append_left _ hact
        · rw [charged_append, hafter, hnil, List.append_nil]

theorem total_of_last_charge {before after : List Action}
    (hpaid : Each inp.Paid (before ++ act :: after))
    (hact : act ∈ charged inp.observed ram aid (before ++ act :: after))
    (hafter : charged inp.observed ram aid after = []) :
    totalMb inp.observed (charged inp.observed ram aid (before ++ act :: after)) +
        VRAM_HEADROOM_MB ≤
      (if ram then (initState inp).budgets.freeRam
        else (initState inp).budgets.free).getD aid 0 +
      displaceCredit act.provider act.model act.agentId (inp.residentsAfter before) inp.managed
        inp.observed := by
  obtain ⟨-, hplaces, rfl, rfl⟩ := mem_charged.mp hact
  have hpay := (hpaid before act after rfl hplaces).2
  have hsum : totalMb inp.observed (charged inp.observed (act.usesRam inp.observed) act.agentId
      (before ++ act :: after)) = totalMb inp.observed (charged inp.observed
        (act.usesRam inp.observed) act.agentId before) + act.sizeMb inp.observed := by
    have hsplit : before ++ act :: after = before ++ [act] ++ after := by simp
    rw [hsplit, charged_append, charged_append, hafter, List.append_nil, total_mb_append,
      charged_singleton hplaces, if_pos ⟨rfl, rfl⟩]
  rw [hsum]
  exact hpay

theorem init_free {a : Agent} (h : inp.observed.agents.get? aid = some a) :
    (initState inp).budgets.free.getD aid 0 = a.vramFreeMb := by
  simp [initState, initBudgets, Dict.getD, h]

theorem init_free_ram {a : Agent} (h : inp.observed.agents.get? aid = some a) :
    (initState inp).budgets.freeRam.getD aid 0 = a.ramFreeMb.getD 0 := by
  simp [initState, initBudgets, Dict.getD, h]

theorem displace_credit_eq_zero {provider : Provider} {model aid : String} {res : Residents}
    {managed : Managed} (h : displacedBy provider model aid res managed = none) :
    displaceCredit provider model aid res managed observed = 0 := by
  simp [displaceCredit, h]

theorem displace_credit_le_used {provider : Provider} {model aid : String} {res : Residents}
    {managed : Managed} {a : Agent} (ha : observed.agents.get? aid = some a)
    (hvram : usesRamBudget provider model observed aid = false) :
    displaceCredit provider model aid res managed observed ≤
      max (a.vramTotalMb - a.vramFreeMb) 0 := by
  unfold displaceCredit
  split
  · exact le_max_right _ _
  · simp only [hvram, ha, Bool.false_eq_true, if_false]
    split
    · exact le_max_right _ _
    · split
      · exact min_le_right _ _
      · exact le_refl _

theorem displace_credit_ram {before : List Action} (hram : act.usesRam inp.observed = true) :
    displaceCredit act.provider act.model act.agentId (inp.residentsAfter before) inp.managed
      inp.observed = inp.creditedMb before act := by
  unfold displaceCredit Inputs.creditedMb Inputs.credited Inputs.displaced
  cases displacedBy act.provider act.model act.agentId (inp.residentsAfter before) inp.managed with
  | none => rfl
  | some cur =>
      rw [hram]
      unfold Action.usesRam at hram
      by_cases hcur : usesRamBudget act.provider cur inp.observed act.agentId = true
      · simp [hram, hcur, Option.filter]
      · simp [hram, hcur, Option.filter]

theorem residents_after_managed (hpaid : Each inp.Paid acts) (hact : act ∈ acts)
    (hplaces : act.kind.places = true) (hsingle : act.provider.singleResident = true) :
    ∃ model, (inp.residentsAfter acts).get? (act.provider, act.agentId) = some model ∧
      (act.provider, model) ∈ inp.managed := by
  induction acts using List.reverseRecOn with
  | nil => cases hact
  | append_singleton acts last ih =>
      rw [each_concat] at hpaid
      rw [inp.residents_after_append, List.foldl_cons, List.foldl_nil]
      unfold takeSlot
      by_cases hlast : (last.kind.places && last.provider.singleResident) = true
      · rw [if_pos hlast, Dict.get?_set]
        by_cases hk : (act.provider, act.agentId) = (last.provider, last.agentId)
        · rw [if_pos hk]
          rw [Bool.and_eq_true] at hlast
          refine ⟨last.model, rfl, ?_⟩
          rw [(Prod.mk.inj hk).1]
          exact (hpaid.2 hlast.1).1
        · rw [if_neg hk]
          rcases List.mem_append.mp hact with h | h
          · exact ih hpaid.1 h
          · rw [List.mem_singleton.mp h] at hk
            exact absurd rfl hk
      · rw [if_neg hlast]
        rcases List.mem_append.mp hact with h | h
        · exact ih hpaid.1 h
        · rw [← List.mem_singleton.mp h] at hlast
          simp [hplaces, hsingle] at hlast

theorem credited_once {before between after : List Action} {act act' : Action}
    (hpaid : Each inp.Paid (before ++ act :: between ++ act' :: after))
    (hplaces : act.kind.places = true) (hprov : act'.provider = act.provider)
    (haid : act'.agentId = act.agentId) (hcredit : inp.credited before act ≠ none) :
    inp.credited (before ++ act :: between) act' = none := by
  unfold Inputs.credited at hcredit ⊢
  by_cases hsingle : act.provider.singleResident = true
  · have hpast : Each inp.Paid (before ++ act :: between) := by
      intro b x a hb
      refine hpaid b x (a ++ act' :: after) ?_
      rw [hb]
      simp
    obtain ⟨model, hslot, hmanaged⟩ := residents_after_managed hpast
      (List.mem_append_right _ (List.mem_cons_self ..)) hplaces hsingle
    have hnone : inp.displaced (before ++ act :: between) act' = none := by
      unfold Inputs.displaced displacedBy
      rw [hprov, haid, if_pos hsingle, hslot]
      simp [hmanaged]
    rw [hnone]
    rfl
  · have hnone : inp.displaced before act = none := by
      unfold Inputs.displaced displacedBy
      rw [if_neg hsingle]
    rw [hnone] at hcredit
    exact absurd rfl hcredit

theorem within_budgets_of_paid (hpaid : Each inp.Paid acts) : WithinBudgets inp acts := by
  refine ⟨?_, ?_, ?_, ?_⟩
  · intro aid a ha hne
    obtain ⟨before, act, after, rfl, hact, hafter⟩ := exists_last_charge hne
    have htotal := total_of_last_charge hpaid hact hafter
    obtain ⟨-, -, rfl, hvram⟩ := mem_charged.mp hact
    have hcredit : displaceCredit act.provider act.model act.agentId (inp.residentsAfter before)
        inp.managed inp.observed ≤ max (a.vramTotalMb - a.vramFreeMb) 0 :=
      displace_credit_le_used ha hvram
    simp only [Bool.false_eq_true, if_false, init_free ha] at htotal
    omega
  · intro aid a ha hne hkeep
    obtain ⟨before, act, after, rfl, hact, hafter⟩ := exists_last_charge hne
    have htotal := total_of_last_charge hpaid hact hafter
    obtain ⟨-, hplaces, rfl, -⟩ := mem_charged.mp hact
    rw [displace_credit_eq_zero (hkeep before act after rfl hplaces rfl)] at htotal
    simp only [Bool.false_eq_true, if_false, init_free ha] at htotal
    omega
  · rintro aid a ha before act after rfl hact hafter
    have htotal := total_of_last_charge hpaid hact hafter
    obtain ⟨-, -, rfl, hram⟩ := mem_charged.mp hact
    rw [displace_credit_ram hram] at htotal
    simp only [if_true, init_free_ram ha] at htotal
    exact htotal
  · rintro before act between act' after rfl hplaces - hprov haid hcredit
    exact credited_once hpaid hplaces hprov haid hcredit

/-- A plan never charges a host more than it has. -/
theorem plan_within_budgets {desired : Desired} {observed : Observed} {ledger : Ledger} {now : ℚ}
    {acts : List Action} (h : plan desired observed ledger now = .ok acts) :
    WithinBudgets ⟨desired, observed, ledger, now⟩ acts := by
  obtain ⟨st, hmoves, rfl⟩ := plan_moves h
  exact within_budgets_of_paid (passes_accounted hmoves).paid

/-- The displacing load of `m2` stays within the memory of its host. -/
theorem shadowed_plan_within_budgets :
    charged shadowedFleet false "a1" [loadM2 "a1" " (displacing other)"] ≠ [] ∧
      WithinBudgets ⟨shadowedDesired, shadowedFleet, shadowedLedger, 1000⟩
        [loadM2 "a1" " (displacing other)"] :=
  ⟨by decide +kernel, plan_within_budgets (by decide +kernel)⟩

end SystemsManager.Autopilot
