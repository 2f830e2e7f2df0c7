import SystemsManager.Autopilot.Moves

/-!
# Managed models and the resident table

A load on a single-resident provider replaces whatever that provider has loaded on the host.
The planner protects managed models through the resident table, which keeps one model for
each provider and agent: the first one the sample lists, else one that the ledger says is
loading (`residents_get?`). `NeverEvicts` is the promise; `Unshadowed` says when one slot is
enough to keep it, namely when no unmanaged model at the head of a sample hides a managed one
that is listed after it or still loading. `plan_never_evicts_of_unshadowed` proves the promise
under that condition, and `shadowed_plan_evicts` shows a fleet on which it is broken.
-/

namespace SystemsManager.Autopilot

open Python Relation

/-- The model that a sample puts into the slot of a provider and an agent. -/
def sampleModel (observed : Observed) (p : Provider) (aid : String) : Option String :=
  match observed.agents.get? aid with
  | some a => if a.reporting ∧ p.singleResident then (a.loaded p).head? else none
  | none => none

/-- The entry has a fresh placement on a reporting agent that no sample confirms. -/
def inFlight (observed : Observed) (ledger : Option Ledger) (now : Option ℚ) (e : Entry)
    (aid : String) : Bool :=
  (freshPlaced e.key ledger now).contains aid && observed.reports aid

theorem sample_slots_get? (res : Residents) (aid other : String) (a : Agent) (p : Provider) :
    (sampleSlots res aid a).get? (p, other) =
      if other = aid ∧ a.reporting = true ∧ p.singleResident = true ∧ a.loaded p ≠ [] then
        (a.loaded p).head?
      else res.get? (p, other) := by
  have hnames : Provider.singleResidentNames = [.llama, .vllm] := by decide
  by_cases hr : a.reporting = true
  · simp only [sampleSlots, hr, if_true, hnames, List.foldl_cons, List.foldl_nil]
    cases hl : a.loaded .llama <;> cases hv : a.loaded .vllm <;> cases p <;>
      simp [hl, hv, Provider.singleResident]
  · simp [sampleSlots, hr]

theorem sample_fold_get? (items : List (String × Agent)) (res : Residents) (p : Provider)
    (aid : String) (hnodup : (items.map Prod.fst).Nodup) :
    (items.foldl (fun res (item : String × Agent) => sampleSlots res item.1 item.2) res).get?
        (p, aid) =
      match items.lookup aid with
      | some a =>
          if a.reporting = true ∧ p.singleResident = true ∧ a.loaded p ≠ [] then
            (a.loaded p).head?
          else res.get? (p, aid)
      | none => res.get? (p, aid) := by
  induction items generalizing res with
  | nil => rfl
  | cons item rest ih =>
      rw [List.map_cons, List.nodup_cons] at hnodup
      rw [List.foldl_cons, ih _ hnodup.2, lookup_items_cons]
      by_cases h : aid = item.1
      · have hrest : rest.lookup aid = none := by
          rw [← Option.not_isSome_iff_eq_none]
          intro hsome
          obtain ⟨a, ha⟩ := Option.isSome_iff_exists.mp hsome
          have hmem : aid ∈ (⟨rest, hnodup.2⟩ : Dict String Agent).keys := Dict.mem_keys_of_get ha
          exact hnodup.1 (h ▸ hmem)
        rw [hrest, if_pos h]
        simp only [sample_slots_get?, h, true_and]
      · have hslot : (sampleSlots res item.1 item.2).get? (p, aid) = res.get? (p, aid) := by
          rw [sample_slots_get?, if_neg fun hc => h hc.1]
        rw [hslot, if_neg h]

theorem ledger_slots_get? (observed : Observed) (ledger : Option Ledger) (now : Option ℚ)
    (res : Residents) (e : Entry) (p : Provider) (aid : String) :
    (ledgerSlots observed ledger now res e).get? (p, aid) =
      (res.get? (p, aid)).or
        (if e.provider = p ∧ p.singleResident = true ∧ inFlight observed ledger now e aid = true
          then some e.model else none) := by
  unfold ledgerSlots inFlight
  by_cases hs : e.provider.singleResident = true
  · rw [if_pos hs]
    generalize freshPlaced e.key ledger now = fresh
    induction fresh generalizing res with
    | nil => simp
    | cons next rest ih =>
        rw [List.foldl_cons, ih]
        by_cases hr : observed.reports next = true
        · rw [if_pos hr, Dict.get?_set_default]
          by_cases hk : (p, aid) = (e.provider, next)
          · obtain ⟨rfl, rfl⟩ := Prod.mk.inj hk
            cases hg : res.get? (e.provider, aid) <;> simp [hs, hr]
          · rw [if_neg hk]
            have hne : e.provider = p → aid ≠ next := by
              rintro rfl rfl
              exact hk rfl
            cases hg : res.get? (p, aid)
            · by_cases hp : e.provider = p
              · simp [hp, hne hp]
              · simp [hp]
            · simp
        · rw [if_neg hr]
          have hne : observed.reports aid = true → aid ≠ next := by
            rintro ha rfl
            exact hr ha
          cases hg : res.get? (p, aid)
          · by_cases ha : observed.reports aid = true
            · simp [ha, hne ha]
            · simp [ha]
          · simp
  · rw [if_neg hs]
    have hno : ¬ (e.provider = p ∧ p.singleResident = true ∧
        ((freshPlaced e.key ledger now).contains aid && observed.reports aid) = true) := by
      rintro ⟨rfl, hp, -⟩
      exact hs hp
    rw [if_neg hno]
    simp

/-- The slot of a single-resident provider on an agent: the head of the sample, else the first
entry that is loading there. -/
theorem residents_get? (desired : Desired) (observed : Observed) (ledger : Option Ledger)
    (now : Option ℚ) (p : Provider) (aid : String) :
    (residents desired observed ledger now).get? (p, aid) =
      (sampleModel observed p aid).or ((desired.entries.find? fun e =>
        decide (e.provider = p ∧ p.singleResident = true) &&
          inFlight observed ledger now e aid).map Entry.model) := by
  have hsample : (observed.agents.items.foldl
      (fun res (item : String × Agent) => sampleSlots res item.1 item.2) ∅).get? (p, aid) =
        sampleModel observed p aid := by
    rw [sample_fold_get? _ _ _ _ observed.agents.nodup, Dict.get?_empty]
    unfold sampleModel Dict.get?
    cases observed.agents.items.lookup aid with
    | none => rfl
    | some a =>
        simp only
        by_cases hc : a.reporting = true ∧ p.singleResident = true
        · by_cases hl : a.loaded p = [] <;> simp [hl, hc]
        · rw [if_neg hc, if_neg fun h => hc ⟨h.1, h.2.1⟩]
  rw [← hsample]
  unfold residents
  generalize observed.agents.items.foldl
    (fun res (item : String × Agent) => sampleSlots res item.1 item.2) ∅ = res
  induction desired.entries generalizing res with
  | nil => simp
  | cons e rest ih =>
      rw [List.foldl_cons, ih, ledger_slots_get?, List.find?_cons]
      cases hg : res.get? (p, aid) with
      | some model => simp
      | none =>
          by_cases hc : e.provider = p ∧ p.singleResident = true ∧
              inFlight observed ledger now e aid = true
          · simp [hc]
          · have hfalse : (decide (e.provider = p ∧ p.singleResident = true) &&
                inFlight observed ledger now e aid) = false := by
              rw [Bool.eq_false_iff]
              intro h
              simp only [Bool.and_eq_true, decide_eq_true_eq] at h
              exact hc ⟨h.1.1, h.1.2, h.2⟩
            rw [hfalse, if_neg hc]
            simp

variable {aid : String} {e : Entry}

theorem mem_placements {observed : Observed} :
    aid ∈ placements e observed ↔
      ∃ a, observed.agents.get? aid = some a ∧ a.reporting = true ∧
        e.model ∈ a.loaded e.provider := by
  simp only [placements, List.mem_map, List.mem_filter, Bool.and_eq_true, List.contains_eq_mem,
    decide_eq_true_eq]
  constructor
  · rintro ⟨⟨_, a⟩, ⟨hmem, hr, hm⟩, rfl⟩
    exact ⟨a, Dict.mem_items_iff.mp hmem, hr, hm⟩
  · rintro ⟨a, ha, hr, hm⟩
    exact ⟨(aid, a), ⟨Dict.mem_items_iff.mpr ha, hr, hm⟩, rfl⟩

theorem mem_with_fresh {placed : List String} {k : String} {observed : Observed}
    {ledger : Option Ledger} {now : Option ℚ} :
    aid ∈ withFresh placed k observed ledger now ↔
      aid ∈ placed ∨ (aid ∈ freshPlaced k ledger now ∧ observed.reports aid = true) := by
  unfold withFresh
  generalize freshPlaced k ledger now = fresh
  induction fresh generalizing placed with
  | nil => simp
  | cons next rest ih =>
      rw [List.foldl_cons, ih]
      by_cases hn : next ∈ placed
      · have hskip : (!placed.contains next && observed.reports next) = false := by simp [hn]
        rw [hskip]
        by_cases ha : aid = next
        · simp [ha, hn]
        · simp [ha]
      · by_cases hr : observed.reports next = true
        · by_cases ha : aid = next
          · simp [hn, hr, ha]
          · simp [hn, hr, ha]
        · by_cases ha : aid = next
          · simp [hr, ha]
          · simp [hr, ha]

variable {inp : Inputs}

theorem Inputs.mem_effective :
    aid ∈ inp.effective e ↔ aid ∈ placements e inp.observed ∨
      inFlight inp.observed (some inp.ledger) (some inp.now) e aid = true := by
  unfold Inputs.effective effectivePlacements inFlight
  rw [mem_with_fresh]
  simp

/-- The entry runs on the agent, or is loading there. -/
def Inputs.AtHome (inp : Inputs) (e : Entry) (aid : String) : Prop :=
  (∃ a, inp.observed.agents.get? aid = some a ∧ a.reporting = true ∧
    e.model ∈ a.loaded e.provider) ∨
  inFlight inp.observed (some inp.ledger) (some inp.now) e aid = true

/-- No placement of a plan on a single-resident provider displaces another entry of that
provider: none is at home on the agent, and none is placed there by the same plan. -/
def NeverEvicts (inp : Inputs) (acts : List Action) : Prop :=
  ∀ act ∈ acts, act.kind.places = true → act.provider.singleResident = true →
    ∀ other ∈ inp.desired.entries, other.provider = act.provider → other.key ≠ act.entryKey →
      ¬ inp.AtHome other act.agentId ∧
      ∀ act' ∈ acts, act'.kind.places = true → act'.agentId = act.agentId →
        act'.entryKey ≠ other.key

/-- An unmanaged model heads the sample of a single-resident provider and may be displaced,
while the entry `hidden` is listed after it or is still loading there: the slot of the
resident table shows the first and not the second. -/
structure Inputs.Shadowed (inp : Inputs) (p : Provider) (aid : String) (hidden : Entry) :
    Prop where
  single : p.singleResident = true
  unprotected : inp.desired.protectUnmanaged = false
  mem : hidden ∈ inp.desired.entries
  provider : hidden.provider = p
  head : ∃ first, sampleModel inp.observed p aid = some first ∧
    ∀ e ∈ inp.desired.entries, e.provider = p → e.model ≠ first
  home : inp.AtHome hidden aid

/-- The agent passes every check for the entry that does not depend on what the plan did
before. -/
def Inputs.CouldTake (inp : Inputs) (e : Entry) (aid : String) : Prop :=
  inp.Eligible e aid ∧ inp.cooling aid = false ∧
    ∃ a, inp.observed.agents.get? aid = some a ∧
      fits e a (modelSizeMb inp.observed e.provider e.model) = true

/-- No entry could take an agent on which another entry of its provider is shadowed. -/
def Inputs.Unshadowed (inp : Inputs) : Prop :=
  ∀ p aid hidden, inp.Shadowed p aid hidden →
    ∀ e ∈ inp.desired.entries, e.provider = p → e.key ≠ hidden.key → ¬ inp.CouldTake e aid

/-- What the eviction argument carries through a plan: each placed model owns its slot, its
entry could take the agent, and an entry it evicts is shadowed there; a slot that no placement
owns is as it was. -/
structure Guarded (inp : Inputs) (st : PassState) : Prop where
  slot : ∀ act ∈ st.actions, act.kind.places = true → act.provider.singleResident = true →
    st.budgets.residents.get? (act.provider, act.agentId) = some act.model
  entry : ∀ act ∈ st.actions, act.kind.places = true → ∃ e ∈ inp.desired.entries,
    e.key = act.entryKey ∧ e.provider = act.provider ∧ e.model = act.model ∧
      inp.CouldTake e act.agentId
  homes : ∀ act ∈ st.actions, act.kind.places = true → act.provider.singleResident = true →
    ∀ other ∈ inp.desired.entries, other.provider = act.provider → other.key ≠ act.entryKey →
      inp.AtHome other act.agentId → inp.Shadowed act.provider act.agentId other
  initial : ∀ p aid, st.budgets.residents.get? (p, aid) =
      (initState inp).budgets.residents.get? (p, aid) ∨
    (p.singleResident = true ∧
      ∃ act ∈ st.actions, act.kind.places = true ∧ act.provider = p ∧ act.agentId = aid)

theorem Inputs.Eligible.could_take {b : Budgets} (h : inp.Eligible e aid)
    (hadmits : admits inp e b aid = true) : inp.CouldTake e aid := by
  simp only [admits, Bool.and_eq_true, Bool.not_eq_true'] at hadmits
  obtain ⟨⟨⟨hsome, hcool⟩, -⟩, hfit⟩ := hadmits
  obtain ⟨a, ha⟩ := Option.isSome_iff_exists.mp hsome
  refine ⟨h, hcool, a, ha, ?_⟩
  simp only [fitAndSize, ha, Bool.and_eq_true] at hfit
  exact hfit.1

theorem admits_slot {aid model : String} {b : Budgets} (hadmits : admits inp e b aid = true)
    (hsingle : e.provider.singleResident = true)
    (hslot : b.residents.get? (e.provider, aid) = some model) :
    model = e.model ∨ (e.provider, model) ∉ inp.managed := by
  simp only [admits, Bool.and_eq_true, Bool.not_eq_true'] at hadmits
  obtain ⟨⟨-, hconflict⟩, -⟩ := hadmits
  simp only [residentConflict, hsingle, hslot, Bool.true_and, decide_eq_false_iff_not,
    not_and] at hconflict
  by_cases hm : model = e.model
  · exact .inl hm
  · exact .inr (hconflict hm)

theorem Inputs.entry_managed (he : e ∈ inp.desired.entries) :
    (e.provider, e.model) ∈ inp.managed := by
  unfold Inputs.managed managedSet
  exact List.mem_append_left _ (List.mem_map_of_mem he)

theorem Inputs.resident_managed {p : Provider} {aid model : String}
    (hprotect : inp.desired.protectUnmanaged = true)
    (h : (initState inp).budgets.residents.get? (p, aid) = some model) :
    (p, model) ∈ inp.managed := by
  unfold Inputs.managed managedSet
  rw [hprotect, if_pos rfl]
  refine List.mem_append_right _ (List.mem_map.mpr ⟨((p, aid), model), ?_, rfl⟩)
  exact Dict.mem_items_iff.mpr h

theorem Inputs.Eligible.first_placement {e other : Entry} {b : Budgets}
    (heligible : inp.Eligible e aid) (hadmits : admits inp e b aid = true)
    (hsingle : e.provider.singleResident = true) (hslot : b.residents.get? (e.provider, aid) =
      (initState inp).budgets.residents.get? (e.provider, aid))
    (hother : other ∈ inp.desired.entries) (hprov : other.provider = e.provider)
    (hhome : inp.AtHome other aid) : inp.Shadowed e.provider aid other := by
  have htable : (initState inp).budgets.residents.get? (e.provider, aid) = _ :=
    residents_get? inp.desired inp.observed (some inp.ledger) (some inp.now) e.provider aid
  have hnot := heligible.not_placed
  rw [Inputs.mem_effective, not_or] at hnot
  cases hsample : sampleModel inp.observed e.provider aid with
  | some first =>
      rw [hsample, Option.some_or] at htable
      rcases admits_slot hadmits hsingle (hslot.trans htable) with rfl | hun
      · -- The head of the sample is the entry's own model: it is placed there already.
        exfalso
        apply hnot.1
        rw [mem_placements]
        unfold sampleModel at hsample
        split at hsample
        · rename_i a ha
          split at hsample
          · rename_i hc
            exact ⟨a, ha, hc.1, List.mem_of_mem_head? hsample⟩
          · cases hsample
        · cases hsample
      · refine ⟨hsingle, ?_, hother, hprov, ⟨first, hsample, ?_⟩, hhome⟩
        · rw [Bool.eq_false_iff]
          intro hprotect
          exact hun (Inputs.resident_managed hprotect htable)
        · rintro e' he' hp rfl
          exact hun (hp ▸ Inputs.entry_managed he')
  | none =>
      -- The sample is empty, so the slot holds an entry that is loading there.
      exfalso
      rw [hsample, Option.none_or] at htable
      have hflight : inFlight inp.observed (some inp.ledger) (some inp.now) other aid = true := by
        rcases hhome with ⟨a, ha, hr, hm⟩ | hflight
        · unfold sampleModel at hsample
          rw [hprov] at hm
          simp only [ha, hr, hsingle, and_self, if_true] at hsample
          rw [List.head?_eq_none_iff] at hsample
          rw [hsample] at hm
          cases hm
        · exact hflight
      cases hfind : inp.desired.entries.find? fun e' =>
          decide (e'.provider = e.provider ∧ e.provider.singleResident = true) &&
            inFlight inp.observed (some inp.ledger) (some inp.now) e' aid with
      | none =>
          have := List.find?_eq_none.mp hfind other hother
          simp [hprov, hsingle, hflight] at this
      | some loading =>
          have hloading := List.find?_some hfind
          have hmem := List.mem_of_find?_eq_some hfind
          simp only [Bool.and_eq_true, decide_eq_true_eq] at hloading
          rw [hfind, Option.map_some] at htable
          rcases admits_slot hadmits hsingle (hslot.trans htable) with hm | hun
          · have hsame : loading.Same e := ⟨hm, hloading.1.1⟩
            apply hnot.2
            rw [← hloading.2]
            unfold inFlight
            rw [hsame.key_eq]
          · exact hun (hloading.1.1 ▸ Inputs.entry_managed hmem)

/-- The initial state is guarded. -/
theorem guarded_init (inp : Inputs) : Guarded inp (initState inp) where
  slot _ hact := nomatch hact
  entry _ hact := nomatch hact
  homes _ hact := nomatch hact
  initial _ _ := .inl rfl

variable {st : PassState}

theorem Guarded.owner_model (hg : Guarded inp st) {act : Action}
    (hadmits : admits inp e st.budgets aid = true) (hsingle : e.provider.singleResident = true)
    (hact : act ∈ st.actions) (hplaces : act.kind.places = true) (hprov : act.provider = e.provider)
    (haid : act.agentId = aid) : act.model = e.model := by
  have hslot := hg.slot act hact hplaces (hprov ▸ hsingle)
  obtain ⟨owner, howner, -, hp, hm, -⟩ := hg.entry act hact hplaces
  rw [hprov, haid] at hslot
  rcases admits_slot hadmits hsingle hslot with h | h
  · exact h
  · exact absurd (hm ▸ hprov ▸ hp ▸ Inputs.entry_managed howner) h

theorem Guarded.place (hg : Guarded inp st) {kind : ActionKind} {purpose reason aid : String}
    {migrations : Int} (he : e ∈ inp.desired.entries) (hkind : kind.places = true)
    (heligible : inp.Eligible e aid) (hadmits : admits inp e st.budgets aid = true) :
    Guarded inp
      { placement inp e kind purpose reason st aid with migrations := migrations } where
  slot act hact hplaces hsingle := by
    simp only [placement, commitBudget]
    rcases mem_placement hact hplaces with hold | rfl
    · split
      · rename_i hsingle'
        rw [Dict.get?_set]
        split
        · rename_i hk
          obtain ⟨hp, ha⟩ := Prod.mk.inj hk
          rw [hg.owner_model hadmits hsingle' hold hplaces hp ha]
        · exact hg.slot act hold hplaces hsingle
      · exact hg.slot act hold hplaces hsingle
    · have hs : e.provider.singleResident = true := hsingle
      rw [if_pos hs]
      simp [placeAction]
  entry act hact hplaces := by
    rcases mem_placement hact hplaces with hold | rfl
    · exact hg.entry act hold hplaces
    · exact ⟨e, he, rfl, rfl, rfl, heligible.could_take hadmits⟩
  homes act hact hplaces hsingle other hother hprov hkey hhome := by
    rcases mem_placement hact hplaces with hold | rfl
    · exact hg.homes act hold hplaces hsingle other hother hprov hkey hhome
    · rcases hg.initial e.provider aid with hslot | ⟨-, first, hfirst, hfp, hp, ha⟩
      · exact heligible.first_placement hadmits hsingle hslot hother hprov hhome
      · -- The slot has an owner already, which is a copy of this entry.
        obtain ⟨owner, howner, hok, hop, hom, -⟩ := hg.entry first hfirst hfp
        have hm := hg.owner_model hadmits hsingle hfirst hfp hp ha
        have hsame : owner.Same e := ⟨hom.trans hm, hop.trans hp⟩
        have hne : other.key ≠ first.entryKey := by
          rw [← hok, hsame.key_eq]
          exact hkey
        have hshadow := hg.homes first hfirst hfp (hp ▸ hsingle) other hother
          (hprov.trans hp.symm) hne (ha ▸ hhome)
        rw [hp, ha] at hshadow
        exact hshadow
  initial p a := by
    by_cases hk : (p, a) = (e.provider, aid)
    · obtain ⟨rfl, rfl⟩ := Prod.mk.inj hk
      by_cases hsingle : e.provider.singleResident = true
      · exact .inr ⟨hsingle, placeAction inp e kind reason a, by simp [placement, placeAction],
          hkind, rfl, rfl⟩
      · rcases hg.initial e.provider a with h | ⟨hs, -⟩
        · left
          simpa [placement, commitBudget, hsingle] using h
        · exact absurd hs hsingle
    · rcases hg.initial p a with h | ⟨hs, act, hact, hrest⟩
      · left
        simp only [placement, commitBudget]
        split
        · rw [Dict.get?_set, if_neg hk]
          exact h
        · exact h
      · exact .inr ⟨hs, act, by simp [placement, hact], hrest⟩

theorem Guarded.move {st st' : PassState} (hg : Guarded inp st) (h : Move inp st st') :
    Guarded inp st' := by
  cases h with
  | note k placed => exact ⟨hg.slot, hg.entry, hg.homes, hg.initial⟩
  | place e kind purpose reason aid migrations he hkind heligible hadmits =>
      exact hg.place he hkind heligible hadmits
  | reclaim act hdown =>
      have hold : ∀ act' ∈ st.actions ++ [act], act'.kind.places = true → act' ∈ st.actions := by
        intro act' hact' hplaces
        rcases List.mem_append.mp hact' with h | h
        · exact h
        · rw [List.mem_singleton.mp h, hdown] at hplaces
          cases hplaces
      refine ⟨fun act' h hp => hg.slot act' (hold act' h hp) hp,
        fun act' h hp => hg.entry act' (hold act' h hp) hp,
        fun act' h hp => hg.homes act' (hold act' h hp) hp, ?_⟩
      intro p aid
      rcases hg.initial p aid with h | ⟨hs, act', hact', hrest⟩
      · exact .inl h
      · exact .inr ⟨hs, act', List.mem_append_left _ hact', hrest⟩

theorem Guarded.same_slot (hg : Guarded inp st) {act act' : Action} (hact : act ∈ st.actions)
    (hplaces : act.kind.places = true) (hsingle : act.provider.singleResident = true)
    (hact' : act' ∈ st.actions) (hplaces' : act'.kind.places = true)
    (hprov : act'.provider = act.provider) (haid : act'.agentId = act.agentId) :
    act'.entryKey = act.entryKey := by
  obtain ⟨e, -, he, hep, hem, -⟩ := hg.entry act hact hplaces
  obtain ⟨e', -, he', hep', hem', -⟩ := hg.entry act' hact' hplaces'
  have hslot := hg.slot act hact hplaces hsingle
  have hslot' := hg.slot act' hact' hplaces' (hprov ▸ hsingle)
  rw [hprov, haid, hslot] at hslot'
  have hsame : e'.Same e := ⟨by rw [hem, hem', Option.some.inj hslot'], by rw [hep, hep', hprov]⟩
  rw [← he, ← he', hsame.key_eq]

/-- No placement landed on an agent where another entry is shadowed. -/
def AvoidsShadows (inp : Inputs) (acts : List Action) : Prop :=
  ∀ act ∈ acts, act.kind.places = true → ∀ hidden,
    inp.Shadowed act.provider act.agentId hidden → hidden.key = act.entryKey

theorem Guarded.never_evicts_iff (hg : Guarded inp st) :
    NeverEvicts inp st.actions ↔ AvoidsShadows inp st.actions := by
  constructor
  · intro h act hact hplaces hidden hshadow
    by_contra hne
    exact (h act hact hplaces hshadow.single hidden hshadow.mem hshadow.provider hne).1
      hshadow.home
  · intro h act hact hplaces hsingle other hother hprov hkey
    refine ⟨?_, ?_⟩
    · intro hhome
      exact hkey (h act hact hplaces other
        (hg.homes act hact hplaces hsingle other hother hprov hkey hhome))
    · intro act' hact' hplaces' haid hkey'
      obtain ⟨e', -, he', hep', -⟩ := hg.entry act' hact' hplaces'
      have hsame : e'.Same other := key_inj (he'.trans hkey')
      have hprov' : act'.provider = act.provider := by rw [← hep', hsame.2, hprov]
      exact hkey (hkey'.symm.trans (hg.same_slot hact hplaces hsingle hact' hplaces' hprov' haid))

theorem Guarded.avoids_shadows (hg : Guarded inp st) (hun : inp.Unshadowed) :
    AvoidsShadows inp st.actions := by
  intro act hact hplaces hidden hshadow
  by_contra hne
  obtain ⟨e, he, hkey, hprov, -, htake⟩ := hg.entry act hact hplaces
  exact hun act.provider act.agentId hidden hshadow e he hprov
    (fun h => hne (h.symm.trans hkey)) htake

theorem passes_guarded (h : Moves inp (initState inp) st) : Guarded inp st := by
  induction h with
  | refl => exact guarded_init _
  | tail _ hmove ih => exact ih.move hmove

/-- When a plan evicts a managed model: exactly when a placement lands on a slot in which an
unmanaged model hides another entry. On a fleet without such a slot that an entry could take,
no plan evicts anything. -/
theorem plan_never_evicts_of_unshadowed {desired : Desired} {observed : Observed}
    {ledger : Ledger} {now : ℚ} {acts : List Action}
    (h : plan desired observed ledger now = .ok acts) :
    (NeverEvicts ⟨desired, observed, ledger, now⟩ acts ↔
      AvoidsShadows ⟨desired, observed, ledger, now⟩ acts) ∧
    (Inputs.Unshadowed ⟨desired, observed, ledger, now⟩ →
      NeverEvicts ⟨desired, observed, ledger, now⟩ acts) := by
  obtain ⟨st, hmoves, rfl⟩ := plan_moves h
  have hg := passes_guarded hmoves
  exact ⟨hg.never_evicts_iff, fun hun => hg.never_evicts_iff.mpr (hg.avoids_shadows hun)⟩

/-- A llama host with this sample. -/
def llamaHost (sample : List String) : Agent where
  providerCaps := [.llama]
  live := true
  liveness := some .live
  vramTotalMb := 24000
  vramFreeMb := 20000
  ramFreeMb := some 0
  loaded := fun p => if p = .llama then sample else []
  answered := none
  serverState := some .awake
  llamaBuild := ""

/-- A fleet of llama hosts and three models of known size. -/
def llamaFleet (agents : Dict String Agent) : Observed where
  agents := agents
  modelSizesMb := ⟨[("llama:m1", 8000), ("llama:m2", 8000), ("llama:other", 4000)], by decide⟩
  modelGpuLayers := ∅
  routePins := fun _ => ∅
  satHistory := ∅
  speed := ∅

/-- One host, whose sample lists only an unmanaged model. -/
def shadowedFleet : Observed := llamaFleet ⟨[("a1", llamaHost ["other"])], by decide⟩

/-- Two hosts, one of which serves `m1`. -/
def servingFleet : Observed :=
  llamaFleet ⟨[("a1", llamaHost ["m1"]), ("a2", llamaHost [])], by decide⟩

/-- A load of `m1` was issued 150 s before time 1000. -/
def shadowedLedger : Ledger where
  lastActionTs := ⟨[("a1", 850)], by decide⟩
  placedAt := ⟨[("m1/llama", ⟨[("a1", 850)], by decide⟩)], by decide⟩
  inFlightMigrations := 0
  backoffUntil := ∅
  unloadBackoff := ∅
  confirmed := ∅

/-- The submitted state: `m1` and `m2`, both on llama. -/
def shadowedRaw : List (String × Json) :=
  [("enabled", .bool true), ("entries", .list
    [.dict [("model", .str "m1"), ("provider", .str "llama")],
     .dict [("model", .str "m2"), ("provider", .str "llama")]])]

/-- An entry of that state. -/
def shadowedEntry (model : String) : Entry where
  model := model
  provider := .llama
  placement := "auto"
  failover := .semi
  priority := 100
  minReplicas := 1
  maxReplicas := 1
  rankBy := .speed
  sizeMb := none
  autoscale := none

/-- The accepted state. -/
def shadowedDesired : Desired where
  enabled := true
  protectUnmanaged := false
  entries := [shadowedEntry "m1", shadowedEntry "m2"]
  speedMaxAgeDays := some 30

/-- A load of `m2`. -/
def loadM2 (aid note : String) : Action where
  kind := .load
  provider := .llama
  model := "m2"
  agentId := aid
  reason := "m2/llama: 1/1 replicas placed" ++ note
  auto := false
  entryKey := "m2/llama"

/-- The in-flight load of `m1` does not reserve the host: the plan loads `m2` there. -/
theorem shadowed_plan_evicts :
    validateState shadowedRaw = .ok shadowedDesired ∧
      plan shadowedDesired shadowedFleet shadowedLedger 1000 =
        .ok [loadM2 "a1" " (displacing other)"] ∧
      ¬ NeverEvicts ⟨shadowedDesired, shadowedFleet, shadowedLedger, 1000⟩
        [loadM2 "a1" " (displacing other)"] := by
  refine ⟨rfl, by decide +kernel, ?_⟩
  intro h
  have hhome := h _ (List.mem_singleton_self _) rfl rfl (shadowedEntry "m1")
    (by simp [shadowedDesired]) rfl (by decide)
  exact hhome.1 (.inr (by decide +kernel))

/-- A host that serves a managed model is left alone, and the plan goes to the other host. -/
theorem serving_plan_evicts_nothing :
    plan shadowedDesired servingFleet shadowedLedger 1000 = .ok [loadM2 "a2" ""] ∧
      NeverEvicts ⟨shadowedDesired, servingFleet, shadowedLedger, 1000⟩ [loadM2 "a2" ""] := by
  refine ⟨by decide +kernel, (plan_never_evicts_of_unshadowed (by decide +kernel)).2 ?_⟩
  intro p aid hidden hshadow
  obtain ⟨first, hsample, hunmanaged⟩ := hshadow.head
  have hm1 := hunmanaged (shadowedEntry "m1") (by simp [shadowedDesired])
  exfalso
  cases p with
  | llama =>
      by_cases h1 : aid = "a1"
      · subst h1
        exact hm1 rfl (Option.some.inj hsample)
      · by_cases h2 : aid = "a2"
        · subst h2
          cases hsample
        · simp [sampleModel, servingFleet, llamaFleet, Dict.get?, lookup_items_cons, h1, h2]
            at hsample
  | vllm =>
      by_cases h1 : aid = "a1"
      · subst h1
        cases hsample
      · by_cases h2 : aid = "a2"
        · subst h2
          cases hsample
        · simp [sampleModel, servingFleet, llamaFleet, Dict.get?, lookup_items_cons, h1, h2]
            at hsample
  | lms => exact absurd hshadow.single (by decide)

end SystemsManager.Autopilot
