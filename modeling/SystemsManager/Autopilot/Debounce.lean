import SystemsManager.Autopilot.Reconciler

/-!
# What a debounce puts back

`debounceBlank` scans the confirmed placements and puts those of blank agents back into the
observation. `mem_scan_confirmed` says which placements are kept, `scan_confirmed_since` since when
their agents are blank, and `debounced_shows` what the planner then sees; the order in which the
scan comes to keys and agents plays no part in any of them.
-/

namespace SystemsManager.Autopilot

open Python

section Keys

/-- A provider name has no slash. -/
theorem provider_name_plain (p : Provider) : ∀ c ∈ p.name.toList, c ≠ '/' := by
  have hall : (p.name.toList.all fun c => c != '/') = true := by cases p <;> decide
  intro c hc
  simpa using List.all_eq_true.mp hall c hc

/-- The parts of the key of an entry. -/
theorem key_parts_entry (e : Entry) : keyParts e.key = (e.model, e.provider.name) := by
  have hlist : e.key.toList = e.model.toList ++ '/' :: e.provider.name.toList := by
    unfold Entry.key
    rw [String.toList_append, String.toList_append, List.append_assoc]
    rfl
  have hname : (e.key.toList.reverse.takeWhile fun c => c != '/').reverse =
      e.provider.name.toList := by
    rw [hlist, List.reverse_append, List.reverse_cons, List.append_assoc,
      List.takeWhile_append_of_pos fun c hc => by
        simpa using provider_name_plain e.provider c (List.mem_reverse.mp hc)]
    simp
  have hlength : e.key.toList.length - e.provider.name.toList.length - 1 =
    e.model.toList.length := by
    rw [hlist, List.length_append, List.length_cons]
    omega
  unfold keyParts
  dsimp only
  rw [hname, hlength, hlist, List.take_left, String.ofList_toList, String.ofList_toList]

theorem of_name_name (p : Provider) : Provider.ofName? p.name = some p := by
  cases p <;> decide

theorem reported_key_entry (e : Entry) (observed : Observed) :
    reportedKey e.key observed = placements e observed := by
  unfold reportedKey
  rw [key_parts_entry, of_name_name]
  rfl

end Keys

section Scan

variable {observed : Observed} {now : ℚ} {model : String} {p : Provider}

/-- The sample of a reporting agent is blank. -/
def Observed.blank (observed : Observed) (aid : String) (p : Provider) : Bool :=
  match observed.agents.get? aid with
  | some agent => agent.reporting && sampleBlank agent p
  | none => false

/-- The sample of a reporting agent is not blank. -/
def Observed.answers (observed : Observed) (aid : String) (p : Provider) : Bool :=
  match observed.agents.get? aid with
  | some agent => agent.reporting && !sampleBlank agent p
  | none => false

/-- An agent is blank or answers, and not both. -/
theorem answers_of_blank {aid : String} (h : observed.blank aid p = true) :
    observed.answers aid p = false := by
  unfold Observed.blank at h
  unfold Observed.answers
  split at h
  · simp only [Bool.and_eq_true] at h
    simp [h.2]
  · cases h

variable {since : Dict String ℚ}

attribute [local simp] scanBlank in
theorem scan_blank_cons {aid : String} {rest : List String} :
    scanBlank observed now model p (aid :: rest) since =
      if observed.blank aid p then
        ((scanBlank observed now model p rest (since.setDefault aid now)).1,
          if now - since.getD aid now < BLANK_GRACE_S then
            (aid, p, model) :: (scanBlank observed now model p rest (since.setDefault aid now)).2
          else (scanBlank observed now model p rest (since.setDefault aid now)).2)
      else if observed.answers aid p then
        scanBlank observed now model p rest (since.erase aid)
      else scanBlank observed now model p rest since := by
  unfold Observed.blank Observed.answers
  cases hget : observed.agents.get? aid with
  | none => simp [scanBlank, hget]
  | some agent =>
      cases hreporting : agent.reporting <;> cases hblank : sampleBlank agent p <;>
        simp [scanBlank, hget, hreporting, hblank]

theorem getD_set_default {aid other : String} :
    (since.setDefault aid now).getD other now = since.getD other now := by
  unfold Dict.getD
  rw [Dict.get?_set_default]
  split
  · rename_i hsame
    subst hsame
    rfl
  · rfl

variable {aids : List String}

theorem mem_scan_blank {place : String × Provider × String} :
    place ∈ (scanBlank observed now model p aids since).2 ↔
      ∃ aid ∈ aids, place = (aid, p, model) ∧ observed.blank aid p = true ∧
        now - since.getD aid now < BLANK_GRACE_S := by
  induction aids generalizing since with
  | nil => simp [scanBlank]
  | cons aid rest ih =>
      rw [scan_blank_cons]
      by_cases hblank : observed.blank aid p = true
      · rw [if_pos hblank]
        dsimp only
        by_cases hgrace : now - since.getD aid now < BLANK_GRACE_S
        · rw [if_pos hgrace, List.mem_cons, ih]
          simp [getD_set_default, hblank, hgrace]
        · rw [if_neg hgrace, ih]
          simp [getD_set_default, hgrace]
      · rw [if_neg hblank]
        have hskip : ∀ {since' : Dict String ℚ},
            (∀ other, observed.blank other p = true →
              since'.getD other now = since.getD other now) →
            ((∃ other ∈ rest, place = (other, p, model) ∧ observed.blank other p = true ∧
              now - since'.getD other now < BLANK_GRACE_S) ↔
            ∃ other ∈ aid :: rest, place = (other, p, model) ∧ observed.blank other p = true ∧
              now - since.getD other now < BLANK_GRACE_S) := by
          intro since' hsame
          constructor
          · rintro ⟨other, hmem, hplace, hother, hgrace⟩
            exact ⟨other, List.mem_cons_of_mem _ hmem, hplace, hother, hsame other hother ▸ hgrace⟩
          · rintro ⟨other, hmem, hplace, hother, hgrace⟩
            rcases List.mem_cons.mp hmem with rfl | hmem
            · exact absurd hother hblank
            · exact ⟨other, hmem, hplace, hother, (hsame other hother).symm ▸ hgrace⟩
        split
        · rw [ih]
          refine hskip fun other hother => ?_
          rw [Dict.getD_erase, if_neg]
          rintro rfl
          exact hblank hother
        · rw [ih]
          exact hskip fun _ _ => rfl

theorem scan_blank_since {aid : String} :
    (scanBlank observed now model p aids since).1.get? aid =
      if aid ∈ aids ∧ observed.blank aid p = true then some (since.getD aid now)
      else if aid ∈ aids ∧ observed.answers aid p = true then none
      else since.get? aid := by
  induction aids generalizing since with
  | nil => simp [scanBlank]
  | cons first rest ih =>
      rw [scan_blank_cons]
      by_cases hfirst : aid = first
      · subst hfirst
        by_cases hblank : observed.blank aid p = true
        · have hstart : (since.setDefault aid now).get? aid = some (since.getD aid now) := by
            rw [Dict.get?_set_default, if_pos rfl]
            rfl
          have hother : observed.answers aid p = false := answers_of_blank hblank
          rw [if_pos hblank]
          dsimp only
          rw [ih, getD_set_default, hstart]
          simp [hblank, hother]
        · rw [if_neg hblank]
          by_cases hanswers : observed.answers aid p = true
          · rw [if_pos hanswers, ih, Dict.get?_erase]
            simp [hblank, hanswers]
          · rw [if_neg hanswers, ih]
            simp [hblank, hanswers]
      · have hmem : aid ∈ first :: rest ↔ aid ∈ rest := by simp [hfirst]
        simp only [hmem]
        split
        · dsimp only
          rw [ih, getD_set_default, Dict.get?_set_default, if_neg hfirst]
        · split
          · rw [ih, Dict.getD_erase, Dict.get?_erase, if_neg hfirst, if_neg hfirst]
          · exact ih

variable {blankSince : Dict String (Dict String ℚ)} {rows : List (String × List String)}

theorem scan_confirmed_other {k : String} (h : k ∉ rows.map Prod.fst) :
    (scanConfirmed observed now rows blankSince).1.getD k ∅ = blankSince.getD k ∅ := by
  induction rows generalizing blankSince with
  | nil => rfl
  | cons row rest ih =>
      rw [List.map_cons, List.mem_cons, not_or] at h
      unfold scanConfirmed
      split
      · exact ih h.2
      · exact (ih h.2).trans (by rw [Dict.getD_set, if_neg h.1])

theorem scan_confirmed_since {k : String} (hnodup : (rows.map Prod.fst).Nodup)
    (hrow : (k, aids) ∈ rows) (hp : Provider.ofName? (keyParts k).2 = some p) :
    (scanConfirmed observed now rows blankSince).1.getD k ∅ =
      (scanBlank observed now (keyParts k).1 p aids (blankSince.getD k ∅)).1 := by
  induction rows generalizing blankSince with
  | nil => cases hrow
  | cons row rest ih =>
      rw [List.map_cons, List.nodup_cons] at hnodup
      rcases List.mem_cons.mp hrow with rfl | hrest
      · unfold scanConfirmed
        rw [hp]
        exact (scan_confirmed_other hnodup.1).trans (by rw [Dict.getD_set, if_pos rfl])
      · have hne : k ≠ row.1 := fun heq =>
          hnodup.1 (heq ▸ List.mem_map_of_mem hrest)
        unfold scanConfirmed
        split
        · exact ih hnodup.2 hrest
        · exact (ih hnodup.2 hrest).trans (by rw [Dict.getD_set, if_neg hne])

theorem mem_scan_confirmed {place : String × Provider × String}
    (hnodup : (rows.map Prod.fst).Nodup) :
    place ∈ (scanConfirmed observed now rows blankSince).2 ↔
      ∃ row ∈ rows, ∃ p, Provider.ofName? (keyParts row.1).2 = some p ∧ ∃ aid ∈ row.2,
        place = (aid, p, (keyParts row.1).1) ∧ observed.blank aid p = true ∧
          now - (blankSince.getD row.1 ∅).getD aid now < BLANK_GRACE_S := by
  induction rows generalizing blankSince with
  | nil => simp [scanConfirmed]
  | cons row rest ih =>
      rw [List.map_cons, List.nodup_cons] at hnodup
      -- The times that the scan writes for this key are not those of a later one.
      have hrest : ∀ {since : Dict String ℚ}, ∀ other ∈ rest,
          (blankSince.set row.1 since).getD other.1 ∅ = blankSince.getD other.1 ∅ := by
        intro since other hother
        rw [Dict.getD_set, if_neg]
        intro heq
        exact hnodup.1 (heq ▸ List.mem_map_of_mem hother)
      unfold scanConfirmed
      split
      · rename_i hnone
        rw [ih hnodup.2]
        constructor
        · rintro ⟨other, hmem, hother⟩
          exact ⟨other, List.mem_cons_of_mem _ hmem, hother⟩
        · rintro ⟨other, hmem, q, hq, hother⟩
          rcases List.mem_cons.mp hmem with rfl | hmem
          · rw [hnone] at hq
            cases hq
          · exact ⟨other, hmem, q, hq, hother⟩
      · rename_i q hq
        dsimp only
        rw [List.mem_append, mem_scan_blank, ih hnodup.2]
        constructor
        · rintro (⟨aid, haid, hplace⟩ | ⟨other, hmem, q', hq', aid, haid, hplace, hblank, hgrace⟩)
          · exact ⟨row, List.mem_cons_self .., q, hq, aid, haid, hplace⟩
          · rw [hrest other hmem] at hgrace
            exact ⟨other, List.mem_cons_of_mem _ hmem, q', hq', aid, haid, hplace, hblank, hgrace⟩
        · rintro ⟨other, hmem, q', hq', aid, haid, hplace, hblank, hgrace⟩
          rcases List.mem_cons.mp hmem with rfl | hmem
          · rw [hq] at hq'
            obtain rfl := Option.some.inj hq'
            exact Or.inl ⟨aid, haid, hplace, hblank, hgrace⟩
          · refine Or.inr ⟨other, hmem, q', hq', aid, haid, hplace, hblank, ?_⟩
            rw [hrest other hmem]
            exact hgrace

end Scan

section Injection

variable {observed : Observed} {aid : String}

/-- An agent after one placement is put back. -/
theorem inject_agent {place : String × Provider × String} :
    (observed.inject place.1 place.2.1 place.2.2).agents.get? aid =
      (observed.agents.get? aid).map fun a => { a with
        loaded := fun p => a.loaded p ++
          if place.1 = aid ∧ place.2.1 = p then [place.2.2] else [] } := by
  unfold Observed.inject
  cases hget : observed.agents.get? place.1 with
  | none =>
      dsimp only
      cases hother : observed.agents.get? aid with
      | none => rfl
      | some a =>
          have hne : place.1 ≠ aid := by
            rintro rfl
            rw [hget] at hother
            cases hother
          simp [hne]
  | some agent =>
      dsimp only
      rw [Dict.get?_set]
      split
      · rename_i hsame
        subst hsame
        rw [hget]
        simp only [Option.map_some, Option.some.injEq, Agent.mk.injEq, true_and]
        refine ⟨?_, trivial⟩
        funext p
        by_cases hp : p = place.2.1
        · simp [hp]
        · simp [hp, Ne.symm hp]
      · rename_i hne
        cases observed.agents.get? aid with
        | none => rfl
        | some a => simp [Ne.symm hne]

theorem inject_keys {place : String × Provider × String} :
    (observed.inject place.1 place.2.1 place.2.2).agents.keys = observed.agents.keys := by
  unfold Observed.inject
  split
  · rename_i a hget
    exact (keys_set_items _ _ _).trans (if_pos (Dict.mem_keys_of_get hget))
  · rfl

/-- The observation after all placements are put back. -/
def Observed.injectAll (observed : Observed)
    (kept : List (String × Provider × String)) : Observed :=
  kept.foldl (fun observed place => observed.inject place.1 place.2.1 place.2.2) observed

theorem inject_all_keys {kept : List (String × Provider × String)} :
    (observed.injectAll kept).agents.keys = observed.agents.keys := by
  induction kept generalizing observed with
  | nil => rfl
  | cons place rest ih =>
      exact (@ih (observed.inject place.1 place.2.1 place.2.2)).trans inject_keys

theorem inject_all_agent {kept : List (String × Provider × String)} :
    ∃ more : Provider → List String,
      (observed.injectAll kept).agents.get? aid =
        (observed.agents.get? aid).map (fun a =>
          { a with loaded := fun p => a.loaded p ++ more p }) ∧
      ∀ p model, model ∈ more p ↔ (aid, p, model) ∈ kept := by
  induction kept generalizing observed with
  | nil =>
      refine ⟨fun _ => [], ?_, fun p model => by simp⟩
      show observed.agents.get? aid = _
      cases observed.agents.get? aid with
      | none => rfl
      | some a => simp
  | cons place rest ih =>
      obtain ⟨more, hagent, hmore⟩ := @ih (observed.inject place.1 place.2.1 place.2.2)
      refine ⟨fun p => (if place.1 = aid ∧ place.2.1 = p then [place.2.2] else []) ++ more p, ?_,
        ?_⟩
      · refine hagent.trans ?_
        rw [inject_agent]
        cases observed.agents.get? aid with
        | none => rfl
        | some a => simp [List.append_assoc]
      · intro p model
        rw [List.mem_append, List.mem_cons, hmore]
        refine or_congr_left ?_
        split
        · rename_i hplace
          obtain ⟨rfl, rfl⟩ := hplace
          rw [List.mem_singleton]
          exact ⟨fun heq => by rw [heq], fun heq => congrArg (·.2.2) heq⟩
        · rename_i hplace
          refine ⟨fun hmem => (nomatch hmem), fun heq => ?_⟩
          subst heq
          exact absurd ⟨rfl, rfl⟩ hplace

end Injection

section Placed

variable {observed other : Observed} {e : Entry} {aid : String} {ledger : FullLedger} {now : ℚ}

/-- A reporting agent shows the model of an entry. -/
def Observed.shows (observed : Observed) (e : Entry) (aid : String) : Bool :=
  match observed.agents.get? aid with
  | some a => a.reporting && (a.loaded e.provider).contains e.model
  | none => false

theorem placements_shown :
    placements e observed = observed.agents.keys.filter (observed.shows e) := by
  unfold placements Dict.keys
  rw [List.filter_map]
  refine congrArg _ (List.filter_congr fun item hitem => ?_)
  have hget : observed.agents.get? item.1 = some item.2 := Dict.mem_items_iff.mp hitem
  simp [Observed.shows, hget]

/-- The placements that a debounce puts back. -/
def keptPlaces (observed : Observed) (now : ℚ) (ledger : FullLedger) :
    List (String × Provider × String) :=
  (scanConfirmed observed now ledger.confirmed.items ledger.blankSince).2

theorem debounced_observed :
    (debounceBlank observed now ledger).2 = observed.injectAll (keptPlaces observed now ledger) :=
    rfl

theorem debounced_agent : ∃ more : Provider → List String,
    (debounceBlank observed now ledger).2.agents.get? aid =
      (observed.agents.get? aid).map (fun a => { a with loaded := fun p => a.loaded p ++ more p }) ∧
    ∀ p model, model ∈ more p ↔ (aid, p, model) ∈ keptPlaces observed now ledger :=
  inject_all_agent

/-- What is put back was blank. -/
theorem kept_blank {p : Provider} {model : String}
    (h : (aid, p, model) ∈ keptPlaces observed now ledger) : observed.blank aid p = true := by
  obtain ⟨row, -, q, -, other, -, hplace, hblank, -⟩ :=
    (mem_scan_confirmed ledger.confirmed.nodup).mp h
  cases hplace
  exact hblank

theorem debounced_shows : (debounceBlank observed now ledger).2.shows e aid = true ↔
    observed.shows e aid = true ∨ (aid, e.provider, e.model) ∈ keptPlaces observed now ledger := by
  obtain ⟨more, hagent, hmore⟩ := @debounced_agent observed aid ledger now
  rw [← hmore]
  unfold Observed.shows
  rw [hagent]
  cases hget : observed.agents.get? aid with
  | none =>
      refine ⟨fun hfalse => (nomatch hfalse), ?_⟩
      rintro (hfalse | hmem)
      · cases hfalse
      · have hblank := kept_blank ((hmore _ _).mp hmem)
        unfold Observed.blank at hblank
        rw [hget] at hblank
        cases hblank
  | some a =>
      have hreporting : e.model ∈ more e.provider → a.reporting = true := by
        intro hmem
        have hblank := kept_blank ((hmore _ _).mp hmem)
        unfold Observed.blank at hblank
        rw [hget] at hblank
        exact (Bool.and_eq_true_iff.mp hblank).1
      simp only [Option.map_some, List.contains_append, Bool.and_eq_true, Bool.or_eq_true,
        List.contains_iff_mem]
      have hsame : ({ a with loaded := fun p => a.loaded p ++ more p } : Agent).reporting =
          a.reporting := rfl
      rw [hsame]
      constructor
      · rintro ⟨hrep, hmem | hmem⟩
        · exact Or.inl ⟨hrep, hmem⟩
        · exact Or.inr hmem
      · rintro (⟨hrep, hmem⟩ | hmem)
        · exact ⟨hrep, Or.inl hmem⟩
        · exact ⟨hreporting hmem, Or.inr hmem⟩

theorem kept_of_confirmed (hconfirmed : aid ∈ ledger.confirmed.getD e.key [])
    (hblank : observed.blank aid e.provider = true)
    (hgrace : now - (ledger.blankSince.getD e.key ∅).getD aid now < BLANK_GRACE_S) :
    (aid, e.provider, e.model) ∈ keptPlaces observed now ledger := by
  obtain ⟨aids, haids⟩ : ∃ aids, ledger.confirmed.get? e.key = some aids := by
    cases hget : ledger.confirmed.get? e.key with
    | none =>
        unfold Dict.getD at hconfirmed
        rw [hget] at hconfirmed
        cases hconfirmed
    | some aids => exact ⟨aids, rfl⟩
  have hmem : aid ∈ aids := by
    unfold Dict.getD at hconfirmed
    rwa [haids] at hconfirmed
  refine (mem_scan_confirmed ledger.confirmed.nodup).mpr
    ⟨(e.key, aids), Dict.mem_items_iff.mpr haids, e.provider, ?_, aid, hmem, ?_, hblank, hgrace⟩
  · rw [key_parts_entry]
    exact of_name_name e.provider
  · rw [key_parts_entry]

end Placed

end SystemsManager.Autopilot
