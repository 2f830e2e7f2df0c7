import SystemsManager.Autopilot.Harmless

/-!
# What the autopilot accepts

`validate_state` stops at the first field that does not pass. `stateFates` lists its checks in their
order and says of each whether the value passes, is rejected with a `ValueError`, or makes the check
crash with another exception. Read `handled_iff`: a JSON object is handled well exactly if the first
check that stops it, if any, does not crash, and an object that passes them all is one that the
planner can work with.
-/

namespace SystemsManager.Autopilot

open Python

section Checks

/-- What a check does with a value. -/
inductive Fate where
  | passes
  | rejects
  | crashes
  deriving DecidableEq

/-- The first check that does not pass. -/
def firstStop : List Fate → Fate
  | [] => .passes
  | .passes :: rest => firstStop rest
  | fate :: _ => fate

/-- A comparison, which rejects where it fails. -/
def test (p : Prop) [Decidable p] : Fate := if p then .passes else .rejects

/-- What has become of a computation of `validate_state`. -/
def fateOf {α : Type} : Raises α → Fate
  | .ok _ => .passes
  | .error (.valueError _) => .rejects
  | .error _ => .crashes

/-- An integer field: an infinite number overflows. -/
def intFate : Json → Fate
  | .float (.inf _) => .crashes
  | .null | .list _ | .dict _ | .float .nan => .rejects
  | .str s => test ((intOfStr s).isSome = true)
  | .bool _ | .int _ | .float (.finite _) => .passes

/-- The `model`: what is true and no text has no `strip`. -/
def nameFate : Json → Fate
  | .str _ => .passes
  | value => if value.truthy then .crashes else .passes

/-- The integer that a value reads as. -/
def intOf (value : Json) : Int :=
  match value.toInt with
  | .ok n => n
  | .error _ => 0

/-- The name that a `model` reads as. -/
def nameOf : Json → String
  | .str s => strip s
  | _ => ""

/-- The provider of an entry. -/
def providerName? (value : Json) : Option Provider := value.str?.bind Provider.ofName?

variable (e : List (String × Json))

/-- The `min_replicas` of an entry. -/
def rawMin : Int := intOf (getItemD e "min_replicas" (.int 1))

/-- The `max_replicas` of an entry. -/
def rawMax : Int := intOf (getItemD e "max_replicas" (.int (rawMin e)))

/-- The shape of an `autoscale` object. -/
def isAutoscale : Json → Bool
  | .null | .dict _ => true
  | .bool _ | .int _ | .float _ | .str _ | .list _ => false

/-- The name and the provider under which an entry counts as seen. -/
def rawKey : Option (String × Provider) :=
  (providerName? (getItem e "provider")).map fun provider => (nameOf (getItem e "model"), provider)

/-- The checks of an entry after those that have been seen. -/
def entryFates (seen : List (String × Provider)) : List Fate :=
  [ nameFate (getItem e "model"),
    test (nameOf (getItem e "model") ≠ ""),
    test ((providerName? (getItem e "provider")).isSome = true),
    test (∀ key ∈ seen, some key ≠ rawKey e),
    fateOf (failoverOf (getItemD e "failover" (.str "semi"))),
    intFate (getItemD e "min_replicas" (.int 1)),
    intFate (getItemD e "max_replicas" (.int (rawMin e))),
    test (1 ≤ rawMin e ∧ rawMin e ≤ rawMax e),
    fateOf (rankByOf (getItem e "rank_by")),
    fateOf (validatePlacement (getItemD e "placement" (.str "auto"))),
    intFate (getItemD e "priority" (.int 100)),
    if (getItem e "size_mb").blank then .passes else intFate (getItem e "size_mb"),
    test ((getItem e "size_mb").blank = true ∨ 1 ≤ intOf (getItem e "size_mb")),
    test (rawMax e ≤ rawMin e ∨ isAutoscale (getItem e "autoscale") = true) ]

/-- The checks of the entries after those that have been seen. -/
def entriesFates (seen : List (String × Provider)) : List Json → List Fate
  | [] => []
  | .dict e :: rest => entryFates e seen ++ entriesFates (seen ++ (rawKey e).toList) rest
  | _ :: _ => [.rejects]

variable (raw : List (String × Json))

/-- The `speed_max_age_days` of a submitted state. -/
def rawAge : Int :=
  if (getItem raw "speed_max_age_days").blank then SPEED_MAX_AGE_DAYS
  else intOf (getItem raw "speed_max_age_days")

/-- The `entries` of a submitted state. -/
def rawEntries : List Json :=
  match getItem raw "entries" with
  | .list values => values
  | _ => []

/-- The checks of a submitted state, in their order. -/
def stateFates : List Fate :=
  [ if (getItem raw "speed_max_age_days").blank then .passes
      else intFate (getItem raw "speed_max_age_days"),
    test (1 ≤ rawAge raw),
    fateOf (entriesOf (getItem raw "entries")) ] ++
  entriesFates [] (rawEntries raw)

/-- The autoscale object that an entry is stored with. -/
def rawAutoscale : Json → Option Autoscale
  | .dict e =>
      if rawMin e < rawMax e then
        some (match getItem e "autoscale" with
          | .dict items =>
              { targetSaturation :=
                  getItemD items "target_saturation" autoscaleDefaults.targetSaturation
                upWindowS := getItemD items "up_window_s" autoscaleDefaults.upWindowS
                downWindowS := getItemD items "down_window_s" autoscaleDefaults.downWindowS }
          | _ => autoscaleDefaults)
      else none
  | _ => none

end Checks

section Walk

variable {α β : Type}

theorem first_stop_append (fates rest : List Fate) : firstStop (fates ++ rest) =
    if firstStop fates = .passes then firstStop rest else firstStop fates := by
  induction fates with
  | nil => rfl
  | cons fate fates ih =>
      cases fate with
      | passes => exact ih
      | rejects | crashes => rfl

/-- A field, and then the rest. -/
theorem fate_bind {x : Raises α} {k : α → Raises β} {fate : Fate} {rest : List Fate}
    (hx : fateOf x = fate) (hk : ∀ a, x = .ok a → fateOf (k a) = firstStop rest) :
    fateOf (x >>= k) = firstStop (fate :: rest) := by
  subst hx
  cases x with
  | ok a => exact hk a rfl
  | error exc =>
      cases exc with
      | typeError | overflowError | attributeError | keyError | recursionError | valueError => rfl

theorem fate_check {p q : Prop} [Decidable p] [Decidable q] {message : StateError} {x : Raises β}
    {rest : List Fate} (hpq : p ↔ ¬ q) (hx : q → fateOf x = firstStop rest) :
    fateOf (do if p then throw (.valueError message)
               x) = firstStop (test q :: rest) := by
  unfold test
  by_cases hq : q
  · rw [if_pos hq, if_neg fun hp => hpq.mp hp hq]
    exact hx hq
  · rw [if_neg hq, if_pos (hpq.mpr hq)]
    rfl

theorem fate_coerce_int (value : Json) (field : String) :
    fateOf (coerceInt value field) = intFate value := by
  cases value with
  | null | bool | int | list | dict => rfl
  | float x =>
      cases x with
      | finite | inf | nan => rfl
  | str s =>
      simp only [coerceInt, Json.toInt, intFate, test]
      cases intOfStr s with
      | none => rfl
      | some n => rfl

/-- The integer that was read. -/
theorem int_of_coerce {value : Json} {field : String} {n : Int}
    (h : coerceInt value field = .ok n) : n = intOf value := by
  unfold coerceInt at h
  unfold intOf
  split at h
  · rename_i m hm
    cases h
    rw [hm]
  · cases h
  · cases h

theorem fate_model_name (value : Json) : fateOf (modelName value) = nameFate value := by
  have hother : ∀ b : Bool, fateOf (if b then throw .attributeError else pure "" : Raises String) =
      if b then .crashes else .passes := by
    intro b
    cases b with
    | true => rfl
    | false => rfl
  cases value with
  | str s => rfl
  | null => exact hother (Json.truthy .null)
  | bool b => exact hother (Json.truthy (.bool b))
  | int n => exact hother (Json.truthy (.int n))
  | float x => exact hother (Json.truthy (.float x))
  | list values => exact hother (Json.truthy (.list values))
  | dict items => exact hother (Json.truthy (.dict items))

/-- The name that was read. -/
theorem name_of_model {value : Json} {model : String} (h : modelName value = .ok model) :
    model = nameOf value := by
  have hother : ∀ b : Bool, (if b then throw .attributeError else pure "" :
    Raises String) = .ok model →
      model = "" := by
    intro b hb
    cases b with
    | true => cases hb
    | false =>
        cases hb
        rfl
  cases value with
  | str s =>
      cases h
      rfl
  | null => exact hother (Json.truthy .null) h
  | bool b => exact hother (Json.truthy (.bool b)) h
  | int n => exact hother (Json.truthy (.int n)) h
  | float x => exact hother (Json.truthy (.float x)) h
  | list values => exact hother (Json.truthy (.list values)) h
  | dict items => exact hother (Json.truthy (.dict items)) h

theorem fate_provider (value : Json) :
    fateOf (providerOf value) = test ((providerName? value).isSome = true) := by
  unfold providerOf providerName? test
  split
  · rename_i provider hprovider
    rw [hprovider]
    rfl
  · rename_i hnone
    rw [hnone]
    rfl

theorem provider_of_name {value : Json} {provider : Provider}
    (h : providerOf value = .ok provider) : providerName? value = some provider := by
  unfold providerOf at h
  unfold providerName?
  split at h
  · rename_i found hfound
    cases h
    exact hfound
  · cases h

end Walk

section Entries

variable {e : List (String × Json)}

theorem fate_size (value : Json) {rest : List Fate} {β : Type} {k : Option Int → Raises β}
    (hk : ∀ size, sizeMbOf value = .ok size → fateOf (k size) = firstStop rest) :
    fateOf (sizeMbOf value >>= k) =
      firstStop ((if value.blank then .passes else intFate value) ::
        test (value.blank = true ∨ 1 ≤ intOf value) :: rest) := by
  unfold sizeMbOf at hk ⊢
  by_cases hblank : value.blank = true
  · rw [if_pos hblank] at hk ⊢
    rw [if_pos hblank, test, if_pos (Or.inl hblank)]
    exact hk none rfl
  · rw [if_neg hblank] at hk ⊢
    rw [if_neg hblank, bind_assoc]
    refine fate_bind (fate_coerce_int value "size_mb") fun mb hmb => ?_
    have hint := int_of_coerce hmb
    rw [← hint]
    by_cases hsmall : mb < 1
    · have hno : ¬ (value.blank = true ∨ 1 ≤ mb) := by
        rintro (hyes | hle)
        · exact hblank hyes
        · omega
      rw [if_pos hsmall, test, if_neg hno]
      rfl
    · rw [if_neg hsmall, test, if_pos (Or.inr (not_lt.mp hsmall))]
      refine hk (some mb) ?_
      rw [hmb]
      show (if mb < 1 then _ else _) = _
      rw [if_neg hsmall]
      rfl

theorem fate_autoscale (value : Json) {mn mx : Int} {β : Type} (k : Option Autoscale → β) :
    fateOf (autoscaleOf value mn mx >>= fun autoscale => pure (k autoscale)) =
      firstStop [test (mx ≤ mn ∨ isAutoscale value = true)] := by
  unfold autoscaleOf test
  by_cases hrange : mx > mn
  · rw [if_pos hrange]
    cases value with
    | null =>
        have hyes : mx ≤ mn ∨ isAutoscale .null = true := Or.inr rfl
        rw [if_pos hyes]
        rfl
    | dict items =>
        have hyes : mx ≤ mn ∨ isAutoscale (.dict items) = true := Or.inr rfl
        rw [if_pos hyes]
        rfl
    | bool | int | float | str | list =>
        rw [if_neg]
        · rfl
        · rintro (hle | hno)
          · omega
          · cases hno
  · rw [if_neg hrange, if_pos (by omega)]
    rfl

/-- The key of an accepted entry. -/
def Entry.seenKey (entry : Entry) : String × Provider := (entry.model, entry.provider)

theorem fate_validate_entry (accepted : List Entry) (e : List (String × Json)) :
    fateOf (validateEntry accepted (.dict e)) =
      firstStop (entryFates e (accepted.map Entry.seenKey)) := by
  unfold validateEntry entryFates
  refine fate_bind (fate_model_name _) fun model hmodel => ?_
  have hname := name_of_model hmodel
  refine fate_check ?_ fun _ => ?_
  · rw [hname, not_not]
  refine fate_bind (fate_provider _) fun provider hprovider => ?_
  have hkey : rawKey e = some (model, provider) := by
    rw [rawKey, provider_of_name hprovider, hname]
    rfl
  refine fate_check ?_ fun _ => ?_
  · rw [hkey, List.any_eq_true]
    constructor
    · rintro ⟨other, hother, hsame⟩ hnew
      refine hnew other.seenKey (List.mem_map_of_mem hother) ?_
      rw [Bool.and_eq_true, beq_iff_eq, beq_iff_eq] at hsame
      rw [Entry.seenKey, hsame.1, hsame.2]
    · intro hold
      push Not at hold
      obtain ⟨key, hmem, hsame⟩ := hold
      obtain ⟨other, hother, rfl⟩ := List.mem_map.mp hmem
      refine ⟨other, hother, ?_⟩
      obtain ⟨hmodel', hprovider'⟩ := Prod.mk.inj (Option.some.inj hsame)
      rw [hmodel', hprovider', beq_self_eq_true, beq_self_eq_true]
      rfl
  refine fate_bind rfl fun failover _ => ?_
  refine fate_bind (fate_coerce_int _ _) fun mn hmn => ?_
  have hmin : mn = rawMin e := int_of_coerce hmn
  subst hmin
  refine fate_bind (fate_coerce_int _ _) fun mx hmx => ?_
  have hmax : mx = rawMax e := int_of_coerce hmx
  subst hmax
  refine fate_check ?_ fun _ => ?_
  · rw [Bool.or_eq_true, decide_eq_true_eq, decide_eq_true_eq]
    omega
  refine fate_bind rfl fun rankBy _ => ?_
  refine fate_bind rfl fun placement _ => ?_
  refine fate_bind (fate_coerce_int _ _) fun priority _ => ?_
  refine fate_size _ fun sizeMb _ => ?_
  exact fate_autoscale _ _

theorem accepted_key {accepted : List Entry} {entry : Entry}
    (h : validateEntry accepted (.dict e) = .ok entry) : rawKey e = some entry.seenKey := by
  simp only [validateEntry, bind_eq_ok, check_eq_ok, pure_eq_ok] at h
  obtain ⟨model, hmodel, -, provider, hprovider, -, _, -, _, -, _, -, -, _, -, _, -,
    _, -, _, -, _, -,
    rfl⟩ := h
  rw [rawKey, provider_of_name hprovider, ← name_of_model hmodel]
  rfl

theorem accepted_autoscale {accepted : List Entry} {entry : Entry}
    (h : validateEntry accepted (.dict e) = .ok entry) :
    rawAutoscale (.dict e) = entry.autoscale := by
  simp only [validateEntry, bind_eq_ok, check_eq_ok, pure_eq_ok] at h
  obtain ⟨_, -, -, _, -, -, _, -, mn, hmn, mx, hmx, -, _, -, _, -, _, -, _, -, autoscale, hauto,
    rfl⟩ := h
  have hmin : mn = rawMin e := int_of_coerce hmn
  subst hmin
  have hmax : mx = rawMax e := int_of_coerce hmx
  subst hmax
  show rawAutoscale (.dict e) = autoscale
  rw [rawAutoscale]
  unfold autoscaleOf at hauto
  by_cases hrange : rawMin e < rawMax e
  · rw [if_pos hrange] at hauto ⊢
    cases hvalue : getItem e "autoscale" with
    | null | dict =>
        rw [hvalue] at hauto
        cases hauto
        rfl
    | bool | int | float | str | list =>
        rw [hvalue] at hauto
        cases hauto
  · rw [if_neg hrange] at hauto ⊢
    cases hauto
    rfl

/-- The loop over the entries. -/
theorem fate_validate_entries (accepted : List Entry) (raws : List Json) :
    fateOf (validateEntries accepted raws) =
      firstStop (entriesFates (accepted.map Entry.seenKey) raws) := by
  induction raws generalizing accepted with
  | nil => rfl
  | cons raw rest ih =>
      cases raw with
      | null | bool | int | float | str | list => rfl
      | dict e =>
          rw [entriesFates, first_stop_append, ← fate_validate_entry, validateEntries]
          cases hentry : validateEntry accepted (.dict e) with
          | error exc =>
              cases exc with
              | typeError | overflowError | attributeError | keyError | recursionError
                  | valueError => rfl
          | ok entry =>
              have hseen : accepted.map Entry.seenKey ++ (rawKey e).toList =
                  (accepted ++ [entry]).map Entry.seenKey := by
                rw [accepted_key hentry, List.map_append]
                rfl
              rw [hseen]
              exact ih (accepted ++ [entry])

theorem accepted_autoscales {accepted entries : List Entry} {raws : List Json}
    (h : validateEntries accepted raws = .ok entries) :
    entries.map Entry.autoscale = accepted.map Entry.autoscale ++ raws.map rawAutoscale := by
  induction raws generalizing accepted with
  | nil =>
      cases h
      rw [List.map_nil, List.append_nil]
  | cons raw rest ih =>
      rw [validateEntries, bind_eq_ok] at h
      obtain ⟨entry, hentry, hrest⟩ := h
      have hthis : rawAutoscale raw = entry.autoscale := by
        cases raw with
        | dict e => exact accepted_autoscale hentry
        | null | bool | int | float | str | list => cases hentry
      rw [ih hrest, List.map_append, List.append_assoc]
      show _ ++ (entry.autoscale :: rest.map rawAutoscale) =
        _ ++ (rawAutoscale raw :: rest.map rawAutoscale)
      rw [hthis]

end Entries

section States

variable (raw : List (String × Json))

theorem fate_age (value : Json) : fateOf (speedMaxAgeOf value) =
    if value.blank then .passes else intFate value := by
  unfold speedMaxAgeOf
  split
  · rfl
  · exact fate_coerce_int value _

theorem age_of_ok {age : Int} (h : speedMaxAgeOf (getItem raw "speed_max_age_days") = .ok age) :
    age = rawAge raw := by
  unfold speedMaxAgeOf at h
  unfold rawAge
  split at h
  · rename_i hblank
    cases h
    rw [if_pos hblank]
  · rename_i hblank
    rw [if_neg hblank]
    exact int_of_coerce h

theorem entries_of_ok {values : List Json} (h : entriesOf (getItem raw "entries") = .ok values) :
    values = rawEntries raw := by
  have hother : ∀ b : Bool, (if b then throw (.valueError .entriesNotList) else pure [] :
      Raises (List Json)) = .ok values → values = [] := by
    intro b hb
    cases b with
    | true => cases hb
    | false =>
        cases hb
        rfl
  unfold rawEntries
  cases hvalue : getItem raw "entries" with
  | list found =>
      rw [hvalue] at h
      cases h
      rfl
  | null =>
      rw [hvalue] at h
      exact hother (Json.truthy .null) h
  | bool b =>
      rw [hvalue] at h
      exact hother (Json.truthy (.bool b)) h
  | int n =>
      rw [hvalue] at h
      exact hother (Json.truthy (.int n)) h
  | float x =>
      rw [hvalue] at h
      exact hother (Json.truthy (.float x)) h
  | str s =>
      rw [hvalue] at h
      exact hother (Json.truthy (.str s)) h
  | dict items =>
      rw [hvalue] at h
      exact hother (Json.truthy (.dict items)) h

theorem fate_validate_state : fateOf (validateState raw) = firstStop (stateFates raw) := by
  unfold validateState stateFates
  refine fate_bind (fate_age _) fun age hage => ?_
  have hraw := age_of_ok raw hage
  subst hraw
  refine fate_check (by omega) fun _ => ?_
  refine fate_bind rfl fun values hvalues => ?_
  have hentries := entries_of_ok raw hvalues
  subst hentries
  have hloop := fate_validate_entries [] (rawEntries raw)
  rw [List.map_nil] at hloop
  show _ = firstStop (entriesFates [] (rawEntries raw))
  rw [← hloop]
  cases validateEntries [] (rawEntries raw) with
  | ok entries => rfl
  | error exc =>
      cases exc with
      | typeError | overflowError | attributeError | keyError | recursionError | valueError => rfl

theorem accepted_values {desired : Desired} (h : validateState raw = .ok desired) :
    desired.speedMaxAgeDays = some (rawAge raw) ∧ 1 ≤ rawAge raw ∧
      desired.entries.map Entry.autoscale = (rawEntries raw).map rawAutoscale := by
  simp only [validateState, bind_eq_ok, check_eq_ok, pure_eq_ok] at h
  obtain ⟨age, hage, hpositive, values, hvalues, entries, hentries, rfl⟩ := h
  have hraw := age_of_ok raw hage
  subst hraw
  have hvalues' := entries_of_ok raw hvalues
  subst hvalues'
  refine ⟨rfl, by omega, ?_⟩
  have hautoscales := accepted_autoscales hentries
  rw [List.map_nil, List.nil_append] at hautoscales
  exact hautoscales

/-- The planner can work with what the object asks for: unless there are no entries the age limit
converts to a float, and the autoscale objects are usable. -/
structure Workable (clock : Clock) : Prop where
  age : rawEntries raw ≠ [] → floatable (rawAge raw) = true
  autoscale : ∀ e ∈ rawEntries raw, ∀ cfg, rawAutoscale e = some cfg → cfg.Usable clock

theorem harmless_iff {clock : Clock} {desired : Desired} (h : validateState raw = .ok desired) :
    desired.Harmless clock ↔ Workable raw clock := by
  obtain ⟨hdays, hpositive, hautoscale⟩ := accepted_values raw h
  have hnil : desired.entries = [] ↔ rawEntries raw = [] := by
    have hlength := congrArg List.length hautoscale
    rw [List.length_map, List.length_map] at hlength
    rw [← List.length_eq_zero_iff, hlength, List.length_eq_zero_iff]
  have hage : (∃ maxAge, maxAgeS desired = .ok maxAge) ↔ floatable (rawAge raw) = true := by
    have hzero : rawAge raw ≠ 0 := by omega
    unfold maxAgeS
    rw [hdays, Option.getD_some]
    simp only [if_neg hzero]
    generalize floatable (rawAge raw) = fits
    cases fits with
    | true => exact ⟨fun _ => rfl, fun _ => ⟨_, rfl⟩⟩
    | false =>
        refine ⟨?_, fun hno => nomatch hno⟩
        rintro ⟨maxAge, hmax⟩
        cases hmax
  have hentries : (∀ e ∈ desired.entries, ∀ cfg, e.autoscale = some cfg → cfg.Usable clock) ↔
      ∀ e ∈ rawEntries raw, ∀ cfg, rawAutoscale e = some cfg → cfg.Usable clock := by
    have hmem : ∀ cfg : Autoscale, (∃ e ∈ desired.entries, e.autoscale = some cfg) ↔
        ∃ e ∈ rawEntries raw, rawAutoscale e = some cfg := by
      intro cfg
      rw [← List.mem_map, hautoscale, List.mem_map]
    constructor
    · intro hall e he cfg hcfg
      obtain ⟨entry, hentry, hsame⟩ := (hmem cfg).mpr ⟨e, he, hcfg⟩
      exact hall entry hentry cfg hsame
    · intro hall entry hentry cfg hcfg
      obtain ⟨e, he, hsame⟩ := (hmem cfg).mp ⟨entry, hentry, hcfg⟩
      exact hall e he cfg hsame
  constructor
  · intro hharmless
    exact ⟨fun hsome => hage.mp (hharmless.age (mt hnil.mp hsome)), hentries.mp hharmless.autoscale⟩
  · intro hwork
    exact ⟨fun hsome => hage.mpr (hwork.age (mt hnil.mpr hsome)), hentries.mpr hwork.autoscale⟩

/-- What is meant by handling an object well: it is refused with a `ValueError`, or accepted as a
state for which the planner never raises. -/
def Handled (clock : Clock) : Raises Desired → Prop
  | .ok desired => desired.NeverRaises clock
  | .error (.valueError _) => True
  | .error _ => False

/-- A submitted object is handled well if and only if the first check that stops it does not crash,
and, where none does, the planner can work with what it asks for. -/
theorem handled_iff (clock : Clock) : Handled clock (validateState raw) ↔
    firstStop (stateFates raw) ≠ .crashes ∧
      (firstStop (stateFates raw) = .passes → Workable raw clock) := by
  rw [← fate_validate_state]
  cases hstate : validateState raw with
  | error exc =>
      cases exc with
      | typeError | overflowError | attributeError | keyError | recursionError =>
          exact ⟨fun hno => hno.elim, fun hno => hno.1 rfl⟩
      | valueError message =>
          refine ⟨fun _ => ⟨fun hcrash => ?_, fun hpass => ?_⟩, fun _ => trivial⟩
          · cases hcrash
          · cases hpass
  | ok desired =>
      have hvalid := validate_state_valid hstate
      have hiff : desired.NeverRaises clock ↔ Workable raw clock :=
        (never_raises_iff hvalid).trans (harmless_iff raw hstate)
      refine ⟨fun hnever => ⟨fun hcrash => ?_, fun _ => hiff.mp hnever⟩, fun hgood => ?_⟩
      · cases hcrash
      · exact hiff.mpr (hgood.2 rfl)

end States

section Example

/-- A submitted state whose target saturation is a text. -/
def textTarget : List (String × Json) :=
  [("entries", .list [.dict [("model", .str "qwen"), ("provider", .str "llama"),
    ("max_replicas", .int 2), ("autoscale", .dict [("target_saturation", .str "0.8")])]])]

/-- A clock that gives every time from the epoch on. -/
def everyTime : Clock := ⟨(0 ≤ ·), fun _ h => h, 0, le_rfl⟩

/-- Some fleet makes the planner raise for it. -/
theorem text_target_raises : ¬ ∀ raw, Handled everyTime (validateState raw) := by
  intro h
  have hraw := h textTarget
  have hplan : (match validateState textTarget with
      | .ok desired => desired.entries.all fun e =>
          match plan desired (serving e 1 (-60)) noLedger 0 with
          | .ok _ => false
          | .error _ => true
      | .error _ => false) = true := by decide +kernel
  cases hstate : validateState textTarget with
  | error exc =>
      rw [hstate] at hplan
      cases hplan
  | ok desired =>
      rw [hstate] at hplan hraw
      have hsome : desired.entries ≠ [] := by
        intro hnil
        have hcount : (match validateState textTarget with
            | .ok desired => desired.entries.length
            | .error _ => 0) = 1 := by decide +kernel
        rw [hstate] at hcount
        simp only [hnil] at hcount
        cases hcount
      obtain ⟨e, he⟩ := List.exists_mem_of_ne_nil _ hsome
      have hraises := List.all_eq_true.mp hplan e he
      obtain ⟨actions, hactions⟩ := (hraw (serving e 1 (-60))).1 noLedger 0 le_rfl
        (gathered_serving (by decide +kernel))
      rw [hactions] at hraises
      cases hraises

end Example

end SystemsManager.Autopilot
