import SystemsManager.Energy.Counters
import Mathlib.Algebra.BigOperators.Group.Finset.Basic
import Mathlib.Algebra.BigOperators.Field
import Mathlib.Algebra.BigOperators.Ring.List
import Mathlib.Tactic.FieldSimp
import Mathlib.Tactic.Linarith
import Mathlib.Tactic.Ring

/-!
# The split of a host increment over its models

The tokens of a tick are given out without loss (`total_model_tokens`), but a row is written for
every listing of a model among the residents. A model that is listed twice, under two providers
or twice in one sample, gets its tokens and its weight twice. Read `conserves_iff_repeats` first:
the rows add up to the host row exactly when what is owed to the repeated listings is nothing.
-/

namespace SystemsManager.Energy

open Python

section Lists

variable {α M : Type} [DecidableEq α] [AddCommMonoid M]

/-- The listings that a later one repeats. -/
def repeats : List α → List α
  | [] => []
  | m :: rest => if m ∈ rest then m :: repeats rest else repeats rest

theorem repeats_eq_nil {l : List α} (h : l.Nodup) : repeats l = [] := by
  induction l with
  | nil => rfl
  | cons m rest ih =>
      rw [List.nodup_cons] at h
      rw [repeats, if_neg h.1, ih h.2]

theorem sum_eq_dedup_add_repeats (f : α → M) (l : List α) :
    (l.map f).sum = (l.dedup.map f).sum + ((repeats l).map f).sum := by
  induction l with
  | nil => simp [repeats]
  | cons m rest ih =>
      by_cases h : m ∈ rest
      · simp only [repeats, h, if_true, List.dedup_cons_of_mem h, List.map_cons, List.sum_cons, ih]
        rw [add_left_comm]
      · simp only [repeats, h, if_false, List.dedup_cons_of_notMem h, List.map_cons, List.sum_cons,
          ih, add_assoc]

theorem sum_dedup_add_rest {f : α → M} {l keys : List α} (hkeys : keys.Nodup)
    (hzero : ∀ m, m ∉ keys → f m = 0) :
    (l.dedup.map f).sum + ((keys.filter fun m => m ∉ l).map f).sum = (keys.map f).sum := by
  have hrest : (keys.filter fun m => m ∉ l).Nodup := hkeys.filter _
  rw [← List.sum_toFinset f l.nodup_dedup, ← List.sum_toFinset f hrest,
    ← List.sum_toFinset f hkeys, ← Finset.sum_union]
  · symm
    apply Finset.sum_subset
    · intro m hm
      by_cases hl : m ∈ l <;> simp_all
    · intro m _ hm
      exact hzero m (by simpa using hm)
  · rw [Finset.disjoint_left]
    intro m hm hm'
    simp only [List.mem_toFinset, List.mem_dedup, List.mem_filter, decide_eq_true_eq] at hm hm'
    exact hm'.2 hm

theorem foldl_append_missing {keys : List α} (hkeys : keys.Nodup) (l : List α) :
    keys.foldl (fun models m => if m ∈ models then models else models ++ [m]) l =
      l ++ keys.filter fun m => m ∉ l := by
  induction keys generalizing l with
  | nil => simp
  | cons m rest ih =>
      rw [List.nodup_cons] at hkeys
      rw [List.foldl_cons, ih hkeys.2, List.filter_cons]
      by_cases h : m ∈ l
      · simp [h]
      · simp only [h, if_false, not_false_eq_true, decide_true, if_true, List.append_assoc,
          List.singleton_append]
        congr 2
        apply List.filter_congr
        intro k hk
        have hne : k ≠ m := fun e => hkeys.1 (e ▸ hk)
        simp [hne]

end Lists

section Tokens

variable (cases : CaseMap) (resident : Dict Provider (List String))

theorem sum_fst (l : List (Int × Int)) : l.sum.1 = (l.map Prod.fst).sum :=
  map_list_sum (AddMonoidHom.fst ℤ ℤ) l

theorem sum_snd (l : List (Int × Int)) : l.sum.2 = (l.map Prod.snd).sum :=
  map_list_sum (AddMonoidHom.snd ℤ ℤ) l

theorem sum_part (d : Int) (n : Nat) :
    ((List.range (n + 1)).map (part d (n + 1))).sum = d := by
  rw [List.range_succ_eq_map, List.map_cons, List.sum_cons, List.map_map]
  have hrest : (List.range n).map (part d (n + 1) ∘ Nat.succ) =
      List.replicate n (d.fdiv ((n + 1 : Nat) : Int)) := by
    rw [List.eq_replicate_iff]
    constructor
    · simp
    · intro b hb
      obtain ⟨i, _, rfl⟩ := List.mem_map.mp hb
      simp [part]
  rw [hrest, List.sum_replicate, part, if_pos rfl, nsmul_eq_mul]
  have hdiv := Int.mul_fdiv_add_fmod d ((n + 1 : Nat) : Int)
  push_cast at hdiv ⊢
  linarith

theorem sum_share {names : List String} (hne : names ≠ []) (d : Int × Int) :
    (names.zipIdx.map fun target => share d names.length target.2).sum = d := by
  obtain ⟨n, hn⟩ : ∃ n, names.length = n + 1 :=
    Nat.exists_eq_succ_of_ne_zero (by simpa using hne)
  have hidx : (names.zipIdx.map fun target => share d names.length target.2) =
      (List.range (n + 1)).map (share d (n + 1)) := by
    have hsnd : names.zipIdx.map Prod.snd = List.range (n + 1) := by
      rw [List.zipIdx_map_snd, ← List.range_eq_range', hn]
    rw [← hsnd, List.map_map, hn]
    rfl
  rw [hidx]
  apply Prod.ext
  · rw [sum_fst, List.map_map]
    exact sum_part d.1 n
  · rw [sum_snd, List.map_map]
    exact sum_part d.2 n

/-- A counter always has a target. -/
theorem targets_ne_nil (key : CounterKey) : targets cases resident key ≠ [] := by
  have hor : ∀ models, orNoModel models ≠ [] := by
    intro models
    unfold orNoModel
    split
    · simp
    · assumption
  cases key with
  | gatewayModel model =>
      by_cases h : model = ""
      · rw [targets, if_pos h]
        exact hor _
      · rw [targets, if_neg h]
        simp
  | gateway => exact hor _
  | llama => exact hor _
  | vllm => exact hor _

/-- The tokens of one counter that a model is owed. -/
def owedBy (m : String) (item : CounterKey × (Int × Int)) : Int × Int :=
  let names := targets cases resident item.1
  ((names.zipIdx.filter fun target => m = target.1).map fun target =>
    share item.2 names.length target.2).sum

/-- The tokens a model is owed for the growth of all counters. -/
def owed (grown : List (CounterKey × (Int × Int))) (m : String) : Int × Int :=
  (grown.map (owedBy cases resident m)).sum

theorem owed_by_zero (m : String) (key : CounterKey) : owedBy cases resident m (key, 0) = 0 := by
  unfold owedBy
  apply List.sum_eq_zero
  intro x hx
  obtain ⟨target, _, rfl⟩ := List.mem_map.mp hx
  simp [share, part, Int.zero_fdiv, Int.zero_fmod]

theorem total_give_tokens (tokens : Dict String (Int × Int)) (item : CounterKey × (Int × Int)) :
    (giveTokens cases resident tokens item).total = tokens.total + item.2 := by
  unfold giveTokens
  by_cases h : item.2 = 0
  · rw [if_pos h, h, add_zero]
  · rw [if_neg h, Dict.total_foldl_tally, sum_share (targets_ne_nil cases resident item.1)]

theorem getD_give_tokens (tokens : Dict String (Int × Int)) (item : CounterKey × (Int × Int))
    (m : String) :
    (giveTokens cases resident tokens item).getD m 0 =
      tokens.getD m 0 + owedBy cases resident m item := by
  unfold giveTokens
  by_cases h : item.2 = 0
  · have hzero : owedBy cases resident m item = 0 := by
      rw [← owed_by_zero cases resident m item.1, ← h]
    rw [if_pos h, hzero, add_zero]
  · rw [if_neg h, Dict.getD_foldl_tally]
    rfl

theorem total_model_tokens (deltas : Dict CounterKey (Int × Int)) :
    (modelTokens cases resident deltas).total = deltas.total := by
  have h : ∀ (items : List (CounterKey × (Int × Int))) (tokens : Dict String (Int × Int)),
      (items.foldl (giveTokens cases resident) tokens).total =
        tokens.total + (items.map Prod.snd).sum := by
    intro items
    induction items with
    | nil => simp
    | cons item rest ih =>
        intro tokens
        rw [List.foldl_cons, ih, total_give_tokens, List.map_cons, List.sum_cons, add_assoc]
  have hall := h deltas.items ∅
  rwa [Dict.total_empty, zero_add] at hall

/-- A model gets what it is owed. -/
theorem getD_model_tokens (deltas : Dict CounterKey (Int × Int)) (m : String) :
    (modelTokens cases resident deltas).getD m 0 = owed cases resident deltas.items m := by
  have h : ∀ (items : List (CounterKey × (Int × Int))) (tokens : Dict String (Int × Int)),
      (items.foldl (giveTokens cases resident) tokens).getD m 0 =
        tokens.getD m 0 + owed cases resident items m := by
    intro items
    induction items with
    | nil => simp [owed]
    | cons item rest ih =>
        intro tokens
        rw [List.foldl_cons, ih, getD_give_tokens, owed, owed, List.map_cons, List.sum_cons,
          add_assoc]
  have hall := h deltas.items ∅
  rw [modelTokens, hall]
  exact zero_add _

end Tokens

section Rows

variable {cases : CaseMap} {resident : Dict Provider (List String)}

/-- The models the residents list, a model once for every listing. -/
def listed (resident : Dict Provider (List String)) : List String :=
  (resident.items.map Prod.snd).flatten

theorem sum_row_models {M : Type} [AddCommMonoid M] {tokens : Dict String (Int × Int)}
    {f : String → M} (hzero : ∀ m, m ∉ tokens.keys → f m = 0) :
    ((rowModels resident tokens).map f).sum =
      (tokens.keys.map f).sum + ((repeats (listed resident)).map f).sum := by
  have hmodels : (((listed resident) ++ tokens.keys.filter fun m => m ∉ listed resident).map f).sum
      = (tokens.keys.map f).sum + ((repeats (listed resident)).map f).sum := by
    rw [List.map_append, List.sum_append, sum_eq_dedup_add_repeats,
      ← sum_dedup_add_rest (l := listed resident) tokens.keys_nodup hzero]
    rw [add_assoc, add_comm ((repeats (listed resident)).map f).sum, ← add_assoc]
  unfold rowModels
  simp only [foldl_append_missing tokens.keys_nodup]
  split
  · rename_i hnil
    -- no model at all: the row for no model has no tokens
    have hparts := List.append_eq_nil_iff.mp hnil
    have hkeys : tokens.keys = [] := by
      have hresident : (resident.items.map Prod.snd).flatten = [] := hparts.1
      have hrest := hparts.2
      rw [hresident] at hrest
      simpa using hrest
    have hnone : listed resident ++ tokens.keys.filter (fun m => m ∉ listed resident) = [] := hnil
    rw [← hmodels, hnone]
    simp [hzero noModel (by simp [hkeys])]
  · exact hmodels

theorem sum_row_tokens (cases : CaseMap) (resident : Dict Provider (List String))
    (deltas : Dict CounterKey (Int × Int)) :
    ((rowModels resident (modelTokens cases resident deltas)).map fun m =>
        (modelTokens cases resident deltas).getD m 0).sum =
      deltas.total + ((repeats (listed resident)).map (owed cases resident deltas.items)).sum := by
  rw [sum_row_models fun m hm => Dict.getD_of_not_mem_keys hm, Dict.sum_tally_keys,
    total_model_tokens]
  simp only [getD_model_tokens]

theorem sum_map_div (l : List String) (g : String → Int) (c : ℚ) :
    (l.map fun m => (g m : ℚ) / c).sum = ((l.map g).sum : Int) / c := by
  induction l with
  | nil => simp
  | cons m rest ih => simp only [List.map_cons, List.sum_cons, ih, Int.cast_add, add_div]

/-- There is always a row. -/
theorem row_models_ne_nil (tokens : Dict String (Int × Int)) : rowModels resident tokens ≠ [] := by
  unfold rowModels
  dsimp only
  split
  · simp
  · assumption

theorem sum_weight {deltas : Dict CounterKey (Int × Int)}
    (h : ((repeats (listed resident)).map (owed cases resident deltas.items)).sum = 0) :
    ((rowModels resident (modelTokens cases resident deltas)).map
      (weight (modelTokens cases resident deltas)
        (rowModels resident (modelTokens cases resident deltas)))).sum = 1 := by
  generalize htokens : modelTokens cases resident deltas = tokens
  generalize hmodels : rowModels resident tokens = models
  have hne : models ≠ [] := hmodels ▸ row_models_ne_nil tokens
  have hsum : (models.map fun m => tokens.getD m 0).sum = tokens.total := by
    have hrows := sum_row_tokens cases resident deltas
    rw [h, add_zero, ← total_model_tokens cases resident deltas, htokens, hmodels] at hrows
    exact hrows
  have hboth : ∀ l : List (Int × Int), (l.map fun x => x.1 + x.2).sum = l.sum.1 + l.sum.2 := by
    intro l
    rw [sum_fst, sum_snd, ← List.sum_map_add]
  have htotal : (tokens.items.map fun item => item.2.1 + item.2.2).sum =
      tokens.total.1 + tokens.total.2 := by
    rw [Dict.total, ← hboth, List.map_map]
    rfl
  unfold weight
  rw [htotal]
  by_cases hpos : 0 < tokens.total.1 + tokens.total.2
  · simp only [hpos, if_true]
    have hown : (models.map fun m => (tokens.getD m 0).1 + (tokens.getD m 0).2).sum =
        tokens.total.1 + tokens.total.2 := by
      rw [← hsum, ← hboth, List.map_map]
      rfl
    rw [sum_map_div, hown]
    exact div_self (by exact_mod_cast hpos.ne')
  · simp only [hpos, if_false]
    rw [List.map_const', List.sum_replicate, nsmul_eq_mul]
    have hlen : (models.length : ℚ) ≠ 0 := by simpa using hne
    field_simp

/-- The rows of the models add up to the host row in every additive column. -/
structure Conserves (inc : Increment) : Prop where
  tokensGen : (inc.models.map fun row => row.tokensGen).sum = inc.tokensGen
  tokensPrompt : (inc.models.map fun row => row.tokensPrompt).sum = inc.tokensPrompt
  observedS : (inc.models.map fun row => row.observedS).sum = inc.observedS
  activeS : (inc.models.map fun row => row.activeS).sum = inc.activeS
  powerS : (inc.models.map fun row => row.powerS).sum = inc.powerS
  energyWh : (inc.models.map fun row => row.energyWh).sum = inc.energyWh
  activeEnergyWh : (inc.models.map fun row => row.activeEnergyWh).sum = inc.activeEnergyWh

/-- What is owed to the listings that repeat another one is nothing, in both token columns. -/
def RepeatsOweNothing (cases : CaseMap) (resident : Dict Provider (List String))
    (grown : List (CounterKey × (Int × Int))) : Prop :=
  ((repeats (listed resident)).map (owed cases resident grown)).sum = 0

theorem repeats_owe_nothing_of_nodup {grown : List (CounterKey × (Int × Int))}
    (h : (listed resident).Nodup) : RepeatsOweNothing cases resident grown := by
  unfold RepeatsOweNothing
  rw [repeats_eq_nil h]
  rfl

theorem split_conserves {inc : Increment} {deltas : Dict CounterKey (Int × Int)}
    (htokens : (inc.tokensGen, inc.tokensPrompt) = deltas.total)
    (hsplit : inc.models = splitModels cases inc.toColumns resident deltas) :
    Conserves inc ↔ RepeatsOweNothing cases resident deltas.items := by
  have hrows := sum_row_tokens cases resident deltas
  rw [← htokens] at hrows
  have hgen : (inc.models.map fun row => row.tokensGen).sum = inc.tokensGen +
      ((repeats (listed resident)).map (owed cases resident deltas.items)).sum.1 := by
    have h := congrArg Prod.fst hrows
    rw [sum_fst, List.map_map] at h
    rw [hsplit, splitModels, List.map_map]
    exact h
  have hprompt : (inc.models.map fun row => row.tokensPrompt).sum = inc.tokensPrompt +
      ((repeats (listed resident)).map (owed cases resident deltas.items)).sum.2 := by
    have h := congrArg Prod.snd hrows
    rw [sum_snd, List.map_map] at h
    rw [hsplit, splitModels, List.map_map]
    exact h
  constructor
  · intro h
    apply Prod.ext
    · have := h.tokensGen
      show _ = (0 : Int)
      omega
    · have := h.tokensPrompt
      show _ = (0 : Int)
      omega
  · intro h
    have hweight := sum_weight h
    -- time and energy follow the weights
    have hcolumn : ∀ c : ℚ, ((rowModels resident (modelTokens cases resident deltas)).map fun m =>
        c * weight (modelTokens cases resident deltas)
          (rowModels resident (modelTokens cases resident deltas)) m).sum = c := by
      intro c
      rw [List.sum_map_mul_left, hweight, mul_one]
    have hzero : ((repeats (listed resident)).map (owed cases resident deltas.items)).sum = 0 := h
    refine ⟨?_, ?_, ?_, ?_, ?_, ?_, ?_⟩
    · rw [hgen, hzero]
      exact add_zero _
    · rw [hprompt, hzero]
      exact add_zero _
    all_goals
      rw [hsplit, splitModels, List.map_map]
      exact hcolumn _

/-- In every tick that writes an increment, the rows of the models add up to the host row exactly
when the listings that repeat a model are owed nothing. -/
theorem conserves_iff_repeats (views : Views) (now : ℚ) (agentId : String)
    (buckets : Dict String Bucket) (state : Option AgentState) (result : AgentTick)
    (inc : Increment)
    (htick : tickAgent cases views now agentId buckets state = some result)
    (hinc : result.increment = some inc) :
    Conserves inc ↔ RepeatsOweNothing cases (residents cases (fresh now buckets))
      (grown (state.getD {}).counters (mergedAt views now agentId buckets)) := by
  unfold tickAgent at htick
  by_cases hfresh : fresh now buckets = []
  · rw [if_pos hfresh] at htick
    cases htick
  · rw [if_neg hfresh] at htick
    cases htick
    obtain ⟨hdeltas, htokens, -⟩ := advance_spec (state.getD {}).counters
      (mergedAt views now agentId buckets)
    dsimp only at hinc
    split at hinc
    · cases hinc
    · cases hinc
      rw [← hdeltas]
      refine split_conserves ?_ rfl
      show (advance _ (mergedAt views now agentId buckets)).tokens = _
      rw [htokens, ← hdeltas]
      rfl

/-- The residency block of a llama server with one model loaded. -/
def loaded (model : String) : Residency :=
  { aggregate := true, models := [⟨some model, some "llama", some "loaded"⟩] }

/-- A host whose llama server and LM Studio hold one model each. -/
def twoServers (llama lms : String) : Dict String Bucket :=
  let server : LlamaBlock := { totalTokensGenerated := some 110, residency := some (loaded llama) }
  (Dict.empty.set "llama" ⟨some { llama := server }, 1010⟩).set
    "lms" ⟨some { ps := [⟨some "IDLE", some lms⟩] }, 1010⟩

/-- The llama counter stood at 100 ten seconds ago. -/
def tenSecondsAgo : AgentState :=
  { last := some 1000, counters := Dict.empty.set .llama ⟨some 100, none⟩ }

/-- One model held by both servers: ten tokens of the host are twenty in the rows. -/
theorem held_twice_counts_twice :
    ¬ ∀ (cases : CaseMap) (views : Views) (now : ℚ) (agentId : String)
      (buckets : Dict String Bucket) (state : Option AgentState) (result : AgentTick)
      (inc : Increment), tickAgent cases views now agentId buckets state = some result →
        result.increment = some inc → Conserves inc := by
  intro h
  have heval : (tickAgent asciiCase ⟨none, .unwired, .unwired⟩ 1010 "box" (twoServers "m" "m")
      (some tenSecondsAgo)).any (fun result => result.increment.any fun inc =>
        inc.tokensGen == 10 && (inc.models.map fun row => row.tokensGen).sum == 20) = true := by
    decide +kernel
  obtain ⟨result, hresult, hany⟩ := (Option.any_eq_true _ _).mp heval
  obtain ⟨inc, hinc, hsums⟩ := (Option.any_eq_true _ _).mp hany
  have hgen := (h _ _ _ _ _ _ _ _ hresult hinc).tokensGen
  simp only [Bool.and_eq_true, beq_iff_eq] at hsums
  omega

/-- Two models: the rows add up. -/
theorem held_once_conserves :
    ∃ result inc, tickAgent asciiCase ⟨none, .unwired, .unwired⟩ 1010 "box" (twoServers "m" "n")
      (some tenSecondsAgo) = some result ∧ result.increment = some inc ∧ Conserves inc := by
  have heval : (tickAgent asciiCase ⟨none, .unwired, .unwired⟩ 1010 "box" (twoServers "m" "n")
      (some tenSecondsAgo)).any (fun result => result.increment.isSome) = true := by
    decide +kernel
  obtain ⟨result, hresult, hsome⟩ := (Option.any_eq_true _ _).mp heval
  obtain ⟨inc, hinc⟩ := Option.isSome_iff_exists.mp hsome
  refine ⟨result, inc, hresult, hinc, ?_⟩
  rw [conserves_iff_repeats _ _ _ _ _ _ _ hresult hinc]
  exact repeats_owe_nothing_of_nodup (by decide +kernel)

end Rows

end SystemsManager.Energy
