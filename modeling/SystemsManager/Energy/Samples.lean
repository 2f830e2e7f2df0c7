import SystemsManager.Python.Value
import SystemsManager.Python.Dict

/-!
# What the energy accounting reads off a provider sample

A provider bucket holds the last sample an agent pushed for one provider. The functions below
are the pure extractors of `energy.py`: power, activity, token counters, resident models and the
host name. A block that is absent and a block that is empty read alike, so both are the block
whose fields are all `none`; a field is `none` when it is absent or fails its `isinstance` test.
The Unicode case tables behind `str.upper` and `str.lower` are a parameter.
-/

namespace SystemsManager.Energy

open Python

/-- `str.upper` and `str.lower`. -/
structure CaseMap where
  upper : String → String
  lower : String → String

/-- The ASCII part of the case tables. -/
def asciiCase : CaseMap where
  upper text := String.ofList (text.toList.map Char.toUpper)
  lower text := String.ofList (text.toList.map Char.toLower)

/-- `part in text`. -/
def contains (text part : String) : Bool :=
  text.toList.tails.any fun rest => part.toList.isPrefixOf rest

/-- Drop every occurrence of `part`; `skip` characters of the last one found are still to go. -/
def removeAll (part : List Char) : Nat → List Char → List Char
  | _, [] => []
  | skip + 1, _ :: rest => removeAll part skip rest
  | 0, c :: rest =>
      if part.isPrefixOf (c :: rest) then removeAll part (part.length - 1) rest
      else c :: removeAll part 0 rest

/-- `int(x)` for a finite float: cut towards zero. -/
def intOf (x : ℚ) : Int := Int.tdiv x.num x.den

/-- A value that is used only when it is a non-empty string. -/
def nonEmpty (text : Option String) : Option String := text.filter (· ≠ "")

/-- The `mac_power` block. -/
structure MacPower where
  socTotalW : Option ℚ := none

/-- The system part of a sample. `psuInput` is the value of the PSU's "Estimated input power". -/
structure SystemBlock where
  host : Option String := none
  psuInput : Option ℚ := none
  macPower : Option MacPower := none
  gpuPowerWatts : Option ℚ := none

/-- A row of the residency block. -/
structure ResidentRow where
  modelId : Option String := none
  provider : Option String := none
  status : Option String := none

/-- The residency block of the llama server; `aggregate` is its truth value. -/
structure Residency where
  aggregate : Bool := false
  models : List ResidentRow := []

/-- The `llama` block. -/
structure LlamaBlock where
  requestsProcessing : Option ℚ := none
  tokensPerSecond : Option ℚ := none
  totalTokensGenerated : Option ℚ := none
  totalTokensPrompted : Option ℚ := none
  residency : Option Residency := none
  state : Option String := none
  model : Option String := none

/-- The `vllm` block. -/
structure VllmBlock where
  requestsRunning : Option ℚ := none
  tokensPerSecond : Option ℚ := none
  totalTokensGenerated : Option ℚ := none
  totalTokensPrompted : Option ℚ := none
  state : Option String := none
  model : Option String := none

/-- A row of LM Studio's `ps`. -/
structure PsRow where
  status : Option String := none
  model : Option String := none

/-- A sample. The llama bucket has the system fields at the top level, the others have them under
`system`. -/
structure Sample extends SystemBlock where
  system : Option SystemBlock := none
  llama : LlamaBlock := {}
  vllm : VllmBlock := {}
  ps : List PsRow := []
  hardwareName : Option String := none

/-- Where a power reading comes from. -/
inductive PowerSource where
  | psu
  | mac
  | gpu
  deriving DecidableEq

/-- The providers whose buckets list resident models. -/
inductive Provider where
  | llama
  | vllm
  | lms
  deriving DecidableEq

/-- The counters an agent's tokens are read from: a server block, the gateway's total for the
agent, or the gateway's count for one model (`gateway:<model>`). -/
inductive CounterKey where
  | llama
  | vllm
  | gateway
  | gatewayModel (model : String)
  deriving DecidableEq

/-- Cumulative token counters, each possibly unknown. -/
structure Counter where
  gen : Option Int := none
  prompt : Option Int := none
  deriving DecidableEq

/-- `_sys_block`. -/
def sysBlock (sample : Sample) : SystemBlock := sample.system.getD sample.toSystemBlock

/-- Watts and their source: PSU wall, then Apple SoC, then GPU. -/
def extractPower (sample : Sample) : Option (ℚ × PowerSource) :=
  let sysb := sysBlock sample
  match sysb.psuInput with
  | some watts => some (watts, .psu)
  | none =>
      let mac := (sample.macPower <|> sysb.macPower).getD {}
      match mac.socTotalW with
      | some watts => some (watts, .mac)
      | none => sysb.gpuPowerWatts.map fun watts => (watts, .gpu)

/-- The status substrings that count as inference activity. -/
def lmsBusyMarkers : List String := ["PROMPT", "STREAM", "GENERAT", "PREDICT", "QUEUE"]

/-- The sample shows inference activity on some provider block. -/
def extractBusy (sample : Sample) : Bool :=
  let gauges := [sample.llama.requestsProcessing, sample.llama.tokensPerSecond,
    sample.vllm.requestsRunning, sample.vllm.tokensPerSecond]
  gauges.any (fun gauge => gauge.any fun v => 0 < v) ||
    sample.ps.any fun row => lmsBusyMarkers.any fun marker => contains (row.status.getD "") marker

/-- The counters of one server block, if it has any. -/
def blockCounter (gen prompt : Option ℚ) : Option Counter :=
  if gen.isSome || prompt.isSome then some ⟨gen.map intOf, prompt.map intOf⟩ else none

/-- Write the counters of a block that has any. -/
def addBlock (out : Dict CounterKey Counter) (key : CounterKey) :
    Option Counter → Dict CounterKey Counter
  | none => out
  | some counter => out.set key counter

/-- The cumulative counters of each server block. -/
def extractCounters (sample : Sample) : Dict CounterKey Counter :=
  let llama := blockCounter sample.llama.totalTokensGenerated sample.llama.totalTokensPrompted
  let vllm := blockCounter sample.vllm.totalTokensGenerated sample.vllm.totalTokensPrompted
  addBlock (addBlock ∅ .llama llama) .vllm vllm

/-- The tokens added since the last reading, and the new baseline. An unknown value freezes the
baseline, a first value only sets it, and a decrease is read as a restart. -/
def counterDelta (last cur : Option Int) : Int × Option Int :=
  match cur, last with
  | none, _ => (0, last)
  | some cur, none => (0, some cur)
  | some cur, some last => if last ≤ cur then (cur - last, some cur) else (cur, some cur)

/-- The bucket for what no model can be named for. -/
def noModel : String := "(no model)"

/-- A residency row names a model that the llama server holds. -/
def residentId (row : ResidentRow) : Option String :=
  if row.provider = some "llama" ∧ row.status ∈ [some "loaded", some "sleeping", some "loading"]
  then nonEmpty row.modelId else none

/-- Resident llama models: the residency block first, the legacy state and model second. -/
def llamaModels (sample : Sample) : List String :=
  let llama := sample.llama
  match llama.residency.filter (·.aggregate) with
  | some residency => residency.models.filterMap residentId
  | none =>
      if llama.state ∉ [some "awake", some "sleeping"] then [] else
        match llama.model with
        | none => []
        | some raw =>
            if " (unloaded)".toList.isSuffixOf raw.toList then [] else
              let m := strip (String.ofList (removeAll " (sleeping)".toList 0 raw.toList))
              if m = "" then [] else [m]

/-- The models resident in one sample, by provider. -/
def extractModels (cases : CaseMap) (sample : Sample) : Dict Provider (List String) :=
  let out : Dict Provider (List String) := ∅
  let llama := llamaModels sample
  let out := if llama = [] then out else out.set .llama llama
  let out := match sample.vllm.state, nonEmpty sample.vllm.model with
    | some "running", some model => out.set .vllm [model]
    | _, _ => out
  let lms := sample.ps.filterMap fun row =>
    if cases.upper (row.status.getD "") = "STOPPED" then none else nonEmpty row.model
  if lms = [] then out else out.set .lms lms

/-- A model id for matching only: without a quantisation suffix, in lower case. -/
def modelKey (cases : CaseMap) (modelId : String) : String :=
  cases.lower (strip (String.ofList (modelId.toList.takeWhile (· ≠ '@'))))

/-- The host name a sample carries. -/
def extractHostname (sample : Sample) : Option String :=
  nonEmpty sample.host <|> nonEmpty (sysBlock sample).host <|> nonEmpty sample.hardwareName

end SystemsManager.Energy
