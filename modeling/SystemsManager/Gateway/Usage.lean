import SystemsManager.Energy.Gateway
import SystemsManager.Python.JsonText

/-!
# Usage of a stream

`backend/gateway_usage.py` as far as it counts the tokens of a streamed response: `record` and
`client_record` add one response's usage, and the generator `tap_sse` relays the bytes of a stream
and reports the last usage that it has scanned in them. The generator is the state machine `Tap`:
`feed` is what it does with one chunk, `finish` is its `finally`. The live rate that `on_chunk`
feeds and the branch `strip_usage`, which the gateway does not take, are left out.
-/

namespace SystemsManager.Gateway

open Python
open Energy (UsageStore intOrZero record usageTokens)

variable [JsonReader]

/-- The key of a client: its label and its address. -/
abbrev ClientKey := String × String

/-- What `gateway_usage` counts, as (generated, prompt) pairs. -/
structure Counts where
  agents : UsageStore := {}
  clients : Dict ClientKey (Int × Int) := ∅

/-- The two counts of a response, nothing where `TypeError` or `ValueError` was caught. -/
def readCounts (promptTokens completionTokens : Json) : Except (Exc Unit) (Option (Int × Int)) :=
  match intOrZero promptTokens with
  | .error .overflowError => .error .overflowError
  | .error _ => .ok none
  | .ok p => match intOrZero completionTokens with
    | .error .overflowError => .error .overflowError
    | .error _ => .ok none
    | .ok g => .ok (some (p, g))

/-- `client_record`, for counts that were read. -/
def clientRecord (clients : Dict ClientKey (Int × Int)) (key : ClientKey) (pt gt : Int) :
    Dict ClientKey (Int × Int) :=
  if key ∈ clients.keys then clients.tally key (max 0 gt, max 0 pt) else clients

/-- `record` and `client_record`, one after the other. -/
def recordBoth (counts : Counts) (agentId : String) (client : ClientKey) (model : Option String)
    (promptTokens completionTokens : Json) : Except (Exc Unit) Counts :=
  match readCounts promptTokens completionTokens with
  | .error e => .error e
  | .ok none => .ok counts
  | .ok (some (pt, gt)) => .ok
      { agents := record counts.agents agentId promptTokens completionTokens model
        clients := clientRecord counts.clients client pt gt }

/-- `isinstance(value, (int, float))` -/
def isNumber (value : Json) : Bool := value.number?.isSome

/-- `_usage_from_dict` -/
def usageFromDict (data : Json) : Except (Exc Unit) (Option (Int × Int)) :=
  match data with
  | .dict items => match getItem items "usage" with
    | .dict usage =>
        let p := getItem usage "prompt_tokens"
        let g := getItem usage "completion_tokens"
        if !isNumber p && !isNumber g then .ok none
        else match intOrZero p, intOrZero g with
          | .ok p, .ok g => .ok (some (p, g))
          | .error e, _ => .error e
          | _, .error e => .error e
    | _ => .ok none
  | _ => .ok none

/-- `usage_from_json_bytes` -/
def usageFromJsonBytes (content : Bytes) : Except (Exc Unit) (Option (Int × Int)) :=
  match guarded (JsonReader.loadsBytes content) with
  | .error e => .error e
  | .ok none => .ok none
  | .ok (some data) => usageFromDict data

/-- `b"data:"` -/
def dataField : Bytes := encode "data:".toList

/-- `b'"usage"'` -/
def usageMark : Bytes := encode "\"usage\"".toList

/-- `_scan_line` -/
def scanLine (line : Bytes) : Except (Exc Unit) (Option (Int × Int)) :=
  let line := stripBytes line
  if dataField.isPrefixOf line ∧ usageMark <:+: line then
    usageFromJsonBytes (stripBytes (line.drop 5))
  else .ok none

/-- The variables of `tap_sse`. -/
structure Tap where
  buf : Bytes := []
  last : Option (Int × Int) := none

/-- The loop of `tap_sse` over the lines in its buffer: `line` is what has been read since the last
newline. An exception of `_scan_line` leaves the lines after it in the buffer. -/
def Tap.scan (last : Option (Int × Int)) : Bytes → Bytes → Tap × Option (Exc Unit)
  | line, [] => ({ buf := line, last }, none)
  | line, b :: rest =>
      if b = newline then
        match scanLine line with
        | .error e => ({ buf := rest, last }, some e)
        | .ok usage => Tap.scan (usage.or last) [] rest
      else Tap.scan last (line ++ [b]) rest

/-- `tap_sse` on one chunk. -/
def Tap.feed (tap : Tap) (chunk : Bytes) : Tap × Option (Exc Unit) :=
  Tap.scan tap.last [] (tap.buf ++ chunk)

/-- `tap_sse` on the chunks of a stream, up to the exception that ends it. -/
def Tap.run : Tap → List Bytes → Tap × Option (Exc Unit)
  | tap, [] => (tap, none)
  | tap, chunk :: rest =>
      match tap.feed chunk with
      | (tap, none) => tap.run rest
      | (tap, some e) => (tap, some e)

/-- The `finally` of `tap_sse`: what is left in the buffer is scanned, and the last usage is handed
to `on_usage`. -/
def Tap.finish (tap : Tap) : Except (Exc Unit) (Option (Int × Int)) :=
  if tap.buf = [] then .ok tap.last
  else match scanLine tap.buf with
    | .error e => .error e
    | .ok usage => .ok (usage.or tap.last)

/-- What `tap_sse` hands to `on_usage` over a whole stream. -/
def tapSse (chunks : List Bytes) : Option (Int × Int) :=
  match (Tap.run {} chunks).1.finish with
  | .ok usage => usage
  | .error _ => none

end SystemsManager.Gateway
