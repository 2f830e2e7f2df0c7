import SystemsManager.Python.SeenValues

/-!
# The receiver of metric exports

`receivers/otlp_receiver.py` of the alarm engine: the tag policy that turns the attributes of a data
point into tags and fields of its records. `Runtime` holds what Python computes with floats and text
outside ASCII. Every function that changes the state of the process takes the state and returns the
new one first.
-/

namespace SystemsManager.Otlp

open Python

/-- `_IDENT_WORDS` -/
def IDENT_WORDS : List String :=
  ["id", "ids", "uuid", "guid", "hash", "token", "key", "secret", "password",
    "credential", "session",
    "trace", "span", "frame", "pid", "tid", "instance", "correlation",
    "addr", "address", "port", "peer", "endpoint", "ip", "url", "uri", "path", "host", "remote",
    "local", "user_agent", "message", "messages", "body", "content", "value", "command", "args",
    "arguments", "prompt", "text", "description", "stack", "stacktrace", "exception", "parents",
    "definitions"]

/-- `_MEASURE_WORDS` -/
def MEASURE_WORDS : List String :=
  ["ms", "s", "sec", "secs", "bytes", "chars", "count", "tokens", "ratio", "budget",
    "lineno", "line",
    "blocks", "images", "elapsed", "duration", "latency", "time", "timestamp", "ts"]

/-- `_IDENT_SUFFIXES` -/
def IDENT_SUFFIXES : List String :=
  ["uuid", "guid", "token", "secret", "password", "credential", "apikey", "sessionid", "userid",
    "traceid", "spanid", "requestid", "instanceid", "clientid", "deviceid", "eventid", "frameid"]

/-- `_BUILTIN_ALLOW` -/
def BUILTIN_ALLOW : List String :=
  ["gen_ai_token_type", "gen_ai_request_model", "gen_ai_response_model",
    "gen_ai_operation_name", "gen_ai_provider_name", "gen_ai_system",
    "gen_ai_tool_name", "error_type", "http_request_method",
    "http_response_status_code", "http_route", "rpc_method", "rpc_service",
    "service_version", "service_namespace", "deployment_environment",
    "os_type", "host_arch",
    "openclaw_security_policy_id", "openclaw_security_control_id"]

/-- `_RESERVED_TAGS` -/
def RESERVED_TAGS : List String :=
  ["source", "metric_name", "unit", "hostname", "scope", "status", "span_kind", "severity",
    "severity_text"]

/-- `_MAX_TRACKED_KEYS` -/
def MAX_TRACKED_KEYS : ℕ := 1024

/-- `_CAPPED_VALUE` -/
def CAPPED_VALUE : String := "other"

/-- What Python computes with floats and text outside ASCII: `str.lower`, `float(text)`,
`math.isfinite`, `str(float)`, `float(int)`, `bytes.decode` and the time of a record. -/
structure Runtime (F : Type) where
  lower : String → String
  parseFloat : String → Option F
  isFinite : F → Bool
  floatText : F → String
  ofInt : ℤ → F
  decode : List UInt8 → String
  recordTime : ℕ → ℤ

/-- The settings of the tag policy. -/
structure Policy where
  tagValueCap : ℤ
  maxTags : ℤ
  tagAllow : List String
  tagDeny : List String

/-- An attribute value: `AnyValue`; `other` is a list, a map or no value. -/
inductive AnyValue (F : Type) where
  | string (text : String)
  | bool (value : Bool)
  | int (value : ℤ)
  | double (value : F)
  | bytes (value : List UInt8)
  | other

/-- An attribute: `KeyValue`. -/
structure KeyValue (F : Type) where
  key : String
  value : AnyValue F

/-- The outcome of `_classify`. -/
inductive TagClass where
  | allow
  | deny
  | measure
  | tag
  deriving DecidableEq

/-- The state of the receiver: the table of seen values and the counters of the policy. -/
structure Receiver where
  seenValues : SeenValues String String
  tagsDropped : ℕ
  tagsCapped : ℕ
  attrFields : ℕ

/-- The receiver when the process starts. -/
def Receiver.start : Receiver := ⟨∅, 0, 0, 0⟩

/-! ### Keys -/

/-- `_CAMEL_RE` matches between a character and the rest. -/
def camelBreak (before : Char) : List Char → Bool
  | [] => false
  | next :: rest =>
      ((before.isLower || before.isDigit) && next.isUpper) ||
        (before.isUpper && next.isUpper && rest.head?.any Char.isLower)

/-- `_CAMEL_RE.sub("_", key)` -/
def splitCamel : List Char → List Char
  | [] => []
  | c :: rest => if camelBreak c rest then c :: '_' :: splitCamel rest else c :: splitCamel rest

/-- `_normalize_key` -/
def normalizeKey (lower : String → String) (key : String) : String :=
  lower (String.ofList ((splitCamel key.toList).map fun c =>
    if c = '.' ∨ c = ' ' ∨ c = '-' then '_' else c))

/-- `_safe_tag` -/
def safeTag (key : String) : String :=
  String.ofList (key.toList.map fun c => if c = '.' ∨ c = ' ' then '_' else c)

/-- `(^|_)`: what is left of the text after each place where a word may begin. -/
def wordStarts (text : List Char) : List (List Char) :=
  text :: text.tails.filterMap fun
    | '_' :: rest => some rest
    | _ => none

/-- `$`, which also matches before a newline at the end. -/
def atEnd : List Char → Bool
  | [] => true
  | ['\n'] => true
  | _ => false

/-- One of the words stands at one of these places, and what follows it passes the test. -/
def matchesAt (words : List String) (follows : List Char → Bool)
    (places : List (List Char)) : Bool :=
  places.any fun text => words.any fun word =>
    word.toList.isPrefixOf text && follows (text.drop word.toList.length)

/-- `_MEASURE_RE.search` -/
def isMeasure (nk : String) : Bool := matchesAt MEASURE_WORDS atEnd (wordStarts nk.toList)

/-- `_IDENT_RE.search` -/
def isIdent (nk : String) : Bool :=
  matchesAt IDENT_WORDS (fun rest => rest.head? = some '_' || atEnd rest) (wordStarts nk.toList) ||
    matchesAt IDENT_SUFFIXES atEnd nk.toList.tails

section Policy

variable {F : Type} (rt : Runtime F) (cfg : Policy)

/-- `_classify` -/
def classify (key : String) : TagClass :=
  let nk := normalizeKey rt.lower key
  let tk := safeTag key
  if tk ∈ RESERVED_TAGS ∨ key ∈ cfg.tagDeny ∨ tk ∈ cfg.tagDeny then .deny
  else if key ∈ cfg.tagAllow ∨ tk ∈ cfg.tagAllow ∨ nk ∈ BUILTIN_ALLOW then .allow
  else if isMeasure nk then .measure
  else if isIdent nk then .deny
  else .tag

/-- `_cap_value` -/
def capValue (r : Receiver) (key value : String) : Receiver × String :=
  match r.seenValues.letIn MAX_TRACKED_KEYS cfg.tagValueCap key value with
  | (seen, true) => ({ r with seenValues := seen }, value)
  | (seen, false) => ({ r with seenValues := seen, tagsCapped := r.tagsCapped + 1 }, CAPPED_VALUE)

/-- `_attr_value` -/
def attrValue : AnyValue F → String
  | .string text => text
  | .bool value => if value then "true" else "false"
  | .int value => toString value
  | .double value => rt.floatText value
  | .bytes value => rt.decode value
  | .other => ""

/-- The three dictionaries that `_apply_attr` routes the attributes of a point into. -/
structure Routed (F : Type) where
  tags : Dict String String
  fields : Dict String F
  allowed : Dict String String

/-- Nothing is routed yet. -/
def Routed.empty : Routed F := ⟨∅, ∅, ∅⟩

/-- The number of an attribute that is to become a field. -/
def attrNumber : AnyValue F → Option F
  | .int value => some (rt.ofInt value)
  | .double value => if rt.isFinite value then some value else none
  | .string text => (rt.parseFloat text).filter rt.isFinite
  | _ => none

/-- `kind in ("int_value", "double_value")` -/
def AnyValue.numeric : AnyValue F → Bool
  | .int _ => true
  | .double _ => true
  | _ => false

/-- `_apply_attr` -/
def applyAttr (s : Receiver × Routed F) (attr : KeyValue F) : Receiver × Routed F :=
  let (r, p) := s
  let cls := classify rt cfg attr.key
  let tk := safeTag attr.key
  if cls = .deny then ({ r with tagsDropped := r.tagsDropped + 1 }, p)
  else if cls = .measure ∨ (attr.value.numeric = true ∧ cls ≠ .allow) then
    match attrNumber rt attr.value with
    | none => ({ r with tagsDropped := r.tagsDropped + 1 }, p)
    | some num =>
        ({ r with attrFields := r.attrFields + 1 },
          { tags := p.tags.erase tk, fields := p.fields.set tk num, allowed := p.allowed.erase tk })
  else
    let val := attrValue rt attr.value
    let p := { p with fields := p.fields.erase tk }
    if cls = .allow then (r, { p with allowed := p.allowed.set tk val })
    else
      match attr.value with
      | .bool _ => (r, { p with tags := p.tags.set tk val })
      | _ =>
          let capped := capValue cfg r tk val
          (capped.1, { p with tags := p.tags.set tk capped.2 })

/-! ### Records -/

/-- The tags that the receiver sets itself. -/
def ownTags (source metricName unit : String) (hostname : Option String) (scopeName : String) :
    Dict String String :=
  let tags := ((Dict.empty.set "source" source).set "metric_name" metricName).set "unit" unit
  let tags := match hostname with
    | some hostname => if hostname = "" then tags else tags.set "hostname" hostname
    | none => tags
  if scopeName = "" then tags else tags.set "scope" scopeName

/-- `_build_tags` -/
def buildTags (r : Receiver) (source metricName unit : String) (hostname : Option String)
    (resourceAttrs dpAttrs : List (KeyValue F)) (scopeName : String) :
    Receiver × Dict String String × Dict String F :=
  let routed := (resourceAttrs ++ dpAttrs).foldl (applyAttr rt cfg) (r, Routed.empty)
  let p := routed.2
  let room := (cfg.maxTags - p.allowed.items.length).toNat
  let tags := ownTags source metricName unit hostname scopeName
  ({ routed.1 with tagsDropped := routed.1.tagsDropped + (p.tags.items.length - room) },
    (tags.update p.allowed).update (p.tags.take room), p.fields)

/-- A record for the database. -/
structure Record (F : Type) where
  tags : Dict String String
  fields : Dict String F
  time : ℤ

/-- `_build_record` -/
def buildRecord (metricName : String) (value : F) (tags : Dict String String) (time : ℤ)
    (fields : Dict String F) : Record F where
  tags := tags.set "metric_name" metricName
  fields := (fields.erase "value").set "value" value
  time := time

/-- A data point of a sum or a gauge; `value` is `as_double` or `as_int`. -/
structure NumberPoint (F : Type) where
  attributes : List (KeyValue F)
  timeUnixNano : ℕ
  value : F ⊕ ℤ

/-- A data point of a histogram. -/
structure HistogramPoint (F : Type) where
  attributes : List (KeyValue F)
  timeUnixNano : ℕ
  sum : Option F
  count : ℕ

/-- The data of a metric; `other` is skipped. -/
inductive MetricData (F : Type) where
  | sum (points : List (NumberPoint F))
  | gauge (points : List (NumberPoint F))
  | histogram (points : List (HistogramPoint F))
  | other

/-- A metric. -/
structure Metric (F : Type) where
  name : String
  unit : String
  data : MetricData F

/-- The metrics of a scope. -/
structure ScopeMetrics (F : Type) where
  scope : Option String
  metrics : List (Metric F)

/-- The metrics of a resource. -/
structure ResourceMetrics (F : Type) where
  attributes : List (KeyValue F)
  scopeMetrics : List (ScopeMetrics F)

/-- `_RESOURCE_KEYS` -/
def RESOURCE_KEYS : List String := ["service.name", "host.name", "host.hostname"]

/-- `_split_resource` -/
def splitResource (attrs : List (KeyValue F)) : String × Option String × List (KeyValue F) :=
  let found := (attrs.filter fun kv => kv.key ∈ RESOURCE_KEYS).foldl
    (fun found kv => found.set kv.key (attrValue rt kv.value)) (Dict.empty : Dict String String)
  let text (key : String) : Option String := (found.get? key).filter (· ≠ "")
  ((text "service.name").getD "openclaw-otel", (text "host.name").or (text "host.hostname"),
    attrs.filter fun kv => kv.key ∉ RESOURCE_KEYS)

/-- What a loop over a list appends to `records`. -/
def collect {σ α β : Type} (f : σ → α → σ × List β) : σ → List α → σ × List β
  | s, [] => (s, [])
  | s, a :: rest =>
      let first := f s a
      let others := collect f first.1 rest
      (others.1, first.2 ++ others.2)

/-- What the data points of a metric have in common. -/
structure Context (F : Type) where
  source : String
  hostname : Option String
  resourceAttrs : List (KeyValue F)
  scopeName : String
  name : String
  unit : String

/-- `_emit_number_point` -/
def emitNumberPoint (c : Context F) (r : Receiver) (dp : NumberPoint F) :
    Receiver × List (Record F) :=
  let value := match dp.value with
    | .inl value => value
    | .inr value => rt.ofInt value
  let built := buildTags rt cfg r c.source c.name c.unit c.hostname c.resourceAttrs dp.attributes
    c.scopeName
  (built.1, [buildRecord c.name value built.2.1 (rt.recordTime dp.timeUnixNano) built.2.2])

/-- `_emit_histogram_point` -/
def emitHistogramPoint (c : Context F) (r : Receiver) (dp : HistogramPoint F) :
    Receiver × List (Record F) :=
  let time := rt.recordTime dp.timeUnixNano
  let built := buildTags rt cfg r c.source c.name c.unit c.hostname c.resourceAttrs dp.attributes
    c.scopeName
  (built.1,
    (dp.sum.map fun sum => buildRecord (c.name ++ ".sum") sum built.2.1 time built.2.2).toList ++
      [buildRecord (c.name ++ ".count") (rt.ofInt dp.count) built.2.1 time built.2.2])

/-- The loop of `_flatten_metrics` over the data points of a metric. -/
def flattenMetric (c : Context F) (r : Receiver) : MetricData F → Receiver × List (Record F)
  | .sum points => collect (emitNumberPoint rt cfg c) r points
  | .gauge points => collect (emitNumberPoint rt cfg c) r points
  | .histogram points => collect (emitHistogramPoint rt cfg c) r points
  | .other => (r, [])

/-- What the data points of a metric have in common. -/
def contextOf (rm : ResourceMetrics F) (sm : ScopeMetrics F) (metric : Metric F) : Context F :=
  let resource := splitResource rt rm.attributes
  { source := resource.1, hostname := resource.2.1, resourceAttrs := resource.2.2
    scopeName := sm.scope.getD "", name := metric.name, unit := metric.unit }

/-- `_flatten_metrics` -/
def flattenMetrics (r : Receiver) (req : List (ResourceMetrics F)) : Receiver × List (Record F) :=
  collect (fun r rm =>
    collect (fun r sm =>
      collect (fun r metric => flattenMetric rt cfg (contextOf rt rm sm metric) r metric.data) r
        sm.metrics) r rm.scopeMetrics) r req

/-- A sequence of exports, from the start of the process. -/
def exportAll (requests : List (List (ResourceMetrics F))) : Receiver × List (Record F) :=
  collect (flattenMetrics rt cfg) Receiver.start requests

end Policy

end SystemsManager.Otlp
