import Mathlib.Data.List.Induction
import Mathlib.Data.Rat.Cast.Defs
import SystemsManager.Python.Items

/-!
# From a raw metric to its series

An agent sends a nested dictionary of numbers. `flatten` finds the leaves with their paths, where an
item of a list stands under the slug of its identifier, and `metric_to_points` names a series by
each path; of two leaves with one series the last is kept. Read `kept_apart_iff`: two items of a
list that have the same leaf give two series with their values if and only if their slugs differ and
no later number of the metric overwrites one of them with another value. Numbers are exact.
-/

namespace SystemsManager.Alarms.Ingest

open Python

/-- The fields of a JSON object. -/
abbrev Fields := List (String × Json)

/-- The keys on the way to a number. -/
abbrev Path := List String

section Tables

/-- `SKIP_TOP_LEVEL` -/
def SKIP_TOP_LEVEL : List String := ["ts", "platform", "interval"]

/-- `_BYTES_TO_MBPS` -/
def BYTES_TO_MBPS (v : ℚ) : ℚ := v * 8 / 1000000

/-- An entry of the alias table. -/
structure Alias where
  source : String
  name : String
  unit : Option String
  transform : Option (ℚ → ℚ)

/-- `ALIAS_TABLE` -/
def ALIAS_TABLE : List (Path × Alias) :=
  [(["cpu_total"], ⟨"cpu", "usage_percent", some "%", none⟩),
    (["cpu_temp_c"], ⟨"cpu", "temp_c", some "°C", none⟩),
    (["ram", "percent"], ⟨"ram", "usage_percent", some "%", none⟩),
    (["gpu", "gpu_util_percent"], ⟨"gpu", "utilization_percent", some "%", none⟩),
    (["gpu", "vram_usage_percent"], ⟨"gpu", "vram_usage_percent", some "%", none⟩),
    (["gpu", "temperature_c"], ⟨"gpu", "temp_c", some "°C", none⟩),
    (["gpu", "power_watts"], ⟨"gpu", "power_watts", some "W", none⟩),
    (["net", "bytes_sent_per_sec"], ⟨"net", "sent_mbps", some "Mbps", some BYTES_TO_MBPS⟩),
    (["net", "bytes_recv_per_sec"], ⟨"net", "recv_mbps", some "Mbps", some BYTES_TO_MBPS⟩),
    (["disk_io", "read_bytes_per_sec"], ⟨"disk", "read_mbps", some "Mbps", some BYTES_TO_MBPS⟩),
    (["disk_io", "write_bytes_per_sec"], ⟨"disk", "write_mbps", some "Mbps", some BYTES_TO_MBPS⟩),
    (["llama", "tokens_per_second"], ⟨"llama", "tokens_per_second", some "tps", none⟩),
    (["llama", "prompt_tokens_per_second"],
      ⟨"llama", "prompt_tokens_per_second", some "tps", none⟩),
    (["llama", "total_tokens_generated"], ⟨"llama", "total_tokens_generated", some "tokens", none⟩),
    (["llama", "total_tokens_prompted"], ⟨"llama", "total_tokens_prompted", some "tokens", none⟩),
    (["llama", "requests_processing"], ⟨"llama", "requests_processing", none, none⟩),
    (["llama", "requests_deferred"], ⟨"llama", "requests_deferred", none, none⟩),
    (["llama", "active_slots"], ⟨"llama", "active_slots", none, none⟩),
    (["llama", "n_decode_total"], ⟨"llama", "n_decode_total", none, none⟩),
    (["llama", "n_busy_slots_per_decode"], ⟨"llama", "n_busy_slots_per_decode", none, none⟩),
    (["llama", "n_tokens_max"], ⟨"llama", "n_tokens_max", some "tokens", none⟩),
    (["llama", "kv_cache_usage_ratio"], ⟨"llama", "kv_cache_usage_ratio", some "ratio", none⟩),
    (["llama", "kv_cache_tokens"], ⟨"llama", "kv_cache_tokens", some "tokens", none⟩),
    (["llama", "n_remain"], ⟨"llama", "n_remain", some "tokens", none⟩),
    (["llama", "prompt_tokens_cached_total"],
      ⟨"llama", "prompt_tokens_cached_total", some "tokens", none⟩),
    (["llama", "spec_draft_tokens_total"],
      ⟨"llama", "spec_draft_tokens_total", some "tokens", none⟩),
    (["llama", "spec_accepted_tokens_total"],
      ⟨"llama", "spec_accepted_tokens_total", some "tokens", none⟩),
    (["llama", "spec_drafts_total"], ⟨"llama", "spec_drafts_total", none, none⟩),
    (["llama", "cache_reuse", "ratio"], ⟨"llama", "cache_reuse_ratio", some "ratio", none⟩),
    (["llama", "cache_reuse", "processed"],
      ⟨"llama", "cache_reuse_processed", some "tokens", none⟩),
    (["llama", "cache_reuse", "cached"], ⟨"llama", "cache_reuse_cached", some "tokens", none⟩),
    (["llama", "spec_accept", "ratio"], ⟨"llama", "spec_accept_ratio", some "ratio", none⟩),
    (["llama", "spec_accept", "drafted"], ⟨"llama", "spec_accept_drafted", some "tokens", none⟩),
    (["llama", "spec_accept", "accepted"], ⟨"llama", "spec_accept_accepted", some "tokens", none⟩),
    (["llama", "spec_accept", "accepted_per_draft"],
      ⟨"llama", "spec_accept_accepted_per_draft", some "tokens", none⟩),
    (["vllm", "tokens_per_second"], ⟨"vllm", "tokens_per_second", some "tps", none⟩),
    (["vllm", "prompt_tokens_per_second"], ⟨"vllm", "prompt_tokens_per_second", some "tps", none⟩),
    (["vllm", "kv_cache_usage_pct"], ⟨"vllm", "kv_cache_usage_pct", some "%", none⟩),
    (["vllm", "requests_running"], ⟨"vllm", "requests_running", none, none⟩),
    (["vllm", "requests_waiting"], ⟨"vllm", "requests_waiting", none, none⟩),
    (["vllm", "total_tokens_generated"], ⟨"vllm", "total_tokens_generated", some "tokens", none⟩),
    (["vllm", "total_tokens_prompted"], ⟨"vllm", "total_tokens_prompted", some "tokens", none⟩),
    (["ups", "percent"], ⟨"psu", "load_percent", some "%", none⟩),
    (["influxdb", "bytes_on_disk"], ⟨"influxdb", "bytes_on_disk", some "bytes", none⟩),
    (["manager_self_monitor", "manager_api_latency_ms"],
      ⟨"manager_self_monitor", "manager_api_latency_ms", some "ms", none⟩),
    (["manager_self_monitor", "manager_history_latency_ms"],
      ⟨"manager_self_monitor", "manager_history_latency_ms", some "ms", none⟩),
    (["manager_self_monitor", "ae_health_latency_ms"],
      ⟨"manager_self_monitor", "ae_health_latency_ms", some "ms", none⟩),
    (["manager_self_monitor", "ae_ingest_latency_ms"],
      ⟨"manager_self_monitor", "ae_ingest_latency_ms", some "ms", none⟩),
    (["manager_self_monitor", "ae_query_24h_latency_ms"],
      ⟨"manager_self_monitor", "ae_query_24h_latency_ms", some "ms", none⟩),
    (["manager_self_monitor", "rule_eval_cycle_ms"],
      ⟨"manager_self_monitor", "rule_eval_cycle_ms", some "ms", none⟩),
    (["manager_self_monitor", "influx_write_latency_ms"],
      ⟨"manager_self_monitor", "influx_write_latency_ms", some "ms", none⟩),
    (["manager_self_monitor", "influx_query_5m_latency_ms"],
      ⟨"manager_self_monitor", "influx_query_5m_latency_ms", some "ms", none⟩),
    (["manager_self_monitor", "influx_query_24h_latency_ms"],
      ⟨"manager_self_monitor", "influx_query_24h_latency_ms", some "ms", none⟩)]

/-- `_LIST_ID_KEYS` -/
def LIST_ID_KEYS : List String := ["mountpoint", "device", "name", "id", "path"]

end Tables

section Slugs

/-- `text.strip("/")` -/
def stripSlashes (text : List Char) : List Char :=
  ((text.dropWhile (· == '/')).reverse.dropWhile (· == '/')).reverse

/-- What `_slug` makes of the characters: slashes and blanks become underscores, and colons go. -/
def slugChars (text : List Char) : List Char :=
  ((stripSlashes text).map fun c => if c == '/' || c == ' ' then '_' else c).filter (· != ':')

-- `str(value)` of a value that is no text
variable (shown : Json → String)

/-- `str(value)` -/
def strOf : Json → String
  | .str text => text
  | value => shown value

/-- `_slug` -/
def slug (ident : Json) : String :=
  if !ident.truthy then ""
  else
    let s := strOf shown ident
    if s = "/" then "root"
    else
      let s := String.ofList (slugChars s.toList)
      if s = "" then "root" else s

/-- The identifier of an item: the first of the keys that has a value. -/
def identOf (item : Fields) : Option Json :=
  (LIST_ID_KEYS.find? fun k => (getItem item k).truthy).map fun k => getItem item k

end Slugs

section Flatten

/-- `float(val)` is too large. -/
inductive Raised where
  | overflowError

/-- What a generator yields, and then another one. -/
def followedBy (first second : Except Raised (List (Path × ℚ))) :
    Except Raised (List (Path × ℚ)) := do
  let yielded ← first
  let more ← second
  pure (yielded ++ more)

/-- A key that names an item. -/
def isIdKey (key : String) : Bool := LIST_ID_KEYS.contains key

variable (shown : Json → String)

mutual
/-- A value of `flatten`, at its path. -/
def flattenValue (cur : Path) : Json → Except Raised (List (Path × ℚ))
  | .int n => if floatable n then .ok [(cur, n)] else .error .overflowError
  | .float (.finite q) => .ok [(cur, q)]
  | .dict items => flattenFields (fun _ => false) cur items
  | .list values => flattenItems cur values
  | _ => .ok []
  termination_by structural v => v

/-- `flatten` of a dictionary, without the keys that are skipped. -/
def flattenFields (skip : String → Bool) (path : Path) :
    List (String × Json) → Except Raised (List (Path × ℚ))
  | [] => .ok []
  | field :: rest => followedBy (flattenField skip path field) (flattenFields skip path rest)
  termination_by structural fields => fields

/-- A key with its value. -/
def flattenField (skip : String → Bool) (path : Path) : String × Json →
    Except Raised (List (Path × ℚ))
  | (key, val) => if skip key then .ok [] else flattenValue (path ++ [key]) val
  termination_by structural field => field

/-- The items of a list. -/
def flattenItems (cur : Path) : List Json → Except Raised (List (Path × ℚ))
  | [] => .ok []
  | item :: rest => followedBy (flattenItem cur item) (flattenItems cur rest)
  termination_by structural items => items

/-- An item of a list: a dictionary with an identifier, whose slug is the next part of the path. -/
def flattenItem (cur : Path) : Json → Except Raised (List (Path × ℚ))
  | .dict item => match identOf item with
    | none => .ok []
    | some ident =>
        if slug shown ident = "" then .ok []
        else flattenFields isIdKey (cur ++ [slug shown ident]) item
  | _ => .ok []
  termination_by structural v => v
end

/-- `flatten` of a metric -/
def flatten (metric : Fields) : Except Raised (List (Path × ℚ)) :=
  flattenFields shown SKIP_TOP_LEVEL.contains [] metric

end Flatten

section Points

/-- `resolve` -/
def resolve (path : Path) (value : ℚ) : String × String × ℚ × Option String :=
  match ALIAS_TABLE.lookup path with
  | some a => (a.source, a.name, (a.transform.map fun f => f value).getD value, a.unit)
  | none => match path with
    | [] => ("", "", value, none)
    | [source] => (source, "value", value, none)
    | source :: rest => (source, "_".intercalate rest, value, none)

/-- A point of `metric_to_points`. -/
structure Point where
  source : String
  metricName : String
  value : ℚ
  timestamp : Option Json
  unit : Option String
  hostname : Option Json

/-- The series of a point. -/
def Point.series (point : Point) : String × String := (point.source, point.metricName)

/-- The value where it counts as true. -/
def given (value : Json) : Option Json := if value.truthy then some value else none

/-- The point of a leaf. -/
def pointOf (host ts : Json) (leaf : Path × ℚ) : Point :=
  let resolved := resolve leaf.1 leaf.2
  { source := resolved.1
    metricName := resolved.2.1
    value := resolved.2.2.1
    timestamp := given ts
    unit := resolved.2.2.2.filter (· != "")
    hostname := given host }

/-- `hostname or metric.get("host") or metric.get("platform")` -/
def hostOf (metric : Fields) (hostname : Json) : Json :=
  if hostname.truthy then hostname
  else if (getItem metric "host").truthy then getItem metric "host" else getItem metric "platform"

/-- The points by their series; the last write wins. -/
def seenPoints (host ts : Json) (leaves : List (Path × ℚ)) : Dict (String × String) Point :=
  leaves.foldl (fun seen leaf => seen.set (pointOf host ts leaf).series (pointOf host ts leaf)) ∅

/-- `metric_to_points` -/
def metricToPoints (shown : Json → String) (metric : Fields) (hostname timestamp : Json) :
    Except Raised (List Point) := do
  let leaves ← flatten shown metric
  let ts := if timestamp.truthy then timestamp else getItem metric "ts"
  pure ((seenPoints (hostOf metric hostname) ts leaves).items.map Prod.snd)

end Points

section Numbers

/-- Numbers of a value, below a path. -/
def under (path : Path) (numbers : List (Path × ℚ)) : List (Path × ℚ) :=
  numbers.map fun number => (path ++ number.1, number.2)

variable (shown : Json → String)

mutual
/-- The finite numbers of a value in their order, each with the path that leads to it: keys, and the
slug of the identifier of an item of a list. -/
def valueNumbers : Json → List (Path × ℚ)
  | .int n => [([], n)]
  | .float (.finite q) => [([], q)]
  | .dict items => numbers (fun _ => false) items
  | .list values => itemsNumbers values
  | _ => []
  termination_by structural v => v

/-- Those of the fields of a dictionary, without the keys that are skipped. -/
def numbers (skip : String → Bool) : List (String × Json) → List (Path × ℚ)
  | [] => []
  | field :: rest => fieldNumbers skip field ++ numbers skip rest
  termination_by structural fields => fields

/-- Those of a key with its value. -/
def fieldNumbers (skip : String → Bool) : String × Json → List (Path × ℚ)
  | (key, val) => if skip key then [] else under [key] (valueNumbers val)
  termination_by structural field => field

/-- Those of a list. -/
def itemsNumbers : List Json → List (Path × ℚ)
  | [] => []
  | item :: rest => itemNumbers item ++ itemsNumbers rest
  termination_by structural items => items

/-- Those of an item of a list that has an identifier. -/
def itemNumbers : Json → List (Path × ℚ)
  | .dict item => match identOf item with
    | none => []
    | some ident => under [slug shown ident] (numbers isIdKey item)
  | _ => []
  termination_by structural v => v
end

/-- A list below some fields, with its path. -/
inductive Listed : (String → Bool) → Fields → Path → List Json → Prop where
  | here {skip : String → Bool} {fields : Fields} {key : String} {values : List Json} :
      (key, .list values) ∈ fields → skip key = false → Listed skip fields [key] values
  | dict {skip : String → Bool} {fields inner : Fields} {key : String} {path : Path}
      {values : List Json} :
      (key, .dict inner) ∈ fields → skip key = false → Listed (fun _ => false) inner path values →
      Listed skip fields (key :: path) values
  | item {skip : String → Bool} {fields inner : Fields} {key : String} {others values : List Json}
      {ident : Json} {path : Path} : (key, .list others) ∈ fields → skip key = false →
      .dict inner ∈ others → identOf inner = some ident → Listed isIdKey inner path values →
      Listed skip fields (key :: slug shown ident :: path) values

mutual
/-- No number that is read from a value is too large. -/
def readableValue : Json → Bool
  | .int n => floatable n
  | .dict items => readableFields (fun _ => false) items
  | .list values => readableItems values
  | _ => true
  termination_by structural v => v

/-- None from these fields. -/
def readableFields (skip : String → Bool) : List (String × Json) → Bool
  | [] => true
  | field :: rest => readableField skip field && readableFields skip rest
  termination_by structural fields => fields

/-- None from a field. -/
def readableField (skip : String → Bool) : String × Json → Bool
  | (key, val) => skip key || readableValue val
  termination_by structural field => field

/-- None from a list. -/
def readableItems : List Json → Bool
  | [] => true
  | item :: rest => readableItem item && readableItems rest
  termination_by structural items => items

/-- None from an item of a list. -/
def readableItem : Json → Bool
  | .dict item => (identOf item).isNone || readableFields isIdKey item
  | _ => true
  termination_by structural v => v
end

variable {shown : Json → String}

/-- An identifier counts as true. -/
theorem ident_truthy {item : Fields} {ident : Json} (h : identOf item = some ident) :
    ident.truthy = true := by
  unfold identOf at h
  obtain ⟨k, hk, rfl⟩ := Option.map_eq_some_iff.mp h
  have hfound := List.find?_some hk
  exact hfound

theorem slug_ne_empty {item : Fields} {ident : Json} (h : identOf item = some ident) :
    slug shown ident ≠ "" := by
  unfold slug
  rw [ident_truthy h, if_neg (by decide)]
  dsimp only
  split
  · decide
  · split
    · decide
    · assumption

@[simp] theorem under_append (path : Path) (first second : List (Path × ℚ)) :
    under path (first ++ second) = under path first ++ under path second := List.map_append

@[simp] theorem under_under (path below : Path) (numbers : List (Path × ℚ)) :
    under path (under below numbers) = under (path ++ below) numbers := by
  unfold under
  rw [List.map_map]
  exact List.map_congr_left fun number _ => Prod.ext (List.append_assoc ..).symm rfl

@[simp] theorem under_nil (numbers : List (Path × ℚ)) : under [] numbers = numbers :=
  List.map_id _

/-- What is yielded, where everything that is read can be read. -/
def yields (readable : Bool) (numbers : List (Path × ℚ)) : Except Raised (List (Path × ℚ)) :=
  if readable then .ok numbers else .error .overflowError

theorem followed_by_yields (a b : Bool) (first second : List (Path × ℚ)) :
    followedBy (yields a first) (yields b second) = yields (a && b) (first ++ second) := by
  cases a <;> cases b <;> rfl

mutual
theorem flatten_value_eq (cur : Path) : ∀ v : Json,
    flattenValue shown cur v = yields (readableValue v) (under cur (valueNumbers shown v))
  | .int n => by
      rw [flattenValue, readableValue, valueNumbers]
      simp [yields, under]
  | .float (.finite q) => by
      show Except.ok [(cur, q)] = yields true [(cur ++ [], q)]
      rw [List.append_nil]
      rfl
  | .float (.inf _) | .float .nan | .null | .bool _ | .str _ => rfl
  | .dict items => by
      rw [flattenValue, readableValue, valueNumbers]
      exact flatten_fields_eq _ cur items
  | .list values => by
      rw [flattenValue, readableValue, valueNumbers]
      exact flatten_items_eq cur values
  termination_by structural v => v

/-- `flatten` yields the numbers below its path, or raises where one of them is too large. -/
theorem flatten_fields_eq (skip : String → Bool) (path : Path) : ∀ fields : List (String × Json),
    flattenFields shown skip path fields =
      yields (readableFields skip fields) (under path (numbers shown skip fields))
  | [] => rfl
  | field :: rest => by
      rw [flattenFields, readableFields, numbers, flatten_field_eq skip path field,
        flatten_fields_eq skip path rest, followed_by_yields, under_append]
  termination_by structural fields => fields

theorem flatten_field_eq (skip : String → Bool) (path : Path) : ∀ field : String × Json,
    flattenField shown skip path field =
      yields (readableField skip field) (under path (fieldNumbers shown skip field))
  | (key, val) => by
      rw [flattenField, readableField, fieldNumbers]
      cases skip key with
      | true => rfl
      | false =>
          rw [if_neg Bool.false_ne_true, if_neg Bool.false_ne_true, flatten_value_eq _ val,
            under_under, Bool.false_or]
  termination_by structural field => field

theorem flatten_items_eq (cur : Path) : ∀ items : List Json,
    flattenItems shown cur items =
      yields (readableItems items) (under cur (itemsNumbers shown items))
  | [] => rfl
  | item :: rest => by
      rw [flattenItems, readableItems, itemsNumbers, flatten_item_eq cur item,
        flatten_items_eq cur rest, followed_by_yields, under_append]
  termination_by structural items => items

theorem flatten_item_eq (cur : Path) : ∀ v : Json,
    flattenItem shown cur v = yields (readableItem v) (under cur (itemNumbers shown v))
  | .int _ | .float _ | .null | .bool _ | .str _ | .list _ => rfl
  | .dict item => by
      rw [flattenItem, readableItem, itemNumbers]
      cases hident : identOf item with
      | none => rfl
      | some ident =>
          dsimp only
          rw [if_neg (slug_ne_empty hident), flatten_fields_eq isIdKey _ item, under_under,
            Option.isNone_some, Bool.false_or]
  termination_by structural v => v
end

theorem number_path_ne_nil {skip : String → Bool} {fields : Fields} {path : Path} {value : ℚ}
    (h : (path, value) ∈ numbers shown skip fields) : path ≠ [] := by
  induction fields with
  | nil => cases h
  | cons field rest ih =>
      rw [numbers] at h
      rcases List.mem_append.mp h with hfield | hrest
      · rw [fieldNumbers] at hfield
        split at hfield
        · cases hfield
        · obtain ⟨number, -, heq⟩ := List.mem_map.mp hfield
          cases heq
          exact List.cons_ne_nil _ _
      · exact ih hrest

theorem mem_numbers {skip : String → Bool} {fields : Fields} {key : String} {val : Json}
    {path : Path} {value : ℚ} (hfield : (key, val) ∈ fields) (hskip : skip key = false)
    (h : (path, value) ∈ valueNumbers shown val) :
    (key :: path, value) ∈ numbers shown skip fields := by
  induction fields with
  | nil => cases hfield
  | cons first rest ih =>
      rw [numbers]
      rcases List.mem_cons.mp hfield with rfl | hrest
      · refine List.mem_append_left _ ?_
        rw [fieldNumbers, hskip]
        exact List.mem_map.mpr ⟨(path, value), h, rfl⟩
      · exact List.mem_append_right _ (ih hrest)

theorem mem_items_numbers {values : List Json} {item : Fields} {ident : Json} {path : Path}
    {value : ℚ} (hitem : .dict item ∈ values) (hident : identOf item = some ident)
    (h : (path, value) ∈ numbers shown isIdKey item) :
    (slug shown ident :: path, value) ∈ itemsNumbers shown values := by
  induction values with
  | nil => cases hitem
  | cons first rest ih =>
      rw [itemsNumbers]
      rcases List.mem_cons.mp hitem with rfl | hrest
      · refine List.mem_append_left _ ?_
        rw [itemNumbers, hident]
        exact List.mem_map.mpr ⟨(path, value), h, rfl⟩
      · exact List.mem_append_right _ (ih hrest)

/-- A number of an item of a list is one of the dictionary that the list stands in. -/
theorem Listed.mem_numbers {skip : String → Bool} {fields item : Fields} {cur rest : Path}
    {values : List Json} {ident : Json} {value : ℚ} (h : Listed shown skip fields cur values)
    (hitem : .dict item ∈ values) (hident : identOf item = some ident)
    (hvalue : (rest, value) ∈ numbers shown isIdKey item) :
    (cur ++ slug shown ident :: rest, value) ∈ numbers shown skip fields := by
  induction h with
  | here hfield hskip =>
      refine Ingest.mem_numbers hfield hskip ?_
      rw [valueNumbers]
      exact mem_items_numbers hitem hident hvalue
  | dict hfield hskip _ ih =>
      refine Ingest.mem_numbers hfield hskip ?_
      rw [valueNumbers]
      exact ih hitem
  | item hfield hskip hother hidentOther _ ih =>
      refine Ingest.mem_numbers hfield hskip ?_
      rw [valueNumbers]
      exact mem_items_numbers hother hidentOther (ih hitem)

theorem Listed.under_key {skip : String → Bool} {fields : Fields} {cur : Path} {values : List Json}
    (h : Listed shown skip fields cur values) : ∃ source mid, cur = source :: mid := by
  cases h with
  | here | dict | item => exact ⟨_, _, rfl⟩

end Numbers

section Series

/-- The series of a path. -/
def seriesOf (path : Path) : String × String := ((resolve path 0).1, (resolve path 0).2.1)

theorem alias_of_long : ∀ entry ∈ ALIAS_TABLE, 3 ≤ entry.1.length →
    (entry.2.source, entry.2.name) = (entry.1.headD "", "_".intercalate entry.1.tail) := by
  decide +kernel

theorem series_of_long {source second third : String} {rest : Path} :
    seriesOf (source :: second :: third :: rest) =
      (source, "_".intercalate (second :: third :: rest)) := by
  unfold seriesOf resolve
  cases hlookup : ALIAS_TABLE.lookup (source :: second :: third :: rest) with
  | none => rfl
  | some a => exact alias_of_long _ (mem_of_lookup_items hlookup) (by simp)

/-- Of two joined paths that differ in one part, the parts can be told. -/
theorem join_injective {mid rest : Path} {s t : String} (hrest : rest ≠ [])
    (h : "_".intercalate (mid ++ s :: rest) = "_".intercalate (mid ++ t :: rest)) : s = t := by
  induction mid with
  | nil =>
      rw [List.nil_append, List.nil_append, String.intercalate_cons_of_ne_nil hrest,
        String.intercalate_cons_of_ne_nil hrest, String.append_assoc, String.append_assoc] at h
      have hchars := congrArg String.toList h
      simp only [String.toList_append] at hchars
      exact String.toList_inj.mp (List.append_cancel_right hchars)
  | cons first mid ih =>
      rw [List.cons_append, List.cons_append, String.intercalate_cons_of_ne_nil (by simp),
        String.intercalate_cons_of_ne_nil (by simp)] at h
      have hchars := congrArg String.toList h
      simp only [String.toList_append] at hchars
      exact ih (String.toList_inj.mp (List.append_cancel_left hchars))

/-- The series of two items of a list differ exactly if their slugs do. -/
theorem series_ne_iff {source : String} {mid rest : Path} {s t : String} (hrest : rest ≠ []) :
    seriesOf (source :: mid ++ s :: rest) ≠ seriesOf (source :: mid ++ t :: rest) ↔ s ≠ t := by
  have hlong : ∀ u : String, seriesOf (source :: mid ++ u :: rest) =
      (source, "_".intercalate (mid ++ u :: rest)) := by
    intro u
    obtain ⟨last, more, rfl⟩ := List.exists_cons_of_ne_nil hrest
    cases mid with
    | nil => exact series_of_long
    | cons second mid =>
        cases mid with
        | nil => exact series_of_long
        | cons third mid => exact series_of_long
  rw [hlong, hlong, not_iff_not, Prod.mk.injEq]
  exact ⟨fun h => join_injective hrest h.2, fun h => ⟨rfl, by rw [h]⟩⟩

theorem point_series (host ts : Json) (leaf : Path × ℚ) :
    (pointOf host ts leaf).series = seriesOf leaf.1 := by
  unfold pointOf Point.series seriesOf resolve
  dsimp only
  cases ALIAS_TABLE.lookup leaf.1 with
  | some a => rfl
  | none =>
      dsimp only
      split <;> rfl

/-- The value of the last of these numbers that the series is named by. -/
def lastNumber (leaves : List (Path × ℚ)) (series : String × String) : Option ℚ :=
  (leaves.reverse.find? fun leaf => seriesOf leaf.1 = series).map fun leaf =>
    (resolve leaf.1 leaf.2).2.2.1

theorem last_number_concat (leaves : List (Path × ℚ)) (last : Path × ℚ) (series : String × String) :
    lastNumber (leaves ++ [last]) series =
      if seriesOf last.1 = series then some (resolve last.1 last.2).2.2.1
      else lastNumber leaves series := by
  unfold lastNumber
  rw [List.reverse_concat, List.find?_cons]
  by_cases h : seriesOf last.1 = series
  · simp [h]
  · simp [h]

/-- A series that a number names has a last number. -/
theorem last_number_some {leaves : List (Path × ℚ)} {leaf : Path × ℚ} (h : leaf ∈ leaves) :
    ∃ value, lastNumber leaves (seriesOf leaf.1) = some value := by
  induction leaves using List.reverseRecOn with
  | nil => cases h
  | append_singleton leaves last ih =>
      rw [last_number_concat]
      split
      · exact ⟨_, rfl⟩
      · rename_i hne
        rcases List.mem_append.mp h with hmem | hmem
        · exact ih hmem
        · rw [List.mem_singleton.mp hmem] at hne
          exact absurd rfl hne

/-- A series has the point of the last number that it is named by. -/
theorem seen_points (host ts : Json) (leaves : List (Path × ℚ)) (series : String × String) :
    ((seenPoints host ts leaves).get? series).map (fun point => (point.series, point.value)) =
      (lastNumber leaves series).map fun value => (series, value) := by
  induction leaves using List.reverseRecOn with
  | nil => rfl
  | append_singleton leaves last ih =>
      have hseen : seenPoints host ts (leaves ++ [last]) =
          (seenPoints host ts leaves).set (seriesOf last.1) (pointOf host ts last) := by
        unfold seenPoints
        rw [List.foldl_append, List.foldl_cons, List.foldl_nil, point_series]
      rw [hseen, Dict.get?_set, last_number_concat]
      by_cases h : seriesOf last.1 = series
      · rw [if_pos h.symm, if_pos h, Option.map_some, Option.map_some, point_series, h]
        rfl
      · rw [if_neg fun e => h e.symm, if_neg h]
        exact ih

/-- The points of a series have the value of its last number. -/
theorem point_of_series (host ts : Json) (leaves : List (Path × ℚ)) (series : String × String)
    (value : ℚ) :
    (∃ point ∈ (seenPoints host ts leaves).items.map Prod.snd,
        point.series = series ∧ point.value = value) ↔ lastNumber leaves series = some value := by
  constructor
  · rintro ⟨point, hpoint, hseries, hvalue⟩
    obtain ⟨⟨key, _⟩, hitem, rfl⟩ := List.mem_map.mp hpoint
    have hseen := seen_points host ts leaves key
    rw [Dict.mem_items_iff.mp hitem] at hseen
    obtain ⟨last, hlast, heq⟩ := Option.map_eq_some_iff.mp hseen.symm
    cases heq
    rw [← hseries, ← hvalue]
    exact hlast
  · intro hlast
    have hseen := seen_points host ts leaves series
    rw [hlast, Option.map_some] at hseen
    obtain ⟨point, hpoint, heq⟩ := Option.map_eq_some_iff.mp hseen
    obtain ⟨hseries, hvalue⟩ := Prod.mk.inj heq
    exact ⟨point, List.mem_map_of_mem (Dict.mem_items_iff.mpr hpoint), hseries, hvalue⟩

end Series

section KeptApart

variable (shown : Json → String)

/-- The finite numbers of a metric. -/
def metricNumbers (metric : Fields) : List (Path × ℚ) :=
  numbers shown SKIP_TOP_LEVEL.contains metric

/-- The last number of the metric that names the series of this one has another value: a further
item with the same slug, a key whose path joins to the same name, or an alias of that name. -/
def Overwritten (metric : Fields) (number : Path × ℚ) : Prop :=
  ∃ value ∈ lastNumber (metricNumbers shown metric) (seriesOf number.1), value ≠ number.2

instance (metric : Fields) (number : Path × ℚ) : Decidable (Overwritten shown metric number) :=
  inferInstanceAs (Decidable (∃ value ∈ lastNumber _ _, _))

theorem not_overwritten_iff {metric : Fields} {number : Path × ℚ}
    (h : number ∈ metricNumbers shown metric) :
    ¬ Overwritten shown metric number ↔
      lastNumber (metricNumbers shown metric) (seriesOf number.1) = some number.2 := by
  obtain ⟨value, hvalue⟩ := last_number_some h
  unfold Overwritten
  simp [hvalue]

/-- The points are those of the finite numbers, where all of them can be read. -/
theorem metric_to_points_eq {metric : Fields} {hostname timestamp : Json} {points : List Point} :
    metricToPoints shown metric hostname timestamp = .ok points ↔
      readableFields SKIP_TOP_LEVEL.contains metric = true ∧
        (seenPoints (hostOf metric hostname)
          (if timestamp.truthy then timestamp else getItem metric "ts")
          (metricNumbers shown metric)).items.map Prod.snd = points := by
  have hflatten : flatten shown metric = yields (readableFields SKIP_TOP_LEVEL.contains metric)
      (metricNumbers shown metric) := by
    rw [flatten, flatten_fields_eq, under_nil]
    rfl
  unfold metricToPoints
  rw [hflatten]
  cases readableFields SKIP_TOP_LEVEL.contains metric with
  | false => exact ⟨nofun, fun h => nomatch h.1⟩
  | true => exact ⟨fun h => ⟨rfl, Except.ok.inj h⟩, fun h => congrArg Except.ok h.2⟩

/-- The points of a metric have two different series for the paths of two numbers, each with the
value of its number. -/
def KeptApart (metric : Fields) (hostname timestamp : Json) (first second : Path × ℚ) : Prop :=
  ∃ points, metricToPoints shown metric hostname timestamp = .ok points ∧
    seriesOf first.1 ≠ seriesOf second.1 ∧
    (∃ x ∈ points, x.series = seriesOf first.1 ∧ x.value = first.2) ∧
    ∃ y ∈ points, y.series = seriesOf second.1 ∧ y.value = second.2

/-- Two items of one list, anywhere in a metric, that have identifiers and the same finite leaf give
two different series with their values if and only if no number that is read from the metric is too
large for a float, the slugs of the identifiers differ, and neither number is overwritten. -/
theorem kept_apart_iff (metric : Fields) (hostname timestamp : Json) (cur rest : Path)
    (values : List Json) (first second : Fields) (i j : Json) (v w : ℚ)
    (hlisted : Listed shown SKIP_TOP_LEVEL.contains metric cur values)
    (hfirst : .dict first ∈ values) (hsecond : .dict second ∈ values)
    (hi : identOf first = some i) (hj : identOf second = some j)
    (hv : (rest, v) ∈ numbers shown isIdKey first) (hw : (rest, w) ∈ numbers shown isIdKey second) :
    KeptApart shown metric hostname timestamp (cur ++ slug shown i :: rest, v)
        (cur ++ slug shown j :: rest, w) ↔
      readableFields SKIP_TOP_LEVEL.contains metric = true ∧ slug shown i ≠ slug shown j ∧
        ¬ Overwritten shown metric (cur ++ slug shown i :: rest, v) ∧
        ¬ Overwritten shown metric (cur ++ slug shown j :: rest, w) := by
  rw [not_overwritten_iff shown (hlisted.mem_numbers hfirst hi hv),
    not_overwritten_iff shown (hlisted.mem_numbers hsecond hj hw)]
  obtain ⟨source, mid, rfl⟩ := hlisted.under_key
  unfold KeptApart
  simp only [metric_to_points_eq, and_assoc, exists_and_left, exists_eq_left', point_of_series,
    series_ne_iff (number_path_ne_nil hv)]

/-- The disks of a host with their usage. -/
def disks (first second : String) : List Json :=
  [.dict [("mountpoint", .str first), ("percent", .int 5)],
    .dict [("mountpoint", .str second), ("percent", .int 7)]]

theorem disks_listed (first second : String) :
    Listed shown SKIP_TOP_LEVEL.contains [("disk", .list (disks first second))] ["disk"]
      (disks first second) :=
  .here List.mem_cons_self (by decide)

/-- The root and the home of a host are kept apart. -/
theorem root_home_apart :
    KeptApart (fun _ => "") [("disk", .list (disks "/" "/home"))] .null .null
      (["disk"] ++ slug (fun _ => "") (.str "/") :: ["percent"], 5)
      (["disk"] ++ slug (fun _ => "") (.str "/home") :: ["percent"], 7) :=
  (kept_apart_iff (fun _ => "")
    [("disk", .list (disks "/" "/home"))] .null .null ["disk"] ["percent"]
    (disks "/" "/home") _ _ (.str "/") (.str "/home") 5 7 (disks_listed _ "/" "/home")
    List.mem_cons_self (List.mem_cons_of_mem _ List.mem_cons_self) (by rfl) (by rfl)
    (by decide +kernel) (by decide +kernel)).mpr
    ⟨by decide +kernel, by decide +kernel, by decide +kernel, by decide +kernel⟩

/-- Not all items with different identifiers are: a blank and an underscore have one slug, and the
usage of the first disk is overwritten; and a key below an item can continue the slug of another. -/
theorem blank_underscore_collide :
    ¬ ∀ (metric : Fields) (cur rest : Path) (values : List Json)
      (first second : Fields) (i j : Json)
      (v w : ℚ), Listed (fun _ => "") SKIP_TOP_LEVEL.contains metric cur values →
      .dict first ∈ values → .dict second ∈ values → identOf first = some i →
      identOf second = some j →
      i ≠ j → (rest, v) ∈ numbers (fun _ => "") isIdKey first →
      (rest, w) ∈ numbers (fun _ => "") isIdKey second →
      readableFields SKIP_TOP_LEVEL.contains metric = true →
      KeptApart (fun _ => "") metric .null .null (cur ++ slug (fun _ => "") i :: rest, v)
        (cur ++ slug (fun _ => "") j :: rest, w) := by
  intro hall
  have hapart := hall [("disk", .list (disks "a b" "a_b"))] ["disk"] ["percent"]
    (disks "a b" "a_b") _ _
    (.str "a b") (.str "a_b") 5 7 (disks_listed _ "a b" "a_b") List.mem_cons_self
    (List.mem_cons_of_mem _ List.mem_cons_self) (by rfl) (by rfl) (by simp)
    (by decide +kernel) (by decide +kernel) (by decide +kernel)
  obtain ⟨points, -, hne, -⟩ := hapart
  have hsame : slug (fun _ => "") (.str "a b") = slug (fun _ => "") (.str "a_b") := by
    decide +kernel
  rw [hsame] at hne
  exact hne rfl

-- Two slugs differ, and a key below the second item continues it to the name of the first.
example : lastNumber (metricNumbers (fun _ => "") [("disk", .list
    [.dict [("mountpoint", .str "/mnt/data"), ("percent", .int 7)],
      .dict [("mountpoint", .str "/mnt"), ("percent", .int 5),
        ("data", .dict [("percent", .int 1)])]])])
    (seriesOf ["disk", "mnt_data", "percent"]) = some 1 := by decide +kernel

end KeptApart

end SystemsManager.Alarms.Ingest
