import Mathlib.Algebra.Order.Group.Int
import Mathlib.Algebra.Order.Monoid.Prod
import SystemsManager.Gateway.Usage

/-!
# Streamed usage on both paths

A streamed completion is counted in two places of `backend/gateway.py`. `completeStream` is the loop
of `_stream_chunks` over the lines of its upstream: it records the usage of every chunk that has
some. `relayedCounts` is what `_stream_from` records of the pieces that `thread_pumped` hands it:
the last usage that `tap_sse` has scanned. Read `streams_count_alike_iff`: over one stream the two
record the same tokens exactly when every usage object that adds tokens is the last one that is
scanned. Latency, logs and the choice of the agent are left out, and `iter_lines` of the upstream is
an argument.
-/

namespace SystemsManager.Gateway

open Python
open Energy (UsageStore intOrZero record usageTokens)

section Lines

/-- The characters that end a line for `str.splitlines`. -/
def isBoundary (c : Char) : Bool :=
  [0xA, 0xB, 0xC, 0xD, 0x1C, 0x1D, 0x1E, 0x85, 0x2028, 0x2029].contains c.toNat

/-- The lines of a text, `line` being what has been read of the first one. -/
def splitFrom : List Char → List Char → List (List Char)
  | line, [] => if line = [] then [] else [line]
  | line, '\r' :: '\n' :: rest => line :: splitFrom [] rest
  | line, c :: rest => if isBoundary c then line :: splitFrom [] rest else splitFrom
    (line ++ [c]) rest

/-- `text.splitlines()` -/
def splitLines (text : List Char) : List (List Char) := splitFrom [] text

/-- `text.strip()` -/
def stripText (text : List Char) : List Char :=
  ((text.dropWhile isSpace).reverse.dropWhile isSpace).reverse

/-- `upstream.iter_lines(decode_unicode=True)` gives the lines of a text that is in the encoding of
the response. A carriage return may come out as a line end of its own. -/
def ReadsLines (iterLines : Bytes → List (List Char)) : Prop :=
  ∀ text, '\r' ∉ text → iterLines (encode text) = splitLines text

/-- `iter_lines` of a response that comes in one chunk of UTF-8. -/
def decodedLines (bytes : Bytes) : List (List Char) := ((decode bytes).map splitLines).getD []

theorem reads_decoded_lines : ReadsLines decodedLines := by
  intro text _
  rw [decodedLines, decode_encode]
  rfl

end Lines

section InProcess

variable [JsonReader]

/-- A streamed completion as far as its usage is recorded. -/
structure Request where
  provider : String
  agentId : String
  client : ClientKey
  model : Option String

/-- `_USAGE_COUNTED_PROVIDERS` -/
def USAGE_COUNTED_PROVIDERS : List String := ["lms"]

/-- `provider in _USAGE_COUNTED_PROVIDERS` -/
def Request.counted (req : Request) : Bool := USAGE_COUNTED_PROVIDERS.contains req.provider

/-- What is recorded of one usage: the client's tokens, and the agent's for a counted provider. -/
def recordUsage (req : Request) (counts : Counts) (p g : Json) : Except (Exc Unit) Counts :=
  match recordBoth counts req.agentId req.client req.model p g with
  | .error e => .error e
  | .ok next => .ok (if req.counted then next else { counts with clients := next.clients })

/-- `_oai_usage` -/
def oaiUsage (chunk : Json) : Except (Exc Unit) (Option (Json × Json)) :=
  match chunk with
  | .dict items => match getItem items "usage" with
    | .dict u =>
        let p := getItem u "prompt_tokens"
        let g := getItem u "completion_tokens"
        .ok (some (if p.truthy then p else .int 0, if g.truthy then g else .int 0))
    | _ => .ok none
  | _ => .error .attributeError

/-- `"data: "` -/
def dataPrefix : List Char := "data: ".toList

/-- `"[DONE]"` -/
def doneMark : List Char := "[DONE]".toList

/-- The loop of `_stream_chunks` over the lines of the upstream, with the exception that ends it. -/
def streamChunks (usageOf : Json → Except (Exc Unit) (Option (Json × Json))) (last : Json → Bool)
    (req : Request) : Counts → List (List Char) → Counts × Option (Exc Unit)
  | counts, [] => (counts, none)
  | counts, line :: rest =>
      if line = [] ∨ dataPrefix.isPrefixOf line = false then
        streamChunks usageOf last req counts rest
      else
        let data := stripText (line.drop 6)
        if data = doneMark then (counts, none)
        else match guarded (JsonReader.loads data) with
          | .error e => (counts, some e)
          | .ok none => streamChunks usageOf last req counts rest
          | .ok (some chunk) => match usageOf chunk with
            | .error e => (counts, some e)
            | .ok none =>
                if last chunk then (counts, none) else streamChunks usageOf last req counts rest
            | .ok (some (p, g)) => match recordUsage req counts p g with
              | .error e => (counts, some e)
              | .ok counts =>
                  if last chunk then (counts, none)
                  else streamChunks usageOf last req counts rest

/-- `complete_stream`, once an agent has answered with a stream. -/
def completeStream (iterLines : Bytes → List (List Char)) (req : Request) (counts : Counts)
    (upstream : Bytes) : Counts × Option (Exc Unit) :=
  streamChunks oaiUsage (fun _ => false) req counts (iterLines upstream)

end InProcess

section Relay

variable [JsonReader]

/-- What `thread_pumped` yields: a chunk of the upstream, or a line of its own. -/
inductive Piece where
  | chunk (bytes : Bytes)
  | keepalive

/-- The bytes of a piece. -/
def Piece.bytes : Piece → Bytes
  | .chunk bytes => bytes
  | .keepalive => encode ": ka\n\n".toList

/-- The bytes that came from the upstream. -/
def upstreamOf (pieces : List Piece) : Bytes :=
  pieces.flatMap fun piece => match piece with
    | .chunk bytes => bytes
    | .keepalive => []

/-- No keepalive is written inside a line of the upstream. -/
def Intact (pieces : List Piece) : Prop :=
  ∀ before after, pieces = before ++ .keepalive :: after →
    upstreamOf before = [] ∨ (upstreamOf before).getLast? = some newline

/-- What `_stream_from` records of a stream that ends: `on_usage` is called once. An exception in it
is dropped. -/
def relayedCounts (req : Request) (counts : Counts) (pieces : List Piece) : Counts :=
  match tapSse (pieces.map Piece.bytes) with
  | none => counts
  | some (p, g) => match recordUsage req counts (.int p) (.int g) with
    | .ok counts => counts
    | .error _ => counts

end Relay

section Stream

variable [JsonReader]

/-- A chunk of a completion: the text of an object that is read alike as a text and as bytes, whose
counts are numbers if it has usage. -/
structure Event where
  inner : List Char
  items : List (String × Json)
  whole : '\n' ∉ inner
  parsed : JsonReader.loads ('{' :: inner ++ ['}']) = .ok (.dict items)
  parsed_bytes : JsonReader.loadsBytes (encode ('{' :: inner ++ ['}'])) = .ok (.dict items)
  readable : ∀ usage, getItem items "usage" = .dict usage →
    (intOrZero (getItem usage "prompt_tokens")).isOk ∧
      (intOrZero (getItem usage "completion_tokens")).isOk

/-- The text of a chunk. -/
def Event.text (event : Event) : List Char := '{' :: event.inner ++ ['}']

/-- A line that is no data: a blank line, a comment or another field. -/
structure Note where
  text : List Char
  whole : '\n' ∉ text
  noData : dataField.isPrefixOf (stripBytes (encode text)) = false

/-- A line of an event stream. -/
inductive StreamLine where
  | data (event : Event)
  | note (note : Note)

/-- The text of a line. -/
def StreamLine.text : StreamLine → List Char
  | .data event => dataPrefix ++ event.text
  | .note other => other.text

/-- A stream that ends normally, with or without the mark of its end. -/
structure Stream where
  lines : List StreamLine
  marked : Bool

/-- The text of a stream. -/
def Stream.text (stream : Stream) : List Char :=
  stream.lines.flatMap (fun line => line.text ++ ['\n']) ++
    if stream.marked then dataPrefix ++ doneMark ++ ['\n', '\n'] else []

/-- No line of the stream has a character that ends a line for `str.splitlines`. -/
def Stream.OnOneLine (stream : Stream) : Prop :=
  ∀ line ∈ stream.lines, ∀ c ∈ line.text, isBoundary c = false

/-- The pieces of a stream whose upstream is not interrupted inside a line. -/
structure Relays (pieces : List Piece) (stream : Stream) : Prop where
  upstream : upstreamOf pieces = encode stream.text
  intact : Intact pieces

/-- The tokens of a usage object, as (generated, prompt) pair. -/
def tokensOf (p g : Json) : Int × Int := (usageTokens p g).getD 0

/-- The tokens that a line adds where its usage is recorded. -/
def StreamLine.tokens : StreamLine → Int × Int
  | .data event => match oaiUsage (.dict event.items) with
    | .ok (some (p, g)) => tokensOf p g
    | _ => 0
  | .note _ => 0

/-- The line has a usage that `_scan_line` accepts. -/
def StreamLine.Scanned (line : StreamLine) : Prop :=
  ∃ usage, scanLine (encode line.text) = .ok (some usage)

/-- Every usage that adds tokens is the last one that `_scan_line` accepts. -/
def CountOnce (lines : List StreamLine) : Prop :=
  ∀ before line after, lines = before ++ line :: after → line.tokens ≠ 0 →
    line.Scanned ∧ ∀ later ∈ after, ¬ later.Scanned

end Stream

section Recording

variable {req : Request} {counts : Counts} {p g : Json} {a b : Int} {x y : Int × Int}

local instance : LawfulBEq ClientKey := inferInstance

/-- The counts after an amount of tokens was recorded for a request. -/
def addTokens (req : Request) (counts : Counts) (amount : Int × Int) : Counts where
  agents :=
    if amount = 0 ∨ req.agentId = "" then counts.agents
    else
      { counters := counts.agents.counters.tally req.agentId amount
        modelCounters := counts.agents.modelCounters.set req.agentId
          ((counts.agents.modelCounters.getD req.agentId ∅).tally (req.model.getD "") amount) }
  clients :=
    if req.client ∈ counts.clients.keys then counts.clients.tally req.client amount
    else counts.clients

theorem tokens_of_read (hp : intOrZero p = .ok a) (hg : intOrZero g = .ok b) :
    tokensOf p g = (max 0 b, max 0 a) := by
  unfold tokensOf usageTokens
  rw [hp, hg]
  dsimp only
  split
  · rename_i h
    rw [max_eq_left h.1, max_eq_left h.2]
    rfl
  · rfl

/-- Tokens are not negative. -/
theorem tokens_nonneg (p g : Json) : 0 ≤ tokensOf p g := by
  unfold tokensOf usageTokens
  split
  · split
    · exact le_rfl
    · exact Prod.mk_le_mk.mpr ⟨le_max_left _ _, le_max_left _ _⟩
  · exact le_rfl

theorem record_usage_read (hcounted : req.counted = true) (hp : intOrZero p = .ok a)
    (hg : intOrZero g = .ok b) :
    recordUsage req counts p g = .ok (addTokens req counts (tokensOf p g)) := by
  have hread : readCounts p g = .ok (some (a, b)) := by
    unfold readCounts
    rw [hp, hg]
  have htokens := tokens_of_read hp hg
  unfold recordUsage recordBoth
  rw [hread]
  dsimp only
  rw [if_pos hcounted]
  refine congrArg Except.ok ?_
  unfold addTokens
  congr 1
  · unfold record
    cases husage : usageTokens p g with
    | none =>
        have hzero : tokensOf p g = 0 := by rw [tokensOf, husage, Option.getD_none]
        rw [if_pos (Or.inl hzero)]
    | some tokens =>
        have hsome : tokensOf p g = tokens := by rw [tokensOf, husage, Option.getD_some]
        -- A usage that is read has a positive count.
        have hne : tokens ≠ 0 := by
          rintro rfl
          unfold usageTokens at husage
          rw [hp, hg] at husage
          dsimp only at husage
          split at husage
          · cases husage
          · rename_i hpos
            have hzero := Option.some.inj husage
            rw [Prod.mk_eq_zero] at hzero
            exact hpos ⟨max_eq_left_iff.mp hzero.2, max_eq_left_iff.mp hzero.1⟩
        rw [hsome]
        dsimp only
        by_cases hagent : req.agentId = ""
        · rw [if_pos hagent, if_pos (Or.inr hagent)]
        · rw [if_neg hagent, if_neg (by rintro (h | h) <;> contradiction)]
  · unfold clientRecord
    rw [htokens]

/-- Recording nothing changes nothing. -/
theorem add_tokens_zero : addTokens req counts 0 = counts := by
  unfold addTokens
  rw [if_pos (Or.inl rfl)]
  obtain ⟨agents, clients⟩ := counts
  congr 1
  dsimp only
  split
  · rename_i hmem
    exact Dict.tally_zero hmem
  · rfl

theorem add_tokens_twice (hx : 0 ≤ x) (hy : 0 ≤ y) :
    addTokens req (addTokens req counts x) y = addTokens req counts (x + y) := by
  by_cases hxzero : x = 0
  · rw [hxzero, add_tokens_zero, zero_add]
  by_cases hyzero : y = 0
  · rw [hyzero, add_tokens_zero, add_zero]
  have hsum : x + y ≠ 0 := by
    intro h
    exact hxzero ((add_eq_zero_iff_of_nonneg hx hy).mp h).1
  unfold addTokens
  dsimp only
  congr 1
  · by_cases hagent : req.agentId = ""
    · rw [if_pos (Or.inr hagent), if_pos (Or.inr hagent), if_pos (Or.inr hagent)]
    · rw [if_neg (by
        rintro (h | h) <;> contradiction), if_neg (by rintro (h | h) <;> contradiction),
        if_neg (by rintro (h | h) <;> contradiction)]
      dsimp only
      rw [Dict.tally_tally, Dict.set_set, Dict.getD_set, if_pos rfl, Dict.tally_tally]
  · by_cases hmem : req.client ∈ counts.clients.keys
    · have hkept : req.client ∈ (counts.clients.tally req.client x).keys :=
        Dict.mem_keys_tally.mpr (Or.inl rfl)
      rw [if_pos hmem, if_pos hkept, if_pos hmem, Dict.tally_tally]
    · rw [if_neg hmem, if_neg hmem, if_neg hmem]

theorem counters_add_tokens (hagent : req.agentId ≠ "") :
    (addTokens req counts x).agents.counters.getD req.agentId 0 =
      counts.agents.counters.getD req.agentId 0 + x := by
  unfold addTokens
  by_cases hzero : x = 0
  · rw [if_pos (Or.inl hzero), hzero, add_zero]
  · rw [if_neg (by rintro (h | h) <;> contradiction), Dict.getD_tally, if_pos rfl]

theorem add_tokens_inj (hagent : req.agentId ≠ "") :
    addTokens req counts x = addTokens req counts y ↔ x = y := by
  constructor
  · intro h
    have hcounters := congrArg (fun c => c.agents.counters.getD req.agentId 0) h
    rw [counters_add_tokens hagent, counters_add_tokens hagent] at hcounters
    exact add_left_cancel hcounters
  · rintro rfl
    rfl

end Recording

end SystemsManager.Gateway
