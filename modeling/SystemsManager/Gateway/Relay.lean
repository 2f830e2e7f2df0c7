import SystemsManager.Gateway.Usage

/-!
# The relay of a stream

The whole of `tap_sse` of `backend/gateway_usage.py`: what it yields, how often it calls `on_chunk`
and what it hands to `on_usage`, in both of its modes. `feed` is its loop on one chunk, `flush` the
branch for an unterminated last line, `leave` its `finally`. An exception of `_scan_line` ends the
relay: `int` is called on counts that may be no numbers. Read `relay_chunk_independent`: chunks make
no difference if and only if no line of the stream raises so, and no usage-only line is without a
count that `_scan_line` reads.
-/

namespace SystemsManager.Gateway

open Python

section Relaying

variable [JsonReader]

section Source

/-- `_bare_usage` -/
def bareUsage (line : Bytes) : Except (Exc Unit) Bool :=
  let line := stripBytes line
  if dataField.isPrefixOf line then
    match guarded (JsonReader.loadsBytes (stripBytes (line.drop 5))) with
    | .error e => .error e
    | .ok (some (.dict items)) =>
        match getItem items "usage" with
        | .dict _ => .ok !(getItem items "choices").truthy
        | _ => .ok false
    | .ok _ => .ok false
  else .ok false

/-- The names in `_CONTENT_RE`, with their quotes and the colon. -/
def contentKeys : List Bytes :=
  ["\"content\":", "\"reasoning_content\":", "\"arguments\":"].map fun key => encode key.toList

/-- `\s*"[^"]` -/
def startsText (bytes : Bytes) : Bool :=
  match bytes.dropWhile isSpaceByte with
  | quote :: first :: _ => quote == 34 && first != 34
  | _ => false

/-- `_CONTENT_RE` at the beginning of these bytes. -/
def matchesContent (bytes : Bytes) : Bool :=
  contentKeys.any fun key => key.isPrefixOf bytes && startsText (bytes.drop key.length)

/-- `_is_content_chunk` -/
def isContentChunk (line : Bytes) : Bool :=
  let line := line.dropWhile isSpaceByte
  dataField.isPrefixOf line && line.tails.any matchesContent

/-- The variables of `tap_sse`, with what it has yielded and how often it has called `on_chunk`. -/
structure SseTap where
  buf : Bytes := []
  last : Option (Int × Int) := none
  out : Bytes := []
  yielded : List Bytes := []
  chunkCalls : ℕ := 0

namespace SseTap

/-- `_saw` -/
def saw (r : SseTap) (line : Bytes) : SseTap :=
  if isContentChunk line then { r with chunkCalls := r.chunkCalls + 1 } else r

/-- One line, without `strip_usage`. -/
def plainLine (r : SseTap) (line : Bytes) : SseTap × Option (Exc Unit) :=
  match scanLine line with
  | .error e => (r, some e)
  | .ok usage => (saw { r with last := usage.or r.last } line, none)

/-- One line, with `strip_usage`. -/
def strippedLine (r : SseTap) (line : Bytes) : SseTap × Option (Exc Unit) :=
  let r := r.saw line
  match scanLine line with
  | .error e => (r, some e)
  | .ok none => ({ r with out := r.out ++ (line ++ [newline]) }, none)
  | .ok (some usage) =>
      let r := { r with last := some usage }
      match bareUsage line with
      | .error e => (r, some e)
      | .ok true => (r, none)
      | .ok false => ({ r with out := r.out ++ (line ++ [newline]) }, none)

/-- One line in either mode. -/
def line (stripUsage : Bool) (r : SseTap) (line : Bytes) : SseTap × Option (Exc Unit) :=
  if stripUsage then r.strippedLine line else r.plainLine line

/-- The loop over the lines in the buffer: `current` is what has been read since the last newline.
An exception leaves the lines after it in the buffer. -/
def scan (stripUsage : Bool) (r : SseTap) : Bytes → Bytes → SseTap × Option (Exc Unit)
  | current, [] => ({ r with buf := current }, none)
  | current, b :: rest =>
      if b = newline then
        match r.line stripUsage current with
        | (r, some e) => ({ r with buf := rest }, some e)
        | (r, none) => scan stripUsage r [] rest
      else scan stripUsage r (current ++ [b]) rest

/-- One chunk. -/
def feed (stripUsage : Bool) (r : SseTap) (chunk : Bytes) : SseTap × Option (Exc Unit) :=
  match scan stripUsage { r with out := [] } [] (r.buf ++ chunk) with
  | (r, some e) => (r, some e)
  | (r, none) =>
      if stripUsage then
        (if r.out = [] then r else { r with yielded := r.yielded ++ [r.out] }, none)
      else ({ r with yielded := r.yielded ++ [chunk] }, none)

/-- The chunks of a stream, up to the exception that ends it. -/
def run (stripUsage : Bool) : SseTap → List Bytes → SseTap × Option (Exc Unit)
  | r, [] => (r, none)
  | r, chunk :: rest =>
      match r.feed stripUsage chunk with
      | (r, some e) => (r, some e)
      | (r, none) => run stripUsage r rest

/-- What `strip_usage` does with an unterminated last line. -/
def flush (stripUsage : Bool) (r : SseTap) : SseTap × Option (Exc Unit) :=
  if stripUsage ∧ r.buf ≠ [] then
    match scanLine r.buf with
    | .error e => (r, some e)
    | .ok usage =>
        let r := { r with last := usage.or r.last }
        match if usage.isSome then bareUsage r.buf else .ok false with
        | .error e => (r, some e)
        | .ok bare =>
            ({ r with
              yielded := if bare then r.yielded else r.yielded ++ [r.buf]
              buf := [] }, none)
  else (r, none)

end SseTap

/-- What `tap_sse` has done when it ends: what it yielded, its calls, and what it raised. -/
structure Relayed where
  output : List Bytes
  chunkCalls : ℕ
  usageCalls : List (Int × Int)
  raised : Option (Exc Unit)

/-- The `finally`. -/
def SseTap.leave (r : SseTap) (raised : Option (Exc Unit)) : Relayed :=
  if r.buf = [] then ⟨r.yielded, r.chunkCalls, r.last.toList, raised⟩
  else
    match scanLine r.buf with
    | .error e => ⟨r.yielded, r.chunkCalls, [], some e⟩
    | .ok usage => ⟨r.yielded, r.chunkCalls, (usage.or r.last).toList, raised⟩

/-- `tap_sse`, consumed to its end. -/
def relay (stripUsage : Bool) (chunks : List Bytes) : Relayed :=
  match SseTap.run stripUsage {} chunks with
  | (r, some e) => r.leave (some e)
  | (r, none) =>
      let (r, raised) := r.flush stripUsage
      r.leave raised

end Source

section Specification

/-- The usage that a line reports. -/
def usageIn (line : Bytes) : Option (Int × Int) :=
  match scanLine line with
  | .ok usage => usage
  | .error _ => none

/-- The line is usage-only: `_bare_usage` says so. -/
def usageOnly (line : Bytes) : Bool :=
  match bareUsage line with
  | .ok bare => bare
  | .error _ => false

/-- The input without its usage-only lines. -/
def withoutUsageOnly (stream : Bytes) : Bytes :=
  ((lines stream).filter fun line => !usageOnly line).flatten

/-- The chunks of a stream make no difference. -/
structure ChunkIndependent (stream : Bytes) : Prop where
  ends : ∀ stripUsage chunks, chunks.flatten = stream → (relay stripUsage chunks).raised = none
  output_alike : ∀ stripUsage chunks chunks', chunks.flatten = stream → chunks'.flatten = stream →
    (relay stripUsage chunks).output.flatten = (relay stripUsage chunks').output.flatten
  chunk_calls_alike : ∀ stripUsage chunks chunks', chunks.flatten = stream →
    chunks'.flatten = stream →
    (relay stripUsage chunks).chunkCalls = (relay stripUsage chunks').chunkCalls
  usage_alike : ∀ stripUsage stripUsage' chunks chunks', chunks.flatten = stream →
    chunks'.flatten = stream →
    (relay stripUsage chunks).usageCalls = (relay stripUsage' chunks').usageCalls
  one_usage : ∀ stripUsage chunks, chunks.flatten = stream →
    (relay stripUsage chunks).usageCalls.length ≤ 1
  plain : ∀ chunks, chunks.flatten = stream → (relay false chunks).output.flatten = stream
  stripped : ∀ chunks, chunks.flatten = stream →
    (relay true chunks).output.flatten = withoutUsageOnly stream

/-- `_scan_line` raises on no line of the stream, and finds a usage on every usage-only one. -/
def Readable (stream : Bytes) : Prop :=
  ∀ line ∈ lines stream, (scanLine line).isOk = true ∧
    (usageOnly line = true → (usageIn line).isSome = true)

end Specification

section Lines

variable {line current rest tail : Bytes} {ended : List Bytes} {r : SseTap} {stripUsage : Bool}

@[simp] theorem scan_line_newline (line : Bytes) :
    scanLine (line ++ [newline]) = scanLine line := by
  unfold scanLine
  rw [strip_bytes_newline]

@[simp] theorem usage_only_newline (line : Bytes) :
    usageOnly (line ++ [newline]) = usageOnly line := by
  unfold usageOnly bareUsage
  rw [strip_bytes_newline]

@[simp] theorem usage_in_newline (line : Bytes) : usageIn (line ++ [newline]) = usageIn line := by
  unfold usageIn
  rw [scan_line_newline]

/-- The line is dropped by `strip_usage`. -/
def dropped (line : Bytes) : Bool := (usageIn line).isSome && usageOnly line

/-- The last usage of these lines. -/
def lastUsageOf (last : Option (Int × Int)) (ended : List Bytes) : Option (Int × Int) :=
  ended.foldl (fun last line => (usageIn line).or last) last

/-- The lines that `strip_usage` keeps. -/
def keptLines (ended : List Bytes) : Bytes :=
  (ended.filter fun line => !dropped line).flatMap fun line => line ++ [newline]

/-- The relay after these lines, with the rest of the stream in its buffer. -/
def SseTap.after (stripUsage : Bool) (r : SseTap) (ended : List Bytes) (tail : Bytes) : SseTap where
  buf := tail
  last := lastUsageOf r.last ended
  out := if stripUsage then r.out ++ keptLines ended else r.out
  yielded := r.yielded
  chunkCalls := r.chunkCalls + ended.countP isContentChunk

theorem scan_line_ok (h : (scanLine line).isOk = true) : scanLine line = .ok (usageIn line) := by
  unfold usageIn
  cases hscan : scanLine line with
  | error e =>
      rw [hscan] at h
      cases h
  | ok usage => rfl

/-- A line with a usage is read again by `_bare_usage`, which does not raise either. -/
theorem bare_usage_ok {usage : Int × Int} (h : usageIn line = some usage) :
    bareUsage line = .ok (usageOnly line) := by
  have hread : ∃ bare, bareUsage line = .ok bare := by
    unfold usageIn scanLine at h
    dsimp only at h
    by_cases hdata : dataField.isPrefixOf (stripBytes line) ∧ usageMark <:+: stripBytes line
    · rw [if_pos hdata, usageFromJsonBytes] at h
      unfold bareUsage
      dsimp only
      rw [if_pos hdata.1]
      cases hread : guarded (JsonReader.loadsBytes (stripBytes ((stripBytes line).drop 5))) with
      | error e =>
          rw [hread] at h
          cases h
      | ok data =>
          split
          · contradiction
          · split
            · exact ⟨_, rfl⟩
            · exact ⟨_, rfl⟩
          · exact ⟨_, rfl⟩
    · rw [if_neg hdata] at h
      cases h
  obtain ⟨bare, hbare⟩ := hread
  rw [usageOnly, hbare]

omit [JsonReader] in
theorem saw_eq (r : SseTap) (line : Bytes) :
    r.saw line = { r with chunkCalls := r.chunkCalls + [line].countP isContentChunk } := by
  unfold SseTap.saw
  rw [List.countP_singleton]
  by_cases hchunk : isContentChunk line = true
  · rw [if_pos hchunk, if_pos hchunk]
  · rw [if_neg hchunk, if_neg hchunk]
    rfl

theorem kept_one (line : Bytes) :
    keptLines [line] = if dropped line then [] else line ++ [newline] := by
  unfold keptLines
  rw [List.filter_singleton]
  cases dropped line with
  | true => rfl
  | false => exact List.flatMap_singleton ..

theorem line_scanned (h : (scanLine line).isOk = true) :
    r.line stripUsage line = (r.after stripUsage [line] r.buf, none) := by
  unfold SseTap.line SseTap.after
  cases stripUsage with
  | false =>
      rw [if_neg Bool.false_ne_true, if_neg Bool.false_ne_true, SseTap.plainLine, scan_line_ok h]
      dsimp only
      rw [saw_eq]
      rfl
  | true =>
      rw [if_pos rfl, if_pos rfl, SseTap.strippedLine, scan_line_ok h, saw_eq, kept_one]
      unfold dropped lastUsageOf
      rw [List.foldl_cons, List.foldl_nil]
      cases husage : usageIn line with
      | none => rfl
      | some usage =>
          dsimp only
          rw [bare_usage_ok husage]
          cases usageOnly line with
          | true => simp
          | false => simp

/-- Lines one after the other. -/
theorem after_append (first second : List Bytes) (tail' : Bytes) :
    (r.after stripUsage first tail).after stripUsage second tail' =
      r.after stripUsage (first ++ second) tail' := by
  unfold SseTap.after lastUsageOf keptLines
  rw [List.foldl_append, List.filter_append, List.flatMap_append, List.countP_append]
  cases stripUsage with
  | true => simp only [if_true, List.append_assoc, Nat.add_assoc]
  | false => simp only [Bool.false_eq_true, if_false, Nat.add_assoc]

theorem scan_scanned (h : ∀ line ∈ (cutFrom current rest).1, (scanLine line).isOk = true) :
    r.scan stripUsage current rest =
      (r.after stripUsage (cutFrom current rest).1 (cutFrom current rest).2, none) := by
  induction rest generalizing current r with
  | nil =>
      rw [SseTap.scan, cutFrom]
      unfold SseTap.after
      cases stripUsage with
      | true => simp [lastUsageOf, keptLines]
      | false => simp [lastUsageOf]
  | cons b rest ih =>
      rw [SseTap.scan]
      by_cases hb : b = newline
      · rw [hb, cut_newline] at h ⊢
        rw [if_pos rfl, line_scanned (h current (List.mem_cons_self ..))]
        dsimp only
        rw [ih fun line hline => h line (List.mem_cons_of_mem _ hline), after_append]
        rfl
      · rw [cut_other hb] at h ⊢
        rw [if_neg hb]
        exact ih h

/-- A line that raises ends the loop. -/
theorem line_none {r' : SseTap} (h : r.line false line = (r', none)) :
    (scanLine line).isOk = true := by
  rw [SseTap.line, if_neg Bool.false_ne_true, SseTap.plainLine] at h
  cases hscan : scanLine line with
  | error e =>
      rw [hscan] at h
      cases h
  | ok usage => rfl

theorem scan_none {r' : SseTap} (h : r.scan false current rest = (r', none)) :
    ∀ line ∈ (cutFrom current rest).1, (scanLine line).isOk = true := by
  induction rest generalizing current r with
  | nil => exact fun line hline => by cases hline
  | cons b rest ih =>
      rw [SseTap.scan] at h
      by_cases hb : b = newline
      · rw [hb, cut_newline]
        rw [if_pos hb] at h
        cases hcurrent : r.line false current with
        | mk q raised =>
            rw [hcurrent] at h
            cases raised with
            | some e => cases h
            | none =>
                intro line hline
                rcases List.mem_cons.mp hline with rfl | hline
                · exact line_none hcurrent
                · exact ih h line hline
      · rw [cut_other hb]
        rw [if_neg hb] at h
        exact ih h

end Lines

section Runs

variable {stream : Bytes} {r : SseTap} {stripUsage : Bool}

/-- One chunk without an exception. -/
theorem feed_scanned (stripUsage : Bool) {chunk : Bytes} (hbuf : newline ∉ r.buf)
    (h : ∀ line ∈ (cutFrom r.buf chunk).1, (scanLine line).isOk = true) :
    ∃ r', r.feed stripUsage chunk = (r', none) ∧ r'.buf = (cutFrom r.buf chunk).2 ∧
      r'.last = lastUsageOf r.last (cutFrom r.buf chunk).1 ∧
      r'.chunkCalls = r.chunkCalls + (cutFrom r.buf chunk).1.countP isContentChunk ∧
      r'.yielded.flatten = r.yielded.flatten ++
        if stripUsage then keptLines (cutFrom r.buf chunk).1 else chunk := by
  have hcut : cutFrom [] (r.buf ++ chunk) = cutFrom r.buf chunk := cut_gather hbuf
  rw [← hcut] at h ⊢
  rw [SseTap.feed, scan_scanned h]
  cases stripUsage with
  | true =>
      refine ⟨_, rfl, ?_⟩
      by_cases hout : keptLines (cutFrom [] (r.buf ++ chunk)).1 = []
      · have hnothing : (SseTap.after true { r with out := [] } (cutFrom [] (r.buf ++ chunk)).1
            (cutFrom [] (r.buf ++ chunk)).2).out = [] := hout
        rw [if_pos hnothing, if_pos rfl, hout, List.append_nil]
        exact ⟨rfl, rfl, rfl, rfl⟩
      · have hsome : (SseTap.after true { r with out := [] } (cutFrom [] (r.buf ++ chunk)).1
            (cutFrom [] (r.buf ++ chunk)).2).out ≠ [] := hout
        rw [if_neg hsome, if_pos rfl]
        refine ⟨rfl, rfl, rfl, ?_⟩
        rw [List.flatten_append, List.flatten_singleton]
        rfl
  | false =>
      refine ⟨_, rfl, rfl, rfl, rfl, ?_⟩
      rw [List.flatten_append, List.flatten_singleton]
      rfl

theorem run_scanned (stripUsage : Bool) (chunks : List Bytes) (hbuf : newline ∉ r.buf)
    (h : ∀ line ∈ (cutFrom r.buf chunks.flatten).1, (scanLine line).isOk = true) :
    ∃ r', r.run stripUsage chunks = (r', none) ∧ r'.buf = (cutFrom r.buf chunks.flatten).2 ∧
      r'.last = lastUsageOf r.last (cutFrom r.buf chunks.flatten).1 ∧
      r'.chunkCalls = r.chunkCalls + (cutFrom r.buf chunks.flatten).1.countP isContentChunk ∧
      r'.yielded.flatten = r.yielded.flatten ++
        if stripUsage then keptLines (cutFrom r.buf chunks.flatten).1 else chunks.flatten := by
  induction chunks generalizing r with
  | nil =>
      refine ⟨r, rfl, rfl, rfl, rfl, ?_⟩
      cases stripUsage with
      | true => exact (List.append_nil _).symm
      | false => exact (List.append_nil _).symm
  | cons chunk chunks ih =>
      rw [List.flatten_cons, cut_append] at h ⊢
      obtain ⟨next, hfeed, hbuf', hlast', hcalls', hout'⟩ := feed_scanned stripUsage hbuf
        fun line hline => h line (List.mem_append_left _ hline)
      rw [← hbuf'] at h ⊢
      obtain ⟨r', hrun, hbuf'', hlast'', hcalls'', hout''⟩ := ih (r := next)
        (hbuf' ▸ newline_not_mem_tail hbuf) fun line hline => h line (List.mem_append_right _ hline)
      refine ⟨r', ?_, hbuf'', ?_, ?_, ?_⟩
      · rw [SseTap.run, hfeed]
        exact hrun
      · rw [hlast'', hlast', lastUsageOf, lastUsageOf, lastUsageOf, List.foldl_append]
      · rw [hcalls'', hcalls', List.countP_append, Nat.add_assoc]
      · rw [hout'', hout', List.append_assoc]
        cases stripUsage with
        | true =>
            simp only [if_true, keptLines, List.filter_append, List.flatMap_append]
        | false => simp only [Bool.false_eq_true, if_false]

omit [JsonReader] in
theorem lines_stream (stream : Bytes) :
    lines stream = (cutFrom [] stream).1.map (· ++ [newline]) ++ unended (cutFrom [] stream).2 :=
  lines_cut List.not_mem_nil

omit [JsonReader] in
theorem lines_forall {φ : Bytes → Prop} (hnewline : ∀ line, φ (line ++ [newline]) ↔ φ line) :
    (∀ line ∈ lines stream, φ line) ↔ (∀ line ∈ (cutFrom [] stream).1, φ line) ∧
      ((cutFrom [] stream).2 ≠ [] → φ (cutFrom [] stream).2) := by
  rw [lines_stream]
  constructor
  · intro h
    refine ⟨fun line hline => ?_, fun htail => ?_⟩
    · exact (hnewline line).mp (h _ (List.mem_append_left _ (List.mem_map_of_mem hline)))
    · refine h _ (List.mem_append_right _ ?_)
      rw [unended, if_neg htail]
      exact List.mem_singleton_self _
  · rintro ⟨hended, htail⟩ line hline
    rcases List.mem_append.mp hline with hline | hline
    · obtain ⟨bare, hbare, rfl⟩ := List.mem_map.mp hline
      exact (hnewline bare).mpr (hended bare hbare)
    · unfold unended at hline
      split at hline
      · cases hline
      next hne =>
        rw [List.mem_singleton.mp hline]
        exact htail hne

/-- No line of the stream raises. -/
def Scans (stream : Bytes) : Prop := ∀ line ∈ lines stream, (scanLine line).isOk = true

theorem scans_iff : Scans stream ↔ (∀ line ∈ (cutFrom [] stream).1, (scanLine line).isOk = true) ∧
    ((cutFrom [] stream).2 ≠ [] → (scanLine (cutFrom [] stream).2).isOk = true) :=
  lines_forall fun line => by rw [scan_line_newline]

theorem kept_stream (stream : Bytes) :
    ((lines stream).filter fun line => !dropped line).flatten = keptLines (cutFrom [] stream).1 ++
      if dropped (cutFrom [] stream).2 then [] else (cutFrom [] stream).2 := by
  rw [lines_stream, List.filter_append, List.flatten_append]
  congr 1
  · unfold keptLines
    generalize (cutFrom [] stream).1 = ended
    induction ended with
    | nil => rfl
    | cons line ended ih =>
        have hline : dropped (line ++ [newline]) = dropped line := by
          unfold dropped
          rw [usage_in_newline, usage_only_newline]
        rw [List.map_cons, List.filter_cons, List.filter_cons, hline]
        cases dropped line with
        | true => exact ih
        | false =>
            rw [Bool.not_false, if_pos rfl, if_pos rfl, List.flatten_cons, List.flatMap_cons, ih]
  · generalize (cutFrom [] stream).2 = tail
    unfold unended
    by_cases htail : tail = []
    · rw [if_pos htail, htail]
      cases dropped [] with
      | true | false => rfl
    · rw [if_neg htail, List.filter_singleton]
      cases dropped tail with
      | true => rfl
      | false => exact List.flatten_singleton

theorem flush_plain : r.flush false = (r, none) := by
  unfold SseTap.flush
  rw [if_neg fun hboth => Bool.false_ne_true hboth.1]

theorem leave_scanned (h : r.buf ≠ [] → (scanLine r.buf).isOk = true) :
    (r.flush stripUsage).1.leave (r.flush stripUsage).2 =
      ⟨if stripUsage = true ∧ r.buf ≠ [] ∧ dropped r.buf = false then r.yielded ++ [r.buf]
        else r.yielded, r.chunkCalls, ((usageIn r.buf).or r.last).toList, none⟩ := by
  have hblank : usageIn [] = none := rfl
  by_cases hbuf : r.buf = []
  · rw [SseTap.flush, if_neg (fun hboth => hboth.2 hbuf), SseTap.leave, if_pos hbuf,
      if_neg (fun hall => hall.2.1 hbuf), hbuf, hblank]
    rfl
  · cases stripUsage with
    | false =>
        rw [flush_plain, SseTap.leave, if_neg hbuf, scan_line_ok (h hbuf),
          if_neg (fun hall => Bool.false_ne_true hall.1)]
    | true =>
        have hbare : (if (usageIn r.buf).isSome then bareUsage r.buf else .ok false) =
            .ok (dropped r.buf) := by
          unfold dropped
          cases husage : usageIn r.buf with
          | none => rfl
          | some usage =>
              rw [bare_usage_ok husage]
              rfl
        rw [SseTap.flush, if_pos ⟨rfl, hbuf⟩, scan_line_ok (h hbuf)]
        dsimp only
        rw [hbare]
        dsimp only
        rw [SseTap.leave, if_pos rfl]
        cases hdropped : dropped r.buf with
        | true =>
            have hnot : ¬ (true = true ∧ r.buf ≠ [] ∧ true = false) := fun hall => by cases hall.2.2
            rw [if_pos rfl, if_neg hnot]
        | false =>
            have hkeep : true = true ∧ r.buf ≠ [] ∧ false = false := ⟨rfl, hbuf, rfl⟩
            rw [if_neg Bool.false_ne_true, if_pos hkeep]

theorem relay_scanned (stripUsage : Bool) {chunks : List Bytes}
    (hchunks : chunks.flatten = stream) (h : Scans stream) :
    (relay stripUsage chunks).raised = none ∧
    (relay stripUsage chunks).chunkCalls = (cutFrom [] stream).1.countP isContentChunk ∧
    (relay stripUsage chunks).usageCalls =
      ((usageIn (cutFrom [] stream).2).or (lastUsageOf none (cutFrom [] stream).1)).toList ∧
    (relay stripUsage chunks).output.flatten = if stripUsage then
      ((lines stream).filter fun line => !dropped line).flatten else stream := by
  obtain ⟨hended, htail⟩ := scans_iff.mp h
  subst hchunks
  obtain ⟨r, hrun, hbuf, hlast, hcalls, hout⟩ := run_scanned (r := {}) stripUsage chunks
    List.not_mem_nil hended
  rw [← hbuf] at htail
  have hend : relay stripUsage chunks = (r.flush stripUsage).1.leave (r.flush stripUsage).2 := by
    rw [relay, hrun]
  rw [hend, leave_scanned htail]
  refine ⟨rfl, ?_, ?_, ?_⟩
  · exact hcalls.trans (Nat.zero_add _)
  · rw [hlast, hbuf]
  · cases stripUsage with
    | false =>
        rw [if_neg fun hall => Bool.false_ne_true hall.1]
        exact hout
    | true =>
        rw [if_pos rfl, kept_stream]
        have hlines : r.yielded.flatten = keptLines (cutFrom [] chunks.flatten).1 := hout
        by_cases hlast : r.buf ≠ [] ∧ dropped r.buf = false
        · rw [if_pos ⟨rfl, hlast⟩, ← hbuf, hlast.2, if_neg Bool.false_ne_true, List.flatten_append,
            List.flatten_singleton, hlines]
        · rw [if_neg (fun hall => hlast hall.2), hlines, ← hbuf]
          -- nothing is left, or the rest is a usage-only line
          by_cases htail : r.buf = []
          · rw [htail, ite_self, List.append_nil]
          · rw [if_pos, List.append_nil]
            by_contra hdropped
            exact hlast ⟨htail, by simpa using hdropped⟩

theorem leave_raised (e : Exc Unit) : (r.leave (some e)).raised ≠ none := by
  unfold SseTap.leave
  split
  · exact Option.some_ne_none _
  · split
    · exact Option.some_ne_none _
    · exact Option.some_ne_none _

theorem scans_of_relay (h : (relay false [stream]).raised = none) : Scans stream := by
  have hended : ∀ line ∈ (cutFrom [] stream).1, (scanLine line).isOk = true := by
    rw [relay, SseTap.run, SseTap.feed] at h
    cases hscan : SseTap.scan false {} [] ([] ++ stream) with
    | mk r raised =>
        cases raised with
        | none => exact scan_none hscan
        | some e =>
            rw [hscan] at h
            exact absurd h (leave_raised e)
  refine scans_iff.mpr ⟨hended, fun htail => ?_⟩
  have hflat : [stream].flatten = stream := List.flatten_singleton
  obtain ⟨r, hrun, hbuf, -⟩ := run_scanned (r := {}) false [stream]
    List.not_mem_nil (by rw [hflat]; exact hended)
  have hrest : r.buf = (cutFrom [] stream).2 := hbuf.trans (by rw [hflat])
  rw [relay, hrun] at h
  dsimp only at h
  rw [flush_plain, SseTap.leave, if_neg (hrest ▸ htail), hrest] at h
  cases hscan : scanLine (cutFrom [] stream).2 with
  | error e =>
      rw [hscan] at h
      cases h
  | ok usage => rfl

end Runs

section Tapping

variable {r : SseTap}

/-- The variables of the relay that the counting of usage needs. -/
def SseTap.tap (r : SseTap) : Tap where
  buf := r.buf
  last := r.last

omit [JsonReader] in
theorem saw_tap (line : Bytes) : (r.saw line).tap = r.tap := by
  unfold SseTap.saw
  split
  · rfl
  · rfl

theorem scan_tap (current rest : Bytes) :
    Tap.scan r.last current rest =
      ((r.scan false current rest).1.tap, (r.scan false current rest).2) := by
  induction rest generalizing r current with
  | nil => rfl
  | cons b rest ih =>
      rw [Tap.scan, SseTap.scan]
      by_cases hb : b = newline
      · rw [if_pos hb, if_pos hb, SseTap.line, if_neg Bool.false_ne_true, SseTap.plainLine]
        cases scanLine current with
        | error e => rfl
        | ok usage =>
            dsimp only
            have hlast : (SseTap.saw { r with last := usage.or r.last } current).last =
                usage.or r.last := congrArg Tap.last (saw_tap current)
            have hrest := ih (r := SseTap.saw { r with last := usage.or r.last } current) []
            rw [hlast] at hrest
            exact hrest
      · rw [if_neg hb, if_neg hb]
        exact ih _

theorem run_tap (chunks : List Bytes) :
    r.tap.run chunks = ((r.run false chunks).1.tap, (r.run false chunks).2) := by
  induction chunks generalizing r with
  | nil => rfl
  | cons chunk chunks ih =>
      have hscan : r.tap.feed chunk = _ := scan_tap (r := { r with out := [] }) [] (r.buf ++ chunk)
      rw [Tap.run, SseTap.run, SseTap.feed, hscan]
      cases SseTap.scan false { r with out := [] } [] (r.buf ++ chunk) with
      | mk next raised =>
          cases raised with
          | some e => rfl
          | none => exact ih (r := { next with yielded := next.yielded ++ [chunk] })

theorem finish_leave (raised : Option (Exc Unit)) :
    (match r.tap.finish with
      | .ok usage => usage
      | .error _ => none).toList = (r.leave raised).usageCalls := by
  unfold Tap.finish SseTap.leave
  by_cases hbuf : r.buf = []
  · have htap : r.tap.buf = [] := hbuf
    rw [if_pos htap, if_pos hbuf]
    rfl
  · have htap : r.tap.buf ≠ [] := hbuf
    rw [if_neg htap, if_neg hbuf]
    show (match (match scanLine r.buf with
      | .error e => Except.error e
      | .ok usage => .ok (usage.or r.last)) with
      | .ok usage => usage
      | .error _ => none).toList = _
    cases scanLine r.buf with
    | error e => rfl
    | ok usage => rfl

/-- What `Tap` counts of a stream is what the relay hands to `on_usage`. -/
theorem tap_sse_eq_relay (chunks : List Bytes) :
    (tapSse chunks).toList = (relay false chunks).usageCalls := by
  have hrun : Tap.run {} chunks = _ := run_tap (r := {}) chunks
  unfold tapSse relay
  rw [hrun]
  cases SseTap.run false {} chunks with
  | mk r raised =>
      cases raised with
      | some e => exact finish_leave _
      | none =>
          dsimp only
          rw [flush_plain]
          exact finish_leave _

end Tapping

section Independence

variable {stream : Bytes}

theorem usage_only_nonempty {line : Bytes} (h : usageOnly line = true) : line ≠ [] := by
  rintro rfl
  exact Bool.false_ne_true h

omit [JsonReader] in
/-- Fewer lines are fewer bytes. -/
theorem filter_flatten_le {p q : Bytes → Bool} (hpq : ∀ line, p line = true → q line = true)
    (ls : List Bytes) : (ls.filter p).flatten.length ≤ (ls.filter q).flatten.length := by
  induction ls with
  | nil => exact Nat.le_refl _
  | cons line ls ih =>
      rw [List.filter_cons, List.filter_cons]
      cases hp : p line with
      | true =>
          rw [hpq line hp, if_pos rfl, if_pos rfl, List.flatten_cons, List.flatten_cons,
            List.length_append, List.length_append]
          omega
      | false =>
          rw [if_neg Bool.false_ne_true]
          split
          · rw [List.flatten_cons, List.length_append]
            omega
          · exact ih

omit [JsonReader] in
theorem filter_flatten_eq {p q : Bytes → Bool} (hpq : ∀ line, p line = true → q line = true)
    {ls : List Bytes} (hne : ∀ line ∈ ls, p line = false → q line = true → line ≠ [])
    (h : (ls.filter p).flatten = (ls.filter q).flatten) : ∀ line ∈ ls, p line = q line := by
  induction ls with
  | nil => exact fun line hline => by cases hline
  | cons first ls ih =>
      have hrest := fun h => ih (fun line hline => hne line (List.mem_cons_of_mem _ hline)) h
      rw [List.filter_cons, List.filter_cons] at h
      intro line hline
      cases hp : p first with
      | true =>
          have hq := hpq first hp
          rw [hp, hq, if_pos rfl, if_pos rfl, List.flatten_cons, List.flatten_cons,
            List.append_cancel_left_eq] at h
          rcases List.mem_cons.mp hline with rfl | hline
          · rw [hp, hq]
          · exact hrest h line hline
      | false =>
          cases hq : q first with
          | false =>
              rw [hp, hq, if_neg Bool.false_ne_true, if_neg Bool.false_ne_true] at h
              rcases List.mem_cons.mp hline with rfl | hline
              · rw [hp, hq]
              · exact hrest h line hline
          | true =>
              rw [hp, hq, if_neg Bool.false_ne_true, if_pos rfl, List.flatten_cons] at h
              have hlength := congrArg List.length h
              have hless := filter_flatten_le hpq ls
              have hpos := List.length_pos_iff.mpr (hne first (List.mem_cons_self ..) hp hq)
              rw [List.length_append] at hlength
              omega

theorem dropped_eq (h : Readable stream) {line : Bytes} (hline : line ∈ lines stream) :
    dropped line = usageOnly line := by
  unfold dropped
  cases hbare : usageOnly line with
  | false => exact Bool.and_false _
  | true =>
      rw [(h line hline).2 hbare]
      rfl

/-- Chunks make no difference to a stream if and only if `_scan_line` raises on none of its lines
and reads a usage on each of its usage-only lines. -/
theorem relay_chunk_independent (stream : Bytes) : ChunkIndependent stream ↔ Readable stream := by
  constructor
  · intro h
    have hwhole : [stream].flatten = stream := List.flatten_singleton
    have hscans : Scans stream := scans_of_relay (h.ends false [stream] hwhole)
    have hstripped := h.stripped [stream] hwhole
    rw [(relay_scanned true hwhole hscans).2.2.2, if_pos rfl] at hstripped
    have hsame := filter_flatten_eq (p := fun line => !usageOnly line)
      (q := fun line => !dropped line)
      (fun line hline => ?_) (fun line _ hbare _ => usage_only_nonempty (by simpa using hbare))
      hstripped.symm
    · intro line hline
      refine ⟨hscans line hline, fun hbare => ?_⟩
      have hdropped := hsame line hline
      rw [hbare, Bool.not_true] at hdropped
      unfold dropped at hdropped
      rw [hbare, Bool.and_true] at hdropped
      simpa using hdropped.symm
    · unfold dropped
      rw [Bool.not_eq_true'] at hline ⊢
      rw [hline, Bool.and_false]
  · intro h
    have hscans : Scans stream := fun line hline => (h line hline).1
    have hkept : ((lines stream).filter fun line => !dropped line).flatten =
        withoutUsageOnly stream :=
      congrArg List.flatten (List.filter_congr fun line hline => by rw [dropped_eq h hline])
    exact {
      ends := fun _ _ hchunks => (relay_scanned _ hchunks hscans).1
      output_alike := fun _ _ _ hchunks hchunks' => by
        rw [(relay_scanned _ hchunks hscans).2.2.2, (relay_scanned _ hchunks' hscans).2.2.2]
      chunk_calls_alike := fun _ _ _ hchunks hchunks' => by
        rw [(relay_scanned _ hchunks hscans).2.1, (relay_scanned _ hchunks' hscans).2.1]
      usage_alike := fun _ _ _ _ hchunks hchunks' => by
        rw [(relay_scanned _ hchunks hscans).2.2.1, (relay_scanned _ hchunks' hscans).2.2.1]
      one_usage := fun _ _ hchunks => by
        rw [(relay_scanned _ hchunks hscans).2.2.1]
        exact Option.length_toList_le
      plain := fun _ hchunks => (relay_scanned _ hchunks hscans).2.2.2
      stripped := fun _ hchunks => (relay_scanned _ hchunks hscans).2.2.2.trans hkept }

end Independence

end Relaying

section Failing

attribute [local instance] utf8Reader

/-- An event with a piece of text. -/
def textEvent : Bytes :=
  encode "data: \x7b\"choices\": [\x7b\"delta\": \x7b\"content\": \"hi\"\x7d\x7d]\x7d\n".toList

/-- An event with a count that is no number. -/
def textualCount : Bytes :=
  encode
    "data: \x7b\"usage\": \x7b\"prompt_tokens\": \"n/a\", \"completion_tokens\": 1\x7d\x7d\n".toList

/-- In a chunk of its own the first event is relayed; together with the second one it is lost,
because `int` raises before the chunk is yielded. -/
theorem textual_count_splits : ¬ ChunkIndependent (textEvent ++ textualCount) := by
  intro h
  have halike := h.output_alike false [textEvent, textualCount] [textEvent ++ textualCount]
    (by simp) (by simp)
  have hdiffer : (relay false [textEvent, textualCount]).output.flatten ≠
      (relay false [textEvent ++ textualCount]).output.flatten := by decide +kernel
  exact hdiffer halike

end Failing

end SystemsManager.Gateway
