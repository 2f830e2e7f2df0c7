import Mathlib.Algebra.Order.BigOperators.Group.List
import Mathlib.Data.List.DropRight
import SystemsManager.Gateway.Streams

/-!
# When the two paths count alike

The line-by-line reader of `_stream_chunks` and the scan of `tap_sse` see the same lines of a
stream, however its bytes are cut into chunks. The first adds up the usage of every line
(`complete_stream_counts`), the second keeps the last one (`relayed_counts_eq`). Read
`streams_count_alike_iff` last.
-/

namespace SystemsManager.Gateway

open Python
open Energy (intOrZero usageTokens)

section Counting

variable [JsonReader]

section Reading

variable {stream : Stream} {req : Request} {counts : Counts}

omit [JsonReader] in
/-- A line ends at its newline. -/
theorem split_from_line {line text rest : List Char} (h : ∀ c ∈ text, isBoundary c = false) :
    splitFrom line (text ++ '\n' :: rest) = (line ++ text) :: splitFrom [] rest := by
  induction text generalizing line with
  | nil =>
      have hend : isBoundary '\n' = true := by decide
      rw [List.nil_append, List.append_nil]
      simp [splitFrom, hend]
  | cons c text ih =>
      have hc := h c (List.mem_cons_self ..)
      have hcr : c ≠ '\r' := by
        rintro rfl
        revert hc
        decide
      have hrest : splitFrom (line ++ [c]) (text ++ '\n' :: rest) = _ :=
        ih fun d hd => h d (List.mem_cons_of_mem _ hd)
      rw [List.append_assoc, List.singleton_append] at hrest
      rw [List.cons_append, splitFrom, if_neg (by rw [hc]; exact Bool.false_ne_true), hrest]
      intro _ hfirst
      exact absurd hfirst hcr

omit [JsonReader] in
theorem split_from_lines {lines : List (List Char)} {rest : List Char}
    (h : ∀ line ∈ lines, ∀ c ∈ line, isBoundary c = false) :
    splitFrom [] (lines.flatMap (fun line => line ++ ['\n']) ++ rest) =
      lines ++ splitFrom [] rest := by
  induction lines with
  | nil => rfl
  | cons line lines ih =>
      rw [List.flatMap_cons, List.append_assoc, List.append_assoc, List.singleton_append,
        split_from_line (h line (List.mem_cons_self ..)), List.nil_append, List.cons_append,
        ih fun other hother => h other (List.mem_cons_of_mem _ hother)]

/-- The lines at the end of a stream. -/
def Stream.ending (stream : Stream) : List (List Char) :=
  if stream.marked then [dataPrefix ++ doneMark, []] else []

theorem split_lines_stream (hone : stream.OnOneLine) :
    splitLines stream.text = stream.lines.map StreamLine.text ++ stream.ending := by
  have htext : stream.text =
      (stream.lines.map StreamLine.text).flatMap (fun line => line ++ ['\n']) ++
        if stream.marked then dataPrefix ++ doneMark ++ ['\n', '\n'] else [] := by
    rw [List.flatMap_map]
    rfl
  rw [splitLines, htext, split_from_lines]
  · congr 1
    unfold Stream.ending
    split
    · decide
    · rfl
  · intro line hline
    obtain ⟨source, hsource, rfl⟩ := List.mem_map.mp hline
    exact hone source hsource

theorem no_return (hone : stream.OnOneLine) : '\r' ∉ stream.text := by
  have hreturn : isBoundary '\r' = true := by decide
  unfold Stream.text
  rw [List.mem_append, List.mem_flatMap]
  rintro (⟨line, hline, hmem⟩ | hmem)
  · rw [List.mem_append] at hmem
    rcases hmem with hmem | hmem
    · rw [hone line hline _ hmem] at hreturn
      cases hreturn
    · revert hmem
      decide
  · revert hmem
    split
    · decide
    · decide

theorem strip_event (event : Event) : stripText event.text = event.text := by
  have hopen : isSpace '{' = false := by decide
  have hclose : isSpace '}' = false := by decide
  simp [stripText, Event.text, hopen, hclose]

omit [JsonReader] in
theorem int_or_zero_or (value : Json) :
    intOrZero (if value.truthy then value else .int 0) = intOrZero value := by
  unfold intOrZero
  cases h : value.truthy with
  | true => simp [h]
  | false => simp [Json.truthy]

omit [JsonReader] in
theorem exists_of_is_ok {ε α : Type} {x : Except ε α} (h : x.isOk = true) : ∃ a, x = .ok a := by
  cases x with
  | ok a => exact ⟨a, rfl⟩
  | error e => cases h

omit [JsonReader] in
/-- A line without data is skipped. -/
theorem note_skipped (note : Note) :
    note.text = [] ∨ dataPrefix.isPrefixOf note.text = false := by
  right
  by_contra h
  rw [Bool.not_eq_false, List.isPrefixOf_iff_prefix] at h
  obtain ⟨rest, htext⟩ := h
  have hno := note.noData
  rw [← htext, encode_append] at hno
  -- Only what comes after the colon can be stripped.
  have hhead : encode dataPrefix = [100, 97, 116, 97, 58, 32] := by decide +kernel
  have hfront : dataField <+: stripBytes (encode dataPrefix ++ encode rest) := by
    have hfield : dataField = [100, 97, 116, 97, 58] := by decide +kernel
    have hcolon : isSpaceByte 58 = false := by decide
    have hfirst : isSpaceByte 100 = false := by decide
    have hstrip : stripBytes (encode dataPrefix ++ encode rest) =
        List.rdropWhile isSpaceByte (dataField ++ 32 :: encode rest) := by
      rw [hhead, hfield, stripBytes, List.rdropWhile]
      simp [hfirst]
    rw [hstrip, List.rdropWhile, List.reverse_append, List.dropWhile_append]
    split
    · rw [hfield]
      simp [hcolon]
    · rw [List.reverse_append, List.reverse_reverse]
      exact List.prefix_append _ _
  rw [List.isPrefixOf_iff_prefix.mpr hfront] at hno
  cases hno

theorem line_tokens_nonneg (line : StreamLine) : 0 ≤ line.tokens := by
  unfold StreamLine.tokens
  split
  · split
    · exact tokens_nonneg _ _
    · exact le_rfl
  · exact le_rfl

/-- Tokens of lines are not negative. -/
theorem sum_tokens_nonneg (lines : List StreamLine) : 0 ≤ (lines.map StreamLine.tokens).sum := by
  refine List.sum_nonneg ?_
  intro tokens htokens
  obtain ⟨line, -, rfl⟩ := List.mem_map.mp htokens
  exact line_tokens_nonneg line

/-- Both counts of an event's usage can be read. -/
theorem oai_usage_readable {event : Event} {p g : Json}
    (husage : oaiUsage (.dict event.items) = .ok (some (p, g))) :
    (∃ a, intOrZero p = .ok a) ∧ ∃ b, intOrZero g = .ok b := by
  unfold oaiUsage at husage
  dsimp only at husage
  split at husage
  · rename_i u hu
    obtain ⟨hp, hg⟩ := event.readable u hu
    cases husage
    rw [int_or_zero_or, int_or_zero_or]
    exact ⟨exists_of_is_ok hp, exists_of_is_ok hg⟩
  · cases husage

theorem stream_chunks_line (hcounted : req.counted = true) (line : StreamLine)
    (rest : List (List Char)) :
    streamChunks oaiUsage (fun _ => false) req counts (line.text :: rest) =
      streamChunks oaiUsage (fun _ => false) req (addTokens req counts line.tokens) rest := by
  cases line with
  | note note =>
      have hskip : (StreamLine.note note).text = [] ∨
          dataPrefix.isPrefixOf (StreamLine.note note).text = false := note_skipped note
      have hzero : (StreamLine.note note).tokens = 0 := rfl
      rw [hzero, add_tokens_zero, streamChunks, if_pos hskip]
  | data event =>
      have hgo : ¬ ((StreamLine.data event).text = [] ∨
          dataPrefix.isPrefixOf (StreamLine.data event).text = false) := by
        rintro (h | h)
        · cases h
        · have hfront : dataPrefix.isPrefixOf (StreamLine.data event).text = true :=
            List.isPrefixOf_iff_prefix.mpr (List.prefix_append _ _)
          rw [hfront] at h
          cases h
      have hdrop : (StreamLine.data event).text.drop 6 = event.text := rfl
      have hdone : event.text ≠ doneMark := by
        intro h
        cases congrArg List.head? h
      have hloads : guarded (JsonReader.loads event.text) = .ok (some (.dict event.items)) := by
        rw [show JsonReader.loads event.text = .ok (.dict event.items) from event.parsed, guarded]
      rw [streamChunks, if_neg hgo]
      dsimp only
      rw [hdrop, strip_event, if_neg hdone, hloads]
      dsimp only
      cases husage : oaiUsage (.dict event.items) with
      | error e =>
          unfold oaiUsage at husage
          dsimp only at husage
          split at husage <;> cases husage
      | ok usage =>
          cases usage with
          | none =>
              have hzero : (StreamLine.data event).tokens = 0 := by
                unfold StreamLine.tokens
                dsimp only
                rw [husage]
              rw [hzero, add_tokens_zero]
              simp
          | some pair =>
              obtain ⟨p, g⟩ := pair
              have htokens : (StreamLine.data event).tokens = tokensOf p g := by
                unfold StreamLine.tokens
                dsimp only
                rw [husage]
              obtain ⟨⟨a, hp⟩, b, hg⟩ := oai_usage_readable husage
              dsimp only
              rw [record_usage_read hcounted hp hg, htokens]
              simp

theorem stream_chunks_lines (hcounted : req.counted = true) (lines : List StreamLine)
    (stream : Stream) :
    streamChunks oaiUsage (fun _ => false) req counts
        (lines.map StreamLine.text ++ stream.ending) =
      (addTokens req counts (lines.map StreamLine.tokens).sum, none) := by
  induction lines generalizing counts with
  | nil =>
      rw [List.map_nil, List.map_nil, List.sum_nil, add_tokens_zero, List.nil_append]
      unfold Stream.ending
      split
      · have hgo : ¬ (dataPrefix ++ doneMark = [] ∨
            dataPrefix.isPrefixOf (dataPrefix ++ doneMark) = false) := by decide
        have hdone : stripText ((dataPrefix ++ doneMark).drop 6) = doneMark := by decide
        rw [streamChunks, if_neg hgo]
        dsimp only
        rw [if_pos hdone]
      · rfl
  | cons line lines ih =>
      rw [List.map_cons, List.cons_append, stream_chunks_line hcounted, ih,
        add_tokens_twice (line_tokens_nonneg line) (sum_tokens_nonneg lines), List.map_cons,
        List.sum_cons]

theorem complete_stream_counts {iterLines : Bytes → List (List Char)}
    (hlines : ReadsLines iterLines) (hcounted : req.counted = true) (hone : stream.OnOneLine) :
    completeStream iterLines req counts (encode stream.text) =
      (addTokens req counts (stream.lines.map StreamLine.tokens).sum, none) := by
  rw [completeStream, hlines _ (no_return hone), split_lines_stream hone,
    stream_chunks_lines hcounted]

end Reading

section Scanning

variable {tap : Tap} {last : Option (Int × Int)} {line l a b rest : Bytes} {pieces : List Piece}

attribute [local simp] Tap.scan in
theorem scan_gather (h : newline ∉ l) :
    Tap.scan last line (l ++ rest) = Tap.scan last (line ++ l) rest := by
  induction l generalizing line with
  | nil => rw [List.nil_append, List.append_nil]
  | cons c l ih =>
      rw [List.mem_cons, not_or] at h
      rw [List.cons_append, Tap.scan, if_neg (Ne.symm h.1), ih h.2, List.append_assoc,
        List.singleton_append]

theorem scan_whole_line {usage : Option (Int × Int)} (h : newline ∉ l)
    (husage : scanLine l = .ok usage) :
    Tap.scan last [] (l ++ newline :: rest) = Tap.scan (usage.or last) [] rest := by
  rw [scan_gather h, List.nil_append, Tap.scan, if_pos rfl, husage]

theorem scan_append (h : Tap.scan last line a = (tap, none)) :
    Tap.scan last line (a ++ b) = Tap.scan tap.last tap.buf b := by
  induction a generalizing last line with
  | nil =>
      rw [Tap.scan, Prod.mk.injEq] at h
      rw [← h.1, List.nil_append]
  | cons c a ih =>
      rw [Tap.scan] at h
      rw [List.cons_append, Tap.scan]
      by_cases hc : c = newline
      · rw [if_pos hc] at h ⊢
        cases hscan : scanLine line with
        | error e =>
            rw [hscan] at h
            cases h
        | ok usage =>
            rw [hscan] at h
            exact ih h
      · rw [if_neg hc] at h ⊢
        exact ih h

theorem scan_first_part (h : Tap.scan last line (a ++ b) = (tap, none)) :
    ∃ tap, Tap.scan last line a = (tap, none) := by
  induction a generalizing last line with
  | nil => exact ⟨_, rfl⟩
  | cons c a ih =>
      rw [List.cons_append, Tap.scan] at h
      rw [Tap.scan]
      by_cases hc : c = newline
      · rw [if_pos hc] at h ⊢
        cases hscan : scanLine line with
        | error e =>
            rw [hscan] at h
            cases h
        | ok usage =>
            rw [hscan] at h
            exact ih h
      · rw [if_neg hc] at h ⊢
        exact ih h

/-- The buffer holds no newline. -/
theorem newline_not_mem_buf (h : Tap.scan last line a = (tap, none)) (hline : newline ∉ line) :
    newline ∉ tap.buf := by
  induction a generalizing last line with
  | nil =>
      rw [Tap.scan, Prod.mk.injEq] at h
      rw [← h.1]
      exact hline
  | cons c a ih =>
      rw [Tap.scan] at h
      by_cases hc : c = newline
      · rw [if_pos hc] at h
        cases hscan : scanLine line with
        | error e =>
            rw [hscan] at h
            cases h
        | ok usage =>
            rw [hscan] at h
            exact ih h List.not_mem_nil
      · rw [if_neg hc] at h
        refine ih h ?_
        rw [List.mem_append, List.mem_singleton, not_or]
        exact ⟨hline, Ne.symm hc⟩

theorem buf_after_newline (h : Tap.scan last line (a ++ [newline]) = (tap, none)) :
    tap.buf = [] := by
  obtain ⟨before, hbefore⟩ := scan_first_part h
  rw [scan_append hbefore, Tap.scan, if_pos rfl] at h
  cases hscan : scanLine before.buf with
  | error e =>
      rw [hscan] at h
      cases h
  | ok usage =>
      rw [hscan] at h
      dsimp only at h
      rw [Tap.scan, Prod.mk.injEq] at h
      rw [← h.1]

theorem feed_eq_scan (h : newline ∉ tap.buf) (chunk : Bytes) :
    tap.feed chunk = Tap.scan tap.last tap.buf chunk := by
  rw [Tap.feed, scan_gather h, List.nil_append]

theorem run_concat {chunks : List Bytes} {next : Tap} {chunk : Bytes}
    (h : tap.run chunks = (next, none)) :
    tap.run (chunks ++ [chunk]) = next.feed chunk := by
  induction chunks generalizing tap with
  | nil =>
      rw [Tap.run, Prod.mk.injEq] at h
      rw [h.1, List.nil_append, Tap.run]
      cases next.feed chunk with
      | mk after raised =>
          cases raised with
          | none => rfl
          | some e => rfl
  | cons first chunks ih =>
      rw [Tap.run] at h
      rw [List.cons_append, Tap.run]
      cases hfeed : tap.feed first with
      | mk after raised =>
          rw [hfeed] at h
          cases raised with
          | none => exact ih h
          | some e => cases h

theorem feed_keepalive (h : tap.buf = []) : tap.feed Piece.keepalive.bytes = (tap, none) := by
  obtain ⟨buf, last⟩ := tap
  cases h
  have hbytes : Piece.keepalive.bytes = encode ": ka".toList ++
    newline :: ([] ++ newline :: []) := by
    decide
  have hline : scanLine (encode ": ka".toList) = .ok none := rfl
  have hblank : scanLine [] = .ok none := rfl
  rw [Tap.feed, List.nil_append, hbytes, scan_whole_line (by decide) hline,
    scan_whole_line List.not_mem_nil hblank, Tap.scan]
  simp

omit [JsonReader] in
theorem intact_of_concat {piece : Piece} (h : Intact (pieces ++ [piece])) : Intact pieces := by
  intro before after hpieces
  refine h before (after ++ [piece]) ?_
  rw [hpieces, List.append_assoc, List.cons_append]

/-- However a stream is cut into chunks and whatever keepalives stand between its lines, its bytes
are scanned as a whole. -/
theorem run_eq_scan (hintact : Intact pieces)
    (h : Tap.scan none [] (upstreamOf pieces) = (tap, none)) :
    Tap.run {} (pieces.map Piece.bytes) = (tap, none) := by
  induction pieces using List.reverseRecOn generalizing tap with
  | nil =>
      rw [upstreamOf, List.flatMap_nil, Tap.scan] at h
      rw [List.map_nil, Tap.run]
      exact h
  | append_singleton pieces piece ih =>
      have hupstream : upstreamOf (pieces ++ [piece]) = upstreamOf pieces ++ upstreamOf [piece] :=
        List.flatMap_append
      rw [hupstream] at h
      obtain ⟨before, hbefore⟩ := scan_first_part h
      have hrun := ih (intact_of_concat hintact) hbefore
      rw [scan_append hbefore] at h
      rw [List.map_append, List.map_singleton, run_concat hrun]
      cases piece with
      | chunk bytes =>
          have hbytes : upstreamOf [.chunk bytes] = bytes := List.append_nil bytes
          rw [hbytes] at h
          rw [feed_eq_scan (newline_not_mem_buf hbefore List.not_mem_nil)]
          exact h
      | keepalive =>
          -- The keepalive stands at the start of the stream or after a newline.
          have hempty : before.buf = [] := by
            rcases hintact pieces [] rfl with hnil | hlast
            · rw [hnil, Tap.scan, Prod.mk.injEq] at hbefore
              rw [← hbefore.1]
            · obtain ⟨front, hfront⟩ := List.getLast?_eq_some_iff.mp hlast
              rw [hfront] at hbefore
              exact buf_after_newline hbefore
          have hsame : (before, (none : Option (Exc Unit))) = (tap, none) := by
            rw [← h]
            rfl
          rw [feed_keepalive hempty, hsame]

end Scanning

section Alike

variable {stream : Stream} {req : Request} {counts : Counts} {pieces : List Piece}

/-- The usage that `_scan_line` finds in a line. -/
def StreamLine.usage (line : StreamLine) : Option (Int × Int) :=
  match scanLine (encode line.text) with
  | .ok usage => usage
  | .error _ => none

/-- The tokens of a usage that was scanned. -/
def scannedTokens : Option (Int × Int) → Int × Int
  | none => 0
  | some (p, g) => (max 0 g, max 0 p)

omit [JsonReader] in
theorem strip_bytes_front (blanks middle : Bytes) (first last : UInt8)
    (hblanks : ∀ b ∈ blanks, isSpaceByte b = true) (hfirst : isSpaceByte first = false)
    (hlast : isSpaceByte last = false) :
    stripBytes (blanks ++ (first :: middle ++ [last])) = first :: middle ++ [last] := by
  rw [stripBytes, List.dropWhile_append_of_pos hblanks]
  simp [hfirst, hlast]

theorem encode_event (event : Event) :
    encode event.text = 123 :: encode event.inner ++ [125] := by
  have hopen : encode ['{'] = [123] := by decide
  have hclose : encode ['}'] = [125] := by decide
  have htext : event.text = ['{'] ++ event.inner ++ ['}'] := rfl
  rw [htext, encode_append, encode_append, hopen, hclose, List.singleton_append]

theorem usage_from_event (event : Event) :
    ∃ usage, usageFromDict (.dict event.items) = .ok usage ∧
      (usage ≠ none → (StreamLine.data event).tokens = scannedTokens usage) := by
  unfold usageFromDict StreamLine.tokens oaiUsage
  cases hu : getItem event.items "usage" with
  | dict u =>
      obtain ⟨hp, hg⟩ := event.readable u hu
      obtain ⟨a, hp⟩ := exists_of_is_ok hp
      obtain ⟨b, hg⟩ := exists_of_is_ok hg
      dsimp only
      rw [hu]
      dsimp only
      split
      · exact ⟨none, rfl, fun h => absurd rfl h⟩
      · rw [hp, hg]
        refine ⟨some (a, b), rfl, fun _ => ?_⟩
        exact tokens_of_read (by rw [int_or_zero_or, hp]) (by rw [int_or_zero_or, hg])
  | null | bool _ | int _ | float _ | str _ | list _ =>
      dsimp only
      rw [hu]
      exact ⟨none, rfl, fun h => absurd rfl h⟩

theorem scan_stream_line (line : StreamLine) :
    scanLine (encode line.text) = .ok line.usage ∧
      (line.usage ≠ none → line.tokens = scannedTokens line.usage) := by
  have hfound : ∃ usage, scanLine (encode line.text) = .ok usage ∧
      (usage ≠ none → line.tokens = scannedTokens usage) := by
    cases line with
    | note note =>
        refine ⟨none, ?_, fun h => absurd rfl h⟩
        have hno := note.noData
        unfold scanLine
        dsimp only [StreamLine.text]
        rw [hno, if_neg (by rintro ⟨h, -⟩; cases h)]
    | data event =>
        have hbytes : encode (StreamLine.data event).text =
            100 :: [97, 116, 97, 58, 32] ++ encode event.text := by
          have hhead : encode dataPrefix = [100, 97, 116, 97, 58, 32] := by decide +kernel
          rw [StreamLine.text, encode_append, hhead]
        have hwhole : stripBytes (100 :: [97, 116, 97, 58, 32] ++ encode event.text) =
            100 :: [97, 116, 97, 58, 32] ++ encode event.text := by
          have hstrip := strip_bytes_front []
            ([97, 116, 97, 58, 32] ++ 123 :: encode event.inner) 100 125 (by simp)
              (by decide) (by decide)
          rw [encode_event]
          simpa using hstrip
        have hrest : stripBytes (32 :: encode event.text) = encode event.text := by
          rw [encode_event]
          exact strip_bytes_front [32] _ 123 125 (by simp; decide) (by decide) (by decide)
        unfold scanLine
        rw [hbytes, hwhole]
        dsimp only
        split
        · have hdrop : (100 :: [97, 116, 97, 58, 32] ++ encode event.text).drop 5 =
              32 :: encode event.text := rfl
          have hloads : JsonReader.loadsBytes (encode event.text) = .ok (.dict event.items) :=
            event.parsed_bytes
          rw [hdrop, hrest, usageFromJsonBytes, hloads]
          exact usage_from_event event
        · exact ⟨none, rfl, fun h => absurd rfl h⟩
  obtain ⟨usage, hscan, htokens⟩ := hfound
  have husage : line.usage = usage := by
    unfold StreamLine.usage
    rw [hscan]
  rw [husage]
  exact ⟨hscan, htokens⟩

/-- No newline stands inside a line. -/
theorem newline_not_mem_line (line : StreamLine) : '\n' ∉ line.text := by
  cases line with
  | note note => exact note.whole
  | data event =>
      have hfront : '\n' ∉ dataPrefix := by decide
      have hopen : '\n' ≠ '{' := by decide
      have hclose : '\n' ∉ ['}'] := by decide
      rw [StreamLine.text, Event.text, List.cons_append, List.mem_append, List.mem_cons,
        List.mem_append, not_or, not_or, not_or]
      exact ⟨hfront, hopen, event.whole, hclose⟩

/-- The last usage that is scanned in some lines. -/
def lastUsage (lines : List StreamLine) : Option (Int × Int) :=
  lines.foldl (fun last line => line.usage.or last) none

theorem scan_stream_lines (lines : List StreamLine) (last : Option (Int × Int)) (rest : Bytes) :
    Tap.scan last [] (encode (lines.flatMap fun line => line.text ++ ['\n']) ++ rest) =
      Tap.scan (lines.foldl (fun last line => line.usage.or last) last) [] rest := by
  induction lines generalizing last with
  | nil => rfl
  | cons line lines ih =>
      have hend : encode ['\n'] = [newline] := by decide
      rw [List.flatMap_cons, encode_append, encode_append, hend, List.append_assoc,
        List.append_assoc, List.singleton_append,
        scan_whole_line (newline_not_mem_encode (newline_not_mem_line line))
          (scan_stream_line line).1, ih, List.foldl_cons]

/-- The scan of a whole stream. -/
theorem scan_stream (stream : Stream) :
    Tap.scan none [] (encode stream.text) =
      ({ buf := [], last := lastUsage stream.lines }, none) := by
  unfold Stream.text
  rw [encode_append, scan_stream_lines]
  split
  · have hend : encode (dataPrefix ++ doneMark ++ ['\n', '\n']) =
        encode (dataPrefix ++ doneMark) ++ newline :: ([] ++ newline :: []) := by decide
    have hnone : ¬ (dataField.isPrefixOf (stripBytes (encode (dataPrefix ++ doneMark))) ∧
        usageMark <:+: stripBytes (encode (dataPrefix ++ doneMark))) := by decide
    have hdone : scanLine (encode (dataPrefix ++ doneMark)) = .ok none := by
      unfold scanLine
      exact if_neg hnone
    have hblank : scanLine [] = .ok none := rfl
    rw [hend, scan_whole_line (by decide) hdone, scan_whole_line List.not_mem_nil hblank, Tap.scan]
    rfl
  · rfl

theorem relayed_counts_eq (hcounted : req.counted = true) (h : Relays pieces stream) :
    relayedCounts req counts pieces =
      addTokens req counts (scannedTokens (lastUsage stream.lines)) := by
  have hscan := scan_stream stream
  rw [← h.upstream] at hscan
  have htap : tapSse (pieces.map Piece.bytes) = lastUsage stream.lines := by
    rw [tapSse, run_eq_scan h.intact hscan]
    rfl
  have hint : ∀ n : Int, intOrZero (.int n) = .ok n := by
    intro n
    unfold intOrZero
    by_cases hn : n = 0
    · rw [hn]
      rfl
    · have htruthy : (Json.int n).truthy = true := bne_iff_ne.mpr hn
      rw [if_pos htruthy]
      rfl
  rw [relayedCounts, htap]
  cases hlast : lastUsage stream.lines with
  | none =>
      dsimp only [scannedTokens]
      rw [add_tokens_zero]
  | some usage =>
      obtain ⟨p, g⟩ := usage
      dsimp only [scannedTokens]
      rw [record_usage_read hcounted (hint p) (hint g), tokens_of_read (hint p) (hint g)]

theorem scanned_iff (line : StreamLine) : line.Scanned ↔ line.usage ≠ none := by
  unfold StreamLine.Scanned
  rw [(scan_stream_line line).1]
  constructor
  · rintro ⟨usage, h⟩ hnone
    rw [hnone] at h
    cases h
  · intro h
    obtain ⟨usage, husage⟩ := Option.ne_none_iff_exists'.mp h
    exact ⟨usage, by rw [husage]⟩

theorem last_usage_le (lines : List StreamLine) :
    scannedTokens (lastUsage lines) ≤ (lines.map StreamLine.tokens).sum := by
  induction lines using List.reverseRecOn with
  | nil => exact le_rfl
  | append_singleton lines line ih =>
      rw [lastUsage, List.foldl_append, List.foldl_cons, List.foldl_nil, List.map_append,
        List.sum_append, List.map_singleton, List.sum_singleton]
      cases husage : line.usage with
      | none =>
          rw [Option.none_or]
          exact le_add_of_le_of_nonneg ih (line_tokens_nonneg line)
      | some usage =>
          have htokens := (scan_stream_line line).2 (by rw [husage]; exact Option.some_ne_none _)
          rw [Option.some_or, ← husage, ← htokens]
          exact le_add_of_nonneg_left (sum_tokens_nonneg lines)

theorem tokens_zero_of_sum {lines : List StreamLine} (h : (lines.map StreamLine.tokens).sum = 0)
    {line : StreamLine} (hline : line ∈ lines) : line.tokens = 0 := by
  have hle := List.single_le_sum (l := lines.map StreamLine.tokens) (by
    intro tokens htokens
    obtain ⟨other, -, rfl⟩ := List.mem_map.mp htokens
    exact line_tokens_nonneg other) line.tokens (List.mem_map_of_mem hline)
  rw [h] at hle
  exact le_antisymm hle (line_tokens_nonneg line)

theorem count_once_concat_scanned {lines : List StreamLine} {line : StreamLine}
    (hscanned : line.Scanned) :
    CountOnce (lines ++ [line]) ↔ ∀ other ∈ lines, other.tokens = 0 := by
  constructor
  · intro h other hother
    by_contra htokens
    obtain ⟨before, after, rfl⟩ := List.append_of_mem hother
    have hlater := (h before other (after ++ [line]) (by simp) htokens).2 line (by simp)
    exact hlater hscanned
  · intro h before other after hsplit htokens
    rcases List.eq_nil_or_concat after with hnil | ⟨front, final, hafter⟩
    · rw [hnil] at hsplit ⊢
      obtain ⟨-, hsame⟩ := List.append_inj' hsplit rfl
      cases hsame
      exact ⟨hscanned, fun later hlater => absurd hlater List.not_mem_nil⟩
    · rw [hafter, List.concat_eq_append, ← List.cons_append, ← List.append_assoc] at hsplit
      obtain ⟨hlines, -⟩ := List.append_inj' hsplit rfl
      exact absurd (h other (by rw [hlines]; simp)) htokens

theorem count_once_concat_other {lines : List StreamLine} {line : StreamLine}
    (hother : ¬ line.Scanned) :
    CountOnce (lines ++ [line]) ↔ CountOnce lines ∧ line.tokens = 0 := by
  constructor
  · intro h
    constructor
    · intro before first after hsplit htokens
      obtain ⟨hscanned, hlater⟩ := h before first (after ++ [line]) (by simp [hsplit]) htokens
      exact ⟨hscanned, fun later hmem => hlater later (List.mem_append_left _ hmem)⟩
    · by_contra htokens
      exact hother (h lines line [] rfl htokens).1
  · rintro ⟨h, hzero⟩ before first after hsplit htokens
    rcases List.eq_nil_or_concat after with hnil | ⟨front, final, hafter⟩
    · rw [hnil] at hsplit
      obtain ⟨-, hsame⟩ := List.append_inj' hsplit rfl
      cases hsame
      exact absurd hzero htokens
    · rw [hafter, List.concat_eq_append] at hsplit ⊢
      rw [← List.cons_append, ← List.append_assoc] at hsplit
      obtain ⟨hlines, hsame⟩ := List.append_inj' hsplit rfl
      cases hsame
      obtain ⟨hscanned, hlater⟩ := h before first front hlines htokens
      refine ⟨hscanned, fun later hmem => ?_⟩
      rcases List.mem_append.mp hmem with hfront | hlast
      · exact hlater later hfront
      · rw [List.mem_singleton.mp hlast]
        exact hother

theorem sum_tokens_eq_iff (lines : List StreamLine) :
    (lines.map StreamLine.tokens).sum = scannedTokens (lastUsage lines) ↔ CountOnce lines := by
  induction lines using List.reverseRecOn with
  | nil =>
      refine ⟨fun _ => ?_, fun _ => rfl⟩
      intro before line after hsplit
      exact absurd hsplit.symm (by simp)
  | append_singleton lines line ih =>
      rw [lastUsage, List.foldl_append, List.foldl_cons, List.foldl_nil, List.map_append,
        List.sum_append, List.map_singleton, List.sum_singleton]
      cases husage : line.usage with
      | none =>
          have hother : ¬ line.Scanned := by
            rw [scanned_iff, husage]
            exact fun h => h rfl
          rw [Option.none_or, count_once_concat_other hother, ← ih]
          have hle := last_usage_le lines
          constructor
          · intro h
            -- What the line adds would exceed the usage that was scanned before it.
            have hzero : line.tokens = 0 := by
              refine le_antisymm ?_ (line_tokens_nonneg line)
              have hsum : scannedTokens (lastUsage lines) + line.tokens ≤
                  scannedTokens (lastUsage lines) := (add_le_add_left hle _).trans_eq h
              exact nonpos_of_add_le_right hsum
            rw [hzero, add_zero] at h
            exact ⟨h, hzero⟩
          · rintro ⟨h, hzero⟩
            rw [hzero, add_zero, h]
            rfl
      | some usage =>
          have hscanned : line.Scanned := by
            rw [scanned_iff, husage]
            exact Option.some_ne_none _
          have htokens := (scan_stream_line line).2 (by rw [husage]; exact Option.some_ne_none _)
          rw [Option.some_or, ← husage, ← htokens, count_once_concat_scanned hscanned,
            add_eq_right]
          constructor
          · intro h other hmem
            exact tokens_zero_of_sum h hmem
          · intro h
            rw [List.map_congr_left h]
            simp

end Alike

end Counting

section Chunks

attribute [local instance] utf8Reader

/-- A chunk that carries text and the usage so far. -/
def firstChunk : Event where
  inner :=
    "\"choices\":[\"hi\"],\"usage\":\x7b\"prompt_tokens\":12,\"completion_tokens\":1\x7d".toList
  items := [("choices", .list [.str "hi"]),
    ("usage", .dict [("prompt_tokens", .int 12), ("completion_tokens", .int 1)])]
  whole := by decide
  parsed := rfl
  parsed_bytes := utf8_loads_bytes _
  readable := by
    intro usage h
    cases h
    exact ⟨rfl, rfl⟩

/-- A chunk that carries the usage of the whole answer. -/
def finalChunk : Event where
  inner := "\"choices\":[],\"usage\":\x7b\"prompt_tokens\":12,\"completion_tokens\":2\x7d".toList
  items := [("choices", .list []),
    ("usage", .dict [("prompt_tokens", .int 12), ("completion_tokens", .int 2)])]
  whole := by decide
  parsed := rfl
  parsed_bytes := utf8_loads_bytes _
  readable := by
    intro usage h
    cases h
    exact ⟨rfl, rfl⟩

/-- A blank line. -/
def blankLine : Note where
  text := []
  whole := by decide
  noData := by decide

/-- A stream that reports its usage once. -/
def usageAtEnd : Stream := { lines := [.data finalChunk, .note blankLine], marked := true }

/-- A stream that reports its usage so far with every chunk. -/
def usageSoFar : Stream where
  lines := [.data firstChunk, .note blankLine, .data finalChunk, .note blankLine]
  marked := true

theorem on_one_line_of_all {stream : Stream}
    (h : (stream.lines.all fun line => line.text.all fun c => !isBoundary c) = true) :
    stream.OnOneLine := by
  intro line hline c hc
  have hall := List.all_eq_true.mp (List.all_eq_true.mp h line hline) c hc
  simpa using hall

/-- A request to an LM Studio agent. -/
def lmsRequest : Request where
  provider := "lms"
  agentId := "a1"
  client := ("session", "")
  model := none

theorem relays_chunk (stream : Stream) : Relays [.chunk (encode stream.text)] stream where
  upstream := List.append_nil _
  intact := by
    intro before after h
    have hmem : Piece.keepalive ∈ [Piece.chunk (encode stream.text)] := by
      rw [h]
      simp
    simp at hmem

end Chunks

end SystemsManager.Gateway
