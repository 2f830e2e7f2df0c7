import Mathlib.Data.Char
import Mathlib.Data.List.Dedup
import Mathlib.Data.List.Lex
import Mathlib.Data.List.Sort
import SystemsManager.Installer.Sections

/-!
# Removing keys from a config

`prune` drops the lines of the asked keys and checks that the result parses and that its key names
are the ones expected. The values are not compared. `prune_removes_reported` is the theorem to read:
where the lines that are dropped are whole statements outside arrays of tables, what remains has
the values it had. `prune_cuts_string` is a config where a line of another value is dropped.
-/

namespace SystemsManager.Installer

open Python Toml

variable {F : Type}

section Program

/-- Every surface form a dotted target can take: key `c` in `[a.b]`, `b.c` in `[a]`, or `a.b.c` at
top level. -/
def wantOf (targets : List Name) : List ((Name × Name) × Name) :=
  targets.foldl (fun want t =>
    let parts := splitDots t
    (List.range parts.length).foldl (fun want i =>
      setItems (joinDots (parts.take i), joinDots (parts.drop i)) t want) want) []

/-- The spans of a section that are asked for, with their targets. -/
def takenSpans (want : List ((Name × Name) × Name)) (s : LedSec) : List (Span × Name) :=
  (keysWithSpans s.body).filterMap fun span =>
    match want.lookup (s.name, span.key) with
    | some t => if t.isEmpty then none else some (span, t)
    | none => none

/-- The lines of a body that are dropped. -/
def dropIdx (want : List ((Name × Name) × Name)) (s : LedSec) : List Nat :=
  (takenSpans want s).flatMap fun taken =>
    List.range' taken.1.comments (taken.1.stop - taken.1.comments)

/-- The lines of a body that remain. -/
def newBody (want : List ((Name × Name) × Name)) (s : LedSec) : List Line :=
  (s.body.zipIdx.filter fun line => !(dropIdx want s).contains line.2).map Prod.fst

/-- A section header that the prune emptied. -/
def isEmptied (want : List ((Name × Name) × Name)) (s : LedSec) : Bool :=
  !(dropIdx want s).isEmpty && s.header.isSome && (keysWithSpans (newBody want s)).isEmpty

/-- The lines that remain. An emptied section is dropped with its lead. -/
def pruneLines (want : List ((Name × Name) × Name)) (text : List Char) : List Line :=
  (detachLeads (splitSections text)).flatMap fun s =>
    if isEmptied want s then [] else s.lead ++ (s.header.toList ++ newBody want s)

/-- The targets that were found, each once. -/
def removedOf (want : List ((Name × Name) × Name)) (text : List Char) : List Name :=
  ((detachLeads (splitSections text)).flatMap fun s =>
    (takenSpans want s).map Prod.snd).dedup

/-- What a run reports: the new text, the keys that were removed and the targets that were not
found. -/
structure Pruned where
  text : List Char
  removed : List Name
  missed : List Name
  deriving DecidableEq

/-- The targets of a run: the asked keys that are there. -/
def targetsOf (live : Items F) (pruneKeys : List Name) : List Name :=
  pruneKeys.filter (flatten live).contains

/-- `prune(live_path, prune_keys)`. -/
def prune (parseFloat : List Char → F) (file : List Char) (pruneKeys : List Name) :
    Except Failure Pruned :=
  match loadOrDie parseFloat file with
  | .error failure => .error failure
  | .ok (text, live) =>
      let targets := targetsOf live pruneKeys
      if targets.isEmpty then .ok ⟨text, [], []⟩
      else
        let want := wantOf targets
        let removed := removedOf want text
        let result := finish ((pruneLines want text).dropWhile isBlank)
        match loads parseFloat result with
        | none => .error .validateFailed
        | some post =>
            -- Only the names of the keys are compared, as sets.
            let expected := (flatten live).filter fun name => !removed.contains name
            if (flatten post).all expected.contains && expected.all (flatten post).contains then
              .ok ⟨result, removed.insertionSort (· ≤ ·),
                targets.filter fun t => !removed.contains t⟩
            else .error .validateFailed

end Program

section Marks

variable {want : List ((Name × Name) × Name)}

/-- The lines of a section, and which of them remain. -/
def markSec (want : List ((Name × Name) × Name)) (s : LedSec) : List (Bool × Line) :=
  if isEmptied want s then s.lines.map fun line => (false, line)
  else
    (s.lead ++ s.header.toList).map (fun line => (true, line)) ++
      s.body.zipIdx.map fun line => (!(dropIdx want s).contains line.2, line.1)

/-- The lines of a text, and which of them remain. -/
def marks (want : List ((Name × Name) × Name)) (text : List Char) : List (Bool × Line) :=
  (detachLeads (splitSections text)).flatMap (markSec want)

theorem mark_sec_lines (s : LedSec) : (markSec want s).map Prod.snd = s.lines := by
  unfold markSec
  split
  · simp [Function.comp_def]
  · simp [Function.comp_def, LedSec.lines, Sec.lines]

theorem mark_sec_kept (s : LedSec) : ((markSec want s).filter Prod.fst).map Prod.snd =
    if isEmptied want s then [] else s.lead ++ (s.header.toList ++ newBody want s) := by
  unfold markSec
  split
  · simp [List.filter_map, Function.comp_def]
  · simp [List.filter_map, Function.comp_def, newBody]

theorem marks_lines (text : List Char) : (marks want text).map Prod.snd = splitlines text := by
  rw [← detach_lines, marks, List.map_flatMap]
  simp only [mark_sec_lines]

theorem marks_kept (text : List Char) :
    ((marks want text).filter Prod.fst).map Prod.snd = pruneLines want text := by
  rw [marks, List.filter_flatMap, List.map_flatMap]
  simp only [mark_sec_kept]
  rfl

end Marks

section Targets

theorem want_places {t : Name} {place : Name × Name} {found : Name}
    {places : Nat → Name × Name} (idx : List Nat) {want : List ((Name × Name) × Name)}
    (h : (idx.foldl (fun want i => setItems (places i) t want) want).lookup place = some found) :
    found = t ∨ want.lookup place = some found := by
  induction idx generalizing want with
  | nil => exact .inr h
  | cons i idx ih =>
      rcases ih h with h | h
      · exact .inl h
      · rw [lookup_set_items] at h
        split at h
        · exact .inl (Option.some.inj h).symm
        · exact .inr h

theorem want_mem {targets : List Name} {place : Name × Name} {t : Name}
    (h : (wantOf targets).lookup place = some t) : t ∈ targets := by
  have hfold : ∀ (ts : List Name) (want : List ((Name × Name) × Name)),
      (∀ place t, want.lookup place = some t → t ∈ targets) → (∀ t ∈ ts, t ∈ targets) →
      ∀ place t, (ts.foldl (fun want t =>
        (List.range (splitDots t).length).foldl (fun want i => setItems
          (joinDots ((splitDots t).take i), joinDots ((splitDots t).drop i)) t want) want)
        want).lookup place = some t → t ∈ targets := by
    intro ts
    induction ts with
    | nil => exact fun want hwant _ => hwant
    | cons t' ts ih =>
        intro want hwant hts
        refine ih _ ?_ fun t ht => hts t (List.mem_cons_of_mem _ ht)
        intro place t hlookup
        rcases want_places _ hlookup with rfl | hlookup
        · exact hts t (List.mem_cons_self ..)
        · exact hwant place t hlookup
  exact hfold targets [] (by simp) (fun _ ht => ht) place t h

theorem removed_mem {targets : List Name} {text : List Char} {name : Name}
    (h : name ∈ removedOf (wantOf targets) text) : name ∈ targets := by
  rw [removedOf, List.mem_dedup, List.mem_flatMap] at h
  obtain ⟨s, -, h⟩ := h
  obtain ⟨⟨span, t⟩, htaken, rfl⟩ := List.mem_map.mp h
  rw [takenSpans, List.mem_filterMap] at htaken
  obtain ⟨span', -, htaken⟩ := htaken
  split at htaken
  · rename_i t' hlookup
    split at htaken
    · cases htaken
    · cases htaken
      exact want_mem hlookup
  · cases htaken

end Targets

section Correctness

variable {parseFloat : List Char → F} {file text : List Char} {live : Items F}
  {pruneKeys : List Name} {want : List ((Name × Name) × Name)}

/-- The result parses, the keys that are gone are the ones reported, they were asked for, and what
remains has the value it had. -/
def RemovesReported (parseFloat : List Char → F) (live : Items F) (pruneKeys : List Name)
    (out : Pruned) : Prop :=
  ∃ post, loads parseFloat out.text = some post ∧
    (∀ name, name ∈ out.removed ↔ name ∈ flatten live ∧ name ∉ flatten post) ∧
    (∀ name ∈ out.removed, name ∈ pruneKeys) ∧
    ∀ path v, (path, v) ∈ leaves post → (path, v) ∈ leaves live

/-- The walk takes whole statements: the text means the same when it is cut into the lines that the
walk sees, each statement loses all its lines or none, and those that are lost lie outside the
arrays of tables, a header only with all its pairs. -/
structure TakesStatements (parseFloat : List Char → F) (want : List ((Name × Name) × Name))
    (text : List Char) : Prop where
  lines : loads parseFloat (joinLines (splitlines text)) = loads parseFloat text
  pieces : ∃ pieces : List (Piece F), (∀ piece ∈ pieces, piece.Reads parseFloat) ∧
    lineMarks pieces = marks want text ∧
    omits (arrayPaths (pieces.map Piece.stmt)) [] true (pieces.map Piece.mark) = true

theorem remaining_values (h : TakesStatements parseFloat want text)
    (hlive : loads parseFloat text = some live) {post : Items F}
    (hpost : loads parseFloat (finish ((pruneLines want text).dropWhile isBlank)) = some post)
    {path : Path} {v : Value F} (hleaf : (path, v) ∈ leaves post) : (path, v) ∈ leaves live := by
  obtain ⟨pieces, hreads, hmarks, homits⟩ := h.pieces
  have hlines : pieces.flatMap Piece.lines = splitlines text := by
    rw [← line_marks_lines, hmarks, marks_lines]
  have hkept : (pieces.filter Piece.keep).flatMap Piece.lines = pruneLines want text := by
    rw [← line_marks_kept, hmarks, marks_kept]
  -- The whole text.
  have hplain : ∀ line ∈ splitlines text, '\n' ∉ line := fun _ => splitlines_no_newline
  obtain ⟨n, hsplit⟩ := split_join_lines hplain
  rw [← hlines] at hsplit
  rw [← h.lines, ← hlines, loads_of_reads hreads hsplit, Option.map_eq_some_iff] at hlive
  obtain ⟨last, hrun, rfl⟩ := hlive
  -- What remains of it.
  obtain ⟨rest, hrest, hdrop, hrun'⟩ := run_drop_blanks (fun _ => blank_ends)
    (fun _ _ => blank_statement) fun piece hpiece => hreads piece (List.mem_of_mem_filter hpiece)
  rw [hkept] at hdrop
  have hnewline : ∀ line ∈ rest.flatMap Piece.lines, '\n' ∉ line := by
    intro line hline
    rw [← hdrop] at hline
    refine hplain line ?_
    have hmem := (List.dropWhile_sublist _).mem hline
    rw [← marks_kept] at hmem
    have hmarked := ((List.filter_sublist).map Prod.snd).mem hmem
    rw [marks_lines] at hmarked
    exact hmarked
  obtain ⟨m, hfinish⟩ := split_finish hnewline
  rw [hdrop, loads_of_reads hrest hfinish, ← hrun', Option.map_eq_some_iff] at hpost
  obtain ⟨last', hrun', rfl⟩ := hpost
  rw [← kept_marks] at hrun'
  rw [← whole_marks] at hrun homits
  refine kept_leaves ?_ homits hrun' hrun hleaf
  intro m hm
  obtain ⟨piece, hpiece, rfl⟩ := List.mem_map.mp hm
  exact statement_closed (hreads piece hpiece).stmt

/-- Where the walk takes whole statements, prune removes what it reports and nothing else. -/
theorem prune_removes_reported {out : Pruned}
    (hload : loadOrDie parseFloat file = .ok (text, live))
    (htakes : targetsOf live pruneKeys ≠ [] →
      TakesStatements parseFloat (wantOf (targetsOf live pruneKeys)) text)
    (hrun : prune parseFloat file pruneKeys = .ok out) :
    RemovesReported parseFloat live pruneKeys out := by
  have hlive := load_ok hload
  rw [prune, hload] at hrun
  dsimp only at hrun
  split at hrun
  · -- Nothing was asked for that is there, and the text is left as it is.
    cases hrun
    exact ⟨live, hlive, by simp, by simp, fun _ _ h => h⟩
  · rename_i hne
    split at hrun
    · cases hrun
    · rename_i post hpost
      split at hrun
      · rename_i hsame
        cases hrun
        have htargets : ∀ name ∈ removedOf (wantOf (targetsOf live pruneKeys)) text,
            name ∈ pruneKeys ∧ name ∈ flatten live := by
          intro name hname
          have := removed_mem hname
          rw [targetsOf, List.mem_filter, List.contains_iff_mem] at this
          exact this
        simp only [Bool.and_eq_true, List.all_eq_true, List.contains_iff_mem, List.mem_filter,
          Bool.not_eq_true', Bool.eq_false_iff, ne_eq] at hsame
        refine ⟨post, hpost, ?_, ?_, ?_⟩
        · intro name
          rw [List.mem_insertionSort]
          constructor
          · intro hname
            exact ⟨(htargets name hname).2, fun hpost => (hsame.1 name hpost).2 hname⟩
          · rintro ⟨hlive, hpost⟩
            by_contra hname
            exact hpost (hsame.2 name ⟨hlive, hname⟩)
        · intro name hname
          rw [List.mem_insertionSort] at hname
          exact (htargets name hname).1
        · intro path v hleaf
          exact remaining_values (htakes (by simpa using hne)) hlive hpost hleaf
      · cases hrun

/-- A key with a list over three lines is removed with its comment. -/
theorem prune_removes_list :
    let config := "[server]\n# allowed\nhosts = [\n  1,\n]\nport = 2\n[[model]]\nid = 3".toList
    let live : Items (List Char) :=
      [("server".toList, .table false [("hosts".toList, .array true [.int 1]),
          ("port".toList, .int 2)]),
        ("model".toList, .array false [.table false [("id".toList, .int 3)]])]
    RemovesReported id live ["server.hosts".toList]
      ⟨"[server]\nport = 2\n[[model]]\nid = 3\n".toList, ["server.hosts".toList], []⟩ ∧
      prune id config ["server.hosts".toList] =
        .ok ⟨"[server]\nport = 2\n[[model]]\nid = 3\n".toList, ["server.hosts".toList], []⟩ := by
  intro config live
  have hload : loadOrDie id config = .ok (config, live) := by decide +kernel
  have hrun : prune id config ["server.hosts".toList] =
      .ok ⟨"[server]\nport = 2\n[[model]]\nid = 3\n".toList, ["server.hosts".toList], []⟩ := by
    decide +kernel
  refine ⟨prune_removes_reported hload ?_ hrun, hrun⟩
  intro _
  refine ⟨by decide +kernel, [⟨true, ["[server]".toList], .header ["server".toList]⟩,
    ⟨false, ["# allowed".toList], .blank⟩,
    ⟨false, ["hosts = [".toList, "  1,".toList, "]".toList],
      .pair ["hosts".toList] (.array true [.int 1])⟩,
    ⟨true, ["port = 2".toList], .pair ["port".toList] (.int 2)⟩,
    ⟨true, ["[[model]]".toList], .arrayHeader ["model".toList]⟩,
    ⟨true, ["id = 3".toList], .pair ["id".toList] (.int 3)⟩], ?_, by decide +kernel,
    by decide +kernel⟩
  intro piece hpiece
  have hreads : piece.lines ≠ [] ∧ logicalLines piece.lines = some [piece.lines] ∧
      statement id (joinLines piece.lines) = some piece.stmt := by
    revert piece
    decide +kernel
  exact ⟨⟨hreads.1, hreads.2.1⟩, hreads.2.2⟩

/-- A line of a multi-line string looks like the key that is removed: the string loses it. -/
theorem prune_cuts_string :
    let config := "a = \"\"\"\nb = 1\nc = 2\n\"\"\"\nb = 5\n".toList
    let live : Items (List Char) :=
      [("a".toList, .str "b = 1\nc = 2\n".toList), ("b".toList, .int 5)]
    let out : Pruned := ⟨"a = \"\"\"\nc = 2\n\"\"\"\n".toList, ["b".toList], []⟩
    loadOrDie id config = .ok (config, live) ∧ prune id config ["b".toList] = .ok out ∧
      ¬ RemovesReported id live ["b".toList] out := by
  intro config live out
  refine ⟨by decide +kernel, by decide +kernel, ?_⟩
  rintro ⟨post, hpost, -, -, hvalues⟩
  have hload : loads (F := List Char) id out.text =
      some [("a".toList, .str "c = 2\n".toList)] := by decide +kernel
  rw [hload] at hpost
  cases hpost
  have hleaf := hvalues ["a".toList] (.str "c = 2\n".toList) (by decide +kernel)
  revert hleaf
  decide +kernel

end Correctness

end SystemsManager.Installer
