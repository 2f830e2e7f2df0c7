import Mathlib.Algebra.Ring.Nat
import Mathlib.Data.List.DropRight
import SystemsManager.Installer.Prune

/-!
# Putting a config into the order of the example

`reorder` moves the sections and keys of a config into the layout of the example. `split_body` cuts
the body of a section into a head, a block for each key with the comments right above it, and a
tail. `reorder_conserves` is the theorem to read: which lines get lost is a matter of this cut
alone, and what lies between two keys and is in no block is lost. `reorder_loses_note` is a config
with such a comment.
-/

namespace SystemsManager.Installer

open Python Toml

section Program

/-- `BANNER_RE.match` -/
def isBanner (line : Line) : Bool :=
  match line with
  | '#' :: rest =>
      let rule := rest.dropWhile isSpace
      (2 ≤ rule.length && (rule.take 2).all fun c => c == '─' || c == '═') ||
        rule.take 3 == ['-', '-', '-']
  | _ => false

/-- `banners` -/
def banners (lines : List Line) : List Line := (lines.map stripLine).filter isBanner

/-- `body[a:b]` -/
def sliceOf (body : List Line) (a b : Nat) : List Line := (body.drop a).take (b - a)

/-- `n > 0 and not body[n - 1].strip()` -/
def gapAbove (body : List Line) (n : Nat) : Bool := 0 < n && (body[n - 1]?).any isBlank

/-- A key with its comments, whether a blank line stood above, and its place. -/
structure Block where
  key : Name
  lines : List Line
  hadGap : Bool
  place : Nat

/-- The blocks of a body. -/
def blocksOf (body : List Line) : List Block :=
  (keysWithSpans body).zipIdx.map fun span =>
    ⟨span.1.key, sliceOf body span.1.comments span.1.stop, gapAbove body span.1.comments, span.2⟩

/-- The preamble of a body. -/
def headOf (body : List Line) : List Line :=
  match keysWithSpans body with
  | [] => body
  | first :: _ => body.take first.comments

/-- The lines after the last key. -/
def tailOf (body : List Line) : List Line :=
  match (keysWithSpans body).getLast? with
  | none => []
  | some last => body.drop last.stop

/-- The place of a key in the example, which is that of its last line. -/
def orderOf (exBody : List Line) (key : Name) : Option Nat :=
  ((keysWithSpans exBody).zipIdx.reverse.find? fun span => span.1.key == key).map Prod.snd

/-- `ex_gap.get(key, had_gap)` -/
def gapOf (exBody : List Line) (b : Block) : Bool :=
  match (keysWithSpans exBody).reverse.find? fun span => span.key == b.key with
  | some span => gapAbove exBody span.comments
  | none => b.hadGap

/-- The blocks in the order of the example, the unknown ones last. -/
def newBlocks (exBody : List Line) (blocks : List Block) : List Block :=
  (blocks.filter fun b => (orderOf exBody b.key).isSome).insertionSort
      (fun a b => (orderOf exBody a.key).getD 0 ≤ (orderOf exBody b.key).getD 0) ++
    blocks.filter fun b => (orderOf exBody b.key).isNone

/-- How many entries stand at another place. -/
def movedOf (places : List Nat) (places' : List Nat) : Nat :=
  (places.zip places').countP fun p => p.1 != p.2

/-- `rebuild_body` -/
def rebuildBody (body exBody : List Line) : List Line × Nat :=
  match keysWithSpans body with
  | [] => (body, 0)
  | _ :: _ =>
      let blocks := newBlocks exBody (blocksOf body)
      let keyed := blocks.zipIdx.flatMap fun b =>
        (if 0 < b.2 && gapOf exBody b.1 then [[]] else []) ++ b.1.lines
      (((headOf body).rdropWhile isBlank ++ keyed ++ tailOf body).rdropWhile isBlank,
        movedOf ((blocksOf body).map Block.place) (blocks.map Block.place))

/-- The sections of the example, the first of each name. -/
def exSections (ex : List Char) : List LedSec :=
  (detachLeads (splitSections ex)).foldl (fun found s =>
    if s.name.isEmpty || found.any fun t => t.name == s.name then found else found ++ [s]) []

/-- The section of the example with a name. -/
def exSection (ex : List Char) (name : Name) : Option LedSec :=
  (exSections ex).find? fun s => s.name == name

/-- The banner of a section is not that of the example. -/
def isStale (ex : List Char) (s : LedSec) : Bool :=
  match exSection ex s.name with
  | some t => banners s.lead != banners t.lead
  | none => false

/-- The lead that a section gets. -/
def newLead (ex : List Char) (s : LedSec) : List Line :=
  match exSection ex s.name with
  | some t => if banners s.lead != banners t.lead then t.lead else s.lead
  | none => s.lead

/-- The example's body of a section. -/
def exBodyOf (ex : List Char) (name : Name) : List Line :=
  match exSection ex name with
  | some t => t.body
  | none => []

/-- The sections in the order of the example, the unknown ones last. -/
def orderedSections {α : Type} (nameOf : α → Name) (names : List Name) (rest : List α) : List α :=
  names.flatMap (fun name => rest.filter fun s => nameOf s == name) ++
    rest.filter fun s => !names.contains (nameOf s)

/-- The lines of a section in the result. -/
def chunkOf (ex : List Char) (s : LedSec) : List Line :=
  (newLead ex s ++ s.header.toList ++
    (rebuildBody s.body (exBodyOf ex s.name)).1).rdropWhile isBlank

/-- The comments of a section that are reported, as they stand. -/
def staleOf (ex : List Char) (s : LedSec) : List Line :=
  if isStale ex s then s.lead.filter fun line => !isBlank line else []

variable {F : Type} (scalar : Value F → Value F → Bool)

mutual
/-- `==`, over that of the values that hold no others. -/
def equalValue : Value F → Value F → Bool
  | .array _ as, b =>
      match b with
      | .array _ bs => equalValues as bs
      | _ => false
  | .table _ as, b =>
      match b with
      | .table _ bs => as.length == bs.length && equalItems as bs
      | _ => false
  | a, b => scalar a b
  termination_by structural a => a

/-- `==` of two lists. -/
def equalValues : List (Value F) → List (Value F) → Bool
  | [], bs => bs.isEmpty
  | a :: as, b :: bs => equalValue a b && equalValues as bs
  | _ :: _, [] => false
  termination_by structural as => as

/-- Each item is in the other dictionary. -/
def equalItems : List (Name × Value F) → Items F → Bool
  | [], _ => true
  | item :: rest, bs => equalItem item bs && equalItems rest bs
  termination_by structural items => items

/-- The item is in the other dictionary. -/
def equalItem : Name × Value F → Items F → Bool
  | (name, v), bs =>
      match bs.lookup name with
      | some w => equalValue v w
      | none => false
  termination_by structural item => item
end

/-- The last part of a dotted name. -/
def lastPart (name : Name) : Name := (splitDots name).getLast?.getD []

/-- The keys that the example has under another table, with the paths there. -/
def misplacedOf (live ex : Items F) : List (Name × Name) :=
  (((flatten live).dedup.filter fun p => !(flatten ex).contains p).insertionSort (· ≤ ·)).flatMap
    fun p => (((flatten ex).dedup.filter fun q => lastPart q == lastPart p).insertionSort
      (· ≤ ·)).map fun q => (p, q)

/-- What a run reports. -/
structure Reordered where
  text : List Char
  misplaced : List (Name × Name)
  stale : List Line
  moved : Nat
  deriving DecidableEq

/-- The sections of a text with their places: those without a name, and the others. -/
def numbered (text : List Char) : List (LedSec × Nat) × List (LedSec × Nat) :=
  (detachLeads (splitSections text)).zipIdx.partition fun s => s.1.name.isEmpty

/-- The sections with a name in the order of the example. -/
def orderedOf (text exText : List Char) : List (LedSec × Nat) :=
  orderedSections (fun s => s.1.name) ((exSections exText).map (·.name)) (numbered text).2

/-- `reorder(live_path, example_path)` -/
def reorder (parseFloat : List Char → F) (liveFile exFile : List Char) :
    Except Failure Reordered :=
  match loadOrDie parseFloat liveFile, loadOrDie parseFloat exFile with
  | .ok (text, live), .ok (exText, ex) =>
      let secs := ((numbered text).1 ++ orderedOf text exText).map Prod.fst
      let result := finish ((secs.flatMap (chunkOf exText)).dropWhile isBlank)
      match loads parseFloat result with
      | none => .error .validateFailed
      | some post =>
          if post.length == live.length && equalItems scalar post live then
            .ok {
              text := result
              misplaced := misplacedOf live ex
              stale := (secs.flatMap (staleOf exText)).map stripLine
              moved := movedOf ((numbered text).2.map Prod.snd)
                  ((orderedOf text exText).map Prod.snd) +
                (secs.map fun s => (rebuildBody s.body (exBodyOf exText s.name)).2).sum }
          else .error .validateFailed
  | .error failure, _ => .error failure
  | _, .error failure => .error failure

end Program

section Cut

/-- The lines between the keys from here on that are in no block. -/
def lostFrom (body : List Line) (stop : Nat) : List Span → List Line
  | [] => []
  | span :: rest => sliceOf body stop span.comments ++ lostFrom body span.stop rest

/-- The lines of a body that are in no block, nor in its head or tail. -/
def lostOf (body : List Line) : List Line :=
  match keysWithSpans body with
  | [] => []
  | first :: rest => lostFrom body first.stop rest

/-- The comments from here on that are in the block of the key above, too. -/
def doubledFrom (body : List Line) (stop : Nat) : List Span → List Line
  | [] => []
  | span :: rest => sliceOf body span.comments stop ++ doubledFrom body span.stop rest

/-- The comments of a body that two blocks hold. -/
def doubledOf (body : List Line) : List Line :=
  match keysWithSpans body with
  | [] => []
  | first :: rest => doubledFrom body first.stop rest

/-- The example's lead of a section, where it replaces the section's own. -/
def adoptedOf (ex : List Char) (s : LedSec) : List Line :=
  if isStale ex s then newLead ex s else []

variable {body : List Line} {line : Line}

theorem count_slice (body : List Line) (line : Line) (a b : Nat) :
    (body.take a).count line + (sliceOf body a b).count line =
      (body.take b).count line + (sliceOf body b a).count line := by
  have hle : ∀ {a b : Nat}, a ≤ b → body.take a ++ sliceOf body a b = body.take b ∧
      sliceOf body b a = [] := by
    intro a b hab
    refine ⟨?_, by simp [sliceOf, Nat.sub_eq_zero_of_le hab]⟩
    rw [sliceOf, ← List.take_add, Nat.add_sub_cancel' hab]
  rcases Nat.le_total a b with hab | hba
  · obtain ⟨hslice, hnil⟩ := hle hab
    rw [← List.count_append, hslice, hnil, List.count_nil, Nat.add_zero]
  · obtain ⟨hslice, hnil⟩ := hle hba
    rw [hnil, List.count_nil, Nat.add_zero, ← List.count_append, hslice]

/-- From a place on, the blocks, the lost lines and the tail are the lines of the body with those
that two blocks hold. -/
theorem count_from (spans : List Span) (hspans : ∀ span ∈ spans, span.comments ≤ span.stop)
    (stop : Nat) :
    (body.take stop).count line + (lostFrom body stop spans).count line +
        (spans.flatMap fun span => sliceOf body span.comments span.stop).count line +
        (body.drop ((spans.map Span.stop).getLastD stop)).count line =
      body.count line + (doubledFrom body stop spans).count line := by
  induction spans generalizing stop with
  | nil =>
      have hsplit := congrArg (List.count line) (List.take_append_drop stop body)
      rw [List.count_append] at hsplit
      simpa [lostFrom, doubledFrom] using hsplit
  | cons span rest ih =>
      have hrest := ih (fun s hs => hspans s (List.mem_cons_of_mem _ hs)) span.stop
      have hgap := count_slice body line stop span.comments
      have hblock := count_slice body line span.comments span.stop
      have hempty : sliceOf body span.stop span.comments = [] := by
        simp [sliceOf, Nat.sub_eq_zero_of_le (hspans span List.mem_cons_self)]
      rw [hempty, List.count_nil] at hblock
      simp only [lostFrom, doubledFrom, List.flatMap_cons, List.map_cons, List.getLastD_cons,
        List.count_append]
      omega

theorem blocks_lines (body : List Line) : (blocksOf body).flatMap Block.lines =
    (keysWithSpans body).flatMap fun span => sliceOf body span.comments span.stop := by
  rw [blocksOf, List.flatMap_map]
  conv_rhs => rw [← List.zipIdx_map_fst 0 (keysWithSpans body), List.flatMap_map]

theorem new_blocks_perm (exBody : List Line) (blocks : List Block) :
    (newBlocks exBody blocks).Perm blocks := by
  have hsplit := List.filter_append_perm (fun b : Block => (orderOf exBody b.key).isSome) blocks
  have hnone : (fun b : Block => !(orderOf exBody b.key).isSome) =
      fun b => (orderOf exBody b.key).isNone := by
    funext b
    cases orderOf exBody b.key <;> rfl
  rw [hnone] at hsplit
  exact ((List.perm_insertionSort _ _).append_right _).trans hsplit

theorem count_rdrop {lines : List Line} (h : isBlank line = false) :
    (lines.rdropWhile isBlank).count line = lines.count line := by
  induction lines using List.reverseRecOn with
  | nil => rfl
  | append_singleton lines last ih =>
      rw [List.rdropWhile_concat]
      split
      · rename_i hlast
        have hne : last ≠ line := by
          rintro rfl
          rw [h] at hlast
          cases hlast
        rw [ih, List.count_append, List.count_singleton, beq_false_of_ne hne]
        rfl
      · rfl

theorem count_drop {lines : List Line} (h : isBlank line = false) :
    (lines.dropWhile isBlank).count line = lines.count line := by
  induction lines with
  | nil => rfl
  | cons first lines ih =>
      rw [List.dropWhile_cons]
      split
      · rename_i hfirst
        have hne : first ≠ line := by
          rintro rfl
          rw [h] at hfirst
          cases hfirst
        rw [ih, List.count_cons_of_ne hne]
      · rfl

theorem count_keyed (h : isBlank line = false) (gap : Block × Nat → Bool) (blocks : List Block)
    (n : Nat) :
    ((blocks.zipIdx n).flatMap fun b => (if gap b then [[]] else []) ++ b.1.lines).count line =
      (blocks.flatMap Block.lines).count line := by
  have hne : ([] : Line) ≠ line := by
    rintro rfl
    cases h
  induction blocks generalizing n with
  | nil => rfl
  | cons b blocks ih =>
      simp only [List.zipIdx_cons, List.flatMap_cons, List.count_append, ih]
      split
      · rw [List.count_singleton, beq_false_of_ne hne]
        simp
      · simp

theorem rebuild_count (body exBody : List Line) (h : isBlank line = false) :
    (rebuildBody body exBody).1.count line + (lostOf body).count line =
      body.count line + (doubledOf body).count line := by
  unfold rebuildBody lostOf doubledOf
  cases hspans : keysWithSpans body with
  | nil => rfl
  | cons first rest =>
      have hbounds : ∀ span ∈ first :: rest, span.comments ≤ span.stop := by
        intro span hspan
        rw [← hspans] at hspan
        obtain ⟨hcomments, hstop, -⟩ := spans_from_bounds (Nat.zero_add _) hspan
        omega
      have hfrom : _ = _ + (doubledFrom body first.stop rest).count line := count_from rest
        (fun span hspan => hbounds span (List.mem_cons_of_mem _ hspan)) first.stop
      have hfirst : (body.take first.comments).count line +
          (sliceOf body first.comments first.stop).count line =
            (body.take first.stop).count line := by
        rw [count_slice, sliceOf, Nat.sub_eq_zero_of_le (hbounds first List.mem_cons_self)]
        simp
      have hhead : headOf body = body.take first.comments := by rw [headOf, hspans]
      have htail : tailOf body = body.drop ((rest.map Span.stop).getLastD first.stop) := by
        rw [tailOf, hspans, List.getLast?_cons]
        simp only [List.getLastD_eq_getLast?, List.getLast?_map]
        cases rest.getLast? <;> rfl
      have hblocks : ((newBlocks exBody (blocksOf body)).flatMap Block.lines).count line =
          ((first :: rest).flatMap fun span =>
            sliceOf body span.comments span.stop).count line := by
        rw [((new_blocks_perm exBody (blocksOf body)).flatMap_right _).count_eq, blocks_lines,
          hspans]
      simp only [count_rdrop h, List.count_append, count_keyed h, hblocks, hhead, htail,
        List.flatMap_cons]
      omega

theorem slice_subset (body : List Line) (a b : Nat) : sliceOf body a b ⊆ body :=
  fun _ h => List.mem_of_mem_drop (List.mem_of_mem_take h)

theorem mem_rebuild {exBody : List Line} (h : line ∈ (rebuildBody body exBody).1) :
    line ∈ body ∨ line = [] := by
  unfold rebuildBody at h
  split at h
  · exact Or.inl h
  · have hmem := (List.rdropWhile_prefix _ _).subset h
    rcases List.mem_append.mp hmem with hmem | htail
    · rcases List.mem_append.mp hmem with hhead | hkeyed
      · have hmem := (List.rdropWhile_prefix _ _).subset hhead
        unfold headOf at hmem
        split at hmem
        · exact Or.inl hmem
        · exact Or.inl (List.mem_of_mem_take hmem)
      · obtain ⟨b, hb, hline⟩ := List.mem_flatMap.mp hkeyed
        rcases List.mem_append.mp hline with hgap | hline
        · split at hgap
          · exact Or.inr (List.mem_singleton.mp hgap)
          · cases hgap
        · have hb := (new_blocks_perm exBody _).mem_iff.mp (List.fst_mem_of_mem_zipIdx hb)
          have hmem := List.mem_flatMap.mpr ⟨b.1, hb, hline⟩
          rw [blocks_lines] at hmem
          obtain ⟨span, -, hspan⟩ := List.mem_flatMap.mp hmem
          exact Or.inl (slice_subset body _ _ hspan)
    · unfold tailOf at htail
      split at htail
      · cases htail
      · exact Or.inl (List.mem_of_mem_drop htail)

end Cut

section Sections

theorem ordered_perm {α : Type} (nameOf : α → Name) {names : List Name} (h : names.Nodup)
    (rest : List α) : (orderedSections nameOf names rest).Perm rest := by
  unfold orderedSections
  induction names generalizing rest with
  | nil => simp
  | cons name names ih =>
      obtain ⟨hname, hnames⟩ := List.nodup_cons.mp h
      have hrest := ih hnames (rest.filter fun s => !(nameOf s == name))
      have hsame : (names.flatMap fun other =>
          (rest.filter fun s => !(nameOf s == name)).filter fun s => nameOf s == other) =
            names.flatMap fun other => rest.filter fun s => nameOf s == other := by
        refine List.flatMap_congr fun other hother => ?_
        rw [List.filter_filter]
        refine List.filter_congr fun s _ => ?_
        by_cases hs : nameOf s = other
        · have hne : nameOf s ≠ name := fun heq => hname (heq ▸ hs ▸ hother)
          simp [hs, hs ▸ hne]
        · simp [hs]
      have hlast : ((rest.filter fun s => !(nameOf s == name)).filter fun s =>
          !names.contains (nameOf s)) = rest.filter fun s =>
            !(name :: names).contains (nameOf s) := by
        rw [List.filter_filter]
        refine List.filter_congr fun s _ => ?_
        rw [List.contains_cons, Bool.not_or, Bool.and_comm]
      rw [hsame, hlast] at hrest
      rw [List.flatMap_cons, List.append_assoc]
      exact (hrest.append_left _).trans (List.filter_append_perm _ _)

theorem ex_sections_spec (ex : List Char) : ((exSections ex).map (·.name)).Nodup ∧
    ∀ s ∈ exSections ex, s ∈ detachLeads (splitSections ex) := by
  have hrun : ∀ (secs found : List LedSec), (found.map (·.name)).Nodup →
      (∀ s ∈ found, s ∈ detachLeads (splitSections ex)) →
      (∀ s ∈ secs, s ∈ detachLeads (splitSections ex)) →
      let found' := secs.foldl (fun found s =>
        if s.name.isEmpty || found.any fun t => t.name == s.name then found else found ++ [s]) found
      (found'.map (·.name)).Nodup ∧ ∀ s ∈ found', s ∈ detachLeads (splitSections ex) := by
    intro secs
    induction secs with
    | nil => exact fun _ hnodup hfound _ => ⟨hnodup, hfound⟩
    | cons s secs ih =>
        intro found hnodup hfound hsecs
        rw [List.foldl_cons]
        have hlater := fun t ht => hsecs t (List.mem_cons_of_mem _ ht)
        split
        · exact ih found hnodup hfound hlater
        · rename_i hnew
          refine ih _ ?_ ?_ hlater
          · rw [List.map_append, List.nodup_append]
            refine ⟨hnodup, by simp, ?_⟩
            simp only [Bool.or_eq_true, List.any_eq_true, not_or, not_exists, not_and,
              beq_iff_eq] at hnew
            intro name hname other hother heq
            obtain ⟨t, ht, rfl⟩ := List.mem_map.mp hname
            exact hnew.2 t ht (heq.trans (by simpa using hother))
          · intro t ht
            rcases List.mem_append.mp ht with ht | ht
            · exact hfound t ht
            · rw [List.mem_singleton.mp ht]
              exact hsecs s List.mem_cons_self
  exact hrun _ [] List.nodup_nil (by simp) fun _ h => h

theorem sections_perm (text exText : List Char) :
    (((numbered text).1 ++ orderedOf text exText).map Prod.fst).Perm
      (detachLeads (splitSections text)) := by
  have hordered : (orderedOf text exText).Perm (numbered text).2 :=
    ordered_perm _ (ex_sections_spec exText).1 _
  have hall : ((numbered text).1 ++ (numbered text).2).Perm
      (detachLeads (splitSections text)).zipIdx := by
    rw [numbered, List.partition_eq_filter_filter]
    exact List.filter_append_perm _ _
  have hfst := ((hordered.append_left _).trans hall).map Prod.fst
  rwa [List.zipIdx_map_fst] at hfst

end Sections

section Conservation

variable {text exText : List Char} {line : Line}

/-- The lines of a text that are in no block of their section. -/
def lostLines (text : List Char) : List Line :=
  (detachLeads (splitSections text)).flatMap fun s => lostOf s.body

/-- The comments of a text that two blocks hold. -/
def doubledLines (text : List Char) : List Line :=
  (detachLeads (splitSections text)).flatMap fun s => doubledOf s.body

/-- The lines of the example's leads that replace others. -/
def adoptedLines (text exText : List Char) : List Line :=
  (detachLeads (splitSections text)).flatMap (adoptedOf exText)

/-- The comments that are reported, as they stand in the text. -/
def staleLines (text exText : List Char) : List Line :=
  (detachLeads (splitSections text)).flatMap (staleOf exText)

theorem lead_count (exText : List Char) (s : LedSec) (h : isBlank line = false) :
    (newLead exText s).count line + (staleOf exText s).count line =
      s.lead.count line + (adoptedOf exText s).count line := by
  have hfilter : (s.lead.filter fun line => !isBlank line).count line = s.lead.count line :=
    List.count_filter (by simp [h])
  unfold newLead staleOf adoptedOf isStale newLead
  cases exSection exText s.name with
  | none => rfl
  | some t =>
      dsimp only
      split
      · rw [hfilter, Nat.add_comm]
      · rfl

theorem chunk_count (exText : List Char) (s : LedSec) (h : isBlank line = false) :
    (chunkOf exText s).count line + (lostOf s.body).count line + (staleOf exText s).count line =
      s.lines.count line + (doubledOf s.body).count line + (adoptedOf exText s).count line := by
  have hlead := lead_count exText s h
  have hbody := rebuild_count s.body (exBodyOf exText s.name) h
  rw [chunkOf, count_rdrop h, LedSec.lines, Sec.lines]
  simp only [List.count_append]
  omega

theorem mem_chunk {s : LedSec} (hs : s ∈ detachLeads (splitSections text))
    (h : line ∈ chunkOf exText s) :
    line ∈ splitlines text ∨ line ∈ splitlines exText ∨ line = [] := by
  have hlive : line ∈ s.lines → line ∈ splitlines text := fun hline => by
    rw [← detach_lines]
    exact List.mem_flatMap.mpr ⟨s, hs, hline⟩
  have hmem := (List.rdropWhile_prefix _ _).subset h
  rcases List.mem_append.mp hmem with hmem | hbody
  · rcases List.mem_append.mp hmem with hlead | hheader
    · have hcases : line ∈ s.lead ∨ ∃ t ∈ exSections exText, line ∈ t.lead := by
        unfold newLead at hlead
        split at hlead
        · rename_i t ht
          split at hlead
          · exact Or.inr ⟨t, List.mem_of_find?_eq_some ht, hlead⟩
          · exact Or.inl hlead
        · exact Or.inl hlead
      rcases hcases with hlead | ⟨t, ht, hlead⟩
      · exact Or.inl (hlive (List.mem_append_left _ hlead))
      · refine Or.inr (Or.inl ?_)
        rw [← detach_lines]
        exact List.mem_flatMap.mpr ⟨t, (ex_sections_spec exText).2 t ht,
          List.mem_append_left _ hlead⟩
    · exact Or.inl (hlive (List.mem_append_right _ (List.mem_append_left _ hheader)))
  · rcases mem_rebuild hbody with hbody | hempty
    · exact Or.inl (hlive (List.mem_append_right _ (List.mem_append_right _ hbody)))
    · exact Or.inr (Or.inr hempty)

theorem count_finish {out : List Line} (hout : ∀ l ∈ out, '\n' ∉ l) (h : isBlank line = false) :
    (splitLines (finish out)).count line = out.count line := by
  obtain ⟨n, hsplit⟩ := split_finish hout
  have hne : line ≠ [] := by
    rintro rfl
    cases h
  rw [hsplit, List.count_append, List.count_replicate, beq_false_of_ne hne.symm]
  rfl

/-- Each line that is not blank is there as often as it was, but for the comments reported. -/
def Conserves (text exText : List Char) (out : Reordered) : Prop :=
  ∀ line, isBlank line = false → (splitlines text).count line ≤
    (splitLines out.text).count line + (staleLines text exText).count line

variable {F : Type} {scalar : Value F → Value F → Bool} {parseFloat : List Char → F}
  {liveFile exFile : List Char}

theorem sections_count (exText : List Char) (secs : List LedSec) (h : isBlank line = false) :
    (secs.flatMap (chunkOf exText)).count line + (secs.flatMap fun s => lostOf s.body).count line +
        (secs.flatMap (staleOf exText)).count line =
      (secs.flatMap LedSec.lines).count line + (secs.flatMap fun s => doubledOf s.body).count line +
        (secs.flatMap (adoptedOf exText)).count line := by
  induction secs with
  | nil => rfl
  | cons s secs ih =>
      have hs := chunk_count exText s h
      simp only [List.flatMap_cons, List.count_append]
      omega

theorem load_text {file text : List Char} {items : Items F}
    (h : loadOrDie parseFloat file = .ok (text, items)) : text = readText file := by
  simp only [loadOrDie] at h
  split at h
  · cases h
    rfl
  · cases h

theorem reorder_count {out : Reordered}
    (hrun : reorder scalar parseFloat liveFile exFile = .ok out) (h : isBlank line = false) :
    (splitLines out.text).count line + (lostLines (readText liveFile)).count line +
        (staleLines (readText liveFile) (readText exFile)).count line =
      (splitlines (readText liveFile)).count line + (doubledLines (readText liveFile)).count line +
        (adoptedLines (readText liveFile) (readText exFile)).count line := by
  unfold reorder at hrun
  split at hrun
  · rename_i text live exText ex hlive hex
    rw [← load_text hlive, ← load_text hex]
    dsimp only at hrun
    split at hrun
    · cases hrun
    · split at hrun
      · cases hrun
        have hperm := sections_perm text exText
        generalize ((numbered text).1 ++ orderedOf text exText).map Prod.fst = secs at hperm
        have hplain : ∀ l ∈ (secs.flatMap (chunkOf exText)).dropWhile isBlank,
            '\n' ∉ l := by
          intro l hl
          obtain ⟨s, hs, hline⟩ := List.mem_flatMap.mp ((List.dropWhile_sublist _).mem hl)
          rcases mem_chunk (hperm.mem_iff.mp hs) hline with hl | hl | rfl
          · exact splitlines_no_newline hl
          · exact splitlines_no_newline hl
          · simp
        rw [count_finish hplain h, count_drop h, (hperm.flatMap_right _).count_eq]
        have hcount := sections_count exText (detachLeads (splitSections text)) h
        rw [detach_lines] at hcount
        exact hcount
      · cases hrun
  · cases hrun
  · cases hrun

/-- A run keeps the lines exactly where no line that is in no block is missing: each such line is
made up for by a comment that two blocks hold or a lead that is taken over. -/
theorem reorder_conserves {out : Reordered}
    (hrun : reorder scalar parseFloat liveFile exFile = .ok out) :
    Conserves (readText liveFile) (readText exFile) out ↔
      ∀ line, isBlank line = false → (lostLines (readText liveFile)).count line ≤
        (doubledLines (readText liveFile)).count line +
          (adoptedLines (readText liveFile) (readText exFile)).count line := by
  refine forall_congr' fun line => forall_congr' fun h => ?_
  have hcount := reorder_count hrun h
  omega

/-- Two sections and the keys of one change places, each with its comments. -/
theorem reorder_conserves_swapped :
    let config := "[b]\n# two\ny = 2\nx = 1\n\n# ── A ──\n[a]\nk = 3 # three\n".toList
    let defaults := "# ── A ──\n[a]\nk = 0\n\n[b]\nx = 0\ny = 0\n".toList
    let out : Reordered :=
      ⟨"# ── A ──\n[a]\nk = 3 # three\n[b]\nx = 1\n# two\ny = 2\n".toList, [], [], 4⟩
    reorder (fun a b => decide (a = b)) id config defaults = .ok out ∧
      Conserves (readText config) (readText defaults) out := by
  intro config defaults out
  have hrun : reorder (fun a b => decide (a = b)) id config defaults = .ok out := by
    decide +kernel
  refine ⟨hrun, (reorder_conserves hrun).mpr fun line _ => ?_⟩
  have hnone : lostLines (readText config) = [] := by decide +kernel
  rw [hnone]
  exact Nat.zero_le _

/-- A comment with an empty line below it, between two keys, is lost. -/
theorem reorder_loses_note :
    let config := "a = 1\n# note\n\nb = 2\n".toList
    let defaults := "a = 1\nb = 2\n".toList
    let out : Reordered := ⟨"a = 1\n\nb = 2\n".toList, [], [], 0⟩
    reorder (fun a b => decide (a = b)) id config defaults = .ok out ∧
      ¬ Conserves (readText config) (readText defaults) out := by
  intro config defaults out
  refine ⟨by decide +kernel, fun h => ?_⟩
  have hnote := h "# note".toList (by decide)
  revert hnote
  decide +kernel

end Conservation

end SystemsManager.Installer
