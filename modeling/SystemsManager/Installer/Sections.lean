import SystemsManager.Python.Value
import SystemsManager.Toml.Grouping

/-!
# The span walk of the config installer

`toml_reconcile.py` edits a config by lines. It cuts a text into sections at the lines that look
like headers, and the body of a section into the spans of its keys, where a span goes on as long as
brackets are open. Nothing of this knows strings or comments: it is compared with what TOML reads
in the modules that build on this one. `sections_lines` says that no line is lost.
-/

namespace SystemsManager.Installer

open Python Toml

section Lines

/-- What reading a file in text mode makes of its line ends. -/
def readText : List Char → List Char
  | [] => []
  | '\r' :: '\n' :: rest => '\n' :: readText rest
  | c :: rest => (if c = '\r' then '\n' else c) :: readText rest

/-- The characters `str.splitlines` cuts at. -/
def isBoundary (c : Char) : Bool :=
  [0xA, 0xB, 0xC, 0xD, 0x1C, 0x1D, 0x1E, 0x85, 0x2028, 0x2029].contains c.toNat

/-- `text.splitlines()`. -/
def splitlines : List Char → List Line
  | [] => []
  | '\r' :: '\n' :: rest => [] :: splitlines rest
  | c :: rest =>
      if isBoundary c then [] :: splitlines rest
      else match splitlines rest with
        | [] => [[c]]
        | line :: more => (c :: line) :: more

/-- `not line.strip()`. -/
def isBlank (line : Line) : Bool := line.all isSpace

/-- `line.lstrip().startswith('#')`. -/
def isComment (line : Line) : Bool := (line.dropWhile isSpace).head? == some '#'

/-- `line.strip()`. -/
def stripLine (line : Line) : Line :=
  ((line.dropWhile isSpace).reverse.dropWhile isSpace).reverse

/-- `'\n'.join(out)` with a newline at the end. -/
def finish (out : List Line) : List Char :=
  let result := joinLines out
  if result.getLast? = some '\n' then result else result ++ ['\n']

end Lines

section Walk

/-- After a header there is a comment or nothing: `\s*(?:#.*)?$`. -/
def endsHeader (rest : List Char) : Bool :=
  match rest.dropWhile isSpace with
  | [] => true
  | c :: _ => c == '#'

/-- The name between the brackets of `SECTION_RE`. -/
def sectionName (line : Line) : Option Name :=
  match line.dropWhile isSpace with
  | '[' :: rest =>
      let name := rest.takeWhile fun c => c != ']'
      match rest.dropWhile fun c => c != ']' with
      | ']' :: after => if !name.isEmpty && endsHeader after then some name else none
      | _ => none
  | _ => none

/-- The name between the brackets of `ARRAY_SECTION_RE`. -/
def arraySectionName (line : Line) : Option Name :=
  match line.dropWhile isSpace with
  | '[' :: '[' :: rest =>
      let name := rest.takeWhile fun c => c != ']'
      match rest.dropWhile fun c => c != ']' with
      | ']' :: ']' :: after => if !name.isEmpty && endsHeader after then some name else none
      | _ => none
  | _ => none

/-- The name that a section begins with: that of an array of tables is marked. -/
def headerName (line : Line) : Option Name :=
  match arraySectionName line with
  | some name => some ('[' :: '[' :: stripLine name)
  | none => (sectionName line).map stripLine

/-- The key of `KEY_RE`. -/
def keyName (line : Line) : Option Name :=
  match line.dropWhile isSpace with
  | c :: rest =>
      if c.isAlpha || c == '_' then
        let isPart := fun c : Char => c.isAlphanum || c == '_' || c == '.' || c == '-'
        match (rest.dropWhile isPart).dropWhile isSpace with
        | '=' :: _ => some (c :: rest.takeWhile isPart)
        | _ => none
      else none
  | [] => none

/-- A section of a text: its name, its header line and the lines of its body. -/
structure Sec where
  name : Name
  header : Option Line
  body : List Line
  deriving DecidableEq

/-- The sections from here on, the first of which has begun. -/
def sectionsFrom (cur : Sec) : List Line → List Sec
  | [] => [cur]
  | line :: rest =>
      match headerName line with
      | some name => cur :: sectionsFrom ⟨name, some line, []⟩ rest
      | none => sectionsFrom { cur with body := cur.body ++ [line] } rest

/-- `split_sections(text)`. -/
def splitSections (text : List Char) : List Sec := sectionsFrom ⟨[], none, []⟩ (splitlines text)

/-- The lines of a key: those of its value, and where the comments above them begin. -/
structure Span where
  key : Name
  start : Nat
  stop : Nat
  comments : Nat
  deriving DecidableEq

/-- `text.count(opening) - text.count(closing)`. -/
def balance (opening closing : Char) (text : List Char) : Int :=
  (text.count opening : Int) - text.count closing

/-- The text after the first equals sign. -/
def valueText (line : Line) : List Char := (line.dropWhile fun c => c != '=').drop 1

/-- How many of the lines belong to a value with open brackets. -/
def openLines (square brace : Int) : List Line → Nat
  | [] => 0
  | line :: rest =>
      if square > 0 || brace > 0 then
        openLines (square + balance '[' ']' line) (brace + balance '{' '}' line) rest + 1
      else 0

/-- Where the comment lines right above a line begin. -/
def commentStart (body : List Line) : Nat → Nat
  | 0 => 0
  | n + 1 => if (body[n]?).any isComment then commentStart body n else n + 1

/-- The spans of the keys from line `i` on, of which the next `skip` lines are taken. -/
def spansFrom (body : List Line) (i skip : Nat) : List Line → List Span
  | [] => []
  | line :: rest =>
      match skip with
      | skip + 1 => spansFrom body (i + 1) skip rest
      | 0 =>
          match keyName line with
          | none => spansFrom body (i + 1) 0 rest
          | some key =>
              let value := valueText line
              let more := openLines (balance '[' ']' value) (balance '{' '}' value) rest
              ⟨key, i, i + 1 + more, commentStart body i⟩ :: spansFrom body (i + 1) more rest

/-- `keys_with_spans(body)`. -/
def keysWithSpans (body : List Line) : List Span := spansFrom body 0 0 body

/-- A section with the lines above its header that go with it. -/
structure LedSec extends Sec where
  lead : List Line
  deriving DecidableEq

/-- The lines at the end of a body that go with the next section: comments, and blank lines above
them. -/
def splitLead (body : List Line) : List Line × List Line :=
  let rest := body.reverse.dropWhile isComment
  let cut := (rest.dropWhile isBlank).length
  (body.take cut, body.drop cut)

/-- The sections from here on, the first of which has this lead. -/
def detachFrom (lead : List Line) : List Sec → List LedSec
  | [] => []
  | [s] => [⟨s, lead⟩]
  | s :: next :: rest =>
      let (body, more) := splitLead s.body
      ⟨{ s with body := body }, lead⟩ :: detachFrom more (next :: rest)

/-- `detach_leads(secs)`. -/
def detachLeads (secs : List Sec) : List LedSec := detachFrom [] secs

theorem comment_start_le (body : List Line) (n : Nat) : commentStart body n ≤ n := by
  induction n with
  | zero => exact le_refl 0
  | succ n ih =>
      rw [commentStart]
      split
      · exact Nat.le_succ_of_le ih
      · exact le_refl _

theorem spans_from_bounds {body rest : List Line} {i skip : Nat} {span : Span}
    (hrest : i + rest.length = body.length) (h : span ∈ spansFrom body i skip rest) :
    span.comments ≤ span.start ∧ span.start < span.stop ∧ span.start < body.length := by
  induction rest generalizing i skip with
  | nil => cases h
  | cons line rest ih =>
      have hnext : i + 1 + rest.length = body.length := by
        rw [List.length_cons] at hrest
        omega
      rw [spansFrom.eq_def] at h
      dsimp only at h
      split at h
      · exact ih hnext h
      · split at h
        · exact ih hnext h
        · rcases List.mem_cons.mp h with rfl | h
          · refine ⟨comment_start_le body i, ?_, ?_⟩
            · show i < i + 1 + _
              omega
            · show i < body.length
              omega
          · exact ih hnext h

end Walk

section Conservation

/-- The lines of a section. -/
def Sec.lines (s : Sec) : List Line := s.header.toList ++ s.body

/-- The lines of a section with its lead. -/
def LedSec.lines (s : LedSec) : List Line := s.lead ++ s.toSec.lines

theorem sections_from_lines (cur : Sec) (lines : List Line) :
    (sectionsFrom cur lines).flatMap Sec.lines = cur.lines ++ lines := by
  induction lines generalizing cur with
  | nil => simp [sectionsFrom]
  | cons line rest ih =>
      rw [sectionsFrom]
      split
      · rw [List.flatMap_cons, ih]
        rfl
      · rw [ih]
        simp [Sec.lines]

theorem sections_lines (text : List Char) :
    (splitSections text).flatMap Sec.lines = splitlines text :=
  sections_from_lines _ _

theorem detach_from_lines (lead : List Line) {secs : List Sec} (hne : secs ≠ []) :
    (detachFrom lead secs).flatMap LedSec.lines = lead ++ secs.flatMap Sec.lines := by
  induction secs generalizing lead with
  | nil => exact absurd rfl hne
  | cons s rest ih =>
      cases rest with
      | nil => simp [detachFrom, LedSec.lines]
      | cons next rest =>
          rw [detachFrom]
          simp only [splitLead]
          rw [List.flatMap_cons, ih _ (by simp)]
          simp only [LedSec.lines, Sec.lines, List.append_assoc, List.flatMap_cons]
          rw [← List.append_assoc (List.take _ s.body), List.take_append_drop]

/-- There is at least one section. -/
theorem sections_from_ne_nil (cur : Sec) (lines : List Line) : sectionsFrom cur lines ≠ [] := by
  induction lines generalizing cur with
  | nil => simp [sectionsFrom]
  | cons line rest ih =>
      rw [sectionsFrom]
      split
      · simp
      · exact ih _

theorem detach_lines (text : List Char) :
    (detachLeads (splitSections text)).flatMap LedSec.lines = splitlines text := by
  have hne : splitSections text ≠ [] := sections_from_ne_nil _ _
  rw [detachLeads, detach_from_lines _ hne, List.nil_append, sections_lines]

end Conservation

section Blanks

theorem space_no_ink {c : Char} (h : isSpace c = true) :
    isBare c = false ∧ c ∉ ['"', '\'', '\\', '#', '[', ']', '{', '}', '='] := by
  simp only [isSpace, List.contains_iff_mem] at h
  have hmem := List.mem_map_of_mem (f := Char.ofNat) h
  rw [Char.ofNat_toNat] at hmem
  have hall : (List.map Char.ofNat [0x9, 0xA, 0xB, 0xC, 0xD, 0x1C, 0x1D, 0x1E, 0x1F, 0x20,
      0x85, 0xA0, 0x1680, 0x2000, 0x2001, 0x2002, 0x2003, 0x2004, 0x2005, 0x2006, 0x2007, 0x2008,
      0x2009, 0x200A, 0x2028, 0x2029, 0x202F, 0x205F, 0x3000]).all (fun space =>
        !isBare space &&
          !(['"', '\'', '\\', '#', '[', ']', '{', '}', '='].contains space)) = true := by
    decide +kernel
  have hc := List.all_eq_true.mp hall c hmem
  simpa using hc

theorem scan_plain_space {c : Char} (h : isSpace c = true) (depth : Nat) (cs : List Char) :
    scan .plain depth (c :: cs) = scan .plain depth cs := by
  have hink := (space_no_ink h).2
  simp only [List.mem_cons, List.not_mem_nil, or_false, not_or] at hink
  rw [scan.eq_def]
  split <;> simp_all

theorem blank_ends {line : Line} (h : isBlank line = true) :
    goesOn (scan .plain 0 line) = false := by
  induction line with
  | nil => rfl
  | cons c line ih =>
      simp only [isBlank, List.all_cons, Bool.and_eq_true] at h
      rw [scan_plain_space h.1]
      exact ih h.2

variable {F : Type}

/-- No key begins with a space. -/
theorem key_space {c : Char} (h : isSpace c = true) (n : Nat) (cs : List Char) :
    key n (c :: cs) = none := by
  obtain ⟨hbare, hink⟩ := space_no_ink h
  simp only [List.mem_cons, List.not_mem_nil, or_false, not_or] at hink
  cases n with
  | zero => rfl
  | succ n =>
      have hpart : keyPart n (c :: cs) = none := by
        unfold keyPart
        split <;> simp_all
      rw [key, hpart]
      rfl

theorem blank_statement {parseFloat : List Char → F} {line : Line} {s : Statement F}
    (h : isBlank line = true) (hs : statement parseFloat line = some s) : s = .blank := by
  have hall : ∀ c ∈ skipWs line, isSpace c = true := by
    intro c hc
    exact List.all_eq_true.mp h c (List.dropWhile_sublist _ |>.mem hc)
  unfold statement at hs
  dsimp only at hs
  split at hs
  · cases hs
    rfl
  · exact end_of_some hs
  · rename_i heq
    have := (space_no_ink (hall '[' (by simp [heq]))).2
    simp at this
  · rename_i heq
    have := (space_no_ink (hall '[' (by simp [heq]))).2
    simp at this
  · cases hline : skipWs line with
    | nil => simp_all
    | cons c cs =>
        rw [hline] at hs hall
        rw [key_space (hall c (by simp))] at hs
        cases hs

end Blanks

section Finish

variable {F : Type}

theorem newline_ne {c : Char} (h : ¬ isBoundary c = true) : '\n' ≠ c := by
  rintro rfl
  exact h (by decide)

/-- A line of a text has no newline. -/
theorem splitlines_no_newline {text : List Char} {line : Line} (h : line ∈ splitlines text) :
    '\n' ∉ line := by
  induction text using splitlines.induct generalizing line with
  | case1 => cases h
  | case2 rest ih =>
      rw [splitlines] at h
      rcases List.mem_cons.mp h with rfl | h
      · simp
      · exact ih h
  | case3 c rest hne hboundary ih =>
      rw [splitlines] at h
      · rw [if_pos hboundary] at h
        rcases List.mem_cons.mp h with rfl | h
        · simp
        · exact ih h
      · exact hne
  | case4 c rest hne hboundary hrest ih =>
      rw [splitlines] at h
      · rw [if_neg hboundary, hrest] at h
        rw [List.mem_singleton.mp h]
        simpa using newline_ne hboundary
      · exact hne
  | case5 c rest hne hboundary first more hrest ih =>
      rw [splitlines] at h
      · rw [if_neg hboundary, hrest] at h
        rcases List.mem_cons.mp h with rfl | h
        · rw [List.mem_cons, not_or]
          exact ⟨newline_ne hboundary, ih (by rw [hrest]; exact List.mem_cons_self ..)⟩
        · exact ih (by rw [hrest]; exact List.mem_cons_of_mem _ h)
      · exact hne

theorem split_finish {out : List Line} (h : ∀ line ∈ out, '\n' ∉ line) :
    ∃ n, splitLines (finish out) = out ++ List.replicate n [] := by
  cases out with
  | nil => exact ⟨2, rfl⟩
  | cons line rest =>
      have hsplit := split_join (by simp) h
      simp only [finish]
      split
      · exact ⟨0, by simpa using hsplit⟩
      · exact ⟨1, by rw [split_newline, hsplit]; rfl⟩

/-- What the lines of a joined text are. -/
theorem split_join_lines {lines : List Line} (h : ∀ line ∈ lines, '\n' ∉ line) :
    ∃ n, splitLines (joinLines lines) = lines ++ List.replicate n [] := by
  cases lines with
  | nil => exact ⟨1, rfl⟩
  | cons line rest => exact ⟨0, by simpa using split_join (by simp) h⟩

end Finish

section Names

variable {F : Type}

/-- The dotted name of a key below a name. -/
def joinName (above name : Name) : Name := if above.isEmpty then name else above ++ '.' :: name

mutual
/-- The dotted names below a value, which itself has this name. -/
def flattenValue (name : Name) : Value F → List Name
  | .table _ items => flattenItems name items
  | _ => [name]
  termination_by structural v => v

/-- The dotted names of items below a name. -/
def flattenItems (above : Name) : List (Name × Value F) → List Name
  | [] => []
  | item :: rest => flattenItem above item ++ flattenItems above rest
  termination_by structural items => items

/-- The dotted names of an item below a name. -/
def flattenItem (above : Name) : Name × Value F → List Name
  | (name, v) => flattenValue (joinName above name) v
  termination_by structural item => item
end

/-- `flatten(d)`. -/
def flatten (items : Items F) : List Name := flattenItems [] items

/-- `text.split('.')`. -/
def splitDots : Name → List Name
  | [] => [[]]
  | c :: rest =>
      if c = '.' then [] :: splitDots rest
      else match splitDots rest with
        | part :: more => (c :: part) :: more
        | [] => [[c]]

/-- `'.'.join(parts)`. -/
def joinDots : List Name → Name
  | [] => []
  | [part] => part
  | part :: rest => part ++ '.' :: joinDots rest

end Names

section Files

/-- How the program ends without a result: exit code 2 where a file does not parse, and 3 where the
result is refused. -/
inductive Failure where
  | parseFailed
  | validateFailed
  deriving DecidableEq

variable {F : Type}

/-- `load_or_die(path)`: the text and what it holds. -/
def loadOrDie (parseFloat : List Char → F) (file : List Char) :
    Except Failure (List Char × Items F) :=
  let text := readText file
  match loads parseFloat text with
  | some items => .ok (text, items)
  | none => .error .parseFailed

theorem load_ok {parseFloat : List Char → F} {file text : List Char} {live : Items F}
    (h : loadOrDie parseFloat file = .ok (text, live)) :
    loads parseFloat text = some live := by
  simp only [loadOrDie] at h
  split at h
  · rename_i items hitems
    cases h
    exact hitems
  · cases h

end Files

end SystemsManager.Installer
