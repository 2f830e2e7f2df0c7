import Mathlib.Data.List.Basic
import Mathlib.Data.List.TakeWhile
import Mathlib.Data.UInt

/-!
# Binary files of lines

A file opened in binary mode is a list of bytes, and iterating over it yields its lines, each
with the newline that ends it. `lines_records` is the fact that programs rely on: a file that is
written one newline-terminated record at a time is read back record by record.
-/

namespace Python

/-- The contents of a file. -/
abbrev Bytes := List UInt8

/-- `b"\n"`. -/
def newline : UInt8 := 10

/-- The lines of a file, each with its newline; the last one may lack it. -/
def lines : Bytes → List Bytes
  | [] => []
  | b :: rest =>
      if b = newline then [b] :: lines rest
      else
        match lines rest with
        | [] => [[b]]
        | line :: more => (b :: line) :: more

/-- Nothing is lost by cutting a file into lines. -/
theorem flatten_lines (bytes : Bytes) : (lines bytes).flatten = bytes := by
  induction bytes with
  | nil => rfl
  | cons b rest ih =>
      simp only [lines]
      split
      · simpa using ih
      · split
        · rename_i hnil
          rw [hnil] at ih
          simpa using ih
        · rename_i line more hcons
          rw [hcons] at ih
          simpa using ih

/-- The first line of a file that begins with a terminated line. -/
theorem lines_append {line rest : Bytes} (h : newline ∉ line) :
    lines (line ++ newline :: rest) = (line ++ [newline]) :: lines rest := by
  induction line with
  | nil => simp [lines]
  | cons b line ih =>
      rw [List.mem_cons, not_or] at h
      rw [List.cons_append, lines, if_neg (fun hb => h.1 hb.symm), ih h.2, List.cons_append]

/-- A file written record by record is read record by record. -/
theorem lines_records {α : Type} {text : α → Bytes} (h : ∀ a, newline ∉ text a) (records : List α) :
    lines (records.flatMap fun a => text a ++ [newline]) =
      records.map fun a => text a ++ [newline] := by
  induction records with
  | nil => rfl
  | cons a records ih =>
      rw [List.flatMap_cons, List.append_assoc, List.singleton_append, lines_append (h a), ih,
        List.map_cons]

section Cut

/-- The lines that end in these bytes, without their newlines, and the bytes after the last newline;
`line` is what came before. -/
def cutFrom : Bytes → Bytes → List Bytes × Bytes
  | line, [] => ([], line)
  | line, b :: rest =>
      if b = newline then
        let (ended, tail) := cutFrom [] rest
        (line :: ended, tail)
      else cutFrom (line ++ [b]) rest

variable {line a b rest bytes : Bytes}

theorem cut_newline (line rest : Bytes) :
    cutFrom line (newline :: rest) = (line :: (cutFrom [] rest).1, (cutFrom [] rest).2) := rfl

theorem cut_other {c : UInt8} (h : c ≠ newline) (line rest : Bytes) :
    cutFrom line (c :: rest) = cutFrom (line ++ [c]) rest := by
  rw [cutFrom, if_neg h]

/-- Bytes without a newline are gathered. -/
theorem cut_gather (h : newline ∉ a) : cutFrom line (a ++ rest) = cutFrom (line ++ a) rest := by
  induction a generalizing line with
  | nil => rw [List.nil_append, List.append_nil]
  | cons c a ih =>
      rw [List.mem_cons, not_or] at h
      rw [List.cons_append, cut_other (Ne.symm h.1), ih h.2, List.append_assoc,
        List.singleton_append]

/-- Two parts are cut one after the other. -/
theorem cut_append (line a b : Bytes) :
    cutFrom line (a ++ b) = ((cutFrom line a).1 ++ (cutFrom (cutFrom line a).2 b).1,
      (cutFrom (cutFrom line a).2 b).2) := by
  induction a generalizing line with
  | nil => rfl
  | cons c a ih =>
      rw [List.cons_append]
      by_cases hc : c = newline
      · rw [hc, cut_newline, cut_newline, ih]
        rfl
      · rw [cut_other hc, cut_other hc, ih]

/-- What is left holds no newline. -/
theorem newline_not_mem_tail (h : newline ∉ line) : newline ∉ (cutFrom line bytes).2 := by
  induction bytes generalizing line with
  | nil => exact h
  | cons c bytes ih =>
      by_cases hc : c = newline
      · rw [hc, cut_newline]
        exact ih List.not_mem_nil
      · rw [cut_other hc]
        refine ih ?_
        rw [List.mem_append, List.mem_singleton, not_or]
        exact ⟨h, Ne.symm hc⟩

/-- The last line, if it lacks its newline. -/
def unended (tail : Bytes) : List Bytes := if tail = [] then [] else [tail]

/-- A line without a newline. -/
theorem lines_unended (h : newline ∉ line) : lines line = unended line := by
  induction line with
  | nil => rfl
  | cons b line ih =>
      rw [List.mem_cons, not_or] at h
      rw [lines, if_neg (Ne.symm h.1), ih h.2]
      cases line with
      | nil => rfl
      | cons c line => rfl

/-- The lines of a file are those that end and the rest. -/
theorem lines_cut (h : newline ∉ line) : lines (line ++ bytes) =
    (cutFrom line bytes).1.map (· ++ [newline]) ++ unended (cutFrom line bytes).2 := by
  induction bytes generalizing line with
  | nil => rw [List.append_nil, lines_unended h, cutFrom, List.map_nil, List.nil_append]
  | cons c bytes ih =>
      by_cases hc : c = newline
      · rw [hc, cut_newline, lines_append h]
        exact congrArg _ (ih List.not_mem_nil)
      · have hline : newline ∉ line ++ [c] := by
          rw [List.mem_append, List.mem_singleton, not_or]
          exact ⟨h, Ne.symm hc⟩
        rw [cut_other hc, ← ih hline, List.append_assoc, List.singleton_append]

end Cut

/-- The bytes that `bytes.strip()` removes at both ends. -/
def isSpaceByte (b : UInt8) : Bool :=
  b == 32 || b == 9 || b == 10 || b == 11 || b == 12 || b == 13

/-- `bytes.strip()`. -/
def stripBytes (bytes : Bytes) : Bytes :=
  ((bytes.dropWhile isSpaceByte).reverse.dropWhile isSpaceByte).reverse

theorem strip_bytes_line {first last : UInt8} {middle : Bytes} (hfirst : isSpaceByte first = false)
    (hlast : isSpaceByte last = false) :
    stripBytes (first :: middle ++ [last] ++ [newline]) = first :: middle ++ [last] := by
  have hspace : isSpaceByte newline = true := by decide
  simp [stripBytes, hfirst, hlast, hspace]

/-- The newline of a line is no matter. -/
theorem strip_bytes_newline (line : Bytes) : stripBytes (line ++ [newline]) = stripBytes line := by
  have hspace : isSpaceByte newline = true := by decide
  unfold stripBytes
  congr 1
  by_cases hall : ∀ b ∈ line, isSpaceByte b = true
  · rw [List.dropWhile_append_of_pos hall, List.dropWhile_eq_nil_iff.mpr hall]
    simp [hspace]
  · rw [List.dropWhile_append, if_neg]
    · rw [List.reverse_append, List.reverse_singleton, List.singleton_append,
        List.dropWhile_cons_of_pos hspace]
    · rw [List.isEmpty_iff, List.dropWhile_eq_nil_iff]
      exact hall

end Python
