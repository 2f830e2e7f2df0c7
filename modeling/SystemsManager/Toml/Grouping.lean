import Mathlib.Data.List.DropRight
import SystemsManager.Toml.Omission

/-!
# The lines of statements

How the lines of a text fall into statements. The lines of one statement are read alike wherever
they stand, so statements can be left out and put in as whole groups of lines: `logical_flatten` is
the theorem to read. A text whose lines are joined has these lines again, and blank lines at its
two ends change nothing.
-/

namespace Toml

variable {F : Type}

section Texts

/-- A text has at least one line. -/
theorem split_ne_nil (cs : List Char) : splitLines cs ≠ [] := by
  cases cs with
  | nil => simp [splitLines]
  | cons c cs =>
      rw [splitLines]
      split
      · simp
      · split <;> simp

theorem split_cons {c : Char} (hc : c ≠ '\n') {cs : List Char} {line : Line} {rest : List Line}
    (h : splitLines cs = line :: rest) : splitLines (c :: cs) = (c :: line) :: rest := by
  rw [splitLines, if_neg hc, h]

theorem split_line {line : Line} (h : '\n' ∉ line) : splitLines line = [line] := by
  induction line with
  | nil => rfl
  | cons c line ih =>
      rw [List.mem_cons, not_or] at h
      exact split_cons (Ne.symm h.1) (ih h.2)

/-- The first line of a text. -/
theorem split_line_append {line : Line} (h : '\n' ∉ line) (cs : List Char) :
    splitLines (line ++ '\n' :: cs) = line :: splitLines cs := by
  induction line with
  | nil => simp [splitLines]
  | cons c line ih =>
      rw [List.mem_cons, not_or] at h
      exact split_cons (Ne.symm h.1) (ih h.2)

theorem split_join {lines : List Line} (hne : lines ≠ []) (h : ∀ line ∈ lines, '\n' ∉ line) :
    splitLines (joinLines lines) = lines := by
  induction lines with
  | nil => exact absurd rfl hne
  | cons line rest ih =>
      have hline := h line (List.mem_cons_self ..)
      cases rest with
      | nil => exact split_line hline
      | cons next rest =>
          rw [joinLines, split_line_append hline,
            ih (by simp) (fun l hl => h l (List.mem_cons_of_mem _ hl))]
          simp

theorem split_newline (cs : List Char) : splitLines (cs ++ ['\n']) = splitLines cs ++ [[]] := by
  induction cs with
  | nil => rfl
  | cons c cs ih =>
      rw [List.cons_append, splitLines, splitLines, ih]
      split
      · rfl
      · cases hsplit : splitLines cs with
        | nil => exact absurd hsplit (split_ne_nil cs)
        | cons line rest => rfl

end Texts

section Groups

variable {place : Mode × Nat} {read xs ys : List Line} {groups : List (List Line)}

theorem statement_lines_append (h : statementLines place read xs = some groups)
    (hread : read = [] → place = (.plain, 0)) :
    statementLines place read (xs ++ ys) = (logicalLines ys).map fun more => groups ++ more := by
  induction xs generalizing place read groups with
  | nil =>
      rw [statementLines] at h
      split at h
      · rename_i hempty
        cases h
        rw [List.isEmpty_iff] at hempty
        subst hempty
        rw [hread rfl]
        simp [logicalLines]
      · cases h
  | cons line xs ih =>
      rw [List.cons_append, statementLines]
      rw [statementLines] at h
      split at h
      · rename_i hgoes
        rw [if_pos hgoes]
        exact ih h (by simp)
      · rename_i hgoes
        rw [if_neg hgoes]
        rw [Option.map_eq_some_iff] at h
        obtain ⟨more, hmore, rfl⟩ := h
        rw [ih hmore (fun _ => rfl), Option.map_map]
        rfl

theorem logical_append (h : logicalLines xs = some groups) :
    logicalLines (xs ++ ys) = (logicalLines ys).map fun more => groups ++ more :=
  statement_lines_append h (fun _ => rfl)

/-- The lines of one statement. -/
def IsGroup (group : List Line) : Prop := group ≠ [] ∧ logicalLines group = some [group]

theorem logical_flatten (h : ∀ group ∈ groups, IsGroup group) :
    logicalLines groups.flatten = some groups := by
  induction groups with
  | nil => rfl
  | cons group groups ih =>
      rw [List.flatten_cons, logical_append (h group (List.mem_cons_self ..)).2,
        ih fun g hg => h g (List.mem_cons_of_mem _ hg)]
      rfl

end Groups

section Blanks

theorem empty_group : IsGroup [[]] := ⟨by simp, rfl⟩

theorem empty_statement (parseFloat : List Char → F) :
    statement parseFloat (joinLines [[]]) = some .blank := rfl

/-- Blank statements change nothing. -/
theorem run_blanks (doc : Doc F) (n : Nat) (stmts : List (Statement F)) :
    doc.run (List.replicate n .blank ++ stmts) = doc.run stmts := by
  induction n with
  | zero => rfl
  | succ n ih =>
      rw [List.replicate_succ, List.cons_append, Doc.run, Doc.step, Option.bind_some, ih]

/-- One run after another. -/
theorem run_append (doc : Doc F) (xs ys : List (Statement F)) :
    doc.run (xs ++ ys) = (doc.run xs).bind fun mid => mid.run ys := by
  induction xs generalizing doc with
  | nil => rfl
  | cons s xs ih =>
      rw [List.cons_append, Doc.run, Doc.run, Option.bind_assoc]
      congr 1
      funext mid
      exact ih mid

end Blanks

section Closed

theorem scalar_closed {parseFloat : List Char → F} {cs rest : List Char} {v : Value F}
    (h : scalar parseFloat cs = some (v, rest)) : v.isOpen = false := by
  unfold scalar at h
  dsimp only at h
  split at h
  · cases h
    rfl
  · split at h
    · cases h
      rfl
    · split at h
      · cases h
        rfl
      · split at h
        · cases h
          rfl
        · split at h
          · cases h
            rfl
          · cases h

theorem value_closed {parseFloat : List Char → F} {n : Nat} {cs rest : List Char} {v : Value F}
    (h : value parseFloat n cs = some (v, rest)) : v.isOpen = false := by
  have hmap : ∀ {α : Type} {o : Option α} {f : α → Value F × List Char},
      (∀ a, (f a).1.isOpen = false) → o.map f = some (v, rest) → v.isOpen = false := by
    intro α o f hf ho
    rw [Option.map_eq_some_iff] at ho
    obtain ⟨a, -, ha⟩ := ho
    have := hf a
    rwa [ha] at this
  cases n with
  | zero => cases h
  | succ n =>
      unfold value at h
      split at h
      · exact hmap (fun _ => rfl) h
      · exact hmap (fun _ => rfl) h
      · exact hmap (fun _ => rfl) h
      · exact hmap (fun _ => rfl) h
      · rw [Option.bind_eq_bind, Option.bind_eq_some_iff] at h
        obtain ⟨rest', -, h⟩ := h
        exact hmap (fun _ => rfl) h
      · split at h
        · cases h
          rfl
        · exact hmap (fun _ => rfl) h
      · exact scalar_closed h

theorem end_of_some {s s' : Statement F} {cs : List Char} (h : endOf s cs = some s') : s' = s := by
  unfold endOf at h
  split at h
  · cases h
    rfl
  · cases h

theorem statement_closed {parseFloat : List Char → F} {cs : List Char} {s : Statement F}
    (h : statement parseFloat cs = some s) : s.Closed := by
  unfold statement at h
  dsimp only at h
  split at h
  · cases h
    trivial
  · rw [end_of_some h]
    trivial
  · rw [Option.bind_eq_bind, Option.bind_eq_some_iff] at h
    obtain ⟨⟨path, rest⟩, -, h⟩ := h
    split at h
    · rw [end_of_some h]
      trivial
    · cases h
  · rw [Option.bind_eq_bind, Option.bind_eq_some_iff] at h
    obtain ⟨⟨path, rest⟩, -, h⟩ := h
    split at h
    · rw [end_of_some h]
      trivial
    · cases h
  · rw [Option.bind_eq_bind, Option.bind_eq_some_iff] at h
    obtain ⟨⟨path, rest⟩, -, h⟩ := h
    split at h
    · rw [Option.bind_eq_bind, Option.bind_eq_some_iff] at h
      obtain ⟨⟨v, rest⟩, hv, h⟩ := h
      rw [end_of_some h]
      exact value_closed hv
    · cases h

end Closed

section Pieces

/-- A statement of a text with its lines, and whether it is kept. -/
structure Piece (F : Type) where
  keep : Bool
  lines : List Line
  stmt : Statement F

/-- The lines are those of the statement. -/
structure Piece.Reads (parseFloat : List Char → F) (piece : Piece F) : Prop where
  group : IsGroup piece.lines
  stmt : statement parseFloat (joinLines piece.lines) = some piece.stmt

/-- The statement and whether it is kept. -/
def Piece.mark (piece : Piece F) : Bool × Statement F := (piece.keep, piece.stmt)

/-- Every line, and whether it is kept. -/
def lineMarks (pieces : List (Piece F)) : List (Bool × Line) :=
  pieces.flatMap fun piece => piece.lines.map fun line => (piece.keep, line)

variable {parseFloat : List Char → F} {pieces : List (Piece F)}

/-- The lines without their marks. -/
theorem line_marks_lines (pieces : List (Piece F)) :
    (lineMarks pieces).map Prod.snd = pieces.flatMap Piece.lines := by
  induction pieces with
  | nil => rfl
  | cons piece pieces ih =>
      rw [lineMarks, List.flatMap_cons, List.map_append, List.flatMap_cons, ← ih, List.map_map,
        lineMarks]
      congr 1
      exact List.map_id _

theorem line_marks_kept (pieces : List (Piece F)) :
    ((lineMarks pieces).filter Prod.fst).map Prod.snd =
      (pieces.filter Piece.keep).flatMap Piece.lines := by
  induction pieces with
  | nil => rfl
  | cons piece pieces ih =>
      obtain ⟨keep, lines, stmt⟩ := piece
      rw [lineMarks, List.flatMap_cons, List.filter_append, List.map_append]
      rw [lineMarks] at ih
      rw [ih]
      cases keep with
      | true =>
          rw [List.filter_cons_of_pos rfl, List.flatMap_cons, List.filter_map]
          congr 1
          simp [Function.comp_def]
      | false =>
          rw [List.filter_cons_of_neg (by simp), List.filter_map]
          simp [Function.comp_def]

/-- The statements that are kept. -/
theorem kept_marks (pieces : List (Piece F)) :
    kept (pieces.map Piece.mark) = (pieces.filter Piece.keep).map Piece.stmt := by
  rw [kept, List.filter_map, List.map_map]
  rfl

theorem whole_marks (pieces : List (Piece F)) :
    whole (pieces.map Piece.mark) = pieces.map Piece.stmt := by
  rw [whole, List.map_map]
  rfl

theorem statements_of_reads (h : ∀ piece ∈ pieces, piece.Reads parseFloat) :
    statements parseFloat (pieces.flatMap Piece.lines) = some (pieces.map Piece.stmt) := by
  have hgroups : logicalLines (pieces.map Piece.lines).flatten = some (pieces.map Piece.lines) := by
    refine logical_flatten fun group hgroup => ?_
    obtain ⟨piece, hpiece, rfl⟩ := List.mem_map.mp hgroup
    exact (h piece hpiece).group
  rw [statements, List.flatMap_def, hgroups, Option.bind_some]
  clear hgroups
  induction pieces with
  | nil => rfl
  | cons piece pieces ih =>
      have hrest := ih fun p hp => h p (List.mem_cons_of_mem _ hp)
      rw [List.map_cons, List.mapM_cons, (h piece (List.mem_cons_self ..)).stmt, hrest]
      rfl

theorem loads_of_reads (h : ∀ piece ∈ pieces, piece.Reads parseFloat) {text : List Char} {n : Nat}
    (htext : splitLines text = pieces.flatMap Piece.lines ++ List.replicate n []) :
    loads parseFloat text = (Doc.empty.run (pieces.map Piece.stmt)).map Doc.root := by
  let blank : Piece F := ⟨true, [[]], .blank⟩
  have hblank : blank.Reads parseFloat := ⟨empty_group, empty_statement parseFloat⟩
  have hall : ∀ piece ∈ pieces ++ List.replicate n blank, piece.Reads parseFloat := by
    intro piece hpiece
    rcases List.mem_append.mp hpiece with hpiece | hpiece
    · exact h piece hpiece
    · rw [List.eq_of_mem_replicate hpiece]
      exact hblank
  have hlines : (pieces ++ List.replicate n blank).flatMap Piece.lines =
      pieces.flatMap Piece.lines ++ List.replicate n [] := by
    rw [List.flatMap_append]
    congr 1
    clear hall htext
    induction n with
    | zero => rfl
    | succ n ih => rw [List.replicate_succ, List.flatMap_cons, ih, List.replicate_succ]; rfl
  have hstmts := statements_of_reads hall
  rw [loads, htext, ← hlines, hstmts, Option.bind_some, List.map_append, List.map_replicate,
    run_append]
  have hrun : ∀ doc : Doc F, doc.run (List.replicate n blank.stmt) = some doc := by
    intro doc
    have := run_blanks doc n []
    rwa [List.append_nil] at this
  simp only [hrun, Option.bind_fun_some]

theorem run_drop_blanks {isBlank : Line → Bool}
    (hscan : ∀ line, isBlank line = true → goesOn (scan .plain 0 line) = false)
    (hstmt : ∀ line s, isBlank line = true → statement parseFloat line = some s → s = .blank)
    (h : ∀ piece ∈ pieces, piece.Reads parseFloat) : ∃ rest : List (Piece F),
      (∀ piece ∈ rest, piece.Reads parseFloat) ∧
      (pieces.flatMap Piece.lines).dropWhile isBlank = rest.flatMap Piece.lines ∧
      ∀ doc : Doc F, doc.run (pieces.map Piece.stmt) = doc.run (rest.map Piece.stmt) := by
  induction pieces with
  | nil => exact ⟨[], by simp, rfl, fun _ => rfl⟩
  | cons piece pieces ih =>
      obtain ⟨keep, lines, stmt⟩ := piece
      obtain ⟨⟨hne, hgroup⟩, hread⟩ := h _ (List.mem_cons_self ..)
      dsimp only at hne hgroup hread
      cases lines with
      | nil => exact absurd rfl hne
      | cons line lines =>
          cases hline : isBlank line with
          | false =>
              refine ⟨_, h, ?_, fun _ => rfl⟩
              rw [List.flatMap_cons, List.cons_append,
                List.dropWhile_cons_of_neg (by simp [hline])]
          | true =>
              -- The statement ends with this line.
              rw [logicalLines, statementLines, hscan line hline] at hgroup
              simp only [Bool.false_eq_true, if_false, List.nil_append,
                Option.map_eq_some_iff] at hgroup
              obtain ⟨more, -, heq⟩ := hgroup
              have hlines : lines = [] := by
                have := (List.cons.inj heq).1
                simpa using this.symm
              subst hlines
              rw [hstmt line stmt hline hread]
              obtain ⟨rest, hrest, hdrop, hrun⟩ :=
                ih fun p hp => h p (List.mem_cons_of_mem _ hp)
              refine ⟨rest, hrest, ?_, ?_⟩
              · rw [List.flatMap_cons, List.singleton_append,
                  List.dropWhile_cons_of_pos hline, hdrop]
              · intro doc
                rw [List.map_cons, Doc.run, Doc.step, Option.bind_some, hrun]

end Pieces

end Toml
