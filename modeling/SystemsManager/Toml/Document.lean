import SystemsManager.Toml.Parser

/-!
# Documents

What the statements of a document build, one after another. `step` follows the rules of TOML 1.0
on what may be defined twice: `explicit` holds the tables that a header or a dotted key has
defined, and `pending` those of the dotted keys of the current section, which count from the next
header on. `loads` is the whole of it.
-/

namespace Toml

open Python

variable {F : Type}

/-- A document as far as it has been read. -/
structure Doc (F : Type) where
  root : Items F
  header : Path
  explicit : List Path
  pending : List Path

/-- The document before the first statement. -/
def Doc.empty : Doc F := ⟨[], [], [], []⟩

/-- The tables that a dotted key goes through. -/
def prefixesOf (header path : Path) : List Path :=
  (List.range (path.length - 1)).map fun i => header ++ path.take (i + 1)

/-- One more statement. -/
def Doc.step (doc : Doc F) : Statement F → Option (Doc F)
  | .blank => some doc
  | .pair path v =>
      let through := prefixesOf doc.header path
      if through.any doc.explicit.contains then none
      else (setLeaf (doc.header ++ path) v doc.root).map fun root =>
        { doc with root := root, pending := doc.pending ++ through }
  | .header path =>
      let explicit := doc.explicit ++ doc.pending
      if explicit.contains path then none
      else (update some path doc.root).map fun root => ⟨root, path, path :: explicit, []⟩
  | .arrayHeader path =>
      -- The tables below belong to the last table of the array, and a new one begins.
      let explicit := (doc.explicit ++ doc.pending).filter fun p => !path.isPrefixOf p
      (appendTable path doc.root).map fun root => ⟨root, path, path :: explicit, []⟩

/-- The document that statements build. -/
def Doc.run (doc : Doc F) : List (Statement F) → Option (Doc F)
  | [] => some doc
  | s :: rest => (doc.step s).bind fun doc => doc.run rest

/-- `tomllib.loads(text)`: nothing where it raises. -/
def loads (parseFloat : List Char → F) (text : List Char) : Option (Items F) :=
  (statements parseFloat (splitLines text)).bind fun stmts =>
    (Doc.empty.run stmts).map Doc.root

end Toml
