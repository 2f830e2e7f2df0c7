import SystemsManager.Python.Value

/-!
# Values in JSON

A `Codec` writes the values of a type as JSON and reads them back, and carries the proof that what
it writes is read as it was. A record is read field by field, and a field that is missing has its
default. `dumpable` is the one limit of `json.dumps` on a value without cycles: an integer of more
than `maxStrDigits` digits has no text.
-/

namespace Python

variable {α : Type}

/-- A way to write values as JSON and to read them back. -/
structure Codec (α : Type) where
  dump : α → Json
  load : Json → Option α
  load_dump : ∀ a, load (dump a) = some a

namespace Codec

/-- Floats; an integer is read as a float. -/
def float : Codec PyFloat where
  dump := .float
  load
    | .float x => some x
    | .int n => if floatable n then some (.finite n) else none
    | _ => none
  load_dump _ := rfl

/-- Integers that are not negative. -/
def nat : Codec Nat where
  dump n := .int n
  load
    | .int (.ofNat n) => some n
    | _ => none
  load_dump _ := rfl

/-- Texts. -/
def str : Codec String where
  dump := .str
  load := Json.str?
  load_dump _ := rfl

/-- What may be `None`. -/
def optional (c : Codec α) (hnull : ∀ a, c.dump a ≠ .null) : Codec (Option α) where
  dump
    | none => .null
    | some a => c.dump a
  load
    | .null => some none
    | value => (c.load value).map some
  load_dump a := by
    cases a with
    | none => rfl
    | some a =>
        have hvalue := c.load_dump a
        have hne := hnull a
        dsimp only
        generalize c.dump a = value at hvalue hne
        cases value with
        | null => exact absurd rfl hne
        | _ => exact congrArg (Option.map some) hvalue

/-- Lists. -/
def list (c : Codec α) : Codec (List α) where
  dump values := .list (values.map c.dump)
  load
    | .list values => values.mapM c.load
    | _ => none
  load_dump values := by
    dsimp only
    induction values with
    | nil => rfl
    | cons first rest ih => simp [List.mapM_cons, c.load_dump, ih]

end Codec

/-- A field of a record, or its default where it is missing. -/
def readField (items : List (String × Json)) (key : String) (default : α)
    (load : Json → Option α) : Option α :=
  match items.lookup key with
  | none => some default
  | some value => load value

/-- The first item has the key, or the rest is searched. -/
@[simp] theorem read_field_cons (items : List (String × Json)) (key other : String) (value : Json)
    (default : α) (load : Json → Option α) :
    readField ((other, value) :: items) key default load =
      if key = other then load value else readField items key default load := by
  by_cases h : key = other
  · simp [readField, h]
  · have hne : (key == other) = false := by simp [h]
    simp [readField, List.lookup_cons, h, hne]

/-- The first item has the key, or the rest is searched. -/
@[simp] theorem get_item_cons (items : List (String × Json)) (key other : String) (value : Json) :
    getItem ((other, value) :: items) key =
      if key = other then value else getItem items key := by
  by_cases h : key = other
  · simp [getItem, h]
  · have hne : (key == other) = false := by simp [h]
    simp [getItem, List.lookup_cons, h, hne]

namespace Json

mutual

/-- `json.dumps` has a text for the value. -/
def dumpable : Json → Bool
  | .int n => n.natAbs < 10 ^ maxStrDigits
  | .list values => dumpableValues values
  | .dict items => dumpableItems items
  | _ => true

/-- All values have a text. -/
def dumpableValues : List Json → Bool
  | [] => true
  | value :: rest => value.dumpable && dumpableValues rest

/-- All values of a dictionary have a text. -/
def dumpableItems : List (String × Json) → Bool
  | [] => true
  | (_, value) :: rest => value.dumpable && dumpableItems rest

end

/-- A list of texts has a text. -/
theorem dumpable_strings (texts : List String) :
    (Codec.str.list.dump texts).dumpable = true := by
  simp only [Codec.list, dumpable]
  induction texts with
  | nil => simp [dumpableValues]
  | cons first rest ih =>
      rw [List.map_cons, dumpableValues, ih, Bool.and_true]
      simp [Codec.str, dumpable]

end Json

end Python
