import Mathlib.Data.Rat.Defs
import Mathlib.Algebra.Order.Ring.Rat
import Mathlib.Data.List.Sort

/-!
# JSON values as Python reads them

`Json` is what `json.loads` returns, including the three non-finite floats that it accepts. The
functions below are the built-ins that a validator applies to such a value: truth value, `dict.get`,
`str.strip`, `int(...)` and number comparison. A built-in that raises returns the exception class in
`Exc`, so that a caller that catches some classes and not others can be written as it stands. Finite
floats are rationals, and so are the results of arithmetic where no rounding is said
(`nearestFloat`); the range limit of a conversion from `int` is modelled (`floatable`).
-/

namespace Python

/-- An exception: its class and, for the classes a program raises itself, its message. -/
inductive Exc (ε : Type) where
  | typeError
  | overflowError
  | attributeError
  | keyError
  | recursionError
  | valueError (message : ε)
  deriving DecidableEq

section Raising

variable {ε α β : Type}

/-- A computation that raises nothing computes each of its parts. -/
theorem bind_eq_ok {x : Except ε α} {f : α → Except ε β} {b : β} :
    x >>= f = .ok b ↔ ∃ a, x = .ok a ∧ f a = .ok b := by
  cases x with
  | error e =>
      constructor
      · intro h
        cases h
      · rintro ⟨_, h, _⟩
        cases h
  | ok a =>
      constructor
      · intro h
        exact ⟨a, rfl, h⟩
      · rintro ⟨_, h, hf⟩
        cases h
        exact hf

/-- A passed check: the guard was false and the rest ran. -/
theorem check_eq_ok {p : Prop} [Decidable p] {e : ε} {x : Except ε β} {b : β} :
    (do if p then throw e
        x) = .ok b ↔ ¬ p ∧ x = .ok b := by
  by_cases h : p
  · simp only [h, if_true, not_true, false_and, iff_false]
    intro hok
    cases hok
  · simp [h]

theorem pure_eq_ok {a b : α} : (pure a : Except ε α) = .ok b ↔ a = b :=
  ⟨fun h => Except.ok.inj h, fun h => congrArg _ h⟩

end Raising

section Rounding

/-- Rounding to an integer, a half going to the even neighbour. -/
def roundHalfEven (q : ℚ) : Int :=
  let low := q.floor
  let rest := q - low
  if rest < 1 / 2 then low
  else if 1 / 2 < rest then low + 1
  else if low % 2 = 0 then low else low + 1

/-- The exponent of a number: its size is at least two to this, and less than twice as much. -/
def exponentOf (q : ℚ) : Int :=
  let k := (q.num.natAbs.log2 : Int) - q.den.log2
  if (2 : ℚ) ^ k ≤ |q| then k else k - 1

/-- The float nearest to a number, a half going to the even neighbour; the range has no upper end.
-/
def nearestFloat (q : ℚ) : ℚ :=
  let e := max (exponentOf q - 52) (-1074)
  roundHalfEven (q / 2 ^ e) * 2 ^ e

@[simp] theorem nearest_float_zero : nearestFloat 0 = 0 := by decide +kernel

end Rounding

/-- A Python `float`. -/
inductive PyFloat where
  | finite (value : ℚ)
  | inf (negative : Bool)
  | nan
  deriving DecidableEq

/-- A parsed JSON value. -/
inductive Json where
  | null
  | bool (value : Bool)
  | int (value : Int)
  | float (value : PyFloat)
  | str (value : String)
  | list (values : List Json)
  | dict (items : List (String × Json))

namespace PyFloat

/-- `a < b`: false as soon as one side is `nan`. -/
def lt : PyFloat → PyFloat → Bool
  | .finite a, .finite b => a < b
  | .finite _, .inf negative => !negative
  | .inf negative, .finite _ => negative
  | .inf a, .inf b => a && !b
  | _, _ => false

/-- `a <= b`: false as soon as one side is `nan`. -/
def le : PyFloat → PyFloat → Bool
  | .finite a, .finite b => a ≤ b
  | .finite _, .inf negative => !negative
  | .inf negative, .finite _ => negative
  | .inf a, .inf b => a || !b
  | _, _ => false

/-- `a - b` for a finite `a`. -/
def subFrom (a : ℚ) : PyFloat → PyFloat
  | .finite b => .finite (nearestFloat (a - b))
  | .inf negative => .inf !negative
  | .nan => .nan

/-- `b * c` for a finite positive `c`. -/
def scale (c : ℚ) : PyFloat → PyFloat
  | .finite b => .finite (b * c)
  | .inf negative => .inf negative
  | .nan => .nan

end PyFloat

/-- `float(n)` succeeds: the integer rounds to a finite double. -/
def floatable (n : Int) : Bool := n.natAbs < 2 ^ 1024 - 2 ^ 970

/-- The characters `str.strip` removes. -/
def isSpace (c : Char) : Bool :=
  [0x9, 0xA, 0xB, 0xC, 0xD, 0x1C, 0x1D, 0x1E, 0x1F, 0x20, 0x85, 0xA0, 0x1680, 0x2000, 0x2001,
    0x2002, 0x2003, 0x2004, 0x2005, 0x2006, 0x2007, 0x2008, 0x2009, 0x200A, 0x2028, 0x2029,
    0x202F, 0x205F, 0x3000].contains c.toNat

/-- The characters of `text.strip()`. -/
def stripChars (text : String) : List Char :=
  ((text.toList.dropWhile isSpace).reverse.dropWhile isSpace).reverse

/-- `text.strip()`. -/
def strip (text : String) : String := String.ofList (stripChars text)

/-- The code points of the zeros of the Unicode decimal digit blocks, all of which `int` reads. -/
def digitZeros : List Nat :=
  [0x30, 0x660, 0x6F0, 0x7C0, 0x966, 0x9E6, 0xA66, 0xAE6, 0xB66, 0xBE6, 0xC66, 0xCE6, 0xD66,
    0xDE6, 0xE50, 0xED0, 0xF20, 0x1040, 0x1090, 0x17E0, 0x1810, 0x1946, 0x19D0, 0x1A80, 0x1A90,
    0x1B50, 0x1BB0, 0x1C40, 0x1C50, 0xA620, 0xA8D0, 0xA900, 0xA9D0, 0xA9F0, 0xAA50, 0xABF0,
    0xFF10, 0x104A0, 0x10D30, 0x11066, 0x110F0, 0x11136, 0x111D0, 0x112F0, 0x11450, 0x114D0,
    0x11650, 0x116C0, 0x11730, 0x118E0, 0x11950, 0x11C50, 0x11D50, 0x11DA0, 0x16A60, 0x16AC0,
    0x16B50, 0x1D7CE, 0x1D7D8, 0x1D7E2, 0x1D7EC, 0x1D7F6, 0x1E140, 0x1E2F0, 0x1E950, 0x1FBF0]

/-- The value of a decimal digit. -/
def digitValue (c : Char) : Option Nat :=
  (digitZeros.find? fun start => start ≤ c.toNat && c.toNat < start + 10).map fun start =>
    c.toNat - start

/-- Digits with single underscores between them, read into the digits' values. -/
def digitRun : List Char → Option (List Nat)
  | [] => none
  | [c] => (digitValue c).map ([·])
  | c :: d :: rest => do
      let value ← digitValue c
      let values ← if d = '_' then digitRun rest else digitRun (d :: rest)
      pure (value :: values)

/-- The longest digit string that `int` converts. -/
def maxStrDigits : Nat := 4300

/-- The integer with these decimal digits. -/
def ofDigitRun (digits : List Nat) : Int := digits.foldl (fun acc digit => acc * 10 + digit) 0

/-- What `int` skips at both ends of a text: white space, but none of the four separators. -/
def intSkips (c : Char) : Bool := isSpace c && !(0x1C ≤ c.toNat && c.toNat ≤ 0x1F)

/-- `int(text)` for a string; `none` stands for `ValueError`. -/
def intOfStr (text : String) : Option Int := do
  let chars := ((text.toList.dropWhile intSkips).reverse.dropWhile intSkips).reverse
  let (negative, body) : Bool × List Char := match chars with
    | '-' :: rest => (true, rest)
    | '+' :: rest => (false, rest)
    | _ => (false, chars)
  let digits ← digitRun body
  guard (digits.length ≤ maxStrDigits)
  pure (if negative then -ofDigitRun digits else ofDigitRun digits)

namespace Json

/-- `bool(value)`. -/
def truthy : Json → Bool
  | .null => false
  | .bool b => b
  | .int n => n != 0
  | .float x => x != .finite 0
  | .str s => s != ""
  | .list values => !values.isEmpty
  | .dict items => !items.isEmpty

/-- `int(value)`. A float is cut towards zero. -/
def toInt : Json → Except (Exc Unit) Int
  | .bool b => pure (if b then 1 else 0)
  | .int n => pure n
  | .float (.finite q) => pure (Int.tdiv q.num q.den)
  | .float (.inf _) => throw .overflowError
  | .float .nan => throw (.valueError ())
  | .str s => match intOfStr s with
    | some n => pure n
    | none => throw (.valueError ())
  | .null | .list _ | .dict _ => throw .typeError

/-- The number a value compares as; `none` when ordering it against a number raises. -/
def number? : Json → Option PyFloat
  | .bool b => some (.finite (if b then 1 else 0))
  | .int n => some (.finite n)
  | .float x => some x
  | _ => none

/-- The number a value enters float arithmetic as. -/
def toFloat {ε : Type} : Json → Except (Exc ε) PyFloat
  | .bool b => pure (.finite (if b then 1 else 0))
  | .int n => if floatable n then pure (.finite n) else throw .overflowError
  | .float x => pure x
  | _ => throw .typeError

/-- The string a value is, if it is one. -/
def str? : Json → Option String
  | .str s => some s
  | _ => none

/-- `value is None or value == ""`. -/
def blank : Json → Bool
  | .null => true
  | .str s => s == ""
  | _ => false

end Json

/-- `items.get(key)`. -/
def getItem (items : List (String × Json)) (key : String) : Json :=
  (items.lookup key).getD .null

/-- `items.get(key, default)`. -/
def getItemD (items : List (String × Json)) (key : String) (default : Json) : Json :=
  (items.lookup key).getD default

/-- `f"{q:.1f}"`. -/
def fixed1 (q : ℚ) : String :=
  let tenths := (roundHalfEven (|q| * 10)).toNat
  (if q < 0 then "-" else "") ++ toString (tenths / 10) ++ "." ++ toString (tenths % 10)

/-- `text[:n]`. -/
def takeChars (text : String) (n : Nat) : String := String.ofList (text.toList.take n)

section Sorted

variable {α κ : Type} [LinearOrder κ]

/-- `sorted(values, key=key)`: stable, so equal keys keep their order. -/
def sortedBy (key : α → κ) (values : List α) : List α :=
  values.insertionSort fun a b => key a ≤ key b

theorem sorted_by_perm (key : α → κ) (values : List α) : (sortedBy key values).Perm values :=
  List.perm_insertionSort _ _

@[simp] theorem mem_sorted_by {key : α → κ} {values : List α} {a : α} :
    a ∈ sortedBy key values ↔ a ∈ values :=
  (sorted_by_perm key values).mem_iff

end Sorted

end Python
