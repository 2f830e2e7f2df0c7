import SystemsManager.Python.Codec
import SystemsManager.Python.Dict
import SystemsManager.Python.Lines

/-!
# Texts of JSON

`JsonReader` is `json.loads` as the interpreter at hand has it, with the exceptions that it raises:
how deep a text may nest before `RecursionError` depends on the interpreter. `utf8Reader` is one
such reader, for texts that nest less and for bytes in UTF-8: `loads` gives the value of a text, or
nothing where Python raises `ValueError`. Every part of it returns what is left of the text, and the
fuel `n` bounds nested and repeated readings. The numbers are those of `Python/Value.lean`, and an
escape that stands for half of a surrogate pair is not read, because Lean has no such character.
-/

namespace Python

/-- `json.loads` of a text and of bytes: the value, or the exception that it raises. -/
class JsonReader where
  loads : List Char → Except (Exc Unit) Json
  loadsBytes : List UInt8 → Except (Exc Unit) Json

/-- `json.loads` under `except (TypeError, ValueError)`: nothing where one of these is caught. -/
def guarded : Except (Exc Unit) Json → Except (Exc Unit) (Option Json)
  | .ok value => .ok (some value)
  | .error .typeError | .error (.valueError _) => .ok none
  | .error e => .error e

namespace JsonText

/-- The blanks between the parts of a value. -/
def isBlank (c : Char) : Bool := c == ' ' || c == '\t' || c == '\n' || c == '\r'

/-- What follows the blanks. -/
def skipBlanks (cs : List Char) : List Char := cs.dropWhile isBlank

/-- The value of a hexadecimal digit. -/
def hexValue (c : Char) : Option Nat :=
  if c.isDigit then some (c.toNat - '0'.toNat)
  else if 'a' ≤ c && c ≤ 'f' then some (c.toNat - 'a'.toNat + 10)
  else if 'A' ≤ c && c ≤ 'F' then some (c.toNat - 'A'.toNat + 10)
  else none

/-- Four hexadecimal digits. -/
def hex4 (a b c d : Char) : Option Nat := do
  let a ← hexValue a
  let b ← hexValue b
  let c ← hexValue c
  let d ← hexValue d
  pure (((a * 16 + b) * 16 + c) * 16 + d)

/-- The character of a code point. -/
def charOf (n : Nat) : Option Char := if n.isValidChar then some (Char.ofNat n) else none

/-- The character of a one-letter escape. -/
def unescape : Char → Option Char
  | '"' => some '"'
  | '\\' => some '\\'
  | '/' => some '/'
  | 'b' => some (Char.ofNat 8)
  | 'f' => some (Char.ofNat 12)
  | 'n' => some '\n'
  | 'r' => some '\r'
  | 't' => some '\t'
  | _ => none

/-- An escape after its backslash: the character and the rest. -/
def escape : List Char → Option (Char × List Char)
  | 'u' :: a :: b :: c :: d :: rest => do
      let first ← hex4 a b c d
      if 0xD800 ≤ first && first ≤ 0xDBFF then
        -- The first half of a surrogate pair; the second half is another escape.
        match rest with
        | '\\' :: 'u' :: e :: f :: g :: h :: rest => do
            let second ← hex4 e f g h
            if 0xDC00 ≤ second && second ≤ 0xDFFF then
              let c ← charOf (0x10000 + (first - 0xD800) * 0x400 + (second - 0xDC00))
              pure (c, rest)
            else none
        | _ => none
      else
        let c ← charOf first
        pure (c, rest)
  | c :: rest => (unescape c).map fun c => (c, rest)
  | [] => none

/-- A string after its opening quote. -/
def string : Nat → List Char → Option (List Char × List Char)
  | 0, _ => none
  | n + 1, cs =>
      match cs with
      | [] => none
      | '"' :: rest => some ([], rest)
      | '\\' :: rest => do
          let (c, rest) ← escape rest
          let (text, rest) ← string n rest
          pure (c :: text, rest)
      | c :: rest =>
          if c.toNat < 32 then none
          else (string n rest).map fun (text, rest) => (c :: text, rest)

/-- The digits at the start of a text. -/
def digits (cs : List Char) : List Char × List Char :=
  (cs.takeWhile Char.isDigit, cs.dropWhile Char.isDigit)

/-- The number that decimal digits write. -/
def natOf (ds : List Char) : Nat := ds.foldl (fun n c => n * 10 + (c.toNat - '0'.toNat)) 0

/-- The digits after the point, if there are any. -/
def fraction : List Char → Option (List Char) × List Char
  | '.' :: rest =>
      match digits rest with
      | ([], _) => (none, '.' :: rest)
      | (ds, rest) => (some ds, rest)
  | cs => (none, cs)

/-- A sign and the digits after it. -/
def signed (cs : List Char) : Option (Int × List Char) :=
  let (negative, body) := match cs with
    | '-' :: rest => (true, rest)
    | '+' :: rest => (false, rest)
    | _ => (false, cs)
  match digits body with
  | ([], _) => none
  | (ds, rest) => some (if negative then -(natOf ds : Int) else natOf ds, rest)

/-- The exponent, if there is one. -/
def exponent : List Char → Option Int × List Char
  | c :: rest =>
      if c == 'e' || c == 'E' then
        match signed rest with
        | some (n, rest) => (some n, rest)
        | none => (none, c :: rest)
      else (none, c :: rest)
  | [] => (none, [])

/-- A float from its digits, a magnitude beyond the doubles being infinite. -/
def floatFrom (negative : Bool) (mantissa : Nat) (power : Int) : PyFloat :=
  let q : ℚ := mantissa * (10 : ℚ) ^ power
  if q < 2 ^ 1024 - 2 ^ 970 then .finite (if negative then -q else q) else .inf negative

/-- A number without its sign. -/
def unsigned (negative : Bool) (cs : List Char) : Option (Json × List Char) :=
  let (whole, rest) := match cs with
    | '0' :: rest => (['0'], rest)
    | cs => digits cs
  if whole = [] then none
  else
    let (frac, rest) := fraction rest
    let (power, rest) := exponent rest
    if frac = none ∧ power = none then
      if whole.length ≤ maxStrDigits then
        some (.int (if negative then -(natOf whole : Int) else natOf whole), rest)
      else none
    else
      let frac := frac.getD []
      some (.float (floatFrom negative (natOf (whole ++ frac)) (power.getD 0 - frac.length)), rest)

/-- The members of a list after its bracket, where one stands at least. -/
def elements (read : List Char → Option (Json × List Char)) :
    Nat → List Char → Option (List Json × List Char)
  | 0, _ => none
  | n + 1, cs => do
      let (value, rest) ← read (skipBlanks cs)
      match skipBlanks rest with
      | ']' :: rest => pure ([value], rest)
      | ',' :: rest => do
          let (values, rest) ← elements read n rest
          pure (value :: values, rest)
      | _ => none

/-- The pairs of an object after its brace, where one stands at least. -/
def pairs (read : List Char → Option (Json × List Char)) :
    Nat → List Char → Option (List (String × Json) × List Char)
  | 0, _ => none
  | n + 1, cs =>
      match skipBlanks cs with
      | '"' :: rest => do
          let (key, rest) ← string (rest.length + 1) rest
          match skipBlanks rest with
          | ':' :: rest => do
              let (value, rest) ← read (skipBlanks rest)
              match skipBlanks rest with
              | '}' :: rest => pure ([(String.ofList key, value)], rest)
              | ',' :: rest => do
                  let (items, rest) ← pairs read n rest
                  pure ((String.ofList key, value) :: items, rest)
              | _ => none
          | _ => none
      | _ => none

/-- `dict(pairs)`: a key keeps its first place and has its last value. -/
def dictOf (items : List (String × Json)) : List (String × Json) :=
  items.foldl (fun d item => setItems item.1 item.2 d) []

/-- A value. -/
def value : Nat → List Char → Option (Json × List Char)
  | 0, _ => none
  | n + 1, cs =>
      match cs with
      | '"' :: rest => (string (rest.length + 1) rest).map fun (text, rest) =>
          (.str (String.ofList text), rest)
      | '{' :: rest =>
          match skipBlanks rest with
          | '}' :: rest => some (.dict [], rest)
          | _ => (pairs (value n) (rest.length + 1) rest).map fun (items, rest) =>
              (.dict (dictOf items), rest)
      | '[' :: rest =>
          match skipBlanks rest with
          | ']' :: rest => some (.list [], rest)
          | _ => (elements (value n) (rest.length + 1) rest).map fun (values, rest) =>
              (.list values, rest)
      | 'n' :: 'u' :: 'l' :: 'l' :: rest => some (.null, rest)
      | 't' :: 'r' :: 'u' :: 'e' :: rest => some (.bool true, rest)
      | 'f' :: 'a' :: 'l' :: 's' :: 'e' :: rest => some (.bool false, rest)
      | 'N' :: 'a' :: 'N' :: rest => some (.float .nan, rest)
      | 'I' :: 'n' :: 'f' :: 'i' :: 'n' :: 'i' :: 't' :: 'y' :: rest =>
          some (.float (.inf false), rest)
      | '-' :: 'I' :: 'n' :: 'f' :: 'i' :: 'n' :: 'i' :: 't' :: 'y' :: rest =>
          some (.float (.inf true), rest)
      | '-' :: rest => unsigned true rest
      | cs => unsigned false cs

end JsonText

/-- The value of a text: nothing where `ValueError` is raised. -/
def loads (text : List Char) : Option Json :=
  match JsonText.value (text.length + 1) (JsonText.skipBlanks text) with
  | some (value, rest) => if JsonText.skipBlanks rest = [] then some value else none
  | none => none

/-- `text.encode()` -/
def encode (text : List Char) : List UInt8 := text.flatMap String.utf8EncodeChar

/-- `bytes.decode()`: nothing where it raises. -/
def decode (bytes : List UInt8) : Option (List Char) :=
  bytes.toByteArray.utf8Decode?.map Array.toList

/-- A value that was read, or `ValueError`. -/
def orValueError : Option Json → Except (Exc Unit) Json
  | some value => .ok value
  | none => .error (.valueError ())

/-- `json.loads` of texts that nest less than the interpreter allows, and of bytes in UTF-8. -/
@[reducible] def utf8Reader : JsonReader where
  loads text := orValueError (loads text)
  loadsBytes bytes := orValueError ((decode bytes).bind loads)

@[simp] theorem encode_nil : encode [] = [] := rfl

@[simp] theorem encode_append (a b : List Char) : encode (a ++ b) = encode a ++ encode b :=
  List.flatMap_append

/-- A byte of a character beyond the newline is no newline. -/
theorem newline_not_mem_char {c : Char} (h : c ≠ '\n') : newline ∉ String.utf8EncodeChar c := by
  have hval : c.val.toNat ≠ 10 := by
    intro hten
    exact h (Char.ext (UInt32.toNat_inj.mp hten))
  have hbyte : ∀ n, n % 256 ≠ 10 → newline ≠ UInt8.ofNat n := by
    intro n hn heq
    have hnat := congrArg UInt8.toNat heq
    rw [UInt8.toNat_ofNat'] at hnat
    exact hn hnat.symm
  unfold String.utf8EncodeChar
  dsimp only
  -- The bytes of a longer character are 128 or more.
  split
  · rw [List.mem_singleton]
    exact hbyte _ (by omega)
  · split
    · simp only [List.mem_cons, List.not_mem_nil, or_false, not_or]
      exact ⟨hbyte _ (by omega), hbyte _ (by omega)⟩
    · split
      · simp only [List.mem_cons, List.not_mem_nil, or_false, not_or]
        exact ⟨hbyte _ (by omega), hbyte _ (by omega), hbyte _ (by omega)⟩
      · simp only [List.mem_cons, List.not_mem_nil, or_false, not_or]
        exact ⟨hbyte _ (by omega), hbyte _ (by omega), hbyte _ (by omega), hbyte _ (by omega)⟩

/-- A text without newlines has no byte that is one. -/
theorem newline_not_mem_encode {text : List Char} (h : '\n' ∉ text) : newline ∉ encode text := by
  intro hmem
  obtain ⟨c, hc, hbyte⟩ := List.mem_flatMap.mp hmem
  refine newline_not_mem_char ?_ hbyte
  intro heq
  exact h (heq ▸ hc)

/-- The bytes of a text are decoded to the text. -/
@[simp] theorem decode_encode (text : List Char) : decode (encode text) = some text := by
  have hbytes : (encode text).toByteArray = text.utf8Encode := rfl
  rw [decode, hbytes, List.utf8Decode?_utf8Encode]
  rfl

/-- The bytes of a text are read as the text is. -/
@[simp] theorem utf8_loads_bytes (text : List Char) :
    utf8Reader.loadsBytes (encode text) = utf8Reader.loads text := by
  show orValueError ((decode (encode text)).bind loads) = orValueError (loads text)
  rw [decode_encode, Option.bind_some]

end Python
