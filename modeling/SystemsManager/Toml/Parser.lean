import SystemsManager.Toml.Value

/-!
# Reading statements

A TOML 1.0 document is a sequence of statements: blank lines and comments, key/value pairs, and
the headers of tables and of arrays of tables. A statement takes one line, or more where a
multi-line string or an array goes on. `logicalLines` cuts the lines of a text into statements and
`statement` reads one of them; what follows `parse_float` is a parameter, as it is of
`tomllib.loads`. Every reader returns what is left of the text. The fuel `n` bounds nested and
repeated readings, and a text of a given length never needs more than `fuel` gives it.
-/

namespace Toml

/-- One line, without its newline. -/
abbrev Line := List Char

variable {F : Type}

section Characters

/-- Space and tab. -/
def isWs (c : Char) : Bool := c == ' ' || c == '\t'

/-- Whitespace within a line. -/
def skipWs (cs : List Char) : List Char := cs.dropWhile isWs

/-- The characters that stand in no comment and in no one-line string. -/
def isControl (c : Char) : Bool := c.toNat < 32 && c != '\t' || c.toNat == 127

/-- The characters of a key without quotes. -/
def isBare (c : Char) : Bool := c.isAlphanum || c == '-' || c == '_'

/-- A hexadecimal digit. -/
def isHex (c : Char) : Bool :=
  c.isDigit || 'a' ≤ c && c ≤ 'f' || 'A' ≤ c && c ≤ 'F'

/-- The value of a digit. -/
def digitVal (c : Char) : Nat :=
  if c.isDigit then c.toNat - '0'.toNat
  else if 'a' ≤ c then c.toNat - 'a'.toNat + 10
  else c.toNat - 'A'.toNat + 10

/-- The number that digits write. -/
def numberOf (base : Nat) (digits : List Char) : Nat :=
  digits.foldl (fun n c => n * base + digitVal c) 0

/-- A comment up to the end of its line, if there is one. -/
def skipComment : List Char → Option (List Char)
  | '#' :: rest =>
      if (rest.takeWhile fun c => c != '\n').any isControl then none
      else some (rest.dropWhile fun c => c != '\n')
  | cs => some cs

/-- Whitespace, newlines and comments within an array. -/
def skipArrayWs : Nat → List Char → Option (List Char)
  | 0, _ => none
  | n + 1, cs =>
      match cs.dropWhile fun c => isWs c || c == '\n' with
      | '#' :: rest => (skipComment ('#' :: rest)).bind (skipArrayWs n)
      | cs => some cs

end Characters

section Strings

/-- The character of a one-letter escape. -/
def unescape : Char → Option Char
  | 'b' => some (Char.ofNat 8)
  | 't' => some '\t'
  | 'n' => some '\n'
  | 'f' => some (Char.ofNat 12)
  | 'r' => some '\r'
  | '"' => some '"'
  | '\\' => some '\\'
  | _ => none

/-- The character of a code point in hexadecimal digits. -/
def hexChar (digits : List Char) : Option Char :=
  if digits.all isHex && (numberOf 16 digits).isValidChar then
    some (Char.ofNat (numberOf 16 digits))
  else none

/-- An escape after its backslash: the character and the rest. -/
def escape : List Char → Option (Char × List Char)
  | 'u' :: a :: b :: c :: d :: rest => (hexChar [a, b, c, d]).map fun x => (x, rest)
  | 'U' :: a :: b :: c :: d :: e :: f :: g :: h :: rest =>
      (hexChar [a, b, c, d, e, f, g, h]).map fun x => (x, rest)
  | c :: rest => (unescape c).map fun x => (x, rest)
  | [] => none

/-- A basic string after its opening quote. -/
def basicString : Nat → List Char → Option (List Char × List Char)
  | 0, _ => none
  | n + 1, cs =>
      match cs with
      | [] => none
      | '"' :: rest => some ([], rest)
      | '\\' :: rest => do
          let (x, rest) ← escape rest
          let (text, rest) ← basicString n rest
          some (x :: text, rest)
      | c :: rest =>
          if isControl c then none
          else (basicString n rest).map fun (text, rest) => (c :: text, rest)

/-- A literal string after its opening quote. -/
def literalString (cs : List Char) : Option (List Char × List Char) :=
  match cs.dropWhile fun c => c != '\'' with
  | _ :: rest =>
      let text := cs.takeWhile fun c => c != '\''
      if text.any isControl then none else some (text, rest)
  | [] => none

/-- A multi-line basic string after its opening quotes. One or two quotes may stand right before
the closing ones. -/
def basicText : Nat → List Char → Option (List Char × List Char)
  | 0, _ => none
  | n + 1, cs =>
      match cs with
      | [] => none
      | '"' :: '"' :: '"' :: '"' :: '"' :: rest => some (['"', '"'], rest)
      | '"' :: '"' :: '"' :: '"' :: rest => some (['"'], rest)
      | '"' :: '"' :: '"' :: rest => some ([], rest)
      | '\\' :: rest =>
          -- A backslash at the end of a line takes the line break and what is blank after it.
          match rest.dropWhile isWs with
          | '\n' :: more => basicText n (more.dropWhile fun c => isWs c || c == '\n')
          | _ => do
              let (x, rest) ← escape rest
              let (text, rest) ← basicText n rest
              some (x :: text, rest)
      | c :: rest =>
          if isControl c && c != '\n' then none
          else (basicText n rest).map fun (text, rest) => (c :: text, rest)

/-- A multi-line literal string after its opening quotes. -/
def literalText : List Char → Option (List Char × List Char)
  | [] => none
  | '\'' :: '\'' :: '\'' :: '\'' :: '\'' :: rest => some (['\'', '\''], rest)
  | '\'' :: '\'' :: '\'' :: '\'' :: rest => some (['\''], rest)
  | '\'' :: '\'' :: '\'' :: rest => some ([], rest)
  | c :: rest =>
      if isControl c && c != '\n' then none
      else (literalText rest).map fun (text, rest) => (c :: text, rest)

/-- A newline right after the opening quotes is dropped. -/
def dropNewline : List Char → List Char
  | '\n' :: rest => rest
  | cs => cs

end Strings

section Scalars

/-- Digits, with single underscores between them. -/
def digitRun (isOne : Char → Bool) : List Char → Option (List Char)
  | [] => none
  | [c] => if isOne c then some [c] else none
  | c :: '_' :: rest => if isOne c then (digitRun isOne rest).map (c :: ·) else none
  | c :: rest => if isOne c then (digitRun isOne rest).map (c :: ·) else none

/-- The digits of a decimal integer: no zero in front. -/
def wholeDigits (cs : List Char) : Option (List Char) :=
  match digitRun Char.isDigit cs with
  | some ['0'] => some ['0']
  | some ('0' :: _) => none
  | digits => digits

/-- A token without its sign. -/
def dropSign : List Char → List Char
  | '+' :: rest => rest
  | '-' :: rest => rest
  | cs => cs

/-- A token that is an integer. -/
def intToken : List Char → Option Int
  | '0' :: 'x' :: rest => (digitRun isHex rest).map fun digits => (numberOf 16 digits : Int)
  | '0' :: 'o' :: rest =>
      (digitRun (fun c => '0' ≤ c && c ≤ '7') rest).map fun digits => (numberOf 8 digits : Int)
  | '0' :: 'b' :: rest =>
      (digitRun (fun c => c == '0' || c == '1') rest).map fun digits => (numberOf 2 digits : Int)
  | '-' :: rest => (wholeDigits rest).map fun digits => -(numberOf 10 digits : Int)
  | cs => (wholeDigits (match cs with
      | '+' :: rest => rest
      | cs => cs)).map fun digits => (numberOf 10 digits : Int)

/-- The exponent of a float, if there is one. -/
def isExponent : List Char → Bool
  | [] => true
  | c :: rest => (c == 'e' || c == 'E') && (digitRun Char.isDigit (dropSign rest)).isSome

/-- A token that is a float. -/
def isFloat (cs : List Char) : Bool :=
  let cs := dropSign cs
  let isE := fun c => c == 'e' || c == 'E'
  cs == "inf".toList || cs == "nan".toList ||
    (wholeDigits (cs.takeWhile fun c => !isE c && c != '.')).isSome &&
      match cs.dropWhile fun c => !isE c && c != '.' with
      | '.' :: rest => (digitRun Char.isDigit (rest.takeWhile fun c => !isE c)).isSome &&
          isExponent (rest.dropWhile fun c => !isE c)
      | [] => false
      | rest => isExponent rest

/-- Two digits. -/
def twoDigits (a b : Char) : Option Nat :=
  if a.isDigit && b.isDigit then some (numberOf 10 [a, b]) else none

/-- The days of a month. -/
def daysIn (year month : Nat) : Nat :=
  if month = 2 then (if year % 4 = 0 ∧ (year % 100 ≠ 0 ∨ year % 400 = 0) then 29 else 28)
  else if month ∈ [4, 6, 9, 11] then 30
  else 31

/-- A date at the start of a token. -/
def dateToken : List Char → Option (Date × List Char)
  | a :: b :: c :: d :: '-' :: e :: f :: '-' :: g :: h :: rest => do
      let century ← twoDigits a b
      let decade ← twoDigits c d
      let month ← twoDigits e f
      let day ← twoDigits g h
      let year := century * 100 + decade
      if 1 ≤ year && 1 ≤ month && month ≤ 12 && 1 ≤ day && day ≤ daysIn year month then
        some (⟨year, month, day⟩, rest)
      else none
  | _ => none

/-- The fraction of a second, in microseconds: further digits are cut. -/
def fraction : List Char → Option (Nat × List Char)
  | '.' :: rest =>
      let digits := rest.takeWhile Char.isDigit
      if digits.isEmpty then none
      else some (numberOf 10 (digits ++ List.replicate 6 '0' |>.take 6),
        rest.dropWhile Char.isDigit)
  | cs => some (0, cs)

/-- A time at the start of a token. -/
def timeToken : List Char → Option (Time × List Char)
  | a :: b :: ':' :: c :: d :: ':' :: e :: f :: rest => do
      let hour ← twoDigits a b
      let minute ← twoDigits c d
      let second ← twoDigits e f
      let (micro, rest) ← fraction rest
      if hour < 24 && minute < 60 && second < 60 then some (⟨hour, minute, second, micro⟩, rest)
      else none
  | _ => none

/-- The offset at the end of a token, in minutes. -/
def offsetToken : List Char → Option (Option Int)
  | [] => some none
  | ['Z'] => some (some 0)
  | ['z'] => some (some 0)
  | [sign, a, b, ':', c, d] => do
      let hour ← twoDigits a b
      let minute ← twoDigits c d
      if (sign == '+' || sign == '-') && hour < 24 && minute < 60 then
        let offset : Int := hour * 60 + minute
        some (some (if sign == '-' then -offset else offset))
      else none
  | _ => none

/-- A token that is a date, a time or both. -/
def momentToken (cs : List Char) : Option Moment :=
  match dateToken cs with
  | some (date, []) => some (.date date)
  | some (date, sep :: rest) =>
      if sep == 'T' || sep == 't' || sep == ' ' then do
        let (time, rest) ← timeToken rest
        let offset ← offsetToken rest
        some (.both date time offset)
      else none
  | none =>
      match timeToken cs with
      | some (time, []) => some (.time time)
      | _ => none

/-- The characters of a number, a date or a word. -/
def isToken (c : Char) : Bool :=
  c.isAlphanum || c == '+' || c == '-' || c == '_' || c == '.' || c == ':'

/-- The token at the start of a text: a date and a time may stand apart by one space. -/
def tokenAt (cs : List Char) : List Char × List Char :=
  let token := cs.takeWhile isToken
  match cs.dropWhile isToken with
  | ' ' :: rest =>
      let both := token ++ ' ' :: rest.takeWhile isToken
      if (momentToken both).isSome then (both, rest.dropWhile isToken) else (token, ' ' :: rest)
  | rest => (token, rest)

/-- A value that is neither a string nor an array nor a table. -/
def scalar (parseFloat : List Char → F) (cs : List Char) : Option (Value F × List Char) :=
  let (token, rest) := tokenAt cs
  if token == "true".toList then some (.bool true, rest)
  else if token == "false".toList then some (.bool false, rest)
  else match momentToken token with
    | some moment => some (.moment moment, rest)
    | none =>
        match intToken token with
        | some n => some (.int n, rest)
        | none => if isFloat token then some (.float (parseFloat token), rest) else none

end Scalars

section Values

/-- One part of a key. -/
def keyPart (n : Nat) : List Char → Option (Name × List Char)
  | '"' :: rest => basicString n rest
  | '\'' :: rest => literalString rest
  | cs =>
      match cs.takeWhile isBare with
      | [] => none
      | name => some (name, cs.dropWhile isBare)

/-- A dotted key, and the whitespace after it. -/
def key : Nat → List Char → Option (Path × List Char)
  | 0, _ => none
  | n + 1, cs => do
      let (name, rest) ← keyPart n cs
      match skipWs rest with
      | '.' :: rest => (key n (skipWs rest)).map fun (path, rest) => (name :: path, rest)
      | rest => some ([name], rest)

mutual
/-- A value. -/
def value (parseFloat : List Char → F) : Nat → List Char → Option (Value F × List Char)
  | 0, _ => none
  | n + 1, cs =>
      match cs with
      | '"' :: '"' :: '"' :: rest =>
          (basicText n (dropNewline rest)).map fun (text, rest) => (.str text, rest)
      | '"' :: rest => (basicString n rest).map fun (text, rest) => (.str text, rest)
      | '\'' :: '\'' :: '\'' :: rest =>
          (literalText (dropNewline rest)).map fun (text, rest) => (.str text, rest)
      | '\'' :: rest => (literalString rest).map fun (text, rest) => (.str text, rest)
      | '[' :: rest => do
          let rest ← skipArrayWs n rest
          (arrayValues parseFloat n rest).map fun (values, rest) => (.array true values, rest)
      | '{' :: rest =>
          match skipWs rest with
          | '}' :: rest => some (.table true [], rest)
          | rest => (tableItems parseFloat n [] rest).map fun (items, rest) =>
              (.table true items, rest)
      | cs => scalar parseFloat cs

/-- The values of an array from here on, and its closing bracket. -/
def arrayValues (parseFloat : List Char → F) :
    Nat → List Char → Option (List (Value F) × List Char)
  | 0, _ => none
  | n + 1, cs =>
      match cs with
      | ']' :: rest => some ([], rest)
      | cs => do
          let (v, rest) ← value parseFloat n cs
          match ← skipArrayWs n rest with
          | ']' :: rest => some ([v], rest)
          | ',' :: rest => do
              let rest ← skipArrayWs n rest
              (arrayValues parseFloat n rest).map fun (values, rest) => (v :: values, rest)
          | _ => none

/-- The pairs of an inline table from here on, and its closing brace. -/
def tableItems (parseFloat : List Char → F) :
    Nat → Items F → List Char → Option (Items F × List Char)
  | 0, _, _ => none
  | n + 1, items, cs => do
      let (path, rest) ← key n cs
      match rest with
      | '=' :: rest => do
          let (v, rest) ← value parseFloat n (skipWs rest)
          let items ← setLeaf path v items
          match skipWs rest with
          | '}' :: rest => some (items, rest)
          | ',' :: rest => tableItems parseFloat n items (skipWs rest)
          | _ => none
      | _ => none
end

end Values

section Statements

/-- A statement of a document. -/
inductive Statement (F : Type) where
  | blank
  | pair (path : Path) (v : Value F)
  | header (path : Path)
  | arrayHeader (path : Path)
  deriving DecidableEq

/-- After a statement there is nothing but whitespace and a comment. -/
def endOf (s : Statement F) (cs : List Char) : Option (Statement F) :=
  match skipComment (skipWs cs) with
  | some [] => some s
  | _ => none

/-- What a text of this length needs at most. -/
def fuel (cs : List Char) : Nat := 4 * cs.length + 4

/-- The statement that the text is. -/
def statement (parseFloat : List Char → F) (cs : List Char) : Option (Statement F) :=
  let n := fuel cs
  match skipWs cs with
  | [] => some .blank
  | '#' :: rest => endOf .blank ('#' :: rest)
  | '[' :: '[' :: rest => do
      match ← key n (skipWs rest) with
      | (path, ']' :: ']' :: rest) => endOf (.arrayHeader path) rest
      | _ => none
  | '[' :: rest => do
      match ← key n (skipWs rest) with
      | (path, ']' :: rest) => endOf (.header path) rest
      | _ => none
  | cs => do
      match ← key n cs with
      | (path, '=' :: rest) => do
          let (v, rest) ← value parseFloat n (skipWs rest)
          endOf (.pair path v) rest
      | _ => none

/-- Where in a statement a place is: outside strings, or in which kind of string. -/
inductive Mode where
  | plain
  | basic
  | literal
  | basicText
  | literalText
  deriving DecidableEq

/-- The place at the end of a line, with the number of open brackets. -/
def scan : Mode → Nat → Line → Mode × Nat
  | mode, depth, [] => (mode, depth)
  | .plain, depth, '"' :: '"' :: '"' :: cs => scan .basicText depth cs
  | .plain, depth, '"' :: cs => scan .basic depth cs
  | .plain, depth, '\'' :: '\'' :: '\'' :: cs => scan .literalText depth cs
  | .plain, depth, '\'' :: cs => scan .literal depth cs
  | .plain, depth, '#' :: _ => (.plain, depth)
  | .plain, depth, c :: cs =>
      if c == '[' || c == '{' then scan .plain (depth + 1) cs
      else if c == ']' || c == '}' then scan .plain (depth - 1) cs
      else scan .plain depth cs
  | .basic, depth, '\\' :: _ :: cs => scan .basic depth cs
  | .basic, depth, '"' :: cs => scan .plain depth cs
  | .basic, depth, _ :: cs => scan .basic depth cs
  | .literal, depth, '\'' :: cs => scan .plain depth cs
  | .literal, depth, _ :: cs => scan .literal depth cs
  | .basicText, depth, '\\' :: _ :: cs => scan .basicText depth cs
  | .basicText, depth, '"' :: '"' :: '"' :: '"' :: '"' :: cs => scan .plain depth cs
  | .basicText, depth, '"' :: '"' :: '"' :: '"' :: cs => scan .plain depth cs
  | .basicText, depth, '"' :: '"' :: '"' :: cs => scan .plain depth cs
  | .basicText, depth, _ :: cs => scan .basicText depth cs
  | .literalText, depth, '\'' :: '\'' :: '\'' :: '\'' :: '\'' :: cs => scan .plain depth cs
  | .literalText, depth, '\'' :: '\'' :: '\'' :: '\'' :: cs => scan .plain depth cs
  | .literalText, depth, '\'' :: '\'' :: '\'' :: cs => scan .plain depth cs
  | .literalText, depth, _ :: cs => scan .literalText depth cs

/-- The statement goes on in the next line. -/
def goesOn (place : Mode × Nat) : Bool :=
  place.1 == .basicText || place.1 == .literalText || 0 < place.2

/-- The statements of the lines from a place within a statement on, of which these lines have
been read. -/
def statementLines (place : Mode × Nat) (read : List Line) : List Line → Option (List (List Line))
  | [] => if read.isEmpty then some [] else none
  | line :: rest =>
      let place := scan place.1 place.2 line
      if goesOn place then statementLines place (read ++ [line]) rest
      else (statementLines (.plain, 0) [] rest).map fun more => (read ++ [line]) :: more

/-- The lines of a text, statement by statement. A statement that does not end is an error. -/
def logicalLines (lines : List Line) : Option (List (List Line)) :=
  statementLines (.plain, 0) [] lines

/-- The lines of a text. -/
def splitLines : List Char → List Line
  | [] => [[]]
  | c :: cs =>
      if c = '\n' then [] :: splitLines cs
      else match splitLines cs with
        | line :: rest => (c :: line) :: rest
        | [] => [[c]]

/-- A text from its lines: `"\n".join(lines)`. -/
def joinLines : List Line → List Char
  | [] => []
  | [line] => line
  | line :: rest => line ++ '\n' :: joinLines rest

/-- The statements of a text. -/
def statements (parseFloat : List Char → F) (lines : List Line) : Option (List (Statement F)) :=
  (logicalLines lines).bind fun groups => groups.mapM fun group =>
    statement parseFloat (joinLines group)

end Statements

end Toml
