import StackMachine.Toml.Quotation

/-!
# TOML statements

A document is a sequence of statements, one a line: the heading of a table, the heading of one of
several tables under the same name, or the assignment of a value to a key. `statements?` reads them;
what they make together is for `Toml.Document` to say.
-/

namespace StackMachine.Toml

open Text

/-- A key: names from the outside in. There is at least one. -/
abbrev Key := List Bytes

/-- A value as it is written. -/
inductive Expression where
  | value (v : Value)
  | array (items : List Expression)
  | inlineTable (entries : List (Key × Expression))
  deriving Repr

/-- A statement of a document. -/
inductive Statement where
  | table (key : Key)
  | nextTable (key : Key)
  | assign (key : Key) (e : Expression)
  deriving Repr

/-! ## Characters -/

/-- The byte order marks that may stand before a document. -/
def byteOrderMarks : List Bytes := [[0xFF, 0xFE], [0xFE, 0xFF], [0xEF, 0xBB, 0xBF]]

/-- A document without a byte order mark. -/
def dropMark (t : Bytes) : Bytes := (byteOrderMarks.findSome? (dropPrefix? · t)).getD t

/-- Whether a character may stand in a document. -/
def isAllowed (c : Char) : Bool :=
  c == '\t' || c == '\n' || c == '\r' || (0x20 ≤ c.toNat && c.toNat != 0x7F)

/-- The characters of symbols, all of which may stand in a document. A carriage return stands right
before a line feed. -/
def characters? : List Symbol → Option (List Char)
  | [] => some []
  | .stray _ :: _ => none
  | .char c :: rest =>
    if !isAllowed c then none
    else if c = '\r' ∧ rest.head? ≠ some (.char '\n') then none
    else (characters? rest).map (c :: ·)

/-! ## Space and comments -/

/-- A text without the blanks at its start. -/
def skipSpace (t : List Char) : List Char := t.dropWhile isSpace

/-- A text without the comment at its start. -/
def skipComment (t : List Char) : List Char := t.dropWhile (!isLineEnd ·)

/-- A text without blanks, line ends and comments at its start. Every round takes a character, so
the length of the text is fuel enough. -/
def skipLines : (fuel : Nat) → List Char → List Char
  | 0, t => t
  | fuel + 1, t =>
    match t with
    | '#' :: rest => skipLines fuel (skipComment rest)
    | c :: rest => if isSpace c || isLineEnd c then skipLines fuel rest else t
    | [] => []

/-- A text without blanks, line ends and comments at its start. -/
def skipAll (t : List Char) : List Char := skipLines t.length t

/-- The text after the end of a line, which may have a comment. -/
def lineEnd? (t : List Char) : Option (List Char) :=
  match skipSpace t with
  | [] => some []
  | '#' :: rest => some (skipComment rest)
  | c :: rest => if isLineEnd c then some rest else none

/-! ## Keys -/

/-- Whether a character may stand in a name without quotes. -/
def isBare (c : Char) : Bool := c.isAlphanum || c == '-' || c == '_'

/-- One name of a key. -/
def name? (t : List Char) : Option (Bytes × List Char) :=
  match t with
  | '"' :: rest => lineString? '"' rest
  | '\'' :: rest => lineString? '\'' rest
  | _ =>
    let (name, rest) := takeRun isBare t
    if name = [] then none else some (charBytes name, rest)

/-- A key: names with points between them, and blanks around the points. -/
def key? : (fuel : Nat) → List Char → Option (Key × List Char)
  | 0, _ => none
  | fuel + 1, t => do
    let (n, t) ← name? (skipSpace t)
    match skipSpace t with
    | '.' :: rest => do
      let (more, t) ← key? fuel rest
      some (n :: more, t)
    | t => some ([n], t)

/-! ## Values -/

/-- A value that is neither an array nor a table. -/
def scalar? (t : List Char) : Option (Value × List Char) :=
  match t with
  | '"' :: rest => (string? '"' rest).map fun (s, t) => (.text s, t)
  | '\'' :: rest => (string? '\'' rest).map fun (s, t) => (.text s, t)
  | 't' :: 'r' :: 'u' :: 'e' :: rest => some (.boolean true, rest)
  | 'f' :: 'a' :: 'l' :: 's' :: 'e' :: rest => some (.boolean false, rest)
  | '-' :: rest => signed? true rest
  | '+' :: rest => signed? false rest
  | 'i' :: _ => signed? false t
  | 'n' :: _ => signed? false t
  | c :: _ => if c.isDigit then unsigned? t else none
  | [] => none

mutual

/-- A value. -/
def expression? : (fuel : Nat) → List Char → Option (Expression × List Char)
  | 0, _ => none
  | fuel + 1, t =>
    match skipSpace t with
    | '[' :: rest => (items? fuel rest).map fun (es, t) => (.array es, t)
    | '\x7b' :: rest => (entries? fuel rest).map fun (es, t) => (.inlineTable es, t)
    | t => (scalar? t).map fun (v, t) => (.value v, t)

/-- The items of an array up to its closing bracket. A comma follows each item but the last, which
may have one too. -/
def items? : (fuel : Nat) → List Char → Option (List Expression × List Char)
  | 0, _ => none
  | fuel + 1, t =>
    match skipAll t with
    | ']' :: rest => some ([], rest)
    | t => do
      let (e, t) ← expression? fuel t
      match skipAll t with
      | ',' :: rest => do
        let (es, t) ← items? fuel rest
        some (e :: es, t)
      | ']' :: rest => some ([e], rest)
      | _ => none

/-- The entries of a table written in braces, up to the closing one, in the manner of an array. -/
def entries? : (fuel : Nat) → List Char → Option (List (Key × Expression) × List Char)
  | 0, _ => none
  | fuel + 1, t =>
    match skipAll t with
    | '\x7d' :: rest => some ([], rest)
    | t => do
      let (entry, t) ← assignment? fuel t
      match skipAll t with
      | ',' :: rest => do
        let (more, t) ← entries? fuel rest
        some (entry :: more, t)
      | '\x7d' :: rest => some ([entry], rest)
      | _ => none

/-- A key, an equals sign and a value. -/
def assignment? : (fuel : Nat) → List Char → Option ((Key × Expression) × List Char)
  | 0, _ => none
  | fuel + 1, t => do
    let (k, t) ← key? t.length t
    match t with
    | '=' :: rest => do
      let (e, t) ← expression? fuel rest
      some ((k, e), t)
    | _ => none

end

/-! ## Statements -/

/-- The key of a heading and the text after its closing bracket. -/
def heading? (t : List Char) : Option (Key × List Char) := do
  match ← key? t.length t with
  | (k, ']' :: rest) => some (k, rest)
  | _ => none

/-- One statement, up to what ends it. -/
def statement? (t : List Char) : Option (Statement × List Char) :=
  match t with
  | '[' :: '[' :: rest => do
    match ← heading? rest with
    | (k, ']' :: rest) => some (.nextTable k, rest)
    | _ => none
  | '[' :: rest => (heading? rest).map fun (k, t) => (.table k, t)
  | _ => (assignment? (2 * t.length + 2) t).map fun ((k, e), t) => (.assign k e, t)

/-- The statements of a text. Every statement takes a character, so the length of the text is fuel
enough. -/
def statementsFrom? : (fuel : Nat) → List Char → Option (List Statement)
  | fuel, t =>
    match skipAll t, fuel with
    | [], _ => some []
    | _ :: _, 0 => none
    | c :: rest, fuel + 1 => do
      let (s, t) ← statement? (c :: rest)
      let t ← lineEnd? t
      some (s :: (← statementsFrom? fuel t))

/-- The statements of a document. -/
def statements? (document : Bytes) : Option (List Statement) := do
  let t ← characters? (symbols (dropMark document))
  statementsFrom? t.length t

end StackMachine.Toml
