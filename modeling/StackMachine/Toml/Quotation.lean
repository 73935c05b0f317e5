import StackMachine.Text.Utf8
import StackMachine.Toml.Scalar

/-!
# TOML strings

A string stands between quotes. Between double quotes a backslash introduces an escape; between
single quotes every character stands for itself. Three quotes of either kind enclose a string that
may go over several lines.
-/

namespace StackMachine.Toml

open Text

/-- The UTF-8 form of characters. -/
def charBytes (cs : List Char) : Bytes := cs.flatMap encodeChar

/-- The character whose code the next `width` hexadecimal digits spell. -/
def codePoint? (width : Nat) (t : List Char) : Option (Char × List Char) := do
  let ds ← (t.take width).mapM (digitOf? 16)
  let n := digitsValue 16 ds
  if ds.length = width ∧ n.isValidChar then some (Char.ofNat n, t.drop width) else none

/-- The character that an escape stands for; `t` is what follows the backslash. -/
def escaped? : List Char → Option (Char × List Char)
  | 'b' :: rest => some (Char.ofNat 0x08, rest)
  | 't' :: rest => some (Char.ofNat 0x09, rest)
  | 'n' :: rest => some (Char.ofNat 0x0A, rest)
  | 'f' :: rest => some (Char.ofNat 0x0C, rest)
  | 'r' :: rest => some (Char.ofNat 0x0D, rest)
  | 'e' :: rest => some (Char.ofNat 0x1B, rest)
  | '"' :: rest => some ('"', rest)
  | '\\' :: rest => some ('\\', rest)
  | 'x' :: rest => codePoint? 2 rest
  | 'u' :: rest => codePoint? 4 rest
  | 'U' :: rest => codePoint? 8 rest
  | _ => none

/-- Whether a character ends a line. A carriage return only occurs before a line feed. -/
def isLineEnd (c : Char) : Bool := c == '\n' || c == '\r'

/-- Whether a character is a blank within a line. -/
def isSpace (c : Char) : Bool := c == ' ' || c == '\t'

/-- The text between double quotes with its escapes resolved. A backslash before white space that
ends its line takes back all white space that follows it. -/
def unescape? : (fuel : Nat) → List Char → Option (List Char)
  | _, [] => some []
  | 0, _ :: _ => none
  | fuel + 1, '\\' :: rest =>
    let (blank, after) := takeRun (fun c => isSpace c || isLineEnd c) rest
    if blank.contains '\n' then unescape? fuel after
    else do
      let (c, after) ← escaped? rest
      some (c :: (← unescape? fuel after))
  | fuel + 1, c :: rest => do some (c :: (← unescape? fuel rest))

/-- What stands before the closing quote of a string on one line, and what follows the quote. When
`held`, a backslash stands before the text and the next character closes nothing. -/
def lineBody? (quote : Char) (escapes held : Bool) : List Char → Option (List Char × List Char)
  | [] => none
  | c :: rest =>
    if isLineEnd c then none
    else if c = quote ∧ !held then some ([], rest)
    else do
      let (body, after) ← lineBody? quote escapes (escapes && c == '\\' && !held) rest
      some (c :: body, after)

/-- Whether five quotes in a row have been read, given all that was read before the last three. A
backslash before the five excuses them. -/
def fiveQuotes (quote : Char) (escapes : Bool) : List Char → Bool
  | a :: b :: c :: _ => a == quote && b == quote && !(escapes && c == '\\')
  | [a, b] => a == quote && b == quote
  | _ => false

/-- What stands before the three closing quotes of a string over several lines, and what follows
them. Up to two quotes may stand right before the closing ones. `read` is what was read so far, the
last character first; when `held`, it ends in a backslash and the next character closes nothing. -/
def linesBody? (quote : Char) (escapes held : Bool) (read : List Char) :
    List Char → Option (List Char × List Char)
  | [] => none
  | c :: rest =>
    if c = quote ∧ !held ∧ rest.take 2 = [quote, quote] then
      if rest[2]? = some quote then
        if fiveQuotes quote escapes read then none
        else linesBody? quote escapes false (c :: read) rest
      else some (read.reverse, rest.drop 2)
    else linesBody? quote escapes (escapes && c == '\\' && !held) (c :: read) rest

/-- A text without a line end at its very start. -/
def dropFirstLineEnd : List Char → List Char
  | '\n' :: rest => rest
  | '\r' :: '\n' :: rest => rest
  | t => t

/-- The escapes of a string resolved, if it is one that has any. -/
def resolve? (escapes : Bool) (body : List Char) : Option Bytes :=
  if escapes then (unescape? body.length body).map charBytes else some (charBytes body)

/-- A string on one line; `t` is what follows the opening quote. -/
def lineString? (quote : Char) (t : List Char) : Option (Bytes × List Char) := do
  let escapes := quote == '"'
  let (body, after) ← lineBody? quote escapes false t
  some (← resolve? escapes body, after)

/-- A string that may go over several lines; `t` is what follows the three opening quotes. -/
def linesString? (quote : Char) (t : List Char) : Option (Bytes × List Char) := do
  let escapes := quote == '"'
  let (body, after) ← linesBody? quote escapes false [] t
  some (← resolve? escapes (dropFirstLineEnd body), after)

/-- A string of either form; `t` is what follows the first quote. -/
def string? (quote : Char) (t : List Char) : Option (Bytes × List Char) :=
  match t with
  | a :: b :: rest => if a = quote ∧ b = quote then linesString? quote rest else lineString? quote t
  | _ => lineString? quote t

end StackMachine.Toml
