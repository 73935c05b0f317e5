import StackMachine.Text.Quoted
import StackMachine.Text.Radix

/-!
# Percent escapes

In a URL a byte can be written as a percent sign and two hexadecimal digits. `codes` takes a text
apart into bytes and escapes and keeps how each escape is spelled, so that its readers can differ in
what they allow: `decode` refuses a percent sign without its digits, `decodeLoosely` lets it stand.
-/

namespace StackMachine.Text.Percent

/-- The percent sign. -/
def sign : UInt8 := 37

/-- A part of a text with escapes. -/
inductive Code where
  | plain (b : UInt8)
  /-- A byte that is spelled by its digits. -/
  | escape (high low : UInt8) (value : UInt8)
  /-- A percent sign that no two digits follow, and up to two bytes after it. -/
  | broken (spelled : Bytes)
  deriving DecidableEq, Repr

/-- The value of a hexadecimal digit. -/
def hexDigit? (b : UInt8) : Option Nat := (Radix.digit? b).filter (· < 16)

/-- The code at the start of a text that a percent sign opens. -/
def opened : Bytes → Code
  | high :: low :: _ =>
    match hexDigit? high, hexDigit? low with
    | some h, some l => .escape high low (16 * h + l).toUInt8
    | _, _ => .broken [sign, high, low]
  | rest => .broken (sign :: rest)

/-- The codes of a text; the first `skip` bytes belong to a code that has been read. -/
def codesFrom : (skip : Nat) → Bytes → List Code
  | _, [] => []
  | skip + 1, _ :: rest => codesFrom skip rest
  | 0, b :: rest =>
    if b = sign then
      match opened rest with
      | .escape high low value => .escape high low value :: codesFrom 2 rest
      | code => code :: codesFrom 0 rest
    else .plain b :: codesFrom 0 rest

/-- The codes of a text. -/
def codes (t : Bytes) : List Code := codesFrom 0 t

/-- The byte that a code stands for, or the spelling of one that stands for none. -/
def Code.value : Code → Except Bytes UInt8
  | .plain b => .ok b
  | .escape _ _ value => .ok value
  | .broken spelled => .error spelled

/-- The text that escapes spell, or the first of them that makes no sense. -/
def decode (t : Bytes) : Except Bytes Bytes := (codes t).mapM Code.value

/-- The text that escapes spell. A percent sign without its digits stands for itself, and a byte
that is spelled and zero ends the text. -/
def decodeLoosely (t : Bytes) : Bytes :=
  let ends : Code → Bool
    | .escape _ _ value => value == 0
    | _ => false
  ((codes t).takeWhile (!ends ·)).map fun
    | .plain b => b
    | .escape _ _ value => value
    | .broken _ => sign

/-- The wording of an escape that makes no sense. -/
def brokenMessage (spelled : Bytes) : Bytes := utf8 "invalid URL escape " ++ quoted spelled

end StackMachine.Text.Percent
