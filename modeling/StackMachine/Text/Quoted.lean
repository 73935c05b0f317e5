import StackMachine.Text.Utf8
import StackMachine.Text.Printable

/-!
# Quoted texts

Messages that show a piece of input show it between double quotes, with everything escaped that a
terminal would not show as itself. Stray bytes and the remaining ASCII controls are written as
`\x` and two digits, other unprintable characters as `\u` and four or `\U` and eight.
-/

namespace StackMachine.Text

/-- The letter that follows the backslash for a control character that has one. -/
def controlLetter? (c : Char) : Option UInt8 :=
  match c.toNat with
  | 7 => some (ascii 'a')
  | 8 => some (ascii 'b')
  | 9 => some (ascii 't')
  | 10 => some (ascii 'n')
  | 11 => some (ascii 'v')
  | 12 => some (ascii 'f')
  | 13 => some (ascii 'r')
  | _ => none

/-- The backslash. -/
def backslash : UInt8 := 92

/-- The double quote. -/
def quoteMark : UInt8 := 34

/-- A character as it stands between the quotes. -/
def escapeChar (c : Char) : Bytes :=
  if c.toNat = 34 ∨ c.toNat = 92 then backslash :: encodeChar c
  else if isPrintable c then encodeChar c
  else match controlLetter? c with
    | some letter => [backslash, letter]
    | none =>
      if c.toNat < 0x80 then backslash :: ascii 'x' :: hexDigits 2 c.toNat
      else if c.toNat < 0x10000 then backslash :: ascii 'u' :: hexDigits 4 c.toNat
      else backslash :: ascii 'U' :: hexDigits 8 c.toNat

/-- A symbol as it stands between the quotes. -/
def escape : Symbol → Bytes
  | .char c => escapeChar c
  | .stray b => backslash :: ascii 'x' :: hexDigits 2 b.toNat

/-- A text between double quotes, escaped so that it can be read back from what is shown. -/
def quoted (t : Bytes) : Bytes :=
  quoteMark :: (symbols t).flatMap escape ++ [quoteMark]

end StackMachine.Text
