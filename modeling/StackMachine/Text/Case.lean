import StackMachine.Text.Utf8

/-!
# Names in any case

Names of fields, services and media types may be written in any case. Such names are ASCII, so two
rules are enough: bytes are compared with ASCII letters in lower case, and characters also with the
two that differ from an ASCII letter in case only.
-/

namespace StackMachine.Text

/-- An ASCII letter in lower case, and any other byte as it is. -/
def lowerByte (b : UInt8) : UInt8 := if 65 ≤ b ∧ b ≤ 90 then b + 32 else b

/-- A text with its ASCII letters in lower case. -/
def lowerAscii (t : Bytes) : Bytes := t.map lowerByte

/-- A character in lower case, as far as that is an ASCII letter: the capital i with a dot and the
sign of the kelvin have one too. -/
def lowerChar (c : Char) : Char :=
  if c.toNat = 0x130 then 'i' else if c.toNat = 0x212A then 'k' else c.toLower

/-- A text in lower case, as far as that is ASCII. -/
def lowerName (t : Bytes) : Bytes :=
  (symbols t).flatMap fun s => match s with | .char c => encodeChar (lowerChar c) | .stray b => [b]

/-- A letter in lower case. Of the characters outside ASCII, those that differ from an ASCII letter
in case only count: the long s and the sign of the kelvin. -/
def foldChar (c : Char) : Char :=
  if c.toNat = 0x17F then 's' else if c.toNat = 0x212A then 'k' else c.toLower

/-- A name with its letters in lower case. -/
def foldName (name : Bytes) : List Symbol :=
  (symbols name).map fun s => match s with | .char c => .char (foldChar c) | .stray b => .stray b

/-- Whether two names differ in case at most. -/
def sameName (a b : Bytes) : Bool := foldName a == foldName b

end StackMachine.Text
