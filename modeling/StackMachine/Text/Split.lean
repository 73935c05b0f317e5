import StackMachine.Text.Utf8

/-!
# Cutting a text into parts

`split` cuts at every occurrence of a delimiter and reads the text as a stream of terminated parts:
the empty text has no part, and a delimiter at the very end terminates the last part without
opening another. `strip` takes white space off both ends.
-/

namespace StackMachine.Text

/-- The parts between the occurrences of the separator `d :: ds`, found from the left. There is
always at least one part, and the text is the parts joined by the separator. -/
def pieces (d : UInt8) (ds : Bytes) (t : Bytes) : List Bytes :=
  match h : dropPrefix? (d :: ds) t with
  | some rest =>
    have : rest.length < t.length := by
      have := length_of_dropPrefix? h
      simp at this
      omega
    [] :: pieces d ds rest
  | none =>
    match t with
    | [] => [[]]
    | b :: rest =>
      match pieces d ds rest with
      | [] => [[b]]
      | part :: parts => (b :: part) :: parts
termination_by t.length

/-- The delimiter of `split`: the UTF-8 form of the character with the code `b`. -/
def separator (b : UInt8) : Bytes := encodeChar (Char.ofNat b.toNat)

/-- The parts of a text that each occurrence of a delimiter ends. A text that does not end in the
delimiter has its last part ended by the end of the text. -/
def split (t : Bytes) (delimiter : UInt8) : List Bytes :=
  match separator delimiter with
  | [] => [t]
  | d :: ds =>
    let parts := if t = [] then [] else pieces d ds t
    if parts.getLast? = some [] then parts.dropLast else parts

/-- White space as Unicode defines it. -/
def isBlank (c : Char) : Bool :=
  let n := c.toNat
  (9 ≤ n && n ≤ 13) || n == 0x20 || n == 0x85 || n == 0xA0 || n == 0x1680
    || (0x2000 ≤ n && n ≤ 0x200A) || n == 0x2028 || n == 0x2029 || n == 0x202F || n == 0x205F
    || n == 0x3000

/-- Whether a symbol is white space; a stray byte never is. -/
def Symbol.isBlank : Symbol → Bool
  | .char c => Text.isBlank c
  | .stray _ => false

/-- A text without the white space in front of it. -/
def stripLeft (t : Bytes) : Bytes := ofSymbols ((symbols t).dropWhile Symbol.isBlank)

/-- A text without the white space at its two ends. -/
def strip (t : Bytes) : Bytes :=
  let trimmed := (symbols t).dropWhile Symbol.isBlank
  ofSymbols (trimmed.reverse.dropWhile Symbol.isBlank).reverse

end StackMachine.Text
