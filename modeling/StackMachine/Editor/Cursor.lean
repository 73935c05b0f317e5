import StackMachine.Text.Split

/-!
# Words at a cursor

A cursor stands at a line and a column of a document, both counted from zero and columns in bytes. A
column past the end of its line is the end of the line. Words are runs of letters, digits and
underscores, where each byte is taken for the character with its code.
-/

namespace StackMachine.Editor

open Text

/-- A place in a document. -/
structure Position where
  line : Nat
  character : Nat
  deriving DecidableEq, Repr

/-- The lines of a document, without what ends them. There is at least one. -/
def documentLines (text : Bytes) : List Bytes := pieces 10 [] text

/-- Whether the character with a code below 256 is a letter. -/
def isLetterByte (b : UInt8) : Bool :=
  (65 ≤ b && b ≤ 90) || (97 ≤ b && b ≤ 122) || b == 0xAA || b == 0xB5 || b == 0xBA
    || (0xC0 ≤ b && b != 0xD7 && b != 0xF7)

/-- Whether a byte belongs to a word. -/
def isWordByte (b : UInt8) : Bool := isLetterByte b || (48 ≤ b && b ≤ 57) || b == ascii '_'

/-- The parts of a line before and after a cursor, if the line exists. -/
def around? (text : Bytes) (p : Position) : Option (Bytes × Bytes) :=
  (documentLines text)[p.line]?.map fun line => (line.take p.character, line.drop p.character)

/-- The word bytes at the end of a text. -/
def wordEnding (t : Bytes) : Bytes := (t.reverse.takeWhile isWordByte).reverse

/-- The part of the word at a cursor that stands before it. -/
def wordBefore (text : Bytes) (p : Position) : Bytes :=
  match around? text p with
  | some (before, _) => wordEnding before
  | none => []

/-- The word at a cursor. -/
def wordAt (text : Bytes) (p : Position) : Bytes :=
  match around? text p with
  | some (before, after) => wordEnding before ++ after.takeWhile isWordByte
  | none => []

/-- Whether what stands before a cursor is as long as a given width. -/
def atLineStart (text : Bytes) (p : Position) (width : Int) : Bool :=
  match around? text p with
  | some (before, _) => (before.length : Int) == width
  | none => false

end StackMachine.Editor
