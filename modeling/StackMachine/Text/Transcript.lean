import StackMachine.Text.Bytes

/-!
# Transcripts

A transcript collects a text that is only ever added to at its end, such as the output of a run. It
keeps the pieces as they were written, the newest first, so that adding one costs the same however
long the text has become; `toBytes` is the text itself.
-/

namespace StackMachine

/-- A text that grows at its end. -/
structure Transcript where
  /-- The pieces written so far, the newest first. -/
  pieces : List Bytes := []
  deriving DecidableEq, Repr

namespace Transcript

/-- The empty transcript. -/
def empty : Transcript := {}

/-- A transcript with one more piece at its end. -/
def write (t : Transcript) (piece : Bytes) : Transcript := ⟨piece :: t.pieces⟩

/-- The text collected so far. -/
def toBytes (t : Transcript) : Bytes := t.pieces.reverse.flatten

@[simp]
theorem toBytes_empty : empty.toBytes = [] := rfl

@[simp]
theorem toBytes_write (t : Transcript) (piece : Bytes) :
    (t.write piece).toBytes = t.toBytes ++ piece := by
  simp [toBytes, write]

end Transcript

end StackMachine
