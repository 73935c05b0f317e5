import StackMachine.Registry
import StackMachine.Text.Utf8

/-!
# Listings

A listing shows code one instruction a line: its address, the name of its operation and its
argument, in columns.
-/

namespace StackMachine

open Text

variable {α : Type}

/-- The name shown for an operation number; one that is not registered shows the number. -/
def Registry.shownName (r : Registry α) (id : Int64) : Bytes :=
  (r.name? id).getD (utf8 "?" ++ word id)

/-- One line of a listing. -/
def listingLine (r : Registry α) (address : Nat) (i : Instruction) : Bytes :=
  line (padLeft (ascii '0') 4 (decimal address) ++ utf8 "  " ++ padRight 12 (r.shownName i.op)
    ++ utf8 " " ++ word i.arg)

/-- The listing of code. -/
def listing (r : Registry α) (code : Code) : Bytes :=
  code.toList.zipIdx.flatMap fun (i, address) => listingLine r address i

end StackMachine
