import StackMachine.Text.Percent
import StackMachine.Text.Split

/-!
# Query parameters

A query is a list of parameters with an ampersand between two of them. A parameter has a name and,
after an equals sign, a value. Both may hold percent escapes, and a plus sign stands for a blank.
-/

namespace StackMachine.Text.Query

/-- Why a text is not a query. -/
inductive Error where
  | semicolon
  /-- An escape that makes no sense. -/
  | broken (spelled : Bytes)
  deriving DecidableEq, Repr

/-- The wording of a query error. -/
def Error.message : Error → Bytes
  | .semicolon => utf8 "invalid semicolon separator in query"
  | .broken spelled => Percent.brokenMessage spelled

/-- The two sides of the first occurrence of a byte; without one, the text is the first side. -/
def cut (mark : UInt8) (t : Bytes) : Bytes × Bytes :=
  (t.takeWhile (· ≠ mark), (t.dropWhile (· ≠ mark)).drop 1)

/-- The byte that a code stands for. -/
def codeValue : Percent.Code → Except Error UInt8
  | .plain b => .ok (if b = ascii '+' then ascii ' ' else b)
  | code => code.value.mapError .broken

/-- A name or a value. -/
def decode (t : Bytes) : Except Error Bytes := (Percent.codes t).mapM codeValue

/-- A parameter. -/
def parameter (t : Bytes) : Except Error (Bytes × Bytes) := do
  let (name, value) := cut (ascii '=') t
  .ok (← decode name, ← decode value)

/-- The parameters of a query, in order. A semicolon anywhere is the first thing to be refused. -/
def parameters (t : Bytes) : Except Error (List (Bytes × Bytes)) :=
  if t.contains (ascii ';') then .error .semicolon
  else ((pieces (ascii '&') [] t).filter (· ≠ [])).mapM parameter

/-- The values of a parameter. -/
def values (ps : List (Bytes × Bytes)) (name : String) : List Bytes :=
  (ps.filter (·.1 = utf8 name)).map (·.2)

end StackMachine.Text.Query
