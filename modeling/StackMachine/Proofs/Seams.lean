import StackMachine.Proofs.Assembling

/-!
# Program texts put after one another

Each line of a program is assembled on its own, and only the number of a line in a fault depends on
what stands before it. A text that comes after others is therefore assembled and validated as it
would be alone, except that its faults blame lines further down (`Failure.movedDown`).

For this the first text has to be empty or end in a newline. There a newline ends the last line and
opens none, so no line is lost or gained where the two texts meet, whatever the second one begins or
ends with (`programLines_append`).
-/

namespace StackMachine

open Text

/-! ## Faults further down -/

/-- The fault blames a line that is so many lines further down. All else about it stays. -/
def Fault.movedDown (lines : Nat) (f : Fault) : Fault :=
  { f with line := f.line + Int64.ofNat lines }

/-- The failure blames a line that is so many lines further down. What caused the fault stays. -/
def Failure.movedDown (lines : Nat) : Failure → Failure
  | .fault f => .fault (f.movedDown lines)
  | .faultBecause f cause => .faultBecause (f.movedDown lines) cause
  | e => e

theorem LineError.fault_add (wrong : LineError) (number lines : Nat) :
    wrong.fault (number + lines) = (wrong.fault number).movedDown lines := by
  rw [fault, Int64.ofNat_add]
  rfl

theorem LineError.failure_add (wrong : LineError) (number lines : Nat) :
    wrong.failure (number + lines) = (wrong.failure number).movedDown lines := by
  cases wrong with
  | badArgument name cause =>
    exact congrArg (Failure.faultBecause · (.numeral cause)) (fault_add _ number lines)
  | tooManyWords | empty | unknown => exact congrArg Failure.fault (fault_add _ number lines)

/-! ## Lists of lines -/

variable {α : Type} (r : Registry α)

theorem validateLines_append (number : Nat) (lines lines' : List Bytes) :
    validateLines r number (lines ++ lines') =
      validateLines r number lines ++ validateLines r (number + lines.length) lines' := by
  induction lines generalizing number with
  | nil => rfl
  | cons line lines ih =>
    have hnumber : number + 1 + lines.length = number + (line :: lines).length := by
      rw [List.length_cons]
      omega
    rw [List.cons_append, validateLines, validateLines, ih, hnumber]
    split
    · rfl
    · rfl

/-- The faults of lines that come after others blame lines further down. -/
theorem validateLines_add (number n : Nat) (lines : List Bytes) :
    validateLines r (number + n) lines = (validateLines r number lines).map (·.movedDown n) := by
  induction lines generalizing number with
  | nil => rfl
  | cons line lines ih =>
    rw [validateLines, validateLines, Nat.add_right_comm, ih]
    split
    · rw [LineError.failure_add, List.map_cons]
    · rfl

/-- Lines after others are assembled once those before them are. -/
theorem assembleLines_append (number : Nat) (lines lines' : List Bytes) :
    assembleLines r number (lines ++ lines') =
      (assembleLines r number lines).bind fun is =>
        (assembleLines r (number + lines.length) lines').map (is ++ ·) := by
  induction lines generalizing number with
  | nil =>
    show assembleLines r number lines' = (assembleLines r number lines').map id
    rw [Except.map_id]
    rfl
  | cons line lines ih =>
    have hnumber : number + 1 + lines.length = number + (line :: lines).length := by
      rw [List.length_cons]
      omega
    rw [List.cons_append, assembleLines, assembleLines, ih, hnumber]
    split
    · rfl
    · cases assembleLines r (number + 1) lines with
      | error e => rfl
      | ok is =>
        cases assembleLines r (number + (line :: lines).length) lines' with
        | error e => rfl
        | ok is' => rfl

/-- Lines that come after others assemble to the same, or are refused for a line further down. -/
theorem assembleLines_add (number n : Nat) (lines : List Bytes) :
    assembleLines r (number + n) lines =
      (assembleLines r number lines).mapError (·.movedDown n) := by
  induction lines generalizing number with
  | nil => rfl
  | cons line lines ih =>
    rw [assembleLines, assembleLines, Nat.add_right_comm, ih]
    split
    · rw [LineError.failure_add]
      rfl
    · cases assembleLines r (number + 1) lines with
      | error e => rfl
      | ok is => rfl

/-! ## Texts -/

section Texts

variable {p : Bytes} (hp : p = [] ∨ p.getLast? = some 10) (q : Bytes)
include hp

/-- Where one text ends in a newline, the lines of both are those of the first and then those of the
second. -/
theorem programLines_append : programLines (p ++ q) = programLines p ++ programLines q :=
  split_append (by decide) hp q

theorem validate_append :
    validate r (p ++ q) =
      validate r p ++ (validate r q).map (·.movedDown (programLines p).length) := by
  rw [validate, programLines_append hp, validateLines_append, validateLines_add]
  rfl

/-- A text after another one is assembled once the first is. -/
theorem assemble_append :
    assemble r (p ++ q) =
      (assemble r p).bind fun a =>
        ((assemble r q).mapError (·.movedDown (programLines p).length)).map (a ++ ·) := by
  rw [assemble, programLines_append hp, assembleLines_append, assembleLines_add, assemble, assemble]
  cases assembleLines r 1 (programLines p) with
  | error e => rfl
  | ok is =>
    cases assembleLines r 1 (programLines q) with
    | error e => rfl
    | ok is' => exact congrArg Except.ok (List.append_toArray is is').symm

end Texts

/-- **Assembly is modular.** Take a text that is empty or ends in a newline, and any text after it.
Validating both finds the faults of the first text and then those of the second, which blame lines
further down by as many as the first text has. Both assemble if each of them does, to the code of
the first followed by that of the second; otherwise assembling is refused for what is wrong with the
first text, or else with the second. -/
theorem validate_assemble_append (r : Registry α) (p q : Bytes)
    (hp : p = [] ∨ p.getLast? = some 10) :
    let n := (programLines p).length
    validate r (p ++ q) = validate r p ++ (validate r q).map (·.movedDown n) ∧
    ((∃ code, assemble r (p ++ q) = .ok code) ↔
      (∃ a, assemble r p = .ok a) ∧ ∃ b, assemble r q = .ok b) ∧
    (∀ a b, assemble r p = .ok a → assemble r q = .ok b → assemble r (p ++ q) = .ok (a ++ b)) ∧
    (∀ e, assemble r p = .error e → assemble r (p ++ q) = .error e) ∧
    ∀ a e, assemble r p = .ok a → assemble r q = .error e →
      assemble r (p ++ q) = .error (e.movedDown n) := by
  intro n
  refine ⟨validate_append r hp q, ?_⟩
  rw [assemble_append r hp q]
  cases assemble r p with
  | error e => simp [Except.bind]
  | ok a =>
    cases assemble r q with
    | error e => simp [Except.bind, Except.mapError, Except.map, n]
    | ok b => simp [Except.bind, Except.mapError, Except.map]

/-- A text that ends in a blank line meets one that begins with a blank line. Each keeps its own,
and the second one is the third line of both texts together. -/
theorem validate_assemble_append_blankLines :
    let p := utf8 "TURN\n\n"
    let q := utf8 "\nEXIT"
    let r : Registry Standard := .standard
    (p = [] ∨ p.getLast? = some 10) ∧ (programLines p).length = 2 ∧
    validate r p = [(LineError.unknown (utf8 "TURN")).failure 1, LineError.empty.failure 2] ∧
    validate r q = [LineError.empty.failure 1] ∧
    validate r (p ++ q) =
      [(LineError.unknown (utf8 "TURN")).failure 1, LineError.empty.failure 2,
        LineError.empty.failure 3] ∧
    assemble r (p ++ q) = .error ((LineError.unknown (utf8 "TURN")).failure 1) := by
  intro p q r
  have hended : p = [] ∨ p.getLast? = some 10 := .inr (by decide)
  have hlines : programLines p = [utf8 "TURN", []] := by
    rw [programLines_eq]
    decide
  have hlines' : programLines q = [[], utf8 "EXIT"] := by
    rw [programLines_eq]
    decide
  have hturn : assembleLine r (utf8 "TURN") = .error (.unknown (utf8 "TURN")) := by
    rw [assembleLine, split_eq_splitOn (by decide)]
    decide
  have hexit : assembleLine r (utf8 "EXIT") = .ok ⟨2, 0⟩ := by
    rw [assembleLine, split_eq_splitOn (by decide)]
    decide
  have hblank : assembleLine r [] = .error .empty := rfl
  have hp :
      validate r p = [(LineError.unknown (utf8 "TURN")).failure 1, LineError.empty.failure 2] := by
    rw [validate, hlines, validateLines, hturn, validateLines, hblank]
    rfl
  have hq : validate r q = [LineError.empty.failure 1] := by
    rw [validate, hlines', validateLines, hblank, validateLines, hexit]
    rfl
  have hfirst : assemble r p = .error ((LineError.unknown (utf8 "TURN")).failure 1) := by
    rw [assemble, hlines, assembleLines, hturn]
    rfl
  obtain ⟨hvalidate, -, -, hrefused, -⟩ := validate_assemble_append r p q hended
  refine ⟨hended, by rw [hlines]; rfl, hp, hq, ?_, hrefused _ hfirst⟩
  rw [hvalidate, hp, hq, hlines]
  rfl

end StackMachine
