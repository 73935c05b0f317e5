import Mathlib.Data.List.Forall2
import StackMachine.Editor.Assist
import StackMachine.Proofs.Assembling
import StackMachine.Proofs.CursorWords
import StackMachine.Proofs.Words

/-!
# Remarks on the lines of a document

An editor and assembling do not cut a text into lines in the same way: to an editor, a newline at
the end begins a last line that is empty, and so does the beginning of an empty text. That line
aside, the lines are the same (`documentLines_cases`), and a fault of a line is reported where the
editor has it.

`refusals` lists the lines that are not instructions, each with its number and with what is wrong
with it. Validating reports just these (`validate_eq_map`), and so do the remarks that an editor is
shown (`diagnose_eq_map`), as long as the numbers and widths of the lines fit into words of 32 bits.
-/

namespace StackMachine.Editor

open Text

variable {α : Type} {r : Registry α} {text : Bytes}

/-! ## Lines -/

/-- The lines of a document are those of the program, and perhaps one more that is empty. -/
theorem documentLines_cases (text : Bytes) :
    documentLines text = programLines text ∨ documentLines text = programLines text ++ [[]] := by
  rw [documentLines_eq_split, programLines]
  by_cases hended : text = [] ∨ text.getLast? = some 10
  · have hnewline : split [10] 10 = [[]] := by
      rw [split_eq_splitOn (by decide)]
      rfl
    rw [split_append (by decide) hended, hnewline]
    exact .inr rfl
  · rw [not_or] at hended
    exact .inl (split_concat (by decide) hended.1 hended.2)

/-- A line of a program is a line of the document, at the same place. -/
theorem getElem?_documentLines {n : Nat} {line : Bytes} (h : (programLines text)[n]? = some line) :
    (documentLines text)[n]? = some line := by
  rcases documentLines_cases text with hlines | hlines
  · rw [hlines, h]
  · have hn : n < (programLines text).length := (List.getElem?_eq_some_iff.mp h).1
    rw [hlines, List.getElem?_append_left hn, h]

theorem length_le_of_split {d : UInt8} (hd : d < 128) (t : Bytes) :
    (split t d).length ≤ t.length + 1 ∧ ∀ part ∈ split t d, part.length ≤ t.length := by
  have hended : ((split t d).flatMap (· ++ [d])).length ≤ t.length + 1 := by
    rcases flatMap_split hd t with h | h
    · rw [← h]
      omega
    · rw [← h, List.length_append]
      exact Nat.le_refl _
  have hparts : ∀ parts : List Bytes, parts.length ≤ (parts.flatMap (· ++ [d])).length ∧
      ∀ part ∈ parts, part.length + 1 ≤ (parts.flatMap (· ++ [d])).length := by
    intro parts
    induction parts with
    | nil => simp
    | cons part parts ih =>
      simp only [List.flatMap_cons, List.length_append, List.length_cons, List.length_nil,
        List.forall_mem_cons]
      refine ⟨by omega, by omega, fun q hq => ?_⟩
      have := ih.2 q hq
      omega
  refine ⟨by have := (hparts (split t d)).1; omega, fun part hpart => ?_⟩
  have := (hparts (split t d)).2 part hpart
  omega

/-! ## Lines that are refused -/

/-- A line that is no instruction: its number, from zero, its text, and what is wrong with it. -/
structure Refusal where
  number : Nat
  line : Bytes
  wrong : LineError

/-- What is to be said about a line with a number, if it is no instruction. -/
def refusal? (r : Registry α) (number : Nat) (line : Bytes) : Option Refusal :=
  match assembleLine r line with
  | .error wrong => some ⟨number, line, wrong⟩
  | .ok _ => none

/-- The lines, the first of which has the given number, that are no instructions. -/
def refusals (r : Registry α) (lines : List Bytes) (number : Nat) : List Refusal :=
  (lines.zipIdx number).filterMap fun x => refusal? r x.2 x.1

theorem refusal?_eq_some_iff {number : Nat} {line : Bytes} {x : Refusal} :
    refusal? r number line = some x ↔
      x.number = number ∧ x.line = line ∧ assembleLine r line = .error x.wrong := by
  obtain ⟨number', line', wrong'⟩ := x
  rw [refusal?]
  cases assembleLine r line with
  | error wrong => simp [eq_comm]
  | ok i => simp

theorem mem_refusals {lines : List Bytes} {x : Refusal} :
    x ∈ refusals r lines 0 ↔
    lines[x.number]? = some x.line ∧ assembleLine r x.line = .error x.wrong := by
  rw [refusals, List.mem_filterMap]
  constructor
  · rintro ⟨⟨line, number⟩, hmem, hx⟩
    obtain ⟨rfl, rfl, hwrong⟩ := refusal?_eq_some_iff.mp hx
    exact ⟨List.mk_mem_zipIdx_iff_getElem?.mp hmem, hwrong⟩
  · rintro ⟨hline, hwrong⟩
    exact ⟨(x.line, x.number), List.mk_mem_zipIdx_iff_getElem?.mpr hline,
      refusal?_eq_some_iff.mpr ⟨rfl, rfl, hwrong⟩⟩

/-- The refused lines are in the order of their numbers. -/
theorem pairwise_refusals (r : Registry α) (lines : List Bytes) :
    (refusals r lines 0).Pairwise fun x y => x.number < y.number := by
  have hnumbers : (lines.zipIdx.map (·.2)).Pairwise (· < ·) := by
    rw [List.zipIdx_map_snd]
    exact List.pairwise_lt_range'
  rw [List.pairwise_map] at hnumbers
  rw [refusals, List.pairwise_filterMap]
  apply hnumbers.imp
  intro a b hab x hx y hy
  rw [(refusal?_eq_some_iff.mp hx).1, (refusal?_eq_some_iff.mp hy).1]
  exact hab

/-- Validating lines reports those that are refused, and counts one more than their numbers. -/
theorem validateLines_eq_map (r : Registry α) (lines : List Bytes) (number : Nat) :
    validateLines r (number + 1) lines =
      (refusals r lines number).map fun x => x.wrong.failure (x.number + 1) := by
  induction lines generalizing number with
  | nil => rfl
  | cons line lines ih =>
    have hrefusals : refusals r (line :: lines) number =
        (refusal? r number line).toList ++ refusals r lines (number + 1) := by
      rw [refusals, List.zipIdx_cons, List.filterMap_cons]
      cases refusal? r number line <;> rfl
    rw [validateLines, ih, hrefusals, refusal?]
    cases assembleLine r line with
    | error wrong => rfl
    | ok i => rfl

theorem validate_eq_map (r : Registry α) (text : Bytes) :
    validate r text =
      (refusals r (programLines text) 0).map fun x => x.wrong.failure (x.number + 1) :=
  validateLines_eq_map r _ 0

/-! ## Remarks -/

/-- The remark on a refused line. -/
def Refusal.remark (x : Refusal) : Remark :=
  ⟨.ofNat x.number, .ofNat x.line.length,
    (Wire.Diagnostic.ofFailure (x.wrong.failure (x.number + 1))).message⟩

/-- A refused line that the document has is remarked on. -/
theorem Refusal.remark?_failure (x : Refusal) {lines : List Bytes}
    (hline : lines[x.number]? = some x.line) (hnumber : x.number + 1 < 2 ^ 63) :
    remark? lines (x.wrong.failure (x.number + 1)) = some x.remark := by
  obtain ⟨cause, hfault⟩ := x.wrong.fault?_failure (x.number + 1)
  have hfrom : (Int64.ofNat (x.number + 1)).toInt = x.number + 1 := Int64.toInt_ofNat_of_lt hnumber
  have hpos : ¬ Int64.ofNat (x.number + 1) < 1 := by
    rw [Int64.lt_iff_toInt_lt, hfrom, Int64.toInt_one]
    omega
  have hzero : (Int64.ofNat (x.number + 1) - 1).toInt.toNat = x.number := by
    have hsum : Int64.ofNat (x.number + 1) = Int64.ofNat x.number + 1 := Int64.ofNat_add x.number 1
    rw [hsum, add_one_sub_one, Int64.toInt_ofNat_of_lt (by omega), Int.toNat_natCast]
  rw [remark?, hfault]
  show (if Int64.ofNat (x.number + 1) < 1 then none else _) = _
  rw [if_neg hpos, remark, Wire.Diagnostic.ofFailure, hfault]
  dsimp only [LineError.fault]
  rw [hzero, hline]
  rfl

/-- The number and the width of a line of a short text fit into words of 32 bits. -/
theorem bounds_of_mem_refusals (h : text.length < 2 ^ 32) {x : Refusal}
    (hx : x ∈ refusals r (programLines text) 0) : x.number < 2 ^ 32 ∧ x.line.length < 2 ^ 32 := by
  obtain ⟨hcount, hwidth⟩ := length_le_of_split (d := 10) (by decide) text
  have hline := (mem_refusals.mp hx).1
  have hnumber : x.number < (split text 10).length := (List.getElem?_eq_some_iff.mp hline).1
  have hlength := hwidth x.line (List.mem_of_getElem? hline)
  omega

/-- An editor is shown the remarks on the refused lines. -/
theorem diagnose_eq_map (h : text.length < 2 ^ 32) :
    diagnose r text = (refusals r (programLines text) 0).map Refusal.remark := by
  rw [diagnose, validate_eq_map, List.filterMap_map, ← List.filterMap_eq_map]
  apply List.filterMap_congr
  intro x hx
  have hbound := (bounds_of_mem_refusals h hx).1
  exact x.remark?_failure (getElem?_documentLines (mem_refusals.mp hx).1) (by omega)

/-- A remark tells an editor what a diagnostic tells a client of the service, and is placed on a
line that the document has and that assembling refuses. -/
structure Remark.Reports (r : Registry α) (text : Bytes) (remark : Remark) (e : Failure) :
    Prop where
  message : remark.message = (Wire.Diagnostic.ofFailure e).message
  /-- Editors count lines from zero, and clients from one. -/
  number : (Wire.Diagnostic.ofFailure e).line.toInt = remark.line.toNat + 1
  /-- The remark goes from the beginning to the end of the line that the failure is about. -/
  place : ∃ line wrong, (documentLines text)[remark.line.toNat]? = some line ∧
    remark.start = ⟨remark.line.toNat, 0⟩ ∧ remark.stop = ⟨remark.line.toNat, line.length⟩ ∧
    (programLines text)[remark.line.toNat]? = some line ∧ assembleLine r line = .error wrong ∧
    e = wrong.failure (remark.line.toNat + 1)

theorem Refusal.reports_remark (h : text.length < 2 ^ 32) {x : Refusal}
    (hx : x ∈ refusals r (programLines text) 0) :
    x.remark.Reports r text (x.wrong.failure (x.number + 1)) := by
  obtain ⟨hnumber, hwidth⟩ := bounds_of_mem_refusals h hx
  obtain ⟨hline, hwrong⟩ := mem_refusals.mp hx
  have hat : x.remark.line.toNat = x.number := UInt32.toNat_ofNat_of_lt' hnumber
  have hto : x.remark.width.toNat = x.line.length := UInt32.toNat_ofNat_of_lt' hwidth
  constructor
  · rfl
  · obtain ⟨cause, hfault⟩ := x.wrong.fault?_failure (x.number + 1)
    rw [hat, Wire.Diagnostic.ofFailure, hfault]
    exact Int64.toInt_ofNat_of_lt (by omega)
  · refine ⟨x.line, x.wrong, ?_, rfl, ?_, ?_, hwrong, ?_⟩
    · rw [hat]
      exact getElem?_documentLines hline
    · rw [Remark.stop, hto]
    · rw [hat, hline]
    · rw [hat]

/-- An editor is shown one remark for each fault that validating finds, in the same order: it says
what the diagnostic for clients of the service says, and is placed on the line of the document that
assembling refuses. The lines come in order, none of them twice. Lines and widths are words of 32
bits, so this is about texts of less than `2 ^ 32` bytes. -/
theorem validate_reports_diagnose (r : Registry α) {text : Bytes} (h : text.length < 2 ^ 32) :
    List.Forall₂ (Remark.Reports r text) (diagnose r text) (validate r text) ∧
      (diagnose r text).Pairwise fun a b => a.line < b.line := by
  rw [diagnose_eq_map h, validate_eq_map]
  constructor
  · rw [List.forall₂_map_left_iff, List.forall₂_map_right_iff, List.forall₂_same]
    intro x hx
    exact Refusal.reports_remark h hx
  · rw [List.pairwise_map]
    refine (pairwise_refusals r _).imp_of_mem ?_
    intro x y hx hy hxy
    have hx' := (bounds_of_mem_refusals h hx).1
    have hy' := (bounds_of_mem_refusals h hy).1
    rw [UInt32.lt_iff_toNat_lt]
    show (UInt32.ofNat x.number).toNat < (UInt32.ofNat y.number).toNat
    rwa [UInt32.toNat_ofNat_of_lt' hx', UInt32.toNat_ofNat_of_lt' hy']

/-- The first line has a name that nobody registered and the second is blank. The newline at the end
begins one more line of the document, on which there is no remark. -/
theorem validate_reports_diagnose_blankLine :
    let text := utf8 "TURN\n\nEXIT\n"
    documentLines text = [utf8 "TURN", [], utf8 "EXIT", []] ∧
    diagnose Registry.standard text =
      [⟨0, 4, utf8 "unknown instruction: TURN"⟩, ⟨1, 0, utf8 "empty instruction"⟩] ∧
    List.Forall₂ (Remark.Reports .standard text) (diagnose .standard text)
      (validate .standard text) ∧
    (diagnose Registry.standard text).Pairwise fun a b => a.line < b.line := by
  intro text
  have hlines : textLines text = [utf8 "TURN", [], utf8 "EXIT"] := by decide
  have hdocument : documentLines text = [utf8 "TURN", [], utf8 "EXIT", []] := by
    rw [documentLines, pieces_eq_splitOn]
    decide
  have hvalidate : validate Registry.standard text =
      [(LineError.unknown (utf8 "TURN")).failure 1, LineError.empty.failure 2] := by
    rw [validate, programLines_eq, hlines]
    simp only [validateLines, assembleLine]
    rw [split_eq_splitOn (by decide), split_eq_splitOn (by decide), split_eq_splitOn (by decide)]
    decide
  refine ⟨hdocument, ?_, validate_reports_diagnose .standard (by decide)⟩
  rw [diagnose, hvalidate, hdocument]
  decide

end StackMachine.Editor
