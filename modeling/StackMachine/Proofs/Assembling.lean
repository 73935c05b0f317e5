import Mathlib.Data.List.Forall2
import StackMachine.Assembly
import StackMachine.Proofs.Numerals
import StackMachine.Proofs.Registrations
import StackMachine.Proofs.Splitting

/-!
# The language that assembling accepts

`Registry.Spells` is the grammar of a line: a bound name, alone or followed by one blank and a
numeral, and then at most one blank more. A program text is one such line for each instruction, and
assembling accepts exactly these texts (`assemble_ok_iff_spells`).

The two cuts that assembling makes, into lines and into words, both let go of a delimiter at the
end, and the empty text has no line at all. A text of nothing but one newline is not empty, though:
it has one line, and that line is blank.
-/

namespace StackMachine

open Text

variable {α : Type}

/-! ## Lines -/

/-- The line spells the instruction. -/
def Registry.Spells (r : Registry α) (line : Bytes) (i : Instruction) : Prop :=
  ∃ name id, name ≠ [] ∧ 32 ∉ name ∧ r.Binds name id ∧ i.op = Int64.ofNat id ∧
    ((line = name ∨ line = name ++ [32]) ∧ i.arg = 0 ∨
      ∃ lit, Numeral.Denotes lit i.arg ∧
        (line = name ++ [32] ++ lit ∨ line = name ++ [32] ++ lit ++ [32]))

/-- A word that is not empty is the only one of its line, with a blank after it or without. -/
theorem split_of_word {name line : Bytes} (hne : name ≠ []) (hblank : 32 ∉ name)
    (hline : line = name ∨ line = name ++ [32]) : split line 32 = [name] := by
  rcases hline with rfl | rfl
  · exact split_of_not_mem (by decide) hne hblank
  · have hwords : ∀ word ∈ [name], 32 ∉ word := by simpa using hblank
    simpa using split_flatMap (by decide) hwords

/-- Two words with one blank between them are the words of their line, with a blank after them or
without. -/
theorem split_of_words {name lit line : Bytes} (hname : 32 ∉ name) (hne : lit ≠ [])
    (hlit : 32 ∉ lit) (hline : line = name ++ [32] ++ lit ∨ line = name ++ [32] ++ lit ++ [32]) :
    split line 32 = [name, lit] := by
  have hwords : ∀ word ∈ [name, lit], 32 ∉ word := by simpa using ⟨hname, hlit⟩
  have hended : split (name ++ [32] ++ lit ++ [32]) 32 = [name, lit] := by
    simpa using split_flatMap (by decide) hwords
  rcases hline with rfl | rfl
  · have hlast : (name ++ [32] ++ lit).getLast? ≠ some 32 := by
      rw [List.getLast?_append_of_ne_nil _ hne]
      exact fun h => hlit (List.mem_of_getLast? h)
    rw [← split_concat (by decide) (by simp) hlast, hended]
  · exact hended

/-- A line is its words, each with a blank after it; the last blank may be missing. -/
theorem eq_or_eq_of_split {line : Bytes} {words : List Bytes} {t : Bytes}
    (h : split line 32 = words) (hwords : words.flatMap (· ++ [32]) = t ++ [32]) :
    line = t ∨ line = t ++ [32] := by
  have hline := flatMap_split (d := 32) (by decide) line
  rw [h, hwords] at hline
  rcases hline with hline | hline
  · exact .inr hline
  · exact .inl (List.append_cancel_right hline)

/-- A line of one word spells the instruction that the word stands for, with the argument zero. -/
theorem assembleLine_of_word {r : Registry α} {line name : Bytes} {i : Instruction}
    (h : split line 32 = [name]) :
    assembleLine r line = .ok i ↔ ∃ id, r.Binds name id ∧ i.op = Int64.ofNat id ∧ i.arg = 0 := by
  have hblank : ascii ' ' = 32 := rfl
  rw [assembleLine, hblank, h]
  dsimp only
  simp only [← Registry.lookup?_eq_some_iff]
  cases r.lookup? name with
  | none => simp
  | some id =>
    obtain ⟨op, arg⟩ := i
    simp [eq_comm]

/-- A line of two words spells the instruction that the first stands for, with the argument that the
second denotes. -/
theorem assembleLine_of_words {r : Registry α} {line name lit : Bytes} {i : Instruction}
    (h : split line 32 = [name, lit]) :
    assembleLine r line = .ok i ↔
      ∃ id, r.Binds name id ∧ i.op = Int64.ofNat id ∧ Numeral.Denotes lit i.arg := by
  have hblank : ascii ' ' = 32 := rfl
  rw [assembleLine, hblank, h]
  dsimp only
  simp only [← Registry.lookup?_eq_some_iff, ← Numeral.parse_eq_ok_iff]
  cases r.lookup? name with
  | none => simp
  | some id =>
    obtain ⟨op, arg⟩ := i
    cases Numeral.parse lit with
    | error cause => simp
    | ok v => simp [eq_comm]

/-- A line that spells an instruction has one word or two. -/
theorem words_of_assembleLine {r : Registry α} {line : Bytes} {i : Instruction}
    (h : assembleLine r line = .ok i) :
    (∃ name, split line 32 = [name]) ∨ ∃ name lit, split line 32 = [name, lit] := by
  have hblank : ascii ' ' = 32 := rfl
  rw [assembleLine, hblank] at h
  match hwords : split line 32 with
  | [] =>
    rw [hwords] at h
    cases h
  | [name] => exact .inl ⟨name, rfl⟩
  | [name, lit] => exact .inr ⟨name, lit, rfl⟩
  | _ :: _ :: _ :: _ =>
    rw [hwords] at h
    cases h

/-- Assembling a line finds the instruction that the line spells. -/
theorem assembleLine_eq_ok_iff {r : Registry α} (hr : r.Reachable) {line : Bytes}
    {i : Instruction} :
    assembleLine r line = .ok i ↔ r.Spells line i := by
  constructor
  · intro h
    have hfree : ∀ word ∈ split line 32, 32 ∉ word := fun word => not_mem_of_mem_split (by decide)
    rcases words_of_assembleLine h with ⟨name, hwords⟩ | ⟨name, lit, hwords⟩
    · obtain ⟨id, hbinds, hop, harg⟩ := (assembleLine_of_word hwords).mp h
      have hline : line = name ∨ line = name ++ [32] := eq_or_eq_of_split hwords (by simp)
      exact ⟨name, id, hr.ne_nil_of_binds hbinds, hfree name (by simp [hwords]), hbinds, hop,
        .inl ⟨hline, harg⟩⟩
    · obtain ⟨id, hbinds, hop, hlit⟩ := (assembleLine_of_words hwords).mp h
      have hline : line = name ++ [32] ++ lit ∨ line = name ++ [32] ++ lit ++ [32] :=
        eq_or_eq_of_split hwords (by simp)
      exact ⟨name, id, hr.ne_nil_of_binds hbinds, hfree name (by simp [hwords]), hbinds, hop,
        .inr ⟨lit, hlit, hline⟩⟩
  · rintro ⟨name, id, hne, hblank, hbinds, hop, ⟨hline, harg⟩ | ⟨lit, hlit, hline⟩⟩
    · have hwords := split_of_word hne hblank hline
      exact (assembleLine_of_word hwords).mpr ⟨id, hbinds, hop, harg⟩
    · have hwords := split_of_words hblank hlit.ne_nil (hlit.not_mem (by decide)) hline
      exact (assembleLine_of_words hwords).mpr ⟨id, hbinds, hop, hlit⟩

/-- A line spells at most one instruction. -/
theorem Registry.Reachable.spells_unique {r : Registry α} (hr : r.Reachable) :
    Relator.RightUnique r.Spells := by
  intro line i j hi hj
  rw [← assembleLine_eq_ok_iff hr] at hi hj
  exact Except.ok.inj (hi.symm.trans hj)

/-! ## Lists of lines -/

/-- The line at the position spells no instruction, and every line before it spells one. -/
def Registry.FirstWrong (r : Registry α) (lines : List Bytes) (k : Nat) : Prop :=
  (∃ line, lines[k]? = some line ∧ ¬∃ i, r.Spells line i) ∧
    ∀ j < k, ∀ line, lines[j]? = some line → ∃ i, r.Spells line i

/-- Assembling lines finds one instruction for each, in order. -/
theorem assembleLines_eq_ok_iff {r : Registry α} (hr : r.Reachable) {number : Nat}
    {lines : List Bytes} {code : List Instruction} :
    assembleLines r number lines = .ok code ↔ List.Forall₂ r.Spells lines code := by
  induction lines generalizing number code with
  | nil =>
    rw [assembleLines, Except.ok.injEq, List.forall₂_nil_left_iff, eq_comm]
  | cons line lines ih =>
    rw [assembleLines, List.forall₂_cons_left_iff]
    simp only [← assembleLine_eq_ok_iff hr, ← @ih (number + 1)]
    cases assembleLine r line with
    | error e => simp
    | ok i =>
      cases assembleLines r (number + 1) lines with
      | error e => simp [Except.map]
      | ok rest => simp [Except.map, eq_comm]

theorem exists_of_forall₂_spells {r : Registry α} {lines : List Bytes} {code : List Instruction}
    (h : List.Forall₂ r.Spells lines code) : ∀ line ∈ lines, ∃ i, r.Spells line i := by
  induction h with
  | nil => exact List.forall_mem_nil _
  | cons hline _ ih => exact List.forall_mem_cons.mpr ⟨⟨_, hline⟩, ih⟩

/-- Where two lists are related item by item, so is what they hold at a position. -/
theorem forall₂_getElem? {β γ : Type} {R : β → γ → Prop} {xs : List β} {ys : List γ}
    (h : List.Forall₂ R xs ys) (n : Nat) : Option.Rel R xs[n]? ys[n]? := by
  induction h generalizing n with
  | nil => exact .none
  | cons hxy _ ih =>
    cases n with
    | zero => exact .some hxy
    | succ n => exact ih n

/-- Assembling lines stops at the first wrong one, and counts from the number it is given. -/
theorem assembleLines_eq_error {r : Registry α} (hr : r.Reachable) {number : Nat}
    {lines : List Bytes} {e : Failure} (h : assembleLines r number lines = .error e) :
    ∃ k wrong, r.FirstWrong lines k ∧ e = LineError.failure wrong (number + k) := by
  induction lines generalizing number with
  | nil => cases h
  | cons line lines ih =>
    rw [assembleLines] at h
    cases hline : assembleLine r line with
    | error wrong =>
      rw [hline] at h
      refine ⟨0, wrong, ⟨⟨line, rfl, ?_⟩, fun j hj => absurd hj (Nat.not_lt_zero j)⟩,
        (Except.error.inj h).symm⟩
      rintro ⟨i, hi⟩
      rw [(assembleLine_eq_ok_iff hr).mpr hi] at hline
      cases hline
    | ok i =>
      rw [hline] at h
      dsimp only at h
      cases hrest : assembleLines r (number + 1) lines with
      | ok rest =>
        rw [hrest] at h
        cases h
      | error e' =>
        rw [hrest] at h
        obtain rfl : e' = e := Except.error.inj h
        obtain ⟨k, wrong, ⟨hwrong, hbefore⟩, rfl⟩ := ih hrest
        refine ⟨k + 1, wrong, ⟨hwrong, ?_⟩, by rw [Nat.add_right_comm, Nat.add_assoc]⟩
        intro j hj line' hj'
        cases j with
        | zero =>
          obtain rfl := Option.some.inj hj'
          exact ⟨i, (assembleLine_eq_ok_iff hr).mp hline⟩
        | succ j => exact hbefore j (Nat.lt_of_succ_lt_succ hj) line' hj'

/-- Lines assemble and nothing is wrong with them, or the first thing that is wrong with them is
what assembling reports. -/
theorem assembleLines_cases (r : Registry α) (number : Nat) (lines : List Bytes) :
    (∃ is, assembleLines r number lines = .ok is ∧ validateLines r number lines = []) ∨
    ∃ e rest, assembleLines r number lines = .error e ∧
      validateLines r number lines = e :: rest := by
  induction lines generalizing number with
  | nil => exact .inl ⟨[], rfl, rfl⟩
  | cons line lines ih =>
    rw [assembleLines, validateLines]
    cases assembleLine r line with
    | error wrong => exact .inr ⟨_, _, rfl, rfl⟩
    | ok i =>
      rcases ih (number + 1) with ⟨is, his, hnone⟩ | ⟨e, rest, he, hsome⟩
      · refine .inl ⟨i :: is, ?_, hnone⟩
        rw [his]
        rfl
      · refine .inr ⟨e, rest, ?_, hsome⟩
        rw [he]
        rfl

/-- A wrong line is reported by a fault that names it and no program counter. -/
theorem LineError.fault?_failure (wrong : LineError) (number : Nat) :
    ∃ cause, (wrong.failure number).fault? = some (wrong.fault number, cause) := by
  cases wrong with
  | badArgument name cause => exact ⟨some (.numeral cause), rfl⟩
  | tooManyWords line => exact ⟨none, rfl⟩
  | empty => exact ⟨none, rfl⟩
  | unknown name => exact ⟨none, rfl⟩

/-! ## Programs -/

/-- The lines of a text: none if it is empty, or else what newlines separate once one at the end is
taken away. -/
def textLines (text : Bytes) : List Bytes := if text = [] then [] else (unended 10 text).splitOn 10

theorem programLines_eq (text : Bytes) : programLines text = textLines text :=
  split_eq_splitOn (by decide) text

/-- The code of a text is one instruction for each line, in order. -/
theorem forall₂_spells_of_assemble {r : Registry α} (hr : r.Reachable) {text : Bytes} {code : Code}
    (h : assemble r text = .ok code) : List.Forall₂ r.Spells (textLines text) code.toList := by
  rw [assemble, programLines_eq] at h
  cases hlines : assembleLines r 1 (textLines text) with
  | error e =>
    rw [hlines] at h
    cases h
  | ok is =>
    rw [hlines] at h
    obtain rfl := Except.ok.inj h
    exact (assembleLines_eq_ok_iff hr).mp hlines

/-- A text assembles and nothing is wrong with it, or the first thing that is wrong with it is what
assembling reports. -/
theorem assemble_cases (r : Registry α) (text : Bytes) :
    (∃ code, assemble r text = .ok code ∧ validate r text = []) ∨
    ∃ e rest, assemble r text = .error e ∧ validate r text = e :: rest := by
  rw [assemble, validate]
  rcases assembleLines_cases r 1 (programLines text) with ⟨is, his, hnone⟩ | ⟨e, rest, he, hsome⟩
  · rw [his]
    exact .inl ⟨_, rfl, hnone⟩
  · rw [he]
    exact .inr ⟨e, rest, rfl, hsome⟩

/-- Every line of a text spells an instruction if the text is empty or all between its newlines
does. -/
theorem forall_textLines {text : Bytes} {p : Bytes → Prop} :
    (∀ line ∈ textLines text, p line) ↔
    text = [] ∨ ∀ line ∈ (unended 10 text).splitOn 10, p line := by
  rw [textLines]
  by_cases hempty : text = []
  · simp [hempty]
  · simp [hempty]

/-- Assembling accepts a text exactly if it is empty or each of its lines spells an instruction, and
the code is these instructions in order. Any other text is refused with the number of its first
wrong line. -/
theorem assemble_ok_iff_spells (r : Registry α) (hr : r.Reachable) (text : Bytes) :
    ((∃ code, assemble r text = .ok code) ↔
        text = [] ∨ ∀ line ∈ (unended 10 text).splitOn 10, ∃ i, r.Spells line i) ∧
      (∀ code, assemble r text = .ok code → List.Forall₂ r.Spells (textLines text) code.toList) ∧
      ((¬∃ code, assemble r text = .ok code) →
        ∃ e f cause k, assemble r text = .error e ∧ e.fault? = some (f, cause) ∧
          f.kind = .invalidInstruction ∧ f.pc = -1 ∧ f.line = Int64.ofNat (k + 1) ∧
          r.FirstWrong (textLines text) k) := by
  have hassemble : assemble r text = (assembleLines r 1 (textLines text)).map List.toArray := by
    rw [assemble, programLines_eq]
  rw [← forall_textLines, hassemble]
  cases hlines : assembleLines r 1 (textLines text) with
  | ok code =>
    have hcode := (assembleLines_eq_ok_iff hr).mp hlines
    refine ⟨iff_of_true ⟨_, rfl⟩ (exists_of_forall₂_spells hcode), ?_,
      fun hnone => absurd ⟨_, rfl⟩ hnone⟩
    intro code' h
    obtain rfl := Except.ok.inj h
    exact hcode
  | error e =>
    obtain ⟨k, wrong, hfirst, rfl⟩ := assembleLines_eq_error hr hlines
    obtain ⟨cause, hfault⟩ := wrong.fault?_failure (1 + k)
    refine ⟨iff_of_false ?_ ?_, (fun code h => nomatch h), fun _ => ?_⟩
    · rintro ⟨code, h⟩
      cases h
    · intro hall
      obtain ⟨line, hline, hwrong⟩ := hfirst.1
      exact hwrong (hall line (List.mem_of_getElem? hline))
    · exact ⟨_, _, cause, k, rfl, hfault, rfl, rfl, by rw [LineError.fault, Nat.add_comm], hfirst⟩

/-- The least word is accepted as an argument, and so are a blank and a newline at the end. -/
theorem assemble_ok_iff_spells_minWord :
    Registry.standard.Reachable ∧
      assemble Registry.standard (utf8 "LOAD_CONST -9223372036854775808\nEXIT \n") =
        .ok #[⟨1, Int64.minValue⟩, ⟨2, 0⟩] := by
  have hr := Registry.standard_reachable
  have hlines : (unended 10 (utf8 "LOAD_CONST -9223372036854775808\nEXIT \n")).splitOn 10 =
      [utf8 "LOAD_CONST -9223372036854775808", utf8 "EXIT "] := by decide
  have htext : textLines (utf8 "LOAD_CONST -9223372036854775808\nEXIT \n") =
      [utf8 "LOAD_CONST -9223372036854775808", utf8 "EXIT "] := by
    rw [textLines, if_neg (by decide), hlines]
  have hload : Registry.standard.Spells (utf8 "LOAD_CONST -9223372036854775808")
      ⟨1, Int64.minValue⟩ := by
    refine ⟨utf8 "LOAD_CONST", 1, by decide, by decide, Registry.lookup?_eq_some_iff.mp (by decide),
      rfl, .inr ⟨utf8 "-9223372036854775808", ?_, .inl (by decide)⟩⟩
    exact ⟨utf8 "9223372036854775808", by decide, by decide, .inr ⟨by decide, by decide⟩⟩
  have hexit : Registry.standard.Spells (utf8 "EXIT ") ⟨2, 0⟩ :=
    ⟨utf8 "EXIT", 2, by decide, by decide, Registry.lookup?_eq_some_iff.mp (by decide), rfl,
      .inl ⟨.inr (by decide), rfl⟩⟩
  obtain ⟨haccepts, hspells, -⟩ := assemble_ok_iff_spells Registry.standard hr
    (utf8 "LOAD_CONST -9223372036854775808\nEXIT \n")
  rw [hlines] at haccepts
  obtain ⟨code, hcode⟩ := haccepts.mpr (.inr (by simpa using ⟨⟨_, hload⟩, ⟨_, hexit⟩⟩))
  have hsame : code.toList = [⟨1, Int64.minValue⟩, ⟨2, 0⟩] :=
    List.right_unique_forall₂' hr.spells_unique (htext ▸ hspells code hcode)
      (.cons hload (.cons hexit .nil))
  exact ⟨hr, hcode.trans (congrArg Except.ok (Array.toList_inj.mp hsame))⟩

/-- Without its newline the text of one newline is empty, and yet it is refused for a blank line. -/
theorem assemble_newline_eq_error :
    Registry.standard.Reachable ∧ unended 10 [10] = [] ∧
      assemble Registry.standard [10] = .error (LineError.empty.failure 1) := by
  have hlines : programLines [10] = [[]] := by
    rw [programLines_eq]
    decide
  have hblank : assembleLine Registry.standard [] = .error .empty := rfl
  refine ⟨Registry.standard_reachable, by decide, ?_⟩
  rw [assemble, hlines, assembleLines, hblank]
  rfl

end StackMachine
