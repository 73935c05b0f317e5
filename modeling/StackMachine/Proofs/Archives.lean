import StackMachine.History.Archive
import StackMachine.Proofs.Delimiters
import StackMachine.Proofs.Numerals

/-!
# Archives that are read back

An archive is a heading and then fields, each with its length in front. The length ends at a colon
and says where the field ends, so that the first field of a text can be told from what follows it,
whatever it holds (`firstField?_append`). Nine fields make up a run (`ofFields?_append`). Reading an
archive therefore gives back the runs that were written (`read?_write`), as long as the lengths fit
in a word.
-/

namespace StackMachine.History.Archive

open Text Numeral

theorem isSome_digit?_iff (b : UInt8) : (digit? b).isSome = true ↔ 48 ≤ b ∧ b ≤ 57 := by
  rw [digit?]
  by_cases hb : 48 ≤ b ∧ b ≤ 57
  · rw [if_pos hb]
    exact iff_of_true rfl hb
  · rw [if_neg hb]
    exact iff_of_false Bool.false_ne_true hb

/-- A field is cut off where its length says, whatever follows. -/
theorem firstField?_append {t : Bytes} (h : t.length < 2 ^ 64) (rest : Bytes) :
    firstField? (field t ++ rest) = some (t, rest) := by
  have hfield : field t ++ rest = decimal t.length ++ (58 :: (t ++ rest)) := by
    rw [field, List.append_assoc, List.cons_append]
    rfl
  have hdigits : (field t ++ rest).takeWhile (fun b => (digit? b).isSome) = decimal t.length := by
    rw [hfield]
    refine (span_append (fun b hb => (isSome_digit?_iff b).mpr (digits_decimal _ b hb)) ?_).1
    intro b hb
    obtain rfl := Option.some.inj hb
    rfl
  have hlength : magnitude (decimal t.length) = .ok t.length :=
    magnitude_eq_ok_iff.mpr ⟨decimal_ne_nil _, digits_decimal _, (value_decimal _).symm, h⟩
  have hle : t.length ≤ (t ++ rest).length := by
    rw [List.length_append]
    exact Nat.le_add_right _ _
  unfold firstField?
  rw [hdigits]
  dsimp only
  rw [hlength, hfield, List.drop_left]
  simp only [Except.toOption, Option.bind_eq_bind, Option.bind_some, if_pos hle, List.take_left,
    List.drop_left]

/-- Fields that were written one after the other are told apart. -/
theorem readFields?_flatMap {fs : List Bytes} (h : ∀ f ∈ fs, f.length < 2 ^ 64) {fuel : Nat}
    (hfuel : (fs.flatMap field).length ≤ fuel) : readFields? fuel (fs.flatMap field) = some fs := by
  induction fs generalizing fuel with
  | nil => cases fuel <;> rfl
  | cons f fs ih =>
    rw [List.forall_mem_cons] at h
    rw [List.flatMap_cons, List.length_append] at hfuel
    have hlong : 0 < (field f).length := by
      rw [field, List.length_append, List.length_cons]
      omega
    obtain ⟨fuel, rfl⟩ : ∃ n, fuel = n + 1 := ⟨fuel - 1, by omega⟩
    have hne : (f :: fs).flatMap field ≠ [] := by
      rw [List.flatMap_cons, ← List.length_pos_iff, List.length_append]
      omega
    rw [readFields?]
    · rw [List.flatMap_cons, firstField?_append h.1]
      simp only [Option.bind_eq_bind, Option.bind_some]
      rw [ih h.2 (by omega)]
      rfl
    · exact hne

theorem number?_word (v : Int64) : number? (word v) = some v := by
  rw [number?, read_eq_ok_iff.mpr (denotes_word v)]
  rfl

/-- The fields of a run are read as the run, whatever runs follow. -/
theorem ofFields?_append (r : Run) (rest : List Bytes) :
    ofFields? (fields r ++ rest) = (ofFields? rest).map (r :: ·) := by
  show ofFields? (r.id :: word r.createdAt :: r.programHash :: r.program :: word r.result ::
    r.output :: r.faultKind :: r.faultMessage :: word r.steps :: rest) = _
  rw [ofFields?, number?_word, number?_word, number?_word]
  cases ofFields? rest <;> rfl

theorem ofFields?_flatMap (log : List Run) : ofFields? (log.flatMap fields) = some log := by
  induction log with
  | nil => rfl
  | cons r log ih =>
    rw [List.flatMap_cons, ofFields?_append, ih]
    rfl

/-- **Archives are read back.** Reading the archive of some runs gives these runs in their order,
whatever bytes they hold. -/
theorem read?_write {log : List Run} (h : ∀ run ∈ log, ∀ f ∈ fields run, f.length < 2 ^ 64) :
    read? (write log) = some log := by
  have hbody : dropPrefix? heading (write log) = some ((log.flatMap fields).flatMap field) := by
    rw [dropPrefix?_eq_some_iff, List.flatMap_assoc]
    rfl
  have hfields : ∀ f ∈ log.flatMap fields, f.length < 2 ^ 64 := by
    intro f hf
    obtain ⟨run, hrun, hmem⟩ := List.mem_flatMap.mp hf
    exact h run hrun f hmem
  rw [read?, hbody]
  simp only [Option.bind_eq_bind, Option.bind_some]
  rw [readFields?_flatMap hfields (Nat.le_refl _)]
  exact ofFields?_flatMap log

end StackMachine.History.Archive
