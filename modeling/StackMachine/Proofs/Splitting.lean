import StackMachine.Proofs.Delimiters

/-!
# Texts cut at one byte

At a delimiter below 128 the separator is one byte, and cutting is then what `List.splitOn` does,
except at the two ends that `split` treats in a way of its own: the empty text has no part, and a
delimiter that ends the text ends its last part (`split_eq_splitOn`). A list of parts that are free
of the delimiter is found again when each part is ended by the delimiter (`split_flatMap`).
-/

namespace StackMachine.Text

/-! ## The pieces between delimiters -/

theorem not_mem_of_mem_splitOn {d : UInt8} {t p : Bytes} (h : p ∈ t.splitOn d) : d ∉ p := by
  induction t generalizing p with
  | nil =>
    rw [List.splitOn_nil, List.mem_singleton] at h
    rw [h]
    exact List.not_mem_nil
  | cons b t ih =>
    rw [List.splitOn_cons_eq_if_modifyHead] at h
    by_cases hb : b = d
    · rw [if_pos (by simpa using hb), List.mem_cons] at h
      rcases h with rfl | h
      · exact List.not_mem_nil
      · exact ih h
    · rw [if_neg (by simpa using hb)] at h
      cases hparts : t.splitOn d with
      | nil => exact absurd hparts (List.splitOn_ne_nil d t)
      | cons q qs =>
        rw [hparts, List.modifyHead_cons, List.mem_cons] at h
        rcases h with rfl | h
        · exact List.not_mem_cons_of_ne_of_not_mem (Ne.symm hb) (ih (hparts ▸ List.mem_cons_self))
        · exact ih (hparts ▸ List.mem_cons_of_mem q h)

theorem not_infix_of_mem_splitOn {d : UInt8} {t p : Bytes} (h : p ∈ t.splitOn d) :
    ¬ [d] <:+: p := by
  rw [List.singleton_infix_iff]
  exact not_mem_of_mem_splitOn h

theorem flatMap_append_delimiter (d : UInt8) {parts : List Bytes} (h : parts ≠ []) :
    parts.flatMap (· ++ [d]) = [d].intercalate parts ++ [d] := by
  induction parts with
  | nil => exact absurd rfl h
  | cons part parts ih =>
    cases parts with
    | nil => simp
    | cons next rest =>
      rw [List.flatMap_cons, ih (by simp), List.intercalate_cons_cons]
      simp

theorem flatMap_splitOn (d : UInt8) (t : Bytes) : (t.splitOn d).flatMap (· ++ [d]) = t ++ [d] := by
  rw [flatMap_append_delimiter d (List.splitOn_ne_nil d t), List.intercalate_splitOn]

/-- At a delimiter of one byte, the pieces are what lies between its occurrences. -/
theorem pieces_eq_splitOn (d : UInt8) (t : Bytes) : pieces d [] t = t.splitOn d := by
  refine flatMap_separator_inj List.not_mem_nil (fun p hp => not_infix_of_mem_pieces hp)
    (fun p hp => not_infix_of_mem_splitOn hp) ?_
  rw [flatMap_pieces, flatMap_splitOn]

/-! ## The delimiter at the end -/

/-- A text without the delimiter that ends it, if one does. -/
def unended (d : UInt8) (t : Bytes) : Bytes := if t.getLast? = some d then t.dropLast else t

theorem unended_concat (d : UInt8) (t : Bytes) : unended d (t ++ [d]) = t := by
  rw [unended, List.getLast?_concat, if_pos rfl, List.dropLast_concat]

theorem ended_singleton {d : UInt8} {t : Bytes} (hne : t ≠ []) :
    ended [d] t = unended d t ++ [d] := by
  by_cases hlast : t.getLast? = some d
  · obtain ⟨u, rfl⟩ := List.getLast?_eq_some_iff.mp hlast
    rw [unended_concat, ended, if_pos (.inr (List.suffix_append u [d]))]
  · have hopen : ¬ (t = [] ∨ [d] <:+ t) := by
      rintro (h | ⟨u, rfl⟩)
      · exact hne h
      · exact hlast List.getLast?_concat
    rw [unended, if_neg hlast, ended, if_neg hopen]

/-- The parts of a text that is not empty are what lies between the delimiters once one at the end
is taken away. -/
theorem split_eq_splitOn {d : UInt8} (hd : d < 128) (t : Bytes) :
    split t d = if t = [] then [] else (unended d t).splitOn d := by
  rw [split_eq_iff, separator_of_lt hd]
  by_cases hne : t = []
  · rw [if_pos hne, hne]
    exact cutsInto_flatMap (List.forall_mem_nil _)
  · rw [if_neg hne]
    refine ⟨fun p hp => not_infix_of_mem_splitOn hp, ?_⟩
    rw [flatMap_splitOn, ended_singleton hne]

/-! ## Parts that are each ended -/

/-- Parts without the delimiter, each ended by it, are the parts of the text they make up. -/
theorem split_flatMap {d : UInt8} (hd : d < 128) {parts : List Bytes} (h : ∀ p ∈ parts, d ∉ p) :
    split (parts.flatMap (· ++ [d])) d = parts := by
  rw [split_eq_iff, separator_of_lt hd]
  refine cutsInto_flatMap fun p hp => ?_
  rw [List.singleton_infix_iff]
  exact h p hp

/-- A text and the same text ended by a delimiter have the same parts. -/
theorem split_concat {d : UInt8} (hd : d < 128) {t : Bytes} (hne : t ≠ [])
    (hlast : t.getLast? ≠ some d) : split (t ++ [d]) d = split t d := by
  rw [split_eq_splitOn hd, split_eq_splitOn hd, if_neg (by simp), if_neg hne, unended_concat,
    unended, if_neg hlast]

/-- A text without the delimiter is the only part of itself. -/
theorem split_of_not_mem {d : UInt8} (hd : d < 128) {t : Bytes} (hne : t ≠ []) (h : d ∉ t) :
    split t d = [t] := by
  have hlast : t.getLast? ≠ some d := fun hl => h (List.mem_of_getLast? hl)
  have hended := split_flatMap hd (List.forall_mem_singleton.mpr h)
  rw [List.flatMap_singleton] at hended
  rw [← split_concat hd hne hlast, hended]

theorem unended_append_of_ne_nil (d : UInt8) (t : Bytes) {u : Bytes} (h : u ≠ []) :
    unended d (t ++ u) = t ++ unended d u := by
  have hlast : (t ++ u).getLast? = u.getLast? := by
    rw [List.getLast?_append, List.getLast?_eq_some_getLast h, Option.some_or]
  rw [unended, unended, hlast, List.dropLast_append_of_ne_nil h]
  split
  · rfl
  · rfl

/-- A text after one that is empty or ended by the delimiter adds its own parts. -/
theorem split_append {d : UInt8} (hd : d < 128) {t : Bytes} (h : t = [] ∨ t.getLast? = some d)
    (u : Bytes) :
    split (t ++ u) d = split t d ++ split u d := by
  rcases h with rfl | hlast
  · rw [split_eq_splitOn hd [], if_pos rfl, List.nil_append, List.nil_append]
  · obtain ⟨v, rfl⟩ := List.getLast?_eq_some_iff.mp hlast
    by_cases hu : u = []
    · rw [hu, List.append_nil, split_eq_splitOn hd [], if_pos rfl, List.append_nil]
    · rw [split_eq_splitOn hd, split_eq_splitOn hd, split_eq_splitOn hd, if_neg (by simp),
        if_neg (by simp), if_neg hu,
        unended_append_of_ne_nil d _ hu, unended_concat, List.append_assoc, List.singleton_append,
        List.splitOn_append_cons_self]

/-- The parts of a text, each ended by the delimiter, make up the text, which they may end. -/
theorem flatMap_split {d : UInt8} (hd : d < 128) (t : Bytes) :
    t = (split t d).flatMap (· ++ [d]) ∨ t ++ [d] = (split t d).flatMap (· ++ [d]) := by
  have hjoined := (cutsInto_split t d).joined
  rw [separator_of_lt hd, ended] at hjoined
  split at hjoined
  · exact .inl hjoined.symm
  · exact .inr hjoined.symm

/-- The first part of a text begins it, and only a delimiter can follow. -/
theorem exists_of_split_eq_cons {d : UInt8} (hd : d < 128) {t part : Bytes} {parts : List Bytes}
    (h : split t d = part :: parts) : ∃ rest, t = part ++ rest ∧ ∀ b ∈ rest.head?, b = d := by
  have hended := flatMap_split hd t
  rw [h, List.flatMap_cons, List.append_assoc, List.singleton_append] at hended
  rcases hended with hended | hended
  · exact ⟨_, hended, by simp⟩
  · -- the delimiter that ends the text was added to it, so it is taken off again
    rcases List.eq_nil_or_concat (parts.flatMap (· ++ [d])) with hrest | ⟨rest, b, hrest⟩
    · rw [hrest, List.append_cancel_right_eq] at hended
      exact ⟨[], by rw [hended, List.append_nil], by simp⟩
    · rw [hrest, List.concat_eq_append, ← List.cons_append, ← List.append_assoc] at hended
      exact ⟨d :: rest, List.append_inj_left' hended rfl, by simp⟩

/-- A part does not contain the delimiter. -/
theorem not_mem_of_mem_split {d : UInt8} (hd : d < 128) {t p : Bytes} (h : p ∈ split t d) :
    d ∉ p := by
  have hfree := (cutsInto_split t d).free p h
  rwa [separator_of_lt hd, List.singleton_infix_iff] at hfree

end StackMachine.Text
