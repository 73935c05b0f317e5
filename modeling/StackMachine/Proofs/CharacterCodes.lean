import StackMachine.Proofs.Characters
import StackMachine.Standard

/-!
# Values written as characters

The top of the stack can be written to the output as a character. A value of 64 bits is cut down to
its lower 32 for that, and only then taken as the code of a character. What ought to be written for
a number is said apart from this by `ShownAs`: the UTF-8 form of the character with that code, and
of the replacement character where there is none.

`shownAs_charOf` says that a value is written as its lower half ought to be. That is the same as
what it ought to be written as itself, unless the upper half makes a difference: the value is not
the code of a character, but its lower half is. Such a value is shown as a character that it has
nothing to do with (`not_shownAs_longWord`).
-/

namespace StackMachine

open Text

namespace Text

/-! ## The text for a code -/

/-- The number is the code of a character: the surrogates are not. -/
def IsScalar (n : Int) : Prop := 0 ≤ n ∧ n ≤ 0x10FFFF ∧ ¬ (0xD800 ≤ n ∧ n ≤ 0xDFFF)

/-- A number taken as the code of a character is shown as the text `t`. -/
structure ShownAs (n : Int) (t : Bytes) : Prop where
  character : ∀ c : Char, (c.toNat : Int) = n → t = String.utf8EncodeChar c
  replaced : ¬ IsScalar n → t = String.utf8EncodeChar replacement

variable {n m : Int} {t : Bytes}

theorem isScalar_iff : IsScalar n ↔ ∃ c : Char, (c.toNat : Int) = n := by
  constructor
  · rintro ⟨hlow, hhigh, hsurrogate⟩
    refine ⟨Char.ofNat n.toNat, ?_⟩
    rw [toNat_ofNat (by omega)]
    omega
  · rintro ⟨c, rfl⟩
    have hvalid : c.toNat < 0xD800 ∨ 0xDFFF < c.toNat ∧ c.toNat < 0x110000 := c.valid
    unfold IsScalar
    omega

theorem toNat_replacement : (replacement.toNat : Int) = 0xFFFD := rfl

/-- No two characters have the same text. -/
theorem encodeChar_inj {c d : Char} (h : encodeChar c = encodeChar d) : c = d := by
  have hc := firstChar?_encodeChar c []
  rw [h, firstChar?_encodeChar d []] at hc
  exact (Prod.mk.inj (Option.some.inj hc)).1.symm

/-- Different codes are shown as different texts. -/
theorem ShownAs.eq_of_isScalar (h : ShownAs n t) (h' : ShownAs m t) (hn : IsScalar n)
    (hm : IsScalar m) : n = m := by
  obtain ⟨c, hc⟩ := isScalar_iff.mp hn
  obtain ⟨d, hd⟩ := isScalar_iff.mp hm
  have hsame := (h.character c hc).symm.trans (h'.character d hd)
  rw [← encodeChar_eq_utf8EncodeChar, ← encodeChar_eq_utf8EncodeChar] at hsame
  rw [← hc, ← hd, encodeChar_inj hsame]

/-- A number that is not a code is shown as a code is only if that is the code of the replacement
character. -/
theorem ShownAs.of_replaced (h : ShownAs n t) (hm : ¬ IsScalar m) :
    ShownAs m t ↔ n = 0xFFFD ∨ ¬ IsScalar n := by
  have hother : ShownAs m t ↔ t = String.utf8EncodeChar replacement :=
    ⟨fun h' => h'.replaced hm,
      fun ht => ⟨fun c hc => absurd (isScalar_iff.mpr ⟨c, hc⟩) hm, fun _ => ht⟩⟩
  have hmark : ShownAs 0xFFFD (String.utf8EncodeChar replacement) :=
    ⟨fun c hc => by rw [Char.toNat_inj.mp (Int.ofNat.inj (hc.trans toNat_replacement.symm))],
      fun _ => rfl⟩
  rw [hother]
  constructor
  · rintro rfl
    by_cases hn : IsScalar n
    · exact .inl (h.eq_of_isScalar hmark hn ⟨by decide, by decide, by decide⟩)
    · exact .inr hn
  · rintro (rfl | hn)
    · exact h.character replacement toNat_replacement
    · exact h.replaced hn

end Text

/-! ## The text that is written -/

/-- Carried out with `v` on top of the stack, the instruction adds the text `t` to the output and
changes nothing else. -/
def WritesChar (v : Value) (t : Bytes) : Prop :=
  ∀ {α : Type} (arg : Value) (s : State α), s.peek? = some v →
    Standard.exec .writeChar arg s = (.more, { s with output := s.output.write t })

theorem writesChar_iff {v : Value} {t : Bytes} :
    WritesChar v t ↔ t = encodeChar (State.charOf v) := by
  constructor
  · intro h
    have hexec := h 0 ({ registry := .empty, stack := [v] } : State Standard) rfl
    have houtput := congrArg (fun r => r.2.output.pieces) hexec
    exact (List.cons.inj houtput).1.symm
  · rintro rfl α arg s hpeek
    show Standard.reading .writeChar s s.writeChar = (.more, s.writeChar v)
    rw [Standard.reading, hpeek]

/-- The lower half of a value, read as a signed number, is a code exactly if the unsigned one is. -/
theorem charOf_cases (v : Value) :
    (IsScalar (v.toInt % 2 ^ 32) ∧ ((State.charOf v).toNat : Int) = v.toInt % 2 ^ 32) ∨
    (¬ IsScalar (v.toInt % 2 ^ 32) ∧ State.charOf v = replacement) := by
  have hlower : v.toInt32.toInt = v.toInt % 2 ^ 32 ∧ v.toInt % 2 ^ 32 < 2 ^ 31 ∨
      v.toInt32.toInt < 0 ∧ 2 ^ 31 ≤ v.toInt % 2 ^ 32 := by
    rw [Int64.toInt_toInt32, Int.bmod_def]
    split <;> omega
  have hpos : 0 ≤ v.toInt % 2 ^ 32 := Int.emod_nonneg _ (by decide)
  unfold State.charOf IsScalar
  generalize v.toInt % 2 ^ 32 = n at *
  generalize v.toInt32.toInt = code at *
  dsimp only
  split
  · next hvalid =>
    obtain ⟨hcode, hvalid⟩ := hvalid
    refine .inl ⟨?_, ?_⟩
    · unfold Nat.isValidChar at hvalid
      omega
    · rw [toNat_ofNat hvalid]
      omega
  · next hinvalid =>
    refine .inr ⟨?_, rfl⟩
    unfold Nat.isValidChar at hinvalid
    omega

/-- A value is written as its lower half ought to be. -/
theorem shownAs_charOf (v : Value) : ShownAs (v.toInt % 2 ^ 32) (encodeChar (State.charOf v)) := by
  rw [encodeChar_eq_utf8EncodeChar]
  rcases charOf_cases v with ⟨hscalar, hcode⟩ | ⟨hnone, hcode⟩
  · refine ⟨fun c hc => ?_, fun h => absurd hscalar h⟩
    rw [Char.toNat_inj.mp (Int.ofNat.inj (hc.trans hcode.symm))]
  · exact ⟨fun c hc => absurd (isScalar_iff.mpr ⟨c, hc⟩) hnone, fun _ => by rw [hcode]⟩

/-- A code is its own lower half. -/
theorem lower_of_isScalar {n : Int} (h : IsScalar n) : n % 2 ^ 32 = n := by
  unfold IsScalar at h
  omega

/-- **Values as characters.** Writing the top of the stack as a character leaves the stack alone and
adds to the output what the lower 32 bits of the value, taken as a code, are shown as. This is what
the value itself is shown as exactly if it is the code of a character or its lower half is none,
apart from the code of the replacement character. Values that are codes of characters are told apart
by what is written for them. -/
theorem writesChar_shownAs_iff (v : Value) :
    ∃ t, WritesChar v t ∧ ShownAs (v.toInt % 2 ^ 32) t ∧
      (ShownAs v.toInt t ↔
        IsScalar v.toInt ∨ v.toInt % 2 ^ 32 = 0xFFFD ∨ ¬ IsScalar (v.toInt % 2 ^ 32)) ∧
      ∀ w, IsScalar v.toInt → IsScalar w.toInt → WritesChar w t → w = v := by
  have hshown := shownAs_charOf v
  refine ⟨encodeChar (State.charOf v), writesChar_iff.mpr rfl, hshown, ?_, ?_⟩
  · by_cases hv : IsScalar v.toInt
    · rw [lower_of_isScalar hv] at hshown
      exact iff_of_true hshown (.inl hv)
    · rw [hshown.of_replaced hv, or_iff_right hv]
  · intro w hv hw hwrites
    have hshown' := shownAs_charOf w
    rw [← writesChar_iff.mp hwrites, lower_of_isScalar hw] at hshown'
    rw [lower_of_isScalar hv] at hshown
    exact Int64.toInt_inj.mp (hshown'.eq_of_isScalar hshown hw hv)

/-- A character beyond the first 65536 is written in four bytes, and no other code is written so. -/
theorem writesChar_shownAs_iff_face :
    IsScalar 0x1F600 ∧ WritesChar 0x1F600 [0xF0, 0x9F, 0x98, 0x80] ∧
    ShownAs 0x1F600 [0xF0, 0x9F, 0x98, 0x80] ∧
      ∀ w : Value, IsScalar w.toInt → WritesChar w [0xF0, 0x9F, 0x98, 0x80] → w = 0x1F600 := by
  have hscalar : IsScalar 0x1F600 := ⟨by decide, by decide, by decide⟩
  obtain ⟨t, hwrites, -, hshown, hunique⟩ := writesChar_shownAs_iff 0x1F600
  obtain rfl : t = [0xF0, 0x9F, 0x98, 0x80] := (writesChar_iff.mp hwrites).trans (by decide)
  exact ⟨hscalar, hwrites, hshown.mpr (.inl hscalar), fun w => hunique w hscalar⟩

/-- The value `2 ^ 32 + 65` is not the code of a character, and yet it is written as the letter that
65 is. -/
theorem not_shownAs_longWord :
    WritesChar 4294967361 [65] ∧ WritesChar 65 [65] ∧ ¬ IsScalar 4294967361 ∧
    ¬ ShownAs 4294967361 [65] := by
  have hnone : ¬ IsScalar 4294967361 := fun h => absurd h.2.1 (by decide)
  refine ⟨writesChar_iff.mpr (by decide), writesChar_iff.mpr (by decide), hnone, fun h => ?_⟩
  exact absurd (h.replaced hnone) (by decide)

end StackMachine
