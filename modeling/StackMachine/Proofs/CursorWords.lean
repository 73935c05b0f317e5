import Mathlib.Data.List.DropRight
import StackMachine.Editor.Cursor
import StackMachine.Proofs.Characters

/-!
# Words at a cursor

The word at a cursor is looked for byte by byte, first to the left and then to the right, and each
byte is taken for the character with its code. `IsRun` says what is looked for: items with a
property on both sides of the cursor, with no other such item next to them. Among the bytes of a
line there is one such run, and the word is this one (`words_iff_isRun`).

Among its characters there is one too, but the word need not be it. A character beyond ASCII takes
several bytes. The first of them is a letter, when it is taken for a character, unless it is `×`;
the others are letters only if they are `ª`, `µ` or `º`. So a word may begin or end inside a
character (`wordAt_halfLetter`). `ToldApart` is what keeps this from happening, and nothing less
does (`wordAt_iff_toldApart`); a line of ASCII always has it.
-/

namespace StackMachine.Editor

open Text

/-! ## Runs -/

section Runs

variable {β : Type} {p : β → Bool}

/-- In `pre ++ left ++ right ++ post`, the items of `left ++ right` have a property, and those next
to them do not. A cursor between `left` and `right` touches this run of items, and none that is
longer. -/
structure IsRun (p : β → Bool) (pre left right post : List β) : Prop where
  inside : ∀ x ∈ left ++ right, p x = true
  before : ∀ x ∈ pre.getLast?, p x = false
  after : ∀ x ∈ post.head?, p x = false

theorem takeWhile_append_eq_left_iff {right post : List β} :
    (right ++ post).takeWhile p = right ↔
    (∀ x ∈ right, p x = true) ∧ ∀ x ∈ post.head?, p x = false := by
  constructor
  · intro h
    have hinside : ∀ x ∈ right, p x = true := by
      intro x hx
      rw [← h] at hx
      exact List.mem_takeWhile_imp hx
    refine ⟨hinside, ?_⟩
    rw [List.takeWhile_append_of_pos hinside, List.append_right_eq_self] at h
    intro x hx
    obtain ⟨rest, rfl⟩ := List.head?_eq_some_iff.mp hx
    by_contra hp
    rw [List.takeWhile_cons_of_pos (by simpa using hp)] at h
    exact List.cons_ne_nil _ _ h
  · rintro ⟨hinside, hafter⟩
    exact (span_append hinside hafter).1

theorem rtakeWhile_append_eq_right_iff {pre left : List β} :
    (pre ++ left).rtakeWhile p = left ↔
    (∀ x ∈ left, p x = true) ∧ ∀ x ∈ pre.getLast?, p x = false := by
  rw [List.rtakeWhile, List.reverse_append, List.reverse_eq_iff, takeWhile_append_eq_left_iff,
    List.head?_reverse]
  simp only [List.mem_reverse]

/-- A run is what is found by looking as far as the property holds, to the left and to the right. -/
theorem isRun_iff {pre left right post : List β} :
    IsRun p pre left right post ↔
      (pre ++ left).rtakeWhile p = left ∧ (right ++ post).takeWhile p = right := by
  rw [rtakeWhile_append_eq_right_iff, takeWhile_append_eq_left_iff]
  constructor
  · intro h
    have hinside := List.forall_mem_append.mp h.inside
    exact ⟨⟨hinside.1, h.before⟩, hinside.2, h.after⟩
  · rintro ⟨⟨hleft, hbefore⟩, hright, hafter⟩
    exact ⟨List.forall_mem_append.mpr ⟨hleft, hright⟩, hbefore, hafter⟩

/-- A cursor touches a run, which may be empty, wherever it stands. -/
theorem exists_isRun (p : β → Bool) (before after : List β) :
    ∃ pre left right post, before = pre ++ left ∧ after = right ++ post ∧
      IsRun p pre left right post := by
  refine ⟨before.rdropWhile p, before.rtakeWhile p, after.takeWhile p, after.dropWhile p,
    List.rdropWhile_append_rtakeWhile.symm, List.takeWhile_append_dropWhile.symm,
    isRun_iff.mpr ⟨?_, ?_⟩⟩
  · rw [List.rdropWhile_append_rtakeWhile]
  · rw [List.takeWhile_append_dropWhile]

end Runs

/-! ## Words among bytes -/

/-- The codes of the letters, the digits and the underscore below 256. -/
theorem isWordByte_iff (b : UInt8) : isWordByte b = true ↔
    (65 ≤ b.toNat ∧ b.toNat ≤ 90) ∨ (97 ≤ b.toNat ∧ b.toNat ≤ 122) ∨ (48 ≤ b.toNat ∧ b.toNat ≤ 57) ∨
      b.toNat = 95 ∨ b.toNat = 0xAA ∨ b.toNat = 0xB5 ∨ b.toNat = 0xBA ∨
      (0xC0 ≤ b.toNat ∧ b.toNat ≠ 0xD7 ∧ b.toNat ≠ 0xF7) := by
  have hunderscore : (ascii '_').toNat = 95 := rfl
  simp only [isWordByte, isLetterByte, Bool.or_eq_true, Bool.and_eq_true, decide_eq_true_eq,
    beq_iff_eq, bne_iff_ne,
    ne_eq, ← UInt8.toNat_inj, UInt8.le_iff_toNat_le, UInt8.reduceToNat, hunderscore]
  omega

section Words

variable {text line : Bytes} {p : Position}

/-- The lines of a document are the parts of its text, once that is ended by a newline. -/
theorem documentLines_eq_split (text : Bytes) : documentLines text = split (text ++ [10]) 10 := by
  rw [documentLines, pieces_eq_splitOn, split_eq_splitOn (by decide), if_neg (by simp),
    unended_concat]

theorem wordBefore_eq (hline : (documentLines text)[p.line]? = some line) :
    wordBefore text p = (line.take p.character).rtakeWhile isWordByte := by
  rw [wordBefore, around?, hline]
  rfl

theorem wordAt_eq (hline : (documentLines text)[p.line]? = some line) :
    wordAt text p =
      (line.take p.character).rtakeWhile isWordByte ++
        (line.drop p.character).takeWhile isWordByte := by
  rw [wordAt, around?, hline]
  rfl

/-- The word at a cursor is the run of word bytes that the cursor touches, and its first part is
what stands to the left of the cursor. -/
theorem words_iff_isRun (hline : (documentLines text)[p.line]? = some line)
    {pre left right post : Bytes} (hbefore : line.take p.character = pre ++ left)
    (hafter : line.drop p.character = right ++ post) :
    wordBefore text p = left ∧ wordAt text p = left ++ right ↔
    IsRun isWordByte pre left right post := by
  rw [isRun_iff, wordBefore_eq hline, wordAt_eq hline, hbefore, hafter]
  refine and_congr_right fun hleft => ?_
  rw [hleft, List.append_cancel_left_eq]

/-- Every byte of a word is a word byte. -/
theorem isWordByte_of_mem_wordAt {b : UInt8} (h : b ∈ wordAt text p) : isWordByte b = true := by
  rw [wordAt] at h
  cases hparts : around? text p with
  | none =>
    rw [hparts] at h
    cases h
  | some parts =>
    rw [hparts] at h
    rcases List.mem_append.mp h with h | h
    · exact List.mem_rtakeWhile_imp h
    · exact List.mem_takeWhile_imp h

end Words

/-! ## Bytes of characters -/

/-- Of the bytes that continue a character, those that are letters when taken for characters: `ª`,
`µ` and `º`. -/
def isLetterTail (b : UInt8) : Bool := b == 0xAA || b == 0xB5 || b == 0xBA

theorem isWordByte_of_isTail {b : UInt8} (h : isTail b = true) : isWordByte b = isLetterTail b := by
  rw [isTail_iff] at h
  rw [Bool.eq_iff_iff, isWordByte_iff]
  simp only [isLetterTail, Bool.or_eq_true, beq_iff_eq, ← UInt8.toNat_inj, UInt8.reduceToNat]
  omega

/-- The first byte of a character beyond ASCII is a letter, unless it is `×`. -/
theorem isWordByte_of_leads {b : UInt8} (hlow : 0xC2 ≤ b.toNat) (hhigh : b.toNat ≤ 0xF4) :
    isWordByte b = true ↔ b ≠ 0xD7 := by
  have hsign : b ≠ 0xD7 ↔ b.toNat ≠ 0xD7 := UInt8.toNat_inj.symm.not
  rw [isWordByte_iff, hsign]
  omega

theorem encodeChar_of_lt {c : Char} (h : c.toNat < 0x80) : encodeChar c = [c.toNat.toUInt8] := by
  rw [encodeChar]
  exact if_pos h

/-- A character beyond ASCII is a byte that leads and bytes that continue it. -/
theorem exists_encodeChar_eq {c : Char} (h : 0x80 ≤ c.toNat) :
    ∃ first rest, encodeChar c = first :: rest ∧
      (0xC2 ≤ first.toNat ∧ first.toNat ≤ 0xF4) ∧ rest ≠ [] ∧
      ∀ b ∈ rest, isTail b = true := by
  have hvalid : c.toNat < 0xD800 ∨ 0xDFFF < c.toNat ∧ c.toNat < 0x110000 := c.valid
  have htail : ∀ m, isTail (0x80 + m % 0x40).toUInt8 = true := by
    intro m
    rw [isTail_iff, toNat_toUInt8 (by omega)]
    omega
  rw [encodeChar, if_neg (Nat.not_lt.mpr h)]
  -- by the number of bytes
  by_cases htwo : c.toNat < 0x800
  · rw [if_pos htwo]
    refine ⟨_, _, rfl, ?_, List.cons_ne_nil _ _, List.forall_mem_singleton.mpr (htail _)⟩
    rw [toNat_toUInt8 (by omega)]
    omega
  rw [if_neg htwo]
  by_cases hthree : c.toNat < 0x10000
  · rw [if_pos hthree]
    refine ⟨_, _, rfl, ?_, List.cons_ne_nil _ _,
      List.forall_mem_cons.mpr ⟨htail _, List.forall_mem_singleton.mpr (htail _)⟩⟩
    rw [toNat_toUInt8 (by omega)]
    omega
  · rw [if_neg hthree]
    refine ⟨_, _, rfl, ?_, List.cons_ne_nil _ _,
      List.forall_mem_cons.mpr
        ⟨htail _, List.forall_mem_cons.mpr ⟨htail _, List.forall_mem_singleton.mpr (htail _)⟩⟩⟩
    rw [toNat_toUInt8 (by omega)]
    omega

/-- The first byte of some characters is that of the first one. -/
theorem forall_head?_flatMap {cs : List Char} {P : UInt8 → Prop} :
    (∀ b ∈ (cs.flatMap encodeChar).head?, P b) ↔
    ∀ c ∈ cs.head?, ∀ b ∈ (encodeChar c).head?, P b := by
  cases cs with
  | nil => simp
  | cons c cs =>
    obtain ⟨b, rest, hb⟩ := List.exists_cons_of_ne_nil (encodeChar_ne_nil c)
    simp [hb]

/-- The last byte of some characters is that of the last one. -/
theorem forall_getLast?_flatMap {cs : List Char} {P : UInt8 → Prop} :
    (∀ b ∈ (cs.flatMap encodeChar).getLast?, P b) ↔
    ∀ c ∈ cs.getLast?, ∀ b ∈ (encodeChar c).getLast?, P b := by
  rcases List.eq_nil_or_concat' cs with rfl | ⟨cs, c, rfl⟩
  · simp
  · rw [List.flatMap_append, List.flatMap_singleton,
      List.getLast?_append_of_ne_nil _ (encodeChar_ne_nil c), List.getLast?_concat]
    simp

/-! ## Words among characters -/

/-- A way of telling word characters from others by which bytes are told too: each byte is taken for
the character with its code. -/
def Classifies (isWord : Char → Bool) : Prop :=
  ∀ b : UInt8, isWord (Char.ofNat b.toNat) = isWordByte b

/-- Taken byte by byte, the characters of a run that the cursor touches stay together, and stay
apart from the characters next to them. -/
structure ToldApart (pre left right post : List Char) : Prop where
  /-- A character of the run that is beyond ASCII does not begin with `×`, and letters
  continue it. -/
  inside : ∀ c ∈ left ++ right, 0x80 ≤ c.toNat →
    (encodeChar c).head? ≠ some 0xD7 ∧ ∀ b ∈ (encodeChar c).tail, isLetterTail b = true
  /-- One before the run does not end in a letter. -/
  before : ∀ c ∈ pre.getLast?, 0x80 ≤ c.toNat →
    ∀ b ∈ (encodeChar c).getLast?, isLetterTail b = false
  /-- One after the run begins with `×`, as only the characters from `U+05C0` to `U+05FF` do. -/
  after : ∀ c ∈ post.head?, 0x80 ≤ c.toNat → (encodeChar c).head? = some 0xD7

section Characters

variable {isWord : Char → Bool}

/-- The byte of an ASCII character is classified as the character is. -/
theorem Classifies.isWordByte_ascii (hword : Classifies isWord) {c : Char} (h : c.toNat < 0x80) :
    isWordByte c.toNat.toUInt8 = isWord c := by
  rw [← hword, toNat_toUInt8 (by omega), Char.ofNat_toNat]

theorem Classifies.all_iff (hword : Classifies isWord) {c : Char} (hc : isWord c = true) :
    (∀ b ∈ encodeChar c, isWordByte b = true) ↔
      (0x80 ≤ c.toNat → (encodeChar c).head? ≠ some 0xD7 ∧
        ∀ b ∈ (encodeChar c).tail, isLetterTail b = true) := by
  rcases Nat.lt_or_ge c.toNat 0x80 with hascii | hbeyond
  · refine iff_of_true ?_ fun hbeyond => absurd hascii (Nat.not_lt.mpr hbeyond)
    rw [encodeChar_of_lt hascii, List.forall_mem_singleton, hword.isWordByte_ascii hascii, hc]
  · obtain ⟨first, rest, hspelled, ⟨hlow, hhigh⟩, -, htails⟩ := exists_encodeChar_eq hbeyond
    have hrest : (∀ b ∈ rest, isWordByte b = true) ↔ ∀ b ∈ rest, isLetterTail b = true :=
      forall₂_congr fun b hb => by rw [isWordByte_of_isTail (htails b hb)]
    rw [imp_iff_right hbeyond, hspelled, List.forall_mem_cons, isWordByte_of_leads hlow hhigh,
      hrest, List.head?_cons, List.tail_cons, ne_eq, ne_eq, Option.some.injEq]

theorem Classifies.last_iff (hword : Classifies isWord) {c : Char} (hc : isWord c = false) :
    (∀ b ∈ (encodeChar c).getLast?, isWordByte b = false) ↔
      (0x80 ≤ c.toNat → ∀ b ∈ (encodeChar c).getLast?, isLetterTail b = false) := by
  rcases Nat.lt_or_ge c.toNat 0x80 with hascii | hbeyond
  · refine iff_of_true ?_ fun hbeyond => absurd hascii (Nat.not_lt.mpr hbeyond)
    rw [encodeChar_of_lt hascii]
    rintro b ⟨⟩
    exact (hword.isWordByte_ascii hascii).trans hc
  · obtain ⟨first, rest, hspelled, -, hne, htails⟩ := exists_encodeChar_eq hbeyond
    rw [imp_iff_right hbeyond, hspelled, List.getLast?_cons_of_ne_nil hne]
    exact forall₂_congr fun b hb => by
      rw [isWordByte_of_isTail (htails b (List.mem_of_getLast? hb))]

theorem Classifies.first_iff (hword : Classifies isWord) {c : Char} (hc : isWord c = false) :
    (∀ b ∈ (encodeChar c).head?, isWordByte b = false) ↔
      (0x80 ≤ c.toNat → (encodeChar c).head? = some 0xD7) := by
  rcases Nat.lt_or_ge c.toNat 0x80 with hascii | hbeyond
  · refine iff_of_true ?_ fun hbeyond => absurd hascii (Nat.not_lt.mpr hbeyond)
    rw [encodeChar_of_lt hascii]
    rintro b ⟨⟩
    exact (hword.isWordByte_ascii hascii).trans hc
  · obtain ⟨first, rest, hspelled, ⟨hlow, hhigh⟩, -⟩ := exists_encodeChar_eq hbeyond
    have hfirst : isWordByte first = false ↔ first = 0xD7 := by
      rw [← Bool.not_eq_true, isWordByte_of_leads hlow hhigh, ne_eq, Decidable.not_not]
    rw [imp_iff_right hbeyond, hspelled]
    simpa using hfirst

/-- A run of characters is a run of bytes exactly if its characters are told apart from their
neighbours. -/
theorem IsRun.spelled_iff (hword : Classifies isWord) {pre left right post : List Char}
    (h : IsRun isWord pre left right post) :
    IsRun isWordByte (pre.flatMap encodeChar) (left.flatMap encodeChar) (right.flatMap encodeChar)
      (post.flatMap encodeChar) ↔ ToldApart pre left right post := by
  have hinside : (∀ b ∈ left.flatMap encodeChar ++ right.flatMap encodeChar, isWordByte b = true) ↔
      ∀ c ∈ left ++ right, 0x80 ≤ c.toNat →
        (encodeChar c).head? ≠ some 0xD7 ∧ ∀ b ∈ (encodeChar c).tail, isLetterTail b = true := by
    rw [← List.flatMap_append, List.forall_mem_flatMap]
    exact forall₂_congr fun c hc => hword.all_iff (h.inside c hc)
  have hbefore : (∀ b ∈ (pre.flatMap encodeChar).getLast?, isWordByte b = false) ↔
      ∀ c ∈ pre.getLast?, 0x80 ≤ c.toNat →
        ∀ b ∈ (encodeChar c).getLast?, isLetterTail b = false := by
    rw [forall_getLast?_flatMap]
    exact forall₂_congr fun c hc => hword.last_iff (h.before c hc)
  have hafter : (∀ b ∈ (post.flatMap encodeChar).head?, isWordByte b = false) ↔
      ∀ c ∈ post.head?, 0x80 ≤ c.toNat → (encodeChar c).head? = some 0xD7 := by
    rw [forall_head?_flatMap]
    exact forall₂_congr fun c hc => hword.first_iff (h.after c hc)
  constructor
  · intro hbytes
    exact ⟨hinside.mp hbytes.inside, hbefore.mp hbytes.before, hafter.mp hbytes.after⟩
  · intro hapart
    exact ⟨hinside.mpr hapart.inside, hbefore.mpr hapart.before, hafter.mpr hapart.after⟩

/-- The characters of a line before and after a column, and among them the run of word characters
that a cursor there touches. -/
structure RunAt (isWord : Char → Bool) (line : Bytes) (column : Nat)
    (pre left right post : List Char) : Prop where
  before : line.take column = (pre ++ left).flatMap encodeChar
  after : line.drop column = (right ++ post).flatMap encodeChar
  isRun : IsRun isWord pre left right post

/-- Between two characters of a line that is UTF-8, a cursor touches a run. -/
theorem exists_runAt {line : Bytes} {column : Nat} (hline : isUtf8 line = true)
    (hcolumn : isUtf8 (line.take column) = true) :
    ∃ pre left right post, RunAt isWord line column pre left right post := by
  have hrest : isUtf8 (line.drop column) = true := by
    rwa [← isUtf8_append_eq hcolumn, List.take_append_drop]
  obtain ⟨before, hbefore⟩ := isUtf8_iff.mp hcolumn
  obtain ⟨after, hafter⟩ := isUtf8_iff.mp hrest
  obtain ⟨pre, left, right, post, rfl, rfl, hrun⟩ := exists_isRun isWord before after
  exact ⟨pre, left, right, post, hbefore, hafter, hrun⟩

/-- The characters of a line of ASCII are ASCII. -/
theorem RunAt.lt_of_ascii {line : Bytes} {column : Nat} {pre left right post : List Char}
    (h : RunAt isWord line column pre left right post) (hascii : ∀ b ∈ line, b < 128) :
    ∀ c ∈ (pre ++ left) ++ (right ++ post), c.toNat < 0x80 := by
  intro c hc
  by_contra hbeyond
  obtain ⟨first, rest, hspelled, ⟨hlow, -⟩, -⟩ := exists_encodeChar_eq (Nat.not_lt.mp hbeyond)
  have hfirst : first ∈ line := by
    rw [← List.take_append_drop column line, h.before, h.after, ← List.flatMap_append]
    exact List.mem_flatMap.mpr ⟨c, hc, hspelled ▸ List.mem_cons_self⟩
  have hlt : first.toNat < 128 := UInt8.lt_iff_toNat_lt.mp (hascii first hfirst)
  omega

theorem RunAt.toldApart_of_ascii {line : Bytes} {column : Nat} {pre left right post : List Char}
    (h : RunAt isWord line column pre left right post) (hascii : ∀ b ∈ line, b < 128) :
    ToldApart pre left right post := by
  have hlt := h.lt_of_ascii hascii
  simp only [List.forall_mem_append] at hlt
  obtain ⟨⟨hpre, hleft⟩, hright, hpost⟩ := hlt
  constructor
  · intro c hc hbeyond
    exact absurd hbeyond (Nat.not_le.mpr (List.forall_mem_append.mpr ⟨hleft, hright⟩ c hc))
  · intro c hc hbeyond
    exact absurd hbeyond (Nat.not_le.mpr (hpre c (List.mem_of_getLast? hc)))
  · intro c hc hbeyond
    exact absurd hbeyond (Nat.not_le.mpr (hpost c (List.mem_of_head? hc)))

/-- Where a cursor stands between two characters of a document that is UTF-8, it touches a run of
word characters, and the word there is this run exactly if its characters are told apart from their
neighbours. In a line of ASCII they always are. Whatever they are, the word is the run of word bytes
that the cursor touches, and the word before the cursor is the part of it on the left. -/
theorem wordAt_iff_toldApart (hword : Classifies isWord) {text line : Bytes}
    (htext : isUtf8 text = true) {p : Position} (hline : (documentLines text)[p.line]? = some line)
    (hcolumn : isUtf8 (line.take p.character) = true) :
    (∃ pre left right post, RunAt isWord line p.character pre left right post) ∧
    (∀ pre left right post, RunAt isWord line p.character pre left right post →
      (wordBefore text p = left.flatMap encodeChar ∧
        wordAt text p = (left ++ right).flatMap encodeChar ↔
        ToldApart pre left right post) ∧
      ((∀ b ∈ line, b < 128) → ToldApart pre left right post)) ∧
    ∃ u v w, line.take p.character = u ++ wordBefore text p ∧ line.drop p.character = v ++ w ∧
      wordAt text p = wordBefore text p ++ v ∧ IsRun isWordByte u (wordBefore text p) v w := by
  have hutf8 : isUtf8 line = true := by
    have hended : isUtf8 (text ++ [10]) = true := isUtf8_append htext (by decide)
    refine isUtf8_of_mem_split (d := 10) (by decide) hended ?_
    rw [← documentLines_eq_split]
    exact List.mem_of_getElem? hline
  refine ⟨exists_runAt hutf8 hcolumn, ?_, ?_⟩
  · intro pre left right post hrun
    have hbefore := hrun.before
    have hafter := hrun.after
    rw [List.flatMap_append] at hbefore hafter
    refine ⟨?_, hrun.toldApart_of_ascii⟩
    rw [List.flatMap_append, words_iff_isRun hline hbefore hafter, hrun.isRun.spelled_iff hword]
  · obtain ⟨u, left, v, w, hbefore, hafter, hrun⟩ :=
      exists_isRun isWordByte (line.take p.character) (line.drop p.character)
    obtain ⟨rfl, hwhole⟩ := (words_iff_isRun hline hbefore hafter).mpr hrun
    exact ⟨u, v, w, hbefore, hafter, hwhole, hrun⟩

end Characters

/-- Classifies the characters below 256 as their bytes are, and takes no other for a word
character. -/
def isLatinWord (c : Char) : Bool := c.toNat < 256 && isWordByte c.toNat.toUInt8

theorem classifies_isLatinWord : Classifies isLatinWord := by
  intro b
  have hb : b.toNat < 256 := b.toNat_lt
  rw [isLatinWord, toNat_ofNat (by omega), toUInt8_eq rfl, decide_eq_true hb, Bool.true_and]

/-- The two bytes of `ê` are both letters, so the word around it is whole. -/
theorem wordAt_iff_toldApart_circumflex :
    let text := utf8 "EXIT\nfête 7"
    let p : Position := ⟨1, 3⟩
    isUtf8 text = true ∧ (documentLines text)[p.line]? = some (utf8 "fête 7") ∧
      RunAt isLatinWord (utf8 "fête 7") p.character [] ['f', 'ê'] ['t', 'e'] [' ', '7'] ∧
      wordBefore text p = utf8 "fê" ∧ wordAt text p = utf8 "fête" := by
  intro text p
  have htext : isUtf8 text = true := by decide
  have hline : (documentLines text)[p.line]? = some (utf8 "fête 7") := by
    rw [documentLines, pieces_eq_splitOn]
    decide
  have hrun : RunAt isLatinWord (utf8 "fête 7") p.character [] ['f', 'ê'] ['t', 'e'] [' ', '7'] :=
    ⟨by decide, by decide, List.all_eq_true.mp (by decide), by simp, by
      simp [show isLatinWord ' ' = false by decide]⟩
  have hspelled : encodeChar 'ê' = [0xC3, 0xAA] := by decide
  have hapart : ToldApart [] ['f', 'ê'] ['t', 'e'] [' ', '7'] :=
    ⟨by simp [hspelled, isLetterTail], by simp, by simp⟩
  obtain ⟨-, hwhole, -⟩ :=
    wordAt_iff_toldApart classifies_isLatinWord htext hline (by decide)
  exact ⟨htext, hline, hrun, (hwhole _ _ _ _ hrun).1.mpr hapart⟩

/-- Before the letter `é` a cursor touches the run of just this letter, but the word there is the
first of its two bytes, which is no text in UTF-8. -/
theorem wordAt_halfLetter :
    let text := utf8 "é"
    let p : Position := ⟨0, 0⟩
    isUtf8 text = true ∧ (documentLines text)[p.line]? = some text ∧
    isUtf8 (text.take p.character) = true ∧
      (∀ isWord, Classifies isWord → RunAt isWord text p.character [] [] ['é'] []) ∧
      wordAt text p ≠ ['é'].flatMap encodeChar ∧ wordAt text p = [0xC3] ∧
      isUtf8 (wordAt text p) = false := by
  intro text p
  have hline : (documentLines text)[p.line]? = some text := by
    rw [documentLines, pieces_eq_splitOn]
    decide
  have hword : wordAt text p = [0xC3] := by
    rw [wordAt_eq hline]
    decide
  refine ⟨by decide, hline, by decide, ?_, ?_, hword, ?_⟩
  · intro isWord hclass
    have hletter : isWord 'é' = true := hclass 0xE9
    exact ⟨rfl, by decide, by simpa using hletter, by simp, by simp⟩
  · rw [hword]
    decide
  · rw [hword]
    decide

end StackMachine.Editor
