import StackMachine.Proofs.Splitting
import StackMachine.Proofs.Words

/-!
# Texts that are UTF-8

Whether a text is UTF-8 is found out by reading its symbols from the left. `isUtf8_iff` replaces
this by what it comes to: a text is UTF-8 exactly if it is spelled by some characters, one after the
other. Reading the first character undoes writing it (`firstChar?_encodeChar`), and there is no
other way to write what was read (`firstChar?_eq_some`); both follow from the four forms that a
character can have.

A byte below 128 is a character of its own and never part of another one. So texts may be put
together, and cut at such bytes, without leaving UTF-8 (`isUtf8_append`, `isUtf8_of_mem_split`). A
quotation is UTF-8 whatever it quotes.
-/

namespace StackMachine.Text

/-! ## The four forms of a character -/

theorem isTail_iff (b : UInt8) : isTail b = true ↔ 0x80 ≤ b.toNat ∧ b.toNat ≤ 0xBF := by
  simp [isTail, UInt8.le_iff_toNat_le]

/-- The ranges of the second byte of a character, by the first one. -/
theorem isSecond_iff (a b : UInt8) : isSecond a b = true ↔
    (0x80 ≤ b.toNat ∧ b.toNat ≤ 0xBF) ∧ (a.toNat = 0xE0 → 0xA0 ≤ b.toNat) ∧
      (a.toNat = 0xED → b.toNat ≤ 0x9F) ∧ (a.toNat = 0xF0 → 0x90 ≤ b.toNat) ∧
      (a.toNat = 0xF4 → b.toNat ≤ 0x8F) := by
  unfold isSecond isTail
  simp only [← UInt8.toNat_inj, UInt8.le_iff_toNat_le, UInt8.reduceToNat]
  by_cases hE0 : a.toNat = 0xE0
  · simp [hE0]
    omega
  by_cases hED : a.toNat = 0xED
  · simp [hED]
    omega
  by_cases hF0 : a.toNat = 0xF0
  · simp [hF0]
    omega
  by_cases hF4 : a.toNat = 0xF4
  · simp [hF4]
    omega
  · simp [hE0, hED, hF0, hF4]

theorem firstChar?_one {a : UInt8} (rest : Bytes) (ha : a.toNat < 0x80) :
    firstChar? (a :: rest) = some (Char.ofNat a.toNat, 1) := by
  have hlow : a < 0x80 := UInt8.lt_iff_toNat_lt.mpr ha
  cases rest <;> simp [firstChar?, hlow]

theorem firstChar?_two {a b : UInt8} (rest : Bytes) (ha : 0xC2 ≤ a.toNat ∧ a.toNat ≤ 0xDF)
    (hb : isTail b = true) :
    firstChar? (a :: b :: rest) = some (Char.ofNat (a.toNat % 0x20 * 0x40 + payload b), 2) := by
  have hhigh : ¬ a.toNat < 0x80 := by omega
  simp [firstChar?, UInt8.lt_iff_toNat_lt, UInt8.le_iff_toNat_le, hhigh, ha, hb]

theorem firstChar?_three {a b c : UInt8} (rest : Bytes) (ha : 0xE0 ≤ a.toNat ∧ a.toNat ≤ 0xEF)
    (hb : isSecond a b = true) (hc : isTail c = true) :
    firstChar? (a :: b :: c :: rest) =
      some (Char.ofNat (a.toNat % 0x10 * 0x1000 + payload b * 0x40 + payload c), 3) := by
  have hhigh : ¬ a.toNat < 0x80 := by omega
  have htwo : ¬ a.toNat ≤ 0xDF := by omega
  simp [firstChar?, UInt8.lt_iff_toNat_lt, UInt8.le_iff_toNat_le, hhigh, htwo, ha, hb, hc]

theorem firstChar?_four {a b c d : UInt8} (rest : Bytes) (ha : 0xF0 ≤ a.toNat ∧ a.toNat ≤ 0xF4)
    (hb : isSecond a b = true) (hc : isTail c = true) (hd : isTail d = true) :
    firstChar? (a :: b :: c :: d :: rest) =
      some (Char.ofNat
        (a.toNat % 0x08 * 0x40000 + payload b * 0x1000 + payload c * 0x40 + payload d),
        4) := by
  have hhigh : ¬ a.toNat < 0x80 := by omega
  have htwo : ¬ a.toNat ≤ 0xDF := by omega
  have hthree : ¬ a.toNat ≤ 0xEF := by omega
  simp [firstChar?, UInt8.lt_iff_toNat_lt, UInt8.le_iff_toNat_le, hhigh, htwo, hthree, ha, hb, hc,
    hd]

/-! ## Reading and writing one character -/

/-- The character at the start of a text is read as it was written. -/
theorem firstChar?_encodeChar (c : Char) (rest : Bytes) :
    firstChar? (encodeChar c ++ rest) = some (c, (encodeChar c).length) := by
  have hvalid : c.toNat < 0xD800 ∨ 0xDFFF < c.toNat ∧ c.toNat < 0x110000 := c.valid
  have hback : Char.ofNat c.toNat = c := Char.ofNat_toNat c
  unfold encodeChar
  generalize c.toNat = n at *
  dsimp only
  have hlast : ∀ m, (0x80 + m % 0x40).toUInt8.toNat = 0x80 + m % 0x40 :=
    fun m => toNat_toUInt8 (by omega)
  have htail : ∀ m, isTail (0x80 + m % 0x40).toUInt8 = true := by
    intro m
    rw [isTail_iff, hlast]
    omega
  have hpayload : ∀ m, payload (0x80 + m % 0x40).toUInt8 = m % 0x40 := by
    intro m
    rw [payload, hlast]
    omega
  -- by the number of bytes, each of which leaves the ranges of the shorter forms
  by_cases h1 : n < 0x80
  · have ha : n.toUInt8.toNat = n := toNat_toUInt8 (by omega)
    rw [if_pos h1, List.singleton_append, firstChar?_one rest (by omega), ha, hback]
    rfl
  rw [if_neg h1]
  by_cases h2 : n < 0x800
  · have ha : (0xC0 + n / 0x40).toUInt8.toNat = 0xC0 + n / 0x40 := toNat_toUInt8 (by omega)
    have hn : (0xC0 + n / 0x40) % 0x20 * 0x40 + n % 0x40 = n := by omega
    rw [if_pos h2, List.cons_append, List.cons_append, firstChar?_two _ (by omega) (htail n), ha,
      hpayload, hn, hback]
    rfl
  rw [if_neg h2]
  by_cases h3 : n < 0x10000
  · have ha : (0xE0 + n / 0x1000).toUInt8.toNat = 0xE0 + n / 0x1000 := toNat_toUInt8 (by omega)
    have hn : (0xE0 + n / 0x1000) % 0x10 * 0x1000 + n / 0x40 % 0x40 * 0x40 + n % 0x40 = n := by
      omega
    have hsecond :
        isSecond (0xE0 + n / 0x1000).toUInt8 (0x80 + n / 0x40 % 0x40).toUInt8 = true := by
      rw [isSecond_iff, ha, hlast]
      omega
    rw [if_pos h3, List.cons_append, List.cons_append, List.cons_append,
      firstChar?_three _ (by omega) hsecond (htail n), ha, hpayload, hpayload, hn, hback]
    rfl
  · have ha : (0xF0 + n / 0x40000).toUInt8.toNat = 0xF0 + n / 0x40000 := toNat_toUInt8 (by omega)
    have hn : (0xF0 + n / 0x40000) % 0x08 * 0x40000 + n / 0x1000 % 0x40 * 0x1000
        + n / 0x40 % 0x40 * 0x40 + n % 0x40 = n := by omega
    have hsecond :
        isSecond (0xF0 + n / 0x40000).toUInt8 (0x80 + n / 0x1000 % 0x40).toUInt8 = true := by
      rw [isSecond_iff, ha, hlast]
      omega
    rw [if_neg h3, List.cons_append, List.cons_append, List.cons_append, List.cons_append,
      firstChar?_four _ (by omega) hsecond (htail _) (htail n), ha, hpayload, hpayload, hpayload,
      hn, hback]
    rfl

theorem encodeChar_ofNat_one {a : UInt8} (ha : a.toNat < 0x80) :
    encodeChar (Char.ofNat a.toNat) = [a] := by
  rw [encodeChar, toNat_ofNat (by omega), if_pos ha, toUInt8_eq rfl]

theorem encodeChar_ofNat_two {a b : UInt8} (ha : 0xC2 ≤ a.toNat ∧ a.toNat ≤ 0xDF)
    (hb : isTail b = true) :
    encodeChar (Char.ofNat (a.toNat % 0x20 * 0x40 + payload b)) = [a, b] := by
  rw [isTail_iff] at hb
  rw [payload, encodeChar, toNat_ofNat (by omega), if_neg (by omega), if_pos (by omega),
    toUInt8_eq (b := a) (by omega), toUInt8_eq (b := b) (by omega)]

theorem encodeChar_ofNat_three {a b c : UInt8} (ha : 0xE0 ≤ a.toNat ∧ a.toNat ≤ 0xEF)
    (hb : isSecond a b = true) (hc : isTail c = true) :
    encodeChar (Char.ofNat (a.toNat % 0x10 * 0x1000 + payload b * 0x40 + payload c)) =
      [a, b, c] := by
  rw [isTail_iff] at hc
  rw [isSecond_iff] at hb
  rw [payload, payload, encodeChar, toNat_ofNat (by omega), if_neg (by omega), if_neg (by omega),
    if_pos (by omega), toUInt8_eq (b := a) (by omega), toUInt8_eq (b := b) (by omega),
    toUInt8_eq (b := c) (by omega)]

theorem encodeChar_ofNat_four {a b c d : UInt8} (ha : 0xF0 ≤ a.toNat ∧ a.toNat ≤ 0xF4)
    (hb : isSecond a b = true) (hc : isTail c = true) (hd : isTail d = true) :
    encodeChar (Char.ofNat (a.toNat % 0x08 * 0x40000 + payload b * 0x1000 + payload c * 0x40
      + payload d)) = [a, b, c, d] := by
  rw [isTail_iff] at hc hd
  rw [isSecond_iff] at hb
  rw [payload, payload, payload, encodeChar, toNat_ofNat (by omega), if_neg (by omega),
    if_neg (by omega),
    if_neg (by omega), toUInt8_eq (b := a) (by omega), toUInt8_eq (b := b) (by omega),
    toUInt8_eq (b := c) (by omega), toUInt8_eq (b := d) (by omega)]

/-- The character that is read is written in the bytes it was read from. -/
theorem firstChar?_eq_some {t : Bytes} {c : Char} {n : Nat} (h : firstChar? t = some (c, n)) :
    t = encodeChar c ++ t.drop n ∧ n = (encodeChar c).length := by
  revert h
  fun_cases firstChar? t with
  | case2 a rest ha =>
    rintro ⟨rfl, rfl⟩
    rw [encodeChar_ofNat_one (UInt8.lt_iff_toNat_lt.mp ha)]
    exact ⟨rfl, rfl⟩
  | case4 a ha b rest hlead hb =>
    simp only [Bool.and_eq_true, decide_eq_true_eq, UInt8.le_iff_toNat_le] at hlead
    rintro ⟨rfl, rfl⟩
    rw [encodeChar_ofNat_two hlead hb]
    exact ⟨rfl, rfl⟩
  | case7 a ha b hlead' c rest hlead htails =>
    simp only [Bool.and_eq_true, decide_eq_true_eq, UInt8.le_iff_toNat_le] at hlead htails
    rintro ⟨rfl, rfl⟩
    rw [encodeChar_ofNat_three hlead htails.1 htails.2]
    exact ⟨rfl, rfl⟩
  | case10 a ha b hlead' c hlead'' d rest hall =>
    simp only [Bool.and_eq_true, decide_eq_true_eq, UInt8.le_iff_toNat_le] at hall
    obtain ⟨⟨⟨hlead, hb⟩, hc⟩, hd⟩ := hall
    rintro ⟨rfl, rfl⟩
    rw [encodeChar_ofNat_four hlead hb hc hd]
    exact ⟨rfl, rfl⟩
  | case1 | case3 | case5 | case6 | case8 | case9 | case11 => rintro ⟨⟩

/-! ## Symbols -/

theorem encodeChar_ne_nil (c : Char) : encodeChar c ≠ [] := by
  unfold encodeChar
  dsimp only
  split
  · simp
  · split
    · simp
    · split <;> simp

/-- Bytes that belong to a symbol already read are skipped. -/
theorem symbolsFrom_eq (skip : Nat) (t : Bytes) : symbolsFrom skip t = symbols (t.drop skip) := by
  induction t generalizing skip with
  | nil => cases skip <;> rfl
  | cons a rest ih =>
    cases skip with
    | zero => rfl
    | succ skip => exact ih skip

/-- A character is read in one piece. -/
theorem symbols_encodeChar_append (c : Char) (t : Bytes) :
    symbols (encodeChar c ++ t) = .char c :: symbols t := by
  obtain ⟨a, rest, hcons⟩ := List.exists_cons_of_ne_nil (encodeChar_ne_nil c)
  have hfirst := firstChar?_encodeChar c t
  rw [hcons, List.cons_append] at hfirst
  have hdrop : (rest ++ t).drop ((a :: rest).length - 1) = t := by simp
  rw [hcons, List.cons_append, symbols, symbolsFrom, firstSymbol, hfirst]
  dsimp only
  rw [symbolsFrom_eq, hdrop]

@[simp]
theorem isUtf8_nil : isUtf8 [] = true := rfl

@[simp]
theorem isUtf8_encodeChar_append (c : Char) (t : Bytes) :
    isUtf8 (encodeChar c ++ t) = isUtf8 t := by
  rw [isUtf8, symbols_encodeChar_append, List.all_cons, Bool.true_and, isUtf8]

/-- Whole characters at the beginning of a text do not matter. -/
theorem isUtf8_characters_append (cs : List Char) (t : Bytes) :
    isUtf8 (cs.flatMap encodeChar ++ t) = isUtf8 t := by
  induction cs with
  | nil => rfl
  | cons c cs ih => rw [List.flatMap_cons, List.append_assoc, isUtf8_encodeChar_append, ih]

/-- A text that is UTF-8 and not empty begins with a character. -/
theorem exists_char_of_isUtf8 {a : UInt8} {rest : Bytes} (h : isUtf8 (a :: rest) = true) :
    ∃ c t, a :: rest = encodeChar c ++ t ∧ isUtf8 t = true := by
  cases hfirst : firstChar? (a :: rest) with
  | none =>
    rw [isUtf8, symbols, symbolsFrom, firstSymbol, hfirst] at h
    simp at h
  | some x =>
    obtain ⟨c, n⟩ := x
    have ht := (firstChar?_eq_some hfirst).1
    refine ⟨c, _, ht, ?_⟩
    rw [ht, isUtf8_encodeChar_append] at h
    exact h

/-- A text is UTF-8 exactly if characters spell it. -/
theorem isUtf8_iff {t : Bytes} : isUtf8 t = true ↔ ∃ cs : List Char, t = cs.flatMap encodeChar := by
  constructor
  · intro h
    -- on the length: what follows the first character is shorter by at least one byte
    induction hlength : t.length using Nat.strongRecOn generalizing t with
    | ind n ih =>
      cases t with
      | nil => exact ⟨[], rfl⟩
      | cons a rest =>
        obtain ⟨c, t, ht, hutf8⟩ := exists_char_of_isUtf8 h
        have hshorter : t.length < n := by
          have hpos := List.length_pos_iff.mpr (encodeChar_ne_nil c)
          rw [ht, List.length_append] at hlength
          omega
        obtain ⟨cs, hcs⟩ := ih t.length hshorter hutf8 rfl
        exact ⟨c :: cs, by rw [ht, hcs, List.flatMap_cons]⟩
  · rintro ⟨cs, rfl⟩
    rw [← List.append_nil (cs.flatMap encodeChar), isUtf8_characters_append]
    rfl

/-! ## Texts put together -/

-- A rewriting rule rather than a fact about both parts, so that `simp` can follow a long text to
-- its end.
@[simp]
theorem isUtf8_append_eq {s : Bytes} (hs : isUtf8 s = true) (t : Bytes) :
    isUtf8 (s ++ t) = isUtf8 t := by
  obtain ⟨cs, rfl⟩ := isUtf8_iff.mp hs
  exact isUtf8_characters_append cs t

theorem isUtf8_append {s t : Bytes} (hs : isUtf8 s = true) (ht : isUtf8 t = true) :
    isUtf8 (s ++ t) = true := by
  rw [isUtf8_append_eq hs, ht]

theorem isUtf8_flatten {ts : List Bytes} (h : ∀ t ∈ ts, isUtf8 t = true) :
    isUtf8 ts.flatten = true := by
  induction ts with
  | nil => rfl
  | cons t ts ih =>
    rw [List.forall_mem_cons] at h
    exact isUtf8_append h.1 (ih h.2)

theorem isUtf8_flatMap {α : Type} {xs : List α} {f : α → Bytes}
    (h : ∀ x ∈ xs, isUtf8 (f x) = true) :
    isUtf8 (xs.flatMap f) = true := by
  apply isUtf8_flatten
  intro t ht
  obtain ⟨x, hx, rfl⟩ := List.mem_map.mp ht
  exact h x hx

@[simp]
theorem isUtf8_encodeChar (c : Char) : isUtf8 (encodeChar c) = true :=
  isUtf8_iff.mpr ⟨[c], by simp⟩

/-- The wording of messages is UTF-8. -/
@[simp]
theorem isUtf8_utf8 (s : String) : isUtf8 (utf8 s) = true := isUtf8_iff.mpr ⟨s.toList, rfl⟩

theorem isUtf8_of_ascii {t : Bytes} (h : ∀ b ∈ t, b < 128) : isUtf8 t = true := by
  refine isUtf8_iff.mpr ⟨t.map fun b => Char.ofNat b.toNat, ?_⟩
  induction t with
  | nil => rfl
  | cons b t ih =>
    rw [List.forall_mem_cons] at h
    rw [List.map_cons, List.flatMap_cons, encodeChar_ofNat_one (UInt8.lt_iff_toNat_lt.mp h.1),
      ← ih h.2]
    rfl

theorem isUtf8_replicate {b : UInt8} (hb : b < 128) (n : Nat) :
    isUtf8 (List.replicate n b) = true := by
  apply isUtf8_of_ascii
  intro c hc
  rw [List.eq_of_mem_replicate hc]
  exact hb

/-! ## Texts cut at a byte below 128 -/

/-- A character is one byte below 128, or has no such byte. -/
theorem encodeChar_cases (c : Char) :
    (∃ b, encodeChar c = [b]) ∨ ∀ b ∈ encodeChar c, ¬ b < 128 := by
  have hvalid : c.toNat < 0xD800 ∨ 0xDFFF < c.toNat ∧ c.toNat < 0x110000 := c.valid
  have hhigh : ∀ m, 128 ≤ m → m < 256 → ¬ m.toUInt8 < 128 := by
    intro m hlow hm
    rw [UInt8.lt_iff_toNat_lt, toNat_toUInt8 hm]
    exact Nat.not_lt.mpr hlow
  unfold encodeChar
  dsimp only
  split
  · exact .inl ⟨_, rfl⟩
  · right
    split
    · simp only [List.forall_mem_cons, List.not_mem_nil, false_imp_iff, implies_true, and_true]
      exact ⟨hhigh _ (by omega) (by omega), hhigh _ (by omega) (by omega)⟩
    · split
      · simp only [List.forall_mem_cons, List.not_mem_nil, false_imp_iff, implies_true, and_true]
        exact ⟨hhigh _ (by omega) (by omega), hhigh _ (by omega) (by omega),
          hhigh _ (by omega) (by omega)⟩
      · simp only [List.forall_mem_cons, List.not_mem_nil, false_imp_iff, implies_true, and_true]
        exact ⟨hhigh _ (by omega) (by omega), hhigh _ (by omega) (by omega),
          hhigh _ (by omega) (by omega), hhigh _ (by omega) (by omega)⟩

/-- What stands before and after a byte below 128 in a text that is UTF-8 is UTF-8 itself. -/
theorem isUtf8_of_cut {d : UInt8} (hd : d < 128) {s t : Bytes} (h : isUtf8 (s ++ d :: t) = true) :
    isUtf8 s = true ∧ isUtf8 t = true := by
  obtain ⟨cs, hcs⟩ := isUtf8_iff.mp h
  clear h
  induction cs generalizing s with
  | nil => simp at hcs
  | cons c cs ih =>
    rw [List.flatMap_cons, List.append_eq_append_iff] at hcs
    rcases hcs with ⟨u, hc, hrest⟩ | ⟨u, rfl, hrest⟩
    · -- the byte lies in the first character, unless that ends before it
      cases u with
      | nil =>
        rw [List.append_nil] at hc
        rw [List.nil_append] at hrest
        exact ⟨hc ▸ isUtf8_encodeChar c, (ih (s := []) hrest).2⟩
      | cons b u =>
        obtain ⟨rfl, rfl⟩ := List.cons.inj hrest
        rcases encodeChar_cases c with ⟨b, hb⟩ | hhigh
        · rw [hb] at hc
          have hs : s = [] := by cases s <;> simp_all
          have hu : u = [] := by cases s <;> simp_all
          rw [hs, hu]
          exact ⟨rfl, isUtf8_iff.mpr ⟨cs, rfl⟩⟩
        · exact absurd hd (hhigh d (by rw [hc]; simp))
    · rw [isUtf8_encodeChar_append]
      exact ih hrest.symm

/-- The parts of a text that is UTF-8 are UTF-8. -/
theorem isUtf8_of_mem_split {d : UInt8} (hd : d < 128) {t p : Bytes} (ht : isUtf8 t = true)
    (hp : p ∈ split t d) : isUtf8 p = true := by
  have hended : isUtf8 (t ++ [d]) = true := isUtf8_append ht (isUtf8_of_ascii (by simpa using hd))
  have hparts : isUtf8 ((split t d).flatMap (· ++ [d])) = true := by
    rcases flatMap_split hd t with h | h
    · rw [← h]
      exact ht
    · rw [← h]
      exact hended
  -- what is left of the text is cut at its first delimiter, part by part
  generalize split t d = parts at hp hparts
  induction parts with
  | nil => cases hp
  | cons q parts ih =>
    rw [List.flatMap_cons, List.append_assoc, List.singleton_append] at hparts
    obtain ⟨hq, hrest⟩ := isUtf8_of_cut hd hparts
    rcases List.mem_cons.mp hp with rfl | hp
    · exact hq
    · exact ih hp hrest

/-! ## Numbers and quotations -/

@[simp]
theorem isUtf8_decimal (n : Nat) : isUtf8 (decimal n) = true := by
  apply isUtf8_of_ascii
  intro b hb
  exact UInt8.lt_of_le_of_lt (Numeral.digits_decimal n b hb).2 (by decide)

@[simp]
theorem isUtf8_word (v : Int64) : isUtf8 (word v) = true := by
  unfold word signed
  split
  · exact isUtf8_append (s := [ascii '-']) (by decide) (isUtf8_decimal _)
  · exact isUtf8_decimal _

@[simp]
theorem isUtf8_line {t : Bytes} (h : isUtf8 t = true) : isUtf8 (line t) = true :=
  isUtf8_append h (by decide)

theorem hexDigit_lt (n : Nat) : hexDigit n < 128 := by
  unfold hexDigit
  split
  · rw [UInt8.lt_iff_toNat_lt, toNat_toUInt8 (by omega)]
    exact Nat.lt_trans (m := 58) (by omega) (by decide)
  · rw [UInt8.lt_iff_toNat_lt, toNat_toUInt8 (by omega)]
    exact Nat.lt_trans (m := 103) (by omega) (by decide)

theorem hexDigits_lt (width n : Nat) : ∀ b ∈ hexDigits width n, b < 128 := by
  induction width generalizing n with
  | zero => simp [hexDigits]
  | succ width ih =>
    intro b hb
    rw [hexDigits, List.mem_append, List.mem_singleton] at hb
    rcases hb with hb | rfl
    · exact ih _ b hb
    · exact hexDigit_lt n

theorem isUtf8_hexDigits (width n : Nat) : isUtf8 (hexDigits width n) = true :=
  isUtf8_of_ascii (hexDigits_lt width n)

theorem controlLetter?_lt {c : Char} {letter : UInt8} (h : controlLetter? c = some letter) :
    letter < 128 := by
  unfold controlLetter? at h
  split at h <;> cases h <;> decide

theorem isUtf8_escape (u : Symbol) : isUtf8 (escape u) = true := by
  have hslash : ∀ {t : Bytes}, isUtf8 t = true → isUtf8 (backslash :: t) = true :=
    fun ht => isUtf8_append (s := [backslash]) (by decide) ht
  have hmarked : ∀ (mark : UInt8) (width n : Nat), mark < 128 →
      isUtf8 (backslash :: mark :: hexDigits width n) = true := by
    intro mark width n hmark
    apply hslash
    exact isUtf8_append (s := [mark]) (isUtf8_of_ascii (by simpa using hmark))
      (isUtf8_hexDigits _ _)
  cases u with
  | stray b => exact hmarked _ _ _ (by decide)
  | char c =>
    show isUtf8 (escapeChar c) = true
    unfold escapeChar
    split
    · exact hslash (isUtf8_encodeChar c)
    · split
      · exact isUtf8_encodeChar c
      · split
        · next letter hletter =>
          exact hslash (isUtf8_of_ascii (by simpa using controlLetter?_lt hletter))
        · split
          · exact hmarked _ _ _ (by decide)
          · split
            · exact hmarked _ _ _ (by decide)
            · exact hmarked _ _ _ (by decide)

/-- A quotation is UTF-8, whatever it quotes. -/
@[simp]
theorem isUtf8_quoted (t : Bytes) : isUtf8 (quoted t) = true := by
  have hmark : isUtf8 [quoteMark] = true := by decide
  have hbody : isUtf8 ((symbols t).flatMap escape) = true :=
    isUtf8_flatMap fun u _ => isUtf8_escape u
  exact isUtf8_append (isUtf8_append hmark hbody) hmark

end StackMachine.Text
