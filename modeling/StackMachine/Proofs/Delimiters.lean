import Mathlib.Data.List.Infix
import StackMachine.Text.Split

/-!
# Texts cut at a delimiter

A text is cut where the encoded form of the delimiter occurs, which from 128 on is two bytes long.
`CutsInto` says what the parts have to be: none of them contains the separator, and when each of
them is ended by the separator they make up the text, which the separator need not end itself. There
is one such list of parts for every text, and `split` finds it (`split_iff_cutsInto`).

That there is no second one hangs on the separator: its first byte does not occur in it again
(`exists_separator_eq_cons`), so an occurrence of it cannot begin inside a part and end in the
separator behind the part (`prefix_of_prefix_append`). The text need not be UTF-8 for this, and half
a separator in it cuts nothing.
-/

namespace StackMachine.Text

/-! ## What a text begins with -/

theorem dropPrefix?_eq_some_iff {start t rest : Bytes} :
    dropPrefix? start t = some rest ↔ t = start ++ rest := by
  induction start generalizing t with
  | nil => simp [dropPrefix?]
  | cons a start ih =>
    cases t with
    | nil => simp [dropPrefix?]
    | cons b t =>
      rw [dropPrefix?, List.cons_append, List.cons.injEq]
      by_cases hab : a = b
      · rw [if_pos hab, ih]
        exact (and_iff_right hab.symm).symm
      · rw [if_neg hab]
        exact iff_of_false (Option.some_ne_none rest ∘ Eq.symm) fun h => hab h.1.symm

/-- A text begins with another exactly if something is left of it after the other. -/
theorem isSome_dropPrefix? {start t : Bytes} :
    (dropPrefix? start t).isSome = true ↔ start <+: t := by
  rw [Option.isSome_iff_exists]
  constructor
  · rintro ⟨rest, hrest⟩
    exact ⟨rest, (dropPrefix?_eq_some_iff.mp hrest).symm⟩
  · rintro ⟨rest, hrest⟩
    exact ⟨rest, dropPrefix?_eq_some_iff.mpr hrest.symm⟩

/-- Where a property holds in front and fails at what follows, the text is cut between the two. -/
theorem span_append {α : Type} {p : α → Bool} {front back : List α}
    (hfront : ∀ a ∈ front, p a = true) (hback : ∀ a ∈ back.head?, p a = false) :
    (front ++ back).takeWhile p = front ∧ (front ++ back).dropWhile p = back := by
  rw [List.takeWhile_append_of_pos hfront, List.dropWhile_append_of_pos hfront]
  cases back with
  | nil => exact ⟨List.append_nil front, rfl⟩
  | cons a back =>
    have ha : ¬ p a = true := by rw [hback a rfl]; exact Bool.false_ne_true
    rw [List.takeWhile_cons_of_neg ha, List.dropWhile_cons_of_neg ha, List.append_nil]
    exact ⟨rfl, rfl⟩

/-! ## Characters and their bytes -/

theorem toNat_toUInt8 {n : Nat} (h : n < 256) : n.toUInt8.toNat = n := by
  rw [Nat.toUInt8, UInt8.toNat_ofNat']
  exact Nat.mod_eq_of_lt h

theorem toUInt8_eq {n : Nat} {b : UInt8} (h : n = b.toNat) : n.toUInt8 = b := by
  rw [h, Nat.toUInt8, UInt8.ofNat_toNat]

theorem toNat_ofNat {n : Nat} (h : n < 0xD800 ∨ 0xDFFF < n ∧ n < 0x110000) :
    (Char.ofNat n).toNat = n := by
  rw [Char.ofNat, dif_pos h]
  rfl

theorem encodeChar_eq_utf8EncodeChar (c : Char) : encodeChar c = String.utf8EncodeChar c := by
  have hvalid : c.toNat < 0xD800 ∨ 0xDFFF < c.toNat ∧ c.toNat < 0x110000 := c.valid
  have hval : c.val.toNat = c.toNat := rfl
  unfold encodeChar String.utf8EncodeChar
  rw [hval]
  generalize c.toNat = n at *
  dsimp only [Nat.toUInt8]
  -- the leading bits are added on the other side of the payload, which is cut to its width
  by_cases h1 : n < 0x80
  · rw [if_pos h1, if_pos (show n ≤ 127 by omega)]
  rw [if_neg h1, if_neg (show ¬ n ≤ 127 by omega)]
  by_cases h2 : n < 0x800
  · rw [if_pos h2, if_pos (show n ≤ 2047 by omega),
      show 0xC0 + n / 0x40 = n / 64 % 32 + 192 by omega, Nat.add_comm 0x80]
  rw [if_neg h2, if_neg (show ¬ n ≤ 2047 by omega)]
  by_cases h3 : n < 0x10000
  · rw [if_pos h3, if_pos (show n ≤ 65535 by omega),
      show 0xE0 + n / 0x1000 = n / 4096 % 16 + 224 by omega, Nat.add_comm 0x80, Nat.add_comm 0x80]
  · rw [if_neg h3, if_neg (show ¬ n ≤ 65535 by omega),
      show 0xF0 + n / 0x40000 = n / 262144 % 8 + 240 by omega,
      Nat.add_comm 0x80, Nat.add_comm 0x80, Nat.add_comm 0x80]

/-! ## The separator -/

theorem separator_eq (b : UInt8) :
    separator b =
      if b < 128 then [b]
      else [(0xC0 + b.toNat / 0x40).toUInt8, (0x80 + b.toNat % 0x40).toUInt8] := by
  have hsize : b.toNat < 256 := b.toNat_lt
  rw [separator, encodeChar, toNat_ofNat (.inl (by omega))]
  by_cases hb : b < 128
  · have hsmall : b.toNat < 0x80 := UInt8.lt_iff_toNat_lt.mp hb
    rw [if_pos hb, if_pos hsmall, toUInt8_eq rfl]
  · have hlarge : ¬ b.toNat < 0x80 := fun h => hb (UInt8.lt_iff_toNat_lt.mpr h)
    rw [if_neg hb, if_neg hlarge, if_pos (by omega)]

theorem separator_of_lt {b : UInt8} (h : b < 128) : separator b = [b] := by
  rw [separator_eq, if_pos h]

/-- The first byte of a separator does not occur in it again: of two bytes, the first one leads and
the second one continues a character. -/
theorem exists_separator_eq_cons (b : UInt8) : ∃ d ds, separator b = d :: ds ∧ d ∉ ds := by
  rw [separator_eq]
  by_cases hb : b < 128
  · rw [if_pos hb]
    exact ⟨b, [], rfl, List.not_mem_nil⟩
  · rw [if_neg hb]
    refine ⟨_, _, rfl, ?_⟩
    have hsize : b.toNat < 256 := b.toNat_lt
    rw [List.mem_singleton, ← UInt8.toNat_inj, toNat_toUInt8 (by omega), toNat_toUInt8 (by omega)]
    omega

/-! ## What a separator ends -/

/-- A text that the separator ends; nothing is added to the empty text, or to a text that it ends
already. -/
def ended (separator t : Bytes) : Bytes := if t = [] ∨ separator <:+ t then t else t ++ separator

/-- The text, ended by the separator, is the parts, each ended by the separator, and they do not
contain it. -/
structure CutsInto (separator t : Bytes) (parts : List Bytes) : Prop where
  free : ∀ p ∈ parts, ¬ separator <:+: p
  joined : parts.flatMap (· ++ separator) = ended separator t

theorem ended_flatMap (separator : Bytes) (parts : List Bytes) :
    ended separator (parts.flatMap (· ++ separator)) = parts.flatMap (· ++ separator) := by
  rcases List.eq_nil_or_concat parts with rfl | ⟨init, p, rfl⟩
  · exact if_pos (.inl rfl)
  · refine if_pos (.inr ?_)
    rw [List.concat_eq_append, List.flatMap_append, List.flatMap_singleton, ← List.append_assoc]
    exact List.suffix_append _ _

section Separator

variable {d : UInt8} {ds : Bytes}

/-- Where a text that is not empty stands before the separator, a separator that begins with the
text ends within it. -/
theorem prefix_of_prefix_append (hd : d ∉ ds) {x r : Bytes} (hne : x ≠ [])
    (h : d :: ds <+: x ++ (d :: ds ++ r)) :
    d :: ds <+: x := by
  rcases List.prefix_or_prefix_of_prefix h (List.prefix_append _ _) with hin | ⟨y, hy⟩
  · exact hin
  · -- the separator is `x ++ y`, and `y` begins where the next separator does
    obtain ⟨z, hz⟩ := h
    rw [← hy, List.append_assoc, List.append_assoc, List.append_cancel_left_eq, ← List.append_assoc,
      hy] at hz
    cases x with
    | nil => exact absurd rfl hne
    | cons a x =>
      cases y with
      | nil =>
        rw [List.append_nil] at hy
        rw [hy]
      | cons c y =>
        rw [List.cons_append, List.cons.injEq] at hy
        rw [List.cons_append, List.cons_append, List.cons.injEq] at hz
        refine absurd ?_ hd
        rw [← hy.2, ← hz.1]
        exact List.mem_append_right x List.mem_cons_self

theorem eq_nil_of_prefix_append (hd : d ∉ ds) {x r : Bytes} (hfree : ¬ d :: ds <:+: x)
    (h : d :: ds <+: x ++ (d :: ds ++ r)) : x = [] := by
  by_contra hne
  exact hfree (prefix_of_prefix_append hd hne h).isInfix

/-- A part reaches to the first separator. -/
theorem append_separator_inj (hd : d ∉ ds) {p q r s : Bytes} (hp : ¬ d :: ds <:+: p)
    (hq : ¬ d :: ds <:+: q) (h : p ++ (d :: ds ++ r) = q ++ (d :: ds ++ s)) : p = q ∧ r = s := by
  have hsame : p = q := by
    rcases List.append_eq_append_iff.mp h with ⟨x, rfl, hx⟩ | ⟨x, rfl, hx⟩
    · rw [eq_nil_of_prefix_append hd
        (fun hin => hq (hin.trans (List.suffix_append p x).isInfix)) ⟨r, hx⟩,
        List.append_nil]
    · rw [eq_nil_of_prefix_append hd
        (fun hin => hp (hin.trans (List.suffix_append q x).isInfix)) ⟨s, hx⟩,
        List.append_nil]
  rw [hsame, List.append_cancel_left_eq, List.append_cancel_left_eq] at h
  exact ⟨hsame, h⟩

/-- Parts that do not contain the separator are told apart by the text that they make up. -/
theorem flatMap_separator_inj (hd : d ∉ ds) {ps qs : List Bytes} (hps : ∀ p ∈ ps, ¬ d :: ds <:+: p)
    (hqs : ∀ q ∈ qs, ¬ d :: ds <:+: q) (h : ps.flatMap (· ++ d :: ds) = qs.flatMap (· ++ d :: ds)) :
    ps = qs := by
  induction ps generalizing qs with
  | nil =>
    cases qs with
    | nil => rfl
    | cons q qs => simp at h
  | cons p ps ih =>
    cases qs with
    | nil => simp at h
    | cons q qs =>
      rw [List.forall_mem_cons] at hps hqs
      rw [List.flatMap_cons, List.flatMap_cons, List.append_assoc, List.append_assoc] at h
      obtain ⟨rfl, hrest⟩ := append_separator_inj hd hps.1 hqs.1 h
      rw [ih hps.2 hqs.2 hrest]

/-! ## The pieces between separators -/

/-- The pieces of a text, each ended by the separator, are the text and the separator. -/
theorem flatMap_pieces (d : UInt8) (ds t : Bytes) :
    (pieces d ds t).flatMap (· ++ d :: ds) = t ++ d :: ds := by
  fun_induction pieces d ds t with
  | case1 t rest hrest hlt ih =>
    rw [List.flatMap_cons, ih, List.nil_append, dropPrefix?_eq_some_iff.mp hrest, List.append_assoc]
  | case2 => simp
  | case3 b rest hnone hnil ih =>
    rw [hnil] at ih
    simp at ih
  | case4 b rest hnone part parts hparts ih =>
    rw [hparts, List.flatMap_cons] at ih
    rw [List.flatMap_cons, List.cons_append, List.cons_append, ih, List.cons_append]

theorem prefix_of_pieces_eq_cons {t part : Bytes} {parts : List Bytes}
    (h : pieces d ds t = part :: parts) :
    part <+: t := by
  have hended := flatMap_pieces d ds t
  rw [h, List.flatMap_cons, List.append_assoc] at hended
  have hlength := congrArg List.length hended
  simp only [List.length_append] at hlength
  exact List.prefix_of_prefix_length_le ⟨_, hended⟩ (List.prefix_append _ _) (by omega)

theorem not_infix_of_mem_pieces {t p : Bytes} (h : p ∈ pieces d ds t) : ¬ d :: ds <:+: p := by
  fun_induction pieces d ds t generalizing p with
  | case1 t rest hrest hlt ih =>
    rcases List.mem_cons.mp h with rfl | h
    · simp
    · exact ih h
  | case2 =>
    rw [List.mem_singleton.mp h]
    simp
  | case3 b rest hnone hnil ih =>
    have hended := flatMap_pieces d ds rest
    rw [hnil] at hended
    simp at hended
  | case4 b rest hnone part parts hparts ih =>
    rw [hparts] at ih
    rcases List.mem_cons.mp h with rfl | h
    · -- the piece begins the text, so the separator does not begin it
      have hstart : ¬ d :: ds <+: b :: rest := by
        rw [← isSome_dropPrefix?, hnone]
        exact Bool.false_ne_true
      have hpart : b :: part <+: b :: rest :=
        List.cons_prefix_cons.mpr ⟨rfl, prefix_of_pieces_eq_cons hparts⟩
      rw [List.infix_cons_iff, not_or]
      exact ⟨fun hin => hstart (hin.trans hpart), ih List.mem_cons_self⟩
    · exact ih (List.mem_cons_of_mem part h)

/-- The pieces of a text that the separator ends are those of the text before it and an
empty one. -/
theorem pieces_append_separator (hd : d ∉ ds) (t : Bytes) :
    pieces d ds (t ++ d :: ds) = pieces d ds t ++ [[]] := by
  refine flatMap_separator_inj hd (fun p hp => not_infix_of_mem_pieces hp) ?_ ?_
  · intro p hp
    rcases List.mem_append.mp hp with hp | hp
    · exact not_infix_of_mem_pieces hp
    · rw [List.mem_singleton.mp hp]
      simp
  · rw [List.flatMap_append, flatMap_pieces, flatMap_pieces, List.flatMap_singleton,
      List.nil_append]

theorem CutsInto.unique (hd : d ∉ ds) {t : Bytes} {ps qs : List Bytes}
    (hps : CutsInto (d :: ds) t ps) (hqs : CutsInto (d :: ds) t qs) : ps = qs :=
  flatMap_separator_inj hd hps.free hqs.free (hps.joined.trans hqs.joined.symm)

end Separator

/-! ## The parts of a text -/

theorem cutsInto_flatMap {separator : Bytes} {parts : List Bytes}
    (h : ∀ p ∈ parts, ¬ separator <:+: p) :
    CutsInto separator (parts.flatMap (· ++ separator)) parts :=
  ⟨h, (ended_flatMap separator parts).symm⟩

/-- A text is cut into the parts that `split` finds. -/
theorem cutsInto_split (t : Bytes) (b : UInt8) : CutsInto (separator b) t (split t b) := by
  obtain ⟨d, ds, hsep, hd⟩ := exists_separator_eq_cons b
  rw [split, hsep]
  dsimp only
  by_cases hnil : t = []
  · subst hnil
    exact cutsInto_flatMap (List.forall_mem_nil _)
  rw [if_neg hnil]
  by_cases hlast : (pieces d ds t).getLast? = some []
  · -- the empty piece at the end is what the separator at the end leaves
    obtain ⟨init, hinit⟩ := List.getLast?_eq_some_iff.mp hlast
    have htext : init.flatMap (· ++ d :: ds) = t := by
      have hended := flatMap_pieces d ds t
      rwa [hinit, List.flatMap_append, List.flatMap_singleton, List.nil_append,
        List.append_cancel_right_eq] at hended
    rw [if_pos hlast, hinit, List.dropLast_concat, ← htext]
    refine cutsInto_flatMap fun p hp => not_infix_of_mem_pieces (t := t) ?_
    rw [hinit]
    exact List.mem_append_left _ hp
  · have hopen : ¬ (t = [] ∨ d :: ds <:+ t) := by
      rintro (h | ⟨u, rfl⟩)
      · exact hnil h
      · rw [pieces_append_separator hd, List.getLast?_concat] at hlast
        exact hlast rfl
    rw [if_neg hlast]
    refine ⟨fun p hp => not_infix_of_mem_pieces hp, ?_⟩
    rw [flatMap_pieces, ended, if_neg hopen]

theorem split_eq_iff {t : Bytes} {b : UInt8} {parts : List Bytes} :
    split t b = parts ↔ CutsInto (separator b) t parts := by
  constructor
  · rintro rfl
    exact cutsInto_split t b
  · intro h
    have hsplit := cutsInto_split t b
    obtain ⟨d, ds, hsep, hd⟩ := exists_separator_eq_cons b
    rw [hsep] at h hsplit
    exact hsplit.unique hd h

/-- For every delimiter, whose separator is its UTF-8 form: the parts of a text are the only ones
into which the separator cuts it, and parts that do not contain the separator are found again in the
text that they make up when each is ended by it. -/
theorem split_iff_cutsInto (delimiter : UInt8) :
    separator delimiter = String.utf8EncodeChar (Char.ofNat delimiter.toNat) ∧
      (∀ (t : Bytes) (parts : List Bytes), split t delimiter = parts ↔
        CutsInto (separator delimiter) t parts) ∧
      ∀ parts : List Bytes, (∀ p ∈ parts, ¬ separator delimiter <:+: p) →
        split (parts.flatMap (· ++ separator delimiter)) delimiter = parts := by
  refine ⟨encodeChar_eq_utf8EncodeChar _, fun t parts => split_eq_iff, ?_⟩
  intro parts hfree
  exact split_eq_iff.mpr (cutsInto_flatMap hfree)

/-- The two bytes of `é` cut a text only where they follow one another. -/
theorem split_halfLetter :
    (∀ p ∈ [[0xC3], [], [0xA9]], ¬ separator 0xE9 <:+: p) ∧
      split [0xC3, 0xC3, 0xA9, 0xC3, 0xA9, 0xA9, 0xC3, 0xA9] 0xE9 = [[0xC3], [], [0xA9]] :=
  ⟨by decide, (split_iff_cutsInto 0xE9).2.2 [[0xC3], [], [0xA9]] (by decide)⟩

end StackMachine.Text
