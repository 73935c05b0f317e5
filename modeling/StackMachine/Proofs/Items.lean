import StackMachine.Cbor.Reader
import StackMachine.Cbor.Writer
import StackMachine.Proofs.Characters

/-!
# Items that are read back

What is written canonically is read as what was written. `Item.Plain` are the items that messages
are made of, with the room that a reader leaves for them: numbers of 64 bits, texts that a machine
can hold, and arrays and maps that are neither too long nor too deep. `read_write` says that reading
the bytes of such an item gives the item.

Every lemma is about an item with some bytes after it, so that it can be used for the items of an
array one after the other. The fuel of the readers is counted in written bytes: two units for each
byte are enough, because every byte is the first of at most two calls.
-/

namespace StackMachine.Cbor

open Text

/-! ## Heads -/

theorem length_bigEndian (count n : Nat) : (bigEndian count n).length = count := by
  induction count generalizing n with
  | zero => rfl
  | succ count ih => rw [bigEndian, List.length_append, ih, List.length_singleton]

theorem ofBigEndian_concat (b : Bytes) (x : UInt8) :
    ofBigEndian (b ++ [x]) = ofBigEndian b * 256 + x.toNat := by
  rw [ofBigEndian, List.foldl_append]
  rfl

theorem ofBigEndian_bigEndian {count n : Nat} (h : n < 256 ^ count) :
    ofBigEndian (bigEndian count n) = n := by
  induction count generalizing n with
  | zero =>
    rw [Nat.pow_zero] at h
    rw [Nat.lt_one_iff.mp h]
    rfl
  | succ count ih =>
    have hhigh : n / 256 < 256 ^ count := by
      rw [Nat.div_lt_iff_lt_mul (by decide), ← Nat.pow_succ]
      exact h
    have hlow : n.toUInt8.toNat = n % 256 := by
      rw [Nat.toUInt8, UInt8.toNat_ofNat']
    rw [bigEndian, ofBigEndian_concat, ih hhigh, hlow]
    omega

theorem readTail_bigEndian {count n : Nat} (h : n < 256 ^ count) (rest : Bytes) :
    readTail count (bigEndian count n ++ rest) = .ok (n, rest) := by
  have hlength := length_bigEndian count n
  have htake : (bigEndian count n ++ rest).take count = bigEndian count n := List.take_left' hlength
  have hdrop : (bigEndian count n ++ rest).drop count = rest := List.drop_left' hlength
  simp [readTail, htake, hdrop, hlength, ofBigEndian_bigEndian h]

/-- The first byte of a head gives back the major type and the additional information. -/
theorem readHead_short {major low : Nat} (hmajor : major < 8) (hlow : low < 24) (rest : Bytes) :
    readHead ((major * 32 + low).toUInt8 :: rest) = .ok (⟨major, low, low⟩, rest) := by
  have hfirst : (major * 32 + low).toUInt8.toNat = major * 32 + low := toNat_toUInt8 (by omega)
  have hdiv : (major * 32 + low) / 32 = major := by omega
  have hmod : (major * 32 + low) % 32 = low := by omega
  simp only [readHead, hfirst, hdiv, hmod]
  rw [if_pos hlow]

theorem readHead_long {major k n : Nat} (hmajor : major < 7) (hk : k < 4) (hn : n < 256 ^ 2 ^ k)
    (rest : Bytes) :
    readHead ((major * 32 + (24 + k)).toUInt8 :: (bigEndian (2 ^ k) n ++ rest)) =
      .ok (⟨major, 24 + k, n⟩, rest) := by
  have hfirst : (major * 32 + (24 + k)).toUInt8.toNat = major * 32 + (24 + k) :=
    toNat_toUInt8 (by omega)
  have hdiv : (major * 32 + (24 + k)) / 32 = major := by omega
  have hmod : (major * 32 + (24 + k)) % 32 = 24 + k := by omega
  have hwidth : Nat.pow 2 (24 + k - 24) = 2 ^ k := by rw [Nat.add_sub_cancel_left]; rfl
  simp only [readHead, hfirst, hdiv, hmod, hwidth, readTail_bigEndian hn]
  rw [if_neg (by omega), if_pos (by omega)]
  simp only [bind, Except.bind]
  rw [if_neg (by omega)]

/-- A head is read as it was written, and does not look like one of unknown length. -/
theorem readHead_head (major : Nat) {n : Nat} (hmajor : major < 7) (hn : n < 2 ^ 64)
    (rest : Bytes) :
    ∃ info < 28, readHead (head major n ++ rest) = .ok (⟨major, info, n⟩, rest) := by
  unfold head
  dsimp only
  split
  · next h => exact ⟨n, by omega, readHead_short (by omega) h rest⟩
  · split
    · next h => exact ⟨24, by omega, readHead_long (k := 0) hmajor (by omega) h rest⟩
    · split
      · next h => exact ⟨25, by omega, readHead_long (k := 1) hmajor (by omega) h rest⟩
      · split
        · next h => exact ⟨26, by omega, readHead_long (k := 2) hmajor (by omega) h rest⟩
        · exact ⟨27, by omega, readHead_long (k := 3) hmajor (by omega) hn rest⟩

theorem length_head_pos (major n : Nat) : 0 < (head major n).length := by
  unfold head
  dsimp only
  split
  · simp
  · split
    · simp
    · split
      · simp
      · split <;> simp

theorem takeBytes_append {b : Bytes} (h : b.length < 2 ^ 63) (rest : Bytes) :
    takeBytes b.length (b ++ rest) = .ok (b, rest) := by
  have hfits : ¬ Nat.pow 2 63 ≤ b.length := Nat.not_le.mpr h
  simp [takeBytes, hfits]

/-! ## Items -/

namespace Item

/-- The items that messages are made of, nested at most `n` levels deep: numbers of 64 bits, texts
in one piece, truth values, null, and arrays and maps of no more elements than a reader takes. -/
inductive Plain : Nat → Item → Prop
  | unsigned {n k : Nat} : k < 2 ^ 64 → Plain n (unsigned k)
  | negative {n k : Nat} : k < 2 ^ 64 → Plain n (negative k)
  | text {n : Nat} {t : Bytes} : t.length < 2 ^ 63 → Plain n (ofText t)
  | bool {n : Nat} (b : Bool) : Plain n (bool b)
  | null {n : Nat} : Plain n null
  | array {n : Nat} {items : List Item} : items.length ≤ maxElements →
      (∀ i ∈ items, Plain n i) → Plain (n + 1) (array items)
  | map {n : Nat} {entries : List (Item × Item)} : entries.length ≤ maxElements →
      (∀ e ∈ entries, Plain n e.1) → (∀ e ∈ entries, Plain n e.2) → Plain (n + 1) (map entries)

/-- Reading finds the item again, wherever there is room for `n` levels, and whatever follows. -/
def ReadsBack (n : Nat) (i : Item) : Prop :=
  ∀ fuel depth rest, depth + n ≤ maxDepth → 2 * i.write.length ≤ fuel + 1 →
    readItem fuel depth (i.write ++ rest) = .ok (i, rest)

theorem length_write_pos (i : Item) : 0 < i.write.length := by
  cases i with
  | unsigned | negative | simple =>
    rw [write]
    exact length_head_pos _ _
  | bytes | text | array | map | tag =>
    rw [write, List.length_append]
    exact Nat.add_pos_left (length_head_pos _ _) _
  | bool | null | undefined => exact Nat.one_pos
  | real p bits => cases p <;> exact Nat.succ_pos _

end Item

/-- A list of items is read back if its items are. -/
theorem readItems_writeAll {n : Nat} {items : List Item} (h : ∀ i ∈ items, i.ReadsBack n)
    {fuel depth : Nat} (rest : Bytes) (hdepth : depth + n ≤ maxDepth)
    (hfuel : 2 * (writeAll items).length ≤ fuel) :
    readItems fuel depth items.length (writeAll items ++ rest) = .ok (items, rest) := by
  induction items generalizing fuel with
  | nil => simp [readItems, writeAll]
  | cons i items ih =>
    rw [List.forall_mem_cons] at h
    have hpos := i.length_write_pos
    rw [writeAll, List.length_append] at hfuel
    obtain ⟨fuel, rfl⟩ : ∃ k, fuel = k + 1 := ⟨fuel - 1, by omega⟩
    have hfirst := h.1 fuel depth (writeAll items ++ rest) hdepth (by omega)
    rw [writeAll, List.length_cons, List.append_assoc, readItems, hfirst]
    simp only [bind, Except.bind]
    rw [ih h.2 (by omega)]

/-- The entries of a map are read back if its keys and values are. -/
theorem readEntries_writeEntries {n : Nat} {entries : List (Item × Item)}
    (hkeys : ∀ e ∈ entries, e.1.ReadsBack n) (hvalues : ∀ e ∈ entries, e.2.ReadsBack n)
    {fuel depth : Nat} (rest : Bytes) (hdepth : depth + n ≤ maxDepth)
    (hfuel : 2 * (writeEntries entries).length ≤ fuel) :
    readEntries fuel depth entries.length (writeEntries entries ++ rest) = .ok (entries, rest) := by
  induction entries generalizing fuel with
  | nil => simp [readEntries, writeEntries]
  | cons e entries ih =>
    obtain ⟨key, value⟩ := e
    rw [List.forall_mem_cons] at hkeys hvalues
    have hpos := key.length_write_pos
    rw [writeEntries, List.length_append, List.length_append] at hfuel
    obtain ⟨fuel, rfl⟩ : ∃ k, fuel = k + 1 := ⟨fuel - 1, by omega⟩
    have hkey :=
      hkeys.1 fuel depth (value.write ++ (writeEntries entries ++ rest)) hdepth (by dsimp; omega)
    have hvalue := hvalues.1 fuel depth (writeEntries entries ++ rest) hdepth (by dsimp; omega)
    rw [writeEntries, List.length_cons, List.append_assoc, List.append_assoc, readEntries, hkey]
    simp only [bind, Except.bind]
    rw [hvalue]
    dsimp only
    rw [ih hkeys.2 hvalues.2 (by omega)]

namespace Item

theorem exists_fuel {i : Item} {fuel : Nat} (h : 2 * i.write.length ≤ fuel + 1) :
    ∃ k, fuel = k + 1 := by
  have hpos := i.length_write_pos
  exact ⟨fuel - 1, by omega⟩

theorem readsBack_unsigned {n k : Nat} (hk : k < 2 ^ 64) : (unsigned k).ReadsBack n := by
  intro fuel depth rest _ hfuel
  obtain ⟨fuel, rfl⟩ := exists_fuel hfuel
  obtain ⟨info, -, hhead⟩ := readHead_head 0 (by decide) hk rest
  rw [write, readItem, hhead]
  rfl

theorem readsBack_negative {n k : Nat} (hk : k < 2 ^ 64) : (negative k).ReadsBack n := by
  intro fuel depth rest _ hfuel
  obtain ⟨fuel, rfl⟩ := exists_fuel hfuel
  obtain ⟨info, -, hhead⟩ := readHead_head 1 (by decide) hk rest
  rw [write, readItem, hhead]
  rfl

theorem readsBack_text {n : Nat} {t : Bytes} (ht : t.length < 2 ^ 63) : (ofText t).ReadsBack n := by
  intro fuel depth rest _ hfuel
  obtain ⟨fuel, rfl⟩ := exists_fuel hfuel
  have hwrite : (ofText t).write = head 3 t.length ++ t := by simp [ofText, write]
  have hbound : t.length < 2 ^ 64 := by omega
  obtain ⟨info, hinfo, hhead⟩ := readHead_head 3 (by decide) hbound (t ++ rest)
  rw [hwrite, List.append_assoc, readItem, hhead]
  simp only [bind, Except.bind]
  rw [if_neg (by omega), takeBytes_append ht]
  rfl

theorem readsBack_array {n : Nat} {items : List Item} (hcount : items.length ≤ maxElements)
    (hitems : ∀ i ∈ items, i.ReadsBack n) : (array items).ReadsBack (n + 1) := by
  intro fuel depth rest hdepth hfuel
  obtain ⟨fuel, rfl⟩ := exists_fuel hfuel
  have hpos := length_head_pos 4 items.length
  rw [write, List.length_append] at hfuel
  have hbound : items.length < 2 ^ 64 := Nat.lt_of_le_of_lt hcount (by decide)
  obtain ⟨info, hinfo, hread⟩ := readHead_head 4 (by decide) hbound (writeAll items ++ rest)
  have hback : readItems fuel (depth + 1) items.length (writeAll items ++ rest) =
      .ok (items, rest) :=
    readItems_writeAll hitems rest (by omega) (by omega)
  rw [write, List.append_assoc, readItem, hread]
  simp only [bind, Except.bind, deeper, within]
  rw [if_pos (by omega)]
  dsimp only
  rw [if_neg (by omega), if_pos hcount]
  dsimp only
  rw [hback]

/-- A map of not too many entries is read by reading its entries. -/
theorem readItem_map {entries : List (Item × Item)} (hcount : entries.length ≤ maxElements)
    {fuel depth : Nat} (hdepth : depth < maxDepth) (rest : Bytes) :
    readItem (fuel + 1) depth ((map entries).write ++ rest) =
      (readEntries fuel (depth + 1) entries.length (writeEntries entries ++ rest)).map fun x =>
        (map x.1, x.2) := by
  have hbound : entries.length < 2 ^ 64 := Nat.lt_of_le_of_lt hcount (by decide)
  obtain ⟨info, hinfo, hread⟩ := readHead_head 5 (by decide) hbound (writeEntries entries ++ rest)
  rw [write, List.append_assoc, readItem, hread]
  simp only [bind, Except.bind, deeper, within]
  rw [if_pos hdepth]
  dsimp only
  rw [if_neg (by omega), if_pos hcount]
  dsimp only
  cases readEntries fuel (depth + 1) entries.length (writeEntries entries ++ rest) <;> rfl

theorem readsBack_map {n : Nat} {entries : List (Item × Item)}
    (hcount : entries.length ≤ maxElements) (hkeys : ∀ e ∈ entries, e.1.ReadsBack n)
    (hvalues : ∀ e ∈ entries, e.2.ReadsBack n) :
    (map entries).ReadsBack (n + 1) := by
  intro fuel depth rest hdepth hfuel
  obtain ⟨fuel, rfl⟩ := exists_fuel hfuel
  have hpos := length_head_pos 5 entries.length
  rw [write, List.length_append] at hfuel
  have hback : readEntries fuel (depth + 1) entries.length (writeEntries entries ++ rest) =
      .ok (entries, rest) := readEntries_writeEntries hkeys hvalues rest (by omega) (by omega)
  rw [readItem_map hcount (by omega), hback]
  rfl

/-- A plain item is read back as it was written. -/
theorem Plain.readsBack {n : Nat} {i : Item} (h : i.Plain n) : i.ReadsBack n := by
  induction h with
  | unsigned hk => exact readsBack_unsigned hk
  | negative hk => exact readsBack_negative hk
  | text ht => exact readsBack_text ht
  | bool b =>
    intro fuel depth rest _ hfuel
    obtain ⟨fuel, rfl⟩ := exists_fuel hfuel
    cases b <;> simp [write, readItem, readHead, primitive, bind, Except.bind]
  | null =>
    intro fuel depth rest _ hfuel
    obtain ⟨fuel, rfl⟩ := exists_fuel hfuel
    simp [write, readItem, readHead, primitive, bind, Except.bind]
  | array hcount _ ih => exact readsBack_array hcount ih
  | map hcount _ _ ihkeys ihvalues => exact readsBack_map hcount ihkeys ihvalues

end Item

/-- The bytes of a plain item hold that item. -/
theorem read_write {n : Nat} {i : Item} (h : i.Plain n) (hn : n ≤ maxDepth) :
    read i.write = .ok i := by
  have hpos := i.length_write_pos
  have hitem := h.readsBack (2 * i.write.length + 2) 0 [] (by omega) (by omega)
  rw [List.append_nil] at hitem
  have hne : i.write ≠ [] := List.ne_nil_of_length_pos hpos
  unfold read
  split
  · next hnil => exact absurd hnil hne
  · rw [hitem]
    rfl

/-! ## Arrays that are too long -/

/-- An array of more elements than a reader takes. -/
def Item.Overlong (i : Item) : Prop :=
  ∃ items, i = .array items ∧ maxElements < items.length ∧ items.length < 2 ^ 64

/-- An array that is too long is refused for what its head says, before any of its elements
is read. -/
theorem Item.Overlong.readItem {i : Item} (h : i.Overlong) {fuel depth : Nat} (rest : Bytes)
    (hdepth : depth < maxDepth) :
    readItem (fuel + 1) depth (i.write ++ rest) = .error .tooManyElements := by
  obtain ⟨items, rfl, hmany, hbound⟩ := h
  obtain ⟨info, hinfo, hread⟩ := readHead_head 4 (by decide) hbound (writeAll items ++ rest)
  rw [write, List.append_assoc, Cbor.readItem, hread]
  simp only [bind, Except.bind, deeper, within]
  rw [if_pos hdepth]
  dsimp only
  rw [if_neg (by omega), if_neg (by omega)]

/-- Entries are refused if one of the values is too long, wherever it stands among them. -/
theorem readEntries_of_overlong {n : Nat} {entries : List (Item × Item)}
    (hkeys : ∀ e ∈ entries, e.1.ReadsBack n)
    (hvalues : ∀ e ∈ entries, e.2.ReadsBack n ∨ e.2.Overlong) (hsome : ∃ e ∈ entries, e.2.Overlong)
    {fuel depth : Nat} (rest : Bytes) (hdepth : depth + n ≤ maxDepth) (hroom : depth < maxDepth)
    (hfuel : 2 * (writeEntries entries).length ≤ fuel) :
    readEntries fuel depth entries.length (writeEntries entries ++ rest) =
      .error .tooManyElements := by
  induction entries generalizing fuel with
  | nil =>
    obtain ⟨e, he, -⟩ := hsome
    cases he
  | cons e entries ih =>
    obtain ⟨key, value⟩ := e
    rw [List.forall_mem_cons] at hkeys hvalues
    have hpos := key.length_write_pos
    have hpos' := value.length_write_pos
    rw [writeEntries, List.length_append, List.length_append] at hfuel
    obtain ⟨fuel, rfl⟩ : ∃ k, fuel = k + 2 := ⟨fuel - 2, by omega⟩
    have hkey := hkeys.1 (fuel + 1) depth (value.write ++ (writeEntries entries ++ rest)) hdepth
      (by dsimp; omega)
    rw [writeEntries, List.length_cons, List.append_assoc, List.append_assoc, readEntries, hkey]
    simp only [bind, Except.bind]
    rcases hvalues.1 with hback | hover
    · have hvalue := hback (fuel + 1) depth (writeEntries entries ++ rest) hdepth (by dsimp; omega)
      have hrest : ∃ e ∈ entries, e.2.Overlong := by
        obtain ⟨e, he, hover⟩ := hsome
        rcases List.mem_cons.mp he with rfl | he
        · -- what is too long cannot be read back
          rw [hover.readItem _ hroom] at hvalue
          cases hvalue
        · exact ⟨e, he, hover⟩
      rw [hvalue]
      dsimp only
      rw [ih hkeys.2 hvalues.2 hrest (by omega)]
    · rw [hover.readItem _ hroom]

/-- A map with a value that is too long cannot be read. -/
theorem read_of_overlong {n : Nat} {entries : List (Item × Item)}
    (hcount : entries.length ≤ maxElements) (hkeys : ∀ e ∈ entries, e.1.Plain n)
    (hvalues : ∀ e ∈ entries, e.2.Plain n ∨ e.2.Overlong) (hsome : ∃ e ∈ entries, e.2.Overlong)
    (hn : n < maxDepth) :
    read (Item.map entries).write = .error .tooManyElements := by
  have hpos := length_head_pos 5 entries.length
  have hback : readEntries (2 * (Item.map entries).write.length + 1) 1 entries.length
      (writeEntries entries ++ []) = .error .tooManyElements := by
    apply readEntries_of_overlong (fun e he => (hkeys e he).readsBack)
      (fun e he => (hvalues e he).imp_left Item.Plain.readsBack) hsome [] (by omega) (by decide)
    rw [Item.write, List.length_append]
    omega
  have hitem :
      readItem (2 * (Item.map entries).write.length + 2) 0 ((Item.map entries).write ++ []) =
      .error .tooManyElements := by
    rw [Item.readItem_map hcount (by decide), hback]
    rfl
  rw [List.append_nil] at hitem
  unfold read
  split
  · next hnil => exact absurd hnil (List.ne_nil_of_length_pos (Item.map entries).length_write_pos)
  · rw [hitem]
    rfl

end StackMachine.Cbor
