import StackMachine.Listing
import StackMachine.Proofs.Entry
import StackMachine.Proofs.Rebinding

/-!
# Listings can be assembled again

There are two listings of code, the one that is printed on entry and the one in columns, and neither
was made to be read by the assembler. Both can be: the first is a program text as it is, and the
second becomes the same text when addresses and padding are taken away (`relisted`). Assembling that
text gives the code back (`assemble_listing`), so code that was assembled can be told by its
listing.

The round trip rests on three facts. The decimal text of a word is a numeral that denotes the word
(`Numeral.denotes_word`). What a number in assembled code resolves to is a name that stands for that
number, also after the name has been registered again (`Registry.Shows`). And such a name holds
neither a blank nor a newline, because it was found between them.
-/

namespace StackMachine

open Text

variable {α : Type} {r : Registry α}

/-! ## Instructions and the lines that show them -/

/-- The instruction's number resolves to a name that stands for this number and that a line can
hold. -/
structure Registry.Shows (r : Registry α) (i : Instruction) (name : Bytes) : Prop where
  name? : r.name? i.op = some name
  ne_nil : name ≠ []
  blank : 32 ∉ name
  newline : 10 ∉ name
  binds : ∃ id, r.Binds name id ∧ i.op = Int64.ofNat id

/-- What one line spells resolves to the name on that line. -/
theorem Registry.Spells.exists_shows {line : Bytes} {i : Instruction} (h : r.Spells line i)
    (hsize : r.size ≤ 2 ^ 63) (hline : 10 ∉ line) : ∃ name, r.Shows i name := by
  obtain ⟨name, id, hne, hblank, hbinds, hop, hspelled⟩ := h
  obtain ⟨a, -, hresolves⟩ := Registry.resolves_of_binds hsize hbinds
  have hnewline : 10 ∉ name := by
    intro hmem
    apply hline
    rcases hspelled with ⟨rfl | rfl, -⟩ | ⟨lit, -, rfl | rfl⟩ <;> simp [hmem]
  refine ⟨name, ?_, hne, hblank, hnewline, id, hbinds, hop⟩
  rw [hop]
  exact hresolves.1

namespace Registry.Shows

variable {i : Instruction} {name : Bytes}

theorem shownName (h : r.Shows i name) : r.shownName i.op = name := by
  rw [Registry.shownName, h.name?, Option.getD_some]

theorem listedLine (h : r.Shows i name) : r.listedLine i = name ++ [32] ++ word i.arg := by
  rw [Registry.listedLine, h.name?]
  rfl

/-- The line that shows an instruction on entry spells it. -/
theorem spells (h : r.Shows i name) : r.Spells (r.listedLine i) i := by
  obtain ⟨id, hbinds, hop⟩ := h.binds
  exact ⟨name, id, h.ne_nil, h.blank, hbinds, hop,
    .inr ⟨word i.arg, Numeral.denotes_word i.arg, .inl h.listedLine⟩⟩

theorem newline_not_mem (h : r.Shows i name) : 10 ∉ r.listedLine i := by
  have hword : (10 : UInt8) ∉ word i.arg := not_mem_word (by decide) (by decide) i.arg
  rw [h.listedLine]
  simp [h.newline, hword]

end Registry.Shows

/-- Every instruction of assembled code resolves to a name that stands for its number. -/
theorem exists_shows_of_assemble (hr : r.Reachable) (hsize : r.size ≤ 2 ^ 63) {text : Bytes}
    {code : Code} (h : assemble r text = .ok code) : ∀ i ∈ code.toList, ∃ name, r.Shows i name := by
  have hspells := forall₂_spells_of_assemble hr h
  have hlines : ∀ line ∈ textLines text, 10 ∉ line := by
    intro line hline
    rw [← programLines_eq] at hline
    exact not_mem_of_mem_split (by decide) hline
  -- line by line, so text and code are forgotten
  generalize textLines text = lines at hspells hlines
  generalize code.toList = is at hspells
  induction hspells with
  | nil => exact List.forall_mem_nil _
  | cons hline _ ih =>
    rw [List.forall_mem_cons] at hlines ⊢
    exact ⟨hline.exists_shows hsize hlines.1, ih hlines.2⟩

/-! ## The listing on entry -/

/-- The lines that show code on entry. -/
def Registry.listedText (r : Registry α) (code : Code) : Bytes :=
  (code.toList.map r.listedLine).flatMap line

/-- What is printed on entry is the lines that show the code, between a banner and an end marker. -/
theorem State.stdout_printListing {code : Code} {s : State α}
    (h : s.registry.knows code.toList = true) :
    (s.printListing code).stdout.toBytes =
      s.stdout.toBytes ++ utf8 "=== running vm ======================\ndisassembly of run code:\n"
        ++ s.registry.listedText code ++ utf8 "=== end of disassembly\n\n" := by
  rw [printListing, printInstructions_eq]
  simp only [print, Transcript.toBytes_write, Transcript.toBytes_append]
  rw [listed_of_knows h, Registry.listedText]

/-- Lines that spell instructions, each ended by a newline, assemble to these instructions. -/
theorem assemble_flatMap_line (hr : r.Reachable) {lines : List Bytes} {is : List Instruction}
    (hlines : ∀ line ∈ lines, 10 ∉ line) (h : List.Forall₂ r.Spells lines is) :
    assemble r (lines.flatMap line) = .ok is.toArray := by
  have hprogram : programLines (lines.flatMap line) = lines := split_flatMap (by decide) hlines
  rw [assemble, hprogram, (assembleLines_eq_ok_iff hr).mpr h]
  rfl

/-- The lines that show code on entry assemble to the code. -/
theorem assemble_listedText (hr : r.Reachable) {code : Code}
    (h : ∀ i ∈ code.toList, ∃ name, r.Shows i name) :
    assemble r (r.listedText code) = .ok code := by
  have hspells : List.Forall₂ r.Spells (code.toList.map r.listedLine) code.toList := by
    rw [List.forall₂_map_left_iff, List.forall₂_same]
    intro i hi
    obtain ⟨name, hname⟩ := h i hi
    exact hname.spells
  have hlines : ∀ line ∈ code.toList.map r.listedLine, 10 ∉ line := by
    rw [List.forall_mem_map]
    intro i hi
    obtain ⟨name, hname⟩ := h i hi
    exact hname.newline_not_mem
  exact assemble_flatMap_line hr hlines hspells

/-! ## The listing in columns -/

/-- A line of a listing without address and padding. The name starts behind the two blanks that
follow the address and ends before the next blank; the argument is what follows the last blank. -/
def relistedLine (row : Bytes) : Bytes :=
  nameOn ((row.dropWhile (· ≠ 32)).drop 2) ++ [32] ++ (row.reverse.takeWhile (· ≠ 32)).reverse

/-- A listing without addresses and padding. -/
def relisted (t : Bytes) : Bytes := (textLines t).flatMap fun row => line (relistedLine row)

/-- A line of a listing, without its end. -/
def listingRow (r : Registry α) (address : Nat) (i : Instruction) : Bytes :=
  padLeft (ascii '0') 4 (decimal address) ++ utf8 "  " ++ padRight 12 (r.shownName i.op) ++
    utf8 " " ++ word i.arg

theorem blank_not_mem_address (address : Nat) : 32 ∉ padLeft (ascii '0') 4 (decimal address) :=
  fun h => absurd (Numeral.digits_padLeft 4 address 32 h).1 (by decide)

/-- A text without blanks in front of one is what stands before the first blank, and the rest is
what follows. -/
theorem cut_at_blank {t : Bytes} (h : 32 ∉ t) (rest : Bytes) :
    (t ++ 32 :: rest).takeWhile (· ≠ 32) = t ∧
    (t ++ 32 :: rest).dropWhile (· ≠ 32) = 32 :: rest := by
  have hfree : ∀ b ∈ t, decide (b ≠ 32) = true := by
    intro b hb
    rw [decide_eq_true_eq]
    rintro rfl
    exact h hb
  exact span_append hfree (by simp)

/-- Without address and padding, a line of the listing in columns is the line that shows the
instruction on entry. -/
theorem relistedLine_listingRow {i : Instruction} {name : Bytes} (h : r.Shows i name)
    (address : Nat) :
    relistedLine (listingRow r address i) = r.listedLine i := by
  -- blanks follow the name, one at least, and the argument follows the last of them
  have hpadding : padRight 12 name ++ utf8 " " =
      name ++ 32 :: List.replicate (12 - count name) 32 := by
    rw [padRight, List.append_assoc, ← List.replicate_succ, List.replicate_succ']
    rfl
  have hword : 32 ∉ (word i.arg).reverse := by
    rw [List.mem_reverse]
    exact not_mem_word (by decide) (by decide) i.arg
  have hrow : listingRow r address i = padLeft (ascii '0') 4 (decimal address) ++
      32 :: 32 :: (name ++ 32 :: (List.replicate (12 - count name) 32 ++ word i.arg)) := by
    rw [listingRow, h.shownName, List.append_assoc _ (padRight 12 name), hpadding]
    simp [show utf8 "  " = [32, 32] from rfl]
  have hreverse : ∃ before, (listingRow r address i).reverse =
      (word i.arg).reverse ++ 32 :: before := by
    refine ⟨(padLeft (ascii '0') 4 (decimal address) ++ utf8 "  " ++ padRight 12 name).reverse, ?_⟩
    rw [listingRow, h.shownName, List.reverse_append, List.reverse_append]
    rfl
  obtain ⟨before, hreverse⟩ := hreverse
  rw [relistedLine, hreverse, (cut_at_blank hword before).1, List.reverse_reverse, hrow,
    (cut_at_blank (blank_not_mem_address address) _).2, h.listedLine]
  show nameOn (name ++ 32 :: _) ++ _ ++ _ = _
  rw [nameOn, (cut_at_blank h.blank _).1]

theorem newline_not_mem_listingRow {i : Instruction} {name : Bytes} (h : r.Shows i name)
    (address : Nat) :
    10 ∉ listingRow r address i := by
  have haddress : (10 : UInt8) ∉ padLeft (ascii '0') 4 (decimal address) :=
    fun hmem => absurd (Numeral.digits_padLeft 4 address 10 hmem).1 (by decide)
  have hword : (10 : UInt8) ∉ word i.arg := not_mem_word (by decide) (by decide) i.arg
  have hfill : (10 : UInt8) ∉ List.replicate (12 - count name) 32 :=
    fun hmem => absurd (List.eq_of_mem_replicate hmem) (by decide)
  rw [listingRow, h.shownName, padRight]
  simp only [List.mem_append, not_or]
  exact ⟨⟨⟨⟨haddress, by decide⟩, h.newline, hfill⟩, by decide⟩, hword⟩

/-- The listing in columns has a line for each instruction. -/
theorem textLines_listing {code : Code} (h : ∀ i ∈ code.toList, ∃ name, r.Shows i name) :
    textLines (listing r code) = code.toList.zipIdx.map fun x => listingRow r x.2 x.1 := by
  have hrows :
      listing r code = (code.toList.zipIdx.map fun x => listingRow r x.2 x.1).flatMap line := by
    rw [List.flatMap_map]
    rfl
  rw [← programLines_eq, hrows]
  refine split_flatMap (by decide) ?_
  rw [List.forall_mem_map]
  intro x hx
  obtain ⟨name, hname⟩ := h x.1 (List.fst_mem_of_mem_zipIdx hx)
  exact newline_not_mem_listingRow hname x.2

/-- The listing in columns becomes the lines that show the code on entry. -/
theorem relisted_listing {code : Code} (h : ∀ i ∈ code.toList, ∃ name, r.Shows i name) :
    relisted (listing r code) = r.listedText code := by
  have hrelisted : ∀ x ∈ code.toList.zipIdx,
      line (relistedLine (listingRow r x.2 x.1)) = line (r.listedLine x.1) := by
    intro x hx
    obtain ⟨name, hname⟩ := h x.1 (List.fst_mem_of_mem_zipIdx hx)
    rw [relistedLine_listingRow hname]
  calc relisted (listing r code)
      = code.toList.zipIdx.flatMap fun x => line (relistedLine (listingRow r x.2 x.1)) := by
        rw [relisted, textLines_listing h, List.flatMap_map]
    _ = code.toList.zipIdx.flatMap fun x => line (r.listedLine x.1) := List.flatMap_congr hrelisted
    _ = r.listedText code := by
        rw [Registry.listedText, List.flatMap_map, ← List.zipIdx_map_fst 0 code.toList,
          List.flatMap_map, List.zipIdx_map_fst]

/-! ## There and back -/

/-- **Listings can be assembled again.** Over a registry that registrations have led to, the lines
that show assembled code on entry, between the banner and the end marker, are a program text that
assembles to the same code. So is the listing in columns once addresses and padding are taken away.
Hence two programs have the same listing only if they have the same code.

A number is a word, so a registry holds at most `2 ^ 63` entries. -/
theorem assemble_listing (hr : r.Reachable) (hsize : r.size ≤ 2 ^ 63) {text : Bytes} {code : Code}
    (h : assemble r text = .ok code) :
    (∀ s : State α, s.registry = r → ∃ body,
      (s.printListing code).stdout.toBytes =
        s.stdout.toBytes ++ utf8 "=== running vm ======================\ndisassembly of run code:\n"
          ++ body ++ utf8 "=== end of disassembly\n\n" ∧
      assemble r body = .ok code) ∧
    assemble r (relisted (listing r code)) = .ok code ∧
    ∀ text' code', assemble r text' = .ok code' → listing r code = listing r code' →
      code = code' := by
  have hshows := exists_shows_of_assemble hr hsize h
  have hback : assemble r (relisted (listing r code)) = .ok code := by
    rw [relisted_listing hshows]
    exact assemble_listedText hr hshows
  refine ⟨?_, hback, ?_⟩
  · rintro s rfl
    have hknows : s.registry.knows code.toList = true := by
      rw [Registry.knows, List.all_eq_true]
      intro i hi
      obtain ⟨name, hname⟩ := hshows i hi
      rw [hname.name?, Option.isSome_some]
    exact ⟨_, State.stdout_printListing hknows, assemble_listedText hr hshows⟩
  · intro text' code' h' hsame
    -- the one listing assembles back to both
    have hshows' := exists_shows_of_assemble hr hsize h'
    rw [hsame, relisted_listing hshows', assemble_listedText hr hshows'] at hback
    exact (Except.ok.inj hback).symm

/-- A name that was registered twice, and one that is wider than its column. -/
def Registry.unruly : Registry Standard :=
  Registry.empty.after
    [.register (utf8 "ADD") (some .div), .register (utf8 "LOAD_CONSTANT_WORD") (some .loadConst),
      .register (utf8 "ADD") (some .add)]

/-- The least word is loaded by the wide name, and added by the latest of two additions. -/
theorem assemble_listing_unruly :
    let r := Registry.unruly
    r.Reachable ∧ ∃ code body,
      assemble r (utf8 "LOAD_CONSTANT_WORD -9223372036854775808\nADD \n") = .ok code ∧
      code.toList = [⟨1, Int64.minValue⟩, ⟨2, 0⟩] ∧
      ((State.new r true).printListing code).stdout.toBytes =
        utf8 "=== running vm ======================\ndisassembly of run code:\n" ++ body
          ++ utf8 "=== end of disassembly\n\n" ∧
      assemble r body = .ok code ∧ assemble r (relisted (listing r code)) = .ok code := by
  have hr : Registry.unruly.Reachable := Registry.Reachable.empty.after _
  have hlines : programLines (utf8 "LOAD_CONSTANT_WORD -9223372036854775808\nADD \n") =
      [utf8 "LOAD_CONSTANT_WORD -9223372036854775808", utf8 "ADD "] := by
    rw [programLines_eq]
    decide
  have hcode : assemble Registry.unruly (utf8 "LOAD_CONSTANT_WORD -9223372036854775808\nADD \n") =
      .ok #[⟨1, Int64.minValue⟩, ⟨2, 0⟩] := by
    rw [assemble, hlines]
    simp only [assembleLines, assembleLine, split_eq_splitOn (by decide : ascii ' ' < 128)]
    decide
  obtain ⟨hentry, hcolumns, -⟩ := assemble_listing hr (by decide) hcode
  obtain ⟨body, hprinted, hbody⟩ := hentry (State.new .unruly true) rfl
  exact ⟨hr, _, body, hcode, rfl, hprinted, hbody, hcolumns⟩

end StackMachine
