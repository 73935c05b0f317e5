import StackMachine.Proofs.Completions
import StackMachine.Proofs.Remarks

/-!
# What is shown for the word at a cursor

A word that is the name of an instruction is shown with the number it stands for and with what is
known of it. The word is looked for around the cursor, whereas assembling takes a line from its
beginning; but on the name of an instruction, from before its first byte to after its last one, the
two come upon the same (`wordAt_of_name`). Nothing is shown for any other word, and a word on a line
of its own assembles to the number that is shown for it.
-/

namespace StackMachine.Editor

open Text

variable {α : Type} {r : Registry α} {s : Session α}

/-! ## Words and names -/

/-- The name is made of ASCII letters, digits and underscores. -/
def IsPlain (name : Bytes) : Prop :=
  ∀ b ∈ name, b = ascii '_' ∨ (Char.ofNat b.toNat).isAlphanum = true

instance (name : Bytes) : Decidable (IsPlain name) := List.decidableBAll _ name

theorem IsPlain.isWordByte {name : Bytes} (h : IsPlain name) : ∀ b ∈ name, isWordByte b = true := by
  intro b hb
  rcases h b hb with rfl | halphanum
  · rfl
  · have hlt := b.toNat_lt
    have hcode : (Char.ofNat b.toNat).val.toNat = b.toNat := toNat_ofNat (by omega)
    delta Char.isAlphanum Char.isAlpha Char.isUpper Char.isLower Char.isDigit at halphanum
    simp only [Bool.or_eq_true, Bool.and_eq_true, decide_eq_true_eq, ge_iff_le,
      UInt32.le_iff_toNat_le, hcode, Char.reduceVal, UInt32.reduceToNat] at halphanum
    rw [isWordByte_iff]
    omega

/-- On a name that begins a line, the word at the cursor is the name. -/
theorem wordAt_of_name {text name rest : Bytes} {n k : Nat}
    (hline : (documentLines text)[n]? = some (name ++ rest))
    (hname : ∀ b ∈ name, isWordByte b = true) (hrest : ∀ b ∈ rest.head?, isWordByte b = false)
    (hk : k ≤ name.length) : wordAt text ⟨n, k⟩ = name := by
  have hbefore : (name ++ rest).take k = [] ++ name.take k := by
    rw [List.take_append_of_le_length hk, List.nil_append]
  have hafter : (name ++ rest).drop k = name.drop k ++ rest := List.drop_append_of_le_length hk
  have hrun : IsRun isWordByte [] (name.take k) (name.drop k) rest :=
    ⟨by rwa [List.take_append_drop], by simp, hrest⟩
  rw [((words_iff_isRun (p := ⟨n, k⟩) hline hbefore hafter).mpr hrun).2, List.take_append_drop]

/-- Words hold neither blanks nor newlines. -/
theorem not_mem_wordAt (text : Bytes) (p : Position) : 32 ∉ wordAt text p ∧ 10 ∉ wordAt text p := by
  constructor
  · intro h
    exact absurd (isWordByte_of_mem_wordAt h) (by decide)
  · intro h
    exact absurd (isWordByte_of_mem_wordAt h) (by decide)

/-! ## What is shown -/

/-- A name, the number it stands for, and its description, if it has one. -/
def shownFor (name number doc : Bytes) : Bytes :=
  utf8 "**" ++ name ++ utf8 "** (opcode " ++ number ++ utf8 ")" ++
    (if doc = [] then [] else utf8 "\n\n" ++ doc)

theorem hover?_eq_some_iff {word shown : Bytes} :
    hover? r word = some shown ↔
    ∃ id, r.Binds word id ∧ shown = shownFor word (decimal id) (r.doc word) := by
  simp only [← Registry.lookup?_eq_some_iff]
  rw [hover?]
  cases r.lookup? word with
  | none => simp
  | some id =>
    constructor
    · intro h
      exact ⟨id, rfl, (Option.some.inj h).symm⟩
    · rintro ⟨id', hid, rfl⟩
      obtain rfl := Option.some.inj hid
      rfl

/-- A word that stands for a number is shown with it. -/
theorem hoverAt_of_binds (hr : s.worker.registry.Reachable) (hrunning : s.worker.stopped = false)
    {uri text : Bytes} (htext : s.document? uri = some text) {p : Position} {id : Nat}
    (h : s.worker.registry.Binds (wordAt text p) id) :
    s.hoverAt uri p =
      .done (.hover (shownFor (wordAt text p) (decimal id) (s.worker.registry.doc (wordAt text p))))
        none := by
  rw [Session.hoverAt, htext]
  dsimp only
  rw [if_neg (hr.ne_nil_of_binds h), Session.answerWith_ask hrunning,
    hover?_eq_some_iff.mpr ⟨id, h, rfl⟩]

/-- What is shown is shown for a word that stands for a number. -/
theorem exists_of_hoverAt {uri shown : Bytes} {p : Position} {notice : Option Notice}
    (h : s.hoverAt uri p = .done (.hover shown) notice) :
    ∃ text id, s.document? uri = some text ∧ s.worker.registry.Binds (wordAt text p) id ∧
      shown = shownFor (wordAt text p) (decimal id) (s.worker.registry.doc (wordAt text p)) := by
  rw [Session.hoverAt] at h
  cases htext : s.document? uri with
  | none =>
    rw [htext] at h
    cases h
  | some text =>
    rw [htext] at h
    dsimp only at h
    by_cases hword : wordAt text p = []
    · rw [if_pos hword] at h
      cases h
    rw [if_neg hword] at h
    cases hstopped : s.worker.stopped with
    | true =>
      rw [Worker.ask, hstopped] at h
      cases h
    | false =>
      rw [Session.answerWith_ask hstopped] at h
      cases hhover : hover? s.worker.registry (wordAt text p) with
      | none =>
        rw [hhover] at h
        cases h
      | some shown' =>
        rw [hhover] at h
        cases h
        obtain ⟨id, hbinds, rfl⟩ := hover?_eq_some_iff.mp hhover
        exact ⟨text, id, rfl, hbinds, rfl⟩

/-! ## Hovers and assembling -/

/-- A line that assembles is one that assembling finds in the document. -/
theorem getElem?_programLines {text line : Bytes} {n : Nat} {i : Instruction}
    (hline : (documentLines text)[n]? = some line) (h : assembleLine r line = .ok i) :
    (programLines text)[n]? = some line := by
  rcases documentLines_cases text with hlines | hlines
  · rw [← hlines, hline]
  · rw [hlines, List.getElem?_append] at hline
    split at hline
    · exact hline
    · -- the line that only the editor has is empty
      obtain rfl := List.mem_singleton.mp (List.mem_of_getElem? hline)
      cases h

/-- The first word of a line that assembles stands for the number of the instruction. -/
theorem binds_of_assembleLine {line name : Bytes} {words : List Bytes} {i : Instruction}
    (h : assembleLine r line = .ok i) (hwords : split line 32 = name :: words) :
    ∃ id, r.Binds name id ∧ i.op = Int64.ofNat id := by
  rcases words_of_assembleLine h with ⟨name', hsplit⟩ | ⟨name', lit, hsplit⟩
  · obtain ⟨rfl, -⟩ := List.cons.inj (hwords.symm.trans hsplit)
    obtain ⟨id, hbinds, hop, -⟩ := (assembleLine_of_word hsplit).mp h
    exact ⟨id, hbinds, hop⟩
  · obtain ⟨rfl, -⟩ := List.cons.inj (hwords.symm.trans hsplit)
    obtain ⟨id, hbinds, hop, -⟩ := (assembleLine_of_words hsplit).mp h
    exact ⟨id, hbinds, hop⟩

/-- On the name of an instruction, a session whose worker is running shows the name with the number
that assembling the line leads to, if the name is made of ASCII letters, digits and underscores. And
whatever a session shows, it shows for a word that stands for a number, and with the number that
assembling the word leads to. -/
theorem hoverAt_eq_shownFor {s : Session α} (hr : s.worker.registry.Reachable) (uri : Bytes) :
    (∀ text n line i name words, s.worker.stopped = false → s.document? uri = some text →
      (documentLines text)[n]? = some line → assembleLine s.worker.registry line = .ok i →
      split line (ascii ' ') = name :: words → IsPlain name →
      (programLines text)[n]? = some line ∧
      ∃ id, s.worker.registry.Binds name id ∧ i.op = Int64.ofNat id ∧
        (s.worker.registry.size ≤ 2 ^ 63 → decimal id = word i.op) ∧
        ∀ k ≤ name.length, s.hoverAt uri ⟨n, k⟩ =
          .done (.hover (shownFor name (decimal id) (s.worker.registry.doc name))) none) ∧
    ∀ p shown notice, s.hoverAt uri p = .done (.hover shown) notice →
      ∃ text id, s.document? uri = some text ∧ s.worker.registry.Binds (wordAt text p) id ∧
        shown = shownFor (wordAt text p) (decimal id) (s.worker.registry.doc (wordAt text p)) ∧
        assemble s.worker.registry (wordAt text p) = .ok #[⟨Int64.ofNat id, 0⟩] := by
  constructor
  · intro text n line i name words hrunning htext hline hassemble hwords hplain
    obtain ⟨id, hbinds, hop⟩ := binds_of_assembleLine hassemble hwords
    obtain ⟨rest, rfl, hrest⟩ := exists_of_split_eq_cons (by decide) hwords
    refine ⟨getElem?_programLines hline hassemble, id, hbinds, hop, fun hsize => ?_, fun k hk => ?_⟩
    · rw [hop, hbinds.decimal_eq hsize]
    · have hstops : ∀ b ∈ rest.head?, isWordByte b = false := by
        intro b hb
        rw [hrest b hb]
        rfl
      have hword : wordAt text ⟨n, k⟩ = name := wordAt_of_name hline hplain.isWordByte hstops hk
      have hshown := hoverAt_of_binds hr hrunning htext (p := ⟨n, k⟩) (hword.symm ▸ hbinds)
      rwa [hword] at hshown
  · intro p shown notice h
    obtain ⟨text, id, htext, hbinds, hshown⟩ := exists_of_hoverAt h
    obtain ⟨hblank, hnewline⟩ := not_mem_wordAt text p
    exact ⟨text, id, htext, hbinds, hshown, hbinds.assemble_name hr hblank hnewline⟩

/-- Before and after the name on a line with an argument, the second addition is shown, with the
number it has. -/
theorem hoverAt_eq_shownFor_secondAddition :
    let text := utf8 "POP\nADD 7\n"
    let s := additionSession text
    let shown := shownFor (utf8 "ADD") (decimal 13) (s.worker.registry.doc (utf8 "ADD"))
    s.hoverAt (utf8 "file:///a.svm") ⟨1, 0⟩ = .done (.hover shown) none ∧
      s.hoverAt (utf8 "file:///a.svm") ⟨1, 3⟩ = .done (.hover shown) none ∧
      assemble s.worker.registry (wordAt text ⟨1, 3⟩) = .ok #[⟨13, 0⟩] := by
  intro text s shown
  have hr : s.worker.registry.Reachable := Registry.Reachable.empty.after Registry.secondAddition
  have hline : (documentLines text)[1]? = some (utf8 "ADD 7") := by
    rw [documentLines, pieces_eq_splitOn]
    decide
  have hwords : split (utf8 "ADD 7") 32 = [utf8 "ADD", utf8 "7"] := by
    rw [split_eq_splitOn (by decide)]
    decide
  have hbinds := Registry.lookup?_eq_some_iff.mp (lookup?_addition text)
  have hseven : Numeral.Denotes (utf8 "7") 7 :=
    ⟨utf8 "7", by decide, by decide, .inl ⟨.inl rfl, by decide⟩⟩
  have hassemble : assembleLine s.worker.registry (utf8 "ADD 7") = .ok ⟨13, 7⟩ :=
    (assembleLine_of_words hwords).mpr ⟨13, hbinds, rfl, hseven⟩
  have hnumber : ∀ id, s.worker.registry.Binds (utf8 "ADD") id → id = 13 := by
    intro id hid
    exact Option.some.inj
      ((Registry.lookup?_eq_some_iff.mpr hid).symm.trans (lookup?_addition text))
  have hat : wordAt text ⟨1, 3⟩ = utf8 "ADD" := by
    rw [wordAt_eq (p := ⟨1, 3⟩) hline]
    decide
  obtain ⟨hnames, honly⟩ := hoverAt_eq_shownFor hr (utf8 "file:///a.svm")
  obtain ⟨-, id, hid, -, -, hshown⟩ :=
    hnames text 1 _ _ _ _ rfl rfl hline hassemble hwords (by decide)
  obtain rfl := hnumber id hid
  refine ⟨hshown 0 (by decide), hshown 3 (by decide), ?_⟩
  obtain ⟨text', id, htext, hword, -, hcode⟩ := honly _ _ _ (hshown 3 (by decide))
  obtain rfl := Option.some.inj htext
  rw [hat] at hword
  obtain rfl := hnumber id hword
  exact hcode

end StackMachine.Editor
