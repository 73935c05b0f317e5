import StackMachine.Editor.Session
import StackMachine.Proofs.Assembling
import StackMachine.Proofs.CursorWords
import StackMachine.Proofs.Numbering

/-!
# Instructions that could stand at a cursor

While the first word of a line is being typed, an editor is offered the instructions that it could
become. What was typed is found by one look at the line, and whether it is the first word by
another; they agree (`atLineStart_iff`), so instructions are offered exactly where all that stands
before the cursor is word bytes.

`Completes` says what is offered: the names that stand for a number and begin with what was typed,
in the order of the numbers. A number is that of the latest registration of its name, which is the
one that assembling the name leads to (`Tables.Binds.assemble_name`).
-/

namespace StackMachine

open Text

variable {α : Type} {r : Registry α}

/-! ## Names on a line of their own -/

/-- A name that stands for a number assembles to it, unless the name holds a blank or a newline. -/
theorem Tables.Binds.assemble_name (hr : r.Reachable) {name : Bytes} {id : Nat}
    (h : r.Binds name id) (hblank : 32 ∉ name) (hnewline : 10 ∉ name) :
    assemble r name = .ok #[⟨Int64.ofNat id, 0⟩] := by
  have hne := hr.ne_nil_of_binds h
  have hwords : split name 32 = [name] := split_of_not_mem (by decide) hne hblank
  have hlines : programLines name = [name] := split_of_not_mem (by decide) hne hnewline
  have hline : assembleLine r name = .ok ⟨Int64.ofNat id, 0⟩ :=
    (assembleLine_of_word hwords).mpr ⟨id, h, rfl, rfl⟩
  rw [assemble, hlines, assembleLines, hline]
  rfl

/-- The number that a name stands for is written like the word that code holds in place of
the name. -/
theorem Tables.Binds.decimal_eq (hsize : r.size ≤ 2 ^ 63) {name : Bytes} {id : Nat}
    (h : r.Binds name id) :
    decimal id = word (Int64.ofNat id) := by
  have hid := h.lt_size
  rw [word, Int64.toInt_ofNat_of_lt (by omega), signed, if_neg (by omega), Int.natAbs_natCast]

namespace Editor

/-! ## What is offered -/

/-- The completions are right for what was typed. -/
structure Completes (r : Registry α) (typed : Bytes) (items : List Completion) : Prop where
  /-- The names that stand for a number at present and begin with what was typed, in upper case. -/
  labels : ∀ name, name ∈ items.map (·.label) ↔ (∃ id, r.Binds name id) ∧ upper typed <+: name
  /-- Each of them once. -/
  once : (items.map (·.label)).Nodup
  /-- In the order of the numbers. -/
  ordered : items.Pairwise fun a b => a.id < b.id
  /-- The number is the one the name stands for, and is shown beside it. -/
  numbered : ∀ c ∈ items, r.Binds c.label c.id ∧ c.detail = utf8 "opcode " ++ decimal c.id ∧
    c.documentation = r.doc c.label
  /-- A line of the name alone assembles to this number. -/
  assembled : ∀ c ∈ items, 32 ∉ c.label → 10 ∉ c.label → ∃ i, assemble r c.label = .ok #[i] ∧
    i.op = Int64.ofNat c.id ∧ i.arg = 0 ∧ (r.size ≤ 2 ^ 63 → c.detail = utf8 "opcode " ++ word i.op)

theorem mem_complete {typed : Bytes} {c : Completion} :
    c ∈ complete r typed ↔
      r.Binds c.label c.id ∧ upper typed <+: c.label ∧ c.documentation = r.doc c.label := by
  rw [complete, List.mem_map]
  constructor
  · rintro ⟨name, hname, rfl⟩
    rw [List.mem_filter, isSome_dropPrefix?] at hname
    obtain ⟨id, hid⟩ := Tables.mem_names_iff.mp hname.1
    refine ⟨?_, hname.2, rfl⟩
    rw [hid]
    exact Registry.lookup?_eq_some_iff.mp hid
  · rintro ⟨hbinds, hstart, hdoc⟩
    have hid := Registry.lookup?_eq_some_iff.mpr hbinds
    refine ⟨c.label, ?_, ?_⟩
    · rw [List.mem_filter, isSome_dropPrefix?]
      exact ⟨Tables.mem_names_iff.mpr ⟨_, hid⟩, hstart⟩
    · rw [hid, ← hdoc]
      rfl

theorem pairwise_complete (r : Registry α) (typed : Bytes) :
    (complete r typed).Pairwise fun a b => a.id < b.id := by
  rw [complete, List.pairwise_map]
  refine (r.inStep.pairwise_names.sublist List.filter_sublist).imp ?_
  rintro a b ⟨i, j, hi, hj, hij⟩
  rw [hi, hj]
  exact hij

theorem labels_complete (r : Registry α) (typed : Bytes) :
    (complete r typed).map (·.label) =
      r.names.filter fun name => (dropPrefix? (upper typed) name).isSome := by
  rw [complete, List.map_map]
  exact List.map_id _

/-- The completions of what was typed are right for it. -/
theorem completes_complete (hr : r.Reachable) (typed : Bytes) :
    Completes r typed (complete r typed) where
  labels name := by
    rw [labels_complete, List.mem_filter, isSome_dropPrefix?, Tables.mem_names_iff]
    simp only [Registry.lookup?_eq_some_iff]
  once := by
    rw [labels_complete]
    exact r.inStep.nodup_names.filter _
  ordered := pairwise_complete r typed
  numbered c hc := by
    obtain ⟨hbinds, -, hdoc⟩ := mem_complete.mp hc
    exact ⟨hbinds, rfl, hdoc⟩
  assembled c hc hblank hnewline := by
    have hbinds := (mem_complete.mp hc).1
    refine ⟨_, hbinds.assemble_name hr hblank hnewline, rfl, rfl, fun hsize => ?_⟩
    rw [Completion.detail, hbinds.decimal_eq hsize]

/-! ## Where it is offered -/

/-- A worker that is running answers from its registry. -/
theorem Session.answerWith_ask {s : Session α} (hrunning : s.worker.stopped = false)
    (question : Registry α → Result) :
    answerWith (s.worker.ask question) = .done (question s.worker.registry) none := by
  rw [Worker.ask, hrunning]
  rfl

/-- What was typed is the first word of its line exactly if there is nothing but word bytes before
the cursor. -/
theorem atLineStart_iff {text line : Bytes} {p : Position}
    (hline : (documentLines text)[p.line]? = some line) :
    atLineStart text p (wordBefore text p).length = true ↔
    ∀ b ∈ line.take p.character, isWordByte b = true := by
  have hsuffix := List.rtakeWhile_suffix isWordByte (line.take p.character)
  rw [wordBefore_eq hline, atLineStart, around?, hline, ← List.rtakeWhile_eq_self_iff]
  show (((line.take p.character).length : Int) == _) = true ↔ _
  rw [beq_iff_eq, Int.natCast_inj]
  constructor
  · intro hlength
    exact hsuffix.eq_of_length hlength.symm
  · intro hsame
    rw [hsame]

/-- The word before a cursor is all that stands before it, if that is nothing but word bytes. -/
theorem wordBefore_of_forall {text line : Bytes} {p : Position}
    (hline : (documentLines text)[p.line]? = some line)
    (h : ∀ b ∈ line.take p.character, isWordByte b = true) :
    wordBefore text p = line.take p.character := by
  rw [wordBefore_eq hline, List.rtakeWhile_eq_self_iff]
  exact h

/-- A session whose worker is running offers nothing for a document that it does not know, on a line
that the document does not have, and where anything but word bytes stands before the cursor.
Everywhere else it offers the completions that are right for what stands there. -/
theorem completeAt_completes {s : Session α} (hr : s.worker.registry.Reachable)
    (hrunning : s.worker.stopped = false) (uri : Bytes) (p : Position) :
    (s.document? uri = none → s.completeAt uri p = .done .nothing none) ∧
    ∀ text, s.document? uri = some text →
      ((documentLines text)[p.line]? = none → s.completeAt uri p = .done .nothing none) ∧
      ∀ line, (documentLines text)[p.line]? = some line →
        ((∃ b ∈ line.take p.character, isWordByte b = false) →
          s.completeAt uri p = .done .nothing none) ∧
        ((∀ b ∈ line.take p.character, isWordByte b = true) →
          ∃ items, s.completeAt uri p = .done (.completions items) none ∧
            Completes s.worker.registry (line.take p.character) items) := by
  refine ⟨fun hnone => by rw [Session.completeAt, hnone], fun text htext => ?_⟩
  have hcomplete : s.completeAt uri p =
      if !atLineStart text p (wordBefore text p).length then .done .nothing none
      else .done (.completions (complete s.worker.registry (wordBefore text p))) none := by
    rw [Session.completeAt, htext]
    dsimp only
    rw [Session.answerWith_ask hrunning]
  refine ⟨fun hmissing => ?_, fun line hline => ⟨?_, fun hword => ?_⟩⟩
  · have hstart : atLineStart text p (wordBefore text p).length = false := by
      rw [atLineStart, around?, hmissing]
      rfl
    rw [hcomplete, hstart]
    rfl
  · rintro ⟨b, hb, hother⟩
    have hstart : ¬ atLineStart text p (wordBefore text p).length = true := by
      rw [atLineStart_iff hline]
      intro hword
      exact Bool.false_ne_true (hother.symm.trans (hword b hb))
    rw [hcomplete, Bool.not_eq_true _ |>.mp hstart]
    rfl
  · refine ⟨_, ?_, completes_complete hr _⟩
    rw [hcomplete, (atLineStart_iff hline).mpr hword, wordBefore_of_forall hline hword]
    rfl

/-- A session that has one document, over the standard instructions and a second addition. -/
def additionSession (text : Bytes) : Session Standard where
  worker := { registry := Registry.empty.after Registry.secondAddition }
  isOpen := true
  documents := [(utf8 "file:///a.svm", text)]

theorem lookup?_addition (text : Bytes) :
    (additionSession text).worker.registry.lookup? (utf8 "ADD") = some 13 := by
  show (Registry.empty.after Registry.secondAddition).lookup? (utf8 "ADD") = some 13
  decide

/-- A line begins with small letters, and the second addition is offered for them, with the number
it has. -/
theorem completeAt_completes_secondAddition :
    let s := additionSession (utf8 "POP\nad 1")
    ∃ items, s.completeAt (utf8 "file:///a.svm") ⟨1, 2⟩ = .done (.completions items) none ∧
      utf8 "ADD" ∈ items.map (·.label) ∧ ∀ c ∈ items, c.label = utf8 "ADD" →
        c.detail = utf8 "opcode " ++ decimal 13 ∧
        assemble s.worker.registry c.label = .ok #[⟨13, 0⟩] := by
  intro s
  have hr : s.worker.registry.Reachable := Registry.Reachable.empty.after Registry.secondAddition
  have hline : (documentLines (utf8 "POP\nad 1"))[1]? = some (utf8 "ad 1") := by
    rw [documentLines, pieces_eq_splitOn]
    decide
  have hbinds := Registry.lookup?_eq_some_iff.mp (lookup?_addition (utf8 "POP\nad 1"))
  have hstart : upper ((utf8 "ad 1").take 2) <+: utf8 "ADD" := by decide +kernel
  obtain ⟨-, hknown⟩ := completeAt_completes hr rfl (utf8 "file:///a.svm") ⟨1, 2⟩
  obtain ⟨items, hitems, hright⟩ := ((hknown _ rfl).2 _ hline).2 (List.all_eq_true.mp (by decide))
  refine ⟨items, hitems, (hright.labels _).mpr ⟨⟨13, hbinds⟩, hstart⟩, ?_⟩
  intro c hc hlabel
  obtain ⟨hnumber, hdetail, -⟩ := hright.numbered c hc
  have hid : c.id = 13 := by
    rw [hlabel, ← Registry.lookup?_eq_some_iff] at hnumber
    exact Option.some.inj (hnumber.symm.trans (lookup?_addition _))
  obtain ⟨⟨op, arg⟩, hassemble, rfl, rfl, -⟩ :=
    hright.assembled c hc (by rw [hlabel]; decide) (by rw [hlabel]; decide)
  rw [hid] at hdetail hassemble
  exact ⟨hdetail, hassemble⟩

end Editor

end StackMachine
