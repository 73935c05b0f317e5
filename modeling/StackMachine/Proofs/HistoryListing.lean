import StackMachine.Proofs.Calendar
import StackMachine.Proofs.Reopening
import StackMachine.Proofs.Verdicts

/-!
# The listing of the history

Asked for the history, the command prints a line for each of the newest runs. `History.Run.ShownBy`
says what such a line holds; among it are the first twelve bytes of the digest of the program. A
digest that was computed has more (`History.length_programHash`), but whoever records a run may hand
over a digest of any length. The command does not check, and breaks down at one that is too short.

Which of the two happens is decided for every store that is kept in a file and every number of runs
that is asked for (`command_listHistory`).
-/

namespace StackMachine

open Text

/-! ## Times -/

namespace Instant

theorem sec_ofNanos (ns : Int64) : (ofNanos ns).sec.toInt = ns.toInt / nanosPerSecond := by
  have hlow := ns.le_toInt
  have hhigh := ns.toInt_lt
  rw [ofNanos, ofUnix, nanosPerSecond]
  dsimp only
  rw [Int64.zero_add, Int64.toInt_ofInt_of_le]
  · omega
  · omega

/-- The clocks of a zone show the second that is as far from the start of 1970 as they are ahead. -/
theorem denotes_toLocal (ns : Int64) (zone : Zone) :
    ((ofNanos ns).toLocal zone).Denotes
      (ns.toInt / nanosPerSecond + ((ofNanos ns).offset zone).toInt) := by
  have hlow := ns.le_toInt
  have hhigh := ns.toInt_lt
  have hbehind := ((ofNanos ns).offset zone).le_toInt
  have hahead := ((ofNanos ns).offset zone).toInt_lt
  -- nanoseconds that fit in a word are few seconds, so that adding the offset does not overflow
  have hsec : ((ofNanos ns).sec + ((ofNanos ns).offset zone).toInt64).toInt =
      ns.toInt / nanosPerSecond + ((ofNanos ns).offset zone).toInt := by
    rw [Int64.toInt_add, Int32.toInt_toInt64, sec_ofNanos, nanosPerSecond]
    apply Int.bmod_eq_of_le
    · omega
    · omega
  rw [← hsec]
  exact denotes_toCivil _

end Instant

namespace Rfc3339

theorem newline_not_mem_decimal (n : Nat) : (10 : UInt8) ∉ decimal n := fun hmem =>
  absurd (Numeral.digits_decimal n 10 hmem).1 (by decide)

theorem newline_not_mem_padLeft (n : Nat) {t : Bytes} (h : 10 ∉ t) :
    10 ∉ padLeft (ascii '0') n t := by
  intro hmem
  rcases List.mem_append.mp hmem with hfill | hmem
  · exact absurd (List.eq_of_mem_replicate hfill) (by decide)
  · exact h hmem

theorem newline_not_mem_pair (n : Nat) : 10 ∉ pair n :=
  newline_not_mem_padLeft 2 (newline_not_mem_decimal n)

theorem newline_not_mem_writeOffset (offset : Int) : 10 ∉ writeOffset offset := by
  have hsign : (10 : UInt8) ≠ ascii (if offset.tdiv 60 < 0 then '-' else '+') := by
    split_ifs <;> decide
  rw [writeOffset]
  split_ifs
  · decide
  all_goals
    simp only [List.mem_append, List.mem_cons, not_or]
    exact ⟨⟨⟨by decide, newline_not_mem_pair _⟩, by decide⟩, newline_not_mem_pair _⟩

/-- The digits, the marks and the letters of a time are no newlines. -/
theorem newline_not_mem_write (c : Instant.Civil) (offset : Int) : 10 ∉ write c 0 offset := by
  have hyear : (10 : UInt8) ∉ signed c.year := by
    rw [signed]
    split_ifs
    · rw [List.mem_cons, not_or]
      exact ⟨by decide, newline_not_mem_decimal _⟩
    · exact newline_not_mem_decimal _
  rw [write]
  simp only [List.mem_append, not_or]
  exact ⟨⟨⟨⟨⟨⟨⟨⟨⟨⟨⟨⟨newline_not_mem_padLeft 4 hyear, by decide⟩, newline_not_mem_pair _⟩,
    by decide⟩, newline_not_mem_pair _⟩, by decide⟩, newline_not_mem_pair _⟩, by decide⟩,
    newline_not_mem_pair _⟩, by decide⟩, newline_not_mem_pair _⟩, by decide⟩,
    newline_not_mem_writeOffset _⟩

end Rfc3339

namespace History

/-! ## Lines -/

/-- A digest that was computed has sixty-four digits. -/
theorem length_programHash (program : Bytes) : (programHash program).length = 64 := rfl

namespace Run

/-- How a run ended: the kind of its fault, or its result. -/
def ending (run : Run) : Bytes :=
  if run.failed then run.faultKind else utf8 "=> " ++ word run.result

/-- A line shows a run: its name, the date and time that the clocks of a zone showed in the second
it was created in, how far they are ahead of UTC, how it ended, and the first twelve bytes of its
digest. -/
def ShownBy (zone : Instant.Zone) (run : Run) (row : Bytes) : Prop :=
  12 ≤ run.programHash.length ∧
  ∃ time : Instant.Civil,
    time.Denotes (run.createdAt.toInt / Instant.nanosPerSecond + (run.time.offset zone).toInt) ∧
    row = run.id ++ utf8 "  " ++ Rfc3339.write time 0 (run.time.offset zone).toInt ++ utf8 "  "
      ++ padRight 20 run.ending ++ utf8 " " ++ run.programHash.take 12

/-- What is shown of a run holds no newline. -/
structure InOneLine (run : Run) : Prop where
  id : 10 ∉ run.id
  faultKind : 10 ∉ run.faultKind
  programHash : 10 ∉ run.programHash.take 12

variable {zone : Instant.Zone} {run : Run} {row : Bytes}

theorem ShownBy.newline_not_mem (h : run.ShownBy zone row) (hline : run.InOneLine) : 10 ∉ row := by
  obtain ⟨-, time, -, rfl⟩ := h
  have hending : 10 ∉ run.ending := by
    rw [ending]
    split_ifs
    · exact hline.faultKind
    · rw [List.mem_append, not_or]
      exact ⟨by decide, not_mem_word (by decide) (by decide) _⟩
  have hpadded : 10 ∉ padRight 20 run.ending := by
    intro hmem
    rcases List.mem_append.mp hmem with hmem | hfill
    · exact hending hmem
    · exact absurd (List.eq_of_mem_replicate hfill) (by decide)
  simp only [List.mem_append, not_or]
  exact ⟨⟨⟨⟨⟨⟨hline.id, by decide⟩, Rfc3339.newline_not_mem_write time _⟩, by decide⟩,
    hpadded⟩, by decide⟩, hline.programHash⟩

/-- The lines that show some runs are found again in the text that they make up. -/
theorem textLines_rows {runs : List Run} {rows : List Bytes}
    (h : List.Forall₂ (ShownBy zone) runs rows)
    (hlines : ∀ run ∈ runs, run.InOneLine) : textLines (rows.flatMap line) = rows := by
  have hrows : ∀ row ∈ rows, 10 ∉ row := by
    induction h with
    | nil => simp
    | cons hrow _ ih =>
      rw [List.forall_mem_cons] at hlines ⊢
      exact ⟨hrow.newline_not_mem hlines.1, ih hlines.2⟩
  rw [← programLines_eq]
  exact split_flatMap (by decide) hrows

end Run

end History

namespace Cli

open History

variable {zone : Instant.Zone} {run : Run} {runs : List Run}

/-- A run is shown if its digest is long enough. -/
theorem exists_historyRow? (zone : Instant.Zone) (h : 12 ≤ run.programHash.length) :
    ∃ row, historyRow? zone run = some (line row) ∧ run.ShownBy zone row :=
  ⟨_, if_neg (Nat.not_lt.mpr h), h, _, Instant.denotes_toLocal _ _, rfl⟩

theorem historyRow?_eq_none (h : run.programHash.length < 12) : historyRow? zone run = none :=
  if_pos h

/-- Runs that can be shown are shown before anything else is. -/
theorem exists_historyRows_append (zone : Instant.Zone)
    (h : ∀ run ∈ runs, 12 ≤ run.programHash.length) (rest : List Run) :
    ∃ rows, List.Forall₂ (Run.ShownBy zone) runs rows ∧
      historyRows zone (runs ++ rest) =
        (rows.flatMap line ++ (historyRows zone rest).1, (historyRows zone rest).2) := by
  induction runs with
  | nil => exact ⟨[], .nil, rfl⟩
  | cons run runs ih =>
    rw [List.forall_mem_cons] at h
    obtain ⟨row, hrow, hshown⟩ := exists_historyRow? zone h.1
    obtain ⟨rows, hothers, hrows⟩ := ih h.2
    refine ⟨row :: rows, .cons hshown hothers, ?_⟩
    rw [List.cons_append, historyRows, hrow, hrows, List.flatMap_cons, List.append_assoc]

/-- The first of the runs that cannot be shown. -/
theorem exists_first_short (h : ∃ run ∈ runs, run.programHash.length < 12) :
    ∃ before run after, runs = before ++ run :: after ∧
      (∀ earlier ∈ before, 12 ≤ earlier.programHash.length) ∧ run.programHash.length < 12 := by
  induction runs with
  | nil => simp at h
  | cons run runs ih =>
    by_cases hrun : run.programHash.length < 12
    · exact ⟨[], run, runs, rfl, List.forall_mem_nil _, hrun⟩
    · rw [List.exists_mem_cons_iff, or_iff_right hrun] at h
      obtain ⟨before, first, after, rfl, hbefore, hfirst⟩ := ih h
      exact ⟨run :: before, first, after, rfl,
        List.forall_mem_cons.mpr ⟨Nat.not_lt.mp hrun, hbefore⟩, hfirst⟩

/-! ## The command -/

variable {m : Manifest} {limit : Int64} {s : Surroundings} {fs : FileSystem}

/-- Listing the runs of a store that is kept shows the newest of them, or breaks down. -/
theorem listHistory_of_kept (limit : Int64) (hkept : Kept m.historyPath fs runs)
    (hinterrupt : s.interrupt = none) :
    ∃ files, listHistory m limit s fs =
      if (historyRows s.zone (Log.recent runs limit)).2
      then success files (historyRows s.zone (Log.recent runs limit)).1
      else .crash (historyRows s.zone (Log.recent runs limit)).1 files := by
  obtain ⟨store, files, hopen, hisOpen, hlog⟩ := hkept.openStore
  refine ⟨files, ?_⟩
  unfold listHistory
  rw [hopen]
  dsimp only
  rw [hinterrupt, Store.recent_of_isOpen hisOpen, hlog]
  dsimp only
  rcases historyRows s.zone (Log.recent runs limit) with ⟨rows, complete⟩
  cases complete <;> rfl

theorem listHistory_of_long (hkept : Kept m.historyPath fs runs) (hinterrupt : s.interrupt = none)
    (h : ∀ run ∈ Log.recent runs limit, 12 ≤ run.programHash.length) :
    ∃ files rows, listHistory m limit s fs = success files (rows.flatMap line) ∧
      List.Forall₂ (Run.ShownBy s.zone) (Log.recent runs limit) rows := by
  obtain ⟨files, hlist⟩ := listHistory_of_kept limit hkept hinterrupt
  obtain ⟨rows, hshown, hrows⟩ := exists_historyRows_append s.zone h []
  rw [List.append_nil, historyRows, List.append_nil] at hrows
  refine ⟨files, rows, ?_, hshown⟩
  rw [hlist, hrows, if_pos rfl]

theorem listHistory_of_short (hkept : Kept m.historyPath fs runs) (hinterrupt : s.interrupt = none)
    {before after : List Run} (hrecent : Log.recent runs limit = before ++ run :: after)
    (hbefore : ∀ earlier ∈ before, 12 ≤ earlier.programHash.length)
    (hshort : run.programHash.length < 12) :
    ∃ files rows, listHistory m limit s fs = .crash (rows.flatMap line) files ∧
      List.Forall₂ (Run.ShownBy s.zone) before rows := by
  obtain ⟨files, hlist⟩ := listHistory_of_kept limit hkept hinterrupt
  obtain ⟨rows, hshown, hrows⟩ := exists_historyRows_append s.zone hbefore (run :: after)
  rw [historyRows, historyRow?_eq_none hshort, List.append_nil, ← hrecent] at hrows
  refine ⟨files, rows, ?_, hshown⟩
  rw [hlist, hrows]
  rfl

/-- The command line asks for so many runs of the store with a name: it is understood, it asks for
nothing that goes before the history, and the manifest can be read and names the store. Nobody has
asked the command to stop. -/
def AsksForHistory (arguments : List Bytes) (s : Surroundings) (limit : Int64) (name : Bytes) :
    Prop :=
  0 < limit ∧ s.interrupt = none ∧ ∃ o operand m, request? arguments = some (o, operand) ∧
    o.ops = false ∧ o.lsp = false ∧ o.serve = false ∧ o.history = limit ∧
    configure o s.files = .ok m ∧ m.historyPath = name

/-- A command that is asked for the history lists it, once its log is open. -/
theorem AsksForHistory.command {arguments : List Bytes} {name : Bytes}
    (h : AsksForHistory arguments s limit name) :
    ∃ m, m.historyPath = name ∧
      Cli.command arguments s = listHistory m limit s (openLog m s.files) := by
  obtain ⟨hlimit, -, o, operand, m, hrequest, hops, hlsp, hserve, rfl, hm, hname⟩ := h
  refine ⟨m, hname, ?_⟩
  rw [command_of_request? hrequest, perform, hm]
  simp only [hops, hlsp, hserve, hlimit, Bool.false_eq_true, if_false, if_true]

/-- Opening the log changes nothing that is kept. -/
theorem kept_openLog {name : Bytes} (h : Kept name fs runs) (m : Manifest) :
    Kept name (openLog m fs) runs := by
  unfold openLog
  cases m.logPath? with
  | none => exact h
  | some path =>
    dsimp only
    split_ifs
    · exact h
    · exact h.touched path

/-- The command is asked for some of the history, which is kept in a file: any runs were recorded
there, with whatever the callers gave of them. There is one listing of these runs, the newest first
and among those of one time the last recorded first, such that of its runs as many are listed as was
asked for, or all if there are fewer.

If each of them has the digest that was computed for it, or one of twelve bytes at least, the
command succeeds and prints a line for each, in that order, with the times of the zone it is in;
where no name, no kind of fault and no digest holds a newline, these are the lines of what it
prints. If one of them has a shorter digest, the command prints the lines of those before the first
such run and breaks down. -/
theorem command_listHistory {arguments : List Bytes} {name : Bytes}
    (hasks : AsksForHistory arguments s limit name) (hkept : Kept name s.files runs) :
    ∃ shown, Log.Lists runs shown ∧
      let listed := shown.take (min limit.toInt.toNat runs.length)
      listed.length = min limit.toInt.toNat runs.length ∧
      ((∀ run ∈ listed, run.programHash = programHash run.program ∨ 12 ≤ run.programHash.length) →
        ∃ files rows, command arguments s =
          .report { code := 0, stdout := rows.flatMap line, stderr := [], files } ∧
          List.Forall₂ (Run.ShownBy s.zone) listed rows ∧
          ((∀ run ∈ listed, run.InOneLine) → textLines (rows.flatMap line) = rows)) ∧
      ((∃ run ∈ listed, run.programHash.length < 12) →
        ∃ before run after, listed = before ++ run :: after ∧
          (∀ earlier ∈ before, 12 ≤ earlier.programHash.length) ∧ run.programHash.length < 12 ∧
          ∃ files rows, command arguments s = .crash (rows.flatMap line) files ∧
            List.Forall₂ (Run.ShownBy s.zone) before rows) := by
  obtain ⟨m, hname, hcommand⟩ := hasks.command
  obtain ⟨hlimit, hinterrupt, -⟩ := hasks
  have hkept : Kept m.historyPath (openLog m s.files) runs := hname ▸ kept_openLog hkept m
  have hlists := Log.lists_newestFirst runs
  refine ⟨Log.newestFirst runs, hlists, ?_⟩
  rw [hcommand, ← Log.recent_of_pos runs hlimit]
  intro listed
  refine ⟨?_, fun hlong => ?_, fun hshort => ?_⟩
  · rw [show listed = _ from Log.recent_of_pos runs hlimit, List.length_take, hlists.perm.length_eq,
      Nat.min_assoc, Nat.min_self]
  · have hlong' : ∀ run ∈ listed, 12 ≤ run.programHash.length := by
      intro run hrun
      rcases hlong run hrun with hcomputed | hgiven
      · rw [hcomputed, length_programHash]
        decide
      · exact hgiven
    obtain ⟨files, rows, hreport, hshown⟩ := listHistory_of_long hkept hinterrupt hlong'
    exact ⟨files, rows, hreport, hshown, Run.textLines_rows hshown⟩
  · obtain ⟨before, run, after, hlisted, hbefore, hrun⟩ := exists_first_short hshort
    exact ⟨before, run, after, hlisted, hbefore, hrun,
      listHistory_of_short hkept hinterrupt hlisted hbefore hrun⟩

/-! ## A history with a short digest -/

/-- A run that is handed over with a name, a time and a digest. -/
def digestCall (id : String) (time : Int64) (digest : String) : Call :=
  ⟨⟨{ id := utf8 id, createdAt := some (.ofNanos time), programHash := utf8 digest }, ⟨[], 0⟩⟩,
    none⟩

/-- The store of the history if no manifest says where it is. -/
def usualStore : Store where
  path := utf8 ".stackvm/history.db"
  place := { path := some (utf8 ".stackvm/history.db") }

/-- The files of a directory in which nothing but the history is kept. -/
def historyAt (runs : List Run) : FileSystem where
  files := [([utf8 "home", utf8 ".stackvm", utf8 "history.db"], .runs runs)]
  dirs := [[utf8 "home", utf8 ".stackvm"]]
  cwd := [utf8 "home"]

/-- What surrounds a command in that directory. -/
def atHome (runs : List Run) : Surroundings :=
  { files := historyAt runs, stdin := .ok [], stamp := ⟨[], 0⟩, fuel := 0 }

/-- The runs that calls have recorded are kept there. -/
theorem kept_historyAt (calls : List Call) :
    Kept usualStore.path (historyAt (usualStore.recordAll calls).1)
      (usualStore.recordAll calls).1 := by
  have hmade : openStore { cwd := [utf8 "home"] } usualStore.path =
      (.ok usualStore, historyAt []) := by decide +kernel
  have hopen : openStore (historyAt []) usualStore.path = (.ok usualStore, historyAt []) := by
    decide +kernel
  have hfile : fileOf? (historyAt []) usualStore.path =
      some [utf8 "home", utf8 ".stackvm", utf8 "history.db"] := by
    decide +kernel
  have hsave : (usualStore.recordAll calls).2.save (historyAt []) =
      historyAt (usualStore.recordAll calls).1 := by
    rw [usualStore.log_recordAll calls, save_eq_put rfl hfile]
    rfl
  have hkept := Kept.used calls (.made hmade (by decide) rfl) hopen
  rwa [hsave, List.nil_append] at hkept

/-- A command that finds no manifest there looks for the history in the usual store. -/
theorem asksForHistory_atHome {runs : List Run}
    (hm : configure { history := 1 } (historyAt runs) = .ok {}) :
    AsksForHistory [utf8 "-history", utf8 "1"] (atHome runs) 1 usualStore.path :=
  ⟨by decide, rfl, { history := 1 }, [], {}, rfl, rfl, rfl, rfl, rfl, hm, rfl⟩

/-- The older run, which was recorded last, has a short digest. -/
def callsWithShortDigest : List Call :=
  [digestCall "b" 7 "0123456789abcdef", digestCall "s" 5 "short"]

/-- As long as only the newer run is asked for, the listing is a line that shows it. -/
theorem command_listHistory_newer :
    let runs := (usualStore.recordAll callsWithShortDigest).1
    AsksForHistory [utf8 "-history", utf8 "1"] (atHome runs) 1 usualStore.path ∧
    Kept usualStore.path (atHome runs).files runs ∧
    ∃ files row, command [utf8 "-history", utf8 "1"] (atHome runs) =
      .report { code := 0, stdout := line row, files } ∧
      (digestCall "b" 7 "0123456789abcdef").run.ShownBy .utc row ∧
      textLines (line row) = [row] := by
  intro runs
  have hm : configure { history := 1 } (historyAt runs) = .ok {} := by decide +kernel
  have hasks := asksForHistory_atHome hm
  have hkept := kept_historyAt callsWithShortDigest
  refine ⟨hasks, hkept, ?_⟩
  obtain ⟨shown, hshown, -, hlisted, -⟩ := command_listHistory hasks hkept
  have hnewest : Log.Lists runs runs := ⟨.refl _, List.pairwise_pair.mpr (.inl (by decide))⟩
  have hfirst : runs.take (min (1 : Int64).toInt.toNat runs.length) =
      [(digestCall "b" 7 "0123456789abcdef").run] := rfl
  rw [hshown.unique (by decide) hnewest, hfirst, List.forall_mem_singleton,
    List.forall_mem_singleton] at hlisted
  obtain ⟨files, rows, hreport, hrows, hlines⟩ := hlisted (.inr (by decide))
  obtain ⟨row, rest, hrow, hrest, rfl⟩ := List.forall₂_cons_left_iff.mp hrows
  obtain rfl := List.forall₂_nil_left_iff.mp hrest
  rw [List.flatMap_singleton] at hreport hlines
  exact ⟨files, row, hreport, hrow, hlines ⟨by decide, by decide, by decide⟩⟩

/-- Asked for a single run that was handed over with a digest of five bytes, the command breaks down
and has printed nothing. -/
theorem command_listHistory_shortDigest :
    let runs := (usualStore.recordAll [digestCall "s" 5 "short"]).1
    AsksForHistory [utf8 "-history", utf8 "1"] (atHome runs) 1 usualStore.path ∧
    Kept usualStore.path (atHome runs).files runs ∧
    ∃ files, command [utf8 "-history", utf8 "1"] (atHome runs) = .crash [] files := by
  intro runs
  have hm : configure { history := 1 } (historyAt runs) = .ok {} := by decide +kernel
  have hasks := asksForHistory_atHome hm
  have hkept := kept_historyAt [digestCall "s" 5 "short"]
  obtain ⟨m, hname, hcommand⟩ := hasks.command
  refine ⟨hasks, hkept, ?_⟩
  rw [hcommand]
  have hlisted : Log.recent runs 1 = [] ++ (digestCall "s" 5 "short").run :: [] := by
    rw [show runs = [(digestCall "s" 5 "short").run] from rfl, Log.recent, if_neg (by decide),
      Log.newestFirst, List.reverse_singleton, List.mergeSort_singleton]
    rfl
  obtain ⟨files, rows, hcrash, hrows⟩ :=
    listHistory_of_short (s := atHome runs) (hname ▸ kept_openLog hkept m) rfl hlisted
      (List.forall_mem_nil _) (by decide)
  obtain rfl := List.forall₂_nil_left_iff.mp hrows
  exact ⟨files, hcrash⟩

end Cli

end StackMachine
