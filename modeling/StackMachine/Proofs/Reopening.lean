import StackMachine.Proofs.NewestFirst
import StackMachine.History.Opening

/-!
# Stores that are opened again

A store that lives in a file outlasts its use: whoever opens it again by its name finds the runs
that were in it. For that the name has to lead to the same file as before, although files and
directories have been added in the meantime. It does because a path only passes through directories,
and none of these is lost (`FileSystem.Within`).

`Kept` describes the files in which a store is kept after it has been made and used any number of
times, and the runs that were recorded in it; `Kept.openStore` says that they are found.
-/

namespace StackMachine

open Text

/-! ## Adding files and directories -/

namespace FileSystem

/-- Every directory of the one file system is a directory of the other and has not become a file
there. -/
structure Within (fs fs' : FileSystem) : Prop where
  cwd : fs'.cwd = fs.cwd
  isDir : ∀ l, fs.isDir l = true → fs'.isDir l = true
  file? : ∀ l, fs.isDir l = true → fs.file? l = none → fs'.file? l = none

variable {fs fs' fs'' : FileSystem} {l l' : Location} {c : Content} {p : Bytes}

theorem Within.refl (fs : FileSystem) : fs.Within fs := ⟨rfl, fun _ => id, fun _ _ => id⟩

theorem Within.trans (h : fs.Within fs') (h' : fs'.Within fs'') : fs.Within fs'' where
  cwd := h'.cwd.trans h.cwd
  isDir l hdir := h'.isDir l (h.isDir l hdir)
  file? l hdir hfile := h'.file? l (h.isDir l hdir) (h.file? l hdir hfile)

/-- A path that leads somewhere leads there still. -/
theorem Within.walk_eq (h : fs.Within fs') {parts : List Bytes} (hwalk : fs.walk l parts = .ok l') :
    fs'.walk l parts = .ok l' := by
  induction parts generalizing l with
  | nil => exact hwalk
  | cons part rest ih =>
    unfold walk at hwalk ⊢
    split at hwalk
    · cases hwalk
    · rename_i hfile
      split at hwalk
      · cases hwalk
      · rename_i hdir
        rw [Bool.not_eq_true, Option.isSome_eq_false_iff, Option.isNone_iff_eq_none] at hfile
        rw [Bool.not_eq_true, Bool.not_eq_false'] at hdir
        rw [h.file? l hdir hfile, h.isDir l hdir, if_neg (by simp), if_neg (by simp)]
        split_ifs at hwalk ⊢ with hhere hup hlong
        · exact ih hwalk
        · exact ih hwalk
        · exact ih hwalk

theorem Within.locate_eq (h : fs.Within fs') (hlocate : fs.locate p = .ok l) :
    fs'.locate p = .ok l := by
  unfold locate at hlocate ⊢
  split_ifs at hlocate ⊢ with hempty hzero hlong habsolute
  · exact h.walk_eq hlocate
  · rw [h.cwd]
    exact h.walk_eq hlocate

theorem Within.cwdPath_eq (h : fs.Within fs') : fs'.cwdPath = fs.cwdPath := by
  rw [cwdPath, cwdPath, h.cwd]

/-! ## Files -/

theorem lookup_filter_ne (files : List (Location × Content)) (h : l' ≠ l) :
    (files.filter (·.1 ≠ l)).lookup l' = files.lookup l' := by
  induction files with
  | nil => rfl
  | cons entry files ih =>
    obtain ⟨m, d⟩ := entry
    by_cases hm : m = l
    · rw [List.filter_cons_of_neg (by simpa using hm), ih, List.lookup_cons, hm, beq_false_of_ne h]
    · rw [List.filter_cons_of_pos (by simpa using hm), List.lookup_cons, List.lookup_cons, ih]

theorem file?_put_self (fs : FileSystem) (l : Location) (c : Content) :
    (fs.put l c).file? l = some c := by
  rw [file?, put, List.lookup_cons_self]

theorem file?_put_of_ne (fs : FileSystem) (c : Content) (h : l' ≠ l) :
    (fs.put l c).file? l' = fs.file? l' := by
  rw [file?, put, List.lookup_cons, beq_false_of_ne h]
  exact lookup_filter_ne fs.files h

/-- Writing a file takes no directory away. -/
theorem isDir_put (fs : FileSystem) (l : Location) (c : Content) (h : fs.isDir l' = true) :
    (fs.put l c).isDir l' = true := by
  unfold isDir at h ⊢
  rw [Bool.or_eq_true, Bool.or_eq_true] at h ⊢
  rcases h with hbefore | hfile
  · exact .inl hbefore
  · refine .inr ?_
    obtain ⟨⟨m, d⟩, hmem, hbelow⟩ := List.any_eq_true.mp hfile
    refine List.any_eq_true.mpr ?_
    -- the file below the directory is still there, or it is the one that was written
    by_cases hm : m = l
    · exact ⟨(l, c), List.mem_cons_self, hm ▸ hbelow⟩
    · exact ⟨(m, d), List.mem_cons_of_mem _ (List.mem_filter.mpr ⟨hmem, by simpa using hm⟩), hbelow⟩

/-- A file can be written where there is one, or where there is no directory. -/
theorem within_put (fs : FileSystem) (c : Content) (h : fs.file? l = none → fs.isDir l = false) :
    fs.Within (fs.put l c) where
  cwd := rfl
  isDir _ := fs.isDir_put l c
  file? l' hdir hfile := by
    by_cases hl : l' = l
    · subst hl
      rw [h hfile] at hdir
      cases hdir
    · rw [file?_put_of_ne fs c hl, hfile]

theorem within_touch (fs : FileSystem) (p : Bytes) : fs.Within (fs.touch p) := by
  unfold touch
  cases fs.locate p with
  | error o => exact .refl fs
  | ok l =>
    dsimp only
    split_ifs with hoccupied
    · exact .refl fs
    · rw [occupied, Bool.or_eq_true, not_or] at hoccupied
      exact fs.within_put _ fun _ => Bool.not_eq_true _ ▸ hoccupied.2

/-- Making sure that a file exists changes no file that does. -/
theorem file?_touch (fs : FileSystem) (p : Bytes) (h : fs.file? l = some c) :
    (fs.touch p).file? l = some c := by
  unfold touch
  cases fs.locate p with
  | error o => exact h
  | ok m =>
    dsimp only
    split_ifs with hoccupied
    · exact h
    · have hne : l ≠ m := by
        rintro rfl
        rw [occupied, h, Option.isSome_some, Bool.true_or] at hoccupied
        exact hoccupied rfl
      rw [file?_put_of_ne fs _ hne, h]

/-! ## Directories -/

/-- A directory that was made is there, and nothing was lost. -/
theorem within_makeDir (h : fs.makeDir p = .ok fs') :
    fs.Within fs' ∧ ∃ l, fs.locate p = .ok l ∧ fs'.isDir l = true := by
  unfold makeDir at h
  cases hlocate : fs.locate p with
  | error o =>
    rw [hlocate] at h
    cases h
  | ok l =>
    rw [hlocate] at h
    dsimp only at h
    split_ifs at h with hdir hfile
    · cases h
      exact ⟨.refl fs, l, rfl, hdir⟩
    · cases h
      refine ⟨⟨rfl, fun m hm => ?_, fun m _ hm => hm⟩, l, rfl, ?_⟩
      · unfold isDir at hm ⊢
        rw [List.any_cons]
        simp only [Bool.or_eq_true] at hm ⊢
        tauto
      · unfold isDir
        rw [List.any_cons, List.isPrefixOf_iff_prefix.mpr (List.prefix_refl l), Bool.true_or,
          Bool.or_true, Bool.true_or]

/-- Directories that were made are there afterwards, so that making them again changes nothing. -/
theorem within_makeEach {ps : List Bytes} (h : fs.makeEach ps = (none, fs')) :
    fs.Within fs' ∧ ∀ fs'', fs'.Within fs'' → fs''.makeEach ps = (none, fs'') := by
  induction ps generalizing fs with
  | nil =>
    cases h
    exact ⟨.refl _, fun _ _ => rfl⟩
  | cons p ps ih =>
    rw [makeEach] at h
    cases hmake : fs.makeDir p with
    | error e =>
      rw [hmake] at h
      cases h
    | ok mid =>
      rw [hmake] at h
      obtain ⟨hfirst, l, hlocate, hdir⟩ := within_makeDir hmake
      obtain ⟨hrest, hagain⟩ := ih h
      refine ⟨hfirst.trans hrest, fun fs'' hlater => ?_⟩
      have hmade : fs''.makeDir p = .ok fs'' := by
        rw [makeDir, (hfirst.trans (hrest.trans hlater)).locate_eq hlocate]
        exact if_pos ((hrest.trans hlater).isDir l hdir)
      rw [makeEach, hmade]
      exact hagain fs'' hlater

end FileSystem

namespace History

variable {fs fs' mid : FileSystem} {name path : Bytes} {place : Place} {store : Store} {log : Log}
  {l : Location}

/-! ## Opening a store -/

/-- The directory that a store needs is there: there is nothing to make. -/
def Prepared (fs : FileSystem) (name : Bytes) : Prop :=
  name = Place.memoryName ∨ fs.makeDirs (Path.dir name) = (none, fs)

theorem Prepared.mono (h : Prepared fs name) (hwithin : fs.Within fs') : Prepared fs' name :=
  h.imp_right fun hmade => (FileSystem.within_makeEach hmade).2 fs' hwithin

/-- Opening a store first makes the directory, then finds the store, and then writes its file. -/
theorem exists_of_openStore (h : openStore fs name = (.ok store, fs')) :
    ∃ mid, Prepared mid name ∧ findStore mid name = .ok store ∧ fs' = store.save mid := by
  unfold openStore at h
  split at h
  · cases h
  · rename_i mid hmade
    have hprepared : Prepared mid name := by
      by_cases hname : name = Place.memoryName
      · exact .inl hname
      · rw [if_neg hname] at hmade
        exact .inr ((FileSystem.within_makeEach hmade).2 mid (.refl mid))
    cases hfind : findStore mid name with
    | error e =>
      rw [hfind] at h
      cases h
    | ok found =>
      rw [hfind] at h
      cases h
      exact ⟨mid, hprepared, hfind, rfl⟩

theorem openStore_of_prepared (h : Prepared fs name) (hfind : findStore fs name = .ok store) :
    openStore fs name = (.ok store, store.save fs) := by
  have hmade : (if name = Place.memoryName then (none, fs) else fs.makeDirs (Path.dir name)) =
      (none, fs) := by
    split_ifs with hname
    · rfl
    · exact h.resolve_left hname
  unfold openStore
  rw [hmade]
  dsimp only
  rw [hfind]

/-- A store that was found is at the place that its name stands for. Its runs were there, or there
was no store yet. -/
theorem exists_of_findStore (h : findStore fs name = .ok store) :
    Place.ofName name = .ok store.place ∧ Place.checkName name = .ok () ∧
      ∃ found : Option Log,
        logAt fs store.place = .ok found ∧
        store = { path := name, place := store.place, log := found.getD [] } := by
  unfold findStore at h
  cases hplace : Place.ofName name with
  | error e =>
    rw [hplace] at h
    cases h
  | ok place =>
    rw [hplace] at h
    dsimp only [Except.mapError, bind, Except.bind] at h
    cases hfound : logAt fs place with
    | error e =>
      rw [hfound] at h
      cases e <;> cases hname : Place.checkName name <;> simp [hname] at h
    | ok found =>
      rw [hfound] at h
      dsimp only at h
      cases hname : Place.checkName name with
      | error e =>
        rw [hname] at h
        cases h
      | ok _ =>
        rw [hname] at h
        dsimp only at h
        cases found with
        | some log =>
          cases h
          exact ⟨rfl, rfl, some log, hfound, rfl⟩
        | none =>
          dsimp only at h
          split_ifs at h
          cases h
          exact ⟨rfl, rfl, none, hfound, rfl⟩

/-- The store whose runs are at the place that a name stands for is found. -/
theorem findStore_of_logAt (hplace : Place.ofName name = .ok place)
    (hname : Place.checkName name = .ok ()) (hlog : logAt fs place = .ok (some log)) :
    findStore fs name = .ok { path := name, place, log } := by
  unfold findStore
  rw [hplace, hname]
  dsimp only [Except.mapError, bind, Except.bind]
  rw [hlog]

/-! ## Keeping a store -/

theorem fileOf?_mono (h : fs.Within fs') (hfile : fileOf? fs path = some l) :
    fileOf? fs' path = some l := by
  unfold fileOf? at hfile ⊢
  rw [h.cwdPath_eq]
  dsimp only at hfile ⊢
  split_ifs at hfile ⊢
  cases hlocate : fs.locate (Path.absolute fs.cwdPath path) with
  | error o =>
    rw [hlocate] at hfile
    cases hfile
  | ok m =>
    rw [hlocate] at hfile
    rw [h.locate_eq hlocate]
    exact hfile

/-- Where a store was looked for, its file is or can be made. -/
theorem exists_of_logAt {found : Option Log} (h : logAt fs place = .ok found)
    (hpath : place.path = some path) :
    ∃ l, fileOf? fs path = some l ∧ (fs.file? l = none → fs.isDir l = false) := by
  unfold logAt at h
  rw [hpath] at h
  dsimp only at h
  cases hfile : fileOf? fs path with
  | none =>
    rw [hfile] at h
    cases h
  | some l =>
    refine ⟨l, rfl, fun habsent => ?_⟩
    rw [hfile] at h
    dsimp only at h
    rw [habsent] at h
    dsimp only at h
    split_ifs at h with hno
    exact Bool.not_eq_true _ ▸ fun hdir => hno (.inl hdir)

theorem save_eq_put (hpath : store.place.path = some path) (hfile : fileOf? fs path = some l) :
    store.save fs = fs.put l (.runs store.log) := by
  rw [Store.save, hpath, Option.bind_some, hfile]

/-- A file that belongs to a name holds some runs. -/
structure Keeps (fs : FileSystem) (name : Bytes) (place : Place) (log : Log) : Prop where
  place_eq : Place.ofName name = .ok place
  checked : Place.checkName name = .ok ()
  prepared : Prepared fs name
  file : ∃ path l, place.path = some path ∧ fileOf? fs path = some l ∧ fs.file? l = some (.runs log)

namespace Keeps

/-- A store that was written to its file is kept there. -/
theorem of_save (hplace : Place.ofName name = .ok store.place)
    (hname : Place.checkName name = .ok ()) (hprepared : Prepared fs name)
    (hpath : store.place.path = some path) (hfile : fileOf? fs path = some l)
    (hfree : fs.file? l = none → fs.isDir l = false) :
    Keeps (store.save fs) name store.place store.log := by
  have hwithin := fs.within_put (.runs store.log) hfree
  rw [save_eq_put hpath hfile]
  exact ⟨hplace, hname, hprepared.mono hwithin, path, l, hpath, fileOf?_mono hwithin hfile,
    fs.file?_put_self l _⟩

/-- A store that was opened is kept in its file, if it has one. -/
theorem of_openStore (h : openStore fs name = (.ok store, fs')) (hpath : store.place.path ≠ none) :
    Keeps fs' name store.place store.log := by
  obtain ⟨mid, hprepared, hfind, rfl⟩ := exists_of_openStore h
  obtain ⟨hplace, hname, found, hfound, -⟩ := exists_of_findStore hfind
  obtain ⟨path, hpath⟩ := Option.ne_none_iff_exists'.mp hpath
  obtain ⟨l, hfile, hfree⟩ := exists_of_logAt hfound hpath
  exact of_save hplace hname hprepared hpath hfile hfree

/-- A store that is kept is found. -/
theorem openStore_eq (h : Keeps fs name place log) :
    openStore fs name =
      (.ok { path := name, place, log }, Store.save { path := name, place, log } fs) := by
  obtain ⟨path, l, hpath, hfile, hruns⟩ := h.file
  have hlog : logAt fs place = .ok (some log) := by
    unfold logAt
    rw [hpath]
    dsimp only
    rw [hfile]
    dsimp only
    rw [hruns]
    rfl
  exact openStore_of_prepared h.prepared (findStore_of_logAt h.place_eq h.checked hlog)

/-- The runs that are kept are those of the store that was written last. -/
theorem save (h : Keeps fs name place log) (hstore : store.place = place) :
    Keeps (store.save fs) name place store.log := by
  obtain ⟨path, l, hpath, hfile, hruns⟩ := h.file
  subst hstore
  refine of_save h.place_eq h.checked h.prepared hpath hfile fun habsent => ?_
  rw [hruns] at habsent
  cases habsent

theorem touch (h : Keeps fs name place log) (p : Bytes) : Keeps (fs.touch p) name place log := by
  obtain ⟨path, l, hpath, hfile, hruns⟩ := h.file
  have hwithin := fs.within_touch p
  exact ⟨h.place_eq, h.checked, h.prepared.mono hwithin, path, l, hpath, fileOf?_mono hwithin hfile,
    fs.file?_touch p hruns⟩

end Keeps

/-- The files in which a store is kept under a name, and the runs that were recorded in it, in that
order. The store was empty when it was made; since then it was opened and called any number of
times. Files that others have made in the meantime do not matter. A store that lives in no file is
not kept. -/
inductive Kept (name : Bytes) : FileSystem → List Run → Prop where
  | made {fs fs' base} (hopen : openStore fs name = (.ok base, fs'))
      (hfile : base.place.path ≠ none)
      (hempty : base.log = []) : Kept name fs' []
  | used {fs fs' base runs} (calls : List Call) (hkept : Kept name fs runs)
      (hopen : openStore fs name = (.ok base, fs')) :
      Kept name ((base.recordAll calls).2.save fs') (runs ++ (base.recordAll calls).1)
  | touched {fs runs} (p : Bytes) (hkept : Kept name fs runs) : Kept name (fs.touch p) runs

/-- All that was recorded is kept. -/
theorem Kept.keeps {runs : List Run} (h : Kept name fs runs) :
    ∃ place, Keeps fs name place runs := by
  induction h with
  | made hopen hfile hempty => exact ⟨_, hempty ▸ Keeps.of_openStore hopen hfile⟩
  | touched p _ ih =>
    obtain ⟨place, hkeeps⟩ := ih
    exact ⟨place, hkeeps.touch p⟩
  | @used fs fs' base runs calls _ hopen ih =>
    obtain ⟨place, hkeeps⟩ := ih
    -- what is opened is what was kept, and the calls only add to it
    obtain ⟨hbase, hfiles⟩ := Prod.mk.inj (hkeeps.openStore_eq.symm.trans hopen)
    have hbase := Except.ok.inj hbase
    have hall := base.log_recordAll calls
    have hplace : (base.recordAll calls).2.place = place := by
      rw [hall, ← hbase]
    have hlog : (base.recordAll calls).2.log = runs ++ (base.recordAll calls).1 := by
      rw [hall, ← hbase]
    rw [← hfiles, ← hlog]
    exact ⟨place, (hkeeps.save rfl).save hplace⟩

/-- Whoever opens a store that is kept finds what was recorded in it. -/
theorem Kept.openStore {runs : List Run} (h : Kept name fs runs) :
    ∃ store fs', openStore fs name = (.ok store, fs') ∧ store.isOpen = true ∧ store.log = runs := by
  obtain ⟨place, hkeeps⟩ := h.keeps
  exact ⟨_, _, hkeeps.openStore_eq, rfl, rfl⟩

end History

end StackMachine
