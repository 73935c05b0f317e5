import StackMachine.Proofs.RunLog

/-!
# The newest runs

What a store holds was put there by calls, some of which may have been refused (`Store.recordAll`).
Each call that was not refused puts its run behind those that are there, and under a name of its own
(`Store.log_recordAll`, `Store.nodup_recordAll`).

A store shows its runs in the order that `Log.Outranks` describes: the newer first, and among those
of one time the one that was recorded later. A run that is recorded takes its place in that order
and moves no other (`Log.newestFirst_insert`), so that the order holds of every log
(`Log.lists_newestFirst`). A limit cuts the listing short (`recent_recordAll`).
-/

namespace StackMachine

open Text

namespace History

/-! ## Calls -/

/-- A call that hands over a run for recording. It may have been given up before it is made. -/
structure Call extends Submission where
  interrupt : Option Interrupt := none

/-- The run that is recorded if the call is not refused. -/
def Call.run (c : Call) : Run := c.draft.complete c.stamp

namespace Store

/-- Makes one call after another: the runs that were recorded, in that order, and the store after
the calls. A call that is refused, for whatever reason, is passed over. -/
def recordAll : Store → List Call → List Run × Store
  | s, [] => ([], s)
  | s, c :: calls =>
    match s.record c.interrupt c.draft c.stamp with
    | .ok (_, s') => (c.run :: (s'.recordAll calls).1, (s'.recordAll calls).2)
    | .error _ => s.recordAll calls

variable {s s' : Store} {c : Call} {id : Bytes}

/-- A call that is not refused was not given up, its run has a name that was free, and the run is
added. -/
theorem eq_add_of_record_eq_ok (h : s.record c.interrupt c.draft c.stamp = .ok (id, s')) :
    s.Admits c.run.id ∧ s' = s.add c.run := by
  have hin_time : c.interrupt = none := by
    unfold record available at h
    cases hlate : c.interrupt with
    | none => rfl
    | some i => cases hopen : s.isOpen <;> simp [hlate, hopen, bind, Except.bind] at h
  rw [hin_time] at h
  obtain ⟨hadmits, -, hadd⟩ := record_eq_ok_iff.mp h
  exact ⟨hadmits, hadd⟩

/-- Calls change nothing but the log, and there they only add. -/
theorem log_recordAll (s : Store) (calls : List Call) :
    (s.recordAll calls).2 = { s with log := s.log ++ (s.recordAll calls).1 } := by
  induction calls generalizing s with
  | nil => rw [recordAll, List.append_nil]
  | cons c calls ih =>
    rw [recordAll]
    cases hrecord : s.record c.interrupt c.draft c.stamp with
    | error e => exact ih s
    | ok answer =>
      obtain ⟨-, hadd⟩ := eq_add_of_record_eq_ok hrecord
      dsimp only
      rw [ih, hadd, add, List.append_assoc, List.singleton_append]

/-- The runs of a store have names of their own, however many calls are made. -/
theorem nodup_recordAll (h : (s.log.map (·.id)).Nodup) (calls : List Call) :
    ((s.recordAll calls).2.log.map (·.id)).Nodup := by
  induction calls generalizing s with
  | nil => exact h
  | cons c calls ih =>
    rw [recordAll]
    cases hrecord : s.record c.interrupt c.draft c.stamp with
    | error e => exact ih h
    | ok answer =>
      obtain ⟨⟨-, -, hfree⟩, hadd⟩ := eq_add_of_record_eq_ok hrecord
      refine ih ?_
      rw [hadd, add, List.map_append, List.map_singleton]
      exact h.append (List.nodup_singleton _) (by simpa using Log.get?_eq_none_iff.mp hfree)

end Store

/-! ## The order of a listing -/

namespace Log

/-- One run of a log is listed before another: it is newer, or it is of the same time and was
recorded later. -/
def Outranks (log : Log) (a b : Run) : Prop :=
  b.createdAt < a.createdAt ∨ b.createdAt = a.createdAt ∧ [b, a].Sublist log

instance (log : Log) (a b : Run) : Decidable (log.Outranks a b) :=
  inferInstanceAs (Decidable (_ ∨ _))

/-- The runs of a log, each as often as it is there, in the order of a listing. -/
structure Lists (log : Log) (shown : List Run) : Prop where
  perm : shown.Perm log
  ordered : shown.Pairwise log.Outranks

/-- Recording another run does not change which of two runs is listed first. -/
theorem Outranks.concat {log : Log} {a b : Run} (h : log.Outranks a b) (run : Run) :
    Outranks (log ++ [run]) a b :=
  h.imp_right fun htie => ⟨htie.1, htie.2.trans (List.sublist_append_left _ _)⟩

/-- The run recorded last is listed before those that are not newer. -/
theorem outranks_concat {log : Log} {run old : Run} (hold : old ∈ log)
    (h : old.createdAt ≤ run.createdAt) :
    Outranks (log ++ [run]) run old := by
  rcases Int64.lt_or_eq_of_le h with hless | htie
  · exact .inl hless
  · exact .inr ⟨htie, (List.singleton_sublist.mpr hold).append (List.Sublist.refl [run])⟩

/-- A log is shown in the order of a listing. -/
theorem lists_newestFirst (log : Log) : log.Lists log.newestFirst := by
  induction log using List.reverseRecOn with
  | nil => exact ⟨by simp [newestFirst], by simp [newestFirst]⟩
  | append_singleton log run ih =>
    obtain ⟨hperm, hordered⟩ := ih
    obtain ⟨newer, rest, hlog, hconcat, hnewer, hrest⟩ := newestFirst_insert log run
    rw [hlog] at hperm hordered
    rw [hconcat]
    -- the order of the runs before stays, and the last one stands between the newer and the others
    obtain ⟨hnewers, hrests, hacross⟩ :=
      List.pairwise_append.mp (hordered.imp fun h => h.concat run)
    refine ⟨?_,
      List.pairwise_append.mpr ⟨hnewers, List.pairwise_cons.mpr ⟨fun old hold => ?_, hrests⟩, ?_⟩⟩
    · exact List.perm_middle.trans
        ((hperm.cons run).trans (List.perm_append_singleton run log).symm)
    · exact outranks_concat (hperm.subset (List.mem_append_right _ hold)) (hrest old hold)
    · intro old hold after hafter
      rcases List.mem_cons.mp hafter with rfl | hafter
      · exact .inl (hnewer old hold)
      · exact hacross old hold after hafter

/-- Of two runs that are in a log once, only one was recorded before the other. -/
theorem not_sublist_swap {log : Log} (h : log.Nodup) {a b : Run} (hab : [a, b].Sublist log) :
    ¬ [b, a].Sublist log := by
  induction log with
  | nil => cases hab
  | cons run log ih =>
    rw [List.nodup_cons] at h
    intro hba
    rcases List.sublist_cons_iff.mp hab with hlater | ⟨_, ha, hb⟩
    · rcases List.sublist_cons_iff.mp hba with hlater' | ⟨_, hb, -⟩
      · exact ih h.2 hlater hlater'
      · obtain ⟨rfl, -⟩ := List.cons.inj hb
        exact h.1 (hlater.subset (List.mem_cons_of_mem _ List.mem_cons_self))
    · obtain ⟨rfl, rfl⟩ := List.cons.inj ha
      rcases List.sublist_cons_iff.mp hba with hlater | ⟨_, hb', -⟩
      · exact h.1 (hlater.subset (List.mem_cons_of_mem _ List.mem_cons_self))
      · obtain ⟨rfl, -⟩ := List.cons.inj hb'
        exact h.1 (hb.subset List.mem_cons_self)

/-- A log whose runs are all different has only one listing. -/
theorem Lists.unique {log : Log} {shown shown' : List Run} (h : log.Nodup)
    (hshown : log.Lists shown) (hshown' : log.Lists shown') : shown = shown' := by
  refine List.Perm.eq_of_pairwise ?_ hshown.ordered hshown'.ordered
    (hshown.perm.trans hshown'.perm.symm)
  rintro a b - - (hlater | ⟨htie, hba⟩) (hlater' | ⟨htie', hab⟩)
  · exact absurd hlater' (Int64.lt_asymm hlater)
  · exact absurd htie'.symm (Int64.ne_of_lt hlater)
  · exact absurd htie.symm (Int64.ne_of_lt hlater')
  · exact absurd hba (not_sublist_swap h hab)

/-- A positive limit cuts the listing short. -/
theorem recent_of_pos (log : Log) {limit : Int64} (h : 0 < limit) :
    log.recent limit = log.newestFirst.take (min limit.toInt.toNat log.length) := by
  have hlength : log.newestFirst.length = log.length := log.lists_newestFirst.perm.length_eq
  rw [recent, if_neg (Int64.not_le.mpr h), ← hlength, List.take_eq_take_min]

theorem recent_of_nonpos (log : Log) {limit : Int64} (h : limit ≤ 0) :
    log.recent limit = log.newestFirst :=
  if_pos h

/-- A larger limit shows more of the same listing, and so does none. -/
theorem recent_isPrefix (log : Log) {limit larger : Int64} (h : 0 < limit)
    (hlarger : limit ≤ larger ∨ larger ≤ 0) :
    log.recent limit <+: log.recent larger := by
  rw [recent, if_neg (Int64.not_le.mpr h)]
  rcases hlarger with hlarger | hnone
  · rw [recent, if_neg (Int64.not_le.mpr (Int64.lt_of_lt_of_le h hlarger))]
    exact List.take_prefix_take_left (Int.toNat_le_toNat (Int64.le_iff_toInt_le.mp hlarger))
  · rw [log.recent_of_nonpos hnone]
    exact List.take_prefix _ _

/-- Where all names differ, the runs are those that are found under their names. -/
theorem mem_iff_get? {log : Log} (h : (log.map (·.id)).Nodup) {run : Run} :
    run ∈ log ↔ log.get? run.id = some run := by
  constructor
  · intro hmem
    obtain ⟨found, hfound⟩ : ∃ found, log.get? run.id = some found := by
      rw [← Option.ne_none_iff_exists']
      exact fun hnone => get?_eq_none_iff.mp hnone (List.mem_map_of_mem hmem)
    rw [hfound]
    have hid : found.id = run.id := by simpa using List.find?_some hfound
    rw [List.inj_on_of_nodup_map h (List.mem_of_find?_eq_some hfound) hmem hid]
  · exact List.mem_of_find?_eq_some

end Log

/-! ## Listings of a store -/

namespace Store

/-- Calls are made to a store that was just opened and holds nothing. However many there are,
whatever times the runs have and whichever of them are refused, there is one listing of the runs
that were recorded such that

* it has every run that the store finds under a name, and each once;
* it is ordered by time, the newest first, and runs of one time by when they were recorded, the last
  first;
* a limit that is not positive shows all of it, and a positive one the first so many, or all if
  there are fewer;
* so a larger limit shows what a smaller one does, and more. -/
theorem recent_recordAll {base : Store} (hopen : base.isOpen = true) (hlog : base.log = [])
    (calls : List Call) :
    let recorded := (base.recordAll calls).1
    let store := (base.recordAll calls).2
    store.count none = .ok recorded.length ∧
    ∃ shown : List Run,
      Log.Lists recorded shown ∧ (∀ other, Log.Lists recorded other → other = shown) ∧
      (shown.map (·.id)).Nodup ∧
      (∀ run, run ∈ shown ↔ store.get? none run.id = .ok (some run)) ∧
      (∀ limit ≤ 0, store.recent none limit = .ok shown) ∧
      (∀ limit > 0, store.recent none limit =
        .ok (shown.take (min limit.toInt.toNat recorded.length))) ∧
      ∀ limit larger, 0 < limit → limit ≤ larger ∨ larger ≤ 0 →
        ∃ fewer more, store.recent none limit = .ok fewer ∧ store.recent none larger = .ok more ∧
          fewer <+: more := by
  intro recorded store
  have hstore : store.isOpen = true ∧ store.log = recorded := by
    have hall := base.log_recordAll calls
    rw [hlog, List.nil_append] at hall
    exact ⟨(congrArg isOpen hall).trans hopen, congrArg log hall⟩
  obtain ⟨hopen', hlog'⟩ := hstore
  have hnames : (recorded.map (·.id)).Nodup := by
    rw [← hlog']
    exact nodup_recordAll (by rw [hlog]; exact List.nodup_nil) calls
  have hlists := Log.lists_newestFirst recorded
  refine ⟨?_, Log.newestFirst recorded, hlists, fun other h => h.unique hnames.of_map hlists, ?_,
    fun run => ?_, fun limit h => ?_, fun limit h => ?_, ?_⟩
  · rw [count_of_isOpen hopen', hlog']
  · exact (hlists.perm.map _).nodup_iff.mpr hnames
  · rw [hlists.perm.mem_iff, get?_of_isOpen hopen', hlog', Log.mem_iff_get? hnames, Except.ok.injEq]
  · rw [recent_of_isOpen hopen', hlog', Log.recent_of_nonpos recorded h]
  · rw [recent_of_isOpen hopen', hlog', Log.recent_of_pos recorded h]
  · intro limit larger h hlarger
    rw [recent_of_isOpen hopen', recent_of_isOpen hopen']
    exact ⟨_, _, rfl, rfl, Log.recent_isPrefix store.log h hlarger⟩

/-- The run of a name and a time. -/
def runAt (id : String) (time : Int64) : Draft :=
  { id := utf8 id, createdAt := some (.ofNanos time), programHash := utf8 "0" }

/-- Three runs that are recorded out of order, two of them of one time; among them one whose name is
taken and one that was given up. -/
def unorderedCalls : List Call :=
  [⟨⟨runAt "a" 5, ⟨utf8 "u", 9⟩⟩, none⟩,
    ⟨⟨runAt "b" 7, ⟨utf8 "v", 9⟩⟩, none⟩,
    ⟨⟨runAt "a" 8, ⟨utf8 "w", 9⟩⟩, none⟩,
    ⟨⟨runAt "d" 6, ⟨utf8 "x", 9⟩⟩, some .canceled⟩,
    ⟨⟨runAt "c" 5, ⟨utf8 "y", 9⟩⟩, none⟩]

/-- The newest is shown first, and of the two others the one that was recorded last. -/
theorem recent_recordAll_sameTime :
    memory.isOpen = true ∧ memory.log = [] ∧
    let store := (memory.recordAll unorderedCalls).2
    store.count none = .ok 3 ∧
    ∃ shown : List Run,
      shown.map (·.id) = [utf8 "b", utf8 "c", utf8 "a"] ∧ store.recent none 0 = .ok shown ∧
      store.recent none 2 = .ok (shown.take 2) := by
  have hopen : memory.isOpen = true := rfl
  have hlog : memory.log = [] := rfl
  obtain ⟨hcount, shown, -, hunique, -, -, hall, hcut, -⟩ :=
    recent_recordAll hopen hlog unorderedCalls
  have hshown : Log.Lists (memory.recordAll unorderedCalls).1
      [(runAt "b" 7).complete ⟨[], 0⟩, (runAt "c" 5).complete ⟨[], 0⟩,
        (runAt "a" 5).complete ⟨[], 0⟩] :=
    ⟨by decide, by decide⟩
  refine ⟨hopen, hlog, hcount, shown, ?_, hall 0 (by decide), hcut 2 (by decide)⟩
  rw [← hunique _ hshown]
  rfl

end Store

end History

end StackMachine
