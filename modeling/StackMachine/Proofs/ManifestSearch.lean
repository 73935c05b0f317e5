import Mathlib.Data.List.Induction
import Mathlib.Data.List.Infix
import StackMachine.Manifest.Loading
import StackMachine.Proofs.Paths

/-!
# The search for a manifest

A manifest is looked for in a directory and then in those above it. The loop that does so has no
bound: it ends where a directory is its own directory part. `Climbs` is this loop, step by step;
`climbs_find` says that it ends, whatever the file system holds and wherever it starts, with what
`Manifest.find` returns, which takes the length of a path for fuel.

Where the loop goes is known from the place it starts at (`Path.reach`): the directories on its way
are the beginnings of that place, the longest first, and one step takes off one name
(`climbs_concat_iff`). So it ends with the longest of them that holds a manifest file, and with what
is loaded from there.
-/

namespace StackMachine.Manifest

open Text StackMachine.Path

/-- The loop that looks for a manifest comes from a directory to this end. -/
inductive Climbs (fs : FileSystem) : Bytes → Except LoadError (Option Manifest) → Prop where
  /-- There is something of the name: it is loaded, and that is the end. -/
  | found {dir} (h : fs.present (Path.join [dir, fileName]) = true) :
      Climbs fs dir ((load fs dir).map some)
  /-- There is nothing of the name, and nothing above. -/
  | top {dir} (h : fs.present (Path.join [dir, fileName]) = false) (htop : Path.dir dir = dir) :
      Climbs fs dir (.ok none)
  /-- There is nothing of the name: the loop goes on above. -/
  | above {dir r} (h : fs.present (Path.join [dir, fileName]) = false) (habove : Path.dir dir ≠ dir)
      (hclimbs : Climbs fs (Path.dir dir) r) : Climbs fs dir r

/-- There is something of the name of a manifest file in a directory. -/
def HoldsManifest (fs : FileSystem) (a : Location) : Prop :=
  fs.present (rooted (a ++ [fileName])) = true

instance (fs : FileSystem) (a : Location) : Decidable (HoldsManifest fs a) :=
  instDecidableEqBool _ _

/-- Of the directories on the way from the root to `l`, the one at `a` is the nearest to `l` that
holds a manifest file. -/
structure Nearest (fs : FileSystem) (l a : Location) : Prop where
  above : a <+: l
  holds : HoldsManifest fs a
  others : ∀ b, b <+: l → HoldsManifest fs b → b <+: a

/-- The place of the directory that a search starts in. -/
def startPlace (fs : FileSystem) (start : Bytes) : Location :=
  reach (if isAbsolute start then [] else reach [] fs.cwdPath) start

variable {fs : FileSystem} {l a : Location} {x : Bytes} {r : Except LoadError (Option Manifest)}
  {m : Manifest}

/-! ## The loop at a place -/

theorem isName_fileName : IsName fileName := ⟨by decide, by decide, by decide, by decide⟩

theorem join_fileName (h : ∀ y ∈ l, IsName y) :
    Path.join [rooted l, fileName] = rooted (l ++ [fileName]) :=
  join_rooted h isName_fileName

/-- At the root the loop ends. -/
theorem climbs_root_iff :
    Climbs fs (rooted []) r ↔
      (HoldsManifest fs [] ∧ r = (load fs (rooted [])).map some) ∨
      (¬ HoldsManifest fs [] ∧ r = .ok none) := by
  rw [HoldsManifest, ← join_fileName (List.forall_mem_nil _), Bool.not_eq_true]
  constructor
  · intro h
    cases h with
    | found h => exact .inl ⟨h, rfl⟩
    | top h => exact .inr ⟨h, rfl⟩
    | above _ habove => exact absurd dir_rooted_nil habove
  · rintro (⟨h, rfl⟩ | ⟨h, rfl⟩)
    · exact .found h
    · exact .top h dir_rooted_nil

/-- Below the root the loop ends or takes one step up. -/
theorem climbs_concat_iff (h : ∀ y ∈ l ++ [x], IsName y) :
    Climbs fs (rooted (l ++ [x])) r ↔
      (HoldsManifest fs (l ++ [x]) ∧ r = (load fs (rooted (l ++ [x]))).map some) ∨
        (¬ HoldsManifest fs (l ++ [x]) ∧ Climbs fs (rooted l) r) := by
  rw [HoldsManifest, ← join_fileName h, Bool.not_eq_true]
  constructor
  · intro hclimbs
    cases hclimbs with
    | found hpresent => exact .inl ⟨hpresent, rfl⟩
    | top _ htop => exact absurd htop (dir_rooted_concat_ne h)
    | above hpresent _ hclimbs => exact .inr ⟨hpresent, dir_rooted_concat h ▸ hclimbs⟩
  · rintro (⟨hpresent, rfl⟩ | ⟨hpresent, hclimbs⟩)
    · exact .found hpresent
    · exact .above hpresent (dir_rooted_concat_ne h) ((dir_rooted_concat h).symm ▸ hclimbs)

/-- What comes of the directory that was found, if any. -/
def outcome (fs : FileSystem) : Option Bytes → Except LoadError (Option Manifest)
  | none => .ok none
  | some dir => (load fs dir).map some

/-- The loop ends with what the search with fuel comes to, if the fuel is enough for the depth of
the place. -/
theorem climbs_upward {fuel : Nat} (h : ∀ y ∈ l, IsName y) (hfuel : l.length ≤ fuel) :
    Climbs fs (rooted l) (outcome fs (nearest? fs (upward fuel (rooted l)))) := by
  induction l using List.reverseRecOn generalizing fuel with
  | nil =>
    have hupward : upward fuel (rooted []) = [rooted []] := by
      cases fuel with
      | zero => rfl
      | succ fuel => rw [upward, if_pos dir_rooted_nil]
    rw [climbs_root_iff, hupward, nearest?, List.find?_singleton, HoldsManifest, ← join_fileName h]
    cases fs.present (Path.join [rooted [], fileName]) with
    | true => exact .inl ⟨rfl, rfl⟩
    | false => exact .inr ⟨Bool.false_ne_true, rfl⟩
  | append_singleton l x ih =>
    obtain ⟨fuel, rfl⟩ : ∃ k, fuel = k + 1 := ⟨fuel - 1, by simp at hfuel; omega⟩
    have hbelow : Climbs fs (rooted l) (outcome fs (nearest? fs (upward fuel (rooted l)))) :=
      ih (List.forall_mem_append.mp h).1 (by simpa using hfuel)
    rw [climbs_concat_iff h, upward, if_neg (dir_rooted_concat_ne h), dir_rooted_concat h, nearest?,
      List.find?_cons, HoldsManifest, ← join_fileName h]
    cases fs.present (Path.join [rooted (l ++ [x]), fileName]) with
    | true => exact .inl ⟨rfl, rfl⟩
    | false => exact .inr ⟨Bool.false_ne_true, hbelow⟩

theorem absolute_start (fs : FileSystem) (start : Bytes) :
    Path.absolute fs.cwdPath start = rooted (startPlace fs start) := absolute_eq rfl start

theorem isName_of_mem_startPlace (fs : FileSystem) (start : Bytes) :
    ∀ y ∈ startPlace fs start, IsName y := by
  refine isName_of_mem_reach ?_ start
  split
  · exact List.forall_mem_nil _
  · exact isName_of_mem_reach (List.forall_mem_nil _) _

/-- The loop ends wherever it starts. -/
theorem climbs_find (fs : FileSystem) (start : Bytes) :
    Climbs fs (Path.absolute fs.cwdPath start) (find fs start) := by
  have hnames := isName_of_mem_startPlace fs start
  have hfind : find fs start =
      outcome fs
        (nearest? fs
          (upward (rooted (startPlace fs start)).length (rooted (startPlace fs start)))) := by
    rw [find, absolute_start]
    rfl
  rw [absolute_start, hfind]
  exact climbs_upward hnames (Nat.le_of_lt (length_lt_length_rooted hnames))

/-! ## Where the loop ends -/

theorem Climbs.eq_none (h : Climbs fs (rooted l) r) (hl : ∀ y ∈ l, IsName y)
    (hnone : ∀ a, a <+: l → ¬ HoldsManifest fs a) : r = .ok none := by
  induction l using List.reverseRecOn with
  | nil =>
    rcases climbs_root_iff.mp h with ⟨hholds, -⟩ | ⟨-, hr⟩
    · exact absurd hholds (hnone [] (List.prefix_refl []))
    · exact hr
  | append_singleton l x ih =>
    rcases (climbs_concat_iff hl).mp h with ⟨hholds, -⟩ | ⟨-, hclimbs⟩
    · exact absurd hholds (hnone _ (List.prefix_refl _))
    · exact ih hclimbs (List.forall_mem_append.mp hl).1 fun a ha =>
        hnone a (ha.trans (List.prefix_append l [x]))

theorem Climbs.eq_load (h : Climbs fs (rooted l) r) (hl : ∀ y ∈ l, IsName y) (ha : Nearest fs l a) :
    r = (load fs (rooted a)).map some := by
  induction l using List.reverseRecOn with
  | nil =>
    obtain rfl := List.prefix_nil.mp ha.above
    rcases climbs_root_iff.mp h with ⟨-, hr⟩ | ⟨hnone, -⟩
    · exact hr
    · exact absurd ha.holds hnone
  | append_singleton l x ih =>
    rcases (climbs_concat_iff hl).mp h with ⟨hholds, hr⟩ | ⟨hnone, hclimbs⟩
    · have hsame : a = l ++ [x] :=
        ha.above.eq_of_length_le (ha.others _ (List.prefix_refl _) hholds).length_le
      rw [hr, hsame]
    · refine ih hclimbs (List.forall_mem_append.mp hl).1 ⟨?_, ha.holds, ?_⟩
      · rcases List.prefix_concat_iff.mp ha.above with rfl | habove
        · exact absurd ha.holds hnone
        · exact habove
      · exact fun b hb => ha.others b (hb.trans (List.prefix_append l [x]))

/-- If a directory on the way holds a manifest file, one of them is the nearest. -/
theorem exists_nearest (h : ∃ a, a <+: l ∧ HoldsManifest fs a) : ∃ a, Nearest fs l a := by
  induction l using List.reverseRecOn with
  | nil =>
    obtain ⟨a, habove, hholds⟩ := h
    obtain rfl := List.prefix_nil.mp habove
    exact ⟨[], List.prefix_refl [], hholds, fun b hb _ => hb⟩
  | append_singleton l x ih =>
    by_cases hhere : HoldsManifest fs (l ++ [x])
    · exact ⟨l ++ [x], List.prefix_refl _, hhere, fun b hb _ => hb⟩
    · have hbelow : ∀ b, b <+: l ++ [x] → HoldsManifest fs b → b <+: l := by
        intro b hb hholds
        rcases List.prefix_concat_iff.mp hb with rfl | hb
        · exact absurd hholds hhere
        · exact hb
      obtain ⟨a, habove, hholds⟩ := h
      obtain ⟨b, hb⟩ := ih ⟨a, hbelow a habove hholds, hholds⟩
      exact ⟨b, hb.above.trans (List.prefix_append l [x]), hb.holds,
        fun c hc hholds => hb.others c (hbelow c hc hholds) hholds⟩

/-! ## What is loaded -/

/-- A manifest that could be loaded was read and decoded, and its step limit is not negative. Then
its directory is set. -/
theorem exists_of_loadFile {path : Bytes} (h : loadFile fs path = .ok m) :
    ∃ content decoded, fs.read path = .ok content ∧
      decode (History.contentBytes content) = .ok decoded ∧
      0 ≤ decoded.maxSteps ∧
      m = { decoded with dir := Path.absolute fs.cwdPath (Path.dir path) } := by
  cases hread : fs.read path with
  | error e => simp [loadFile, hread, Except.mapError, bind, Except.bind] at h
  | ok content =>
    cases hdecode : decode (History.contentBytes content) with
    | error e => simp [loadFile, hread, hdecode, Except.mapError, bind, Except.bind] at h
    | ok decoded =>
      simp only [loadFile, hread, hdecode, Except.mapError, bind, Except.bind] at h
      split at h
      · cases h
      · next hlimit =>
          exact ⟨content, decoded, rfl, hdecode, Int64.not_lt.mp hlimit, (Except.ok.inj h).symm⟩

/-- A manifest knows the directory that it was loaded from. -/
theorem of_load (ha : ∀ y ∈ a, IsName y) (h : load fs (rooted a) = .ok m) :
    m.dir = rooted a ∧ 0 ≤ m.maxSteps := by
  have hpath : ∀ y ∈ a ++ [fileName], IsName y :=
    List.forall_mem_append.mpr ⟨ha, List.forall_mem_singleton.mpr isName_fileName⟩
  rw [load, join_fileName ha] at h
  obtain ⟨content, decoded, -, -, hlimit, rfl⟩ := exists_of_loadFile h
  refine ⟨?_, hlimit⟩
  show Path.absolute fs.cwdPath (Path.dir (rooted (a ++ [fileName]))) = rooted a
  rw [dir_rooted_concat hpath, absolute_eq rfl, if_pos (isAbsolute_rooted a), reach_rooted ha,
    List.nil_append]

/-- Seen from a directory, the file of the run history has an absolute path. -/
theorem isAbsolute_historyPath (hdir : m.dir = rooted a) (h : m.historyPath ≠ []) :
    isAbsolute m.historyPath = true := by
  rw [historyPath] at h ⊢
  split at h
  · exact absurd rfl h
  · next hfile =>
    rw [if_neg hfile, resolve]
    split
    · next hor => exact hor.resolve_right fun hnil => List.cons_ne_nil _ _ (hdir.symm.trans hnil)
    · rw [hdir, join_of_isAbsolute (isAbsolute_rooted a)]
      exact isAbsolute_rooted _

/-- A directory stands where the manifest of `/a` would be, and above it there is a manifest that
could be loaded. -/
def obstructed : FileSystem where
  files := [([fileName], .text (utf8 "[vm]\nmax-steps = 7\n"))]
  dirs := [[utf8 "a", fileName]]
  cwd := [utf8 "a", utf8 "b"]

end StackMachine.Manifest
