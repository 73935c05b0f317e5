import StackMachine.Host.FileSystem
import StackMachine.Proofs.Splitting

/-!
# Paths as places

A path is cleaned by keeping a pile of its parts. What this comes to for absolute paths is said here
without the pile: a path is followed from a place one part at a time, by the names alone
(`Path.reach`), and the cleaned path is the way from the root to the place where it leads
(`clean_of_isAbsolute`). So a cleaned path, joining a name to one, its directory part and a path
seen from the root are all known by the places they lead to, and the texts themselves need not be
looked at.

The names on the way to such a place are neither empty nor dots and hold no slash, so place and path
determine each other (`reach_rooted`).
-/

namespace StackMachine

theorem Text.join_cons_cons (separator t u : Bytes) (ts : List Bytes) :
    join separator (t :: u :: ts) = t ++ separator ++ join separator (u :: ts) := rfl

namespace Path

open Text

/-- A name that can stand on the way to a place. -/
structure IsName (x : Bytes) : Prop where
  ne_nil : x ≠ []
  ne_here : x ≠ here
  ne_up : x ≠ up
  slash_not_mem : slash ∉ x

/-- The path from the root to a place. -/
def rooted (l : Location) : Bytes := slash :: Text.join [slash] l

/-- Where one part of a path leads from a place. There is nothing above the root. -/
def enter (l : Location) (part : Bytes) : Location :=
  if part = [] ∨ part = here then l else if part = up then l.dropLast else l ++ [part]

/-- Where a path leads from a place by the names in it, whatever exists there. -/
def reach (l : Location) (p : Bytes) : Location := (parts p).foldl enter l

variable {l m : Location} {p q x : Bytes}

/-! ## Following a path -/

theorem parts_append (p q : Bytes) : parts (p ++ slash :: q) = parts p ++ parts q := by
  rw [parts, parts, parts, pieces_eq_splitOn, pieces_eq_splitOn, pieces_eq_splitOn,
    List.splitOn_append_cons_self]

theorem parts_of_not_mem (h : slash ∉ x) : parts x = [x] := by
  have hsplit :=
    List.splitOn_intercalate slash (List.forall_mem_singleton.mpr h) (List.cons_ne_nil x [])
  rw [List.intercalate_singleton] at hsplit
  rw [parts, pieces_eq_splitOn, hsplit]

theorem reach_nil (l : Location) : reach l [] = l := by
  rw [reach, parts_of_not_mem List.not_mem_nil, List.foldl_cons, List.foldl_nil, enter,
    if_pos (.inl rfl)]

/-- Two paths with a slash between them are followed one after the other. -/
theorem reach_append (l : Location) (p q : Bytes) :
    reach l (p ++ slash :: q) = reach (reach l p) q := by
  rw [reach, parts_append, List.foldl_append]
  rfl

theorem reach_slash_cons (l : Location) (q : Bytes) : reach l (slash :: q) = reach l q := by
  rw [← List.nil_append (slash :: q), reach_append, reach_nil]

theorem enter_name (h : IsName x) (l : Location) : enter l x = l ++ [x] := by
  rw [enter, if_neg (not_or.mpr ⟨h.ne_nil, h.ne_here⟩), if_neg h.ne_up]

theorem reach_name (h : IsName x) (l : Location) : reach l x = l ++ [x] := by
  rw [reach, parts_of_not_mem h.slash_not_mem, List.foldl_cons, List.foldl_nil, enter_name h]

theorem reach_join (h : ∀ x ∈ m, IsName x) (l : Location) :
    reach l (Text.join [slash] m) = l ++ m := by
  induction m generalizing l with
  | nil => rw [Text.join, reach_nil, List.append_nil]
  | cons x m ih =>
    obtain ⟨hx, hm⟩ := List.forall_mem_cons.mp h
    cases m with
    | nil => exact reach_name hx l
    | cons y m =>
      rw [join_cons_cons, List.append_assoc, List.singleton_append, reach_append, reach_name hx,
        ih hm, List.append_assoc, List.singleton_append]

/-- The path from the root to a place leads there. -/
theorem reach_rooted (h : ∀ x ∈ m, IsName x) (l : Location) : reach l (rooted m) = l ++ m := by
  rw [rooted, reach_slash_cons, reach_join h]

/-- From a place to which names lead, a path leads to another such place. -/
theorem isName_of_mem_reach (h : ∀ x ∈ l, IsName x) (p : Bytes) : ∀ x ∈ reach l p, IsName x := by
  have hparts : ∀ part ∈ parts p, slash ∉ part := by
    rw [parts, pieces_eq_splitOn]
    exact fun part => not_mem_of_mem_splitOn
  rw [reach]
  generalize parts p = ps at hparts
  induction ps generalizing l with
  | nil => exact h
  | cons part ps ih =>
    obtain ⟨hpart, hps⟩ := List.forall_mem_cons.mp hparts
    refine ih ?_ hps
    rw [enter]
    split
    · exact h
    · next hkept =>
      split
      · exact fun x hx => h x (List.dropLast_subset _ hx)
      · next hup =>
        obtain ⟨hnil, hhere⟩ := not_or.mp hkept
        intro x hx
        rcases List.mem_append.mp hx with hx | hx
        · exact h x hx
        · obtain rfl := List.mem_singleton.mp hx
          exact ⟨hnil, hhere, hup, hpart⟩

/-! ## Cleaned paths -/

/-- Below the root the pile of parts never holds the way up, and one more part does to it what it
does to the place. -/
theorem follow_spec {kept : List Bytes} (h : up ∉ kept) (part : Bytes) :
    (follow true kept part).reverse = enter kept.reverse part ∧ up ∉ follow true kept part := by
  unfold follow enter
  split
  · exact ⟨rfl, h⟩
  · split
    · cases kept with
      | nil => exact ⟨rfl, h⟩
      | cons last rest =>
        obtain ⟨hlast, hrest⟩ := List.ne_and_not_mem_of_not_mem_cons h
        dsimp only
        rw [if_neg (Ne.symm hlast), List.reverse_cons, List.dropLast_concat]
        exact ⟨rfl, hrest⟩
    · next hup => exact ⟨List.reverse_cons, List.not_mem_cons_of_ne_of_not_mem (Ne.symm hup) h⟩

theorem foldl_follow {kept : List Bytes} (h : up ∉ kept) (ps : List Bytes) :
    (ps.foldl (follow true) kept).reverse = ps.foldl enter kept.reverse := by
  induction ps generalizing kept with
  | nil => rfl
  | cons part ps ih =>
    obtain ⟨hstep, hup⟩ := follow_spec h part
    rw [List.foldl_cons, List.foldl_cons, ih hup, hstep]

/-- A cleaned absolute path is the path from the root to where it leads. -/
theorem clean_of_isAbsolute (h : isAbsolute p = true) : clean p = rooted (reach [] p) := by
  have hparts : cleanParts p = reach [] p := by
    rw [cleanParts, h, foldl_follow List.not_mem_nil]
    rfl
  rw [clean, if_pos h, hparts]
  rfl

theorem isAbsolute_rooted (l : Location) : isAbsolute (rooted l) = true := rfl

/-- A path joined to an absolute one is followed from the place where that one leads. -/
theorem join_of_isAbsolute (h : isAbsolute p = true) (q : Bytes) :
    join [p, q] = rooted (reach (reach [] p) q) := by
  obtain ⟨t, rfl⟩ : ∃ t, p = slash :: t := by
    cases p with
    | nil => cases h
    | cons b t => exact ⟨t, by rw [Option.some.inj (eq_of_beq h)]⟩
  by_cases hq : q = []
  · subst hq
    rw [reach_nil]
    exact clean_of_isAbsolute h
  · have hjoin : join [slash :: t, q] = clean (slash :: t ++ slash :: q) := by
      have hkept : [slash :: t, q].filter (· ≠ []) = [slash :: t, q] := by simp [hq]
      rw [join, hkept]
      exact congrArg clean (List.append_assoc (slash :: t) [slash] q)
    rw [hjoin, clean_of_isAbsolute rfl, reach_append]

theorem join_rooted (h : ∀ y ∈ l, IsName y) (hx : IsName x) :
    join [rooted l, x] = rooted (l ++ [x]) := by
  rw [join_of_isAbsolute (isAbsolute_rooted l), reach_rooted h, reach_name hx, List.nil_append]

/-- A path seen from the root leads from there, or from the working directory, to where the path
leads. -/
theorem absolute_eq {cwd : Bytes} (hcwd : isAbsolute cwd = true) (p : Bytes) :
    absolute cwd p = rooted (reach (if isAbsolute p then [] else reach [] cwd) p) := by
  rw [absolute]
  by_cases hp : isAbsolute p = true
  · rw [if_pos hp, if_pos hp, clean_of_isAbsolute hp]
  · rw [if_neg hp, if_neg hp, join_of_isAbsolute hcwd]

/-! ## Going up -/

theorem rooted_concat (l : Location) (x : Bytes) :
    rooted (l ++ [x]) = (if l = [] then [] else rooted l) ++ slash :: x := by
  have hjoin : l ≠ [] → Text.join [slash] (l ++ [x]) = Text.join [slash] l ++ slash :: x := by
    induction l with
    | nil => exact fun h => absurd rfl h
    | cons y l ih =>
      cases l with
      | nil => exact fun _ => List.append_assoc y [slash] x
      | cons z l =>
        intro _
        rw [List.cons_append, List.cons_append, join_cons_cons, ← List.cons_append,
          ih (List.cons_ne_nil z l), join_cons_cons, List.append_assoc _ _ (slash :: x)]
  by_cases hl : l = []
  · rw [hl]
    rfl
  · rw [if_neg hl, rooted, hjoin hl]
    rfl

/-- The directory part of a path ends at its last slash. -/
theorem dir_append (p : Bytes) (h : slash ∉ x) : dir (p ++ slash :: x) = clean (p ++ [slash]) := by
  have hdrop : (p ++ slash :: x).reverse.dropWhile (· ≠ slash) = (p ++ [slash]).reverse := by
    rw [List.reverse_append, List.reverse_cons, List.append_assoc, List.dropWhile_append_of_pos]
    · rw [List.singleton_append, List.dropWhile_cons_of_neg (by simp), List.reverse_append]
      rfl
    · intro b hb
      exact decide_eq_true fun heq => h (heq ▸ List.mem_reverse.mp hb)
  rw [dir, hdrop, List.reverse_reverse]

/-- The directory part of the way to a place is the way to the place that it lies in. -/
theorem dir_rooted_concat (h : ∀ y ∈ l ++ [x], IsName y) : dir (rooted (l ++ [x])) = rooted l := by
  obtain ⟨hl, hx⟩ := List.forall_mem_append.mp h
  rw [rooted_concat, dir_append _ (hx x List.mem_cons_self).slash_not_mem]
  by_cases hnil : l = []
  · rw [if_pos hnil, hnil, List.nil_append, clean_of_isAbsolute rfl, reach_slash_cons, reach_nil]
  · rw [if_neg hnil, clean_of_isAbsolute rfl, reach_append, reach_rooted hl, reach_nil,
      List.nil_append]

theorem dir_rooted_nil : dir (rooted []) = rooted [] := by
  rw [rooted, Text.join, ← List.nil_append [slash], dir_append [] List.not_mem_nil, List.nil_append,
    clean_of_isAbsolute rfl, reach_slash_cons, reach_nil]
  rfl

/-- Below the root, the directory part of a path is another path. -/
theorem dir_rooted_concat_ne (h : ∀ y ∈ l ++ [x], IsName y) :
    dir (rooted (l ++ [x])) ≠ rooted (l ++ [x]) := by
  rw [dir_rooted_concat h]
  intro heq
  have hreach := congrArg (reach []) heq
  rw [reach_rooted (List.forall_mem_append.mp h).1, reach_rooted h] at hreach
  have hlength := congrArg List.length hreach
  simp at hlength

/-- A place lies less deep than its path is long. -/
theorem length_lt_length_rooted (h : ∀ x ∈ l, IsName x) : l.length < (rooted l).length := by
  have hjoin : l.length ≤ (Text.join [slash] l).length := by
    induction l with
    | nil => exact Nat.le_refl 0
    | cons x l ih =>
      obtain ⟨hx, hl⟩ := List.forall_mem_cons.mp h
      have hpos := List.length_pos_iff.mpr hx.ne_nil
      cases l with
      | nil => exact hpos
      | cons y l =>
        have hrest := ih hl
        rw [join_cons_cons, List.length_append, List.length_append, List.length_singleton,
          List.length_cons]
        omega
  exact Nat.lt_succ_of_le hjoin

end Path

end StackMachine
