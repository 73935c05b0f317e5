import StackMachine.Text.Split

/-!
# Paths

A path is a text whose parts stand between slashes; it is absolute when it begins with one. `clean`
gives the shortest path that names the same place as long as no link is on the way: it drops empty
parts and single dots, and lets two dots take back the part before them.
-/

namespace StackMachine.Path

open Text

/-- The slash. -/
def slash : UInt8 := 47

/-- The part that names the directory itself. -/
def here : Bytes := utf8 "."

/-- The part that names the directory above. -/
def up : Bytes := utf8 ".."

/-- Whether a path starts at the root. -/
def isAbsolute (p : Bytes) : Bool := p.head? == some slash

/-- What stands between the slashes of a path. -/
def parts (p : Bytes) : List Bytes := pieces slash [] p

/-- The parts kept so far, the last one first, and one more. -/
def follow (rooted : Bool) (kept : List Bytes) (part : Bytes) : List Bytes :=
  if part = [] ∨ part = here then kept
  else if part = up then
    match kept with
    | [] => if rooted then [] else [up]
    | last :: rest => if last = up then up :: kept else rest
  else part :: kept

/-- The parts of a path that are left when it is cleaned. -/
def cleanParts (p : Bytes) : List Bytes := ((parts p).foldl (follow (isAbsolute p)) []).reverse

/-- The shortest way to write a path. The empty path is the directory itself. -/
def clean (p : Bytes) : Bytes :=
  let body := Text.join [slash] (cleanParts p)
  if isAbsolute p then slash :: body else if body = [] then here else body

/-- Paths put after one another and cleaned; empty ones do not count. -/
def join (ps : List Bytes) : Bytes :=
  match ps.filter (· ≠ []) with
  | [] => []
  | ps => clean (Text.join [slash] ps)

/-- The directory part of a path: all up to its last slash, cleaned. -/
def dir (p : Bytes) : Bytes := clean (p.reverse.dropWhile (· ≠ slash)).reverse

/-- The paths that lead to a path one part at a time, the path itself last. -/
def wayTo (p : Bytes) : List Bytes :=
  ((List.range (parts p).length).map fun k => Text.join [slash] ((parts p).take (k + 1))).filter
    (· ≠ [])

/-- A path seen from the root, where `cwd` is the directory that relative paths start from. -/
def absolute (cwd p : Bytes) : Bytes := if isAbsolute p then clean p else join [cwd, p]

end StackMachine.Path
