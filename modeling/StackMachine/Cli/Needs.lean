import StackMachine.Cli.Command

/-!
# What a command looks at

The paths and streams that a command line may use, so that whoever carries it out can fetch them
beforehand. Where the history and the log lie is known only once the manifest is, so the paths are
asked for again when more files are known.
-/

namespace StackMachine.Cli

open Text

/-- The options and the operand of a command line that gets as far as being carried out. -/
def request? (arguments : List Bytes) : Option (Options × Bytes) :=
  match parseFlags flags {} arguments with
  | .options o [] => some (o, [])
  | .options o [operand] => some (o, operand)
  | _ => none

/-- The paths at which a manifest is looked for. -/
def manifestPaths (o : Options) (fs : FileSystem) : List Bytes :=
  if o.config = [] then
    (Manifest.upward fs.cwdPath.length fs.cwdPath).map fun dir =>
      Path.join [dir, Manifest.fileName]
  else [o.config]

/-- The paths that a command line may use, as far as some files tell. -/
def neededPaths (arguments : List Bytes) (fs : FileSystem) : List Bytes :=
  match request? arguments with
  | none => []
  | some (o, operand) =>
    let configured := match configure o fs with
      | .ok m => m.historyPath :: m.logPath?.toList
      | .error _ => []
    (operand :: manifestPaths o fs ++ configured).filter (· ≠ [])

/-- Whether a command line reads a program from the standard input. -/
def readsInput (arguments : List Bytes) : Bool :=
  match request? arguments with
  | none => false
  | some (o, operand) =>
    !o.ops && !o.lsp && !o.serve && o.history ≤ 0 && (operand = [] || operand = utf8 "-")

end StackMachine.Cli
