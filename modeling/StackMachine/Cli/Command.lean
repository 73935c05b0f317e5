import StackMachine.Assembly
import StackMachine.Cli.Options
import StackMachine.History.Opening
import StackMachine.Host.Address
import StackMachine.Listing
import StackMachine.Manifest.Loading
import StackMachine.Standard
import StackMachine.Time.Rfc3339
import StackMachine.Wire.Message

/-!
# The command

The command runs a program, lists it, lists the instructions or shows the run history. `command`
maps what it is given to what it prints and to the files it leaves behind; to serve requests and to
talk to an editor is left to whoever called it.
-/

namespace StackMachine.Cli

open Text

/-- What the surroundings contribute to a command. -/
structure Surroundings where
  files : FileSystem
  /-- The standard input, or the message of what went wrong with it. -/
  stdin : Except Bytes Bytes
  /-- The request to stop that has arrived before the command begins. -/
  interrupt : Option Interrupt := none
  /-- The name and the time under which a run is recorded. -/
  stamp : History.Stamp
  /-- The time zone in which times are shown. -/
  zone : Instant.Zone := .utc
  /-- How many turns a run is followed for. -/
  fuel : Nat

/-- What a command leaves behind. -/
structure Report where
  code : Nat
  stdout : Bytes := []
  stderr : Bytes := []
  files : FileSystem

/-- How a command ends. -/
inductive Outcome where
  | report (r : Report)
  /-- Requests are to be served at an address. -/
  | serve (m : Manifest) (files : FileSystem)
  /-- An editor is to be talked to. -/
  | edit (files : FileSystem)
  /-- The command broke down, after it had printed something. -/
  | crash (stdout : Bytes) (files : FileSystem)
  /-- The run outlasts the fuel. -/
  | unfinished

/-- A command that went well. -/
def success (files : FileSystem) (stdout : Bytes) : Outcome := .report { code := 0, stdout, files }

/-- A command that could not be carried out. -/
def failure (files : FileSystem) (message : Bytes) : Outcome :=
  .report { code := 1, stderr := line (utf8 "Error: " ++ message), files }

/-- The instruction set, one instruction a line. -/
def instructionSet : Bytes :=
  Standard.all.zipIdx.flatMap fun (i, id) =>
    line (padLeft 32 2 (decimal id) ++ utf8 "  " ++ padRight 12 (utf8 i.name) ++ utf8 " "
      ++ utf8 i.doc)

/-- The manifest that a command works with. -/
def configure (o : Options) (fs : FileSystem) : Except Manifest.LoadError Manifest := do
  let m ← if o.config = [] then (Manifest.find fs Path.here).map (·.getD {})
    else Manifest.loadFile fs o.config
  .ok (o.override m)

/-- Below this verbosity no log is kept. -/
def quietest : Int64 := -4

/-- The files once the log is open. -/
def openLog (m : Manifest) (fs : FileSystem) : FileSystem :=
  match m.logPath? with
  | none => fs
  | some path => if m.verbosity ≤ quietest then fs else fs.touch path

/-- The program at a path, or the standard input when there is none or a dash. -/
def readProgram (path : Bytes) (s : Surroundings) (fs : FileSystem) : Except Bytes Bytes :=
  if path = [] ∨ path = utf8 "-" then s.stdin.mapError (utf8 "reading stdin: " ++ ·)
  else ((fs.read path).map History.contentBytes).mapError PathError.message

/-- Prints the listing of a program, or what is wrong with its lines. -/
def disassemble (program : Bytes) (files : FileSystem) : Outcome :=
  let r : Registry Standard := .standard
  match validate r program with
  | [] =>
    match assemble r program with
    | .ok code => success files (listing r code)
    | .error e => .report { code := 1, stderr := line e.message, files }
  | faults => .report { code := 1, stderr := faults.flatMap fun e => line e.message, files }

/-- What came of a program. -/
structure Result where
  value : Value := 0
  output : Bytes := []
  trace : Bytes := []
  steps : Int64 := 0
  failure : Option Failure := none

/-- A result as it is recorded. -/
def Result.draft (r : Result) (program : Bytes) : History.Draft :=
  let fault := r.failure.map Wire.FaultInfo.ofFailure
  { program, result := r.value, output := r.output, steps := r.steps
    faultKind := (fault.map (·.kind)).getD [], faultMessage := (fault.map (·.message)).getD [] }

/-- Files after a run was recorded. One that cannot be recorded is not. -/
def remember (m : Manifest) (draft : History.Draft) (stamp : History.Stamp) (fs : FileSystem) :
    FileSystem :=
  match History.openStore fs m.historyPath with
  | (.error _, fs) => fs
  | (.ok store, fs) =>
    match store.record none draft stamp with
    | .error _ => fs
    | .ok (_, store) => store.save fs

/-- Assembles a program and runs it on a fresh machine. A run that breaks down leaves nothing but
what it has printed. -/
def evaluate (m : Manifest) (program : Bytes) (s : Surroundings) :
    Option (Except Bytes Result) :=
  let state : State Standard :=
    { State.new .standard m.debug with maxSteps := m.maxSteps, interrupt := s.interrupt }
  match assemble state.registry program with
  | .error e => some (.ok { failure := some e })
  | .ok code =>
    match state.run code Signals.none s.fuel with
    | none => none
    | some (.crash _, state) => some (.error state.stdout.toBytes)
    | some (ending, state) =>
      some (.ok
        { value := ending.result, output := state.output.toBytes, trace := state.stdout.toBytes
          steps := state.steps, failure := ending.failure? })

/-- Runs a program and prints what it comes to. -/
def runProgram (m : Manifest) (program : Bytes) (record : Bool) (s : Surroundings)
    (fs : FileSystem) : Outcome :=
  match evaluate m program s with
  | none => .unfinished
  | some (.error printed) => .crash printed fs
  | some (.ok r) =>
    let files := if record && m.historyEnabled then remember m (r.draft program) s.stamp fs else fs
    let printed := r.trace ++ (if r.output = [] then [] else line r.output)
    match r.failure with
    | some e =>
      .report { code := 1, stdout := printed, stderr := line (utf8 "svm: " ++ e.message), files }
    | none => success files (printed ++ line (utf8 "=> " ++ word r.value))

/-- How many digits of a program's digest are shown. -/
def shownDigits : Nat := 12

/-- A run as it is shown in a listing of the history, with its time in a zone. It needs a digest of
enough digits. -/
def historyRow? (zone : Instant.Zone) (r : History.Run) : Option Bytes :=
  let outcome := if r.failed then r.faultKind else utf8 "=> " ++ word r.result
  let time := Rfc3339.write (r.time.toLocal zone) 0 (r.time.offset zone).toInt
  if r.programHash.length < shownDigits then none
  else some (line (r.id ++ utf8 "  " ++ time ++ utf8 "  " ++ padRight 20 outcome ++ utf8 " "
    ++ r.programHash.take shownDigits))

/-- What is printed of runs, one after the other up to the first that cannot be shown, and whether
all of them could. -/
def historyRows (zone : Instant.Zone) : List History.Run → Bytes × Bool
  | [] => ([], true)
  | r :: rest =>
    match historyRow? zone r with
    | none => ([], false)
    | some row =>
      let (rows, complete) := historyRows zone rest
      (row ++ rows, complete)

/-- Prints the newest runs. -/
def listHistory (m : Manifest) (limit : Int64) (s : Surroundings) (fs : FileSystem) : Outcome :=
  match History.openStore fs m.historyPath with
  | (.error e, fs) => failure fs e.message
  | (.ok store, fs) =>
    match store.recent s.interrupt limit with
    | .error e => failure fs (History.listingMessage e)
    | .ok runs =>
      match historyRows s.zone runs with
      | (rows, true) => success fs rows
      | (rows, false) => .crash rows fs

/-- Checks that requests can be served: the history has to open, and the address to make sense. -/
def serve (m : Manifest) (fs : FileSystem) : Outcome :=
  let opened :=
    if m.historyEnabled then History.openStore fs m.historyPath else (.ok .memory, fs)
  match opened with
  | (.error e, files) => failure files e.message
  | (.ok _, files) =>
    match Address.parse m.addr with
    | .error e =>
      .report { code := 1, stderr := line (utf8 "Server error: " ++ e.message), files }
    | .ok _ => .serve m files

/-- Does what options ask for. -/
def perform (o : Options) (operand : Bytes) (s : Surroundings) : Outcome :=
  match configure o s.files with
  | .error e => failure s.files e.message
  | .ok m =>
    let fs := openLog m s.files
    if o.ops then success fs instructionSet
    else if o.lsp then .edit fs
    else if o.serve then serve m fs
    else if 0 < o.history then listHistory m o.history s fs
    else match readProgram operand s fs with
      | .error e => failure fs e
      | .ok program =>
        if o.disasm then disassemble program fs
        else runProgram m program (!o.noHistory) s fs

/-- Carries out a command line. -/
def command (arguments : List Bytes) (s : Surroundings) : Outcome :=
  match parseFlags flags {} arguments with
  | .help => .report { code := 0, stderr := usage, files := s.files }
  | .error e => .report { code := 2, stderr := line e.message ++ usage, files := s.files }
  | .options o operands =>
    match operands with
    | [] => perform o [] s
    | [operand] => perform o operand s
    | _ => .report { code := 2, stderr := usage, files := s.files }

end StackMachine.Cli
