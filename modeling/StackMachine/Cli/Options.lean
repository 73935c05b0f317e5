import StackMachine.Cli.Flag
import StackMachine.Manifest

/-!
# Options of the command

The flags of the command, and how they change a manifest.
-/

namespace StackMachine.Cli

open Text

/-- What a command line asks for. -/
structure Options where
  debug : Bool := false
  /-- The manifest file, empty when it is to be looked for. -/
  config : Bytes := []
  maxSteps : Int64 := 0
  verbosity : Int64 := 0
  logFile : Bytes := []
  disasm : Bool := false
  ops : Bool := false
  serve : Bool := false
  addr : Bytes := []
  lsp : Bool := false
  history : Int64 := 0
  noHistory : Bool := false
  deriving DecidableEq, Repr

/-- All flags, in the order of their names. -/
def flags : List (Flag Options) :=
  [⟨"addr", "Server address (used with -serve)", .text fun v o => { o with addr := v }⟩,
    ⟨"config", "Path to stackvm.toml (default: search upward from the working directory)",
      .text fun v o => { o with config := v }⟩,
    ⟨"debug", "Print the disassembly and a trace line per instruction",
      .switch fun v o => { o with debug := v }⟩,
    ⟨"disasm", "Assemble and print the listing without running",
      .switch fun v o => { o with disasm := v }⟩,
    ⟨"history", "List the N most recent runs", .number fun v o => { o with history := v }⟩,
    ⟨"log", "Log to this file instead of stderr", .text fun v o => { o with logFile := v }⟩,
    ⟨"lsp", "Start the language server on stdio", .switch fun v o => { o with lsp := v }⟩,
    ⟨"max-steps", "Abort after this many instructions (0 = use config)",
      .number fun v o => { o with maxSteps := v }⟩,
    ⟨"no-history", "Do not record this run", .switch fun v o => { o with noHistory := v }⟩,
    ⟨"ops", "List the instruction set", .switch fun v o => { o with ops := v }⟩,
    ⟨"serve", "Start the Connect RPC server", .switch fun v o => { o with serve := v }⟩,
    ⟨"v", "Log verbosity (0 = use config)", .number fun v o => { o with verbosity := v }⟩]

/-- How the command is used. -/
def usage : Bytes :=
  utf8 "Usage: svm [options] [file|-]\n\n"
    ++ utf8 "Assembles and runs a stackvm program read from file or stdin.\n\n"
    ++ utf8 "Options:\n" ++ flags.flatMap Flag.usage
    ++ utf8 "\nExamples:\n"
    ++ utf8 "  svm prog.svm              # Run prog.svm\n"
    ++ utf8 "  svm -debug prog.svm       # Run with listing and trace\n"
    ++ utf8 "  svm -disasm < prog.svm    # Print the listing only\n"
    ++ utf8 "  svm -serve -addr :8080    # Serve MachineService on :8080\n"
    ++ utf8 "  svm -history 10           # Show the last 10 runs\n"

/-- A manifest under options that override it. -/
def Options.override (o : Options) (m : Manifest) : Manifest :=
  { m with
    debug := m.debug || o.debug
    maxSteps := if 0 < o.maxSteps then o.maxSteps else m.maxSteps
    verbosity := if 0 < o.verbosity then o.verbosity else m.verbosity
    logFile := if o.logFile = [] then m.logFile else o.logFile
    addr := if o.addr = [] then m.addr else o.addr }

end StackMachine.Cli
