import StackMachine.Text.Quoted
import StackMachine.Text.Radix

/-!
# Flags

A command line is a list of flags followed by operands. A flag has one or two dashes before its
name; its value stands after an equals sign or is the next argument, except that a switch takes a
value only after an equals sign. Flags end before the first argument that is not one, and after
`--`.
-/

namespace StackMachine.Cli

open Text

/-- What a flag takes, and what becomes of the options `o` when it is given. -/
inductive Setting (o : Type) where
  | switch (set : Bool → o → o)
  | text (set : Bytes → o → o)
  | number (set : Int64 → o → o)

/-- A flag. -/
structure Flag (o : Type) where
  name : String
  help : String
  setting : Setting o

/-- Why flags cannot be read. -/
inductive FlagError where
  | badForm (argument : Bytes)
  | unknown (name : Bytes)
  | noSwitch (value name : Bytes)
  | missingValue (name : Bytes)
  | badNumber (value name : Bytes) (reason : Numeral.Reason)
  deriving DecidableEq, Repr

/-- The wording of a number that a flag does not take. -/
def reasonMessage : Numeral.Reason → Bytes
  | .malformed => utf8 "parse error"
  | .outOfRange => utf8 "value out of range"

/-- The wording of flags that cannot be read. -/
def FlagError.message : FlagError → Bytes
  | .badForm argument => utf8 "bad flag syntax: " ++ argument
  | .unknown name => utf8 "flag provided but not defined: -" ++ name
  | .noSwitch value name =>
    utf8 "invalid boolean value " ++ quoted value ++ utf8 " for -" ++ name ++ utf8 ": parse error"
  | .missingValue name => utf8 "flag needs an argument: -" ++ name
  | .badNumber value name reason =>
    utf8 "invalid value " ++ quoted value ++ utf8 " for flag -" ++ name ++ utf8 ": "
      ++ reasonMessage reason

/-- What the flags of a command line come to. -/
inductive Parsed (o : Type) where
  | options (given : o) (operands : List Bytes)
  /-- The usage is asked for. -/
  | help
  | error (e : FlagError)

/-- The value of a switch. -/
def truth? (t : Bytes) : Option Bool :=
  if ["1", "t", "T", "TRUE", "true", "True"].any fun s => utf8 s = t then some true
  else if ["0", "f", "F", "FALSE", "false", "False"].any fun s => utf8 s = t then some false
  else none

/-- An argument as it stands at the place of a flag. -/
inductive Shape where
  | operand
  | terminator
  | badForm
  | flag (name : Bytes) (value : Option Bytes)
  deriving DecidableEq, Repr

/-- The name of a flag and the value after the first equals sign, which is never the first byte. -/
def cutValue (t : Bytes) : Shape :=
  let name := t.take 1 ++ (t.drop 1).takeWhile (· != ascii '=')
  if name.length < t.length then .flag name (some (t.drop (name.length + 1))) else .flag t none

/-- The shape of an argument. -/
def shape (argument : Bytes) : Shape :=
  match argument with
  | [45, 45] => .terminator
  | 45 :: b :: rest =>
    let name := if b = ascii '-' then rest else b :: rest
    match name with
    | [] => .badForm
    | first :: _ =>
      if first = ascii '-' ∨ first = ascii '=' then .badForm else cutValue name
  | _ => .operand

variable {o : Type}

/-- Sets a flag to a value that was given for it. -/
def Flag.set (f : Flag o) (name value : Bytes) (given : o) : Except FlagError o :=
  match f.setting with
  | .switch set =>
    match truth? value with
    | some b => .ok (set b given)
    | none => .error (.noSwitch value name)
  | .text set => .ok (set value given)
  | .number set =>
    match Radix.read value with
    | .ok n => .ok (set n given)
    | .error reason => .error (.badNumber value name reason)

/-- Reads flags into options. -/
def parseFlags (flags : List (Flag o)) (given : o) : List Bytes → Parsed o
  | [] => .options given []
  | argument :: rest =>
    match shape argument with
    | .operand => .options given (argument :: rest)
    | .terminator => .options given rest
    | .badForm => .error (.badForm argument)
    | .flag name value =>
      match flags.find? fun f => utf8 f.name = name with
      | none => if name = utf8 "help" ∨ name = utf8 "h" then .help else .error (.unknown name)
      | some f =>
        match value, f.setting, rest with
        | some v, _, rest =>
          match f.set name v given with
          | .ok given => parseFlags flags given rest
          | .error e => .error e
        | none, .switch set, rest => parseFlags flags (set true given) rest
        | none, _, v :: rest =>
          match f.set name v given with
          | .ok given => parseFlags flags given rest
          | .error e => .error e
        | none, _, [] => .error (.missingValue name)

/-- What a flag's value is called in the usage. -/
def Setting.valueName : Setting o → String
  | .switch _ => ""
  | .text _ => " string"
  | .number _ => " int"

/-- A flag in the usage. -/
def Flag.usage (f : Flag o) : Bytes :=
  utf8 "  -" ++ utf8 f.name ++ utf8 f.setting.valueName ++ line []
    ++ line (utf8 "    \t" ++ utf8 f.help)

end StackMachine.Cli
