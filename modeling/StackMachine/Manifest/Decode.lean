import StackMachine.Manifest
import StackMachine.Text.Case
import StackMachine.Toml.Document

/-!
# Manifests from TOML

A manifest is a TOML document with a table for each part of the configuration. What a document does
not mention keeps its default, and what it mentions without need is passed over. Names may differ in
case.
-/

namespace StackMachine.Manifest

open Text

/-- Why a document is not a manifest. -/
inductive DecodeError where
  /-- It is not TOML, or a value is of the wrong type. -/
  | malformed
  /-- A duration in it cannot be read. -/
  | duration (e : Duration.Error)
  deriving DecidableEq, Repr

/-- The wording of a decoding error. -/
def DecodeError.message : DecodeError → Bytes
  | .malformed => utf8 "toml"
  | .duration e => utf8 "toml: " ++ e.message

/-- A way to take over the value of a field. -/
abbrev Setter := Toml.Value → Manifest → Except DecodeError Manifest

/-- The setter of a name: of the field with that very name, or else of the first that differs from
it in case only. -/
def setter? (fields : List (String × Setter)) (name : Bytes) : Option Setter :=
  let exact := fields.find? fun f => utf8 f.1 = name
  let folded := fields.find? fun f => sameName (utf8 f.1) name
  (exact <|> folded).map (·.2)

/-- Takes over the entries of a table, one after the other. -/
def decodeTable (fields : List (String × Setter)) (t : Toml.Table) (m : Manifest) :
    Except DecodeError Manifest :=
  t.foldlM (fun m (name, v) =>
    match setter? fields name with
    | some set => set v m
    | none => .ok m) m

/-- The setter of a field that is a table itself. -/
def section? (fields : List (String × Setter)) : Setter
  | .table t, m => decodeTable fields t m
  | _, _ => .error .malformed

/-- The setter of a field that is a boolean. -/
def boolean (set : Bool → Manifest → Manifest) : Setter
  | .boolean b, m => .ok (set b m)
  | _, _ => .error .malformed

/-- The setter of a field that is an integer. -/
def integer (set : Int64 → Manifest → Manifest) : Setter
  | .integer n, m => .ok (set n m)
  | _, _ => .error .malformed

/-- The setter of a field that is a text. -/
def text (set : Bytes → Manifest → Manifest) : Setter
  | .text t, m => .ok (set t m)
  | _, _ => .error .malformed

/-- The text of a value that is not made of others. -/
def plainText? : Toml.Value → Option Bytes
  | .text t => some t
  | .integer n => some (word n)
  | .decimal d => some d.toBytes
  | .boolean b => some (utf8 (if b then "true" else "false"))
  | .moment m => m.toBytes?
  | _ => none

/-- The setter of a field that is a duration: any plain value whose text spells one. -/
def duration (set : Duration → Manifest → Manifest) : Setter
  | v, m =>
    match plainText? v with
    | none => .error .malformed
    | some t =>
      match Duration.parse t with
      | .ok d => .ok (set d m)
      | .error e => .error (.duration e)

/-- The fields of a manifest. -/
def fields : List (String × Setter) :=
  [("vm", section?
      [("debug", boolean fun b m => { m with debug := b }),
        ("max-steps", integer fun n m => { m with maxSteps := n })]),
    ("server", section?
      [("addr", text fun t m => { m with addr := t }),
        ("timeout", duration fun d m => { m with timeout := d })]),
    ("history", section?
      [("enabled", boolean fun b m => { m with historyEnabled := b }),
        ("path", text fun t m => { m with historyFile := t })]),
    ("log", section?
      [("verbosity", integer fun n m => { m with verbosity := n }),
        ("file", text fun t m => { m with logFile := t })])]

/-- The manifest that a document describes. -/
def decode (document : Bytes) : Except DecodeError Manifest :=
  match Toml.parse? document with
  | none => .error .malformed
  | some t => decodeTable fields t {}

end StackMachine.Manifest
