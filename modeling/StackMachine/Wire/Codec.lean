import StackMachine.Wire.Message
import StackMachine.Cbor.Record
import StackMachine.Cbor.Writer

/-!
# Messages as bytes

Every message type is a record of named fields. Fields that hold nothing (an empty text, zero, no
list) are left out where leaving them out loses nothing; `decode` restores them. Times are written
as whole seconds since the start of 1970, and a missing time as null.
-/

namespace StackMachine.Wire

open Text Cbor

/-- A message type: how its values become items and how items become values. -/
class Message (β : Type) where
  toItem : β → Item
  reading : Reading β

/-- The bytes of a message. -/
def encode {β : Type} [Message β] (m : β) : Bytes := (Message.toItem m).write

/-- The message that bytes spell. -/
def decode {β : Type} [Message β] (t : Bytes) : Except DecodeError β := Message.reading.decode t

/-- The wording of a value of the wrong type. -/
def mismatchReason (found : String) (field : Option String) (wanted : String) : Bytes :=
  utf8 "cbor: cannot unmarshal " ++ utf8 found ++ utf8 " into Go "
    ++ (match field with
      | some f => utf8 "struct field " ++ utf8 f ++ utf8 " of type "
      | none => utf8 "value of type ")
    ++ utf8 wanted

/-- The wording of bytes that do not spell a message. -/
def decodingReason : DecodeError → Bytes
  | .read .nothing => utf8 "EOF"
  | .read .truncated => utf8 "unexpected EOF"
  | .read .malformed => utf8 "cbor: invalid data item"
  | .read .tooDeep => utf8 "cbor: exceeded max nested level " ++ decimal maxDepth
  | .read .tooLong => utf8 "cbor: string length is too large, causing integer overflow"
  | .read .tooManyElements =>
    utf8 "cbor: exceeded max number of elements " ++ decimal maxElements ++ utf8 " for CBOR array"
  | .read .tooManyEntries =>
    utf8 "cbor: exceeded max number of key-value pairs " ++ decimal maxElements
      ++ utf8 " for CBOR map"
  | .read .trailing => utf8 "cbor: extraneous data"
  | .notUtf8 => utf8 "cbor: invalid UTF-8 string"
  | .content => utf8 "cbor: invalid tag content"
  | .mismatch found field wanted => mismatchReason found field wanted

/-- The wording of bytes that do not spell a message of a type. -/
def decodingMessage (β : Type) [Message β] (e : DecodeError) : Bytes :=
  utf8 "wire: unmarshal *" ++ utf8 (Message.reading : Reading β).typeName ++ utf8 ": "
    ++ decodingReason e

/-- The wording of a type that has no wire form. -/
def unsupportedMessage (typeName : String) : Bytes :=
  utf8 "wire: marshal " ++ utf8 typeName ++ utf8 ": cbor: unsupported type: " ++ utf8 typeName

/-! ## Fields -/

/-- A field that is always written. -/
def always (name : String) (i : Item) : FieldItem := (utf8 name, some i)

/-- A text field that is left out when it is empty. -/
def unlessEmpty (name : String) (t : Bytes) : FieldItem :=
  (utf8 name, if t = [] then none else some (.ofText t))

/-- A number field that is left out when it is zero. -/
def unlessZero (name : String) (v : Int64) : FieldItem :=
  (utf8 name, if v = 0 then none else some (.ofWord v))

/-- A list as an item, null when it is missing. -/
def listItem {β : Type} [Message β] : Option (List β) → Item
  | none => .null
  | some xs => .array (xs.map Message.toItem)

/-- A time as an item. -/
def instantItem (t : Instant) : Item := if t = .zero then .null else .ofWord t.sec

/-! ## The message types -/

instance : Message RunRequest where
  toItem m := record
    [always "program" (.ofText m.program),
      (utf8 "debug", if m.debug then some (.bool true) else none),
      unlessZero "max_steps" m.maxSteps]
  reading := .record "wire.RunRequest" {}
    [.of "program" .text fun v m => { m with program := v },
      .of "debug" .bool fun v m => { m with debug := v },
      .of "max_steps" (.word "int64") fun v m => { m with maxSteps := v }]

instance : Message FaultInfo where
  toItem m := record
    [always "kind" (.ofText m.kind), always "message" (.ofText m.message),
      always "pc" (.ofWord m.pc), unlessZero "line" m.line]
  reading := .record "wire.FaultInfo" {}
    [.of "kind" .text fun v m => { m with kind := v },
      .of "message" .text fun v m => { m with message := v },
      .of "pc" (.word "int") fun v m => { m with pc := v },
      .of "line" (.word "int") fun v m => { m with line := v }]

instance : Message RunResponse where
  toItem m := record
    [unlessEmpty "run_id" m.runId, always "result" (.ofWord m.result),
      always "output" (.ofText m.output), unlessEmpty "trace" m.trace,
      always "steps" (.ofWord m.steps), (utf8 "fault", m.fault.map Message.toItem)]
  reading := .record "wire.RunResponse" {}
    [.of "run_id" .text fun v m => { m with runId := v },
      .of "result" (.word "int64") fun v m => { m with result := v },
      .of "output" .text fun v m => { m with output := v },
      .of "trace" .text fun v m => { m with trace := v },
      .of "steps" (.word "int64") fun v m => { m with steps := v },
      .of "fault" (.optional Message.reading) fun v m => { m with fault := v }]

instance : Message AssembleRequest where
  toItem m := record [always "program" (.ofText m.program)]
  reading := .record "wire.AssembleRequest" {}
    [.of "program" .text fun v m => { m with program := v }]

instance : Message Diagnostic where
  toItem m := record
    [always "line" (.ofWord m.line), always "message" (.ofText m.message)]
  reading := .record "wire.Diagnostic" {}
    [.of "line" (.word "int") fun v m => { m with line := v },
      .of "message" .text fun v m => { m with message := v }]

instance : Message AssembleResponse where
  toItem m := record
    [always "valid" (.bool m.valid), always "instructions" (.ofWord m.instructions),
      unlessEmpty "listing" m.listing,
      (utf8 "diagnostics",
        if m.diagnostics.getD [] = [] then none else some (listItem m.diagnostics))]
  reading := .record "wire.AssembleResponse" {}
    [.of "valid" .bool fun v m => { m with valid := v },
      .of "instructions" (.word "int") fun v m => { m with instructions := v },
      .of "listing" .text fun v m => { m with listing := v },
      .of "diagnostics" (.list Message.reading) fun v m => { m with diagnostics := v }]

instance : Message InstructionsRequest where
  toItem _ := record []
  reading := .record "wire.InstructionsRequest" {} []

instance : Message InstructionInfo where
  toItem m := record
    [always "id" (.ofWord m.id), always "name" (.ofText m.name), unlessEmpty "doc" m.doc]
  reading := .record "wire.InstructionInfo" {}
    [.of "id" (.word "int") fun v m => { m with id := v },
      .of "name" .text fun v m => { m with name := v },
      .of "doc" .text fun v m => { m with doc := v }]

instance : Message InstructionsResponse where
  toItem m := record [always "instructions" (listItem m.instructions)]
  reading := .record "wire.InstructionsResponse" {}
    [.of "instructions" (.list Message.reading) fun v m => { m with instructions := v }]

instance : Message HistoryRequest where
  toItem m := record [unlessZero "limit" m.limit]
  reading := .record "wire.HistoryRequest" {}
    [.of "limit" (.word "int") fun v m => { m with limit := v }]

instance : Message RunSummary where
  toItem m := record
    [always "id" (.ofText m.id), always "created_at" (instantItem m.createdAt),
      always "program_hash" (.ofText m.programHash), always "result" (.ofWord m.result),
      always "output" (.ofText m.output), unlessEmpty "fault_kind" m.faultKind,
      always "steps" (.ofWord m.steps)]
  reading := .record "wire.RunSummary" {}
    [.of "id" .text fun v m => { m with id := v },
      .of "created_at" .instant fun v m => { m with createdAt := v },
      .of "program_hash" .text fun v m => { m with programHash := v },
      .of "result" (.word "int64") fun v m => { m with result := v },
      .of "output" .text fun v m => { m with output := v },
      .of "fault_kind" .text fun v m => { m with faultKind := v },
      .of "steps" (.word "int64") fun v m => { m with steps := v }]

instance : Message HistoryResponse where
  toItem m := record [always "runs" (listItem m.runs)]
  reading := .record "wire.HistoryResponse" {}
    [.of "runs" (.list Message.reading) fun v m => { m with runs := v }]

end StackMachine.Wire
