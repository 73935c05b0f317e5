import StackMachine.Editor.Profile
import StackMachine.Editor.Session

/-!
# Messages of an editor

How requests are read from the method and the parameters of a message, and how results and notices
are written. Parameters that are of the wrong shape anywhere make no sense as a whole; missing ones
have the zero value of their type.
-/

namespace StackMachine.Editor

open Text Json

/-! ## Reading -/

/-- The shape of a place in a document. -/
def placeSchema : Schema := .record [("line", .word32), ("character", .word32)]

/-- The shape of the name of a document, which may stand among more that is known of it. -/
def documentSchema (more : List (String × Schema)) : Schema := .record (("uri", .text) :: more)

/-- The shape of a question about a place. -/
def questionFields : List (String × Schema) :=
  [("textDocument", documentSchema []), ("position", placeSchema), ("workDoneToken", .token)]

/-- The shape of a change of a document. -/
def changeSchema : Schema :=
  .record [("range", .record [("start", placeSchema), ("end", placeSchema)]),
    ("rangeLength", .word32), ("text", .text)]

/-- The name of the document that a request is about. -/
def uriOf (fields : Fields) : Bytes := (fields.record "textDocument").text "uri"

/-- The place that a request asks about. -/
def placeOf (fields : Fields) : Position :=
  let place := fields.record "position"
  ⟨place.word32 "line", place.word32 "character"⟩

/-- A change of a document: of a part, if there is a range, or else of the whole. -/
def changeOf (fields : Fields) : Change :=
  if fields.has "range" then .part (fields.text "text") else .whole (fields.text "text")

/-- Reads that a document was opened. -/
def openedOf (fields : Fields) : Request :=
  .opened (uriOf fields) ((fields.record "textDocument").text "text")

/-- Reads the changes of a document. Each of them has to be of the right shape. -/
def changed? (fields : Fields) : Option Request :=
  let changes := fields.items "contentChanges"
  if changes.all changeSchema.admits then
    some (.changed (uriOf fields) (changes.map fun c => changeOf c.fields))
  else none

/-- A method with parameters. -/
structure Method where
  name : String
  /-- The shape of the parameters. -/
  schema : Schema
  /-- The request that parameters of this shape stand for. -/
  read : Fields → Option Request

/-- The methods with parameters. -/
def methods : List Method :=
  [⟨"initialize", Profile.schema, fun _ => some .start⟩,
    ⟨"initialized", .record [], fun _ => some .started⟩,
    ⟨"$/setTrace", .record [("value", .text)], fun _ => some .setTrace⟩,
    ⟨"textDocument/didOpen",
      .record [("textDocument",
        documentSchema [("languageId", .text), ("version", .int32), ("text", .text)])],
      fun fields => some (openedOf fields)⟩,
    ⟨"textDocument/didChange",
      .record [("textDocument", documentSchema [("version", .int32)]),
        ("contentChanges", .list .any)],
      changed?⟩,
    ⟨"textDocument/didClose", .record [("textDocument", documentSchema [])],
      fun fields => some (.closed (uriOf fields))⟩,
    ⟨"textDocument/completion",
      .record (questionFields ++ [("partialResultToken", .token),
        ("context", .record [("triggerKind", .int32), ("triggerCharacter", .text)])]),
      fun fields => some (.completion (uriOf fields) (placeOf fields))⟩,
    ⟨"textDocument/hover", .record questionFields,
      fun fields => some (.hover (uriOf fields) (placeOf fields))⟩]

/-- Reads a message. Only a shutdown does without parameters. -/
def Incoming.read (method : Bytes) (params : Option Datum) : Incoming :=
  if method = utf8 "shutdown" then .request .shutdown
  else match methods.find? fun m => utf8 m.name = method with
    | none => .otherMethod
    | some m =>
      match params.bind fun v => if m.schema.admits v then m.read v.fields else none with
      | some asked => .request asked
      | none => .badParams (m.name == "initialize")

/-! ## Writing -/

/-- A completion, as a keyword. -/
def Completion.toJson (c : Completion) : Datum :=
  .record ([("label", .ofText c.label), ("kind", .ofNat 14), ("detail", .ofText c.detail),
      ("insertText", .ofText c.label)]
    ++ (if c.documentation = [] then [] else [("documentation", .ofText c.documentation)]))

/-- A list of completions. An empty one is null. -/
def completionsToJson (items : List Completion) : Datum :=
  if items.isEmpty then .null else .array (items.map Completion.toJson)

/-- What is shown for a word. -/
def hoverToJson (text : Bytes) : Datum :=
  .record [("contents", .record [("kind", .ofText (utf8 "markdown")), ("value", .ofText text)])]

/-- A place in a document. -/
def Position.toJson (p : Position) : Datum :=
  .record [("line", .ofNat p.line), ("character", .ofNat p.character)]

/-- A remark, as an error on the whole of its line. -/
def Remark.toJson (r : Remark) : Datum :=
  .record
    [("range", .record [("start", r.start.toJson), ("end", r.stop.toJson)]),
      ("severity", .ofNat 1), ("source", .ofText serverName), ("message", .ofText r.message)]

/-- The remarks on a document. -/
def remarksToJson (remarks : List Remark) : Datum := .array (remarks.map Remark.toJson)

/-- What the server can do: whole documents in, completions and hovers out. -/
def capabilities : Datum :=
  .record
    [("capabilities", .record
        [("textDocumentSync", .record [("openClose", .bool true), ("change", .ofNat 1)]),
          ("completionProvider", .record []), ("hoverProvider", .bool true)]),
      ("serverInfo", .record
        [("name", .ofText serverName), ("version", .ofText serverVersion)])]

/-- The result of a request. -/
def Result.toJson : Result → Datum
  | .nothing => .null
  | .capabilities => Editor.capabilities
  | .completions items => completionsToJson items
  | .hover text => hoverToJson text

/-- A notice, with the method that publishes it. -/
def Notice.toJson (n : Notice) : Datum :=
  .record [("method", .ofText (utf8 "textDocument/publishDiagnostics")),
    ("params", .record [("uri", .ofText n.uri), ("diagnostics", remarksToJson n.remarks)])]

end StackMachine.Editor
