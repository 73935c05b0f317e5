import StackMachine.Json.Schema

/-!
# What editors say of themselves

The request that opens a session carries a description of the editor. The server needs none of it,
but a description that is not of the agreed shape is refused as a whole, so the shape is spelled out
here.
-/

namespace StackMachine.Editor.Profile

open Json

/-- Fields that are flags. -/
def flags (names : List String) : List (String × Schema) := names.map fun name => (name, .flag)

/-- Fields that are texts. -/
def texts (names : List String) : List (String × Schema) := names.map fun name => (name, .text)

/-- A feature of which nothing is said but flags. -/
def feature (names : List String) : Schema := .record (flags names)

/-- A feature that can be registered later. -/
def dynamic : Schema := feature ["dynamicRegistration"]

/-- A set of numbers. -/
def numberSet : Schema := .record [("valueSet", .list .int32)]

/-- A set of names. -/
def nameSet : Schema := .record [("valueSet", .list .text)]

/-- A list of names of properties. -/
def properties : Schema := .record [("properties", .list .text)]

/-- What the editor does with the files around a document. -/
def workspace : Schema :=
  .record (flags ["applyEdit", "workspaceFolders", "configuration"] ++
    [("workspaceEdit", .record (flags ["documentChanges", "normalizesLineEndings"] ++
        [("resourceOperations", .list .text), ("failureHandling", .text),
          ("changeAnnotationSupport", feature ["groupsOnLabel"])])),
      ("didChangeConfiguration", dynamic), ("didChangeWatchedFiles", dynamic),
      ("symbol", .record (flags ["dynamicRegistration"] ++
        [("symbolKind", numberSet), ("tagSupport", numberSet)])),
      ("executeCommand", dynamic), ("semanticTokens", feature ["refreshSupport"]),
      ("codeLens", feature ["refreshSupport"]),
      ("fileOperations", feature ["dynamicRegistration", "didCreate", "willCreate", "didRename",
        "willRename", "didDelete", "willDelete"])])

/-- What the editor does with completions. -/
def completion : Schema :=
  .record (flags ["dynamicRegistration", "contextSupport"] ++
    [("completionItem", .record (flags ["snippetSupport", "commitCharactersSupport",
          "deprecatedSupport", "preselectSupport", "insertReplaceSupport"] ++
        [("documentationFormat", .list .text), ("tagSupport", numberSet),
          ("resolveSupport", properties), ("insertTextModeSupport", numberSet)])),
      ("completionItemKind", numberSet)])

/-- What the editor does with hints on calls. -/
def signatureHelp : Schema :=
  .record (flags ["dynamicRegistration", "contextSupport"] ++
    [("signatureInformation", .record (flags ["activeParameterSupport"] ++
      [("documentationFormat", .list .text),
        ("parameterInformation", feature ["labelOffsetSupport"])]))])

/-- What the editor does with actions on code. -/
def codeAction : Schema :=
  .record (flags ["dynamicRegistration", "isPreferredSupport", "disabledSupport", "dataSupport",
      "honorsChangeAnnotations"] ++
    [("codeActionLiteralSupport", .record [("codeActionKind", nameSet)]),
      ("resolveSupport", properties)])

/-- What the editor does with tokens that have a meaning. -/
def semanticTokens : Schema :=
  .record (flags ["dynamicRegistration", "overlappingTokenSupport", "multilineTokenSupport"] ++
    [("requests", .record [("range", .flagOr []), ("full", .flagOr (flags ["delta"]))]),
      ("tokenTypes", .list .text), ("tokenModifiers", .list .text), ("formats", .list .text)])

/-- The features of which no more is said than that they can be registered later. -/
def plainFeatures : List (String × Schema) :=
  ["references", "documentHighlight", "codeLens", "colorProvider", "formatting", "rangeFormatting",
    "onTypeFormatting", "selectionRange", "linkedEditingRange", "callHierarchy", "moniker"].map
    fun name => (name, dynamic)

/-- The features that lead from a name to where it comes from. -/
def linkFeatures : List (String × Schema) :=
  ["declaration", "definition", "typeDefinition", "implementation"].map
    fun name => (name, feature ["dynamicRegistration", "linkSupport"])

/-- What the editor does with a document. -/
def document : Schema :=
  .record (plainFeatures ++ linkFeatures ++
    [("synchronization",
        feature ["dynamicRegistration", "willSave", "willSaveWaitUntil", "didSave"]),
      ("completion", completion),
      ("hover", .record (flags ["dynamicRegistration"] ++ [("contentFormat", .list .text)])),
      ("signatureHelp", signatureHelp),
      ("documentSymbol", .record (flags ["dynamicRegistration",
          "hierarchicalDocumentSymbolSupport", "labelSupport"] ++
        [("symbolKind", numberSet), ("tagSupport", numberSet)])),
      ("codeAction", codeAction),
      ("documentLink", feature ["dynamicRegistration", "tooltipSupport"]),
      ("rename", .record (flags ["dynamicRegistration", "prepareSupport",
          "honorsChangeAnnotations"] ++ [("prepareSupportDefaultBehavior", .int32)])),
      ("publishDiagnostics", .record (flags ["relatedInformation", "versionSupport",
          "codeDescriptionSupport", "dataSupport"] ++ [("tagSupport", numberSet)])),
      ("foldingRange", .record (flags ["dynamicRegistration", "lineFoldingOnly"] ++
        [("rangeLimit", .word32)])),
      ("semanticTokens", semanticTokens)])

/-- What the editor does outside documents. -/
def window : Schema :=
  .record (flags ["workDoneProgress"] ++
    [("showMessage", .record
        [("messageActionItem", feature ["additionalPropertiesSupport"])]),
      ("showDocument", feature ["support"])])

/-- What the editor understands in general. -/
def general : Schema :=
  .record
    [("regularExpressions", .record (texts ["engine", "version"])),
      ("markdown", .record (texts ["parser", "version"]))]

/-- What the editor can do. -/
def capabilities : Schema :=
  .record [("workspace", workspace), ("textDocument", document), ("window", window),
    ("general", general), ("experimental", .any)]

/-- The description of an editor. -/
def schema : Schema :=
  .record (texts ["locale", "rootPath", "rootUri", "trace"] ++
    [("workDoneToken", .token), ("processId", .int32),
      ("clientInfo", .record (texts ["name", "version"])), ("capabilities", capabilities),
      ("workspaceFolders", .list (.record (texts ["uri", "name"])))])

end StackMachine.Editor.Profile
