import StructUnfold.Server.Form.Basic

/-!
# Forms of what stands in documents

The forms of edits, findings, commands and of the items that a server may offer to an editor and
get back from it.
-/

namespace StructUnfold.Server.Form

/-- A stretch of a named document. -/
def location : Form :=
  record [.needed "uri" uri, .needed "range" range]

/-- A text that is marked up. -/
def markup : Form :=
  record [.needed "kind" (word ["plaintext", "markdown"]), .needed "value" text]

/-- A text, marked up or not. -/
def explanation : Form :=
  either text markup

/-- A command. -/
def command : Form :=
  record [.needed "title" text, .needed "command" text, .optional "arguments" (list any)]

/-- The replacement of a stretch of a document. -/
def textEdit : Form :=
  record [.needed "range" range, .needed "newText" text]

/-- The edits of a document that is named together with the number of its state. -/
def documentEdit : Form :=
  record [
    .needed "textDocument" (record [.needed "uri" uri, .optional "version" integer]),
    .needed "edits" (list textEdit)]

/-- The making, renaming or deletion of a file. -/
def fileEdit : Form :=
  kinds "kind" [
    ("create", record [
      .needed "uri" uri,
      .optional "options" (flags ["overwrite", "ignoreIfExists"]),
      .optional "annotationId" text]),
    ("rename", record [
      .needed "oldUri" uri,
      .needed "newUri" uri,
      .optional "options" (flags ["overwrite", "ignoreIfExists"]),
      .optional "annotationId" text]),
    ("delete", record [
      .needed "uri" uri,
      .optional "options" (record [
        .optional "recursive" truth,
        .optional "ignoreIfNotExists" truth,
        .optional "annotationId" text])])]

/-- The edits of a workspace. -/
def workspaceEdit : Form :=
  record [
    .optional "changes" (table (fun key => (Uri.parse? key).isSome) (list textEdit)),
    .optional "documentChanges" (list (either fileEdit documentEdit)),
    .optional "changeAnnotations" (table (fun _ => true) (record [
      .needed "label" text,
      .optional "needsConfirmation" truth,
      .optional "description" text]))]

/-- A finding in a document. -/
def diagnostic : Form :=
  record [
    .needed "range" range,
    .optional "severity" integer,
    .optional "code" (either integer text),
    .optional "codeDescription" (record [.needed "href" uri]),
    .optional "source" text,
    .needed "message" text,
    .optional "relatedInformation" (list (record [
      .needed "location" location,
      .needed "message" text])),
    .optional "tags" (list integer),
    .optional "data" any]

/-- An action on a document. -/
def codeAction : Form :=
  record [
    .needed "title" text,
    .optional "kind" text,
    .optional "diagnostics" (list diagnostic),
    .optional "edit" workspaceEdit,
    .optional "command" command,
    .optional "isPreferred" truth,
    .optional "disabled" (record [.needed "reason" text]),
    .optional "data" any]

/-- A command shown above a stretch of a document. -/
def codeLens : Form :=
  record [.needed "range" range, .optional "command" command, .optional "data" any]

/-- A link in a document. -/
def documentLink : Form :=
  record [
    .needed "range" range,
    .optional "target" uri,
    .optional "tooltip" text,
    .optional "data" any]

/-- A text shown at a place of a document. -/
def inlayHint : Form :=
  record [
    .needed "position" position,
    .needed "label" (either text (list (record [
      .needed "value" text,
      .optional "tooltip" explanation,
      .optional "location" location,
      .optional "command" command]))),
    .optional "kind" integer,
    .optional "textEdits" (list textEdit),
    .optional "tooltip" explanation,
    .optional "paddingLeft" truth,
    .optional "paddingRight" truth,
    .optional "data" any]

/-- A proposal for what to write at a place. -/
def completionItem : Form :=
  record [
    .needed "label" text,
    .optional "labelDetails" (record [.optional "detail" text, .optional "description" text]),
    .optional "kind" integer,
    .optional "detail" text,
    .optional "documentation" explanation,
    .optional "deprecated" truth,
    .optional "preselect" truth,
    .optional "sortText" text,
    .optional "filterText" text,
    .optional "insertText" text,
    .optional "insertTextFormat" integer,
    .optional "insertTextMode" integer,
    .optional "textEdit" (either textEdit (record [
      .needed "newText" text,
      .needed "insert" range,
      .needed "replace" range])),
    .optional "additionalTextEdits" (list textEdit),
    .optional "command" command,
    .optional "commitCharacters" (list text),
    .optional "data" any,
    .optional "tags" (list integer)]

/-- The ways in which a function may be called. -/
def signatures : Form :=
  record [
    .needed "signatures" (list (record [
      .needed "label" text,
      .optional "documentation" explanation,
      .optional "parameters" (list (record [
        .needed "label" (either text (pair count)),
        .optional "documentation" explanation])),
      .optional "activeParameter" count])),
    .optional "activeSignature" count,
    .optional "activeParameter" count]

/-- A node of a hierarchy of calls or types, with tags of the given form. -/
def hierarchyItem (tags : Form) : Form :=
  record [
    .needed "name" text,
    .needed "kind" integer,
    .optional "tags" tags,
    .optional "detail" text,
    .needed "uri" uri,
    .needed "range" range,
    .needed "selectionRange" range,
    .optional "data" any]

/-- A name of the workspace. Its place may be no more than a document. -/
def symbol : Form :=
  record [
    .needed "name" text,
    .needed "kind" integer,
    .optional "tags" (list integer),
    .optional "containerName" text,
    .needed "location" (either location (record [.needed "uri" uri])),
    .optional "data" any]

/-- How a document is to be laid out. -/
def layout : Form :=
  openObject [
    .needed "tabSize" count,
    .needed "insertSpaces" truth,
    .optional "trimTrailingWhitespace" truth,
    .optional "insertFinalNewline" truth,
    .optional "trimFinalNewlines" truth]
    (either truth (either integer text))

end StructUnfold.Server.Form
