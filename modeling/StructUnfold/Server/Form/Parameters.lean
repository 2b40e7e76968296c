import StructUnfold.Server.Form.Content

/-!
# Forms of parameters

The methods that the server knows but does not support, each with the form of its parameters.
Parameters that may hold tokens, by which the editor follows the work they cause, are objects only.
-/

namespace StructUnfold.Server.Form

/-- The token for the work on a request. -/
def workToken : List Field :=
  [.optional "workDoneToken" token]

/-- The tokens for the work on a request and for an answer that is given in parts. -/
def tokens : List Field :=
  workToken ++ [.optional "partialResultToken" token]

/-- A named document. -/
def inDocument : List Field :=
  [.needed "textDocument" document]

/-- A stretch of a named document. -/
def inRange : List Field :=
  inDocument ++ [.needed "range" range]

/-- A place in a named document. -/
def atPlace : List Field :=
  inDocument ++ [.needed "position" position]

/-- A node of a hierarchy with tags of the given form, and tokens. -/
def ofItem (tags : Form) : Form :=
  object (.needed "item" (hierarchyItem tags) :: tokens)

/-- Files, each given by texts. -/
def files (names : List String) : Form :=
  record [.needed "files" (list (record (names.map fun name => .needed name text)))]

/-- The methods on a place in a document. -/
def placeMethods : List (String × Form) :=
  [("textDocument/declaration", object (atPlace ++ tokens)),
    ("textDocument/definition", object (atPlace ++ tokens)),
    ("textDocument/typeDefinition", object (atPlace ++ tokens)),
    ("textDocument/implementation", object (atPlace ++ tokens)),
    ("textDocument/documentHighlight", object (atPlace ++ tokens)),
    ("textDocument/moniker", object (atPlace ++ tokens)),
    ("textDocument/references", object (atPlace ++ tokens ++
      [.needed "context" (record [.needed "includeDeclaration" truth])])),
    ("textDocument/completion", object (atPlace ++ tokens ++
      [.optional "context" (record [
        .needed "triggerKind" integer,
        .optional "triggerCharacter" text])])),
    ("textDocument/signatureHelp", object (atPlace ++ workToken ++
      [.optional "context" (record [
        .needed "triggerKind" integer,
        .optional "triggerCharacter" text,
        .needed "isRetrigger" truth,
        .optional "activeSignatureHelp" signatures])])),
    ("textDocument/linkedEditingRange", object (atPlace ++ workToken)),
    ("textDocument/prepareCallHierarchy", object (atPlace ++ workToken)),
    ("textDocument/prepareTypeHierarchy", object (atPlace ++ workToken)),
    ("textDocument/prepareRename", record atPlace),
    ("textDocument/rename", object (atPlace ++ workToken ++ [.needed "newName" text])),
    ("textDocument/onTypeFormatting", object (atPlace ++
      [.needed "ch" text, .needed "options" layout]))]

/-- The methods on a stretch of a document. -/
def rangeMethods : List (String × Form) :=
  [("textDocument/inlayHint", object (inRange ++ workToken)),
    ("textDocument/inlineValue", object (inRange ++ workToken ++
      [.needed "context" (record [
        .needed "frameId" integer,
        .needed "stoppedLocation" range])])),
    ("textDocument/rangeFormatting", object (inRange ++ workToken ++
      [.needed "options" layout])),
    ("textDocument/semanticTokens/range", object (inRange ++ tokens)),
    ("textDocument/codeAction", object (inRange ++ tokens ++
      [.needed "context" (record [
        .needed "diagnostics" (list diagnostic),
        .optional "only" (list text),
        .optional "triggerKind" integer])])),
    ("textDocument/colorPresentation", object (inRange ++ tokens ++
      [.needed "color" (record [
        .needed "red" number,
        .needed "green" number,
        .needed "blue" number,
        .needed "alpha" number])]))]

/-- The methods on a document. -/
def documentMethods : List (String × Form) :=
  [("textDocument/willSaveWaitUntil", record (inDocument ++ [.needed "reason" integer])),
    ("textDocument/documentLink", object (inDocument ++ tokens)),
    ("textDocument/codeLens", object (inDocument ++ tokens)),
    ("textDocument/foldingRange", object (inDocument ++ tokens)),
    ("textDocument/documentSymbol", object (inDocument ++ tokens)),
    ("textDocument/documentColor", object (inDocument ++ tokens)),
    ("textDocument/semanticTokens/full", object (inDocument ++ tokens)),
    ("textDocument/semanticTokens/full/delta", object (inDocument ++ tokens ++
      [.needed "previousResultId" text])),
    ("textDocument/selectionRange", object (inDocument ++ tokens ++
      [.needed "positions" (list position)])),
    ("textDocument/diagnostic", object (inDocument ++ tokens ++
      [.optional "identifier" text, .optional "previousResultId" text])),
    ("textDocument/formatting", object (inDocument ++ workToken ++
      [.needed "options" layout]))]

/-- The methods on what the server has offered. -/
def itemMethods : List (String × Form) :=
  [("callHierarchy/incomingCalls", ofItem (list integer)),
    ("callHierarchy/outgoingCalls", ofItem (list integer)),
    -- Of tags a node of the hierarchy of types has one at most.
    ("typeHierarchy/supertypes", ofItem integer),
    ("typeHierarchy/subtypes", ofItem integer),
    ("documentLink/resolve", documentLink),
    ("codeLens/resolve", codeLens),
    ("codeAction/resolve", codeAction),
    ("inlayHint/resolve", inlayHint),
    ("completionItem/resolve", completionItem),
    ("workspaceSymbol/resolve", symbol)]

/-- The methods on the workspace. -/
def workspaceMethods : List (String × Form) :=
  [("workspace/diagnostic", object (tokens ++
      [.optional "identifier" text,
        .needed "previousResultIds"
          (list (record [.needed "uri" uri, .needed "value" text]))])),
    ("workspace/willCreateFiles", files ["uri"]),
    ("workspace/willRenameFiles", files ["oldUri", "newUri"]),
    ("workspace/willDeleteFiles", files ["uri"])]

/-- The form of the parameters of a method that the server knows but does not support. -/
def unsupported? (method : String) : Option Form :=
  ((placeMethods ++ rangeMethods ++ documentMethods ++ itemMethods ++ workspaceMethods).find?
    fun m => m.1 == method).map Prod.snd

end StructUnfold.Server.Form
