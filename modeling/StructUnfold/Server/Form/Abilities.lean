import StructUnfold.Server.Form.Basic

/-!
# Forms of what an editor can do

When an editor sets the server up it says in detail what it can do. The server makes no use of it,
but refuses what does not have the form.
-/

namespace StructUnfold.Server.Form

/-- Whether an ability may be registered later. -/
def registered : Form :=
  flags ["dynamicRegistration"]

/-- Whether an ability may be registered later, and whether the editor takes links. -/
def linked : Form :=
  flags ["dynamicRegistration", "linkSupport"]

/-- Whether the editor can be asked to get something anew. -/
def refreshed : Form :=
  flags ["refreshSupport"]

/-- The properties that the editor can get later. -/
def resolved : Form :=
  record [.needed "properties" (list text)]

/-- The numbers of the kinds that the editor knows. -/
def knownKinds : Form :=
  record [.optional "valueSet" (list integer)]

/-- The numbers of the tags that the editor knows, or only whether it knows any. -/
def knownTags : Form :=
  either truth (record [.needed "valueSet" (list integer)])

/-- The kinds of marked up text that the editor takes. -/
def markupKinds : Form :=
  list (word ["plaintext", "markdown"])

/-- What an editor can do with a workspace. -/
def workspaceAbilities : Form :=
  record [
    .optional "applyEdit" truth,
    .optional "workspaceEdit" (record [
      .optional "documentChanges" truth,
      .optional "resourceOperations" (list (word ["create", "rename", "delete"])),
      .optional "failureHandling"
        (word ["abort", "transactional", "textOnlyTransactional", "undo"]),
      .optional "normalizesLineEndings" truth,
      .optional "changeAnnotationSupport" (flags ["groupsOnLabel"])]),
    .optional "didChangeConfiguration" registered,
    .optional "didChangeWatchedFiles" (flags ["dynamicRegistration", "relativePatternSupport"]),
    .optional "symbol" (record [
      .optional "dynamicRegistration" truth,
      .optional "symbolKind" knownKinds,
      .optional "tagSupport" knownTags,
      .optional "resolveSupport" resolved]),
    .optional "executeCommand" registered,
    .optional "workspaceFolders" truth,
    .optional "configuration" truth,
    .optional "semanticTokens" refreshed,
    .optional "codeLens" refreshed,
    .optional "fileOperations" (flags ["dynamicRegistration", "didCreate", "willCreate",
      "didRename", "willRename", "didDelete", "willDelete"]),
    .optional "inlineValue" refreshed,
    .optional "inlayHint" refreshed,
    .optional "diagnostic" refreshed]

/-- What an editor can do with proposals for what to write. -/
def completionAbilities : Form :=
  record [
    .optional "dynamicRegistration" truth,
    .optional "completionItem" (record [
      .optional "snippetSupport" truth,
      .optional "commitCharactersSupport" truth,
      .optional "documentationFormat" markupKinds,
      .optional "deprecatedSupport" truth,
      .optional "preselectSupport" truth,
      .optional "tagSupport" knownTags,
      .optional "insertReplaceSupport" truth,
      .optional "resolveSupport" resolved,
      .optional "insertTextModeSupport" (record [.needed "valueSet" (list integer)]),
      .optional "labelDetailsSupport" truth]),
    .optional "completionItemKind" knownKinds,
    .optional "contextSupport" truth,
    .optional "insertTextMode" integer,
    .optional "completionList" (record [.optional "itemDefaults" (list text)])]

/-- What an editor can do with the signatures of functions. -/
def signatureAbilities : Form :=
  record [
    .optional "dynamicRegistration" truth,
    .optional "signatureInformation" (record [
      .optional "documentationFormat" markupKinds,
      .optional "parameterInformation" (flags ["labelOffsetSupport"]),
      .optional "activeParameterSupport" truth]),
    .optional "contextSupport" truth]

/-- What an editor can do with the actions on a document. -/
def codeActionAbilities : Form :=
  record [
    .optional "dynamicRegistration" truth,
    .optional "codeActionLiteralSupport" (record [
      .needed "codeActionKind" (record [.needed "valueSet" (list text)])]),
    .optional "isPreferredSupport" truth,
    .optional "disabledSupport" truth,
    .optional "dataSupport" truth,
    .optional "resolveSupport" resolved,
    .optional "honorsChangeAnnotations" truth]

/-- What an editor can do with the parts of a document that may be folded. -/
def foldingAbilities : Form :=
  record [
    .optional "dynamicRegistration" truth,
    .optional "rangeLimit" count,
    .optional "lineFoldingOnly" truth,
    .optional "foldingRangeKind" (record [
      .optional "valueSet" (list (word ["comment", "imports", "region"]))]),
    .optional "foldingRange" (flags ["collapsedText"])]

/-- What an editor can do with the meaning of words. -/
def semanticAbilities : Form :=
  record [
    .optional "dynamicRegistration" truth,
    .needed "requests" (record [
      .optional "range" truth,
      .optional "full" (either truth (flags ["delta"]))]),
    .needed "tokenTypes" (list text),
    .needed "tokenModifiers" (list text),
    .needed "formats" (list text),
    .optional "overlappingTokenSupport" truth,
    .optional "multilineTokenSupport" truth,
    .optional "serverCancelSupport" truth,
    .optional "augmentsSyntaxTokens" truth]

/-- What an editor can do with a document. -/
def documentAbilities : Form :=
  record [
    .optional "synchronization"
      (flags ["dynamicRegistration", "willSave", "willSaveWaitUntil", "didSave"]),
    .optional "completion" completionAbilities,
    .optional "hover" (record [
      .optional "dynamicRegistration" truth,
      .optional "contentFormat" markupKinds]),
    .optional "signatureHelp" signatureAbilities,
    .optional "references" registered,
    .optional "documentHighlight" registered,
    .optional "documentSymbol" (record [
      .optional "dynamicRegistration" truth,
      .optional "symbolKind" knownKinds,
      .optional "hierarchicalDocumentSymbolSupport" truth,
      .optional "tagSupport" knownTags]),
    .optional "formatting" registered,
    .optional "rangeFormatting" registered,
    .optional "onTypeFormatting" registered,
    .optional "declaration" linked,
    .optional "definition" linked,
    .optional "typeDefinition" linked,
    .optional "implementation" linked,
    .optional "codeAction" codeActionAbilities,
    .optional "codeLens" registered,
    .optional "documentLink" (flags ["dynamicRegistration", "tooltipSupport"]),
    .optional "colorProvider" registered,
    .optional "rename" (record [
      .optional "dynamicRegistration" truth,
      .optional "prepareSupport" truth,
      .optional "prepareSupportDefaultBehavior" integer,
      .optional "honorsChangeAnnotations" truth]),
    .optional "publishDiagnostics" (record [
      .optional "relatedInformation" truth,
      .optional "tagSupport" knownTags,
      .optional "versionSupport" truth,
      .optional "codeDescriptionSupport" truth,
      .optional "dataSupport" truth]),
    .optional "foldingRange" foldingAbilities,
    .optional "selectionRange" registered,
    .optional "linkedEditingRange" registered,
    .optional "callHierarchy" registered,
    .optional "semanticTokens" semanticAbilities,
    .optional "moniker" registered,
    .optional "typeHierarchy" registered,
    .optional "inlineValue" registered,
    .optional "inlayHint" (record [
      .optional "dynamicRegistration" truth,
      .optional "resolveSupport" resolved]),
    .optional "diagnostic" (flags ["dynamicRegistration", "relatedDocumentSupport"])]

/-- What an editor can do with its window. -/
def windowAbilities : Form :=
  record [
    .optional "workDoneProgress" truth,
    .optional "showMessage" (record [
      .optional "messageActionItem" (flags ["additionalPropertiesSupport"])]),
    .optional "showDocument" (record [.needed "support" truth])]

/-- What an editor can do in general. -/
def generalAbilities : Form :=
  record [
    .optional "regularExpressions" (record [.needed "engine" text, .optional "version" text]),
    .optional "markdown" (record [
      .needed "parser" text,
      .optional "version" text,
      .optional "allowedTags" (list text)]),
    .optional "staleRequestSupport" (record [
      .needed "cancel" truth,
      .needed "retryOnContentModified" (list text)]),
    .optional "positionEncodings" (list text)]

/-- What an editor can do. -/
def abilities : Form :=
  record [
    .optional "workspace" workspaceAbilities,
    .optional "textDocument" documentAbilities,
    .optional "window" windowAbilities,
    .optional "general" generalAbilities,
    .optional "experimental" any]

end StructUnfold.Server.Form
