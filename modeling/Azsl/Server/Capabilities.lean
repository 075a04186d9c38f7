/-
Azsl.Server.Capabilities — what an editor says that it can do.

None of it matters to this server, but it is written in a fixed form, and an editor that breaks
the form is not served. A form tells which values are well-formed. Records may be objects, whose
unknown fields do not matter, or arrays of all their values in order.
-/
import Azsl.Json

namespace Azsl

/-- Which values are well-formed. -/
abbrev Form := Json → Bool

namespace Form

/-! ## Simple values -/

/-- Any value. -/
def anything : Form := fun _ => true

/-- A truth value. -/
def flag : Form := fun value => value.bool?.isSome

/-- A text. -/
def text : Form := fun value => value.str?.isSome

/-- A number of 32 bits without a sign. -/
def count : Form := fun value => value.count?.isSome

/-- A number of 32 bits with a sign. Kinds and tags that have numbers are open: there may be
others than the known ones. -/
def number : Form := fun value => value.word?.isSome

/-- One of some names, or an object that has nothing but one of them, without a value. -/
def choice (names : List String) : Form
  | .str name => names.contains name
  | .obj fields =>
    match fields.reverse with
    | (name, .null) :: others => names.contains name && others.all (·.1 == name)
    | _ => false
  | _ => false

/-- A list. -/
def listOf (item : Form) : Form
  | .arr items => items.all item
  | _ => false

/-- Either of two forms. -/
def either (first second : Form) : Form := fun value => first value || second value

/-! ## Records -/

/-- A field of a record: its name, and which values it may have, if any. -/
structure Field where
  name : String
  fits : Option Json → Bool
  /-- Whether an array may end before it. -/
  mayEnd : Bool

/-- A field that has to be there. -/
def required (name : String) (form : Form) : Field := ⟨name, (·.any form), false⟩

/-- Whether there is no value, or one of a form. -/
def isNoneOr (form : Form) : Option Json → Bool
  | none | some .null => true
  | some value => form value

/-- A field that may be missing or null. -/
def optional (name : String) (form : Form) : Field := ⟨name, isNoneOr form, false⟩

/-- A field that may also be missing at the end of an array. -/
def omissible (name : String) (form : Form) : Field := ⟨name, isNoneOr form, true⟩

/-- The number of fields that an array has at least. -/
def least (fields : List Field) : Nat :=
  (fields.reverse.dropWhile (·.mayEnd)).length

/-- A record. -/
def record (fields : List Field) : Form := fun value =>
  match value.record? (fields.map (·.name)) (least fields) with
  | some field? => fields.all fun field => field.fits (field? field.name)
  | none => false

/-- A record that is an object. -/
def object (fields : List Field) : Form
  | .obj entries => record fields (.obj entries)
  | _ => false

end Form

namespace Capabilities

open Form

/-! ## Parts that recur -/

/-- Optional truth values. -/
def flags (names : List String) : List Field := names.map (optional · flag)

/-- Whether the editor can be asked later to start or stop something. -/
def registration : Form := record (flags ["dynamicRegistration"])

/-- Whether the editor can be told to ask again. -/
def refresh : Form := record (flags ["refreshSupport"])

/-- Which kinds with numbers the editor knows. -/
def kinds : Form := record [optional "valueSet" (listOf number)]

/-- Which tags the editor knows, or only whether it knows some. -/
def tags : Form := either flag (record [required "valueSet" (listOf number)])

/-- What the editor can ask for later. -/
def lazyProperties : Form := record [required "properties" (listOf text)]

/-- The formats of texts that the editor can show. -/
def formats : Form := listOf (choice ["plaintext", "markdown"])

/-- Where the editor can go. -/
def target : Form := record (flags ["dynamicRegistration", "linkSupport"])

/-! ## The workspace -/

/-- How the editor changes files. -/
def workspaceEdit : Form :=
  record
    [optional "documentChanges" flag,
     optional "resourceOperations" (listOf (choice ["create", "rename", "delete"])),
     optional "failureHandling"
       (choice ["abort", "transactional", "textOnlyTransactional", "undo"]),
     optional "normalizesLineEndings" flag,
     optional "changeAnnotationSupport" (record (flags ["groupsOnLabel"]))]

/-- How the editor searches for symbols. -/
def workspaceSymbol : Form :=
  record
    [optional "dynamicRegistration" flag, optional "symbolKind" kinds, omissible "tagSupport" tags,
     optional "resolveSupport" lazyProperties]

/-- Which changes of files the editor tells. -/
def fileOperations : Form :=
  record (flags ["dynamicRegistration", "didCreate", "willCreate", "didRename", "willRename",
    "didDelete", "willDelete"])

/-- What the editor can do with the workspace. -/
def workspace : Form :=
  record
    [optional "applyEdit" flag,
     optional "workspaceEdit" workspaceEdit,
     optional "didChangeConfiguration" registration,
     optional "didChangeWatchedFiles"
       (record (flags ["dynamicRegistration", "relativePatternSupport"])),
     optional "symbol" workspaceSymbol,
     optional "executeCommand" registration,
     optional "workspaceFolders" flag,
     optional "configuration" flag,
     optional "semanticTokens" refresh,
     optional "codeLens" refresh,
     optional "fileOperations" fileOperations,
     optional "inlineValue" refresh,
     optional "inlayHint" refresh,
     optional "diagnostic" refresh]

/-! ## Documents -/

/-- How the editor completes an item. -/
def completionItem : Form :=
  record
    [optional "snippetSupport" flag,
     optional "commitCharactersSupport" flag,
     optional "documentationFormat" formats,
     optional "deprecatedSupport" flag,
     optional "preselectSupport" flag,
     omissible "tagSupport" tags,
     optional "insertReplaceSupport" flag,
     optional "resolveSupport" lazyProperties,
     optional "insertTextModeSupport" (record [required "valueSet" (listOf number)]),
     optional "labelDetailsSupport" flag]

/-- How the editor completes what is typed. -/
def completion : Form :=
  record
    [optional "dynamicRegistration" flag,
     optional "completionItem" completionItem,
     optional "completionItemKind" kinds,
     optional "contextSupport" flag,
     optional "insertTextMode" number,
     optional "completionList" (record [optional "itemDefaults" (listOf text)])]

/-- How the editor shows signatures. -/
def signatureHelp : Form :=
  record
    [optional "dynamicRegistration" flag,
     optional "signatureInformation"
       (record
         [optional "documentationFormat" formats,
          optional "parameterInformation" (record (flags ["labelOffsetSupport"])),
          optional "activeParameterSupport" flag]),
     optional "contextSupport" flag]

/-- How the editor lists the symbols of a document. -/
def documentSymbol : Form :=
  record
    [optional "dynamicRegistration" flag,
     optional "symbolKind" kinds,
     optional "hierarchicalDocumentSymbolSupport" flag,
     omissible "tagSupport" tags]

/-- How the editor offers to change code. -/
def codeAction : Form :=
  record
    [optional "dynamicRegistration" flag,
     optional "codeActionLiteralSupport"
       (record
         [required "codeActionKind" (record [required "valueSet" (listOf text)])]),
     optional "isPreferredSupport" flag,
     optional "disabledSupport" flag,
     optional "dataSupport" flag,
     optional "resolveSupport" lazyProperties,
     optional "honorsChangeAnnotations" flag]

/-- How the editor renames symbols. -/
def rename : Form :=
  record
    [optional "dynamicRegistration" flag,
     optional "prepareSupport" flag,
     optional "prepareSupportDefaultBehavior" number,
     optional "honorsChangeAnnotations" flag]

/-- How the editor shows diagnostics. -/
def publishDiagnostics : Form :=
  record
    [optional "relatedInformation" flag,
     omissible "tagSupport" tags,
     optional "versionSupport" flag,
     optional "codeDescriptionSupport" flag,
     optional "dataSupport" flag]

/-- How the editor folds lines. -/
def foldingRange : Form :=
  record
    [optional "dynamicRegistration" flag,
     optional "rangeLimit" count,
     optional "lineFoldingOnly" flag,
     optional "foldingRangeKind"
       (record [optional "valueSet" (listOf (choice ["comment", "imports", "region"]))]),
     optional "foldingRange" (record (flags ["collapsedText"]))]

/-- How the editor colours tokens by their meaning. -/
def semanticTokens : Form :=
  record
    [optional "dynamicRegistration" flag,
     required "requests"
       (record
         [optional "range" flag,
          optional "full" (either flag (object (flags ["delta"])))]),
     required "tokenTypes" (listOf text),
     required "tokenModifiers" (listOf text),
     required "formats" (listOf text),
     optional "overlappingTokenSupport" flag,
     optional "multilineTokenSupport" flag,
     optional "serverCancelSupport" flag,
     optional "augmentsSyntaxTokens" flag]

/-- What the editor can do with a document. -/
def textDocument : Form :=
  record
    [optional "synchronization"
       (record (flags ["dynamicRegistration", "willSave", "willSaveWaitUntil", "didSave"])),
     optional "completion" completion,
     optional "hover"
       (record [optional "dynamicRegistration" flag, optional "contentFormat" formats]),
     optional "signatureHelp" signatureHelp,
     optional "references" registration,
     optional "documentHighlight" registration,
     optional "documentSymbol" documentSymbol,
     optional "formatting" registration,
     optional "rangeFormatting" registration,
     optional "onTypeFormatting" registration,
     optional "declaration" target,
     optional "definition" target,
     optional "typeDefinition" target,
     optional "implementation" target,
     optional "codeAction" codeAction,
     optional "codeLens" registration,
     optional "documentLink" (record (flags ["dynamicRegistration", "tooltipSupport"])),
     optional "colorProvider" registration,
     optional "rename" rename,
     optional "publishDiagnostics" publishDiagnostics,
     optional "foldingRange" foldingRange,
     optional "selectionRange" registration,
     optional "linkedEditingRange" registration,
     optional "callHierarchy" registration,
     optional "semanticTokens" semanticTokens,
     optional "moniker" registration,
     optional "typeHierarchy" registration,
     optional "inlineValue" registration,
     optional "inlayHint"
       (record [optional "dynamicRegistration" flag, optional "resolveSupport" lazyProperties]),
     optional "diagnostic" (record (flags ["dynamicRegistration", "relatedDocumentSupport"]))]

/-! ## The rest -/

/-- What the editor can do with its window. -/
def window : Form :=
  record
    [optional "workDoneProgress" flag,
     optional "showMessage"
       (record
         [optional "messageActionItem" (record (flags ["additionalPropertiesSupport"]))]),
     optional "showDocument" (record [required "support" flag])]

/-- What the editor can do in general. -/
def general : Form :=
  record
    [optional "regularExpressions" (record [required "engine" text, optional "version" text]),
     optional "markdown"
       (record
         [required "parser" text, optional "version" text, optional "allowedTags" (listOf text)]),
     optional "staleRequestSupport"
       (record [required "cancel" flag, required "retryOnContentModified" (listOf text)]),
     optional "positionEncodings" (listOf text)]

/-- What an editor can do. -/
def form : Form :=
  record
    [optional "workspace" workspace,
     optional "textDocument" textDocument,
     optional "window" window,
     optional "general" general,
     optional "experimental" anything]

end Capabilities

end Azsl
