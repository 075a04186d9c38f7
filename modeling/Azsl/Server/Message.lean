/-
Azsl.Server.Message — what an editor sends.

A message with an identifier and a method is a request, one with an identifier alone is the
answer to a request of the server, and one with a method alone is a notification. Requests and
notifications are read into what they mean: a `Query` or a `Notice`.
-/
import Azsl.Json
import Azsl.Server.Configuration
import Azsl.Workspace.Basic

namespace Azsl

/-- The identifier that ties an answer to its request. -/
inductive RequestId where
  | number (value : Int)
  | text (value : String)
deriving DecidableEq, Repr

/-- A message from an editor. -/
inductive Message where
  | request (id : RequestId) (method : String) (params : Json)
  | response (id : RequestId)
  | notification (method : String) (params : Json)

namespace RequestId

/-- The identifier that a value stands for. -/
def ofJson? : Json → Option RequestId
  | .str value => some (.text value)
  | value => value.word?.map .number

end RequestId

namespace Message

/-- The message that a value stands for. -/
def ofJson? (value : Json) : Option Message :=
  let id := (value.field? "id").bind RequestId.ofJson?
  let method := (value.field? "method").bind Json.str?
  let params := (value.field? "params").getD .null
  match id, method with
  | some id, some method => some (.request id method params)
  | some id, none => some (.response id)
  | none, some method => some (.notification method params)
  | none, none => none

/-- Whether the message ends the session. -/
def isExit : Message → Bool
  | notification method _ => method == "exit"
  | _ => false

end Message

/-! ## Parts of parameters -/

namespace Position

/-- The position that a value stands for. -/
def ofJson? (value : Json) : Option Position := do
  let field ← value.record? ["line", "character"] 2
  return ⟨← Json.required? Json.count? (field "line"),
    ← Json.required? Json.count? (field "character")⟩

end Position

namespace Range

/-- The range that a value stands for. -/
def ofJson? (value : Json) : Option Range := do
  let field ← value.record? ["start", "end"] 2
  return ⟨← Json.required? Position.ofJson? (field "start"),
    ← Json.required? Position.ofJson? (field "end")⟩

end Range

namespace Change

/-- The change that a value stands for: without a range, of the full text. -/
def ofJson? (value : Json) : Option Change := do
  let field ← value.record? ["range", "rangeLength", "text"] 3
  let range ← Json.optional? Range.ofJson? (field "range")
  let _ ← Json.optional? Json.count? (field "rangeLength")
  let text ← Json.required? Json.str? (field "text")
  return match range with
    | some range => .replace range text.toList
    | none => .full text.toList

end Change

/-! ## Queries -/

/-- What an editor asks. -/
inductive Query where
  | definition (uri : Uri) (position : Position)
  | hover (uri : Uri) (position : Position)
  | functions (uri : Uri)
deriving DecidableEq, Repr

/-- Why a request is not answered. -/
inductive RequestError where
  | unsupported (method : String)
  | invalidParams (method : String)
  | notInitialized (method : String)
deriving DecidableEq, Repr

namespace RequestError

/-- The number of an error in the protocol. -/
def code : RequestError → Int
  | unsupported _ => -32601
  | invalidParams _ => -32602
  | notInitialized _ => -32002

/-- The wording of an error. -/
def message : RequestError → String
  | unsupported method => "Unsupported request " ++ method
  | invalidParams method => "Invalid parameters for " ++ method
  | notInitialized method => "Request before initialization " ++ method

end RequestError

namespace Query

/-- A token by which an editor tracks progress; it may be missing, and does not matter. -/
def token? (params : Json) (name : String) : Option (Option RequestId) :=
  Json.optional? RequestId.ofJson? (params.field? name)

/-- The document that a request is about. -/
def document? (params : Json) : Option Uri := do
  let value ← params.field? "textDocument"
  let field ← value.record? ["uri"] 1
  Json.required? Uri.ofJson? (field "uri")

/-- The document and the position that a request is about. -/
def place? (params : Json) : Option (Uri × Position) := do
  let uri ← document? params
  let position ← Json.required? Position.ofJson? (params.field? "position")
  let _ ← token? params "workDoneToken"
  return (uri, position)

/-- What a request asks. -/
def ofRequest (method : String) (params : Json) : Except RequestError Query :=
  let read (query? : Option Query) : Except RequestError Query :=
    match query? with
    | some query => .ok query
    | none => .error (.invalidParams method)
  match method with
  | "textDocument/definition" => read do
    let (uri, position) ← place? params
    let _ ← token? params "partialResultToken"
    return .definition uri position
  | "textDocument/hover" => read do
    let (uri, position) ← place? params
    return .hover uri position
  | "textDocument/documentSymbol" => read do
    let uri ← document? params
    let _ ← token? params "workDoneToken"
    let _ ← token? params "partialResultToken"
    return .functions uri
  | _ => .error (.unsupported method)

end Query

/-! ## Notices -/

/-- What an editor tells. -/
inductive Notice where
  | opened (uri : Uri) (version : Int) (chars : List Char)
  | changed (uri : Uri) (version : Int) (changes : List Change)
  | closed (uri : Uri)
  | configured (configuration : Json)

namespace Notice

/-- A document that was opened. -/
def opened? (params : Json) : Option Notice := do
  let field ← params.record? ["textDocument"] 1
  let document ← (field "textDocument").bind
    (Json.record? ["uri", "languageId", "version", "text"] 4)
  let uri ← Json.required? Uri.ofJson? (document "uri")
  let _ ← Json.required? Json.str? (document "languageId")
  let version ← Json.required? Json.word? (document "version")
  let text ← Json.required? Json.str? (document "text")
  return .opened uri version text.toList

/-- A document that was changed. -/
def changed? (params : Json) : Option Notice := do
  let field ← params.record? ["textDocument", "contentChanges"] 2
  let document ← (field "textDocument").bind (Json.record? ["uri", "version"] 2)
  let uri ← Json.required? Uri.ofJson? (document "uri")
  let version ← Json.required? Json.word? (document "version")
  let changes ← Json.required? (Json.listOf? Change.ofJson?) (field "contentChanges")
  return .changed uri version changes

/-- A document that was closed. -/
def closed? (params : Json) : Option Notice := do
  let field ← params.record? ["textDocument"] 1
  let document ← (field "textDocument").bind (Json.record? ["uri"] 1)
  let uri ← Json.required? Uri.ofJson? (document "uri")
  return .closed uri

/-- A configuration that took the place of the last one. -/
def configured? (params : Json) : Option Notice := do
  let field ← params.record? ["settings"] 1
  return .configured (← field "settings")

/-- What a notification tells; nothing if it is not for this server or cannot be read. -/
def ofNotification? (method : String) (params : Json) : Option Notice :=
  match method with
  | "textDocument/didOpen" => opened? params
  | "textDocument/didChange" => changed? params
  | "textDocument/didClose" => closed? params
  | "workspace/didChangeConfiguration" => configured? params
  | _ => none

end Notice

end Azsl
