/-
Azsl.Server.Reply — what the server sends.
-/
import Azsl.Server.Message
import Azsl.Symbol.Collect

namespace Azsl

/-- The answer to a request. -/
inductive Answer where
  | nothing
  /-- Where a declaration starts. -/
  | location (uri : Uri) (position : Position)
  | hover (text : String)
  | functions (found : List FunctionSymbol)
  /-- What the server can do. -/
  | capabilities
deriving DecidableEq, Repr

/-- A message from the server. -/
inductive Reply where
  | answer (id : RequestId) (result : Answer)
  | failure (id : RequestId) (error : RequestError)
  | diagnostics (uri : Uri) (version : Int) (found : List Diagnostic)
deriving DecidableEq, Repr

/-! ## Written form -/

namespace RequestId

/-- The identifier as a value. -/
def toJson : RequestId → Json
  | number value => .int value
  | text value => .str value

end RequestId

namespace Position

/-- The position as a value. -/
def toJson (position : Position) : Json :=
  .obj [("line", .int position.line), ("character", .int position.column)]

end Position

namespace Range

/-- The range as a value. -/
def toJson (range : Range) : Json :=
  .obj [("start", range.start.toJson), ("end", range.stop.toJson)]

end Range

namespace Severity

/-- The number of a severity in the protocol. -/
def code : Severity → Int
  | warning => 2

end Severity

namespace Diagnostic

/-- The diagnostic as a value. -/
def toJson (diagnostic : Diagnostic) : Json :=
  .obj
    [("range", diagnostic.range.toJson), ("severity", .int diagnostic.severity.code),
     ("source", .str "azsl"), ("message", .str diagnostic.message)]

end Diagnostic

namespace FunctionSymbol

/-- The number of functions among the kinds of symbols in the protocol. -/
def kindCode : Int := 12

/-- The function as a symbol of its document. -/
def toJson (function : FunctionSymbol) : Json :=
  .obj
    [("name", .str function.name), ("detail", .str function.text), ("kind", .int kindCode),
     ("range", function.range.toJson), ("selectionRange", function.range.toJson)]

end FunctionSymbol

namespace Answer

/-- The source of a function as text with markup. -/
def markup (text : String) : String :=
  "```hlsl\n" ++ text ++ "\n```"

/-- Documents are sent when they are opened and by their changes, and functions can be looked up. -/
def capabilitiesJson : Json :=
  .obj [("capabilities", .obj
    [("textDocumentSync", .obj [("openClose", .bool true), ("change", .int 2)]),
     ("hoverProvider", .bool true), ("definitionProvider", .bool true),
     ("documentSymbolProvider", .bool true)])]

/-- The answer as a value. -/
def toJson : Answer → Json
  | nothing => .null
  | location uri position =>
    .obj [("uri", .str uri.render), ("range", (Range.mk position position).toJson)]
  | hover text =>
    .obj [("contents", .obj [("kind", .str "markdown"), ("value", .str (markup text))])]
  | functions found => .arr (found.map (·.toJson))
  | capabilities => capabilitiesJson

end Answer

namespace Reply

/-- The fields of the message. -/
def fields : Reply → List (String × Json)
  | answer id result => [("id", id.toJson), ("result", result.toJson)]
  | failure id error =>
    [("id", id.toJson),
     ("error", .obj [("code", .int error.code), ("message", .str error.message)])]
  | diagnostics uri version found =>
    [("method", .str "textDocument/publishDiagnostics"),
     ("params", .obj
       [("uri", .str uri.render), ("diagnostics", .arr (found.map (·.toJson))),
        ("version", .int version)])]

/-- The message as a value. -/
def toJson (reply : Reply) : Json :=
  .obj reply.fields

/-- The message as it is sent, which names the version of the protocol. -/
def toSent (reply : Reply) : Json :=
  .obj (("jsonrpc", .str "2.0") :: reply.fields)

end Reply

end Azsl
