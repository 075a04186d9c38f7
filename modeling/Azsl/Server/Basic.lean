/-
Azsl.Server.Basic — a server that keeps a workspace in step with an editor.

Every request is answered once, in the order in which requests come. Notices change the
workspace, and when a document has a new text its errors are sent. After a request to shut down
has been answered, the editor has to leave with its next message.
-/
import Azsl.Server.Reply
import Azsl.Workspace.Analysis
import Azsl.Workspace.Query

namespace Azsl

/-- How far a server has come. -/
inductive Phase where
  | running
  /-- A request to shut down has been answered. -/
  | stopping
  /-- Nothing is read any more; `clean` if the editor left as it should. -/
  | ended (clean : Bool)
deriving DecidableEq, Repr

/-- A server at work. -/
structure Server where
  workspace : Workspace
  phase : Phase

namespace Workspace

/-- What there is to say to a query. -/
def answer (workspace : Workspace) : Query → Answer
  | .definition uri position =>
    match workspace.definition? uri position with
    | some (owner, start) => .location owner start
    | none => .nothing
  | .hover uri position =>
    match workspace.hover? uri position with
    | some text => .hover text
    | none => .nothing
  | .functions uri => .functions (workspace.functions uri)

/-- The reply to a request. -/
def respond (workspace : Workspace) (id : RequestId) (method : String) (params : Json) : Reply :=
  match Query.ofRequest method params with
  | .ok query => .answer id (workspace.answer query)
  | .error error => .failure id error

/-- The errors of a document, for the editor. -/
def publish (workspace : Workspace) (uri : Uri) (version : Int) : Reply :=
  .diagnostics uri version (workspace.diagnostics uri)

/-- Take in what an editor tells. Under a new configuration the include roots so far are still
searched, behind those that it names. -/
def notice (workspace : Workspace) (system : FileSystem) : Notice → Workspace × List Reply
  | .opened uri version chars =>
    let (opened, accepted) := workspace.openDocument system uri version chars
    (opened, if accepted then [opened.publish uri version] else [])
  | .changed uri version changes =>
    match workspace.changeDocument system uri version changes with
    | .ok changed => (changed, [changed.publish uri version])
    | .error _ => (workspace, [])
  | .closed uri => (workspace.closeDocument uri, [])
  | .configured configuration =>
    (workspace.configure
      ((Settings.ofConfiguration configuration).addRoots workspace.settings.includeRoots), [])

end Workspace

namespace Server

/-- A server that has read nothing. -/
def start (startup : Startup) : Server :=
  ⟨.empty startup.settings, .running⟩

/-- Read one message while the server is running. -/
def handle (server : Server) (system : FileSystem) : Message → Server × List Reply
  | .request id method params =>
    if method = "shutdown" then ({ server with phase := .stopping }, [.answer id .nothing])
    else (server, [server.workspace.respond id method params])
  | .response _ => (server, [])
  | .notification method params =>
    match Notice.ofNotification? method params with
    | some notice =>
      let (workspace, replies) := server.workspace.notice system notice
      ({ server with workspace := workspace }, replies)
    | none => (server, [])

/-- Read one message. -/
def receive (server : Server) (system : FileSystem) (message : Message) : Server × List Reply :=
  match server.phase with
  | .running => server.handle system message
  | .stopping => ({ server with phase := .ended message.isExit }, [])
  | .ended _ => (server, [])

/-- Read messages in order. -/
def run (server : Server) (system : FileSystem) : List Message → Server × List Reply
  | [] => (server, [])
  | message :: rest =>
    let (next, replies) := server.receive system message
    let (last, others) := next.run system rest
    (last, replies ++ others)

/-- Whether all is well if no more messages come. -/
def endsWell (server : Server) : Bool :=
  match server.phase with
  | .running => true
  | .stopping => false
  | .ended clean => clean

end Server

end Azsl
