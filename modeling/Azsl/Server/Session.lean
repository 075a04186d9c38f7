/-
Azsl.Server.Session — a server from its first message to its last.

An editor introduces itself, is told what the server can do and confirms; only then does the
server read anything else. The message by which the editor leaves is the last one read.
-/
import Azsl.Server.Basic

namespace Azsl

/-- How far a session has come. -/
inductive Session where
  /-- The editor has not introduced itself. -/
  | waiting
  /-- The editor has introduced itself and has been answered, but has not confirmed. -/
  | greeted (introduction : Json)
  | serving (server : Server)
  /-- Nothing is read any more. -/
  | closed (clean : Bool)

namespace Session

/-- Read one message before the editor has introduced itself. -/
def greet : Message → Session × List Reply
  | .request id method params =>
    if method = "initialize" then (greeted params, [.answer id .capabilities])
    else (waiting, [.failure id (.notInitialized method)])
  | .response _ => (closed false, [])
  | .notification method _ =>
    if method = "exit" then (closed false, []) else (waiting, [])

/-- Read one message that should confirm. -/
def confirm (introduction : Json) : Message → Session
  | .notification "initialized" _ =>
    match Startup.ofJson? introduction with
    | some startup => serving (.start startup)
    | none => closed false
  | _ => closed false

/-- Read one message. -/
def receive (session : Session) (system : FileSystem) (message : Message) :
    Session × List Reply :=
  match session with
  | waiting => greet message
  | greeted introduction => (confirm introduction message, [])
  | serving server =>
    let (next, replies) := server.receive system message
    (if message.isExit then closed next.endsWell else serving next, replies)
  | closed clean => (closed clean, [])

/-- Read messages in order. -/
def run (session : Session) (system : FileSystem) : List Message → Session × List Reply
  | [] => (session, [])
  | message :: rest =>
    let (next, replies) := session.receive system message
    let (last, others) := next.run system rest
    (last, replies ++ others)

/-- Whether all is well if no more messages come. -/
def endsWell : Session → Bool
  | waiting => false
  | greeted _ => false
  | serving server => server.endsWell
  | closed clean => clean

/-- The exit code of the program. -/
def exitCode (session : Session) : Nat :=
  if session.endsWell then 0 else 1

/-- Whether no more messages are read. -/
def isOver : Session → Bool
  | serving server => match server.phase with
    | .ended _ => true
    | _ => false
  | closed _ => true
  | _ => false

/-- The paths of files and directories that reading a message may ask for. -/
def sources (session : Session) (message : Message) : List FilePath :=
  match session, message with
  | serving server, .notification method params =>
    match Notice.ofNotification? method params with
    | some (.opened _ _ _) => server.workspace.settings.includeRoots
    | some (.changed uri _ _) =>
      server.workspace.settings.includeRoots ++ uri.filePath?.toList
    | _ => []
  | _, _ => []

end Session

end Azsl
