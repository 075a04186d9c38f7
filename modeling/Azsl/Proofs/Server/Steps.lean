/-
Azsl.Proofs.Server.Steps — a server at work, message by message.

What a server does with a message is said once, as a `Step`: it answers a request, stops when it
is asked to, takes in a notice, or does nothing. A log of a run keeps, for each message, the
server before and after it and what was sent meanwhile. Files may change between messages, so
every message comes with the files that are on disk when it is handled.
-/
import Azsl.Proofs.Workspace.InSync
import Azsl.Server.Basic

namespace Azsl

/-! ## Messages -/

namespace Message

/-- The identifier of a request. -/
def requestId? : Message → Option RequestId
  | request id _ _ => some id
  | _ => none

/-- Whether the message is a request to shut down. -/
def isShutdown : Message → Bool
  | request _ method _ => method == "shutdown"
  | _ => false

/-- Whether the message is a request for anything but to shut down. -/
def isQuery : Message → Bool
  | request _ method _ => method != "shutdown"
  | _ => false

/-- What a notification tells, if it can be read. -/
def notice? : Message → Option Notice
  | notification method params => Notice.ofNotification? method params
  | _ => none

end Message

/-- A message with the files that are on disk when it is handled. -/
structure Delivery where
  system : FileSystem
  message : Message

namespace Server

/-! ## One message -/

/-- What a server does with a message: the server behind it and the replies. -/
inductive Step (server : Server) (system : FileSystem) : Message → Server × List Reply → Prop
  /-- A server that has stopped only waits for the editor to leave. -/
  | stopped {message phase} : server.phase ≠ .running → phase ≠ .running →
      Step server system message ({ server with phase := phase }, [])
  | shutdown {id params} : server.phase = .running →
      Step server system (.request id "shutdown" params)
        ({ server with phase := .stopping }, [.answer id .nothing])
  | query {id method params} : server.phase = .running → method ≠ "shutdown" →
      Step server system (.request id method params)
        (server, [server.workspace.respond id method params])
  | ignore {message} : server.phase = .running → message.requestId? = none →
      message.notice? = none → Step server system message (server, [])
  | notice {method params notice} : server.phase = .running →
      Notice.ofNotification? method params = some notice →
      Step server system (.notification method params)
        ({ server with workspace := (server.workspace.notice system notice).1 },
          (server.workspace.notice system notice).2)

theorem step_receive (server : Server) (system : FileSystem) (message : Message) :
    Step server system message (server.receive system message) := by
  unfold receive
  split
  · rename_i hrunning
    cases message with
    | request id method params =>
      rw [handle]
      split
      · rename_i hmethod
        subst hmethod
        exact .shutdown hrunning
      · rename_i hmethod
        exact .query hrunning hmethod
    | response id => exact .ignore hrunning rfl rfl
    | notification method params =>
      rw [handle]
      split
      · rename_i notice hnotice
        exact .notice hrunning hnotice
      · rename_i hnone
        exact .ignore hrunning rfl hnone
  · rename_i hstopping
    exact .stopped (by rw [hstopping]; nofun) nofun
  · rename_i clean hended
    have hsame : server = { server with phase := .ended clean } := by rw [← hended]
    have hover : Step server system message ({ server with phase := .ended clean }, []) :=
      .stopped (by rw [hended]; nofun) nofun
    rwa [← hsame] at hover

/-- A server that has stopped stays so, and does nothing any more. -/
theorem receive_over {server : Server} (h : server.phase ≠ .running) (system : FileSystem)
    (message : Message) : ∃ phase, phase ≠ .running ∧
      server.receive system message = ({ server with phase := phase }, []) := by
  have hstep := step_receive server system message
  generalize server.receive system message = next at hstep ⊢
  cases hstep with
  | stopped _ hphase => exact ⟨_, hphase, rfl⟩
  | shutdown hrunning | query hrunning | ignore hrunning | notice hrunning =>
    exact absurd hrunning h

/-! ## Many messages -/

/-- The server when it has read some messages. -/
def after (server : Server) (deliveries : List Delivery) : Server :=
  deliveries.foldl (fun server delivery => (server.receive delivery.system delivery.message).1)
    server

/-- One message of a run: the server before and after it, and the replies sent meanwhile. -/
structure Entry where
  before : Server
  delivery : Delivery
  after : Server
  replies : List Reply

/-- What a server does with each of some messages. -/
def log (server : Server) : List Delivery → List Entry
  | [] => []
  | delivery :: rest =>
    let (next, replies) := server.receive delivery.system delivery.message
    ⟨server, delivery, next, replies⟩ :: next.log rest

/-- What a server sends while it reads some messages. -/
def sent (server : Server) (deliveries : List Delivery) : List Reply :=
  (server.log deliveries).flatMap (·.replies)

theorem log_cons (server : Server) (delivery : Delivery) (rest : List Delivery) :
    server.log (delivery :: rest)
      = ⟨server, delivery, (server.receive delivery.system delivery.message).1,
          (server.receive delivery.system delivery.message).2⟩ ::
        (server.receive delivery.system delivery.message).1.log rest := rfl

theorem sent_cons (server : Server) (delivery : Delivery) (rest : List Delivery) :
    server.sent (delivery :: rest) = (server.receive delivery.system delivery.message).2 ++
      (server.receive delivery.system delivery.message).1.sent rest := by
  rw [sent, log_cons, List.flatMap_cons]
  rfl

theorem sent_append (server : Server) (first rest : List Delivery) :
    server.sent (first ++ rest) = server.sent first ++ (server.after first).sent rest := by
  induction first generalizing server with
  | nil => rfl
  | cons delivery first ih =>
    rw [List.cons_append, sent_cons, sent_cons, ih, List.append_assoc]
    rfl

/-- A server that has stopped keeps its workspace. -/
theorem after_over {server : Server} (h : server.phase ≠ .running) (deliveries : List Delivery) :
    (server.after deliveries).workspace = server.workspace := by
  induction deliveries generalizing server with
  | nil => rfl
  | cons delivery rest ih =>
    obtain ⟨phase, hphase, heq⟩ := receive_over h delivery.system delivery.message
    have hstopped : ({ server with phase := phase } : Server).phase ≠ .running := hphase
    rw [after, List.foldl_cons, heq]
    exact ih hstopped

/-- With the same files all the time, a run comes to what the log says. -/
theorem run_eq (server : Server) (system : FileSystem) (messages : List Message) :
    server.run system messages = (server.after (messages.map (Delivery.mk system)),
      server.sent (messages.map (Delivery.mk system))) := by
  induction messages generalizing server with
  | nil => rfl
  | cons message rest ih =>
    simp only [run, ih, List.map_cons, sent_cons]
    rfl

/-- What notices keep is kept by every message. -/
theorem Step.workspace {P : Workspace → Prop}
    (hnotice : ∀ {workspace} (system : FileSystem) (notice : Notice), P workspace →
      P (workspace.notice system notice).1)
    {server : Server} {system : FileSystem} {message : Message} {next : Server × List Reply}
    (hstep : Step server system message next) (h : P server.workspace) : P next.1.workspace := by
  cases hstep with
  | stopped | shutdown | query | ignore => exact h
  | notice => exact hnotice system _ h

/-- What is kept by notices and holds at the start holds before every message. -/
theorem log_before {P : Workspace → Prop}
    (hnotice : ∀ {workspace} (system : FileSystem) (notice : Notice), P workspace →
      P (workspace.notice system notice).1)
    {server : Server} {deliveries : List Delivery} (h : P server.workspace) :
    ∀ entry ∈ server.log deliveries, P entry.before.workspace ∧
      Step entry.before entry.delivery.system entry.delivery.message
        (entry.after, entry.replies) := by
  induction deliveries generalizing server with
  | nil => simp [log]
  | cons delivery rest ih =>
    have hstep := step_receive server delivery.system delivery.message
    rw [log_cons]
    exact List.forall_mem_cons.mpr ⟨⟨h, hstep⟩, ih (hstep.workspace hnotice h)⟩

end Server

end Azsl
