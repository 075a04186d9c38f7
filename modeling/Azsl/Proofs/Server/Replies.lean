/-
Azsl.Proofs.Server.Replies — a server answers every request once and reports errors as they are.

Up to the request to shut down every request is answered once, in order, and nothing else is. The
errors of a document are reported exactly when a notice gives it a text, and they are those of the
text alone, whatever led to it. Requests change nothing, so the other messages are answered the
same without them (`start_serves`).
-/
import Azsl.Proofs.Parse.Outermost
import Azsl.Proofs.Server.Steps

namespace Azsl

/-! ## What there is to say -/

/-- The request that a reply answers; errors of documents are reported without one. -/
def Reply.requestId? : Reply → Option RequestId
  | answer id _ => some id
  | failure id _ => some id
  | diagnostics _ _ _ => none

/-- Where the errors of a text are, going by the text alone. -/
def errorRanges (chars : List Char) : List Range :=
  ((parse chars none).root.descendants.filter Node.isError).map
    (Symbols.rangeOf (.ofChars chars))

namespace Workspace

/-- Where the errors of a document are, going by its text alone. -/
def errorRanges (workspace : Workspace) (uri : Uri) : List Range :=
  match workspace.get? uri with
  | some document => Azsl.errorRanges document.text.chars
  | none => []

/-- The document and the version that a notice brings, if it is taken in. -/
def taken? (workspace : Workspace) (system : FileSystem) : Notice → Option (Uri × Int)
  | .opened uri version chars =>
    if (workspace.openDocument system uri version chars).2 then some (uri, version) else none
  | .changed uri version changes =>
    match workspace.changeDocument system uri version changes with
    | .ok _ => some (uri, version)
    | .error _ => none
  | _ => none

/-- Notices are operations, so they keep documents up to date. -/
theorem SyncedBut.notice {workspace : Workspace} (h : workspace.SyncedBut [])
    (system : FileSystem) (notice : Notice) :
    (workspace.notice system notice).1.SyncedBut [] := by
  cases notice with
  | opened uri version chars => exact h.apply (.opened system uri version chars)
  | changed uri version changes =>
    have hsynced := h.apply (.changed system uri version changes)
    simp only [Workspace.apply, Workspace.notice] at hsynced ⊢
    cases hrun : workspace.changeDocument system uri version changes with
    | ok changed => simpa only [hrun] using hsynced
    | error error => exact h
  | closed uri => exact h.apply (.closed uri)
  | configured configuration => exact h.apply (.configured _)

/-- The errors of documents that are up to date are those of their texts. -/
theorem SyncedBut.ranges_diagnostics {workspace : Workspace} {queue : List Uri}
    (h : workspace.SyncedBut queue) (uri : Uri) :
    (workspace.diagnostics uri).map (·.range) = workspace.errorRanges uri := by
  unfold diagnostics errorRanges
  cases hget : workspace.get? uri with
  | none => rfl
  | some document =>
    have hcurrent := h.current document (List.mem_of_find?_eq_some hget)
    simp only [Symbols.diagnostics, Azsl.errorRanges, List.map_map, hcurrent.parsed, errors_parse]
    rw [← hcurrent.indexed]
    rfl

/-- What a notice has the server say. -/
theorem notice_replies (workspace : Workspace) (system : FileSystem) (notice : Notice) :
    (workspace.notice system notice).2
      = ((workspace.taken? system notice).map fun (uri, version) =>
          (workspace.notice system notice).1.publish uri version).toList := by
  cases notice with
  | opened uri version chars =>
    simp only [Workspace.notice, taken?]
    split <;> rfl
  | changed uri version changes =>
    simp only [Workspace.notice, taken?]
    cases workspace.changeDocument system uri version changes <;> rfl
  | closed | configured => rfl

theorem requestId?_respond (workspace : Workspace) (id : RequestId) (method : String)
    (params : Json) : (workspace.respond id method params).requestId? = some id := by
  unfold respond
  split <;> rfl

end Workspace

namespace Server

/-! ## One message -/

/-- The replies to a message are what they should be. -/
structure Entry.Right (entry : Entry) : Prop where
  request : ∀ id method params, entry.before.phase = .running →
    entry.delivery.message = .request id method params →
    ∃ reply, entry.replies = [reply] ∧ reply.requestId? = some id
  response : ∀ id, entry.delivery.message = .response id → entry.replies = []
  /-- Notifications that are not for this server, or cannot be read. -/
  unread : ∀ method params, entry.delivery.message = .notification method params →
    Notice.ofNotification? method params = none → entry.replies = []
  /-- The errors of a document are reported when it has a new text. -/
  published : ∀ notice uri version, entry.before.phase = .running →
    entry.delivery.message.notice? = some notice →
    entry.before.workspace.taken? entry.delivery.system notice = some (uri, version) →
    ∃ found, entry.replies = [.diagnostics uri version found] ∧
      found.map (·.range) = entry.after.workspace.errorRanges uri
  /-- Notices that are not taken in, or bring no text. -/
  refused : ∀ notice, entry.delivery.message.notice? = some notice →
    entry.before.workspace.taken? entry.delivery.system notice = none → entry.replies = []
  /-- Once the server has stopped it says nothing. -/
  stopped : entry.before.phase ≠ .running → entry.replies = []

theorem Entry.Right.of_request {entry : Entry} {id : RequestId} {method : String} {params : Json}
    {reply : Reply} (hrunning : entry.before.phase = .running)
    (hmessage : entry.delivery.message = .request id method params)
    (hreplies : entry.replies = [reply]) (hid : reply.requestId? = some id) : entry.Right := by
  refine ⟨fun id' method' params' _ heq => ⟨reply, hreplies, ?_⟩, fun _ heq => ?_,
    fun _ _ heq => ?_, fun _ _ _ _ hnotice => ?_, fun _ hnotice => ?_, absurd hrunning⟩
  · cases hmessage.symm.trans heq
    exact hid
  · cases hmessage.symm.trans heq
  · cases hmessage.symm.trans heq
  · rw [hmessage] at hnotice
    cases hnotice
  · rw [hmessage] at hnotice
    cases hnotice

theorem Entry.right {entry : Entry} (hsynced : entry.before.workspace.SyncedBut [])
    (hstep : Step entry.before entry.delivery.system entry.delivery.message
      (entry.after, entry.replies)) : entry.Right := by
  obtain ⟨before, ⟨system, message⟩, after, replies⟩ := entry
  simp only at hstep hsynced
  cases hstep with
  | stopped hphase _ =>
    exact ⟨fun _ _ _ hrunning => absurd hrunning hphase, fun _ _ => rfl, fun _ _ _ _ => rfl,
      fun _ _ _ hrunning => absurd hrunning hphase, fun _ _ _ => rfl, fun _ => rfl⟩
  | shutdown hrunning => exact .of_request hrunning rfl rfl rfl
  | query hrunning _ =>
    exact .of_request hrunning rfl rfl (Workspace.requestId?_respond ..)
  | ignore hrunning hid hnone =>
    refine ⟨fun id method params _ heq => ?_, fun _ _ => rfl, fun _ _ _ _ => rfl,
      fun notice uri version _ hnotice => ?_, fun _ _ _ => rfl, absurd hrunning⟩
    · simp only at heq
      rw [heq] at hid
      cases hid
    · exact absurd (hnone.symm.trans hnotice) nofun
  | @notice method params told hrunning htold =>
    have hreplies := before.workspace.notice_replies system told
    refine ⟨fun _ _ _ _ heq => (nomatch heq), fun _ heq => (nomatch heq),
      fun method params heq hnone => ?_, fun notice uri version _ hnotice htaken => ?_,
      fun notice hnotice htaken => ?_, absurd hrunning⟩
    · cases heq
      rw [htold] at hnone
      cases hnone
    · obtain rfl := Option.some.inj (htold.symm.trans hnotice)
      rw [htaken] at hreplies
      exact ⟨_, hreplies, (hsynced.notice system told).ranges_diagnostics uri⟩
    · obtain rfl := Option.some.inj (htold.symm.trans hnotice)
      rw [htaken] at hreplies
      exact hreplies

/-! ## Whole runs -/

/-- The messages up to the first request to shut down, which are answered. -/
def answered : List Delivery → List Delivery
  | [] => []
  | delivery :: rest =>
    delivery :: if delivery.message.isShutdown then [] else answered rest

/-- A message and the replies to it. -/
def Entry.exchange (entry : Entry) : Delivery × List Reply :=
  (entry.delivery, entry.replies)

theorem sent_over {server : Server} (h : server.phase ≠ .running) (deliveries : List Delivery) :
    server.sent deliveries = [] := by
  induction deliveries generalizing server with
  | nil => rfl
  | cons delivery rest ih =>
    obtain ⟨phase, hphase, heq⟩ := receive_over h delivery.system delivery.message
    have hstopped : ({ server with phase := phase } : Server).phase ≠ .running := hphase
    rw [sent_cons, heq]
    exact ih hstopped

/-- Every request up to the one to shut down is answered once, in order. -/
theorem sent_requestId? {server : Server} (h : server.phase = .running)
    (deliveries : List Delivery) :
    (server.sent deliveries).filterMap Reply.requestId?
      = (answered deliveries).filterMap (·.message.requestId?) := by
  induction deliveries generalizing server with
  | nil => rfl
  | cons delivery rest ih =>
    obtain ⟨system, message⟩ := delivery
    rw [sent_cons, answered]
    have hstep := step_receive server system message
    simp only
    generalize server.receive system message = next at hstep ⊢
    cases hstep with
    | stopped hphase _ => exact absurd h hphase
    | shutdown _ =>
      rw [sent_over Phase.noConfusion]
      rfl
    | @query id method params _ hmethod =>
      have hquery : (Message.request id method params).isShutdown = false := by
        simpa [Message.isShutdown] using hmethod
      simp only [hquery, Bool.false_eq_true, if_false, List.filterMap_append, List.filterMap_cons,
        ih h, Workspace.requestId?_respond, Message.requestId?]
      rfl
    | ignore _ hid _ =>
      have hother : message.isShutdown = false := by
        cases message <;> first | rfl | cases hid
      simp only [hother, Bool.false_eq_true, if_false, List.nil_append, List.filterMap_cons, hid,
        ih h]
    | @notice method params told _ _ =>
      have hnone : (server.workspace.notice system told).2.filterMap Reply.requestId? = [] := by
        rw [Workspace.notice_replies]
        cases server.workspace.taken? system told <;> rfl
      simp only [Message.isShutdown, Bool.false_eq_true, if_false, List.filterMap_append, hnone,
        List.nil_append, List.filterMap_cons, Message.requestId?]
      exact ih h

/-- A server runs until it is asked to shut down. -/
theorem after_running {server : Server} (h : server.phase = .running)
    {deliveries : List Delivery} (hothers : ∀ delivery ∈ deliveries,
      delivery.message.isShutdown = false) : (server.after deliveries).phase = .running := by
  induction deliveries generalizing server with
  | nil => exact h
  | cons delivery rest ih =>
    obtain ⟨hfirst, hrest⟩ := List.forall_mem_cons.mp hothers
    refine ih ?_ hrest
    obtain ⟨system, message⟩ := delivery
    have hstep := step_receive server system message
    simp only at hfirst ⊢
    generalize server.receive system message = next at hstep ⊢
    cases hstep with
    | stopped hphase _ => exact absurd h hphase
    | shutdown _ => cases hfirst
    | query | ignore | notice => exact h

/-- The last reply is that to the first request to shut down. -/
theorem sent_shutdown {server : Server} (h : server.phase = .running) {left : List Delivery}
    (hleft : ∀ delivery ∈ left, delivery.message.isShutdown = false) (system : FileSystem)
    (id : RequestId) (params : Json) (right : List Delivery) :
    server.sent (left ++ ⟨system, .request id "shutdown" params⟩ :: right)
      = server.sent left ++ [.answer id .nothing] := by
  have hreceive : (server.after left).receive system (.request id "shutdown" params)
      = (⟨(server.after left).workspace, .stopping⟩, [.answer id .nothing]) := by
    rw [receive, after_running h hleft]
    rfl
  have hstopped : (⟨(server.after left).workspace, .stopping⟩ : Server).phase ≠ .running :=
    Phase.noConfusion
  rw [sent_append, sent_cons]
  simp only [hreceive, sent_over hstopped, List.append_nil]

/-! ## Runs without some requests -/

/-- Two servers that go on in the same way: they are the same, or both have stopped. -/
def Alike (server other : Server) : Prop :=
  server = other ∨ server.phase ≠ .running ∧ other.phase ≠ .running

theorem Alike.receive {server other : Server} (h : server.Alike other) (delivery : Delivery) :
    (server.receive delivery.system delivery.message).1.Alike
        (other.receive delivery.system delivery.message).1 ∧
      (server.receive delivery.system delivery.message).2
        = (other.receive delivery.system delivery.message).2 := by
  rcases h with rfl | ⟨hserver, hother⟩
  · exact ⟨.inl rfl, rfl⟩
  · obtain ⟨phase, hphase, heq⟩ := receive_over hserver delivery.system delivery.message
    obtain ⟨phase', hphase', heq'⟩ := receive_over hother delivery.system delivery.message
    rw [heq, heq']
    exact ⟨.inr ⟨hphase, hphase'⟩, rfl⟩

/-- A request changes nothing, and all that is said to it is its answer. -/
theorem Alike.query {server other : Server} (h : server.Alike other) {delivery : Delivery}
    (hquery : delivery.message.isQuery = true) :
    (server.receive delivery.system delivery.message).1.Alike other ∧
      (server.receive delivery.system delivery.message).2.filter (·.requestId?.isNone) = [] := by
  obtain ⟨system, message⟩ := delivery
  have hstep := step_receive server system message
  simp only at hquery ⊢
  generalize server.receive system message = next at hstep ⊢
  cases hstep with
  | stopped hserver hphase =>
    rcases h with rfl | ⟨-, hother⟩
    · exact ⟨.inr ⟨hphase, hserver⟩, rfl⟩
    · exact ⟨.inr ⟨hphase, hother⟩, rfl⟩
  | shutdown _ => cases hquery
  | query _ _ =>
    refine ⟨h, ?_⟩
    simp [Workspace.requestId?_respond]
  | ignore _ hid _ => cases message <;> first | cases hquery | cases hid
  | notice _ _ => cases hquery

/-- What is left of some deliveries, each of which is kept or not. -/
def kept (marked : List (Delivery × Bool)) : List Delivery :=
  (marked.filter (·.2)).map (·.1)

/-- Without some requests the other messages are answered the same. -/
theorem log_kept {server other : Server} (h : server.Alike other)
    {marked : List (Delivery × Bool)}
    (hqueries : ∀ item ∈ marked, item.2 = false → item.1.message.isQuery = true) :
    (other.log (kept marked)).map (·.exchange)
      = (((server.log (marked.map (·.1))).zip (marked.map (·.2))).filter (·.2)).map
          (·.1.exchange) := by
  induction marked generalizing server other with
  | nil => rfl
  | cons item rest ih =>
    obtain ⟨hitem, hrest⟩ := List.forall_mem_cons.mp hqueries
    obtain ⟨delivery, keep⟩ := item
    cases keep with
    | true =>
      obtain ⟨hnext, hreplies⟩ := h.receive delivery
      have htail := ih hnext hrest
      simp only [kept, List.filter_cons, if_true, List.map_cons, log_cons, List.zip_cons_cons,
        Entry.exchange, hreplies] at htail ⊢
      rw [htail]
    | false =>
      have htail := ih (h.query (hitem rfl)).1 hrest
      simp only [kept, List.filter_cons, Bool.false_eq_true, if_false, List.map_cons, log_cons,
        List.zip_cons_cons] at htail ⊢
      exact htail

theorem sent_kept {server other : Server} (h : server.Alike other)
    {marked : List (Delivery × Bool)}
    (hqueries : ∀ item ∈ marked, item.2 = false → item.1.message.isQuery = true) :
    (other.sent (kept marked)).filter (·.requestId?.isNone)
      = (server.sent (marked.map (·.1))).filter (·.requestId?.isNone) := by
  induction marked generalizing server other with
  | nil => rfl
  | cons item rest ih =>
    obtain ⟨hitem, hrest⟩ := List.forall_mem_cons.mp hqueries
    obtain ⟨delivery, keep⟩ := item
    rw [List.map_cons, sent_cons, List.filter_append]
    cases keep with
    | true =>
      obtain ⟨hnext, hreplies⟩ := h.receive delivery
      have hkept : kept ((delivery, true) :: rest) = delivery :: kept rest := rfl
      rw [hkept, sent_cons, List.filter_append, ← hreplies, ih hnext hrest]
    | false =>
      obtain ⟨hnext, hnone⟩ := h.query (hitem rfl)
      have hkept : kept ((delivery, false) :: rest) = kept rest := rfl
      rw [hkept, hnone, List.nil_append, ih hnext hrest]

/-! ## The whole of it -/

/-- A run of a server over some messages is what it should be. -/
structure Serves (server : Server) (deliveries : List Delivery) : Prop where
  /-- A log of the run tells what the server sends, message after message. -/
  logged : ∀ system messages, deliveries = messages.map (Delivery.mk system) →
    (server.run system messages).2 = (server.log deliveries).flatMap (·.replies)
  right : ∀ entry ∈ server.log deliveries, entry.Right
  /-- Every request is answered once and in order until the server has been shut down. -/
  answers : (server.sent deliveries).filterMap Reply.requestId?
    = (answered deliveries).filterMap (·.message.requestId?)
  /-- The reply to the first request to shut down is the last of all. -/
  closing : ∀ left system id params right,
    deliveries = left ++ ⟨system, .request id "shutdown" params⟩ :: right →
    (∀ delivery ∈ left, delivery.message.isShutdown = false) →
    server.sent deliveries = server.sent left ++ [.answer id .nothing]
  /-- Requests may be left out: the others are answered the same, and the same errors are
  reported. -/
  independent : ∀ marked : List (Delivery × Bool), marked.map (·.1) = deliveries →
    (∀ item ∈ marked, item.2 = false → item.1.message.isQuery = true) →
    (server.log (kept marked)).map (·.exchange)
        = (((server.log deliveries).zip (marked.map (·.2))).filter (·.2)).map (·.1.exchange) ∧
      (server.sent (kept marked)).filter (·.requestId?.isNone)
        = (server.sent deliveries).filter (·.requestId?.isNone)

/-- Whatever messages a server reads, it serves them as it should. -/
theorem start_serves (startup : Startup) (deliveries : List Delivery) :
    (start startup).Serves deliveries where
  logged system messages heq := by
    rw [run_eq, heq]
    rfl
  right entry hmem := by
    obtain ⟨hsynced, hstep⟩ := log_before (P := (·.SyncedBut []))
      (fun system notice h => h.notice system notice)
      (Workspace.syncedBut_empty startup.settings) entry hmem
    exact Entry.right hsynced hstep
  answers := sent_requestId? rfl deliveries
  closing left system id params right heq hleft := by
    rw [heq]
    exact sent_shutdown rfl hleft system id params right
  independent marked heq hqueries := by
    subst heq
    exact ⟨log_kept (.inl rfl) hqueries, sent_kept (.inl rfl) hqueries⟩

end Server

end Azsl
