import VoiceApp.Management.Responses
import VoiceApp.Sdk.Calls
import VoiceApp.Sdk.Reconnect

/-! # A client and its connection

The two byte streams of a connection join the client's handler task with the server's
task. Neither end loses track of packet boundaries, whatever the reads are, so a response
answers the request of the call that gets it.
-/
namespace VoiceApp.System
open Protocol Server Framing Management
open Sdk (Client Call Outgoing Origin Talks)

/-- A client and the server it connects to. -/
structure Session where
  server : ManagementServer
  client : Client

namespace Session

def new : Session := ⟨.new,.new⟩

/-- What the server has written on the connection `me`. -/
def downlink (s : Session) (me : UInt64) : Bytes :=
  ((s.server.connections.lookup me).map Connection.written).getD []

inductive Label
  | server (label : Management.Label)
  | client (label : Client.Label)

def Label.server? : Label → Option Management.Label
  | .server label => some label
  | .client _ => none

def Label.client? : Label → Option Client.Label
  | .server _ => none
  | .client label => some label

/-- A step of one side. What is read on the connection `me` continues what the other side
has written. -/
inductive Step (me : UInt64) : Session → Label → Session → Prop
  | server {s label s'} (h : Management.Step s.server label s')
      (hlink : ∀ bytes c, label = .read me (.ok bytes) → s.server.connections.lookup me = some c →
        c.received ++ bytes <+: s.client.wire 0) :
      Step me s (.server label) { s with server := s' }
  | client {s label c'} (h : Client.Step s.client label c')
      (hlink : ∀ k bytes t, label = .incoming k (some bytes) → s.client.tasks[k]? = some t →
        t.received ++ bytes <+: s.downlink me) :
      Step me s (.client label) { s with client := c' }

/-- The writes of a task do not fail. -/
def WritesSucceed (me : UInt64) (_ : ManagementServer) (label : Management.Label) : Prop :=
  ∀ data written, label = .exec me (.write data) written → written = true

/-- The client connects once, and no write fails on either side of the connection. -/
def Undisturbed (me : UInt64) (s : Session) : Label → Prop
  | .server label => WritesSucceed me s.server label
  | .client label => s.client.OneConnection label

section Runs
variable {me : UInt64} {trace : List Label} {s : Session}

theorem server_run (h : Run (Guarded (Undisturbed me) (Step me)) Session.new trace s) :
    Run (Guarded (WritesSucceed me) Management.Step) ManagementServer.new (trace.filterMap Label.server?)
      s.server := by
  refine h.project Session.server Label.server? ?_ ?_
  · rintro t label u m ⟨hguard,hstep⟩ hlabel
    cases hstep with
    | server hserver =>
      cases hlabel
      exact ⟨hguard,hserver⟩
    | client => cases hlabel
  · rintro t label u ⟨_,hstep⟩ hlabel
    cases hstep with
    | server => cases hlabel
    | client => rfl

theorem client_run (h : Run (Guarded (Undisturbed me) (Step me)) Session.new trace s) :
    Run (Guarded Client.OneConnection Client.Step) Client.new (trace.filterMap Label.client?) s.client := by
  refine h.project Session.client Label.client? ?_ ?_
  · rintro t label u m ⟨hguard,hstep⟩ hlabel
    cases hstep with
    | server => cases hlabel
    | client hclient =>
      cases hlabel
      exact ⟨hguard,hclient⟩
  · rintro t label u ⟨_,hstep⟩ hlabel
    cases hstep with
    | server => rfl
    | client => cases hlabel

/-- What the server's task has read and written. -/
def exchanged (me : UInt64) (trace : List Label) : Exchange :=
  exchange me (trace.filterMap Label.server?)

theorem exchanged_carried (h : Run (Guarded (Undisturbed me) (Step me)) Session.new trace s)
    {c : Connection} (hc : s.server.connections.lookup me = some c) :
    c.received = (exchanged me trace).reads.flatten ∧ c.written = (exchanged me trace).wrote.flatten := by
  refine run_carried (server_run h) (fun data written hmem => ?_) hc
  obtain ⟨u,v,hguard,_⟩ := (server_run h).taken hmem
  exact hguard data written rfl

theorem downlink_eq (h : Run (Guarded (Undisturbed me) (Step me)) Session.new trace s) :
    s.downlink me = (exchanged me trace).wrote.flatten := by
  rw [downlink]
  cases hc : s.server.connections.lookup me with
  | some c => exact (exchanged_carried h hc).2
  | none =>
    rw [exchanged,run_exchange_fresh (server_run h) hc]
    rfl

/-- Both streams arrive as they were written, as far as they have arrived. -/
structure Linked (me : UInt64) (trace : List Label) (s : Session) : Prop where
  up : (exchanged me trace).reads.flatten <+: s.client.wire 0
  down : ∀ t ∈ s.client.tasks, t.received <+: (exchanged me trace).wrote.flatten

/-- What a socket has carried stays. -/
theorem wire_grows {c c' : Client} {label : Client.Label} (hstep : Client.Step c label c') :
    c.wire 0 <+: c'.wire 0 := by
  rcases Client.step_wire hstep 0 with hsame | ⟨_,_,_,_,_,_,hmore⟩
  · rw [hsame]
  · rw [hmore]
    exact List.prefix_append _ _

/-- Only a read lets a task receive. -/
theorem received_step {c c' : Client} {label : Client.Label} {bytes : Bytes}
    (hstep : Client.Step c label c') (hold : ∀ t ∈ c.tasks, t.received <+: bytes)
    (hread : ∀ k data t, label = .incoming k (some data) → c.tasks[k]? = some t →
      t.received ++ data <+: bytes) : ∀ t ∈ c'.tasks, t.received <+: bytes := by
  have hset : ∀ {k : ℕ} {t' : Sdk.TcpClient.Task}, t'.received <+: bytes →
      ∀ t ∈ c.tasks.set k t', t.received <+: bytes := by
    intro k t' hnew t ht
    rcases List.mem_or_eq_of_mem_set ht with ht | rfl
    · exact hold t ht
    · exact hnew
  cases hstep with
  | connect =>
    intro t ht
    rcases List.mem_append.mp ht with ht | ht
    · exact hold t ht
    · rw [List.mem_singleton.mp ht]
      exact List.nil_prefix
  | @outgoing k t o written data ht => exact hset (hold t (List.mem_of_getElem? ht))
  | @incoming k t result ht =>
    refine hset ?_
    cases result with
    | none => exact hold t (List.mem_of_getElem? ht)
    | some data =>
      have hmore := hread k data t rfl ht
      by_cases hne : data = []
      · rw [hne] at hmore ⊢
        exact hmore
      · rw [Sdk.TcpClient.Task.incoming,Sdk.TcpClient.handleIncoming_some hne]
        exact hmore
  | _ => exact hold

theorem run_linked (h : Run (Guarded (Undisturbed me) (Step me)) Session.new trace s) :
    Linked me trace s := by
  induction h with
  | refl => exact ⟨List.nil_prefix,fun t ht => by cases ht⟩
  | @snoc trace s label s' hr hstep ih =>
    obtain ⟨hguard,hstep⟩ := hstep
    cases hstep with
    | @server label _ hserver hlink =>
      have hmore : exchanged me (trace ++ [.server label]) =
          ⟨(exchanged me trace).reads ++ label.readBy me,
            (exchanged me trace).wrote ++ label.wroteBy me⟩ := by
        rw [exchanged,List.filterMap_append]
        exact exchange_snoc me _ label
      constructor
      · rw [hmore,List.flatten_append]
        change _ <+: s.client.wire 0
        have hquiet : label.readBy me = [] →
            (exchanged me trace).reads.flatten ++ (label.readBy me).flatten <+: s.client.wire 0 := by
          intro hnone
          rw [hnone,List.flatten_nil,List.append_nil]
          exact ih.up
        cases label with
        | read id result =>
          cases result with
          | error => exact hquiet rfl
          | ok bytes =>
            by_cases hid : id = me
            · rw [hid] at hserver hlink ⊢
              obtain ⟨c,hc⟩ := step_actor hserver rfl
              have hlinked := hlink bytes c rfl hc
              rw [(exchanged_carried hr hc).1] at hlinked
              simpa [Management.Label.readBy] using hlinked
            · exact hquiet (if_neg hid)
        | _ => exact hquiet rfl
      · intro t ht
        rw [hmore,List.flatten_append]
        exact (ih.down t ht).trans (List.prefix_append _ _)
    | @client label _ hclient hlink =>
      have hsame : exchanged me (trace ++ [.client label]) = exchanged me trace := by
        rw [exchanged,List.filterMap_append]
        exact congrArg (exchange me) (List.append_nil _)
      rw [downlink_eq hr] at hlink
      constructor
      · rw [hsame]
        exact ih.up.trans (wire_grows hclient)
      · rw [hsame]
        exact received_step hclient ih.down hlink

end Runs
end Session

/-! ## Requests and responses -/

/-- The bytes are these packets, each of them whole. -/
def Whole (packets : List Packet) (bytes : Bytes) : Prop :=
  ∃ wrote, Framer.Encoded Packet.encode packets wrote ∧ wrote.flatten = bytes

/-- The reads of the other side complete packets of the stream, in order. -/
theorem Whole.received {packets : List Packet} {bytes : Bytes} (h : Whole packets bytes)
    {reads : List Bytes} (hreads : reads.flatten <+: bytes) :
    (Packet.framer.feedAll reads).1 <+: packets := by
  obtain ⟨wrote,hwrote,rfl⟩ := h
  obtain ⟨k,kept,hsplit,_⟩ := Packet.framer_encodes.split_stream hwrote hreads
  rw [Packet.framer_encodes.feedAll_eq hwrote hreads,hsplit]
  exact List.take_prefix k packets

/-- What the client has written is mute events and the requests of its calls, each once. -/
theorem asked_whole {c : Client} (hsending : c.Sending) (hconnected : c.Connected) :
    ∃ asked, Whole asked (c.wire 0) ∧ (∀ packet ∈ asked, Sdk.Asks c.keys packet) ∧
      (asked.filterMap Packet.requestId).Nodup := by
  have hwire : c.wire 0 = ((c.sendTx.take c.taken).map Outgoing.packet).flatten := by
    rcases hconnected with ⟨hnone,htaken⟩ | ⟨t,hone,htalks⟩
    · rw [Client.wire,hnone,htaken]
      rfl
    · rw [Client.wire,hone]
      exact htalks.written
  obtain ⟨asked,hencoded,hasks,hids⟩ :=
    Sdk.origins_ask fun o ho => hsending.origin o (List.mem_of_mem_take ho)
  refine ⟨asked,⟨_,hencoded,hwire.symm⟩,hasks,?_⟩
  rw [hids]
  exact hsending.ids_sent.sublist
    (((List.take_sublist c.taken c.sendTx).filterMap Outgoing.callback).map Prod.fst)

/-- A response is there because of a request. -/
theorem responds_mem {requests responses : List Packet} (h : List.Forall₂ Responds requests responses)
    {response : Packet} (hmem : response ∈ responses) : ∃ request ∈ requests, Responds request response := by
  induction h with
  | nil => cases hmem
  | cons hhead _ ih =>
    rcases List.mem_cons.mp hmem with rfl | hmem
    · exact ⟨_,List.mem_cons_self,hhead⟩
    · obtain ⟨request,hrequest,hresponds⟩ := ih hmem
      exact ⟨request,List.mem_cons_of_mem _ hrequest,hresponds⟩

/-- The request that a response answers is that of the call with its id. -/
theorem responds_call {c : Client} (hsending : c.Sending) {n : ℕ} {call : Call}
    (hc : c.calls[n]? = some call) {request response : Packet} (hasks : Sdk.Asks c.keys request)
    (hresponds : Responds request response) (hid : response.requestId = some call.requestId) :
    Responds call.request response := by
  rcases hasks with ⟨userId,isMuted,rfl⟩ | ⟨m,api,id,hkey,rfl⟩
  · cases response <;> exact hresponds.elim
  · rw [hresponds.spec.2,Sdk.Api.request_requestId] at hid
    cases hid
    have hcall : c.keys[n]? = some (call.api,call.requestId) := by
      rw [Client.keys,List.getElem?_map,hc]
      rfl
    obtain rfl := hsending.unique hcall hkey
    cases hcall.symm.trans hkey
    exact hresponds

/-- In every run of a client and the server in which the client connects once and no write
on the connection fails, both sides write whole packets; the server answers requests of the
client, each once and in their order, and a call that comes back with a packet has got the
response to its own request. -/
theorem correlation {me : UInt64} {trace : List Session.Label} {s : Session}
    (h : Run (Guarded (Session.Undisturbed me) (Session.Step me)) Session.new trace s) :
    ∃ asked answers requests, Whole asked (s.client.wire 0) ∧ Whole answers (s.downlink me) ∧
      (asked.filterMap Packet.requestId).Nodup ∧ requests.Sublist asked ∧
      List.Forall₂ Responds requests (answers.filter fun packet => !packet.isEvent) ∧
      (∀ t ∈ s.client.tasks, t.handler.packetTx <+: answers ∧
        (t.handler.pendingResponses.answered.map Prod.fst).Nodup ∧
        (t.handler.pendingResponses.answered.map Prod.snd).Sublist t.handler.packetTx) ∧
      ∀ (n : ℕ) (call : Call) (response : Packet), s.client.calls[n]? = some call →
        call.phase = .returned (some response) →
        response ∈ answers ∧ Responds call.request response ∧
          response.requestId = some call.requestId ∧
          ∀ (n' : ℕ) (call' : Call), s.client.calls[n']? = some call' →
            call'.phase = .returned (some response) → n' = n := by
  obtain ⟨hsending,hconnected,hgiven⟩ := Client.run_connected (Session.client_run h)
  have hlinked := Session.run_linked h
  obtain ⟨asked,hasked,hasks,hids⟩ := asked_whole hsending hconnected
  obtain ⟨answers,requests,hwrote,hrequests,hresponds⟩ := run_answered (Session.server_run h) me
  have hanswers : Whole answers (s.downlink me) := ⟨_,hwrote,(Session.downlink_eq h).symm⟩
  have hsublist : requests.Sublist asked := hrequests.trans (hasked.received hlinked.up).sublist
  have htalks : ∀ t ∈ s.client.tasks, Talks (s.client.sendTx.take s.client.taken) t := by
    intro t ht
    obtain ⟨k,hk⟩ := List.mem_iff_getElem?.mp ht
    exact (hconnected.only hk).2.2
  have hstream : ∀ t ∈ s.client.tasks, t.handler.packetTx <+: answers := by
    intro t ht
    obtain ⟨reads,hreads,hfeed⟩ := (htalks t ht).received
    have hpart : reads.flatten <+: s.downlink me := by
      rw [hreads,Session.downlink_eq h]
      exact hlinked.down t ht
    have hfront := hanswers.received hpart
    rwa [hfeed] at hfront
  -- the id under which a call was answered is its own
  have hown : ∀ (n : ℕ) (call : Call) (response : Packet), s.client.calls[n]? = some call →
      call.phase = .returned (some response) →
      response ∈ answers ∧ response.requestId = some call.requestId := by
    intro n call response hc hp
    obtain ⟨t,ht,hanswered⟩ := hgiven n call response hc hp
    have hmatching := (htalks t ht).matching
    obtain ⟨id,hid,hmem⟩ := hmatching.answered hanswered
    obtain ⟨api,hkey⟩ := hsending.callback
      (((List.take_sublist _ _).filterMap Outgoing.callback).subset hmem)
    rw [Client.keys,List.getElem?_map,hc] at hkey
    cases hkey
    have hin := hmatching.order.subset (List.mem_map_of_mem hanswered)
    exact ⟨(hstream t ht).subset hin,hid⟩
  refine ⟨asked,answers,requests,hasked,hanswers,hids,hsublist,hresponds,fun t ht => ?_,?_⟩
  · exact ⟨hstream t ht,(htalks t ht).matching.once,(htalks t ht).matching.order⟩
  · intro n call response hc hp
    obtain ⟨hmem,hid⟩ := hown n call response hc hp
    have hevent : response.isEvent = false := by
      cases response <;> first | rfl | cases hid
    have hresponse : response ∈ answers.filter fun packet => !packet.isEvent := by
      rw [List.mem_filter]
      exact ⟨hmem,by rw [hevent]; rfl⟩
    obtain ⟨request,hrequest,hanswer⟩ := responds_mem hresponds hresponse
    refine ⟨hmem,responds_call hsending hc (hasks request (hsublist.subset hrequest)) hanswer hid,hid,?_⟩
    intro n' call' hc' hp'
    have hid' := (hown n' call' response hc' hp').2
    have hsame : call'.requestId = call.requestId := Option.some.inj (hid'.symm.trans hid)
    have hkey : s.client.keys[n]? = some (call.api,call.requestId) := by
      rw [Client.keys,List.getElem?_map,hc]
      rfl
    have hkey' : s.client.keys[n']? = some (call'.api,call.requestId) := by
      rw [Client.keys,List.getElem?_map,hc',← hsame]
      rfl
    exact hsending.unique hkey' hkey

/-! ## One call -/

namespace Session
variable (me : UInt64) {client client' : Client} {server server' : ManagementServer} {c : Connection}

theorem served (label : Management.Label) (h : Management.Step server label server')
    (hread : ∀ bytes, label ≠ .read me (.ok bytes)) (hwrites : WritesSucceed me server label) :
    Guarded (Undisturbed me) (Step me) ⟨server,client⟩ (.server label) ⟨server',client⟩ :=
  ⟨hwrites,.server h fun bytes _ heq => (hread bytes heq).elim⟩

theorem called (label : Client.Label) (h : Client.Step client label client')
    (hread : ∀ k bytes, label ≠ .incoming k (some bytes)) (hone : client.OneConnection label) :
    Guarded (Undisturbed me) (Step me) ⟨server,client⟩ (.client label) ⟨server,client'⟩ :=
  ⟨hone,.client h fun k bytes _ heq => (hread k bytes heq).elim⟩

theorem reads {b : Bytes} (bytes : Bytes) (hp : c.phase = .select b) (hlen : bytes.length ≤ packetBufferSize)
    (hlink : c.received ++ bytes <+: client.wire 0) :
    Guarded (Undisturbed me) (Step me) ⟨server.setConnection me c,client⟩ (.server (.read me (.ok bytes)))
      ⟨server.setConnection me { c with
        phase := .ofProgram (handleRead c.address b (.ok bytes)), received := c.received ++ bytes },client⟩ := by
  refine ⟨(fun _ _ heq => by cases heq),.server (step_read (r := .ok bytes) hp hlen) ?_⟩
  intro bytes' c' heq hc
  cases heq
  cases (ManagementServer.setConnection_own _ _ _).symm.trans hc
  exact hlink

theorem delivered {t : Sdk.TcpClient.Task} (bytes : Bytes) (ht : client.tasks[0]? = some t)
    (hrun : t.running = true) (hlen : bytes.length ≤ Sdk.TcpClient.readBufSize)
    (hlink : t.received ++ bytes <+: c.written) :
    Guarded (Undisturbed me) (Step me) ⟨server.setConnection me c,client⟩ (.client (.incoming 0 (some bytes)))
      ⟨server.setConnection me c,client.setTask 0 (t.incoming (some bytes))⟩ := by
  refine ⟨trivial,.client (.incoming ht hrun hlen) ?_⟩
  intro k bytes' t' heq ht'
  cases heq
  cases ht.symm.trans ht'
  rw [downlink,ManagementServer.setConnection_own]
  exact hlink

end Session

/-- The request of a first call is registered, and its response comes in. -/
theorem incoming_first (data : Bytes) {reply : Bytes} {response : Packet} (hreply : response.encode = some reply)
    (hid : response.requestId = some 1) : ∃ t, Sdk.TcpClient.Task.incoming
      ⟨⟨Sdk.Pending.new.register 1 0,[],[]⟩,true,data,[]⟩ (some reply) = t ∧
      (0,response) ∈ t.handler.pendingResponses.answered ∧ t.handler.packetTx = [response] := by
  have hne : reply ≠ [] := by
    rintro rfl
    have hlen := Packet.encode_length hreply
    rw [List.length_nil] at hlen
    omega
  have hanswer : Sdk.Pending.resolve (Sdk.Pending.new.register 1 0) (some 1) response =
      (⟨(Sdk.Pending.new.register 1 0).waiting.erase 1,[(0,response)]⟩,true) := rfl
  have hhandOn : (⟨Sdk.Pending.new.register 1 0,[],[]⟩ : Sdk.TcpClient.Handler).handOn [response] =
      ⟨⟨(Sdk.Pending.new.register 1 0).waiting.erase 1,[(0,response)]⟩,[response],[]⟩ := by
    rw [Sdk.TcpClient.Handler.handOn,List.forM_cons,List.forM_nil]
    change Sdk.TcpClient.Handler.mk (Sdk.Pending.resolve _ response.requestId response).1 _ _ = _
    rw [hid,hanswer]
    rfl
  refine ⟨_,rfl,?_⟩
  rw [Sdk.TcpClient.Task.incoming,Sdk.TcpClient.handleIncoming_some hne,List.nil_append,
    split_single hreply,hhandOn]
  exact ⟨List.mem_singleton_self _,rfl⟩

/-- The first call on a connection that has just been made, if the server does no more than
write this response. -/
theorem run_call (api : Sdk.Api) {data reply : Bytes} {response : Packet}
    (hdata : (api.request 1).encode = some data) (hlen : data.length ≤ packetBufferSize)
    (hreply : response.encode = some reply) (hid : response.requestId = some 1)
    (hreplies : reply.length ≤ Sdk.TcpClient.readBufSize)
    (hprogram : (handlePacket (.v4 1 1) (api.request 1)).run =
      .op (.encode response) fun data => writing data (.ret (.ok ()))) :
    ∃ (trace : List Session.Label) (s : Session),
      Run (Guarded (Session.Undisturbed 1) (Session.Step 1)) Session.new trace s ∧
      s.client.calls[0]? = some ⟨api,1,.returned (some response)⟩ ∧
      (∃ t, s.client.tasks = [t] ∧ t.handler.packetTx = [response]) ∧
      ∃ c, s.server.connections.lookup 1 = some c ∧
        s.server.users.lookup c.address = some ⟨1,none,false,false,11⟩ := by
  have hread : handleRead (.v4 1 1) [] (.ok data) = .op (.encode response) fun data =>
      writing data (.ret (.ok ())) >>= fun _ => .ret (.proceed []) := by
    rw [handleRead_packet _ hdata,hprogram]
    rfl
  obtain ⟨t,ht,hanswered,hstream⟩ := incoming_first data hreply hid
  have hwrites : ∀ {s label}, (∀ data written, label ≠ .exec 1 (.write data) written) →
      Session.WritesSucceed 1 s label := fun h data written heq => (h data written heq).elim
  -- the request goes out
  have h₁ := (Run.refl (s := Session.new)).snoc (Session.called 1 .connect .connect (by simp) rfl)
  have h₂ := h₁.snoc (Session.called 1 (.call api) (.call (by decide)) (by simp) trivial)
  have h₃ := h₂.snoc (Session.called 1 (.send 0) (.send rfl rfl hdata) (by simp) trivial)
  have h₄ := h₃.snoc (Session.called 1 (.outgoing 0 true)
    (.outgoing rfl rfl rfl (List.prefix_refl _) fun _ => rfl) (by simp) rfl)
  -- the server answers it
  have h₅ := h₄.snoc (Session.served 1 (.accept (.v4 1 1) 11) (.accept (by decide)) (by simp)
    (hwrites (by simp)))
  have h₆ := h₅.snoc (Session.served 1 (.connect 1)
    (.connect (c := ⟨⟨1,none,false,false,11⟩,.v4 1 1,.spawned,0,[],[]⟩) rfl rfl) (by simp)
    (hwrites (by simp)))
  have h₇ := h₆.snoc (Session.served 1 (.subscribe 1)
    (.subscribe (c := ⟨⟨1,none,false,false,11⟩,.v4 1 1,.connected,0,[],[]⟩) rfl rfl) (by simp)
    (hwrites (by simp)))
  have h₈ := h₇.snoc (Session.reads 1 data rfl hlen (List.prefix_refl _))
  have h₉ := h₈.snoc (Session.served 1 _ (step_exec (congrArg Phase.ofProgram hread) hreply rfl)
    (by simp) (hwrites (by simp)))
  have h₁₀ := h₉.snoc (Session.served 1 _ (step_exec (o := .write _) (r := true) rfl trivial rfl)
    (by simp) fun _ _ heq => by cases heq; rfl)
  -- the response comes in
  have h₁₁ := h₁₀.snoc (Session.delivered 1 reply rfl rfl hreplies (List.prefix_refl _))
  have h₁₂ := h₁₁.snoc (Session.called 1 (.respond 0 response)
    (.respond (k := 0) rfl rfl (congrArg some ht) hanswered) (by simp) trivial)
  exact ⟨_,_,h₁₂,rfl,⟨_,congrArg (fun t => [t]) ht,hstream⟩,_,
    ManagementServer.setConnection_own _ _ _,rfl⟩

/-- A call of `ping` on a connection that has just been made comes back. -/
theorem run_ping : ∃ (trace : List Session.Label) (s : Session),
    Run (Guarded (Session.Undisturbed 1) (Session.Step 1)) Session.new trace s ∧
    s.client.calls[0]? = some ⟨.ping,1,.returned (some (.pingResponse 1))⟩ := by
  have hping : (Sdk.Api.ping.request 1).encode = some [6,0,8,0,0,0,0,0,0,0,1] := by decide
  have hpong : (Packet.pingResponse 1).encode = some [38,0,8,0,0,0,0,0,0,0,1] := by decide
  obtain ⟨trace,s,hr,hc,_⟩ := run_call .ping hping (by decide) hpong rfl (by decide)
    (handlePingRequest_run 1)
  exact ⟨trace,s,hr,hc⟩

theorem correlation_ping : ∃ (s : Session) (call : Call), s.client.calls[0]? = some call ∧
    Responds call.request (.pingResponse 1) := by
  obtain ⟨trace,s,h,hc⟩ := run_ping
  obtain ⟨_,_,_,_,_,_,_,_,_,hcalls⟩ := correlation h
  exact ⟨s,_,hc,(hcalls 0 _ _ hc rfl).2.1⟩

end VoiceApp.System
