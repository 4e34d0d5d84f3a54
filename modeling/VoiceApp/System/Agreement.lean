import VoiceApp.Management.Agreement
import VoiceApp.System.Correlation

/-! # Any number of clients

Every connection has a client of its own at its other end. What the clients are told of each
other comes in one order, the same for all of them.
-/
namespace VoiceApp.System
open Protocol Server Framing Management
open Sdk (Client)

structure Community where
  server : ManagementServer
  clients : UInt64 → Client

namespace Community

def new : Community := ⟨.new,fun _ => .new⟩

/-- The client of a connection with the server. -/
def session (s : Community) (id : UInt64) : Session := ⟨s.server,s.clients id⟩

inductive Label
  | server (label : Management.Label)
  | client (id : UInt64) (label : Client.Label)

/-- What is read on a connection continues what its other end has written. -/
inductive Step (s : Community) : Label → Community → Prop
  | server {label server'} (h : Management.Step s.server label server')
      (hlink : ∀ id bytes c, label = .read id (.ok bytes) → s.server.connections.lookup id = some c →
        c.received ++ bytes <+: (s.clients id).wire 0) :
      Step s (.server label) { s with server := server' }
  | client {id label client'} (h : Client.Step (s.clients id) label client')
      (hlink : ∀ k bytes t, label = .incoming k (some bytes) → (s.clients id).tasks[k]? = some t →
        t.received ++ bytes <+: (s.session id).downlink id) :
      Step s (.client id label) { s with clients := Function.update s.clients id client' }

/-- Every client connects once, and no write fails. -/
def Undisturbed (s : Community) : Label → Prop
  | .server label => ∀ id, Session.WritesSucceed id s.server label
  | .client id label => (s.clients id).OneConnection label

/-- No address is accepted again while a task that uses it is running. -/
def Apart (s : Community) : Label → Prop
  | .server label => liveApart.guard s.server label
  | .client .. => True

/-- The label as the client sees it. -/
def Label.seen (me : UInt64) : Label → Option Session.Label
  | .server label => some (.server label)
  | .client id label => if id = me then some (.client label) else none

section Runs
variable {trace : List Label} {s : Community}

/-- A client and the server are a session. -/
theorem session_run (me : UInt64) (h : Run (Guarded Undisturbed Step) new trace s) :
    Run (Guarded (Session.Undisturbed me) (Session.Step me)) Session.new
      (trace.filterMap (Label.seen me)) (s.session me) := by
  refine h.project (fun s => s.session me) (Label.seen me) ?_ ?_
  · rintro t label u m ⟨hguard,hstep⟩ hlabel
    cases hstep with
    | server hserver hlink =>
      cases hlabel
      exact ⟨hguard me,.server hserver (hlink me)⟩
    | @client id label client' hclient hlink =>
      rw [Label.seen] at hlabel
      split at hlabel
      · rename_i hid
        subst hid
        cases hlabel
        refine ⟨hguard,?_⟩
        have hstep : Session.Step id (t.session id) (.client label) ⟨t.server,client'⟩ := .client hclient hlink
        simpa [session] using hstep
      · cases hlabel
  · rintro t label u ⟨_,hstep⟩ hlabel
    cases hstep with
    | server => cases hlabel
    | @client id label client' =>
      have hid : me ≠ id := by
        rintro rfl
        simp [Label.seen] at hlabel
      simp [session,Function.update_of_ne hid]

theorem step_announcements {s' : Community} {label : Label} (hs : Step s label s') :
    s.server.announcements <+: s'.server.announcements := by
  cases hs with
  | server h =>
    change s.server.announcements <+: List.filterMap _ _
    rw [step_broadcasts h,List.filterMap_append]
    exact List.prefix_append _ _
  | client => exact List.prefix_refl _

/-- The events a client has handed on are in the order of the announcements. -/
theorem handed_on_ordered (h : Run (Guarded Undisturbed Step) new trace s) {id : UInt64}
    {t : Sdk.TcpClient.Task} (ht : t ∈ (s.clients id).tasks) :
    (t.handler.packetTx.filter Packet.isEvent).Sublist s.server.announcements := by
  have hsession := session_run id h
  obtain ⟨_,hconnected,_⟩ := Client.run_connected (Session.client_run hsession)
  obtain ⟨k,hk⟩ := List.mem_iff_getElem?.mp ht
  obtain ⟨reads,hreads,hfeed⟩ := (hconnected.only hk).2.2.received
  have hdown : reads.flatten <+: (Session.exchanged id (trace.filterMap (Label.seen id))).wrote.flatten := by
    rw [hreads]
    exact (Session.run_linked hsession).down t ht
  have hordered := run_events_ordered (Session.server_run hsession) id hdown
  rw [hfeed] at hordered
  exact hordered

/-- All clients get their events in one order, each event at most once: what a client hands on
is a part of the announcements of the server, whose order is never revised. -/
theorem events_agree (h : Run (Guarded Undisturbed Step) new trace s) :
    (∀ id, ∀ t ∈ (s.clients id).tasks,
      (t.handler.packetTx.filter Packet.isEvent).Sublist s.server.announcements) ∧
    ∀ label s', Step s label s' → s.server.announcements <+: s'.server.announcements :=
  ⟨fun _ _ ht => handed_on_ordered h ht,fun _ _ hs => step_announcements hs⟩

end Runs

/-! ## Both sides of a run -/

/-- The steps of the server beside these clients. -/
def Serves (clients : UInt64 → Client) (s : ManagementServer) (label : Management.Label)
    (s' : ManagementServer) : Prop :=
  Guarded (fun s label => Undisturbed s label ∧ Apart s label) Step ⟨s,clients⟩ (.server label) ⟨s',clients⟩

section Serving
variable {clients : UInt64 → Client} {s s' : ManagementServer}

theorem serves {label : Management.Label} (h : Management.Step s label s')
    (hread : ∀ id bytes, label ≠ .read id (.ok bytes)) (hwrite : ∀ id data written,
      label = .exec id (.write data) written → written = true) (happart : liveApart.guard s label) :
    Serves clients s label s' :=
  ⟨⟨fun id data written heq => hwrite id data written heq,happart⟩,
    .server h fun id bytes _ heq => (hread id bytes heq).elim⟩

theorem serves_calm (id : UInt64) : Calmly (Serves clients) id := by
  intro s s' o r h ho
  refine serves h (by simp) ?_ (liveApart_guard (by simp))
  rintro _ data written heq
  cases heq
  exact ho

/-- What has been written on a connection is read. -/
theorem serves_read {id : UInt64} {c : Connection} {bytes : Bytes}
    (hc : s.connections.lookup id = some c) (h : Management.Step s (.read id (.ok bytes)) s')
    (hlink : c.received ++ bytes <+: (clients id).wire 0) : Serves clients s (.read id (.ok bytes)) s' := by
  refine ⟨⟨(fun _ _ _ heq => by cases heq),trivial⟩,.server h ?_⟩
  intro id' bytes' c' heq hc'
  cases heq
  cases hc.symm.trans hc'
  exact hlink

theorem server_lifts {trace : List Management.Label} (h : Run (Serves clients) s trace s') :
    Run (Guarded (fun s label => Undisturbed s label ∧ Apart s label) Step) ⟨s,clients⟩
      (trace.map Label.server) ⟨s',clients⟩ := by
  have hlifted : Run (Guarded (fun s label => Undisturbed s label ∧ Apart s label) Step) ⟨s,clients⟩
      (trace.filterMap fun label => some (Label.server label)) ⟨s',clients⟩ := by
    refine h.project (fun s => (⟨s,clients⟩ : Community)) (fun label => some (Label.server label)) ?_ ?_
    · rintro t label u _ hs ⟨⟩
      exact hs
    · rintro t label u _ ⟨⟩
  rwa [List.filterMap_eq_map'] at hlifted

end Serving

def withClient (c : Community) (id : UInt64) (client : Client) : Community :=
  { c with clients := Function.update c.clients id client }

theorem withClient_own (c : Community) (id : UInt64) (client : Client) :
    (c.withClient id client).clients id = client := Function.update_self ..

theorem withClient_other (c : Community) {id id' : UInt64} (client : Client) (h : id' ≠ id) :
    (c.withClient id client).clients id' = c.clients id' := Function.update_of_ne h ..

theorem withClient_self (c : Community) (id : UInt64) : c.withClient id (c.clients id) = c :=
  congrArg (Community.mk _) (Function.update_eq_self id _)

theorem withClient_twice (c : Community) (id : UInt64) (client client' : Client) :
    (c.withClient id client).withClient id client' = c.withClient id client' :=
  congrArg (Community.mk _) (Function.update_idem ..)

/-- A client that reads nothing from its connection. -/
theorem client_lifts {labels : List Client.Label} {client client' : Client}
    (h : Run (Guarded Client.OneConnection Client.Step) client labels client')
    (hquiet : ∀ k bytes, .incoming k (some bytes) ∉ labels) (c : Community) (id : UInt64) :
    Run (Guarded (fun s label => Undisturbed s label ∧ Apart s label) Step) (c.withClient id client)
      (labels.map (Label.client id)) (c.withClient id client') := by
  induction h with
  | refl => exact .refl
  | @snoc labels t label u _ hs ih =>
    rw [List.map_append]
    refine (ih fun k bytes hmem => hquiet k bytes (List.mem_append_left _ hmem)).snoc ⟨⟨?_,trivial⟩,?_⟩
    · change Client.OneConnection ((c.withClient id t).clients id) label
      rw [withClient_own]
      exact hs.1
    · have hstep : Step (c.withClient id t) (.client id label)
          { c.withClient id t with clients := Function.update (c.withClient id t).clients id u } := by
        refine .client ?_ ?_
        · rw [withClient_own]
          exact hs.2
        · rintro k bytes _ rfl
          exact (hquiet k bytes (List.mem_append_right _ (List.mem_singleton_self _))).elim
      have hidem : Function.update (c.withClient id t).clients id u = Function.update c.clients id u :=
        Function.update_idem ..
      rw [hidem] at hstep
      exact hstep

theorem moves {client client' : Client} (label : Client.Label) (h : Client.Step client label client')
    (hone : client.OneConnection label) : Guarded Client.OneConnection Client.Step client label client' :=
  ⟨hone,h⟩

/-- A client reads. -/
theorem client_reads {c : Community} {id : UInt64} {t : Sdk.TcpClient.Task} {bytes : Bytes}
    (ht : (c.clients id).tasks[0]? = some t) (hrun : t.running = true)
    (hlen : bytes.length ≤ Sdk.TcpClient.readBufSize)
    (hlink : t.received ++ bytes <+: (c.session id).downlink id) :
    Guarded (fun s label => Undisturbed s label ∧ Apart s label) Step c (.client id (.incoming 0 (some bytes)))
      (c.withClient id ((c.clients id).setTask 0 (t.incoming (some bytes)))) := by
  refine ⟨⟨trivial,trivial⟩,.client (.incoming ht hrun hlen) fun k bytes' t' heq ht' => ?_⟩
  cases heq
  cases ht.symm.trans ht'
  exact hlink

/-! ## Two clients -/

/-- What a chat message is to the server. -/
theorem handleRead_chat {requestId : UInt64} {message : String} {data : Bytes} {address : SocketAddr}
    (hdata : (Packet.chatMessageRequest requestId message).encode = some data) :
    handleRead address [] (.ok data) = .op (.get address) fun
      | none => .ret (.proceed [])
      | some user => .op (.encode (.chatMessageResponse requestId true)) fun data =>
        writing data (.op .now fun timestamp => announcing none
          (.userSentMessage user.id timestamp message) (.ret (.ok ()))) >>= fun _ =>
            .ret (.proceed []) := by
  rw [handleRead_packet _ hdata]
  change (handleChatMessageRequest _ _ _).run >>= _ = _
  rw [handleChatMessageRequest_run]
  refine congrArg (Proc.op _) (funext fun record => ?_)
  cases record <;> rfl

/-- A part of a run in which no write fails and no address is accepted again. -/
abbrev Leads (s s' : Community) : Prop :=
  ∃ trace, Run (Guarded (fun s label => Undisturbed s label ∧ Apart s label) Step) s trace s'

theorem Leads.trans {s t u : Community} : Leads s t → Leads t u → Leads s u
  | ⟨_,h⟩,⟨_,h'⟩ => ⟨_,h.append h'⟩

section Segments
variable {s : Community} {c : Connection}

/-- A client connects, and its task subscribes. -/
theorem joins (address : SocketAddr) (token : UInt64) (hid : s.server.nextUserId.toNat + 1 < 2 ^ 64)
    (hclient : s.clients s.server.nextUserId = .new)
    (hfree : liveApart.guard s.server (.accept address token)) :
    let accepted := (s.server.accept address token).sendEvent (.userConnected s.server.nextUserId token)
    let task : Connection :=
      ⟨s.server.newUser token,address,.select [],s.server.broadcasts.length,[],[]⟩
    Leads s (({ s with server := accepted.setConnection s.server.nextUserId task } : Community).withClient
      s.server.nextUserId { Client.new with tasks := [.new] }) := by
  have hspawned : (s.server.accept address token).connections.lookup s.server.nextUserId =
      some ⟨s.server.newUser token,address,.spawned,0,[],[]⟩ := by
    rw [ManagementServer.accept_connections,if_pos rfl]
  have haccepted := ManagementServer.setConnection_own (s.server.accept address token) s.server.nextUserId
    ⟨s.server.newUser token,address,.connected,0,[],[]⟩
  have h₁ : Run (Serves (s.withClient s.server.nextUserId { Client.new with tasks := [.new] }).clients)
      s.server [.accept address token] _ := Run.single (serves (.accept hid) (by simp) (by simp) hfree)
  have h₂ := h₁.snoc (serves (.connect hspawned rfl) (by simp) (by simp) (liveApart_guard (by simp)))
  have h₃ := h₂.snoc (serves (.subscribe haccepted rfl) (by simp) (by simp) (liveApart_guard (by simp)))
  have hsame : ∀ e c c', (((s.server.accept address token).setConnection s.server.nextUserId c).sendEvent
      e).setConnection s.server.nextUserId c' =
        ((s.server.accept address token).sendEvent e).setConnection s.server.nextUserId c' :=
    fun e c c' => ((s.server.accept address token).sendEvent e).setConnection_twice _ c c'
  rw [hsame] at h₃
  have hconnect : Run (Guarded Client.OneConnection Client.Step) (s.clients s.server.nextUserId) [.connect]
      { Client.new with tasks := [.new] } := by
    rw [hclient]
    exact Run.single (moves .connect .connect rfl)
  have hconnected := client_lifts hconnect (by simp) s s.server.nextUserId
  rw [withClient_self] at hconnected
  exact ⟨_,hconnected.append (server_lifts h₃)⟩

/-- A client whose task is running, after it has sent its first chat message. -/
def chatted (t : Sdk.TcpClient.Task) (message : String) (request : Bytes) : Client where
  requestIdCounter := 2
  sendTx := [⟨request,some (1,0)⟩]
  taken := 1
  tasks := [t.outgoing ⟨request,some (1,0)⟩ true request]
  calls := [⟨.sendMessage message,1,.waiting⟩]

theorem asks {t : Sdk.TcpClient.Task} (id : UInt64) (message : String) {request : Bytes}
    (hclient : s.clients id = { Client.new with tasks := [t] }) (hrun : t.running = true)
    (hrequest : (Packet.chatMessageRequest 1 message).encode = some request) :
    Leads s (s.withClient id (chatted t message request)) := by
  have hid : Client.new.requestIdCounter.toNat + 1 < 2 ^ 64 := by decide
  have h₁ := (Run.refl (s := { Client.new with tasks := [t] })).snoc
    (moves (.call (.sendMessage message)) (.call hid) trivial)
  have h₂ := h₁.snoc (moves (.send 0) (.send rfl rfl hrequest) trivial)
  have h₃ := h₂.snoc (moves (.outgoing 0 true)
    (.outgoing rfl hrun rfl (List.prefix_refl _) fun _ => rfl) rfl)
  have hchatted : Run (Guarded Client.OneConnection Client.Step) { Client.new with tasks := [t] } _
      (chatted t message request) := h₃
  have hlifted := client_lifts hchatted (by simp) s id
  rw [← hclient,withClient_self] at hlifted
  exact ⟨_,hlifted⟩

/-- A task reads a chat message, answers it and posts it. -/
theorem posts {user : User} (id requestId : UInt64) (message : String) {request response posted : Bytes}
    (hc : s.server.connections.lookup id = some c) (hphase : c.phase = .select [])
    (huser : s.server.users.lookup c.address = some user)
    (hlink : c.received ++ request <+: (s.clients id).wire 0) (hlen : request.length ≤ packetBufferSize)
    (hrequest : (Packet.chatMessageRequest requestId message).encode = some request)
    (hresponse : (Packet.chatMessageResponse requestId true).encode = some response)
    (hposted : (Packet.userSentMessage user.id 0 message).encode = some posted) :
    Leads s { s with server := (s.server.perform (.broadcast ⟨none,posted⟩)).setConnection id { c with
      received := c.received ++ request, written := c.written ++ response } } := by
  obtain ⟨own,address,phase,cursor,received,written⟩ := c
  change phase = .select [] at hphase
  subst hphase
  have h₁ := Run.single (serves_read hc (.read (r := .ok request) hc rfl hlen) hlink)
  have h₂ := run_silent (serves_calm id) h₁ (congrArg Phase.ofProgram (handleRead_chat hrequest)) rfl rfl trivial
  rw [huser] at h₂
  have h₃ := run_silent (serves_calm id) h₂ rfl hresponse rfl trivial
  have h₄ := run_exec (serves_calm id) h₃ (o := .write response) (r := true) rfl trivial rfl rfl
  have h₅ := run_silent (serves_calm id) h₄ (o := .now) (r := (0 : UInt64)) rfl trivial rfl trivial
  have h₆ := run_silent (serves_calm id) h₅ rfl hposted rfl trivial
  have h₇ := run_silent (serves_calm id) h₆ (o := .broadcast ⟨none,posted⟩) (r := ()) rfl trivial rfl trivial
  exact ⟨_,server_lifts h₇⟩

/-- A task receives a message and writes it, and the client reads all there is to read. -/
theorem told {t : Sdk.TcpClient.Task} (id : UInt64) (posted bytes : Bytes)
    (hc : s.server.connections.lookup id = some c) (hphase : c.phase = .select [])
    (hm : s.server.broadcasts[c.cursor]? = some ⟨none,posted⟩)
    (hring : s.server.broadcasts.length ≤ c.cursor + broadcastChannelCapacity)
    (ht : (s.clients id).tasks[0]? = some t) (hrun : t.running = true)
    (hlen : bytes.length ≤ Sdk.TcpClient.readBufSize) (hlink : t.received ++ bytes <+: c.written ++ posted) :
    Leads s (({ s with server := s.server.setConnection id { c with
        cursor := c.cursor + 1, written := c.written ++ posted } } : Community).withClient id
      ((s.clients id).setTask 0 (t.incoming (some bytes)))) := by
  obtain ⟨own,address,phase,cursor,received,written⟩ := c
  change phase = .select [] at hphase
  subst hphase
  have hsend : BroadcastMessage.shouldSendTo ⟨none,posted⟩ address = true := rfl
  have h₁ : Run (Serves s.clients) s.server [.recv id (.ok ⟨none,posted⟩)] _ :=
    Run.single (serves (.recv hc rfl hm hring) (by simp) (by simp) (liveApart_guard (by simp)))
  have h₂ := run_exec (serves_calm id) h₁ (o := .write posted) (r := true)
    (congrArg Phase.ofProgram (handleRecv_sent address hsend [])) trivial rfl rfl
  refine ⟨_,(server_lifts h₂).append (Run.single (client_reads ht hrun hlen ?_))⟩
  rw [Session.downlink,session,ManagementServer.setConnection_own]
  exact hlink

/-- A task has handed on the packets of what it has read. -/
theorem incoming_packets (t : Sdk.TcpClient.Task) (bytes : Bytes) {packets : List Packet} (hne : bytes ≠ [])
    (hsplit : Packet.framer.split (t.handler.accumulator ++ bytes) = (packets,[])) :
    (t.incoming (some bytes)).handler.packetTx = t.handler.packetTx ++ packets ∧
      (t.incoming (some bytes)).handler.accumulator = [] ∧ (t.incoming (some bytes)).running = true ∧
      (t.incoming (some bytes)).received = t.received ++ bytes ∧
      (t.incoming (some bytes)).written = t.written := by
  rw [Sdk.TcpClient.Task.incoming,Sdk.TcpClient.handleIncoming_some hne,hsplit]
  exact ⟨Sdk.TcpClient.Handler.handOn_packetTx _ _,rfl,rfl,rfl,rfl⟩

end Segments

def chatRequest : Bytes := [5,0,10,0,0,0,0,0,0,0,1,0,0]
def chatResponse : Bytes := [37,0,9,0,0,0,0,0,0,0,1,1]
def chatPosted (userId : UInt8) : Bytes := [69,0,18,0,0,0,0,0,0,0,userId,0,0,0,0,0,0,0,0,0,0]

/-- Two users post an empty chat message each, and both are told of both. -/
theorem run_chats : ∃ s t₁ t₂, Leads new s ∧
    (s.clients 1).tasks = [t₁] ∧ (s.clients 2).tasks = [t₂] ∧
    t₁.handler.packetTx = [.chatMessageResponse 1 true,.userSentMessage 1 0 "",.userSentMessage 2 0 ""] ∧
    t₂.handler.packetTx = [.userSentMessage 1 0 "",.chatMessageResponse 1 true,.userSentMessage 2 0 ""] := by
  have hrequest : (Packet.chatMessageRequest 1 "").encode = some chatRequest := by decide
  have hresponse : (Packet.chatMessageResponse 1 true).encode = some chatResponse := by decide
  have hfirst : (Packet.userSentMessage 1 0 "").encode = some (chatPosted 1) := by decide
  have hsecond : (Packet.userSentMessage 2 0 "").encode = some (chatPosted 2) := by decide
  have hanswered : ∀ userId, (Packet.userSentMessage userId 0 "").encode = some (chatPosted userId.toUInt8) →
      Packet.framer.split (chatResponse ++ chatPosted userId.toUInt8) =
        ([.chatMessageResponse 1 true,.userSentMessage userId 0 ""],[]) := by
    intro userId hposted
    rw [Packet.framer_encodes.split_append hresponse,split_single hposted]
  -- both join
  have h₁ := joins (s := new) (.v4 1 1) 11 (by decide) rfl fun id c hc => by
    simp [new,ManagementServer.new] at hc
  have h₂ := h₁.trans (joins (.v4 2 2) 12 (by decide) rfl fun id c hc _ => by
    change (ManagementServer.setConnection _ new.server.nextUserId _).connections.lookup id = some c at hc
    rw [ManagementServer.setConnection_lookup] at hc
    split at hc
    · cases hc
      simp
    · rename_i hne
      change ((new.server.accept (.v4 1 1) 11).connections.lookup id) = some c at hc
      rw [ManagementServer.accept_connections,if_neg hne] at hc
      simp [new,ManagementServer.new] at hc)
  -- the first posts, and both are told
  have h₃ := h₂.trans (asks 1 "" rfl rfl hrequest)
  have h₄ := h₃.trans (posts 1 1 "" rfl rfl rfl (List.prefix_refl _) (by decide) hrequest hresponse hfirst)
  have h₅ := h₄.trans (told 1 (chatPosted 1) (chatResponse ++ chatPosted 1) rfl rfl rfl (by decide) rfl rfl
    (by decide) (List.prefix_refl _))
  have h₆ := h₅.trans (told 2 (chatPosted 1) (chatPosted 1) rfl rfl rfl (by decide) rfl rfl
    (by decide) (List.prefix_refl _))
  obtain ⟨hpackets₁,hkept₁,hrun₁,hreceived₁,_⟩ := incoming_packets
    (.outgoing .new ⟨chatRequest,some (1,0)⟩ true chatRequest) (chatResponse ++ chatPosted 1) (by decide)
    (hanswered 1 hfirst)
  obtain ⟨hpackets₂,hkept₂,hrun₂,hreceived₂,hwritten₂⟩ := incoming_packets .new (chatPosted 1) (by decide)
    (split_single hfirst)
  generalize Sdk.TcpClient.Task.incoming _ (some (chatResponse ++ chatPosted 1)) = t₁ at *
  generalize Sdk.TcpClient.Task.incoming .new (some (chatPosted 1)) = t₂ at *
  -- the second posts, and both are told
  have hring : 2 ≤ 1 + broadcastChannelCapacity := by decide
  have h₇ := h₆.trans (asks 2 "" rfl hrun₂ hrequest)
  have h₈ := h₇.trans (posts 2 1 "" rfl rfl rfl (by
    change chatRequest <+: t₂.written ++ chatRequest
    rw [hwritten₂]
    exact List.prefix_refl _) (by decide) hrequest hresponse hsecond)
  have h₉ := h₈.trans (told 2 (chatPosted 2) (chatResponse ++ chatPosted 2) rfl rfl rfl hring rfl rfl
    (by decide) (by
      change t₂.received ++ (chatResponse ++ chatPosted 2) <+: _
      rw [hreceived₂]
      exact List.prefix_refl _))
  have h₁₀ := h₉.trans (told 1 (chatPosted 2) (chatPosted 2) rfl rfl rfl hring rfl hrun₁ (by decide) (by
    rw [hreceived₁]
    exact List.prefix_refl _))
  refine ⟨_,_,_,h₁₀,rfl,rfl,?_,?_⟩
  · have hsplit : Packet.framer.split (t₁.handler.accumulator ++ chatPosted 2) = _ :=
      (congrArg (fun kept => Packet.framer.split (kept ++ chatPosted 2)) hkept₁).trans (split_single hsecond)
    rw [(incoming_packets t₁ (chatPosted 2) (by decide) hsplit).1,hpackets₁]
    rfl
  · have hsplit : Packet.framer.split (t₂.handler.accumulator ++ (chatResponse ++ chatPosted 2)) = _ :=
      (congrArg (fun kept => Packet.framer.split (kept ++ (chatResponse ++ chatPosted 2))) hkept₂).trans
        (hanswered 2 hsecond)
    have hpackets := (incoming_packets (t₂.outgoing ⟨chatRequest,some (1,0)⟩ true chatRequest)
      (chatResponse ++ chatPosted 2) (by decide) hsplit).1
    refine hpackets.trans ?_
    change t₂.handler.packetTx ++ _ = _
    rw [hpackets₂]
    rfl

/-- Both clients got the announcements of the server, in one order. -/
theorem events_agree_chats : ∃ trace s, Run (Guarded Undisturbed Step) new trace s ∧
    ∀ id ∈ ([1,2] : List UInt64), ∃ t ∈ (s.clients id).tasks,
      t.handler.packetTx.filter Packet.isEvent = [.userSentMessage 1 0 "",.userSentMessage 2 0 ""] ∧
      [.userSentMessage 1 0 "",.userSentMessage 2 0 ""].Sublist s.server.announcements := by
  obtain ⟨s,t₁,t₂,⟨trace,hrun⟩,htasks₁,htasks₂,hpackets₁,hpackets₂⟩ := run_chats
  have hplain : Run (Guarded Undisturbed Step) new trace s := hrun.mono fun _ _ _ hs => ⟨hs.1.1,hs.2⟩
  have hevents₁ : t₁.handler.packetTx.filter Packet.isEvent =
      [.userSentMessage 1 0 "",.userSentMessage 2 0 ""] := by
    rw [hpackets₁]
    rfl
  have hevents₂ : t₂.handler.packetTx.filter Packet.isEvent =
      [.userSentMessage 1 0 "",.userSentMessage 2 0 ""] := by
    rw [hpackets₂]
    rfl
  have hmem₁ : t₁ ∈ (s.clients 1).tasks := by simp [htasks₁]
  have hmem₂ : t₂ ∈ (s.clients 2).tasks := by simp [htasks₂]
  refine ⟨trace,s,hplain,fun id hid => ?_⟩
  obtain rfl | rfl : id = 1 ∨ id = 2 := by simpa using hid
  · exact ⟨t₁,hmem₁,hevents₁,hevents₁ ▸ (events_agree hplain).1 1 t₁ hmem₁⟩
  · exact ⟨t₂,hmem₂,hevents₂,hevents₂ ▸ (events_agree hplain).1 2 t₂ hmem₂⟩

end Community
end VoiceApp.System
