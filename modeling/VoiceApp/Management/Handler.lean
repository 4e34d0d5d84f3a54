import VoiceApp.Base.Process
import VoiceApp.Protocol.RoundTrip
import VoiceApp.Server.Event

/-! # The handler of one connection

Every access to a map or a channel that the connections share, every write to the socket
and every encoding is one operation, so another task may run in between. Reading the
users map entry by entry, as the login response does, is one operation per entry.
-/
namespace VoiceApp.Management
open Protocol Server Framing

/-- A connected user with its voice channel status and authentication token. -/
structure User where
  id : UInt64
  username : Option String
  inVoice : Bool
  isMuted : Bool
  token : UInt64
  deriving DecidableEq

/-- Broadcast message sent to all connected clients. -/
structure BroadcastMessage where
  exclude : Option SocketAddr
  data : Bytes
  deriving DecidableEq

namespace BroadcastMessage

def shouldSendTo (m : BroadcastMessage) (addr : SocketAddr) : Bool := m.exclude != some addr

end BroadcastMessage

/-- The user that an event is about. -/
def named : Packet → Option UInt64
  | .userJoinedServer participant => some participant.userId
  | .userJoinedVoice userId => some userId
  | .userLeftVoice userId => some userId
  | .userLeftServer userId => some userId
  | .userMuteState userId _ => some userId
  | .userSentMessage userId _ _ => some userId
  | _ => none

inductive ServerError
  | io
  | protocol (e : ProtocolError)
  | userNotFound (address : SocketAddr)
  deriving DecidableEq

/-- The atomic operations of a handler. `getMut` runs one critical section on a record,
`keys` starts an iteration over the users map and `read` visits one of its entries. -/
inductive Op
  | getMut (address : SocketAddr) (update : User → User)
  | get (address : SocketAddr)
  | keys
  | read (address : SocketAddr)
  | remove (address : SocketAddr)
  | encode (packet : Packet)
  | write (data : Bytes)
  | broadcast (message : BroadcastMessage)
  | send (event : Event)
  | now

/-- The answer of an operation; `write` tells whether all the bytes were written. -/
abbrev Op.Res : Op → Type
  | getMut .. => Option User
  | get _ => Option User
  | keys => List SocketAddr
  | read _ => Option User
  | remove _ => Option User
  | encode _ => Bytes
  | write _ => Bool
  | broadcast _ => Unit
  | send _ => Unit
  | now => UInt64

abbrev HandlerM := Proc Op Op.Res

abbrev perform (o : Op) : HandlerM o.Res := Proc.call o

/-- A handler function that returns `Result<_, ServerError>`. -/
abbrev Fallible := ExceptT ServerError HandlerM

def getMut (address : SocketAddr) (update : User → User) : HandlerM (Option User) :=
  perform (.getMut address update)

def get (address : SocketAddr) : HandlerM (Option User) := perform (.get address)

def remove (address : SocketAddr) : HandlerM (Option User) := perform (.remove address)

def encode (packet : Packet) : HandlerM Bytes := perform (.encode packet)

def send (event : Event) : HandlerM Unit := perform (.send event)

/-- `socket.write_all(..).await?` with the `flush` behind it, which does nothing on TCP. -/
def writeAll (data : Bytes) : Fallible Unit := do
  let written ← perform (.write data)
  if written then pure () else throw .io

/-- `broadcast_channel.send(..)` of a message for everybody, or for everybody but one
address. -/
def broadcast (exclude : Option SocketAddr) (packet : Packet) : HandlerM Unit := do
  let data ← encode packet
  perform (.broadcast ⟨exclude,data⟩)

/-- `broadcast_channel.send(BroadcastMessage::for_all(..))`. -/
def broadcastForAll (packet : Packet) : HandlerM Unit := broadcast none packet

/-- `broadcast_channel.send(BroadcastMessage::excluding(..))`. -/
def broadcastExcluding (sender : SocketAddr) (packet : Packet) : HandlerM Unit :=
  broadcast (some sender) packet

/-- A record as an entry of the login response; a user without a name is left out. -/
def User.participant (u : User) : Option ParticipantInfo :=
  u.username.map fun username => ⟨u.id,username,u.inVoice,u.isMuted⟩

/-- Collect current participants, one record at a time. -/
def collectParticipants : HandlerM (List ParticipantInfo) := do
  let addresses ← perform .keys
  let records ← addresses.mapM fun a => perform (.read a)
  return records.filterMap fun r => r.bind User.participant

/-- The username passes the check of the login handler. -/
def validUsername (username : String) : Bool :=
  !(username.isEmpty || username.utf8ByteSize > maxUsernameLen)

theorem validUsername_length {username : String} (h : validUsername username = true) :
    username.utf8ByteSize ≤ 32 := by
  simp only [validUsername,Bool.not_eq_true',Bool.or_eq_false_iff,decide_eq_false_iff_not,gt_iff_lt,
    Nat.not_lt,maxUsernameLen] at h
  exact h.2

section Requests
variable (address : SocketAddr)

def handleLoginRequest (requestId : UInt64) (username : String) : Fallible Unit := do
  if !validUsername username then
    writeAll (← encode (.loginResponse requestId 0 0 []))
  else
    match ← getMut address fun user => { user with username := some username } with
    | none => throw (.userNotFound address)
    | some user =>
      let participants ← collectParticipants
      writeAll (← encode (.loginResponse requestId user.id user.token participants))
      broadcastExcluding address (.userJoinedServer ⟨user.id,username,false,false⟩)

/-- Enter or leave the voice channel: update the record, answer, tell the relay, tell the
others. -/
def changeVoice (inVoice : Bool) (response : Packet) (event : UInt64 → Event)
    (announcement : UInt64 → Packet) : Fallible Unit := do
  match ← getMut address fun user => { user with inVoice := inVoice, isMuted := false } with
  | none => throw (.userNotFound address)
  | some user =>
    writeAll (← encode response)
    send (event user.id)
    broadcastExcluding address (announcement user.id)

def handleJoinVoiceChannelRequest (requestId : UInt64) : Fallible Unit :=
  changeVoice address true (.joinVoiceChannelResponse requestId true) .voiceJoined .userJoinedVoice

def handleLeaveVoiceChannelRequest (requestId : UInt64) : Fallible Unit :=
  changeVoice address false (.leaveVoiceChannelResponse requestId true) .voiceLeft .userLeftVoice

def handleChatMessageRequest (requestId : UInt64) (message : String) : Fallible Unit := do
  match ← get address with
  | none => throw (.userNotFound address)
  | some user =>
    writeAll (← encode (.chatMessageResponse requestId true))
    let timestamp ← perform .now
    broadcastForAll (.userSentMessage user.id timestamp message)

def handlePingRequest (requestId : UInt64) : Fallible Unit := do
  writeAll (← encode (.pingResponse requestId))

def handleUserMuteState (userId : UInt64) (isMuted : Bool) : Fallible Unit := do
  match ← getMut address fun user => { user with isMuted := isMuted } with
  | none => throw (.userNotFound address)
  | some _ => broadcastExcluding address (.userMuteState userId isMuted)

/-- Handle a decoded packet from the client. -/
def handlePacket : Packet → Fallible Unit
  | .loginRequest requestId username => handleLoginRequest address requestId username
  | .joinVoiceChannelRequest requestId => handleJoinVoiceChannelRequest address requestId
  | .leaveVoiceChannelRequest requestId => handleLeaveVoiceChannelRequest address requestId
  | .chatMessageRequest requestId message => handleChatMessageRequest address requestId message
  | .pingRequest requestId => handlePingRequest requestId
  | .userMuteState userId isMuted => handleUserMuteState address userId isMuted
  | _ => pure ()

/-- Remove the user and announce it. -/
def handleDisconnect : HandlerM Unit := do
  match ← remove address with
  | none => pure ()
  | some user =>
    broadcastForAll (.userLeftServer user.id)
    if user.inVoice then
      broadcastForAll (.userLeftVoice user.id)

/-- Filter a broadcast message and send it to the client if appropriate. -/
def handleBroadcastMessage (message : BroadcastMessage) : Fallible Unit := do
  if message.shouldSendTo address then
    writeAll message.data

end Requests

/-- The four places where `handle` returns. -/
inductive Exit
  | eof
  | readError
  | broadcastWriteFailed
  | broadcastClosed
  deriving DecidableEq

/-- One branch of the `select!` has run: the loop goes on with a buffer, or `handle` returns. -/
inductive Outcome
  | proceed (packetBuffer : Bytes)
  | exit (e : Exit)

/-- `socket.read`: bytes, none of them at the end of the stream, or an error. -/
inductive ReadResult
  | ok (bytes : Bytes)
  | error
  deriving DecidableEq

/-- `broadcast_rx.recv`. -/
inductive RecvResult
  | ok (message : BroadcastMessage)
  | lagged
  | closed
  deriving DecidableEq

section Loop
variable (address : SocketAddr)

/-- An error of a packet's handler is only logged. -/
def deliver (packet : Packet) : HandlerM PUnit := do
  let _ ← (handlePacket address packet).run
  pure ()

/-- Process all complete packets in the buffer. -/
def drainPackets (packetBuffer : Bytes) : HandlerM Bytes :=
  Packet.framer.drain (deliver address) packetBuffer

/-- The read branch of the `select!`. -/
def handleRead (packetBuffer : Bytes) : ReadResult → HandlerM Outcome
  | .ok [] => do
    handleDisconnect address
    return .exit .eof
  | .ok bytes => do
    return .proceed (← drainPackets address (packetBuffer ++ bytes))
  | .error => do
    handleDisconnect address
    return .exit .readError

/-- The broadcast branch of the `select!`. -/
def handleRecv (packetBuffer : Bytes) : RecvResult → HandlerM Outcome
  | .ok message => do
    match ← (handleBroadcastMessage address message).run with
    | .ok () => return .proceed packetBuffer
    | .error _ => return .exit .broadcastWriteFailed
  | .lagged => return .proceed packetBuffer
  | .closed => return .exit .broadcastClosed

end Loop

/-! ## The programs, operation by operation -/

/-- Write, and go on if all of it was written. -/
def writing (data : Bytes) (k : HandlerM (Except ServerError Unit)) :
    HandlerM (Except ServerError Unit) :=
  .op (.write data) fun written => if written then k else .ret (.error .io)

/-- Encode and broadcast, and go on. -/
def announcing {A : Type} (exclude : Option SocketAddr) (packet : Packet) (k : HandlerM A) :
    HandlerM A :=
  .op (.encode packet) fun data => .op (.broadcast ⟨exclude,data⟩) fun _ => k

theorem writeAll_run (data : Bytes) (f : Unit → Fallible Unit) :
    (writeAll data >>= f).run = writing data (f ()).run := by
  refine congrArg (Proc.op _) (funext fun written => ?_)
  cases written <;> rfl

theorem writeAll_run_last (data : Bytes) : (writeAll data).run = writing data (.ret (.ok ())) := by
  refine congrArg (Proc.op _) (funext fun written => ?_)
  cases written <;> rfl

/-- A program without errors in front of one with errors. -/
theorem liftM_run {A : Type} (p : HandlerM A) (f : A → Fallible Unit) :
    (liftM p >>= f).run = p >>= fun a => (f a).run :=
  Proc.bind_bind p (fun a => .ret (.ok a : Except ServerError A)) (ExceptT.bindCont f)

theorem handlePingRequest_run (requestId : UInt64) : (handlePingRequest requestId).run =
    .op (.encode (.pingResponse requestId)) fun data => writing data (.ret (.ok ())) := by
  refine congrArg (Proc.op _) (funext fun data => ?_)
  exact writeAll_run_last data

section Programs
variable (address : SocketAddr)

theorem handleLoginRequest_run_invalid {username : String} (h : validUsername username = false)
    (requestId : UInt64) : (handleLoginRequest address requestId username).run =
      .op (.encode (.loginResponse requestId 0 0 [])) fun data => writing data (.ret (.ok ())) := by
  simp only [handleLoginRequest,h]
  refine congrArg (Proc.op _) (funext fun data => ?_)
  exact writeAll_run_last data

theorem handleLoginRequest_run_valid {username : String} (h : validUsername username = true)
    (requestId : UInt64) : (handleLoginRequest address requestId username).run =
      .op (.getMut address fun user => { user with username := some username }) fun
        | none => .ret (.error (.userNotFound address))
        | some user => collectParticipants >>= fun participants =>
          .op (.encode (.loginResponse requestId user.id user.token participants)) fun data =>
            writing data (announcing (some address)
              (.userJoinedServer ⟨user.id,username,false,false⟩) (.ret (.ok ()))) := by
  simp only [handleLoginRequest,h]
  refine congrArg (Proc.op _) (funext fun record => ?_)
  cases record with
  | none => rfl
  | some user =>
    refine (liftM_run collectParticipants _).trans ?_
    refine congrArg (Proc.bind collectParticipants) (funext fun participants => ?_)
    refine congrArg (Proc.op _) (funext fun data => ?_)
    exact writeAll_run data _

theorem changeVoice_run (inVoice : Bool) (response : Packet) (event : UInt64 → Event)
    (announcement : UInt64 → Packet) :
    (changeVoice address inVoice response event announcement).run =
      .op (.getMut address fun user => { user with inVoice := inVoice, isMuted := false }) fun
        | none => .ret (.error (.userNotFound address))
        | some user => .op (.encode response) fun data =>
          writing data (.op (.send (event user.id)) fun _ =>
            announcing (some address) (announcement user.id) (.ret (.ok ()))) := by
  refine congrArg (Proc.op _) (funext fun record => ?_)
  cases record with
  | none => rfl
  | some user =>
    refine congrArg (Proc.op _) (funext fun data => ?_)
    exact writeAll_run data _

theorem handleChatMessageRequest_run (requestId : UInt64) (message : String) :
    (handleChatMessageRequest address requestId message).run =
      .op (.get address) fun
        | none => .ret (.error (.userNotFound address))
        | some user => .op (.encode (.chatMessageResponse requestId true)) fun data =>
          writing data (.op .now fun timestamp =>
            announcing none (.userSentMessage user.id timestamp message) (.ret (.ok ()))) := by
  refine congrArg (Proc.op _) (funext fun record => ?_)
  cases record with
  | none => rfl
  | some user =>
    refine congrArg (Proc.op _) (funext fun data => ?_)
    exact writeAll_run data _

theorem handleUserMuteState_run (userId : UInt64) (isMuted : Bool) :
    (handleUserMuteState address userId isMuted).run =
      .op (.getMut address fun user => { user with isMuted := isMuted }) fun
        | none => .ret (.error (.userNotFound address))
        | some _ => announcing (some address) (.userMuteState userId isMuted) (.ret (.ok ())) := by
  refine congrArg (Proc.op _) (funext fun record => ?_)
  cases record <;> rfl

theorem handleDisconnect_eq : handleDisconnect address =
    .op (.remove address) fun
      | none => .ret ()
      | some user => announcing none (.userLeftServer user.id)
        (if user.inVoice then announcing none (.userLeftVoice user.id) (.ret ()) else .ret ()) := by
  refine congrArg (Proc.op _) (funext fun record => ?_)
  cases record <;> rfl

theorem handleBroadcastMessage_run (message : BroadcastMessage) :
    (handleBroadcastMessage address message).run =
      if message.shouldSendTo address then writing message.data (.ret (.ok ())) else .ret (.ok ()) := by
  unfold handleBroadcastMessage
  split
  · exact writeAll_run_last message.data
  · rfl

theorem handleRecv_sent {message : BroadcastMessage} (h : message.shouldSendTo address = true)
    (packetBuffer : Bytes) : handleRecv address packetBuffer (.ok message) =
      .op (.write message.data) fun written =>
        if written then .ret (.proceed packetBuffer) else .ret (.exit .broadcastWriteFailed) := by
  simp only [handleRecv]
  rw [handleBroadcastMessage_run,if_pos h]
  refine congrArg (Proc.op _) (funext fun written => ?_)
  cases written <;> rfl

theorem handleRecv_filtered {message : BroadcastMessage} (h : message.shouldSendTo address = false)
    (packetBuffer : Bytes) :
    handleRecv address packetBuffer (.ok message) = .ret (.proceed packetBuffer) := by
  simp only [handleRecv]
  rw [handleBroadcastMessage_run,h]
  rfl

theorem drainPackets_eq (packetBuffer : Bytes) : drainPackets address packetBuffer =
    forM (Packet.framer.split packetBuffer).1 (deliver address) >>= fun _ =>
      .ret (Packet.framer.split packetBuffer).2 :=
  Packet.framer.drain_eq (deliver address) packetBuffer

theorem split_single {packet : Packet} {data : Bytes} (h : packet.encode = some data) :
    Packet.framer.split data = ([packet],[]) := by
  have hsplit := Packet.framer_encodes.split_append h []
  rwa [List.append_nil,Packet.framer_encodes.split_nil] at hsplit

/-- A read that completes exactly one packet. -/
theorem handleRead_single {packet : Packet} {data : Bytes} (h : packet.encode = some data) :
    handleRead address [] (.ok data) =
      deliver address packet >>= fun _ => .ret (.proceed []) := by
  have hsplit := split_single h
  cases data with
  | nil =>
    have hlen := Packet.encode_length h
    rw [List.length_nil] at hlen
    omega
  | cons byte rest =>
    change drainPackets address (byte :: rest) >>= _ = _
    rw [drainPackets_eq,hsplit,List.forM_cons,List.forM_nil]
    simp only [bind_assoc,Proc.pure_eq,Proc.ret_bind]

/-- The program behind a packet that arrives alone in one read. -/
theorem handleRead_packet {packet : Packet} {data : Bytes} (h : packet.encode = some data) :
    handleRead address [] (.ok data) =
      (handlePacket address packet).run >>= fun _ => .ret (.proceed []) := by
  rw [handleRead_single address h]
  exact Proc.bind_bind _ _ _

/-- The program behind a valid login request that arrives alone in one read. -/
theorem handleRead_login {requestId : UInt64} {username : String} {data : Bytes}
    (h : (Packet.loginRequest requestId username).encode = some data) (hv : validUsername username = true) :
    handleRead address [] (.ok data) =
      .op (.getMut address fun user => { user with username := some username }) fun
        | none => .ret (.proceed [])
        | some user => .op .keys fun addresses =>
          addresses.mapM (fun a => perform (.read a)) >>= fun records =>
            .op (.encode (.loginResponse requestId user.id user.token
              (records.filterMap fun r => r.bind User.participant)))
              fun data => writing data (announcing (some address)
                (.userJoinedServer ⟨user.id,username,false,false⟩) (.ret (.ok ()))) >>= fun _ =>
                  .ret (.proceed []) := by
  rw [handleRead_packet address h]
  change (handleLoginRequest _ _ _).run >>= _ = _
  rw [handleLoginRequest_run_valid address hv]
  refine congrArg (Proc.op _) (funext fun record => ?_)
  cases record with
  | none => rfl
  | some user =>
    refine congrArg (Proc.op _) (funext fun addresses => ?_)
    change (addresses.mapM (fun a => perform (.read a)) >>= _ >>= _) >>= _ = _
    simp only [bind_assoc]
    rfl

/-- A mute state can be sent, and arrives in one read. -/
theorem encode_userMuteState (userId : UInt64) (isMuted : Bool) :
    ∃ data, (Packet.userMuteState userId isMuted).encode = some data ∧ data.length ≤ packetBufferSize := by
  obtain ⟨data,hdata⟩ := Packet.plain_encodes (.userMuteState userId isMuted) rfl rfl
    (by simp [Packet.payloadLen])
  refine ⟨data,hdata,?_⟩
  rw [Packet.encode_length hdata,Packet.payloadLen,packetBufferSize]
  decide

/-- The program behind a mute state that arrives alone in one read. -/
theorem handleRead_userMuteState {userId : UInt64} {isMuted : Bool} {data : Bytes}
    (h : (Packet.userMuteState userId isMuted).encode = some data) :
    handleRead address [] (.ok data) =
      .op (.getMut address fun user => { user with isMuted := isMuted }) fun
        | none => .ret (.proceed [])
        | some _ => announcing (some address) (.userMuteState userId isMuted) (.ret (.proceed [])) := by
  rw [handleRead_packet address h,handlePacket,handleUserMuteState_run]
  refine congrArg (Proc.op _) (funext fun record => ?_)
  cases record <;> rfl

/-- The program behind a request to join that arrives alone in one read. -/
theorem handleRead_joinVoiceChannelRequest {requestId : UInt64} {data : Bytes}
    (h : (Packet.joinVoiceChannelRequest requestId).encode = some data) :
    handleRead address [] (.ok data) =
      .op (.getMut address fun user => { user with inVoice := true, isMuted := false }) fun
        | none => .ret (.proceed [])
        | some user => .op (.encode (.joinVoiceChannelResponse requestId true)) fun data =>
          writing data (.op (.send (.voiceJoined user.id)) fun _ =>
            announcing (some address) (.userJoinedVoice user.id) (.ret (.ok ()))) >>= fun _ =>
              .ret (.proceed []) := by
  rw [handleRead_packet address h]
  change (changeVoice _ _ _ _ _).run >>= _ = _
  rw [changeVoice_run]
  refine congrArg (Proc.op _) (funext fun record => ?_)
  cases record <;> rfl

end Programs

/-! ## The read branch under any discipline -/

section Discipline
variable {G : Type} {D : Discipline Op Op.Res G} {address : SocketAddr} {packetBuffer : Bytes} {g : G}
  (I : List Packet → G → Prop) (hstable : ∀ left g g', D.rely g g' → I left g → I left g')
  (hpacket : ∀ packet left g, I (packet :: left) g →
    D.wp (fun _ => I left) (handlePacket address packet).run g)
include hstable hpacket

/-- The loop over the packets of a buffer keeps an invariant on those that are left. -/
theorem drainPackets_wp (h : I (Packet.framer.split packetBuffer).1 g) :
    D.wp (fun kept g' => kept = (Packet.framer.split packetBuffer).2 ∧ I [] g')
      (drainPackets address packetBuffer) g := by
  rw [drainPackets_eq]
  have hdeliver : ∀ packet left g, I (packet :: left) g →
      D.wp (fun _ => I left) (deliver address packet) g := by
    intro packet left g h
    refine Discipline.wp_bind (Discipline.wp_mono ?_ (hpacket packet left g h))
    intro _ g' h'
    exact Discipline.wp_ret (hstable left) h'
  refine Discipline.wp_bind (Discipline.wp_mono ?_ (Discipline.wp_forM I hstable hdeliver _ g h))
  intro _ g' h'
  exact Discipline.wp_ret (fun _ _ hr h => ⟨h.1,hstable [] _ _ hr h.2⟩) ⟨rfl,h'⟩

/-- The packets that a read completes are handled one by one, or the task takes its leave. -/
theorem handleRead_wp {post : Outcome → G → Prop} {r : ReadResult}
    (hpost : ∀ outcome g g', D.rely g g' → post outcome g → post outcome g')
    (hleave : ∀ e, r = .ok [] ∧ e = .eof ∨ r = .error ∧ e = .readError →
      D.wp (fun _ => post (.exit e)) (handleDisconnect address) g)
    (hpackets : ∀ byte rest, r = .ok (byte :: rest) →
      I (Packet.framer.split (packetBuffer ++ byte :: rest)).1 g)
    (hdone : ∀ byte rest, r = .ok (byte :: rest) → ∀ g', I [] g' →
      post (.proceed (Packet.framer.split (packetBuffer ++ byte :: rest)).2) g') :
    D.wp post (handleRead address packetBuffer r) g := by
  have hexit : ∀ e, r = .ok [] ∧ e = .eof ∨ r = .error ∧ e = .readError →
      D.wp post (handleDisconnect address >>= fun _ => .ret (.exit e)) g := by
    intro e he
    refine Discipline.wp_bind (Discipline.wp_mono ?_ (hleave e he))
    intro _ g' h'
    exact Discipline.wp_ret (hpost _) h'
  cases r with
  | error => exact hexit .readError (.inr ⟨rfl,rfl⟩)
  | ok bytes =>
    cases bytes with
    | nil => exact hexit .eof (.inl ⟨rfl,rfl⟩)
    | cons byte rest =>
      refine Discipline.wp_bind (Discipline.wp_mono ?_
        (drainPackets_wp I hstable hpacket (hpackets byte rest rfl)))
      rintro kept g' ⟨rfl,h'⟩
      exact Discipline.wp_ret (hpost _) (hdone byte rest rfl g' h')

end Discipline
end VoiceApp.Management
