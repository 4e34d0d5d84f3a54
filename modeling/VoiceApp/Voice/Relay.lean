import VoiceApp.Base.LabelledRun
import VoiceApp.Protocol.RoundTrip
import VoiceApp.Server.Event

/-! # The voice relay

The relay owns two concurrent maps and serves one event or one datagram at a time.
Every place where it iterates over a map takes the order of that iteration as an
argument; a run may use any enumeration. `none` is a panic of the relay's task.
-/
namespace VoiceApp.Voice
open Protocol Server

/-- An authenticated voice session for UDP communication. -/
structure VoiceSession where
  token : UInt64
  inVoice : Bool
  udpAddress : Option SocketAddr
  deriving DecidableEq

structure VoiceRelayServer where
  sessions : Table UInt64 VoiceSession
  idsByAddresses : Table SocketAddr UInt64

/-- One `send_to`: the bytes and their destination. -/
abbrev Send := Bytes × SocketAddr

namespace VoiceRelayServer

def new : VoiceRelayServer := ⟨∅,∅⟩

/-- `if let Some(mut session) = sessions.get_mut(&id) { session.in_voice = value; }` -/
def setInVoice (s : VoiceRelayServer) (id : UInt64) (value : Bool) : VoiceRelayServer :=
  { s with sessions := s.sessions.modify id fun session => { session with inVoice := value } }

/-- The event arm of `run`; `cache` is the iteration over `ids_by_addresses`. -/
def handleEvent (cache : List (SocketAddr × UInt64)) (s : VoiceRelayServer) :
    Event → VoiceRelayServer
  | .userConnected id token => { s with sessions := s.sessions.insert id ⟨token,false,none⟩ }
  | .voiceJoined id => s.setInVoice id true
  | .voiceLeft id => s.setInVoice id false
  | .userDisconnected id =>
    let address := (cache.find? fun e => e.2 == id).map Prod.fst
    { sessions := s.sessions.erase id
      idsByAddresses := match address with
        | some a => s.idsByAddresses.erase a
        | none => s.idsByAddresses }

/-- Forward a voice packet under the sender's own id; `iter` is the iteration over
`sessions`, and a recipient without an address is the failing `unwrap`. -/
def forwardVoicePacket (iter : List (UInt64 × VoiceSession)) (userId : UInt64)
    (sequence timestamp : UInt32) (data : Bytes) : Option (List Send) := do
  let encodedPacket ← (Packet.voiceData userId sequence timestamp data).encode
  let recipients ← (iter.filter fun e => e.2.inVoice && e.1 != userId).mapM fun e => e.2.udpAddress
  return recipients.map fun addr => (encodedPacket,addr)

/-- Authenticate a UDP source from the token it presented; `session` is a copy. -/
def authenticate (s : VoiceRelayServer) (srcAddr : SocketAddr) (userId : UInt64)
    (session : VoiceSession) (requestId voiceToken : UInt64) :
    Option (VoiceRelayServer × List Send) := do
  let tokenValid := session.token == voiceToken
  let s' : VoiceRelayServer :=
    if tokenValid then
      { sessions := s.sessions.insert userId { session with udpAddress := some srcAddr }
        idsByAddresses := s.idsByAddresses.insert srcAddr userId }
    else s
  let responseData ← (Packet.voiceAuthResponse requestId tokenValid).encode
  return (s',[(responseData,srcAddr)])

def handlePacket (iter : List (UInt64 × VoiceSession)) (s : VoiceRelayServer) (srcAddr : SocketAddr)
    (packetData : Bytes) : Option (VoiceRelayServer × List Send) :=
  match Packet.decode packetData with
  | .ok (.voiceAuthRequest requestId voiceToken,_) =>
    match iter.find? fun e => e.2.token == voiceToken with
    | some (userId,session) => s.authenticate srcAddr userId session requestId voiceToken
    | none => some (s,[])
  | .ok (.voiceData _ sequence timestamp data,_) =>
    match s.idsByAddresses.lookup srcAddr with
    | some userId => (forwardVoicePacket iter userId sequence timestamp data).map fun sends => (s,sends)
    | none => some (s,[])
  | .ok _ => some (s,[])
  | .error _ => some (s,[])

end VoiceRelayServer

/-- What `select!` hands to the relay. A datagram is any byte string from any source. -/
inductive Input
  | event (e : Event)
  | datagram (src : SocketAddr) (bytes : Bytes)
  | receiveError

/-- The part of a datagram that fits the receive buffer. -/
def received (bytes : Bytes) : Bytes := bytes.take packetBufferSize

/-- One turn of the relay's loop, with what it sends. -/
inductive Step : VoiceRelayServer → Input × List Send → VoiceRelayServer → Prop
  | event {s e cache} (hc : Table.Enumerates s.idsByAddresses cache) :
      Step s (.event e,[]) (s.handleEvent cache e)
  | datagram {s src bytes iter s' sends} (hi : Table.Enumerates s.sessions iter)
      (h : s.handlePacket iter src (received bytes) = some (s',sends)) :
      Step s (.datagram src bytes,sends) s'
  | receiveError {s} : Step s (.receiveError,[]) s

/-- Some iteration order makes the relay's task panic on this datagram. -/
def Panics (s : VoiceRelayServer) (src : SocketAddr) (bytes : Bytes) : Prop :=
  ∃ iter, Table.Enumerates s.sessions iter ∧ s.handlePacket iter src (received bytes) = none

abbrev Trace := List (Input × List Send)

namespace VoiceRelayServer

/-! ## What the operations change -/

theorem setInVoice_lookup (s : VoiceRelayServer) (id id' : UInt64) (value : Bool) :
    (s.setInVoice id value).sessions.lookup id' =
      if id' = id then (s.sessions.lookup id).map fun session => { session with inVoice := value }
      else s.sessions.lookup id' :=
  Table.lookup_modify _ _ _ _

@[simp] theorem setInVoice_idsByAddresses (s : VoiceRelayServer) (id : UInt64) (value : Bool) :
    (s.setInVoice id value).idsByAddresses = s.idsByAddresses := rfl

/-- A packet accepted from a receive buffer can be forwarded under any id. -/
theorem encode_forwarded (userId : UInt64) {b : Bytes} {claimed : UInt64}
    {sequence timestamp : UInt32} {data : Bytes} {n : ℕ}
    (h : Packet.decode b = .ok (.voiceData claimed sequence timestamp data,n)) :
    ∃ out, (Packet.voiceData userId sequence timestamp data).encode = some out ∧
      out.length ≤ b.length := by
  obtain ⟨out,hout,hlen⟩ := Packet.encode_of_decode h
  have hn := (Packet.decode_ok_bounds h).2
  have hdom := (Packet.encode_isSome_iff _).mp ⟨out,hout⟩
  obtain ⟨out',hout'⟩ := (Packet.encode_isSome_iff (.voiceData userId sequence timestamp data)).mpr hdom
  refine ⟨out',hout',?_⟩
  have h1 := Packet.encode_length hout
  have h2 := Packet.encode_length hout'
  simp only [Packet.payloadLen] at h1 h2
  omega

theorem encode_voiceAuthResponse (requestId : UInt64) (success : Bool) :
    ∃ out, (Packet.voiceAuthResponse requestId success).encode = some out :=
  Packet.plain_encodes _ rfl rfl (by simp [Packet.payloadLen])

/-- Everything that handling a datagram can do: authenticate a session whose token
was presented, forward voice data for the cached sender, or nothing. -/
inductive Handled (iter : List (UInt64 × VoiceSession)) (s : VoiceRelayServer) (src : SocketAddr)
    (b : Bytes) : Option (VoiceRelayServer × List Send) → Prop
  | authenticated {requestId voiceToken n userId session out}
      (hd : Packet.decode b = .ok (.voiceAuthRequest requestId voiceToken,n))
      (hf : iter.find? (fun e => e.2.token == voiceToken) = some (userId,session))
      (hout : (Packet.voiceAuthResponse requestId true).encode = some out) :
      Handled iter s src b (some
        ({ sessions := s.sessions.insert userId { session with udpAddress := some src }
           idsByAddresses := s.idsByAddresses.insert src userId },[(out,src)]))
  | forwarded {claimed sequence timestamp data n userId out recipients}
      (hd : Packet.decode b = .ok (.voiceData claimed sequence timestamp data,n))
      (hu : s.idsByAddresses.lookup src = some userId)
      (hout : (Packet.voiceData userId sequence timestamp data).encode = some out)
      (hr : (iter.filter fun e => e.2.inVoice && e.1 != userId).mapM (fun e => e.2.udpAddress) =
        some recipients) :
      Handled iter s src b (some (s,recipients.map fun addr => (out,addr)))
  | panicked {claimed sequence timestamp data n userId}
      (hd : Packet.decode b = .ok (.voiceData claimed sequence timestamp data,n))
      (hu : s.idsByAddresses.lookup src = some userId)
      (hr : (iter.filter fun e => e.2.inVoice && e.1 != userId).mapM (fun e => e.2.udpAddress) = none) :
      Handled iter s src b none
  | ignored
      (ha : ∀ requestId voiceToken n, Packet.decode b = .ok (.voiceAuthRequest requestId voiceToken,n) →
        iter.find? (fun e => e.2.token == voiceToken) = none)
      (hv : ∀ claimed sequence timestamp data n,
        Packet.decode b = .ok (.voiceData claimed sequence timestamp data,n) →
          s.idsByAddresses.lookup src = none) :
      Handled iter s src b (some (s,[]))

theorem handlePacket_handled (iter : List (UInt64 × VoiceSession)) (s : VoiceRelayServer)
    (src : SocketAddr) (b : Bytes) : Handled iter s src b (s.handlePacket iter src b) := by
  unfold handlePacket
  split
  · rename_i requestId voiceToken n hd
    split
    · rename_i userId session hf
      have htok := List.find?_some hf
      change (session.token == voiceToken) = true at htok
      obtain ⟨out,hout⟩ := encode_voiceAuthResponse requestId true
      simp only [authenticate,htok,if_true,hout]
      exact .authenticated hd hf hout
    · rename_i hf
      refine .ignored (fun _ _ _ hd' => ?_) fun _ _ _ _ _ hd' => ?_ <;> cases hd.symm.trans hd'
      exact hf
  · rename_i claimed sequence timestamp data n hd
    split
    · rename_i userId hu
      obtain ⟨out,hout,_⟩ := encode_forwarded userId hd
      simp only [forwardVoicePacket,hout,Option.bind_eq_bind,Option.bind_some]
      cases hr : (iter.filter fun e => e.2.inVoice && e.1 != userId).mapM fun e => e.2.udpAddress with
      | none => exact .panicked hd hu hr
      | some recipients => exact .forwarded hd hu hout hr
    · rename_i hu
      refine .ignored (fun _ _ _ hd' => ?_) fun _ _ _ _ _ hd' => ?_ <;> cases hd.symm.trans hd'
      exact hu
  · rename_i hauth hvoice hd
    refine .ignored (fun _ _ _ hd' => ?_) fun _ _ _ _ _ hd' => ?_ <;> cases hd.symm.trans hd'
    · exact (hauth _ _ _ rfl).elim
    · exact (hvoice _ _ _ _ _ rfl).elim
  · rename_i hd
    refine .ignored (fun _ _ _ hd' => ?_) fun _ _ _ _ _ hd' => ?_ <;> cases hd.symm.trans hd'

/-! ## Datagrams that get through -/

/-- A packet that fits the receive buffer is received as it was sent. -/
theorem decode_received {p : Packet} {b : Bytes} (h : p.encode = some b)
    (hlen : b.length ≤ packetBufferSize) : Packet.decode (received b) = .ok (p,b.length) := by
  rw [received,List.take_of_length_le hlen]
  exact Packet.decode_self h

theorem exists_voiceAuthRequest (requestId voiceToken : UInt64) :
    ∃ b n, Packet.decode (received b) = .ok (.voiceAuthRequest requestId voiceToken,n) := by
  obtain ⟨b,hb⟩ := Packet.plain_encodes (.voiceAuthRequest requestId voiceToken) rfl rfl
    (by simp [Packet.payloadLen])
  have hlen := Packet.encode_length hb
  refine ⟨b,_,decode_received hb ?_⟩
  simp only [hlen,Packet.payloadLen,packetBufferSize]
  omega

theorem exists_voiceData (claimed : UInt64) (sequence timestamp : UInt32) :
    ∃ b n, Packet.decode (received b) = .ok (.voiceData claimed sequence timestamp [],n) := by
  obtain ⟨b,hb⟩ := Packet.plain_encodes (.voiceData claimed sequence timestamp []) rfl rfl
    (by simp [Packet.payloadLen])
  have hlen := Packet.encode_length hb
  refine ⟨b,_,decode_received hb ?_⟩
  simp only [hlen,Packet.payloadLen,packetBufferSize,List.length_nil]
  omega

/-- A source that presents the token of a live session may be taken for that session. -/
theorem step_authenticates {s : VoiceRelayServer} (src : SocketAddr) (userId : UInt64)
    (session : VoiceSession) {b : Bytes} {n : ℕ} {requestId : UInt64}
    (hl : s.sessions.lookup userId = some session)
    (hd : Packet.decode (received b) = .ok (.voiceAuthRequest requestId session.token,n)) :
    ∃ sends, Step s (.datagram src b,sends)
      { sessions := s.sessions.insert userId { session with udpAddress := some src }
        idsByAddresses := s.idsByAddresses.insert src userId } := by
  obtain ⟨rest,hrest⟩ := Table.exists_enumeration s.sessions
  have hiter := hrest.insert userId session
  have hsame : s.sessions.insert userId session = s.sessions := by
    refine Finmap.ext_lookup fun id => ?_
    rw [Table.lookup_insert_eq]
    by_cases hid : id = userId
    · rw [if_pos hid,hid,hl]
    · rw [if_neg hid]
  rw [hsame] at hiter
  obtain ⟨out,hout⟩ := encode_voiceAuthResponse requestId true
  refine ⟨[(out,src)],.datagram hiter ?_⟩
  simp only [handlePacket,hd,List.find?_cons,beq_self_eq_true,authenticate,if_true,hout]
  rfl

/-- Voice data from an authenticated address goes to the addresses collected. -/
theorem step_forwards {s : VoiceRelayServer} (src : SocketAddr) (sender : UInt64)
    (recipients : List SocketAddr) {b : Bytes} {n : ℕ} {claimed : UInt64}
    {sequence timestamp : UInt32} {data : Bytes} {iter : List (UInt64 × VoiceSession)}
    (hd : Packet.decode (received b) = .ok (.voiceData claimed sequence timestamp data,n))
    (hsrc : s.idsByAddresses.lookup src = some sender) (hi : Table.Enumerates s.sessions iter)
    (hr : (iter.filter fun e => e.2.inVoice && e.1 != sender).mapM (fun e => e.2.udpAddress) =
      some recipients) :
    ∃ out, (Packet.voiceData sender sequence timestamp data).encode = some out ∧
      Step s (.datagram src b,recipients.map fun addr => (out,addr)) s := by
  obtain ⟨out,hout,_⟩ := encode_forwarded sender hd
  refine ⟨out,hout,.datagram hi ?_⟩
  simp only [handlePacket,hd,hsrc,forwardVoicePacket,hout,Option.bind_eq_bind,Option.bind_some,hr]
  rfl

/-- Voice data from an authenticated address panics as soon as somebody else is in
voice without an address. -/
theorem panics_of_unaddressed {s : VoiceRelayServer} (sender id : UInt64) (session : VoiceSession)
    {src : SocketAddr} {b : Bytes} {n : ℕ} {claimed : UInt64} {sequence timestamp : UInt32} {data : Bytes}
    (hd : Packet.decode (received b) = .ok (.voiceData claimed sequence timestamp data,n))
    (hsrc : s.idsByAddresses.lookup src = some sender) (hl : s.sessions.lookup id = some session)
    (hv : session.inVoice = true) (hne : id ≠ sender) (hnone : session.udpAddress = none) :
    Panics s src b := by
  obtain ⟨iter,hi⟩ := Table.exists_enumeration s.sessions
  refine ⟨iter,hi,?_⟩
  have hcase := handlePacket_handled iter s src (received b)
  cases hs : s.handlePacket iter src (received b) with
  | none => rfl
  | some result =>
    rw [hs] at hcase
    cases hcase with
    | authenticated hd' => cases hd.symm.trans hd'
    | forwarded hd' hu hout hr =>
      cases hsrc.symm.trans hu
      have hmem : (id,session) ∈ iter.filter fun e => e.2.inVoice && e.1 != sender :=
        List.mem_filter.mpr ⟨(hi.mem_iff id session).mpr hl,by simp [hv,hne]⟩
      have := (Table.mapM_eq_none fun e : UInt64 × VoiceSession => e.2.udpAddress).mpr
        ⟨(id,session),hmem,hnone⟩
      simp [this] at hr
    | ignored ha hv' => cases hsrc.symm.trans (hv' _ _ _ _ _ hd)

/-! ## A small run -/

/-- Two users that authenticated from one address each, with user 2 in voice. -/
def pair : VoiceRelayServer where
  sessions := (Finmap.insert 2 ⟨22,true,some (.v4 2 2)⟩ ∅).insert 1 ⟨11,false,some (.v4 1 1)⟩
  idsByAddresses := (Finmap.insert (.v4 2 2) 2 ∅).insert (.v4 1 1) 1

theorem pair_sessions : Table.Enumerates pair.sessions
    [(1,⟨11,false,some (.v4 1 1)⟩),(2,⟨22,true,some (.v4 2 2)⟩)] :=
  (Table.Enumerates.nil.insert 2 _).insert 1 _

theorem pair_idsByAddresses : Table.Enumerates pair.idsByAddresses [(.v4 1 1,1),(.v4 2 2,2)] :=
  (Table.Enumerates.nil.insert (SocketAddr.v4 2 2) 2).insert (.v4 1 1) 1

/-- The request of user 1. -/
theorem decode_request : Packet.decode (received [3,0,16,0,0,0,0,0,0,0,7,0,0,0,0,0,0,0,11]) =
    .ok (.voiceAuthRequest 7 11,19) := by decide

/-- Two bytes of voice. -/
theorem decode_speech : Packet.decode (received [97,0,18,0,0,0,0,0,0,0,0,0,0,0,5,0,0,0,9,1,2]) =
    .ok (.voiceData 0 5 9 [1,2],21) := by decide

theorem run_pair : ∃ sends2 sends1, Run Step new
    [(.event (.userConnected 1 11),[]),(.event (.userConnected 2 22),[]),
      (.datagram (.v4 2 2) [3,0,16,0,0,0,0,0,0,0,7,0,0,0,0,0,0,0,22],sends2),
      (.event (.voiceJoined 2),[]),
      (.datagram (.v4 1 1) [3,0,16,0,0,0,0,0,0,0,7,0,0,0,0,0,0,0,11],sends1)] pair := by
  have hd2 : Packet.decode (received [3,0,16,0,0,0,0,0,0,0,7,0,0,0,0,0,0,0,22]) =
    .ok (.voiceAuthRequest 7 22,19) := by decide
  let connected := (new.handleEvent [] (.userConnected 1 11)).handleEvent [] (.userConnected 2 22)
  obtain ⟨sends2,hauth2⟩ := step_authenticates (s := connected) (.v4 2 2) 2 ⟨22,false,none⟩
    (by decide) hd2
  let joined := VoiceRelayServer.handleEvent [(SocketAddr.v4 2 2,(2 : UInt64))]
    ⟨connected.sessions.insert 2 ⟨22,false,some (.v4 2 2)⟩,(∅ : Table _ _).insert (.v4 2 2) 2⟩
    (.voiceJoined 2)
  obtain ⟨sends1,hauth1⟩ := step_authenticates (s := joined) (.v4 1 1) 1 ⟨11,false,none⟩
    (by decide) decode_request
  have hsame : (⟨joined.sessions.insert 1 ⟨11,false,some (.v4 1 1)⟩,
      joined.idsByAddresses.insert (.v4 1 1) 1⟩ : VoiceRelayServer) = pair := by
    have hsessions : joined.sessions.insert 1 ⟨11,false,some (.v4 1 1)⟩ = pair.sessions := by decide
    rw [hsessions]
    rfl
  rw [← hsame]
  exact ⟨sends2,sends1,.snoc (.snoc (.snoc (.snoc (.snoc .refl (.event .nil)) (.event .nil)) hauth2)
    (.event (Table.Enumerates.nil.insert (SocketAddr.v4 2 2) (2 : UInt64)))) hauth1⟩

end VoiceRelayServer
end VoiceApp.Voice
