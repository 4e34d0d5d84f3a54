import VoiceApp.Sdk.VoiceClient
import VoiceApp.Voice.Provenance

/-! # Clients and relay over a network of datagrams

The network keeps every datagram that was ever sent and delivers any of them at any time, or
never: datagrams are lost, repeated and reordered. Other hosts send what they like. A
client's socket is connected to the relay and gets nothing else.
-/
namespace VoiceApp.System
open Protocol Server
open Sdk (VoiceClient VoiceData UdpClient OpusEncoder AudioResampler VoiceError)

/-- The relay, the clients, and all datagrams sent to the relay and by the relay. -/
structure VoiceNetwork (P S R F : Type) where
  relay : Voice.VoiceRelayServer
  clients : P → VoiceClient S R F
  uplink : List (SocketAddr × Bytes)
  downlink : List Voice.Send

namespace VoiceNetwork
variable {P S R F : Type}

def new : VoiceNetwork P S R F := ⟨.new,fun _ => .new,[],[]⟩

inductive Label (P F : Type)
  | relay (input : Voice.Input) (sends : List Voice.Send)
  | other (src : SocketAddr) (bytes : Bytes)
  | client (p : P) (label : VoiceClient.Label F)

section Steps
variable [DecidableEq P] [Zero F] (opus : OpusEncoder S F) (rubato : AudioResampler R F)
  (newEncoder : Except VoiceError S) (newResampler : UInt32 → Except VoiceError R)

inductive Step (w : VoiceNetwork P S R F) : Label P F → VoiceNetwork P S R F → Prop
  | relay {input sends r} (h : Voice.Step w.relay (input,sends) r)
      (hlink : ∀ src bytes, input = .datagram src bytes → (src,bytes) ∈ w.uplink) :
      Step w (.relay input sends) { w with relay := r, downlink := w.downlink ++ sends }
  | other {src bytes} : Step w (.other src bytes) { w with uplink := w.uplink ++ [(src,bytes)] }
  | client {p label v} (h : VoiceClient.Step opus rubato newEncoder newResampler (w.clients p) label v)
      (hlink : ∀ d, (w.clients p).receives label = some d → d ∈ w.downlink) :
      Step w (.client p label)
        { w with
          clients := Function.update w.clients p v
          uplink := w.uplink ++ (w.clients p).sends label }

end Steps

/-- The steps of one client. -/
def Label.client? [DecidableEq P] (p : P) : Label P F → Option (VoiceClient.Label F)
  | .client q label => if q = p then some label else none
  | _ => none

/-- No two sockets ever have one address, and no other host sends from that of a client. -/
def Unshared (w : VoiceNetwork P S R F) : Label P F → Prop
  | .client _ (.connect addr) => (∀ q, addr ∉ (w.clients q).sockets) ∧ ∀ bytes, (addr,bytes) ∉ w.uplink
  | .other src _ => ∀ q, src ∉ (w.clients q).sockets
  | _ => True

/-- The relay has been told of the user with this token. -/
def Issued (trace : List (Label P F)) (userId voiceToken : UInt64) : Prop :=
  ∃ sends, Label.relay (.event (.userConnected userId voiceToken)) sends ∈ trace

/-- A request with this token has been sent from the address. -/
def Presented (w : VoiceNetwork P S R F) (src : SocketAddr) (voiceToken : UInt64) : Prop :=
  ∃ bytes requestId n, (src,bytes) ∈ w.uplink ∧
    Packet.decode (Voice.received bytes) = .ok (.voiceAuthRequest requestId voiceToken,n)

/-- The relay knows an address by a token that was presented from it. -/
structure Recorded (trace : List (Label P F)) (w : VoiceNetwork P S R F) : Prop where
  issued : ∀ userId session, w.relay.sessions.lookup userId = some session →
    Issued trace userId session.token
  cached : ∀ src userId, w.relay.idsByAddresses.lookup src = some userId →
    ∃ voiceToken, Issued trace userId voiceToken ∧ w.Presented src voiceToken
  addressed : ∀ userId session addr, w.relay.sessions.lookup userId = some session →
    session.udpAddress = some addr → w.Presented addr session.token

/-- What a client has been sent. -/
def Reached (w : VoiceNetwork P S R F) (p : P) (packet : Packet) : Prop :=
  ∃ bytes addr n, (bytes,addr) ∈ w.downlink ∧ addr ∈ (w.clients p).sockets ∧
    Packet.decode (UdpClient.received bytes) = .ok (packet,n)

/-- In this step of the relay the packet is sent to the socket of a client. -/
def SendsTo (w : VoiceNetwork P S R F) (input : Voice.Input) (sends : List Voice.Send) (p : P)
    (addr : SocketAddr) (packet : Packet) : Prop :=
  (∃ r, Voice.Step w.relay (input,sends) r) ∧ addr ∈ (w.clients p).sockets ∧
    ∃ bytes n, (bytes,addr) ∈ sends ∧ Packet.decode (UdpClient.received bytes) = .ok (packet,n)

/-- Datagrams come from the owners of their addresses. -/
structure Carried (trace : List (Label P F)) (w : VoiceNetwork P S R F) : Prop where
  owner : ∀ p q addr, addr ∈ (w.clients p).sockets → addr ∈ (w.clients q).sockets → p = q
  up : ∀ p src bytes, (src,bytes) ∈ w.uplink → src ∈ (w.clients p).sockets →
    bytes ∈ (w.clients p).udp.sendTx
  others : ∀ src bytes, (src,bytes) ∈ w.uplink → (∀ p, src ∉ (w.clients p).sockets) →
    .other src bytes ∈ trace
  handed : ∀ p, ∀ packet ∈ (w.clients p).udp.handler.packetTx, w.Reached p packet
  answered : ∀ p tx packet, (tx,packet) ∈ (w.clients p).udp.answered → w.Reached p packet

/-- What a client has behind a step goes on from what it had before. -/
structure Moves (w : VoiceNetwork P S R F) (label : Label P F) (w' : VoiceNetwork P S R F) (p : P) :
    Prop where
  sent : ∃ more, (w'.clients p).udp.sendTx = (w.clients p).udp.sendTx ++ more
  sockets : (w'.clients p).sockets = (w.clients p).sockets ∨ ∃ addr,
    label = .client p (.connect addr) ∧ (w'.clients p).sockets = (w.clients p).sockets ++ [addr]
  handed : ∀ packet ∈ (w'.clients p).udp.handler.packetTx,
    packet ∈ (w.clients p).udp.handler.packetTx ∨ w.Reached p packet
  answered : ∀ tx packet, (tx,packet) ∈ (w'.clients p).udp.answered →
    (tx,packet) ∈ (w.clients p).udp.answered ∨ w.Reached p packet

/-- The token of the user is known to one client, which alone presents it. -/
structure Confidential (p : P) (userId secret : UInt64) [DecidableEq P] (trace : List (Label P F)) :
    Prop where
  issued : ∀ voiceToken, Issued trace userId voiceToken → voiceToken = secret
  others : ∀ src bytes, .other src bytes ∈ trace → ∀ requestId n,
    Packet.decode (Voice.received bytes) ≠ .ok (.voiceAuthRequest requestId secret,n)
  clients : ∀ q, secret ∈ VoiceClient.presented (trace.filterMap (Label.client? q)) → q = p

/-! ## What the relay records -/

/-- A session keeps its token. -/
theorem relay_token {r r' : Voice.VoiceRelayServer} {input : Voice.Input} {sends : List Voice.Send}
    (h : Voice.Step r (input,sends) r') {id : UInt64} {session : Voice.VoiceSession}
    (hl : r'.sessions.lookup id = some session) :
    input = .event (.userConnected id session.token) ∧ session.udpAddress = none ∨
      ∃ before, r.sessions.lookup id = some before ∧ before.token = session.token ∧
        (before.udpAddress = session.udpAddress ∨ ∃ src bytes requestId n,
          input = .datagram src bytes ∧ session.udpAddress = some src ∧
          Packet.decode (Voice.received bytes) = .ok (.voiceAuthRequest requestId session.token,n)) := by
  cases h with
  | receiveError => exact .inr ⟨session,hl,rfl,.inl rfl⟩
  | @event e cache hc =>
    cases e with
    | userConnected id' token =>
      simp only [Voice.VoiceRelayServer.handleEvent,Table.lookup_insert_eq] at hl
      split at hl
      · rename_i hid
        cases hl
        rw [hid]
        exact .inl ⟨rfl,rfl⟩
      · exact .inr ⟨session,hl,rfl,.inl rfl⟩
    | voiceJoined id' =>
      rw [Voice.VoiceRelayServer.handleEvent,Voice.VoiceRelayServer.setInVoice_lookup] at hl
      split at hl
      · rename_i hid
        obtain ⟨before,hbefore,rfl⟩ := Option.map_eq_some_iff.mp hl
        rw [hid]
        exact .inr ⟨before,hbefore,rfl,.inl rfl⟩
      · exact .inr ⟨session,hl,rfl,.inl rfl⟩
    | voiceLeft id' =>
      rw [Voice.VoiceRelayServer.handleEvent,Voice.VoiceRelayServer.setInVoice_lookup] at hl
      split at hl
      · rename_i hid
        obtain ⟨before,hbefore,rfl⟩ := Option.map_eq_some_iff.mp hl
        rw [hid]
        exact .inr ⟨before,hbefore,rfl,.inl rfl⟩
      · exact .inr ⟨session,hl,rfl,.inl rfl⟩
    | userDisconnected id' =>
      simp only [Voice.VoiceRelayServer.handleEvent,Table.lookup_erase_eq] at hl
      split at hl
      · cases hl
      · exact .inr ⟨session,hl,rfl,.inl rfl⟩
  | @datagram src b iter _ _ hi h =>
    have hcase := Voice.VoiceRelayServer.handlePacket_handled iter r src (Voice.received b)
    rw [h] at hcase
    cases hcase with
    | @authenticated requestId voiceToken n userId before out hd hf hout =>
      simp only [Table.lookup_insert_eq] at hl
      split at hl
      · rename_i hid
        cases hl
        obtain ⟨hbefore,htoken⟩ := hi.find?_some hf
        rw [← eq_of_beq htoken] at hd
        rw [hid]
        exact .inr ⟨before,hbefore,rfl,.inr ⟨src,b,requestId,n,rfl,rfl,hd⟩⟩
      · exact .inr ⟨session,hl,rfl,.inl rfl⟩
    | forwarded => exact .inr ⟨session,hl,rfl,.inl rfl⟩
    | ignored => exact .inr ⟨session,hl,rfl,.inl rfl⟩

/-- An address is cached by the datagram that presents the token of a session from it. -/
theorem relay_cached {r r' : Voice.VoiceRelayServer} {input : Voice.Input} {sends : List Voice.Send}
    (h : Voice.Step r (input,sends) r') {src : SocketAddr} {userId : UInt64}
    (hl : r'.idsByAddresses.lookup src = some userId) :
    r.idsByAddresses.lookup src = some userId ∨ ∃ bytes session requestId n,
      input = .datagram src bytes ∧ r.sessions.lookup userId = some session ∧
      Packet.decode (Voice.received bytes) = .ok (.voiceAuthRequest requestId session.token,n) := by
  cases h with
  | receiveError => exact .inl hl
  | event hc => exact .inl (Voice.VoiceRelayServer.handleEvent_lookup hl)
  | @datagram origin b iter _ _ hi h =>
    have hcase := Voice.VoiceRelayServer.handlePacket_handled iter r origin (Voice.received b)
    rw [h] at hcase
    cases hcase with
    | @authenticated requestId voiceToken n id session out hd hf hout =>
      simp only [Table.lookup_insert_eq] at hl
      split at hl
      · rename_i hsrc
        cases hl
        obtain ⟨hses,htoken⟩ := hi.find?_some hf
        rw [← eq_of_beq htoken] at hd
        rw [hsrc]
        exact .inr ⟨b,session,requestId,n,rfl,hses,hd⟩
      · exact .inl hl
    | forwarded => exact .inl hl
    | ignored => exact .inl hl

theorem Issued.snoc {trace : List (Label P F)} {userId voiceToken : UInt64}
    (h : Issued trace userId voiceToken) (label : Label P F) :
    Issued (trace ++ [label]) userId voiceToken := by
  obtain ⟨sends,hmem⟩ := h
  exact ⟨sends,List.mem_append_left _ hmem⟩

theorem Presented.mono {w w' : VoiceNetwork P S R F} {src : SocketAddr} {voiceToken : UInt64}
    (h : w.Presented src voiceToken) {more : List (SocketAddr × Bytes)}
    (hup : w'.uplink = w.uplink ++ more) : w'.Presented src voiceToken := by
  obtain ⟨bytes,requestId,n,hmem,hd⟩ := h
  refine ⟨bytes,requestId,n,?_,hd⟩
  rw [hup]
  exact List.mem_append_left _ hmem

theorem Recorded.mono {trace : List (Label P F)} {w w' : VoiceNetwork P S R F} (h : Recorded trace w)
    (label : Label P F) (hrelay : w'.relay = w.relay) {more : List (SocketAddr × Bytes)}
    (hup : w'.uplink = w.uplink ++ more) : Recorded (trace ++ [label]) w' := by
  constructor
  · intro userId session hl
    rw [hrelay] at hl
    exact (h.issued userId session hl).snoc label
  · intro src userId hl
    rw [hrelay] at hl
    obtain ⟨voiceToken,hissued,hpresented⟩ := h.cached src userId hl
    exact ⟨voiceToken,hissued.snoc label,hpresented.mono hup⟩
  · intro userId session addr hl haddr
    rw [hrelay] at hl
    exact (h.addressed userId session addr hl haddr).mono hup

/-- A turn of the relay, whose datagram is one that was sent. -/
theorem Recorded.relay {trace : List (Label P F)} {w : VoiceNetwork P S R F} {input : Voice.Input}
    {sends : List Voice.Send} {r : Voice.VoiceRelayServer} (h : Recorded trace w)
    (hstep : Voice.Step w.relay (input,sends) r)
    (hlink : ∀ src bytes, input = .datagram src bytes → (src,bytes) ∈ w.uplink) :
    Recorded (trace ++ [.relay input sends])
      { w with relay := r, downlink := w.downlink ++ sends } := by
  have hkept : ∀ {src voiceToken}, w.Presented src voiceToken →
      Presented { w with relay := r, downlink := w.downlink ++ sends } src voiceToken := fun hp => hp
  constructor
  · intro userId session hl
    rcases relay_token hstep hl with ⟨rfl,_⟩ | ⟨before,hbefore,htoken,_⟩
    · exact ⟨sends,List.mem_append_right _ (List.mem_singleton_self _)⟩
    · rw [← htoken]
      exact (h.issued userId before hbefore).snoc _
  · intro src userId hl
    rcases relay_cached hstep hl with hold | ⟨bytes,session,requestId,n,rfl,hsession,hd⟩
    · obtain ⟨voiceToken,hissued,hpresented⟩ := h.cached src userId hold
      exact ⟨voiceToken,hissued.snoc _,hkept hpresented⟩
    · exact ⟨session.token,(h.issued userId session hsession).snoc _,
        hkept ⟨bytes,requestId,n,hlink src bytes rfl,hd⟩⟩
  · intro userId session addr hl haddr
    rcases relay_token hstep hl with ⟨_,hnone⟩ | ⟨before,hbefore,htoken,hsame | hnew⟩
    · cases hnone.symm.trans haddr
    · rw [← htoken]
      exact hkept (h.addressed userId before addr hbefore (hsame.trans haddr))
    · obtain ⟨src,bytes,requestId,n,rfl,hsrc,hd⟩ := hnew
      cases hsrc.symm.trans haddr
      exact hkept ⟨bytes,requestId,n,hlink _ bytes rfl,hd⟩

section Runs
variable [DecidableEq P] [Zero F] {opus : OpusEncoder S F} {rubato : AudioResampler R F}
  {newEncoder : Except VoiceError S} {newResampler : UInt32 → Except VoiceError R}
  {trace : List (Label P F)} {w w' : VoiceNetwork P S R F} {label : Label P F}

theorem step_recorded (h : Recorded trace w) (hstep : Step opus rubato newEncoder newResampler w label w') :
    Recorded (trace ++ [label]) w' := by
  cases hstep with
  | relay hrelay hlink => exact h.relay hrelay hlink
  | other => exact h.mono _ rfl rfl
  | client => exact h.mono _ rfl rfl

omit [DecidableEq P] [Zero F] in
theorem recorded_new : Recorded ([] : List (Label P F)) (new : VoiceNetwork P S R F) := by
  constructor
  · intro userId session hl
    simp [new,Voice.VoiceRelayServer.new] at hl
  · intro src userId hl
    simp [new,Voice.VoiceRelayServer.new] at hl
  · intro userId session addr hl
    simp [new,Voice.VoiceRelayServer.new] at hl

theorem run_recorded (h : Run (Step opus rubato newEncoder newResampler) new trace w) :
    Recorded trace w := by
  induction h with
  | refl => exact recorded_new
  | snoc _ hs ih => exact step_recorded ih hs

/-- Each client makes a run of its own. -/
theorem run_client (h : Run (Step opus rubato newEncoder newResampler) new trace w) (p : P) :
    Run (VoiceClient.Step opus rubato newEncoder newResampler) VoiceClient.new
      (trace.filterMap (Label.client? p)) (w.clients p) := by
  refine h.project (fun w => w.clients p) (Label.client? p) ?_ ?_
  · intro w label w' l hs hl
    cases hs with
    | relay => cases hl
    | other => cases hl
    | @client q label v hclient hlink =>
      simp only [Label.client?] at hl
      split at hl
      · rename_i hq
        cases hl
        subst hq
        change VoiceClient.Step _ _ _ _ _ _ (Function.update w.clients q v q)
        rw [Function.update_self]
        exact hclient
      · cases hl
  · intro w label w' hs hl
    cases hs with
    | relay => rfl
    | other => rfl
    | @client q label v hclient hlink =>
      simp only [Label.client?] at hl
      split at hl
      · cases hl
      · rename_i hq
        exact Function.update_of_ne (Ne.symm hq) _ _

theorem run_sound (h : Run (Step opus rubato newEncoder newResampler) new trace w) (p : P) :
    VoiceClient.Sound (trace.filterMap (Label.client? p)) (w.clients p) :=
  VoiceClient.run_sound (run_client h p)

omit [Zero F] in
/-- After a step of one client. -/
theorem client_update (w : VoiceNetwork P S R F) (p q : P) (v : VoiceClient S R F) :
    Function.update w.clients p v q = if q = p then v else w.clients q := by
  by_cases hq : q = p
  · rw [if_pos hq,hq,Function.update_self]
  · rw [if_neg hq,Function.update_of_ne hq]

omit [DecidableEq P] [Zero F] in
theorem Moves.still {p : P} (h : w'.clients p = w.clients p) : Moves w label w' p := by
  constructor
  · exact ⟨[],by rw [h,List.append_nil]⟩
  · exact .inl (by rw [h])
  · intro packet hmem
    rw [h] at hmem
    exact .inl hmem
  · intro tx packet hmem
    rw [h] at hmem
    exact .inl hmem

omit [DecidableEq P] [Zero F] in
theorem Moves.kept {p : P} (h : Moves w label w' p) {addr : SocketAddr}
    (haddr : addr ∈ (w.clients p).sockets) : addr ∈ (w'.clients p).sockets := by
  rcases h.sockets with hsame | ⟨addr',_,hmore⟩
  · rw [hsame]
    exact haddr
  · rw [hmore]
    exact List.mem_append_left _ haddr

omit [DecidableEq P] [Zero F] in
/-- A socket is an old one, or that of the connect. -/
theorem Moves.opened {p : P} (h : Moves w label w' p) {addr : SocketAddr}
    (haddr : addr ∈ (w'.clients p).sockets) :
    addr ∈ (w.clients p).sockets ∨ label = .client p (.connect addr) := by
  rcases h.sockets with hsame | ⟨addr',rfl,hmore⟩
  · exact .inl (hsame ▸ haddr)
  · rw [hmore] at haddr
    rcases List.mem_append.mp haddr with hold | hnew
    · exact .inl hold
    · rw [List.mem_singleton.mp hnew]
      exact .inr rfl

theorem step_moves (hstep : Step opus rubato newEncoder newResampler w label w')
    (hlength : ∀ p, (w.clients p).sockets.length = (w.clients p).udp.tasks.length) (p : P) :
    Moves w label w' p := by
  cases hstep with
  | relay => exact .still rfl
  | other => exact .still rfl
  | @client q label v hclient hlink =>
    have hupdate := client_update w q p v
    by_cases hp : p = q
    · rw [if_pos hp] at hupdate
      subst hp
      constructor
      · change ∃ more, (Function.update w.clients p v p).udp.sendTx = _
        rw [hupdate]
        exact VoiceClient.step_grows hclient
      · change (Function.update w.clients p v p).sockets = _ ∨
          ∃ _, _ ∧ (Function.update w.clients p v p).sockets = _
        rw [hupdate]
        rcases VoiceClient.step_sockets hclient with hsockets | ⟨addr,rfl,hsockets⟩
        · exact .inl hsockets
        · exact .inr ⟨addr,rfl,hsockets⟩
      · change ∀ packet ∈ (Function.update w.clients p v p).udp.handler.packetTx,_
        rw [hupdate]
        intro packet hmem
        rcases (VoiceClient.step_hands (hlength p) hclient).1 packet hmem with hold | hnew
        · exact .inl hold
        · obtain ⟨bytes,addr,n,hreceives,haddr,hd⟩ := hnew
          exact .inr ⟨bytes,addr,n,hlink _ hreceives,haddr,hd⟩
      · change ∀ tx packet, (tx,packet) ∈ (Function.update w.clients p v p).udp.answered → _
        rw [hupdate]
        intro tx packet hmem
        rcases (VoiceClient.step_hands (hlength p) hclient).2 tx packet hmem with hold | ⟨hnew,_⟩
        · exact .inl hold
        · obtain ⟨bytes,addr,n,hreceives,haddr,hd⟩ := hnew
          exact .inr ⟨bytes,addr,n,hlink _ hreceives,haddr,hd⟩
    · rw [if_neg hp] at hupdate
      exact .still hupdate

/-- What a step adds to what the relay is sent. -/
theorem step_uplink (hstep : Step opus rubato newEncoder newResampler w label w')
    {src : SocketAddr} {bytes : Bytes} (hmem : (src,bytes) ∈ w'.uplink) :
    (src,bytes) ∈ w.uplink ∨ label = .other src bytes ∨
      ∃ p l, label = .client p l ∧ src ∈ (w.clients p).sockets ∧ bytes ∈ (w.clients p).udp.sendTx := by
  cases hstep with
  | relay => exact .inl hmem
  | other =>
    rcases List.mem_append.mp hmem with hold | hnew
    · exact .inl hold
    · cases List.mem_singleton.mp hnew
      exact .inr (.inl rfl)
  | @client p l v hclient hlink =>
    rcases List.mem_append.mp hmem with hold | hnew
    · exact .inl hold
    · exact .inr (.inr ⟨p,l,rfl,VoiceClient.mem_sends hnew⟩)

theorem Reached.mono {p : P} {packet : Packet} (h : w.Reached p packet)
    (hstep : Step opus rubato newEncoder newResampler w label w')
    (hlength : ∀ p, (w.clients p).sockets.length = (w.clients p).udp.tasks.length) :
    w'.Reached p packet := by
  obtain ⟨bytes,addr,n,hmem,haddr,hd⟩ := h
  refine ⟨bytes,addr,n,?_,?_,hd⟩
  · cases hstep with
    | relay => exact List.mem_append_left _ hmem
    | other => exact hmem
    | client => exact hmem
  · exact (step_moves hstep hlength p).kept haddr

theorem step_carried (h : Carried trace w)
    (hlength : ∀ p, (w.clients p).sockets.length = (w.clients p).udp.tasks.length)
    (hs : Guarded Unshared (Step opus rubato newEncoder newResampler) w label w') :
    Carried (trace ++ [label]) w' := by
  obtain ⟨hunshared,hstep⟩ := hs
  have hmoves := step_moves hstep hlength
  constructor
  · intro p q addr hp hq
    rcases (hmoves p).opened hp with hp | rfl
    · rcases (hmoves q).opened hq with hq | rfl
      · exact h.owner p q addr hp hq
      · exact (hunshared.1 p hp).elim
    · rcases (hmoves q).opened hq with hq | hlabel
      · exact (hunshared.1 q hq).elim
      · cases hlabel
        rfl
  · intro p src bytes hmem hsrc
    obtain ⟨more,hmore⟩ := (hmoves p).sent
    rw [hmore]
    apply List.mem_append_left
    rcases (hmoves p).opened hsrc with hold | rfl
    · rcases step_uplink hstep hmem with hup | rfl | ⟨q,l,rfl,hq,hdata⟩
      · exact h.up p src bytes hup hold
      · exact (hunshared p hold).elim
      · rw [h.owner p q src hold hq]
        exact hdata
    · rcases step_uplink hstep hmem with hup | hother | ⟨q,l,hlabel,hq,hdata⟩
      · exact (hunshared.2 bytes hup).elim
      · cases hother
      · exact (hunshared.1 q hq).elim
  · intro src bytes hmem hnone
    have hbefore : ∀ p, src ∉ (w.clients p).sockets := fun p hsrc => hnone p ((hmoves p).kept hsrc)
    rcases step_uplink hstep hmem with hup | rfl | ⟨q,l,rfl,hq,hdata⟩
    · exact List.mem_append_left _ (h.others src bytes hup hbefore)
    · exact List.mem_append_right _ (List.mem_singleton_self _)
    · exact (hbefore q hq).elim
  · intro p packet hmem
    rcases (hmoves p).handed packet hmem with hold | hnew
    · exact (h.handed p packet hold).mono hstep hlength
    · exact hnew.mono hstep hlength
  · intro p tx packet hmem
    rcases (hmoves p).answered tx packet hmem with hold | hnew
    · exact (h.answered p tx packet hold).mono hstep hlength
    · exact hnew.mono hstep hlength

theorem run_carried (h : Run (Guarded Unshared (Step opus rubato newEncoder newResampler)) new trace w) :
    Carried trace w := by
  induction h with
  | refl =>
    constructor
    · intro p q addr haddr
      cases haddr
    · intro p src bytes hmem
      cases hmem
    · intro src bytes hmem
      cases hmem
    · intro p packet hmem
      cases hmem
    · intro p tx packet hmem
      cases hmem
  | snoc hr hs ih =>
    have hsound := run_sound (hr.mono fun _ _ _ hs => hs.2)
    exact step_carried ih (fun p => (hsound p).sockets) hs

end Runs

/-! ## What datagrams say -/

section Datagrams
variable {trace : List (VoiceClient.Label F)} {v : VoiceClient S R F} {data : Bytes}

/-- A packet in the send channel reaches the relay whole. -/
theorem sent_decodes (h : VoiceClient.Sound trace v) (hdata : data ∈ v.udp.sendTx) :
    (∃ d ∈ VoiceClient.queued trace,
      Packet.decode (Voice.received data) = .ok (d.packet,data.length)) ∨
    ∃ r ∈ v.udp.requests, Packet.decode (Voice.received data) = .ok (r.packet,data.length) := by
  rcases h.sent data hdata with ⟨d,hd,hencode,hfits⟩ | ⟨r,hr,hencode⟩
  · left
    refine ⟨d,hd,Voice.VoiceRelayServer.decode_received hencode ?_⟩
    rw [Packet.encode_length hencode]
    simp only [VoiceData.packet,Packet.payloadLen,packetBufferSize]
    simp only [Sdk.maxOpusFrame] at hfits
    omega
  · right
    refine ⟨r,hr,Voice.VoiceRelayServer.decode_received hencode ?_⟩
    obtain ⟨_,requestId,voiceToken,hpacket,_⟩ := h.asked r hr
    rw [Packet.encode_length hencode,hpacket]
    simp only [Packet.payloadLen,packetBufferSize]
    omega

theorem sent_voice (h : VoiceClient.Sound trace v) (hdata : data ∈ v.udp.sendTx) {claimed : UInt64}
    {sequence timestamp : UInt32} {frame : Bytes} {n : ℕ}
    (hd : Packet.decode (Voice.received data) = .ok (.voiceData claimed sequence timestamp frame,n)) :
    ∃ d ∈ VoiceClient.queued trace,
      d.sequence = sequence ∧ d.timestamp = timestamp ∧ d.opusFrame = frame := by
  rcases sent_decodes h hdata with ⟨d,hmem,hvoice⟩ | ⟨r,hr,hrequest⟩
  · cases hd.symm.trans hvoice
    exact ⟨d,hmem,rfl,rfl,rfl⟩
  · obtain ⟨_,requestId,voiceToken,hpacket,_⟩ := h.asked r hr
    rw [hpacket] at hrequest
    cases hd.symm.trans hrequest

theorem sent_request (h : VoiceClient.Sound trace v) (hdata : data ∈ v.udp.sendTx)
    {requestId voiceToken : UInt64} {n : ℕ}
    (hd : Packet.decode (Voice.received data) = .ok (.voiceAuthRequest requestId voiceToken,n)) :
    ∃ r ∈ v.udp.requests, r.packet = .voiceAuthRequest requestId voiceToken ∧
      voiceToken ∈ VoiceClient.presented trace := by
  rcases sent_decodes h hdata with ⟨d,hmem,hvoice⟩ | ⟨r,hr,hrequest⟩
  · cases hd.symm.trans hvoice
  · obtain ⟨_,requestId',voiceToken',hpacket,htoken,_⟩ := h.asked r hr
    rw [hpacket] at hrequest
    cases hd.symm.trans hrequest
    exact ⟨r,hr,hpacket,htoken⟩

end Datagrams

/-- What the relay sends fits the receive buffers of the clients. -/
theorem relay_fits {r r' : Voice.VoiceRelayServer} {input : Voice.Input} {sends : List Voice.Send}
    (h : Voice.Step r (input,sends) r') {send : Voice.Send} (hsend : send ∈ sends) :
    UdpClient.received send.1 = send.1 := by
  apply List.take_of_length_le
  cases h with
  | event => cases hsend
  | receiveError => cases hsend
  | @datagram src b iter _ _ hi h =>
    have hcase := Voice.VoiceRelayServer.handlePacket_handled iter r src (Voice.received b)
    rw [h] at hcase
    cases hcase with
    | authenticated hd hf hout =>
      rw [List.mem_singleton.mp hsend,Packet.encode_length hout]
      simp [Packet.payloadLen,UdpClient.readBufSize]
    | ignored => cases hsend
    | @forwarded _ _ _ _ _ userId out recipients hd hu hout hr =>
      obtain ⟨addr,_,rfl⟩ := List.mem_map.mp hsend
      obtain ⟨out',hout',hlen⟩ := Voice.VoiceRelayServer.encode_forwarded userId hd
      cases hout.symm.trans hout'
      refine hlen.trans ?_
      simp [Voice.received,packetBufferSize,UdpClient.readBufSize]

/-! ## Voice from one client to another -/

section Voice
variable [DecidableEq P] [Zero F] {opus : OpusEncoder S F} {rubato : AudioResampler R F}
  {newEncoder : Except VoiceError S} {newResampler : UInt32 → Except VoiceError R}
  {trace : List (Label P F)} {w : VoiceNetwork P S R F}

/-- What a client is handed was sent in some turn of the relay. -/
theorem run_turn (h : Run (Guarded Unshared (Step opus rubato newEncoder newResampler)) new trace w)
    {send : Voice.Send} (hsend : send ∈ w.downlink) :
    ∃ pre post input sends t r, trace = pre ++ .relay input sends :: post ∧
      Run (Guarded Unshared (Step opus rubato newEncoder newResampler)) new pre t ∧
      Voice.Step t.relay (input,sends) r ∧ send ∈ sends ∧
      (∀ src bytes, input = .datagram src bytes → (src,bytes) ∈ t.uplink) ∧
      Run (Guarded Unshared (Step opus rubato newEncoder newResampler)) t (.relay input sends :: post) w := by
  obtain ⟨pre,label,post,t,t',rfl,hpre,hs,hpost,hnot,hyes⟩ :=
    h.introduced (P := fun w => send ∈ w.downlink) (by simp [new]) hsend
  have hrest := (Run.single hs).append hpost
  obtain ⟨_,hstep⟩ := hs
  cases hstep with
  | other => exact (hnot hyes).elim
  | client => exact (hnot hyes).elim
  | @relay input sends r hrelay hlink =>
    rcases List.mem_append.mp hyes with hold | hnew
    · exact (hnot hold).elim
    · exact ⟨pre,post,input,sends,t,r,rfl,hpre,hrelay,hnew,hlink,hrest⟩

/-- What was sent stays in the network. -/
theorem run_uplink {t : VoiceNetwork P S R F} {post : List (Label P F)}
    (h : Run (Step opus rubato newEncoder newResampler) t post w) {d : SocketAddr × Bytes}
    (hd : d ∈ t.uplink) : d ∈ w.uplink := by
  refine h.preserves (P := fun w => d ∈ w.uplink) ?_ hd
  intro w label w' hw hstep
  cases hstep with
  | relay => exact hw
  | other => exact List.mem_append_left _ hw
  | client => exact List.mem_append_left _ hw

/-- A socket whose address has been sent from was open by then. -/
theorem run_socket {t : VoiceNetwork P S R F} {post : List (Label P F)} {p : P} {addr : SocketAddr}
    {bytes : Bytes} (ht : Run (Step opus rubato newEncoder newResampler) new trace t)
    (h : Run (Guarded Unshared (Step opus rubato newEncoder newResampler)) t post w)
    (hup : (addr,bytes) ∈ t.uplink) (haddr : addr ∈ (w.clients p).sockets) :
    addr ∈ (t.clients p).sockets := by
  induction h with
  | refl => exact haddr
  | @snoc post u label w hr hs ih =>
    have hplain := hr.mono fun _ _ _ hs => hs.2
    have hsound := run_sound (ht.append hplain)
    rcases (step_moves hs.2 (fun p => (hsound p).sockets) p).opened haddr with hold | rfl
    · exact ih hold
    · exact (hs.1.2 bytes (run_uplink hplain hup)).elim

omit [Zero F] in
/-- A token that is presented from a socket is presented by its client. -/
theorem presented_owner (hcarried : Carried trace w)
    (hsound : ∀ p, VoiceClient.Sound (trace.filterMap (Label.client? p)) (w.clients p))
    {p : P} {src : SocketAddr} {voiceToken : UInt64} (hsrc : src ∈ (w.clients p).sockets)
    (h : w.Presented src voiceToken) :
    voiceToken ∈ VoiceClient.presented (trace.filterMap (Label.client? p)) := by
  obtain ⟨bytes,requestId,n,hmem,hd⟩ := h
  obtain ⟨_,_,_,htoken⟩ := sent_request (hsound p) (hcarried.up p src bytes hmem hsrc) hd
  exact htoken

/-- What arrives anywhere as the voice of a user whose token is secret was queued by the
microphone of the client that has the token, with the same number, time and frame. -/
theorem handed_on_queued {p q : P} {userId secret : UInt64} {sequence timestamp : UInt32} {frame : Bytes}
    (h : Run (Guarded Unshared (Step opus rubato newEncoder newResampler)) new trace w)
    (hsecret : Confidential p userId secret trace)
    (hmem : .voiceData userId sequence timestamp frame ∈ (w.clients q).udp.handler.packetTx) :
    ∃ d ∈ VoiceClient.queued (trace.filterMap (Label.client? p)),
      d.sequence = sequence ∧ d.timestamp = timestamp ∧ d.opusFrame = frame := by
  obtain ⟨bytes,addr,n,hdown,_,hd⟩ := (run_carried h).handed q _ hmem
  obtain ⟨pre,post,input,sends,t,r,rfl,hpre,hrelay,hsend,hlink,_⟩ := run_turn h hdown
  have hfits : UdpClient.received bytes = bytes := relay_fits hrelay hsend
  rw [hfits] at hd
  obtain ⟨src,b,claimed,m,rfl,hb,_,_,hcached,_⟩ :=
    Voice.VoiceRelayServer.step_relays hrelay hsend hd
  have hplain := hpre.mono fun _ _ _ hs => hs.2
  have hcarried := run_carried hpre
  -- the source has presented the secret token, so it is a socket of the client
  obtain ⟨voiceToken,hissued,hpresented⟩ := (run_recorded hplain).cached src userId hcached
  obtain ⟨sends',hissue⟩ := hissued
  obtain rfl : voiceToken = secret := hsecret.issued _ ⟨sends',List.mem_append_left _ hissue⟩
  have howned : src ∈ (t.clients p).sockets := by
    by_contra hnot
    by_cases hsome : ∃ q, src ∈ (t.clients q).sockets
    · obtain ⟨q',hq⟩ := hsome
      have htoken := presented_owner hcarried (run_sound hplain) hq hpresented
      have hq' : q' = p := by
        apply hsecret.clients
        rw [List.filterMap_append,VoiceClient.presented_append]
        exact List.mem_append_left _ htoken
      rw [hq'] at hq
      exact hnot hq
    · obtain ⟨bytes',requestId,n',hup,hd'⟩ := hpresented
      have hother := hcarried.others src bytes' hup fun q hq => hsome ⟨q,hq⟩
      exact hsecret.others src bytes' (List.mem_append_left _ hother) requestId n' hd'
  -- so what was relayed was in its send channel
  have hsent := hcarried.up p src b (hlink src b rfl) howned
  obtain ⟨d,hqueued,hsame⟩ := sent_voice (run_sound hplain p) hsent hb
  refine ⟨d,?_,hsame⟩
  rw [List.filterMap_append,VoiceClient.queued_append]
  exact List.mem_append_left _ hqueued

/-- Voice goes to an address from which the token of another user in voice was presented. -/
theorem turn_recipient {t : VoiceNetwork P S R F} {r : Voice.VoiceRelayServer} {input : Voice.Input}
    {sends : List Voice.Send} {bytes : Bytes} {addr : SocketAddr} {userId : UInt64}
    {sequence timestamp : UInt32} {frame : Bytes} {n : ℕ}
    (h : Run (Step opus rubato newEncoder newResampler) new trace t)
    (hrelay : Voice.Step t.relay (input,sends) r) (hsend : (bytes,addr) ∈ sends)
    (hd : Packet.decode (UdpClient.received bytes) = .ok (.voiceData userId sequence timestamp frame,n)) :
    ∃ id session, id ≠ userId ∧ t.relay.sessions.lookup id = some session ∧ session.inVoice = true ∧
      session.udpAddress = some addr ∧ Issued trace id session.token ∧ t.Presented addr session.token := by
  have hfits : UdpClient.received bytes = bytes := relay_fits hrelay hsend
  rw [hfits] at hd
  obtain ⟨_,_,_,_,_,_,_,_,_,hto⟩ := Voice.VoiceRelayServer.step_relays hrelay hsend hd
  obtain ⟨id,session,hne,hl,hvoice,hsession⟩ := hto.recipient hsend
  have hrecorded := run_recorded h
  exact ⟨id,session,hne,hl,hvoice,hsession,hrecorded.issued id session hl,
    hrecorded.addressed id session addr hl hsession⟩

/-- What the relay sends to a client it sends to the socket of a session in voice, whose token
the client has presented. -/
theorem turn_sends {t : VoiceNetwork P S R F} {post : List (Label P F)} {r : Voice.VoiceRelayServer}
    {input : Voice.Input} {sends : List Voice.Send} {q : P} {bytes : Bytes} {addr : SocketAddr}
    {userId : UInt64} {sequence timestamp : UInt32} {frame : Bytes} {n : ℕ}
    (ht : Run (Guarded Unshared (Step opus rubato newEncoder newResampler)) new trace t)
    (hrelay : Voice.Step t.relay (input,sends) r) (hsend : (bytes,addr) ∈ sends)
    (hd : Packet.decode (UdpClient.received bytes) = .ok (.voiceData userId sequence timestamp frame,n))
    (hrest : Run (Guarded Unshared (Step opus rubato newEncoder newResampler)) t post w)
    (haddr : addr ∈ (w.clients q).sockets) :
    t.SendsTo input sends q addr (.voiceData userId sequence timestamp frame) ∧
    ∃ id session, id ≠ userId ∧ t.relay.sessions.lookup id = some session ∧ session.inVoice = true ∧
      session.udpAddress = some addr ∧ Issued trace id session.token ∧
      session.token ∈ VoiceClient.presented (trace.filterMap (Label.client? q)) := by
  have hplain := ht.mono fun _ _ _ hs => hs.2
  obtain ⟨id,session,hne,hl,hvoice,hsession,hissued,hpresented⟩ := turn_recipient hplain hrelay hsend hd
  have hopen : addr ∈ (t.clients q).sockets := by
    obtain ⟨_,_,_,hup,_⟩ := hpresented
    exact run_socket hplain hrest hup haddr
  exact ⟨⟨⟨r,hrelay⟩,hopen,bytes,n,hsend,hd⟩,id,session,hne,hl,hvoice,hsession,hissued,
    presented_owner (run_carried ht) (run_sound hplain) hopen hpresented⟩

/-- Whoever is handed voice was sent it by the relay when it was another user in voice, whose
token its client had presented. -/
theorem voice_private {q : P} {userId : UInt64} {sequence timestamp : UInt32} {frame : Bytes}
    (h : Run (Guarded Unshared (Step opus rubato newEncoder newResampler)) new trace w)
    (hmem : .voiceData userId sequence timestamp frame ∈ (w.clients q).udp.handler.packetTx) :
    ∃ pre post input sends t addr, trace = pre ++ .relay input sends :: post ∧
      Run (Guarded Unshared (Step opus rubato newEncoder newResampler)) new pre t ∧
      t.SendsTo input sends q addr (.voiceData userId sequence timestamp frame) ∧
      ∃ id session, id ≠ userId ∧ t.relay.sessions.lookup id = some session ∧ session.inVoice = true ∧
        session.udpAddress = some addr ∧ Issued pre id session.token ∧
        session.token ∈ VoiceClient.presented (pre.filterMap (Label.client? q)) := by
  obtain ⟨bytes,addr,n,hdown,haddr,hd⟩ := (run_carried h).handed q _ hmem
  obtain ⟨pre,post,input,sends,t,r,rfl,hpre,hrelay,hsend,_,hrest⟩ := run_turn h hdown
  exact ⟨pre,post,input,sends,t,addr,rfl,hpre,turn_sends hpre hrelay hsend hd hrest haddr⟩

end Voice

/-! ## Two clients

One client has the token 22 of user 2, who is in voice; another one has the token 11 of user 1
and speaks. Their counters of request ids may have got somewhere before.
-/
section Talks
open Sdk.InputOutputManager (silenceCodec noResampler silentPacket silentTask withTask)

abbrev Talk (P : Type) := VoiceNetwork P Unit Unit ℤ

variable [DecidableEq P]

abbrev TalkStep : Talk P → Label P ℤ → Talk P → Prop :=
  Guarded Unshared (Step silenceCodec noResampler (.ok ()) fun _ => .ok ())

abbrev TalkClientStep : VoiceClient Unit Unit ℤ → VoiceClient.Label ℤ → VoiceClient Unit Unit ℤ → Prop :=
  VoiceClient.Step silenceCodec noResampler (.ok ()) fun _ => .ok ()

def withClient (w : Talk P) (p : P) (v : VoiceClient Unit Unit ℤ) : Talk P :=
  { w with clients := Function.update w.clients p v }

theorem talk_client (w : Talk P) (p : P) {label : VoiceClient.Label ℤ} {v v' : VoiceClient Unit Unit ℤ}
    (h : TalkClientStep v label v') (hlink : ∀ d, v.receives label = some d → d ∈ w.downlink)
    (hguard : Unshared (w.withClient p v) (.client p label)) :
    TalkStep (w.withClient p v) (.client p label)
      { w.withClient p v' with uplink := w.uplink ++ v.sends label } := by
  refine ⟨hguard,?_⟩
  have hself : (w.withClient p v).clients p = v := Function.update_self ..
  have hstep : Step silenceCodec noResampler (.ok ()) (fun _ => .ok ()) (w.withClient p v)
      (.client p label) _ := .client (v := v') (by rw [hself]; exact h)
    (by rw [hself]; exact hlink)
  rw [hself] at hstep
  have hidem : Function.update (w.withClient p v).clients p v' = Function.update w.clients p v' :=
    Function.update_idem ..
  rw [hidem] at hstep
  exact hstep

/-- Labels that have nothing to do with sockets. -/
def Quiet : VoiceClient.Label ℤ → Prop
  | .connect _ => False
  | .call (.outgoing ..) => False
  | .call (.incoming ..) => False
  | _ => True

theorem talk_quiet (w : Talk P) (p : P) {labels : List (VoiceClient.Label ℤ)}
    {v v' : VoiceClient Unit Unit ℤ} (h : Run TalkClientStep v labels v')
    (hquiet : ∀ label ∈ labels, Quiet label) :
    Run TalkStep (w.withClient p v) (labels.map (Label.client p)) (w.withClient p v') := by
  induction h with
  | refl => exact .refl
  | @snoc labels v label v' hr hs ih =>
    rw [List.map_append]
    refine (ih fun label hmem => hquiet label (List.mem_append_left _ hmem)).snoc ?_
    have hlast := hquiet label (List.mem_append_right _ (List.mem_singleton_self _))
    have hreceives : v.receives label = none := by
      unfold VoiceClient.receives
      split
      · exact hlast.elim
      · rfl
    have hguard : Unshared (w.withClient p v) (.client p label) := by
      cases label with
      | connect => exact hlast.elim
      | _ => trivial
    have hstep := talk_client w p hs (fun d hd => by rw [hreceives] at hd; cases hd) hguard
    have hnone : v.sends label = [] := by
      unfold VoiceClient.sends
      split
      · exact hlast.elim
      · rfl
    rw [hnone,List.append_nil] at hstep
    exact hstep

def request (requestId voiceToken : UInt64) : Bytes :=
  (Packet.voiceAuthRequest requestId voiceToken).encode.getD []

theorem encode_request (requestId voiceToken : UInt64) :
    (Packet.voiceAuthRequest requestId voiceToken).encode = some (request requestId voiceToken) := by
  obtain ⟨b,hb⟩ := Packet.plain_encodes (.voiceAuthRequest requestId voiceToken) rfl rfl
    (by simp [Packet.payloadLen])
  rw [request,hb]
  rfl

theorem decode_request (requestId voiceToken : UInt64) :
    Packet.decode (Voice.received (request requestId voiceToken)) =
      .ok (.voiceAuthRequest requestId voiceToken,(request requestId voiceToken).length) := by
  refine Voice.VoiceRelayServer.decode_received (encode_request requestId voiceToken) ?_
  rw [Packet.encode_length (encode_request requestId voiceToken)]
  simp [Packet.payloadLen,packetBufferSize]

/-- A client that has drawn its request ids up to this one. -/
def fresh (requestId : UInt64) : VoiceClient S R F := ⟨requestId,.new,[],.new⟩

section Callers
variable (addr : SocketAddr) (requestId voiceToken : UInt64)

def connected : VoiceClient Unit Unit ℤ := ⟨requestId,{ UdpClient.new with tasks := [true] },[addr],.new⟩

/-- The client with one socket and one call, which waits for its response. -/
def talker (more : List Bytes) (taken : ℕ) (bytesSent : UInt64) (pipelines : Sdk.InputOutputManager Unit Unit ℤ) :
    VoiceClient Unit Unit ℤ where
  requestIdCounter := requestId + 1
  udp :=
    { sendTx := request requestId voiceToken :: more
      taken := taken
      bytesSent := bytesSent
      handler := ⟨⟨(∅ : Table UInt64 Sdk.Oneshot).insert requestId 0,[]⟩,[],0⟩
      tasks := [true]
      requests := [⟨.voiceAuthRequest requestId voiceToken,Sdk.ApiClient.voiceAuthSuccess,.waiting 1 0⟩]
      oneshots := [0] }
  sockets := [addr]
  pipelines := pipelines

/-- The call is at its first attempt and has its callback, or is about to make it. -/
def calling (phase : UdpClient.Phase Bool) (oneshots : List ℕ) (waiting : Table UInt64 Sdk.Oneshot) :
    VoiceClient Unit Unit ℤ where
  requestIdCounter := requestId + 1
  udp :=
    { sendTx := []
      taken := 0
      bytesSent := 0
      handler := ⟨⟨waiting,[]⟩,[],0⟩
      tasks := [true]
      requests := [⟨.voiceAuthRequest requestId voiceToken,Sdk.ApiClient.voiceAuthSuccess,phase⟩]
      oneshots := oneshots }
  sockets := [addr]
  pipelines := .new

theorem connects : TalkClientStep (fresh requestId) (.connect addr) (connected addr requestId) :=
  .connect .connect

/-- The request goes into the send channel. -/
theorem asks (hid : requestId.toNat + 1 < 2 ^ 64) : Run TalkClientStep (connected addr requestId)
    [.authenticateVoice voiceToken,.call (.register 0),.call (.send 0)]
    (talker addr requestId voiceToken [] 0 0 .new) := by
  have hask : TalkClientStep (connected addr requestId) (.authenticateVoice voiceToken)
    (calling addr requestId voiceToken (.starting 1) [] ∅) := .authenticateVoice hid .sendRequest
  have hregister : UdpClient.Step (calling addr requestId voiceToken (.starting 1) [] ∅).udp (.register 0)
      (calling addr requestId voiceToken (.registered 1 0) [0]
        ((∅ : Table _ _).insert requestId 0)).udp :=
    UdpClient.Step.register (n := 0) (r := ⟨.voiceAuthRequest requestId voiceToken,_,.starting 1⟩)
      rfl rfl rfl
  have hsend : UdpClient.Step (calling addr requestId voiceToken (.registered 1 0) [0]
        ((∅ : Table _ _).insert requestId 0)).udp (.send 0)
      (talker addr requestId voiceToken [] 0 0 .new).udp :=
    UdpClient.Step.send (n := 0) (r := ⟨.voiceAuthRequest requestId voiceToken,_,.registered 1 0⟩)
      rfl rfl (encode_request requestId voiceToken)
  have hcall : ∀ n, VoiceClient.OfCall (.register n) ∧ VoiceClient.OfCall (.send n) :=
    fun _ => ⟨trivial,trivial⟩
  exact ((Run.single hask).snoc (.call (hcall 0).1 hregister)).snoc (.call (hcall 0).2 hsend)

/-- The request goes out. -/
theorem asked : ∃ count, TalkClientStep (talker addr requestId voiceToken [] 0 0 .new)
    (.call (.outgoing 0 true)) (talker addr requestId voiceToken [] 1 count .new) :=
  ⟨_,.call trivial (.outgoing rfl rfl)⟩

/-- One frame of the microphone is queued. -/
theorem speaks (count : UInt64) : Run TalkClientStep (talker addr requestId voiceToken [] 1 count .new)
    ((Sdk.InputOutputManager.silentLabels 0).map VoiceClient.Label.pipeline)
    (talker addr requestId voiceToken [silentPacket] 1 count (withTask [] [silentPacket] silentTask)) := by
  have hget := Sdk.InputOutputManager.getSender [] none []
  have hsend := Sdk.InputOutputManager.sendFrame [] [] (.new ())
  have hrecv := Sdk.InputOutputManager.recvFrame [] [] (.new ())
  have hqueue := Sdk.InputOutputManager.queueFrame [] [] (.new ()) rfl
  exact (((Run.single (.pipeline hget (List.append_nil _).symm)).snoc
    (.pipeline hsend (List.append_nil _).symm)).snoc (.pipeline hrecv (List.append_nil _).symm)).snoc
    (.pipeline hqueue rfl)

end Callers

/-- A client connects and asks, and the relay takes its request. -/
def loginLabels (p : P) (addr : SocketAddr) (requestId voiceToken : UInt64) (sends : List Voice.Send) :
    List (Label P ℤ) :=
  [.client p (.connect addr),.client p (.authenticateVoice voiceToken),
    .client p (.call (.register 0)),.client p (.call (.send 0)),.client p (.call (.outgoing 0 true)),
    .relay (.datagram addr (request requestId voiceToken)) sends]

theorem talk_relay (w : Talk P) {input : Voice.Input} {sends : List Voice.Send} {r : Voice.VoiceRelayServer}
    (h : Voice.Step w.relay (input,sends) r)
    (hlink : ∀ src bytes, input = .datagram src bytes → (src,bytes) ∈ w.uplink) :
    TalkStep w (.relay input sends) { w with relay := r, downlink := w.downlink ++ sends } :=
  ⟨trivial,.relay h hlink⟩

theorem talk_login (w : Talk P) (p : P) (addr : SocketAddr) (id voiceToken : UInt64) {requestId : UInt64}
    (hid : requestId.toNat + 1 < 2 ^ 64) (hp : w.clients p = fresh requestId)
    (hsockets : ∀ q, addr ∉ (w.clients q).sockets) (hfree : ∀ bytes, (addr,bytes) ∉ w.uplink)
    (hl : w.relay.sessions.lookup id = some ⟨voiceToken,false,none⟩) :
    ∃ sends count r, Voice.Step w.relay (.datagram addr (request requestId voiceToken),sends) r ∧
      r = ⟨w.relay.sessions.insert id ⟨voiceToken,false,some addr⟩,
        w.relay.idsByAddresses.insert addr id⟩ ∧
      Run TalkStep w (loginLabels p addr requestId voiceToken sends)
      { relay := r
        clients := Function.update w.clients p (talker addr requestId voiceToken [] 1 count .new)
        uplink := w.uplink ++ [(addr,request requestId voiceToken)]
        downlink := w.downlink ++ sends } := by
  have hw : w.withClient p (fresh requestId) = w := by
    rw [withClient,← hp,Function.update_eq_self]
  obtain ⟨count,hasked⟩ := asked addr requestId voiceToken
  have hconnect := talk_client w p (connects addr requestId) (fun _ h => by cases h)
    (by rw [hw]; exact ⟨hsockets,hfree⟩)
  rw [hw] at hconnect
  change TalkStep w _ { w.withClient p (connected addr requestId) with uplink := w.uplink ++ [] } at hconnect
  rw [List.append_nil] at hconnect
  have hquiet := talk_quiet w p (asks addr requestId voiceToken hid) (by simp [Quiet])
  have hout := talk_client w p hasked (fun _ h => by cases h) trivial
  obtain ⟨sends,hauth⟩ := Voice.VoiceRelayServer.step_authenticates (s := w.relay) addr id
    ⟨voiceToken,false,none⟩ hl (decode_request requestId voiceToken)
  refine ⟨sends,count,_,hauth,rfl,?_⟩
  refine ((Run.single hconnect).append (hquiet.snoc hout)).snoc (talk_relay _ hauth ?_)
  intro src bytes heq
  cases heq
  exact List.mem_append_right _ (List.mem_singleton_self _)

/-- The relay has been told of both users. -/
def told : Voice.VoiceRelayServer :=
  (Voice.VoiceRelayServer.new.handleEvent [] (.userConnected 1 11)).handleEvent [] (.userConnected 2 22)

/-- User 2 has authenticated. -/
def known : Voice.VoiceRelayServer :=
  ⟨told.sessions.insert 2 ⟨22,false,some (.v4 2 2)⟩,told.idsByAddresses.insert (.v4 2 2) 2⟩

/-- User 2 has joined. -/
def joined : Voice.VoiceRelayServer := known.handleEvent [(.v4 2 2,2)] (.voiceJoined 2)

theorem joined_pair : (⟨joined.sessions.insert 1 ⟨11,false,some (.v4 1 1)⟩,
    joined.idsByAddresses.insert (.v4 1 1) 1⟩ : Voice.VoiceRelayServer) = .pair := by
  have hsessions : joined.sessions.insert 1 ⟨11,false,some (.v4 1 1)⟩ =
    Voice.VoiceRelayServer.pair.sessions := by decide
  rw [hsessions]
  rfl

omit [DecidableEq P] in
theorem decode_silentPacket : Packet.decode (Voice.received silentPacket) =
    .ok (.voiceData 0 0 0 [248,255,254],22) := by decide

section Runs
variable (counters : P → UInt64) (p₁ p₂ : P)

/-- Nothing has been sent yet. -/
def start : Talk P := ⟨.new,fun p => fresh (counters p),[],[]⟩

/-- The client of user 2 after its request; `relay` and `downlink` are those of the moment. -/
def listening (relay : Voice.VoiceRelayServer) (count : UInt64) (downlink : List Voice.Send) : Talk P :=
  ⟨relay,Function.update (start counters).clients p₂ (talker (.v4 2 2) (counters p₂) 22 [] 1 count .new),
    [(.v4 2 2,request (counters p₂) 22)],downlink⟩

theorem talk_joined (hid : (counters p₂).toNat + 1 < 2 ^ 64) : ∃ sends count, Run TalkStep (start counters)
    ([.relay (.event (.userConnected 1 11)) [],.relay (.event (.userConnected 2 22)) []] ++
      loginLabels p₂ (.v4 2 2) (counters p₂) 22 sends ++ [.relay (.event (.voiceJoined 2)) []])
    (listening counters p₂ joined count (sends ++ [])) := by
  have htold : Run TalkStep (start counters)
      [.relay (.event (.userConnected 1 11)) [],.relay (.event (.userConnected 2 22)) []]
      { start counters with relay := told } :=
    (Run.single (talk_relay (start counters) (.event .nil) (fun _ _ h => by cases h))).snoc
      (talk_relay _ (.event .nil) (fun _ _ h => by cases h))
  obtain ⟨sends,count,_,_,rfl,hlogin⟩ := talk_login { start counters with relay := told } p₂ (.v4 2 2) 2 22
    hid rfl (fun _ h => by cases h) (fun _ h => by cases h)
    (show told.sessions.lookup 2 = some ⟨22,false,none⟩ by decide)
  have hjoin : Voice.Step known (.event (.voiceJoined 2),[]) joined :=
    .event (Table.Enumerates.nil.insert (SocketAddr.v4 2 2) (2 : UInt64))
  exact ⟨sends,count,(htold.append hlogin).snoc
    (talk_relay (listening counters p₂ known count sends) hjoin (fun _ _ h => by cases h))⟩

/-- Both are known to the relay, and the client of user 1 has spoken. -/
def spoken (count2 count1 : UInt64) (uplink : List (SocketAddr × Bytes)) (downlink : List Voice.Send) :
    Talk P :=
  { withClient (listening counters p₂ .pair count2 downlink) p₁ (talker (.v4 1 1) (counters p₁) 11
      [silentPacket] 2 count1 (withTask [] [silentPacket] silentTask)) with
    uplink := uplink }

def talkLabels (sends2 sends1 : List Voice.Send) : List (Label P ℤ) :=
  [.relay (.event (.userConnected 1 11)) [],.relay (.event (.userConnected 2 22)) []] ++
    loginLabels p₂ (.v4 2 2) (counters p₂) 22 sends2 ++ [.relay (.event (.voiceJoined 2)) []] ++
    loginLabels p₁ (.v4 1 1) (counters p₁) 11 sends1 ++
    (((Sdk.InputOutputManager.silentLabels 0).map VoiceClient.Label.pipeline).map (Label.client p₁) ++
      [.client p₁ (.call (.outgoing 0 true))])

/-- The frame is relayed and heard. -/
def heardLabels (sends2 sends1 : List Voice.Send) (out : Bytes) : List (Label P ℤ) :=
  talkLabels counters p₁ p₂ sends2 sends1 ++ [.relay (.datagram (.v4 1 1) silentPacket) [(out,.v4 2 2)],
    .client p₂ (.call (.incoming 0 (some out)))]

variable {p₁ p₂} (hne : p₁ ≠ p₂) (hids : ∀ p, (counters p).toNat + 1 < 2 ^ 64)
include hne hids

theorem talk_spoken : ∃ sends2 sends1 count2 count1 uplink downlink,
    Run TalkStep (start counters) (talkLabels counters p₁ p₂ sends2 sends1)
      (spoken counters p₁ p₂ count2 count1 (uplink ++ [(.v4 1 1,silentPacket)]) downlink) := by
  obtain ⟨sends2,count2,hjoined⟩ := talk_joined counters p₂ (hids p₂)
  have hnone : ∀ q, SocketAddr.v4 1 1 ∉
      ((listening counters p₂ joined count2 (sends2 ++ [])).clients q).sockets := by
    intro q
    change SocketAddr.v4 1 1 ∉ (Function.update (start counters).clients p₂ _ q).sockets
    by_cases hq : q = p₂
    · rw [hq,Function.update_self]
      change SocketAddr.v4 1 1 ∉ [SocketAddr.v4 2 2]
      decide
    · rw [Function.update_of_ne hq]
      exact List.not_mem_nil
  obtain ⟨sends1,count1,_,_,rfl,hlogin⟩ := talk_login (listening counters p₂ joined count2 (sends2 ++ [])) p₁
    (.v4 1 1) 1 11 (hids p₁) (Function.update_of_ne hne _ _) hnone (fun bytes h => by simp [listening] at h)
    (show joined.sessions.lookup 1 = _ by decide)
  have hpaired := hjoined.append hlogin
  rw [show listening counters p₂ joined count2 (sends2 ++ []) =
    ⟨joined,_,[(.v4 2 2,request (counters p₂) 22)],sends2 ++ []⟩ from rfl,joined_pair] at hpaired
  let w : Talk P := { listening counters p₂ .pair count2 (sends2 ++ [] ++ sends1) with
    uplink := [(.v4 2 2,request (counters p₂) 22)] ++ [(.v4 1 1,request (counters p₁) 11)] }
  have hspeaks := talk_quiet w p₁ (speaks (.v4 1 1) (counters p₁) 11 count1)
    (by simp [Quiet,Sdk.InputOutputManager.silentLabels])
  have hsent : UdpClient.Step (talker (.v4 1 1) (counters p₁) 11 [silentPacket] 1 count1
      (withTask [] [silentPacket] silentTask)).udp (.outgoing 0 true) _ := .outgoing rfl rfl
  have hstep : TalkClientStep _ (.call (.outgoing 0 true)) _ := .call trivial hsent
  have hout := talk_client w p₁ hstep (fun _ h => by cases h) trivial
  exact ⟨sends2,sends1,count2,_,_,_,hpaired.append (hspeaks.snoc hout)⟩

/-- The frame of user 1 is relayed and arrives at the client of user 2. -/
theorem talk_heard : ∃ sends2 sends1 out w, Run TalkStep (start counters)
    (heardLabels counters p₁ p₂ sends2 sends1 out) w ∧
    .voiceData 1 0 0 [248,255,254] ∈ (w.clients p₂).udp.handler.packetTx ∧ w.relay = .pair := by
  obtain ⟨sends2,sends1,count2,count1,uplink,downlink,hspoken⟩ := talk_spoken counters hne hids
  obtain ⟨out,hencode,hforward⟩ := Voice.VoiceRelayServer.step_forwards (.v4 1 1) 1 [.v4 2 2]
    decode_silentPacket (by decide) Voice.VoiceRelayServer.pair_sessions rfl
  have hrelayed := talk_relay
    (spoken counters p₁ p₂ count2 count1 (uplink ++ [(.v4 1 1,silentPacket)]) downlink) hforward (by
      intro src bytes h
      cases h
      exact List.mem_append_right _ (List.mem_singleton_self _))
  let listener := talker (.v4 2 2) (counters p₂) 22 [] 1 count2 .new
  have hin : UdpClient.Step listener.udp (.incoming 0 (some out)) (listener.udp.incoming 0 (some out)) :=
    .incoming rfl
  have hheard : TalkClientStep listener (.call (.incoming 0 (some out)))
    { listener with udp := listener.udp.incoming 0 (some out) } := .call trivial hin
  let w : Talk P :=
    { spoken counters p₁ p₂ count2 count1 (uplink ++ [(.v4 1 1,silentPacket)]) downlink with
      downlink := downlink ++ [(out,.v4 2 2)] }
  have hself : w.clients p₂ = listener := by
    have hother := Function.update_of_ne (Ne.symm hne)
      (talker (.v4 1 1) (counters p₁) 11 [silentPacket] 2 count1 (withTask [] [silentPacket] silentTask))
      (listening counters p₂ .pair count2 downlink).clients
    exact hother.trans (Function.update_self ..)
  have hstep : TalkStep w (.client p₂ (.call (.incoming 0 (some out)))) _ :=
    ⟨trivial,.client (p := p₂) (by rw [hself]; exact hheard) (by
      rw [hself]
      intro d hd
      cases hd
      exact List.mem_append_right _ (List.mem_singleton_self _))⟩
  refine ⟨sends2,sends1,out,_,(hspoken.append (Run.single hrelayed)).append (Run.single hstep),?_,rfl⟩
  change Packet.voiceData 1 0 0 [248,255,254] ∈
    (Function.update w.clients p₂ _ p₂).udp.handler.packetTx
  rw [Function.update_self]
  have hlen : out.length ≤ UdpClient.readBufSize := by
    rw [Packet.encode_length hencode]
    decide
  have hhanded := UdpClient.handleIncoming_voiceData hencode hlen listener.udp.handler
  change _ ∈ ((⟨listener.udp.handler,true⟩ : UdpClient.Task).incoming (out.take _)).handler.packetTx
  rw [UdpClient.Task.incoming,hhanded]
  exact List.mem_append_right _ (List.mem_singleton_self _)

end Runs

/-- Of two clients each has drawn no request id before. -/
theorem talk_heard_first : ∃ sends2 sends1 out w, Run TalkStep (new : Talk Bool)
    (heardLabels (fun _ => 1) false true sends2 sends1 out) w ∧
    .voiceData 1 0 0 [248,255,254] ∈ (w.clients true).udp.handler.packetTx := by
  obtain ⟨sends2,sends1,out,w,hrun,hheard,_⟩ :=
    talk_heard (fun _ => 1) (show false ≠ true by decide) fun _ => by decide
  exact ⟨sends2,sends1,out,w,hrun,hheard⟩

/-- Only the client `false` presents the token 11. -/
theorem confidential_talk (sends2 sends1 : List Voice.Send) (out : Bytes) :
    Confidential false 1 11 (heardLabels (fun _ => 1) false true sends2 sends1 out) := by
  constructor
  · rintro voiceToken ⟨sends,hmem⟩
    simp [heardLabels,talkLabels,loginLabels] at hmem
    exact hmem.1
  · intro src bytes hmem
    simp [heardLabels,talkLabels,loginLabels] at hmem
  · intro q hmem
    cases q with
    | false => rfl
    | true =>
      change (11 : UInt64) ∈ [22] at hmem
      simp at hmem

/-- Who hears user 1 was in voice when the frame was sent. -/
theorem voice_private_talk : ∃ trace, ∃ w : Talk Bool, Run TalkStep new trace w ∧
    ∃ pre post input sends t addr, trace = pre ++ .relay input sends :: post ∧ Run TalkStep new pre t ∧
      t.SendsTo input sends true addr (.voiceData 1 0 0 [248,255,254]) ∧
      ∃ id session, id ≠ 1 ∧ t.relay.sessions.lookup id = some session ∧ session.inVoice = true ∧
        session.udpAddress = some addr ∧ Issued pre id session.token ∧
        session.token ∈ VoiceClient.presented (pre.filterMap (Label.client? true)) := by
  obtain ⟨sends2,sends1,out,w,hrun,hmem⟩ := talk_heard_first
  exact ⟨_,w,hrun,voice_private hrun hmem⟩

end Talks

end VoiceNetwork
end VoiceApp.System
