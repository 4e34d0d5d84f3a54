import VoiceApp.System.VoiceAuth
import VoiceApp.System.VoiceNetwork

/-! # Authentication over a network of datagrams

A client that is told that it is authenticated is known to the relay under the address of one
of its sockets. Nothing else comes back but the timeout: the relay never denies a request,
and the callback of a call is never dropped.
-/
namespace VoiceApp.System.VoiceNetwork
open Protocol Server
open Sdk (VoiceClient VoiceData UdpClient OpusEncoder AudioResampler VoiceError RequestError)

variable {P S R F : Type}

section Calls
variable [Zero F] {opus : OpusEncoder S F} {rubato : AudioResampler R F}
  {newEncoder : Except VoiceError S} {newResampler : UInt32 → Except VoiceError R}
  {trace : List (VoiceClient.Label F)} {v : VoiceClient S R F}

/-- What is put into the send channel, a packet at a time. -/
theorem run_sendPackets (u : UdpClient Bool) (more : List Bytes) : ∃ trace, Run UdpClient.Step u trace
    { u with sendTx := u.sendTx ++ more } := by
  induction more using List.reverseRecOn with
  | nil => exact ⟨[],by rw [List.append_nil]; exact .refl⟩
  | append_singleton more data ih =>
    obtain ⟨trace,hrun⟩ := ih
    have hsend : UdpClient.Step { u with sendTx := u.sendTx ++ more } (.sendPacket data)
      { u with sendTx := u.sendTx ++ (more ++ [data]) } := by
      rw [← List.append_assoc]
      exact .sendPacket
    exact ⟨_,hrun.snoc hsend⟩

/-- The UDP client of a voice client makes a run of its own. -/
theorem run_udp (h : Run (VoiceClient.Step opus rubato newEncoder newResampler) .new trace v) :
    ∃ trace', Run UdpClient.Step UdpClient.new trace' v.udp := by
  refine h.simulates VoiceClient.udp ?_
  intro v label v' hstep
  cases hstep with
  | connect hconnect => exact ⟨_,.single hconnect⟩
  | requestOverTcp => exact ⟨[],.refl⟩
  | authenticateVoice _ hask => exact ⟨_,.single hask⟩
  | call _ hcall => exact ⟨_,.single hcall⟩
  | pipeline => exact run_sendPackets _ _

omit [Zero F] in
/-- Every call has an id of its own. -/
theorem sound_distinct (h : VoiceClient.Sound trace v) : v.udp.Distinct := by
  intro m n q r id hq hr hqid hrid
  have hlt : m < (v.udp.requests.map fun r => r.packet.requestId).length := by
    rw [List.length_map]
    exact (List.getElem?_eq_some_iff.mp hq).1
  apply (List.getElem?_inj hlt h.distinct).mp
  rw [List.getElem?_map,List.getElem?_map,hq,hr,Option.map_some,Option.map_some,hqid,hrid]

end Calls

/-- Of the responses that the relay sends, each says that the token of a session was presented
from the address that it goes to. -/
theorem step_grants {s r : Voice.VoiceRelayServer} {input : Voice.Input} {sends : List Voice.Send}
    {send : Voice.Send} {requestId : UInt64} {success : Bool} {n : ℕ}
    (hstep : Voice.Step s (input,sends) r) (hsend : send ∈ sends)
    (hd : Packet.decode send.1 = .ok (.voiceAuthResponse requestId success,n)) :
    success = true ∧ ∃ bytes m userId session, input = .datagram send.2 bytes ∧
      Packet.decode (Voice.received bytes) = .ok (.voiceAuthRequest requestId session.token,m) ∧
      r.idsByAddresses.lookup send.2 = some userId ∧ r.sessions.lookup userId = some session ∧
      session.udpAddress = some send.2 := by
  cases hstep with
  | event => cases hsend
  | receiveError => cases hsend
  | @datagram src b iter _ _ hi h =>
    have hcase := Voice.VoiceRelayServer.handlePacket_handled iter s src (Voice.received b)
    rw [h] at hcase
    cases hcase with
    | @authenticated requestId' voiceToken m userId session out hd' hf hout =>
      obtain ⟨hl,htoken⟩ := hi.find?_some hf
      rw [List.mem_singleton.mp hsend] at hd ⊢
      cases hd.symm.trans (Packet.decode_self hout)
      rw [← eq_of_beq htoken] at hd'
      refine ⟨rfl,b,m,userId,{ session with udpAddress := some src },rfl,hd',?_,?_,rfl⟩
      · change (s.idsByAddresses.insert src userId).lookup src = _
        rw [Table.lookup_insert_eq,if_pos rfl]
      · change (s.sessions.insert userId _).lookup userId = _
        rw [Table.lookup_insert_eq,if_pos rfl]
    | ignored => cases hsend
    | forwarded hd' hu hout hr =>
      obtain ⟨addr,_,rfl⟩ := List.mem_map.mp hsend
      cases hd.symm.trans (Packet.decode_self hout)

/-- The relay took the request that `src` sent, and knows the source as a user with this
token from then on. -/
def Accepts (src : SocketAddr) (requestId voiceToken : UInt64) (input : Voice.Input)
    (r : Voice.VoiceRelayServer) : Prop :=
  ∃ bytes n userId session, input = .datagram src bytes ∧
    Packet.decode (Voice.received bytes) = .ok (.voiceAuthRequest requestId voiceToken,n) ∧
    r.idsByAddresses.lookup src = some userId ∧ r.sessions.lookup userId = some session ∧
    session.token = voiceToken ∧ session.udpAddress = some src

section Login
variable [DecidableEq P] [Zero F] {opus : OpusEncoder S F} {rubato : AudioResampler R F}
  {newEncoder : Except VoiceError S} {newResampler : UInt32 → Except VoiceError R}
  {trace : List (Label P F)} {w : VoiceNetwork P S R F}

/-- In some step the relay has let the client in with this token, under one of its sockets. -/
def LetIn (opus : OpusEncoder S F) (rubato : AudioResampler R F) (newEncoder : Except VoiceError S)
    (newResampler : UInt32 → Except VoiceError R) (trace : List (Label P F)) (w : VoiceNetwork P S R F)
    (p : P) (requestId voiceToken : UInt64) : Prop :=
  ∃ pre post input sends t r, trace = pre ++ .relay input sends :: post ∧
    Run (Guarded Unshared (Step opus rubato newEncoder newResampler)) new pre t ∧
    Voice.Step t.relay (input,sends) r ∧
    ∃ src ∈ (w.clients p).sockets, Accepts src requestId voiceToken input r

/-- A response answers a request of the client. -/
theorem response_accepted {p : P} {requestId : UInt64} {success : Bool}
    (h : Run (Guarded Unshared (Step opus rubato newEncoder newResampler)) new trace w)
    (hreached : w.Reached p (.voiceAuthResponse requestId success)) :
    success = true ∧ ∃ r ∈ (w.clients p).udp.requests, ∃ voiceToken,
      r.packet = .voiceAuthRequest requestId voiceToken ∧
      LetIn opus rubato newEncoder newResampler trace w p requestId voiceToken := by
  obtain ⟨bytes,addr,n,hdown,haddr,hd⟩ := hreached
  obtain ⟨pre,post,input,sends,t,r,rfl,hpre,hrelay,hsend,hlink,hrest⟩ := run_turn h hdown
  have hfits : UdpClient.received bytes = bytes := relay_fits hrelay hsend
  rw [hfits] at hd
  obtain ⟨rfl,b,m,userId,session,rfl,hb,hcached,hsession,hsrc⟩ := step_grants hrelay hsend hd
  refine ⟨rfl,?_⟩
  -- the request was sent from the socket that got the response
  have huplink : (addr,b) ∈ w.uplink := run_uplink (hrest.mono fun _ _ _ hs => hs.2) (hlink addr b rfl)
  have hsent := (run_carried h).up p addr b huplink haddr
  obtain ⟨q,hq,hpacket,_⟩ := sent_request (run_sound (h.mono fun _ _ _ hs => hs.2) p) hsent hb
  exact ⟨q,hq,session.token,hpacket,pre,post,_,sends,t,r,rfl,hpre,hrelay,addr,haddr,b,m,userId,session,
    rfl,hb,hcached,hsession,rfl,hsrc⟩

/-- An authentication that has returned has either succeeded, and the relay has let the
client in with this token, or has timed out. -/
theorem voice_login {p : P} {n : ℕ} {r : UdpClient.Request Bool} {response : Except RequestError Bool}
    (h : Run (Guarded Unshared (Step opus rubato newEncoder newResampler)) new trace w)
    (hr : (w.clients p).udp.requests[n]? = some r) (hp : r.phase = .returned response) :
    ∃ requestId voiceToken, r.packet = .voiceAuthRequest requestId voiceToken ∧
      (Sdk.ApiClient.authenticateVoice response = .ok () ∧
          LetIn opus rubato newEncoder newResampler trace w p requestId voiceToken ∨
        ∃ message, Sdk.ApiClient.authenticateVoice response = .error (.timeout message)) := by
  have hsound := run_sound (h.mono fun _ _ _ hs => hs.2) p
  have hdistinct := sound_distinct hsound
  obtain ⟨trace',hudp⟩ := run_udp (run_client (h.mono fun _ _ _ hs => hs.2) p)
  obtain ⟨hdecoder,requestId,voiceToken,hpacket,_⟩ := hsound.asked r (List.mem_of_getElem? hr)
  refine ⟨requestId,voiceToken,hpacket,?_⟩
  have hid : r.packet.requestId = some requestId := by
    rw [hpacket]
    rfl
  rcases UdpClient.returned_cases hudp hr hp with hnone | ⟨message,htimeout⟩ | hcome
  · cases hid.symm.trans hnone
  · right
    rw [htimeout]
    exact ⟨message,rfl⟩
  · left
    rcases hcome with ⟨packet,⟨tx,_,hmem⟩,hresponse,hresult⟩ | ⟨_,hnot⟩
    · rw [hid] at hresponse
      have hreached := (run_carried h).answered p tx packet hmem
      -- the only packets with a request id that come over UDP are responses
      cases packet with
      | voiceAuthResponse id success =>
        cases hresponse
        obtain ⟨rfl,q,hq,voiceToken',hqpacket,hin⟩ := response_accepted h hreached
        obtain ⟨m,hm⟩ := List.getElem?_of_mem hq
        have hqid : q.packet.requestId = some requestId := by
          rw [hqpacket]
          rfl
        have hsame := hdistinct m n q r requestId hm hr hqid hid
        rw [hsame] at hm
        cases hm.symm.trans hr
        cases hqpacket.symm.trans hpacket
        rw [hresult,hdecoder]
        exact ⟨rfl,hin⟩
      | _ => cases hresponse
    · exact (hnot hdistinct).elim

end Login

/-- The client whose call is answered, has the answer, and has returned. -/
def answeredClient (addr : SocketAddr) (count : UInt64) (received : UInt64) (phase : UdpClient.Phase Bool)
    (waiting : Table UInt64 Sdk.Oneshot) : VoiceClient Unit Unit ℤ :=
  { talker addr 1 22 [] 1 count .new with
    udp :=
      { (talker addr 1 22 [] 1 count .new).udp with
        handler := ⟨⟨waiting,[(0,.voiceAuthResponse 1 true)]⟩,[],received⟩
        requests := [⟨.voiceAuthRequest 1 22,Sdk.ApiClient.voiceAuthSuccess,phase⟩] } }

theorem answers (addr : SocketAddr) (count : UInt64) {out : Bytes}
    (hout : (Packet.voiceAuthResponse 1 true).encode = some out) : ∃ received,
    UdpClient.Step (talker addr 1 22 [] 1 count .new).udp (.incoming 0 (some out))
      (answeredClient addr count received (.waiting 1 0)
        (((∅ : Table UInt64 Sdk.Oneshot).insert 1 0).erase 1)).udp := by
  have hfits : UdpClient.received out = out := by
    apply List.take_of_length_le
    rw [Packet.encode_length hout]
    decide
  have hd := Packet.decode_self hout
  have hwait : UdpClient.awaited (talker addr 1 22 [] 1 count .new).udp.handler.pendingRequests.waiting
    (.voiceAuthResponse 1 true) = some (1,0) := rfl
  obtain ⟨received,hnext⟩ := UdpClient.incoming_answered
    ⟨(talker addr 1 22 [] 1 count .new).udp.handler,true⟩ hd hwait
  have hstep : UdpClient.Step (talker addr 1 22 [] 1 count .new).udp (.incoming 0 (some out)) _ :=
    .incoming rfl
  simp only [UdpClient.incoming,hfits,hnext] at hstep
  exact ⟨received,hstep⟩

/-- User 2 logs in. -/
theorem voice_login_one : ∃ trace, ∃ w : Talk Bool, ∃ r : UdpClient.Request Bool, Run TalkStep new trace w ∧
    (w.clients true).udp.requests[0]? = some r ∧ r.phase = .returned (.ok true) ∧
    ∃ requestId voiceToken, LetIn Sdk.InputOutputManager.silenceCodec Sdk.InputOutputManager.noResampler
      (.ok ()) (fun _ => .ok ()) trace w true requestId voiceToken := by
  have htold : Run TalkStep new
      [.relay (.event (.userConnected 1 11)) [],.relay (.event (.userConnected 2 22)) []]
      { (new : Talk Bool) with relay := told } :=
    (Run.single (talk_relay new (.event .nil) (fun _ _ h => by cases h))).snoc
      (talk_relay _ (.event .nil) (fun _ _ h => by cases h))
  obtain ⟨sends,count,r,hauth,hr,hlogin⟩ := talk_login { (new : Talk Bool) with relay := told } true (.v4 2 2) 2 22
    (show (1 : UInt64).toNat + 1 < 2 ^ 64 by decide) rfl (fun _ h => by cases h) (fun _ h => by cases h) (by decide)
  obtain ⟨out,hencode,rfl⟩ : ∃ out, (Packet.voiceAuthResponse 1 true).encode = some out ∧
      sends = [(out,.v4 2 2)] := by
    rcases step_answers hauth (decode_request 1 22) with ⟨_,_,_,_,hout⟩ | ⟨hnone,_⟩
    · exact hout
    · exact (hnone 2 ⟨22,false,none⟩ (by decide) rfl).elim
  let w : Talk Bool := ⟨r,(new : Talk Bool).clients,[(.v4 2 2,request 1 22)],[(out,.v4 2 2)]⟩
  obtain ⟨received,hanswer⟩ := answers (.v4 2 2) count hencode
  have hin : TalkClientStep (talker (.v4 2 2) 1 22 [] 1 count .new) (.call (.incoming 0 (some out)))
    (answeredClient (.v4 2 2) count received (.waiting 1 0)
      (((∅ : Table UInt64 Sdk.Oneshot).insert 1 0).erase 1)) := .call trivial hanswer
  have hanswered := talk_client w true hin (fun d hd => by cases hd; exact List.mem_singleton_self _) trivial
  let taken := ((∅ : Table UInt64 Sdk.Oneshot).insert 1 0).erase 1
  have hrespond : UdpClient.Step (answeredClient (.v4 2 2) count received (.waiting 1 0) taken).udp
      (.respond 0 (.voiceAuthResponse 1 true))
      (answeredClient (.v4 2 2) count received (.cleaning 1 (.answered (.voiceAuthResponse 1 true))) taken).udp :=
    .respond (n := 0) (r := ⟨.voiceAuthRequest 1 22,_,.waiting 1 0⟩) rfl rfl (List.mem_singleton_self _)
  have hclean : UdpClient.Step
      (answeredClient (.v4 2 2) count received (.cleaning 1 (.answered (.voiceAuthResponse 1 true))) taken).udp
      (.cleanUp 0) (answeredClient (.v4 2 2) count received (.returned (.ok true)) (taken.erase 1)).udp :=
    .cleanUp (n := 0) (r := ⟨.voiceAuthRequest 1 22,_,.cleaning 1 (.answered (.voiceAuthResponse 1 true))⟩)
      rfl rfl rfl
  have hcall : VoiceClient.OfCall (.respond 0 (.voiceAuthResponse 1 true)) ∧ VoiceClient.OfCall (.cleanUp 0) :=
    ⟨trivial,trivial⟩
  have hresponded : TalkClientStep (answeredClient (.v4 2 2) count received (.waiting 1 0) taken)
    (.call (.respond 0 (.voiceAuthResponse 1 true))) (answeredClient (.v4 2 2) count received
      (.cleaning 1 (.answered (.voiceAuthResponse 1 true))) taken) := .call hcall.1 hrespond
  have hreturned : TalkClientStep (answeredClient (.v4 2 2) count received
      (.cleaning 1 (.answered (.voiceAuthResponse 1 true))) taken) (.call (.cleanUp 0))
    (answeredClient (.v4 2 2) count received (.returned (.ok true)) (taken.erase 1)) := .call hcall.2 hclean
  have hreturns := (Run.single hresponded).snoc hreturned
  have hquiet := talk_quiet { w with uplink := w.uplink ++ [] } true hreturns (by simp [Quiet])
  have hrun := ((htold.append hlogin).append (Run.single hanswered)).append hquiet
  obtain ⟨requestId,voiceToken,_,⟨_,hin⟩ | ⟨message,hfail⟩⟩ := voice_login (p := true) (n := 0)
    (r := ⟨.voiceAuthRequest 1 22,Sdk.ApiClient.voiceAuthSuccess,.returned (.ok true)⟩) hrun rfl rfl
  · exact ⟨_,_,_,hrun,rfl,rfl,requestId,voiceToken,hin⟩
  · cases hfail

end VoiceApp.System.VoiceNetwork
