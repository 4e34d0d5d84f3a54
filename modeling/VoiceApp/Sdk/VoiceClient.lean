import VoiceApp.Sdk.UdpAttempts
import VoiceApp.Sdk.VoiceStream
import VoiceApp.Server.Event

/-! # The voice side of a client

The microphone's pipelines and the calls to the relay share the send channel of the UDP
client, and every handler task has a socket of its own, known by its local address. The
calls over TCP draw their request ids from the same counter.
-/
namespace VoiceApp.Sdk
open Protocol
open Server (SocketAddr)

/-- What `authenticate_voice` looks for in the response. -/
def ApiClient.voiceAuthSuccess : Packet → Except String Bool
  | .voiceAuthResponse _ success => .ok success
  | _ => .error "Expected VoiceAuthResponse packet"

/-- `authenticate_voice` behind its request. -/
def ApiClient.authenticateVoice (response : Except RequestError Bool) : Except RequestError Unit := do
  let success ← response
  if success then .ok () else .error (.connectionFailed "Voice auth denied")

/-- The sockets are in the order of the handler tasks. -/
structure VoiceClient (S R F : Type) where
  requestIdCounter : UInt64
  udp : UdpClient Bool
  sockets : List SocketAddr
  pipelines : InputOutputManager S R F

namespace VoiceClient
variable {S R F : Type}

def new : VoiceClient S R F := ⟨1,.new,[],.new⟩

/-- `call` is a step of a call or of a handler task. -/
inductive Label (F : Type)
  | connect (addr : SocketAddr)
  | requestOverTcp
  | authenticateVoice (voiceToken : UInt64)
  | call (label : UdpClient.Label Bool)
  | pipeline (label : InputOutputManager.Label F)

/-- The steps of calls and handler tasks. -/
def OfCall : UdpClient.Label Bool → Prop
  | .connect => False
  | .sendPacket _ => False
  | .sendRequest .. => False
  | _ => True

/-- The datagram that a step hands to the network. -/
def sends (v : VoiceClient S R F) : Label F → List (SocketAddr × Bytes)
  | .call (.outgoing k true) => ((v.sockets[k]?).bind fun addr =>
      (v.udp.sendTx[v.udp.taken]?).map fun data => (addr,data)).toList
  | _ => []

/-- The datagram that a step takes from the network. -/
def receives (v : VoiceClient S R F) : Label F → Option (Bytes × SocketAddr)
  | .call (.incoming k (some bytes)) => (v.sockets[k]?).map fun addr => (bytes,addr)
  | _ => none

section Steps
variable [Zero F] (opus : OpusEncoder S F) (rubato : AudioResampler R F)
  (newEncoder : Except VoiceError S) (newResampler : UInt32 → Except VoiceError R)

/-- One step of the voice side. The counter is taken not to wrap. -/
inductive Step (v : VoiceClient S R F) : Label F → VoiceClient S R F → Prop
  | connect {addr udp} (h : UdpClient.Step v.udp .connect udp) :
      Step v (.connect addr) { v with udp := udp, sockets := v.sockets ++ [addr] }
  | requestOverTcp (hid : v.requestIdCounter.toNat + 1 < 2 ^ 64) :
      Step v .requestOverTcp { v with requestIdCounter := v.requestIdCounter + 1 }
  | authenticateVoice {voiceToken udp} (hid : v.requestIdCounter.toNat + 1 < 2 ^ 64)
      (h : UdpClient.Step v.udp (.sendRequest (.voiceAuthRequest v.requestIdCounter voiceToken)
        ApiClient.voiceAuthSuccess) udp) :
      Step v (.authenticateVoice voiceToken)
        { v with requestIdCounter := v.requestIdCounter + 1, udp := udp }
  | call {label udp} (hcall : OfCall label) (h : UdpClient.Step v.udp label udp) :
      Step v (.call label) { v with udp := udp }
  -- what the pipelines put on their queue is in the send channel; the client keeps a receiver
  | pipeline {label pipelines more}
      (h : InputOutputManager.Step opus rubato none newEncoder newResampler v.pipelines label pipelines)
      (hmore : pipelines.sent = v.pipelines.sent ++ more) :
      Step v (.pipeline label)
        { v with
          udp := { v.udp with sendTx := v.udp.sendTx ++ more }
          pipelines := pipelines }

end Steps

/-! ## What is in the send channel -/

def Label.pipeline? : Label F → Option (InputOutputManager.Label F)
  | .pipeline label => some label
  | _ => none

def Label.token? : Label F → Option UInt64
  | .authenticateVoice voiceToken => some voiceToken
  | _ => none

/-- The voice packets that the pipelines have queued. -/
def queued (trace : List (Label F)) : List VoiceData :=
  InputOutputManager.queued (trace.filterMap Label.pipeline?)

/-- The tokens that the client has presented. -/
def presented (trace : List (Label F)) : List UInt64 := trace.filterMap Label.token?

theorem queued_append (trace more : List (Label F)) : queued (trace ++ more) = queued trace ++ queued more := by
  rw [queued,List.filterMap_append]
  exact List.filterMap_append ..

theorem presented_append (trace more : List (Label F)) :
    presented (trace ++ more) = presented trace ++ presented more := List.filterMap_append ..

/-- A packet in the send channel is a voice packet of a pipeline or the request of a call. -/
def Origin (trace : List (Label F)) (v : VoiceClient S R F) (data : Bytes) : Prop :=
  (∃ d ∈ queued trace, d.packet.encode = some data ∧ d.opusFrame.length ≤ maxOpusFrame) ∨
  ∃ r ∈ v.udp.requests, r.packet.encode = some data

/-- Every call asks for the authentication of a token, under an id of its own. -/
structure Sound (trace : List (Label F)) (v : VoiceClient S R F) : Prop where
  sockets : v.sockets.length = v.udp.tasks.length
  sent : ∀ data ∈ v.udp.sendTx, Origin trace v data
  asked : ∀ r ∈ v.udp.requests, r.decoder = ApiClient.voiceAuthSuccess ∧ ∃ requestId voiceToken,
    r.packet = .voiceAuthRequest requestId voiceToken ∧ voiceToken ∈ presented trace ∧
    requestId.toNat < v.requestIdCounter.toNat
  distinct : (v.udp.requests.map fun r => r.packet.requestId).Nodup

/-! ## One step -/

/-- A place is written over by a value with the same image. -/
theorem map_set_of_some {A B : Type} {l : List A} {n : ℕ} {a a' : A} {f : A → B} (h : l[n]? = some a)
    (hsame : f a' = f a) : (l.set n a').map f = l.map f := by
  apply List.ext_getElem?
  intro m
  rw [List.getElem?_map,List.getElem?_map,getElem?_set_of_some h]
  split
  · rename_i hm
    rw [hm,h,Option.map_some,Option.map_some,hsame]
  · rfl

/-- What a call asks. -/
def question (r : UdpClient.Request Bool) : Packet × (Packet → Except String Bool) := (r.packet,r.decoder)

/-- Calls and handler tasks leave alone what is asked, and send no other packets than that. -/
theorem step_call {u u' : UdpClient Bool} {label : UdpClient.Label Bool} (hcall : OfCall label)
    (h : UdpClient.Step u label u') :
    u'.requests.map question = u.requests.map question ∧ u'.tasks.length = u.tasks.length ∧
      (u'.sendTx = u.sendTx ∨
        ∃ r ∈ u.requests, ∃ data, r.packet.encode = some data ∧ u'.sendTx = u.sendTx ++ [data]) := by
  cases h with
  | connect => exact hcall.elim
  | sendPacket => exact hcall.elim
  | sendRequest => exact hcall.elim
  | register hr => exact ⟨map_set_of_some hr rfl,rfl,.inl rfl⟩
  | send hr hp he => exact ⟨map_set_of_some hr rfl,rfl,.inr ⟨_,List.mem_of_getElem? hr,_,he,rfl⟩⟩
  | encodePanics hr => exact ⟨map_set_of_some hr rfl,rfl,.inl rfl⟩
  | outgoing => exact ⟨rfl,List.length_set,.inl rfl⟩
  | @incoming k result =>
    cases result with
    | none => exact ⟨rfl,List.length_set,.inl rfl⟩
    | some bytes => exact ⟨rfl,List.length_set,.inl rfl⟩
  | respond hr => exact ⟨map_set_of_some hr rfl,rfl,.inl rfl⟩
  | closed hr => exact ⟨map_set_of_some hr rfl,rfl,.inl rfl⟩
  | timeout hr => exact ⟨map_set_of_some hr rfl,rfl,.inl rfl⟩
  | cleanUp hr => exact ⟨map_set_of_some hr rfl,rfl,.inl rfl⟩

section Queue
variable [Zero F] {opus : OpusEncoder S F} {rubato : AudioResampler R F} {closesAfter : Option ℕ}
  {newEncoder : Except VoiceError S} {newResampler : UInt32 → Except VoiceError R}

theorem Encoder.encode_fits {e e' : Encoder S} {samples : List F} {d : VoiceData}
    (h : e.encode opus samples = .ok (d,e')) : d.opusFrame.length ≤ maxOpusFrame := by
  unfold Encoder.encode at h
  split at h
  · cases h
  · split at h
    · cases h
    · rename_i hencode
      cases h
      exact opus.length_le hencode

/-- A pipeline puts the packets on its queue that its label names. -/
theorem step_queues {m m' : InputOutputManager S R F} {label : InputOutputManager.Label F}
    {more : List Bytes} (h : InputOutputManager.Step opus rubato closesAfter newEncoder newResampler m label m')
    (hmore : m'.sent = m.sent ++ more) : ∀ data ∈ more, ∃ d ∈ InputOutputManager.queued [label],
      d.packet.encode = some data ∧ d.opusFrame.length ≤ maxOpusFrame := by
  have hquiet : m'.sent = m.sent → more = [] := by
    intro hsame
    rw [hsame] at hmore
    exact List.self_eq_append_right.mp hmore
  have hnone : more = [] → ∀ data ∈ more, ∃ d ∈ InputOutputManager.queued [label],
      d.packet.encode = some data ∧ d.opusFrame.length ≤ maxOpusFrame := by
    rintro rfl data hdata
    cases hdata
  cases h with
  | @queue i task d t htask hrunning hfull hdata hrun =>
    obtain ⟨hencode,bytes,hbytes,hsent⟩ := encodeFrame_queues hdata hrun
    obtain rfl : more = [bytes] := List.append_cancel_left (hmore.symm.trans hsent)
    intro data hmem
    rw [List.mem_singleton.mp hmem]
    exact ⟨d,List.mem_singleton_self _,hbytes,Encoder.encode_fits hencode⟩
  | fail htask hrunning hfull hrun => exact hnone (hquiet (encodeFrame_fails hrun))
  | _ => exact hnone (hquiet rfl)

end Queue

theorem mem_of_question {u u' : UdpClient Bool} (h : u'.requests.map question = u.requests.map question)
    {r : UdpClient.Request Bool} (hr : r ∈ u.requests) : ∃ r' ∈ u'.requests, question r' = question r := by
  have hmem : question r ∈ u'.requests.map question := by
    rw [h]
    exact List.mem_map_of_mem hr
  exact List.mem_map.mp hmem

theorem Origin.mono {trace : List (Label F)} {v v' : VoiceClient S R F} {data : Bytes}
    (h : Origin trace v data) (label : Label F)
    (hr : ∀ r ∈ v.udp.requests, ∃ r' ∈ v'.udp.requests, r'.packet = r.packet) :
    Origin (trace ++ [label]) v' data := by
  rcases h with ⟨d,hd,hencode⟩ | ⟨r,hmem,hencode⟩
  · left
    rw [queued_append]
    exact ⟨d,List.mem_append_left _ hd,hencode⟩
  · obtain ⟨r',hr',hpacket⟩ := hr r hmem
    right
    rw [← hpacket] at hencode
    exact ⟨r',hr',hencode⟩

section Runs
variable [Zero F] {opus : OpusEncoder S F} {rubato : AudioResampler R F}
  {newEncoder : Except VoiceError S} {newResampler : UInt32 → Except VoiceError R}
  {trace : List (Label F)} {v v' : VoiceClient S R F} {label : Label F}

omit [Zero F] in
/-- A step after which the calls ask what they have asked before. -/
theorem Sound.keep (h : Sound trace v) (hsockets : v'.sockets.length = v'.udp.tasks.length)
    (hasked : v'.udp.requests.map question = v.udp.requests.map question)
    (hcounter : v.requestIdCounter.toNat ≤ v'.requestIdCounter.toNat)
    (hsent : ∀ data ∈ v'.udp.sendTx, data ∈ v.udp.sendTx ∨ Origin (trace ++ [label]) v' data) :
    Sound (trace ++ [label]) v' := by
  constructor
  · exact hsockets
  · intro data hdata
    rcases hsent data hdata with hold | hnew
    · refine (h.sent data hold).mono label fun r hr => ?_
      obtain ⟨r',hr',hq⟩ := mem_of_question hasked hr
      exact ⟨r',hr',congrArg Prod.fst hq⟩
    · exact hnew
  · intro r' hr'
    obtain ⟨r,hr,hq⟩ := mem_of_question hasked.symm hr'
    obtain ⟨hdecoder,requestId,voiceToken,hpacket,htoken,hid⟩ := h.asked r hr
    refine ⟨(congrArg Prod.snd hq).symm.trans hdecoder,requestId,voiceToken,
      (congrArg Prod.fst hq).symm.trans hpacket,?_,hid.trans_le hcounter⟩
    rw [presented_append]
    exact List.mem_append_left _ htoken
  · have hids := congrArg (List.map fun q => q.1.requestId) hasked
    rw [List.map_map,List.map_map] at hids
    change (v'.udp.requests.map fun r => r.packet.requestId) = _ at hids
    rw [hids]
    exact h.distinct

omit [Zero F] in
/-- A call of `authenticate_voice` draws an id that no other call has. -/
theorem Sound.ask {voiceToken : UInt64} (h : Sound trace v)
    (hid : v.requestIdCounter.toNat + 1 < 2 ^ 64) :
    Sound (trace ++ [.authenticateVoice voiceToken])
      { v with
        requestIdCounter := v.requestIdCounter + 1
        udp := { v.udp with requests := v.udp.requests ++
          [.new (.voiceAuthRequest v.requestIdCounter voiceToken) ApiClient.voiceAuthSuccess] } } := by
  have hnext : (v.requestIdCounter + 1).toNat = v.requestIdCounter.toNat + 1 := by
    rw [UInt64.toNat_add]
    exact Nat.mod_eq_of_lt hid
  constructor
  · exact h.sockets
  · intro data hdata
    exact (h.sent data hdata).mono _ fun r hr => ⟨r,List.mem_append_left _ hr,rfl⟩
  · intro r hr
    rw [presented_append]
    change _ ∧ ∃ _ _, _ ∧ _ ∧ _ < (v.requestIdCounter + 1).toNat
    rw [hnext]
    rcases List.mem_append.mp hr with hold | hnew
    · obtain ⟨hdecoder,requestId,token,hpacket,htoken,hlt⟩ := h.asked r hold
      exact ⟨hdecoder,requestId,token,hpacket,List.mem_append_left _ htoken,hlt.trans (Nat.lt_succ_self _)⟩
    · rw [List.mem_singleton.mp hnew]
      exact ⟨rfl,_,_,rfl,List.mem_append_right _ (List.mem_singleton_self _),Nat.lt_succ_self _⟩
  · change ((v.udp.requests ++ [_]).map fun r : UdpClient.Request Bool => r.packet.requestId).Nodup
    rw [List.map_append]
    refine List.Nodup.append h.distinct (List.nodup_singleton _) ?_
    -- the ids drawn before are smaller
    intro id hold hnew
    obtain ⟨r,hr,rfl⟩ := List.mem_map.mp hold
    obtain ⟨_,requestId,token,hpacket,_,hlt⟩ := h.asked r hr
    have hsame := List.mem_singleton.mp hnew
    rw [hpacket] at hsame
    cases hsame
    exact hlt.false

theorem step_sound (h : Sound trace v) (hs : Step opus rubato newEncoder newResampler v label v') :
    Sound (trace ++ [label]) v' := by
  cases hs with
  | connect hstep =>
    cases hstep
    refine h.keep ?_ rfl le_rfl fun data hdata => .inl hdata
    change (v.sockets ++ [_]).length = (v.udp.tasks ++ [true]).length
    rw [List.length_append,List.length_append,h.sockets]
    rfl
  | requestOverTcp hid =>
    refine h.keep h.sockets rfl ?_ fun data hdata => .inl hdata
    change _ ≤ (v.requestIdCounter + 1).toNat
    rw [UInt64.toNat_add]
    exact (Nat.le_succ _).trans (Nat.mod_eq_of_lt hid).ge
  | authenticateVoice hid hstep =>
    cases hstep
    exact h.ask hid
  | call hcall hstep =>
    obtain ⟨hasked,htasks,hsent⟩ := step_call hcall hstep
    refine h.keep (h.sockets.trans htasks.symm) hasked le_rfl fun data hdata => ?_
    rcases hsent with hsame | ⟨r,hr,bytes,hencode,hmore⟩
    · exact .inl (hsame ▸ hdata)
    · change data ∈ _ at hdata
      rw [hmore] at hdata
      rcases List.mem_append.mp hdata with hold | hnew
      · exact .inl hold
      · rw [List.mem_singleton.mp hnew]
        obtain ⟨r',hr',hq⟩ := mem_of_question hasked hr
        exact .inr (.inr ⟨r',hr',(congrArg (fun q => q.1.encode) hq).trans hencode⟩)
  | pipeline hstep hmore =>
    refine h.keep h.sockets rfl le_rfl fun data hdata => ?_
    rcases List.mem_append.mp hdata with hold | hnew
    · exact .inl hold
    · obtain ⟨d,hd,hencode⟩ := step_queues hstep hmore data hnew
      refine .inr (.inl ⟨d,?_,hencode⟩)
      rw [queued_append]
      exact List.mem_append_right _ hd

omit [Zero F] in
theorem sound_new : Sound [] (new : VoiceClient S R F) :=
  ⟨rfl,fun _ h => (by cases h),fun _ h => (by cases h),List.nodup_nil⟩

theorem run_sound (h : Run (Step opus rubato newEncoder newResampler) new trace v) : Sound trace v := by
  induction h with
  | refl => exact sound_new
  | snoc _ hs ih => exact step_sound ih hs

end Runs

/-! ## What goes to the network and comes from it -/

/-- What the client has received in a step. -/
def Receives (v : VoiceClient S R F) (label : Label F) (packet : Packet) : Prop :=
  ∃ bytes addr n, v.receives label = some (bytes,addr) ∧ addr ∈ v.sockets ∧
    Packet.decode (UdpClient.received bytes) = .ok (packet,n)

section Network
variable [Zero F] {opus : OpusEncoder S F} {rubato : AudioResampler R F}
  {newEncoder : Except VoiceError S} {newResampler : UInt32 → Except VoiceError R}
  {v v' : VoiceClient S R F} {label : Label F}

theorem step_sockets (h : Step opus rubato newEncoder newResampler v label v') :
    v'.sockets = v.sockets ∨ ∃ addr, label = .connect addr ∧ v'.sockets = v.sockets ++ [addr] := by
  cases h with
  | @connect addr => exact .inr ⟨addr,rfl,rfl⟩
  | _ => exact .inl rfl

theorem step_grows (h : Step opus rubato newEncoder newResampler v label v') :
    ∃ more, v'.udp.sendTx = v.udp.sendTx ++ more := by
  cases h with
  | connect h =>
    cases h
    exact ⟨[],(List.append_nil _).symm⟩
  | requestOverTcp => exact ⟨[],(List.append_nil _).symm⟩
  | authenticateVoice _ h =>
    cases h
    exact ⟨[],(List.append_nil _).symm⟩
  | call hcall h =>
    rcases (step_call hcall h).2.2 with hsame | ⟨_,_,data,_,hmore⟩
    · exact ⟨[],hsame.trans (List.append_nil _).symm⟩
    · exact ⟨[data],hmore⟩
  | pipeline => exact ⟨_,rfl⟩

omit [Zero F] in
/-- What is sent comes from the send channel and from a socket of the client. -/
theorem mem_sends {src : SocketAddr} {data : Bytes} (h : (src,data) ∈ v.sends label) :
    src ∈ v.sockets ∧ data ∈ v.udp.sendTx := by
  unfold sends at h
  split at h
  · obtain ⟨addr,haddr,hdata⟩ := Option.bind_eq_some_iff.mp (Option.mem_toList.mp h)
    obtain ⟨bytes,hbytes,heq⟩ := Option.map_eq_some_iff.mp hdata
    cases heq
    exact ⟨List.mem_of_getElem? haddr,List.mem_of_getElem? hbytes⟩
  · cases h

/-- Only a datagram adds to the packet stream and to the answers, and an answer goes to the
call that waits for its id. -/
theorem step_hands (hlength : v.sockets.length = v.udp.tasks.length)
    (h : Step opus rubato newEncoder newResampler v label v') :
    (∀ packet ∈ v'.udp.handler.packetTx,
      packet ∈ v.udp.handler.packetTx ∨ v.Receives label packet) ∧
    ∀ tx packet, (tx,packet) ∈ v'.udp.answered → (tx,packet) ∈ v.udp.answered ∨
      v.Receives label packet ∧ ∃ id, UdpClient.responseId packet = some id ∧
        v.udp.table.lookup id = some tx := by
  have hsame : v'.udp.handler.packetTx = v.udp.handler.packetTx →
      v'.udp.answered = v.udp.answered → (∀ packet ∈ v'.udp.handler.packetTx,
        packet ∈ v.udp.handler.packetTx ∨ v.Receives label packet) ∧
      ∀ tx packet, (tx,packet) ∈ v'.udp.answered → (tx,packet) ∈ v.udp.answered ∨
        v.Receives label packet ∧ ∃ id, UdpClient.responseId packet = some id ∧
          v.udp.table.lookup id = some tx := by
    intro hstream hanswered
    rw [hstream,hanswered]
    exact ⟨fun _ hmem => .inl hmem,fun _ _ hmem => .inl hmem⟩
  cases h with
  | connect h =>
    cases h
    exact hsame rfl rfl
  | requestOverTcp => exact hsame rfl rfl
  | authenticateVoice _ h =>
    cases h
    exact hsame rfl rfl
  | pipeline => exact hsame rfl rfl
  | call hcall h =>
    cases h with
    | connect => exact hcall.elim
    | sendPacket => exact hcall.elim
    | sendRequest => exact hcall.elim
    | @incoming k result hrun =>
      cases result with
      | none => exact hsame rfl rfl
      | some bytes =>
        obtain ⟨hlt,_⟩ := List.getElem?_eq_some_iff.mp hrun
        rw [← hlength] at hlt
        have haddr := List.getElem?_eq_getElem hlt
        have hreceives : ∀ {packet n}, Packet.decode (UdpClient.received bytes) = .ok (packet,n) →
            v.Receives (.call (.incoming k (some bytes))) packet := by
          intro packet n hd
          refine ⟨bytes,v.sockets[k],n,?_,List.getElem_mem hlt,hd⟩
          rw [receives,haddr]
          rfl
        cases hd : Packet.decode (UdpClient.received bytes) with
        | error e =>
          obtain ⟨hstream,hpending⟩ := UdpClient.incoming_refuses v.udp.handler hd
          exact hsame hstream (congrArg Pending.answered hpending)
        | ok result =>
          obtain ⟨packet,n⟩ := result
          rcases UdpClient.incoming_hands v.udp.handler hd with
            ⟨hstream,hpending⟩ | ⟨hstream,id,tx,hid,hwait,hpending⟩
          · refine ⟨fun packet' hmem => ?_,fun tx packet' hmem => .inl ?_⟩
            · change packet' ∈ UdpClient.Handler.packetTx _ at hmem
              rw [show (v.udp.incoming k (some bytes)).handler.packetTx = _ from hstream] at hmem
              rcases List.mem_append.mp hmem with hold | hnew
              · exact .inl hold
              · rw [List.mem_singleton.mp hnew]
                exact .inr (hreceives hd)
            · change _ ∈ Pending.answered _ at hmem
              rw [show (v.udp.incoming k (some bytes)).handler.pendingRequests = _ from hpending] at hmem
              exact hmem
          · refine ⟨fun packet' hmem => .inl (hstream ▸ hmem),fun tx' packet' hmem => ?_⟩
            change _ ∈ Pending.answered _ at hmem
            rw [show (v.udp.incoming k (some bytes)).handler.pendingRequests = _ from hpending] at hmem
            rcases List.mem_append.mp hmem with hold | hnew
            · exact .inl hold
            · cases List.mem_singleton.mp hnew
              exact .inr ⟨hreceives hd,id,hid,hwait⟩
    | _ => exact hsame rfl rfl

end Network
end VoiceClient
end VoiceApp.Sdk
