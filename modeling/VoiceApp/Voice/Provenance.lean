import VoiceApp.Sdk.UdpClient
import VoiceApp.Voice.Relay

/-! # Where relayed voice comes from

Every entry of the address cache was put there by an authentication from that address.
Everything else about a relayed packet can be read off the one step that sends it.
-/
namespace VoiceApp.Voice
open Protocol Server

namespace VoiceRelayServer

/-- Earlier in the run that led to `t` the source presented the token of session `userId`. -/
def AuthenticatedAs (trace : Trace) (t : VoiceRelayServer) (src : SocketAddr) (userId : UInt64) :
    Prop :=
  ∃ pre post b sends s session requestId n, trace = pre ++ (.datagram src b,sends) :: post ∧
    Run Step new pre s ∧ Run Step s ((.datagram src b,sends) :: post) t ∧
    s.sessions.lookup userId = some session ∧
    Packet.decode (received b) = .ok (.voiceAuthRequest requestId session.token,n)

theorem AuthenticatedAs.snoc {trace : Trace} {t u : VoiceRelayServer} {label : Input × List Send}
    {src : SocketAddr} {userId : UInt64} (h : AuthenticatedAs trace t src userId)
    (hstep : Step t label u) : AuthenticatedAs (trace ++ [label]) u src userId := by
  obtain ⟨pre,post,b,sends,s,session,requestId,n,rfl,hpre,hpost,hl,hd⟩ := h
  exact ⟨pre,post ++ [label],b,sends,s,session,requestId,n,by simp,hpre,hpost.snoc hstep,hl,hd⟩

/-- Events only ever take addresses out of the cache. -/
theorem handleEvent_lookup {s : VoiceRelayServer} {cache : List (SocketAddr × UInt64)} {e : Event}
    {addr : SocketAddr} {userId : UInt64}
    (h : (s.handleEvent cache e).idsByAddresses.lookup addr = some userId) :
    s.idsByAddresses.lookup addr = some userId := by
  cases e with
  | userConnected => exact h
  | voiceJoined => simpa [handleEvent] using h
  | voiceLeft => simpa [handleEvent] using h
  | userDisconnected id =>
    simp only [handleEvent] at h
    split at h
    · rw [Table.lookup_erase_eq] at h
      split at h
      · cases h
      · exact h
    · exact h

/-- Every cached address authenticated as the user it is cached for. -/
theorem run_cache_authenticated {trace : Trace} {s : VoiceRelayServer} (h : Run Step new trace s) :
    ∀ src userId, s.idsByAddresses.lookup src = some userId →
      AuthenticatedAs trace s src userId := by
  induction h with
  | refl =>
    intro src userId hl
    simp [new] at hl
  | @snoc trace t label u hr hstep ih =>
    intro src userId hl
    cases hstep with
    | event hc => exact (ih src userId (handleEvent_lookup hl)).snoc (.event hc)
    | receiveError => exact (ih src userId hl).snoc .receiveError
    | @datagram origin b iter _ sends hi h =>
      have hstep : Step t (.datagram origin b,sends) u := .datagram hi h
      have hcase := handlePacket_handled iter t origin (received b)
      rw [h] at hcase
      cases hcase with
      | @authenticated requestId voiceToken n id session out hd hf hout =>
        simp only [Table.lookup_insert_eq] at hl
        split at hl
        · rename_i hsrc
          cases hl
          subst hsrc
          obtain ⟨hses,htok⟩ := hi.find?_some hf
          rw [beq_iff_eq] at htok
          rw [← htok] at hd
          exact ⟨trace,[],b,_,t,session,requestId,n,rfl,hr,.single hstep,hses,hd⟩
        · exact (ih src userId hl).snoc hstep
      | forwarded => exact (ih src userId hl).snoc hstep
      | ignored => exact (ih src userId hl).snoc hstep

/-- The packet goes to the address of every other session in voice, once each. -/
def SentToVoice (s : VoiceRelayServer) (userId : UInt64) (out : Bytes) (sends : List Send) : Prop :=
  ∃ ids : List UInt64, ids.Nodup ∧
    (∀ id, id ∈ ids ↔ id ≠ userId ∧ ∃ session, s.sessions.lookup id = some session ∧
      session.inVoice = true) ∧
    List.Forall₂ (fun id send => send.1 = out ∧ ∃ session, s.sessions.lookup id = some session ∧
      session.udpAddress = some send.2) ids sends

theorem sentToVoice_of_mapM {s : VoiceRelayServer} {userId : UInt64} {out : Bytes}
    {iter : List (UInt64 × VoiceSession)} {recipients : List SocketAddr}
    (hi : Table.Enumerates s.sessions iter)
    (hr : (iter.filter fun e => e.2.inVoice && e.1 != userId).mapM (fun e => e.2.udpAddress) =
      some recipients) :
    SentToVoice s userId out (recipients.map fun addr => (out,addr)) := by
  refine ⟨(iter.filter fun e => e.2.inVoice && e.1 != userId).map Prod.fst,
    hi.nodup.sublist (List.filter_sublist.map _),fun id => ?_,?_⟩
  · constructor
    · intro h
      obtain ⟨⟨id',session⟩,hmem,rfl⟩ := List.mem_map.mp h
      obtain ⟨hmem,hsel⟩ := List.mem_filter.mp hmem
      simp only [Bool.and_eq_true,bne_iff_ne] at hsel
      exact ⟨hsel.2,session,(hi.mem_iff _ _).mp hmem,hsel.1⟩
    · rintro ⟨hne,session,hl,hv⟩
      refine List.mem_map.mpr ⟨(id,session),List.mem_filter.mpr ⟨(hi.mem_iff _ _).mpr hl,?_⟩,rfl⟩
      simp [hv,hne]
  · have hmap := Table.mapM_eq_some _ hr
    have hsub : ∀ e ∈ iter.filter fun e => e.2.inVoice && e.1 != userId,
        s.sessions.lookup e.1 = some e.2 :=
      fun e he => (hi.mem_iff _ _).mp (List.mem_filter.mp he).1
    clear hr
    generalize iter.filter (fun e => e.2.inVoice && e.1 != userId) = chosen at hmap hsub
    induction chosen generalizing recipients with
    | nil =>
      cases recipients with
      | nil => exact .nil
      | cons addr rest => simp at hmap
    | cons e rest ih =>
      cases recipients with
      | nil => simp at hmap
      | cons addr addrs =>
        simp only [List.map_cons,List.cons.injEq] at hmap
        exact .cons ⟨rfl,e.2,hsub e (by simp),hmap.1⟩
          (ih hmap.2 fun e' he' => hsub e' (List.mem_cons_of_mem e he'))

/-- Whoever is sent the packet is in voice at that address and not the sender. -/
theorem SentToVoice.recipient {s : VoiceRelayServer} {userId : UInt64} {out : Bytes}
    {sends : List Send} {send : Send} (h : SentToVoice s userId out sends) (hsend : send ∈ sends) :
    ∃ id session, id ≠ userId ∧ s.sessions.lookup id = some session ∧ session.inVoice = true ∧
      session.udpAddress = some send.2 := by
  obtain ⟨ids,hnodup,hids,hto⟩ := h
  have hpair : ∃ id ∈ ids, ∃ session, s.sessions.lookup id = some session ∧
      session.udpAddress = some send.2 := by
    clear hids hnodup
    induction hto with
    | nil => cases hsend
    | cons hhead _ ih =>
      rcases List.mem_cons.mp hsend with rfl | hrest
      · exact ⟨_,List.mem_cons_self,hhead.2⟩
      · obtain ⟨id,hmem,hl⟩ := ih hrest
        exact ⟨id,List.mem_cons_of_mem _ hmem,hl⟩
  obtain ⟨id,hmem,session,hl,haddr⟩ := hpair
  obtain ⟨hne,session',hl',hv⟩ := (hids id).mp hmem
  cases hl.symm.trans hl'
  exact ⟨id,session,hne,hl,hv,haddr⟩

/-- Everybody else in voice is sent the packet. -/
theorem SentToVoice.reaches {s : VoiceRelayServer} {userId id : UInt64} {out : Bytes}
    {sends : List Send} {session : VoiceSession} (h : SentToVoice s userId out sends)
    (hne : id ≠ userId) (hl : s.sessions.lookup id = some session) (hv : session.inVoice = true) :
    ∃ send ∈ sends, send.1 = out := by
  obtain ⟨ids,_,hids,hto⟩ := h
  have hmem := (hids id).mpr ⟨hne,session,hl,hv⟩
  cases hto with
  | nil => cases hmem
  | cons hhead _ => exact ⟨_,List.mem_cons_self,hhead.1⟩

/-- What one turn sends as voice data is the image of the datagram it has just received,
under the id cached for its source. -/
theorem step_relays {s t : VoiceRelayServer} {input : Input} {sends : List Send} {send : Send}
    {userId : UInt64} {sequence timestamp : UInt32} {data : Bytes} {n : ℕ}
    (hstep : Step s (input,sends) t) (hsend : send ∈ sends)
    (hd : Packet.decode send.1 = .ok (.voiceData userId sequence timestamp data,n)) :
    ∃ src b claimed m, input = .datagram src b ∧
      Packet.decode (received b) = .ok (.voiceData claimed sequence timestamp data,m) ∧
      (Packet.voiceData userId sequence timestamp data).encode = some send.1 ∧
      send.1.length ≤ packetBufferSize ∧ s.idsByAddresses.lookup src = some userId ∧
      SentToVoice s userId send.1 sends := by
  cases hstep with
  | event => cases hsend
  | receiveError => cases hsend
  | @datagram src b iter _ _ hi h =>
    have hcase := handlePacket_handled iter s src (received b)
    rw [h] at hcase
    cases hcase with
    | authenticated hd' hf hout =>
      rw [List.mem_singleton.mp hsend] at hd
      have hback := Packet.decode_self hout
      cases hd.symm.trans hback
    | ignored => cases hsend
    | @forwarded claimed _ _ _ m _ out recipients hd' hu hout hr =>
      obtain ⟨addr,_,rfl⟩ := List.mem_map.mp hsend
      have hback := Packet.decode_self hout
      cases hd.symm.trans hback
      obtain ⟨out',hout',hlen⟩ := encode_forwarded userId hd'
      cases hout.symm.trans hout'
      refine ⟨src,b,claimed,m,rfl,hd',hout,hlen.trans ?_,hu,sentToVoice_of_mapM hi hr⟩
      simp [received,packetBufferSize]

/-- Only a `VoiceAuthRequest` with the token of a session changes the relay. -/
theorem step_unauthenticated {s t : VoiceRelayServer} {src : SocketAddr} {b : Bytes}
    {sends : List Send} (hstep : Step s (.datagram src b,sends) t)
    (hno : ∀ userId session requestId n, s.sessions.lookup userId = some session →
      Packet.decode (received b) ≠ .ok (.voiceAuthRequest requestId session.token,n)) : t = s := by
  cases hstep with
  | @datagram _ _ iter _ _ hi h =>
    have hcase := handlePacket_handled iter s src (received b)
    rw [h] at hcase
    cases hcase with
    | authenticated hd hf hout =>
      obtain ⟨hl,htok⟩ := hi.find?_some hf
      rw [beq_iff_eq] at htok
      rw [← htok] at hd
      exact (hno _ _ _ _ hl hd).elim
    | forwarded => rfl
    | ignored => rfl

/-- Relayed voice is authentic and intact, goes to the others in voice once each, and no
other datagram than a successful authentication changes the relay. -/
theorem run_relays_authentic {trace : Trace} {s t : VoiceRelayServer} {input : Input}
    {sends : List Send} (hr : Run Step new trace s) (hstep : Step s (input,sends) t) :
    (∀ send ∈ sends, ∀ userId sequence timestamp data n,
      Packet.decode send.1 = .ok (.voiceData userId sequence timestamp data,n) →
        ∃ src b claimed m, input = .datagram src b ∧
          Packet.decode (received b) = .ok (.voiceData claimed sequence timestamp data,m) ∧
          (Packet.voiceData userId sequence timestamp data).encode = some send.1 ∧
          AuthenticatedAs trace s src userId ∧
          send.1.length ≤ packetBufferSize ∧ send.1.length ≤ Sdk.UdpClient.readBufSize ∧
          SentToVoice s userId send.1 sends) ∧
    ∀ src b, input = .datagram src b →
      (∀ userId session requestId n, s.sessions.lookup userId = some session →
        Packet.decode (received b) ≠ .ok (.voiceAuthRequest requestId session.token,n)) → t = s := by
  refine ⟨fun send hsend userId sequence timestamp data n hd => ?_,?_⟩
  · obtain ⟨src,b,claimed,m,rfl,hb,hout,hlen,hu,hto⟩ := step_relays hstep hsend hd
    exact ⟨src,b,claimed,m,rfl,hb,hout,run_cache_authenticated hr src userId hu,hlen,hlen,hto⟩
  · rintro src b rfl hno
    exact step_unauthenticated hstep hno

/-- User 1 speaks to user 2. -/
theorem run_relays_authentic_pair : ∃ trace s out, Run Step new trace s ∧
    (Packet.voiceData 1 5 9 [1,2]).encode = some out ∧ AuthenticatedAs trace s (.v4 1 1) 1 ∧
    SentToVoice s 1 out [(out,.v4 2 2)] := by
  obtain ⟨sends2,sends1,hr⟩ := run_pair
  obtain ⟨out,hout,hstep⟩ := step_forwards (.v4 1 1) 1 [.v4 2 2] decode_speech (by decide) pair_sessions rfl
  have hback := Packet.decode_self hout
  obtain ⟨_,_,_,_,h,_,_,hauth,_,_,hto⟩ := (run_relays_authentic hr hstep).1 (out,.v4 2 2) (by simp)
    1 5 9 [1,2] _ hback
  cases h
  exact ⟨_,_,out,hr,hout,hauth,hto⟩

/-- Whatever the relay sends as voice data, a client's handler passes on unchanged. -/
theorem relayed_reaches_client {s t : VoiceRelayServer} {input : Input} {sends : List Send}
    {send : Send} {userId : UInt64} {sequence timestamp : UInt32} {data : Bytes} {n : ℕ}
    (hstep : Step s (input,sends) t) (hsend : send ∈ sends)
    (hd : Packet.decode send.1 = .ok (.voiceData userId sequence timestamp data,n))
    (c : Sdk.UdpClient.Handler) :
    Sdk.UdpClient.handleIncoming c (some (send.1.take Sdk.UdpClient.readBufSize)) =
      .ok (true,{ c with
        packetTx := c.packetTx ++ [.voiceData userId sequence timestamp data]
        bytesReceived := c.bytesReceived + UInt64.ofNat send.1.length }) := by
  obtain ⟨_,_,_,_,_,_,hout,hlen,_⟩ := step_relays hstep hsend hd
  exact Sdk.UdpClient.handleIncoming_voiceData hout hlen c

end VoiceRelayServer
end VoiceApp.Voice
