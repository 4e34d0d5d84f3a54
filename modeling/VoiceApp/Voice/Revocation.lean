import VoiceApp.Voice.Relay

/-! # What a disconnect revokes

Processing `UserDisconnected` removes the session and the first cached address found for
it. A user whose voice came from one address is thereby forgotten for good; any further
address that used the same token stays in the cache.
-/
namespace VoiceApp.Voice
open Protocol Server

namespace VoiceRelayServer

/-- No session and no cached address is left of the user. -/
structure Gone (s : VoiceRelayServer) (id : UInt64) : Prop where
  session : s.sessions.lookup id = none
  cache : ∀ addr, s.idsByAddresses.lookup addr ≠ some id

/-- The bytes are voice data under this id. -/
def SpeaksAs (id : UInt64) (send : Send) : Prop :=
  ∃ sequence timestamp data n, Packet.decode send.1 = .ok (.voiceData id sequence timestamp data,n)

/-- In every future in which the id is not given out again, no address maps to it and
nothing is sent in its name. -/
def Silenced (s : VoiceRelayServer) (id : UInt64) : Prop :=
  ∀ (trace : Trace) (t : VoiceRelayServer), Run Step s trace t →
    (∀ label ∈ trace, ∀ token, label.1 ≠ .event (.userConnected id token)) →
      (∀ addr, t.idsByAddresses.lookup addr ≠ some id) ∧
        ∀ label ∈ trace, ∀ send ∈ label.2, ¬ SpeaksAs id send

/-- At most one address maps to the user. -/
def SingleAddress (s : VoiceRelayServer) (id : UInt64) : Prop :=
  ∀ a b, s.idsByAddresses.lookup a = some id → s.idsByAddresses.lookup b = some id → a = b

theorem not_speaksAs_voiceAuthResponse {requestId id : UInt64} {success : Bool} {out : Bytes}
    {dest : SocketAddr} (h : (Packet.voiceAuthResponse requestId success).encode = some out) :
    ¬ SpeaksAs id (out,dest) := by
  rintro ⟨sequence,timestamp,data,n,hd⟩
  have hback := Packet.decode_self h
  cases hd.symm.trans hback

/-- A relayed packet speaks as exactly the id that was put into it. -/
theorem speaksAs_voiceData {userId id : UInt64} {sequence timestamp : UInt32} {data out : Bytes}
    {dest : SocketAddr} (h : (Packet.voiceData userId sequence timestamp data).encode = some out)
    (hs : SpeaksAs id (out,dest)) : id = userId := by
  obtain ⟨sequence',timestamp',data',n,hd⟩ := hs
  have hback := Packet.decode_self h
  cases hd.symm.trans hback
  rfl

theorem setInVoice_gone {s : VoiceRelayServer} {id other : UInt64} {value : Bool} (hs : s.Gone id) :
    (s.setInVoice other value).Gone id := by
  refine ⟨?_,fun addr => by simpa using hs.cache addr⟩
  rw [setInVoice_lookup]
  by_cases hid : id = other
  · rw [if_pos hid,← hid,hs.session]
    rfl
  · rw [if_neg hid]
    exact hs.session

theorem handleEvent_gone {s : VoiceRelayServer} {id : UInt64} {cache : List (SocketAddr × UInt64)}
    {e : Event} (hs : s.Gone id) (he : ∀ token, e ≠ .userConnected id token) :
    (s.handleEvent cache e).Gone id := by
  cases e with
  | userConnected other token =>
    refine ⟨?_,hs.cache⟩
    have hne : id ≠ other := fun h => he token (by rw [h])
    simp only [handleEvent,Table.lookup_insert_eq,if_neg hne]
    exact hs.session
  | voiceJoined other => exact setInVoice_gone hs
  | voiceLeft other => exact setInVoice_gone hs
  | userDisconnected other =>
    refine ⟨?_,fun addr => ?_⟩
    · simp only [handleEvent,Table.lookup_erase_eq,hs.session,ite_self]
    · simp only [handleEvent]
      split
      · rw [Table.lookup_erase_eq]
        split
        · simp
        · exact hs.cache addr
      · exact hs.cache addr

/-- A forgotten user stays forgotten, and no datagram brings its voice back. -/
theorem step_gone {s t : VoiceRelayServer} {label : Input × List Send} {id : UInt64} (hs : s.Gone id)
    (hstep : Step s label t) (he : ∀ token, label.1 ≠ .event (.userConnected id token)) :
    t.Gone id ∧ ∀ send ∈ label.2, ¬ SpeaksAs id send := by
  cases hstep with
  | event hc => exact ⟨handleEvent_gone hs fun token h => he token (by rw [h]),by simp⟩
  | receiveError => exact ⟨hs,by simp⟩
  | @datagram src b iter _ sends hi h =>
    have hcase := handlePacket_handled iter s src (received b)
    rw [h] at hcase
    cases hcase with
    | authenticated hd hf hout =>
      rename_i userId session out
      obtain ⟨hl,_⟩ := hi.find?_some hf
      have hne : id ≠ userId := by
        rintro rfl
        simp [hs.session] at hl
      refine ⟨⟨?_,fun addr => ?_⟩,?_⟩
      · simp only [Table.lookup_insert_eq,if_neg hne]
        exact hs.session
      · simp only [Table.lookup_insert_eq]
        split
        · exact fun h => hne (Option.some.inj h).symm
        · exact hs.cache addr
      · intro send hsend
        rw [List.mem_singleton.mp hsend]
        exact not_speaksAs_voiceAuthResponse hout
    | forwarded hd hu hout hr =>
      refine ⟨hs,fun send hsend hspeak => ?_⟩
      obtain ⟨addr,_,rfl⟩ := List.mem_map.mp hsend
      exact hs.cache src (by rw [speaksAs_voiceData hout hspeak]; exact hu)
    | ignored => exact ⟨hs,by simp⟩

theorem run_gone {s t : VoiceRelayServer} {trace : Trace} {id : UInt64} (h : Run Step s trace t)
    (hs : s.Gone id) (he : ∀ label ∈ trace, ∀ token, label.1 ≠ .event (.userConnected id token)) :
    t.Gone id ∧ ∀ label ∈ trace, ∀ send ∈ label.2, ¬ SpeaksAs id send := by
  induction h with
  | refl => exact ⟨hs,by simp⟩
  | snoc hr hstep ih =>
    obtain ⟨hgone,hbefore⟩ := ih fun label hmem => he label (List.mem_append_left _ hmem)
    obtain ⟨hgone',hlast⟩ := step_gone hgone hstep (he _ (by simp))
    refine ⟨hgone',fun label hmem => ?_⟩
    rcases List.mem_append.mp hmem with hmem | hmem
    · exact hbefore label hmem
    · rw [List.mem_singleton.mp hmem]
      exact hlast

/-- With at most one cached address, the search of the cache finds all there is. -/
theorem disconnect_gone {s : VoiceRelayServer} {id : UInt64} {cache : List (SocketAddr × UInt64)}
    (hc : Table.Enumerates s.idsByAddresses cache) (hone : s.SingleAddress id) :
    (s.handleEvent cache (.userDisconnected id)).Gone id := by
  refine ⟨by simp [handleEvent],fun addr h => ?_⟩
  simp only [handleEvent] at h
  cases hf : cache.find? fun e => e.2 == id with
  | none =>
    simp only [hf,Option.map_none] at h
    have := hc.find?_none hf h
    simp at this
  | some e =>
    obtain ⟨hl,heq⟩ := hc.find?_some hf
    rw [beq_iff_eq] at heq
    simp only [hf,Option.map_some,Table.lookup_erase_eq] at h
    split at h
    · cases h
    · rename_i hne
      exact hne (hone addr e.1 h (by rw [hl,heq]))

/-- A second address survives the removal of the first. -/
theorem disconnect_leaves {s : VoiceRelayServer} {id : UInt64} {cache : List (SocketAddr × UInt64)}
    {a b : SocketAddr} (hne : a ≠ b) (ha : s.idsByAddresses.lookup a = some id)
    (hb : s.idsByAddresses.lookup b = some id) :
    ∃ addr, (s.handleEvent cache (.userDisconnected id)).idsByAddresses.lookup addr = some id := by
  simp only [handleEvent]
  split
  · rename_i removed _
    by_cases hr : a = removed
    · exact ⟨b,by rw [Table.lookup_erase_eq,if_neg (fun h => hne (hr.trans h.symm)),hb]⟩
    · exact ⟨a,by rw [Table.lookup_erase_eq,if_neg hr,ha]⟩
  · exact ⟨a,ha⟩

/-- A disconnect silences the user exactly when at most one address used its token. -/
theorem userDisconnected_silences_iff {s t : VoiceRelayServer} {id : UInt64}
    (hstep : Step s (.event (.userDisconnected id),[]) t) : t.Silenced id ↔ s.SingleAddress id := by
  cases hstep with
  | event hc =>
    constructor
    · intro h a b ha hb
      by_contra hne
      obtain ⟨addr,haddr⟩ := disconnect_leaves hne ha hb
      exact (h [] _ .refl (by simp)).1 addr haddr
    · intro hone trace u hr he
      obtain ⟨hgone,hsends⟩ := run_gone hr (disconnect_gone hc hone) he
      exact ⟨hgone.cache,hsends⟩

/-- A `UserDisconnected` is processed only for a user with at most one cached address. -/
def DisconnectsSingle (s : VoiceRelayServer) (label : Input × List Send) : Prop :=
  ∀ id, label.1 = .event (.userDisconnected id) → s.SingleAddress id

/-- No id is connected again after it has been disconnected. -/
def NeverReused (trace : Trace) : Prop :=
  trace.Pairwise fun earlier later => ∀ id token,
    earlier.1 = .event (.userDisconnected id) → later.1 ≠ .event (.userConnected id token)

theorem NeverReused.after {pre post : Trace} {id : UInt64} {sends : List Send}
    (h : NeverReused (pre ++ (.event (.userDisconnected id),sends) :: post)) :
    ∀ label ∈ post, ∀ token, label.1 ≠ .event (.userConnected id token) := by
  have hcons := (List.pairwise_append.mp h).2.1
  exact fun label hmem token => (List.pairwise_cons.mp hcons).1 label hmem id token rfl

/-- While every user disconnects with at most one cached address, nobody speaks as a
user whose disconnect has been processed. -/
theorem run_disconnected_silent {trace : Trace} {s : VoiceRelayServer}
    (h : Run (Guarded DisconnectsSingle Step) new trace s) (hids : NeverReused trace) :
    ∀ pre post id sends, trace = pre ++ (.event (.userDisconnected id),sends) :: post →
      (∀ addr, s.idsByAddresses.lookup addr ≠ some id) ∧
        ∀ label ∈ post, ∀ send ∈ label.2, ¬ SpeaksAs id send := by
  rintro pre post id sends rfl
  obtain ⟨t,u,_,⟨hguard,hstep⟩,hpost⟩ := h.step_at
  obtain rfl : sends = [] := by
    cases hstep
    rfl
  have hsilent := (userDisconnected_silences_iff hstep).mpr (hguard id rfl)
  exact hsilent post s (hpost.mono fun _ _ _ hs => hs.2) hids.after

/-- User 1 authenticates from one address and disconnects. -/
theorem run_disconnected_silent_one : ∃ s : VoiceRelayServer,
    s.sessions.lookup 1 = none ∧ ∀ addr, s.idsByAddresses.lookup addr ≠ some 1 := by
  let connected := new.handleEvent [] (.userConnected 1 11)
  obtain ⟨sends,hauth⟩ := step_authenticates (s := connected) (.v4 1 1) 1 ⟨11,false,none⟩
    (by decide) decode_request
  refine ⟨_,?_,(run_disconnected_silent (.snoc (.snoc (.snoc .refl ⟨?_,.event .nil⟩) ⟨?_,hauth⟩)
    ⟨?_,.event (e := .userDisconnected 1) (.insert .nil _ _)⟩) ?_ [_,_] [] 1 [] rfl).1⟩
  · decide
  · simp [DisconnectsSingle]
  · simp [DisconnectsSingle]
  · intro id _ a b ha hb
    have hempty : connected.idsByAddresses = ∅ := rfl
    simp only [hempty,Table.lookup_insert_eq,Finmap.lookup_empty] at ha hb
    split at ha <;> split at hb <;> simp_all
  · simp [NeverReused]

/-- User 1 authenticates from two addresses and disconnects; the address that was not
removed goes on speaking as user 1. -/
theorem second_address_survives_disconnect : ∃ trace : Trace, ∃ s : VoiceRelayServer,
    trace.map Prod.fst = [.event (.userConnected 1 11),.event (.userConnected 2 22),
      .datagram (.v4 2 2) [3,0,16,0,0,0,0,0,0,0,7,0,0,0,0,0,0,0,22],.event (.voiceJoined 2),
      .datagram (.v4 1 1) [3,0,16,0,0,0,0,0,0,0,7,0,0,0,0,0,0,0,11],
      .datagram (.v4 1 2) [3,0,16,0,0,0,0,0,0,0,7,0,0,0,0,0,0,0,11],
      .event (.userDisconnected 1)] ∧
    Run Step new trace s ∧ NeverReused trace ∧ s.idsByAddresses.lookup (.v4 1 1) = some 1 ∧
    ∃ out, SpeaksAs 1 (out,.v4 2 2) ∧ Step s
      (.datagram (.v4 1 1) [97,0,18,0,0,0,0,0,0,0,0,0,0,0,5,0,0,0,9,1,2],[(out,.v4 2 2)]) s := by
  obtain ⟨sends2,sends1,hr⟩ := run_pair
  obtain ⟨sends,hsecond⟩ := step_authenticates (s := pair) (.v4 1 2) 1 ⟨11,false,some (.v4 1 1)⟩
    (by decide) decode_request
  have hcache := pair_idsByAddresses.insert (.v4 1 2) 1
  have hiter := (pair_sessions.insert 1 ⟨11,false,some (.v4 1 2)⟩).erase 1
  have hdisc := Step.event (s := ⟨pair.sessions.insert 1 ⟨11,false,some (.v4 1 2)⟩,
    pair.idsByAddresses.insert (.v4 1 2) 1⟩) (e := .userDisconnected 1) hcache
  obtain ⟨out,hout,hstep⟩ := step_forwards (s := VoiceRelayServer.handleEvent
    [(.v4 1 2,1),(.v4 1 1,1),(.v4 2 2,2)] ⟨pair.sessions.insert 1 ⟨11,false,some (.v4 1 2)⟩,
    pair.idsByAddresses.insert (.v4 1 2) 1⟩ (.userDisconnected 1))
    (.v4 1 1) 1 [.v4 2 2] decode_speech (by decide) hiter rfl
  refine ⟨_,_,rfl,(hr.snoc hsecond).snoc hdisc,?_,?_,out,?_,hstep⟩
  · simp [NeverReused]
  · decide
  · have hback := Packet.decode_self hout
    exact ⟨_,_,_,_,hback⟩

end VoiceRelayServer
end VoiceApp.Voice
