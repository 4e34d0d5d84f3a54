import VoiceApp.Voice.Relay

/-! # When the relay's task survives

The failing `unwrap` is reached exactly when somebody is in voice whose session has no
UDP address. Only a `VoiceJoined` consumed before the first authentication of that
session creates such an entry; behind one, a panic is always within reach.
-/
namespace VoiceApp.Voice
open Protocol Server

namespace VoiceRelayServer

/-- Everybody in voice has an address. -/
def Addressed (s : VoiceRelayServer) : Prop :=
  ∀ id session, s.sessions.lookup id = some session → session.inVoice = true →
    session.udpAddress.isSome = true

/-- A `VoiceJoined` is consumed only when its session, if it is still there, has
authenticated over UDP. -/
def JoinsAuthenticated (s : VoiceRelayServer) (label : Input × List Send) : Prop :=
  ∀ id session, label.1 = .event (.voiceJoined id) → s.sessions.lookup id = some session →
    session.udpAddress.isSome = true

theorem addressed_new : new.Addressed := by
  intro id session h
  simp [new] at h

theorem Addressed.setInVoice {s : VoiceRelayServer} (hs : s.Addressed) (id : UInt64) (value : Bool)
    (hjoin : value = true → ∀ session, s.sessions.lookup id = some session →
      session.udpAddress.isSome = true) : (s.setInVoice id value).Addressed := by
  intro id' session h hv
  rw [setInVoice_lookup] at h
  by_cases hid : id' = id
  · rw [if_pos hid] at h
    obtain ⟨old,hold,rfl⟩ := Option.map_eq_some_iff.mp h
    exact hjoin hv old hold
  · rw [if_neg hid] at h
    exact hs id' session h hv

theorem Addressed.handleEvent {s : VoiceRelayServer} (hs : s.Addressed)
    (cache : List (SocketAddr × UInt64)) {e : Event}
    (hjoin : ∀ id session, e = .voiceJoined id → s.sessions.lookup id = some session →
      session.udpAddress.isSome = true) : (s.handleEvent cache e).Addressed := by
  cases e with
  | userConnected id token =>
    intro id' session h hv
    simp only [VoiceRelayServer.handleEvent,Table.lookup_insert_eq] at h
    by_cases hid : id' = id
    · rw [if_pos hid] at h
      cases h
      cases hv
    · rw [if_neg hid] at h
      exact hs id' session h hv
  | voiceJoined id => exact hs.setInVoice id true fun _ session => hjoin id session rfl
  | voiceLeft id => exact hs.setInVoice id false fun h => by cases h
  | userDisconnected id =>
    intro id' session h hv
    simp only [VoiceRelayServer.handleEvent,Table.lookup_erase_eq] at h
    by_cases hid : id' = id
    · rw [if_pos hid] at h
      cases h
    · rw [if_neg hid] at h
      exact hs id' session h hv

/-- A datagram either sets the address of a session or leaves the sessions alone. -/
theorem Addressed.handlePacket {s s' : VoiceRelayServer} (hs : s.Addressed)
    {iter : List (UInt64 × VoiceSession)} {src : SocketAddr} {b : Bytes} {sends : List Send}
    (h : s.handlePacket iter src b = some (s',sends)) :
    s'.Addressed := by
  have hcase := handlePacket_handled iter s src b
  rw [h] at hcase
  cases hcase with
  | authenticated hd hf hout =>
    intro id session hl hv
    simp only [Table.lookup_insert_eq] at hl
    split at hl
    · cases hl
      rfl
    · exact hs id session hl hv
  | forwarded => exact hs
  | ignored => exact hs

theorem step_addressed {s s' : VoiceRelayServer} {label : Input × List Send}
    (hs : s.Addressed) (h : Guarded JoinsAuthenticated Step s label s') : s'.Addressed := by
  obtain ⟨hguard,hstep⟩ := h
  cases hstep with
  | event hc => exact hs.handleEvent _ fun id session he => hguard id session (by rw [he])
  | datagram _ h => exact hs.handlePacket h
  | receiveError => exact hs

/-- A panic needs somebody other than the sender who is in voice without an address. -/
theorem panics_recipient {s : VoiceRelayServer} {src : SocketAddr} {b : Bytes} (h : Panics s src b) :
    ∃ id session, s.sessions.lookup id = some session ∧ session.inVoice = true ∧
      session.udpAddress = none := by
  obtain ⟨iter,hi,hnone⟩ := h
  have hcase := handlePacket_handled iter s src (received b)
  rw [hnone] at hcase
  cases hcase with
  | panicked hd hu hr =>
    obtain ⟨⟨id,session⟩,hmem,haddr⟩ := (Table.mapM_eq_none _).mp hr
    obtain ⟨hmem,hsel⟩ := List.mem_filter.mp hmem
    simp only [Bool.and_eq_true] at hsel
    exact ⟨id,session,(hi.mem_iff id session).mp hmem,hsel.1,haddr⟩

/-- While every `VoiceJoined` finds its session authenticated, no datagram makes the
relay panic and every recipient it could select has an address. -/
theorem run_never_panics {trace : Trace} {s : VoiceRelayServer}
    (h : Run (Guarded JoinsAuthenticated Step) new trace s) :
    (∀ src b, ¬ Panics s src b) ∧ s.Addressed := by
  have hs : s.Addressed := h.preserves (fun _ _ _ => step_addressed) addressed_new
  refine ⟨fun src b hp => ?_,hs⟩
  obtain ⟨id,session,hl,hv,hnone⟩ := panics_recipient hp
  have := hs id session hl hv
  simp [hnone] at this

/-- One user is connected, authenticates, and only then joins voice. -/
theorem run_never_panics_joined : ∃ s : VoiceRelayServer,
    s.sessions.lookup 1 = some ⟨11,true,some (.v4 1 1)⟩ ∧
      (∀ src b, ¬ Panics s src b) ∧ s.Addressed := by
  let connected := new.handleEvent [] (.userConnected 1 11)
  obtain ⟨sends,hauth⟩ := step_authenticates (s := connected) (.v4 1 1) 1 ⟨11,false,none⟩
    (by decide) decode_request
  refine ⟨_,?_,run_never_panics (.snoc (.snoc (.snoc .refl ⟨?_,.event .nil⟩) ⟨?_,hauth⟩)
    ⟨?_,.event (e := .voiceJoined 1) (.insert .nil _ _)⟩)⟩
  · decide
  · simp [JoinsAuthenticated]
  · simp [JoinsAuthenticated]
  · intro id session he hl
    simp only [Input.event.injEq,Event.voiceJoined.injEq] at he
    subst he
    simp only [Table.lookup_insert_eq,if_pos] at hl
    cases hl
    rfl

/-- User 2 joins voice before its first authentication, and the next voice packet of
user 1 makes the relay panic. -/
theorem voiceJoined_before_auth_panics : ∃ trace : Trace, ∃ s : VoiceRelayServer,
    trace.map Prod.fst = [.event (.userConnected 1 11),.event (.userConnected 2 22),
      .event (.voiceJoined 2),.datagram (.v4 1 1) [3,0,16,0,0,0,0,0,0,0,7,0,0,0,0,0,0,0,11]] ∧
    Run Step new trace s ∧
    Panics s (.v4 1 1) [97,0,18,0,0,0,0,0,0,0,0,0,0,0,5,0,0,0,9,1,2] := by
  let joined := ((new.handleEvent [] (.userConnected 1 11)).handleEvent []
    (.userConnected 2 22)).handleEvent [] (.voiceJoined 2)
  obtain ⟨sends,hauth⟩ := step_authenticates (s := joined) (.v4 1 1) 1 ⟨11,false,none⟩
    (by decide) decode_request
  exact ⟨_,_,rfl,.snoc (.snoc (.snoc (.snoc .refl (.event .nil)) (.event .nil)) (.event .nil)) hauth,
    panics_of_unaddressed 1 2 ⟨22,true,none⟩ decode_speech (by decide) (by decide) rfl (by decide) rfl⟩

/-- The condition leaves out nothing harmless: after any other `VoiceJoined` one more
user and one voice packet are enough for a panic. -/
theorem panic_within_reach {s : VoiceRelayServer} {id : UInt64} {session : VoiceSession}
    (hl : s.sessions.lookup id = some session) (hnone : session.udpAddress = none) :
    ∃ trace t src b, Run Step (s.setInVoice id true) trace t ∧ Panics t src b := by
  obtain ⟨auth,n,hauth⟩ := exists_voiceAuthRequest 0 0
  obtain ⟨voice,m,hvoice⟩ := exists_voiceData 0 0 0
  obtain ⟨cache,hcache⟩ := Table.exists_enumeration (s.setInVoice id true).idsByAddresses
  have hne : id ≠ id + 1 := by simp
  let other : VoiceSession := ⟨0,false,none⟩
  let connected := (s.setInVoice id true).handleEvent cache (.userConnected (id + 1) 0)
  have hlook : connected.sessions.lookup id = some { session with inVoice := true } := by
    simp [connected,handleEvent,hne,setInVoice_lookup,hl]
  obtain ⟨sends,hstep⟩ := step_authenticates (s := connected) (.v4 0 0) (id + 1) other
    (by simp [connected,other,handleEvent]) hauth
  refine ⟨_,_,.v4 0 0,voice,.snoc (.single (.event hcache)) hstep,panics_of_unaddressed
    (id + 1) id { session with inVoice := true } hvoice ?_ ?_ rfl hne hnone⟩
  · simp
  · simp only [Table.lookup_insert_eq,if_neg hne]
    exact hlook

end VoiceRelayServer
end VoiceApp.Voice
