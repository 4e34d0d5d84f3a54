import VoiceApp.Voice.Provenance
import VoiceApp.Voice.Revocation

/-! # The address cache and the sessions

`ids_by_addresses` caches the inverse of `udp_address`. The two agree as long as no
session changes its address, no address changes its user, and every id is connected once.
-/
namespace VoiceApp.Voice
open Protocol Server

namespace VoiceRelayServer

/-- For every live session the cache holds its address and no other. -/
def CacheAgrees (s : VoiceRelayServer) : Prop :=
  ∀ id session, s.sessions.lookup id = some session → ∀ addr,
    s.idsByAddresses.lookup addr = some id ↔ session.udpAddress = some addr

/-- Agreement in both directions: the cache moreover holds live ids only. -/
structure Coherent (s : VoiceRelayServer) : Prop where
  agrees : s.CacheAgrees
  live : ∀ addr id, s.idsByAddresses.lookup addr = some id →
    ∃ session, s.sessions.lookup id = some session

/-- A connecting id has no cached address, and a token is presented only from the address
its session already has, or from one that is nobody's for a session that has none. -/
def KeepsAddresses (s : VoiceRelayServer) (input : Input) : Prop :=
  (∀ id token, input = .event (.userConnected id token) →
    ∀ addr, s.idsByAddresses.lookup addr ≠ some id) ∧
  ∀ src b requestId n id session, input = .datagram src b →
    s.sessions.lookup id = some session →
    Packet.decode (received b) = .ok (.voiceAuthRequest requestId session.token,n) →
      (∀ addr, session.udpAddress = some addr → addr = src) ∧
        ∀ other, s.idsByAddresses.lookup src = some other → other = id

theorem coherent_new : new.Coherent := by
  constructor
  · intro id session h
    simp [new] at h
  · intro addr id h
    simp [new] at h

theorem Coherent.single {s : VoiceRelayServer} (hs : s.Coherent) (id : UInt64) :
    s.SingleAddress id := by
  intro a b ha hb
  obtain ⟨session,hl⟩ := hs.live a id ha
  have h1 := (hs.agrees id session hl a).mp ha
  have h2 := (hs.agrees id session hl b).mp hb
  exact Option.some.inj (h1.symm.trans h2)

theorem Coherent.setInVoice {s : VoiceRelayServer} (hs : s.Coherent) (id : UInt64) (value : Bool) :
    (s.setInVoice id value).Coherent := by
  constructor
  · intro id' session h addr
    rw [setInVoice_lookup] at h
    rw [setInVoice_idsByAddresses]
    by_cases hid : id' = id
    · rw [if_pos hid] at h
      obtain ⟨old,hold,rfl⟩ := Option.map_eq_some_iff.mp h
      rw [hid]
      exact hs.agrees id old hold addr
    · rw [if_neg hid] at h
      exact hs.agrees id' session h addr
  · intro addr id' h
    rw [setInVoice_idsByAddresses] at h
    obtain ⟨session,hl⟩ := hs.live addr id' h
    rw [setInVoice_lookup]
    by_cases hid : id' = id
    · rw [if_pos hid,← hid,hl]
      exact ⟨_,rfl⟩
    · rw [if_neg hid]
      exact ⟨session,hl⟩

theorem Coherent.handleEvent {s : VoiceRelayServer} (hs : s.Coherent)
    {cache : List (SocketAddr × UInt64)} (hc : Table.Enumerates s.idsByAddresses cache) {e : Event}
    (hnew : ∀ id token, e = .userConnected id token → ∀ addr, s.idsByAddresses.lookup addr ≠ some id) :
    (s.handleEvent cache e).Coherent := by
  cases e with
  | voiceJoined id => exact hs.setInVoice id true
  | voiceLeft id => exact hs.setInVoice id false
  | userConnected id token =>
    have hfree := hnew id token rfl
    constructor
    · intro id' session h addr
      simp only [VoiceRelayServer.handleEvent,Table.lookup_insert_eq] at h
      by_cases hid : id' = id
      · rw [if_pos hid] at h
        cases h
        rw [hid]
        exact ⟨fun h => (hfree addr h).elim,fun h => by cases h⟩
      · rw [if_neg hid] at h
        exact hs.agrees id' session h addr
    · intro addr id' h
      obtain ⟨session,hl⟩ := hs.live addr id' h
      simp only [VoiceRelayServer.handleEvent,Table.lookup_insert_eq]
      by_cases hid : id' = id
      · exact ⟨_,if_pos hid⟩
      · exact ⟨session,by rw [if_neg hid,hl]⟩
  | userDisconnected id =>
    have hgone := disconnect_gone hc (hs.single id)
    -- only an address of the disconnected user leaves the cache
    have hkeep : ∀ addr id', id' ≠ id → s.idsByAddresses.lookup addr = some id' →
        (s.handleEvent cache (.userDisconnected id)).idsByAddresses.lookup addr = some id' := by
      intro addr id' hne h
      simp only [VoiceRelayServer.handleEvent]
      cases hf : cache.find? fun e => e.2 == id with
      | none => exact h
      | some found =>
        obtain ⟨hl,heq⟩ := hc.find?_some hf
        rw [beq_iff_eq] at heq
        simp only [Option.map_some,Table.lookup_erase_eq]
        have haddr : addr ≠ found.1 := by
          rintro rfl
          exact hne (Option.some.inj (h.symm.trans (hl.trans (by rw [heq]))))
        rw [if_neg haddr,h]
    constructor
    · intro id' session h addr
      have hne : id' ≠ id := by
        rintro rfl
        simp [hgone.session] at h
      simp only [VoiceRelayServer.handleEvent,Table.lookup_erase_eq,if_neg hne] at h
      rw [← hs.agrees id' session h addr]
      exact ⟨handleEvent_lookup,hkeep addr id' hne⟩
    · intro addr id' h
      have hne : id' ≠ id := by
        rintro rfl
        exact hgone.cache addr h
      obtain ⟨session,hl⟩ := hs.live addr id' (handleEvent_lookup h)
      refine ⟨session,?_⟩
      simp only [VoiceRelayServer.handleEvent,Table.lookup_erase_eq,if_neg hne,hl]

/-- Taking a free address for a session without another one. -/
theorem Coherent.authenticated {s : VoiceRelayServer} (hs : s.Coherent) {src : SocketAddr}
    {userId : UInt64} {session : VoiceSession} (hl : s.sessions.lookup userId = some session)
    (hstay : ∀ addr, session.udpAddress = some addr → addr = src)
    (hfree : ∀ other, s.idsByAddresses.lookup src = some other → other = userId) :
    Coherent { sessions := s.sessions.insert userId { session with udpAddress := some src }
               idsByAddresses := s.idsByAddresses.insert src userId } := by
  constructor
  · intro id session' h addr
    simp only [Table.lookup_insert_eq] at h ⊢
    by_cases hid : id = userId
    · rw [if_pos hid] at h
      cases h
      by_cases haddr : addr = src
      · simp [haddr,hid]
      · have hold : s.idsByAddresses.lookup addr ≠ some id := by
          rw [hid]
          exact fun h => haddr (hstay addr ((hs.agrees userId session hl addr).mp h))
        rw [if_neg haddr]
        exact ⟨fun h => (hold h).elim,fun h => (haddr (Option.some.inj h).symm).elim⟩
    · rw [if_neg hid] at h
      rw [← hs.agrees id session' h addr]
      by_cases haddr : addr = src
      · have hother : s.idsByAddresses.lookup src ≠ some id := fun h => hid (hfree id h)
        rw [if_pos haddr,haddr]
        exact ⟨fun h => (hid (Option.some.inj h).symm).elim,fun h => (hother h).elim⟩
      · rw [if_neg haddr]
  · intro addr id h
    simp only [Table.lookup_insert_eq] at h ⊢
    by_cases hid : id = userId
    · exact ⟨_,if_pos hid⟩
    · rw [if_neg hid]
      by_cases haddr : addr = src
      · rw [if_pos haddr] at h
        exact (hid (Option.some.inj h).symm).elim
      · rw [if_neg haddr] at h
        exact hs.live addr id h

theorem step_coherent {s t : VoiceRelayServer} {label : Input × List Send} (hs : s.Coherent)
    (hkeep : s.KeepsAddresses label.1) (hstep : Step s label t) : t.Coherent := by
  cases hstep with
  | event hc => exact hs.handleEvent hc fun id token he => hkeep.1 id token (by rw [he])
  | receiveError => exact hs
  | @datagram src b iter _ sends hi h =>
    have hcase := handlePacket_handled iter s src (received b)
    rw [h] at hcase
    cases hcase with
    | authenticated hd hf hout =>
      obtain ⟨hl,htok⟩ := hi.find?_some hf
      rw [beq_iff_eq] at htok
      rw [← htok] at hd
      obtain ⟨hstay,hfree⟩ := hkeep.2 _ _ _ _ _ _ rfl hl hd
      exact hs.authenticated hl hstay hfree
    | forwarded => exact hs
    | ignored => exact hs

/-- The condition is exact: it holds of an input precisely when no way of serving that
input takes the agreement away. -/
theorem step_agrees_iff {s : VoiceRelayServer} (hs : s.Coherent) (input : Input) :
    (∀ sends t, Step s (input,sends) t → t.CacheAgrees) ↔ s.KeepsAddresses input := by
  constructor
  · intro h
    constructor
    · rintro id token rfl addr hold
      obtain ⟨cache,hc⟩ := Table.exists_enumeration s.idsByAddresses
      have hagrees := h [] _ (.event hc) id ⟨token,false,none⟩
        (by simp [VoiceRelayServer.handleEvent]) addr
      cases hagrees.mp hold
    · rintro src b requestId n id session rfl hl hd
      obtain ⟨sends,hstep⟩ := step_authenticates src id session hl hd
      have hagrees := h sends _ hstep
      constructor
      · intro addr haddr
        by_contra hne
        have hcached := (hs.agrees id session hl addr).mpr haddr
        have hmoved := (hagrees id _ (Finmap.lookup_insert _) addr).mp
          (by simpa [Table.lookup_insert_eq,hne] using hcached)
        exact hne (Option.some.inj hmoved).symm
      · intro other hother
        by_contra hne
        obtain ⟨session',hl'⟩ := hs.live src other hother
        have haddr := (hs.agrees other session' hl' src).mp hother
        have hcached := (hagrees other session' (by simp [hne,hl']) src).mpr haddr
        simp only [Finmap.lookup_insert,Option.some.injEq] at hcached
        exact hne hcached.symm
  · intro hkeep sends t hstep
    exact (step_coherent hs hkeep hstep).agrees

/-- Nobody is sent his own voice, and only a session's address speaks for it. -/
theorem Coherent.voice {s t : VoiceRelayServer} {src : SocketAddr} {b : Bytes} {sends : List Send}
    (hs : s.Coherent) (hstep : Step s (.datagram src b,sends) t) :
    ∀ send ∈ sends, ∀ id, SpeaksAs id send →
      send.2 ≠ src ∧ ∃ session, s.sessions.lookup id = some session ∧ session.udpAddress = some src := by
  intro send hsend id hspeak
  obtain ⟨sequence,timestamp,data,n,hd⟩ := hspeak
  obtain ⟨_,_,_,_,hin,_,_,_,hu,hto⟩ := step_relays hstep hsend hd
  cases hin
  obtain ⟨session,hl⟩ := hs.live src id hu
  refine ⟨?_,session,hl,(hs.agrees id session hl src).mp hu⟩
  rintro rfl
  obtain ⟨other,recipient,hne,hrec,_,haddr⟩ := hto.recipient hsend
  have hback := (hs.agrees other recipient hrec send.2).mpr haddr
  exact hne (Option.some.inj (hback.symm.trans hu))

/-- While every token keeps its address and every address its user, the cache agrees with
the sessions; then an address belongs to one live session at most, no other address speaks
for a session, and no voice packet returns to where it came from. -/
theorem run_cache_agrees {trace : Trace} {s : VoiceRelayServer}
    (h : Run (Guarded (fun s label => s.KeepsAddresses label.1) Step) new trace s) :
    s.CacheAgrees ∧
    (∀ id id' session session' addr, s.sessions.lookup id = some session →
      s.sessions.lookup id' = some session' → session.udpAddress = some addr →
        session'.udpAddress = some addr → id = id') ∧
    ∀ src b sends t, Step s (.datagram src b,sends) t → ∀ send ∈ sends, ∀ id, SpeaksAs id send →
      send.2 ≠ src ∧
        ∃ session, s.sessions.lookup id = some session ∧ session.udpAddress = some src := by
  have hs : s.Coherent :=
    h.preserves (fun _ _ _ hs hstep => step_coherent hs hstep.1 hstep.2) coherent_new
  refine ⟨hs.agrees,?_,fun _ _ _ _ hstep => hs.voice hstep⟩
  intro id id' session session' addr hl hl' haddr haddr'
  have h1 := (hs.agrees id session hl addr).mpr haddr
  have h2 := (hs.agrees id' session' hl' addr).mpr haddr'
  exact Option.some.inj (h1.symm.trans h2)

/-- User 1 connects and authenticates once. -/
theorem run_cache_agrees_one : ∃ s : VoiceRelayServer,
    s.sessions.lookup 1 = some ⟨11,false,some (.v4 1 1)⟩ ∧
    ∀ addr, s.idsByAddresses.lookup addr = some 1 ↔ some (.v4 1 1) = some addr := by
  let connected := new.handleEvent [] (.userConnected 1 11)
  obtain ⟨sends,hauth⟩ := step_authenticates (s := connected) (.v4 1 1) 1 ⟨11,false,none⟩
    (by decide) decode_request
  have hnobody : ∀ (src : SocketAddr) (id : UInt64), connected.idsByAddresses.lookup src ≠ some id := by
    intro src id h
    cases h
  have hone : ∀ id session, connected.sessions.lookup id = some session →
      session.udpAddress = none := by
    intro id session hl
    simp only [connected,VoiceRelayServer.handleEvent,Table.lookup_insert_eq] at hl
    split at hl
    · cases hl
      rfl
    · cases hl
  have hl : Finmap.lookup 1 (connected.sessions.insert 1 ⟨11,false,some (.v4 1 1)⟩) =
    some ⟨11,false,some (.v4 1 1)⟩ := by decide
  refine ⟨_,hl,(run_cache_agrees (.snoc (.snoc .refl ⟨?_,.event .nil⟩) ⟨?_,hauth⟩)).1 1 _ hl⟩
  · constructor
    · intro id token _ addr h
      cases h
    · intro src b requestId n id session h
      cases h
  · constructor
    · intro id token h
      cases h
    · intro src b requestId n id session h hses _
      refine ⟨fun addr haddr => ?_,fun other hother => (hnobody src other hother).elim⟩
      rw [hone id session hses] at haddr
      cases haddr

/-- User 1 authenticates again from a second address: the first still maps to user 1, and
what is sent from there is still relayed in the name of user 1. -/
theorem first_address_outlives_second : ∃ trace : Trace, ∃ s : VoiceRelayServer,
    trace.map Prod.fst = [.event (.userConnected 1 11),.event (.userConnected 2 22),
      .datagram (.v4 2 2) [3,0,16,0,0,0,0,0,0,0,7,0,0,0,0,0,0,0,22],.event (.voiceJoined 2),
      .datagram (.v4 1 1) [3,0,16,0,0,0,0,0,0,0,7,0,0,0,0,0,0,0,11],
      .datagram (.v4 1 2) [3,0,16,0,0,0,0,0,0,0,7,0,0,0,0,0,0,0,11]] ∧
    Run Step new trace s ∧ ¬ s.CacheAgrees ∧
    s.sessions.lookup 1 = some ⟨11,false,some (.v4 1 2)⟩ ∧
    ∃ out, SpeaksAs 1 (out,.v4 2 2) ∧ Step s
      (.datagram (.v4 1 1) [97,0,18,0,0,0,0,0,0,0,0,0,0,0,5,0,0,0,9,1,2],[(out,.v4 2 2)]) s := by
  obtain ⟨sends2,sends1,hr⟩ := run_pair
  obtain ⟨sends,hsecond⟩ := step_authenticates (s := pair) (.v4 1 2) 1 ⟨11,false,some (.v4 1 1)⟩
    (by decide) decode_request
  have hiter := pair_sessions.insert 1 ⟨11,false,some (.v4 1 2)⟩
  obtain ⟨out,hout,hstep⟩ := step_forwards (s := ⟨pair.sessions.insert 1 ⟨11,false,some (.v4 1 2)⟩,
    pair.idsByAddresses.insert (.v4 1 2) 1⟩) (.v4 1 1) 1 [.v4 2 2] decode_speech (by decide) hiter rfl
  refine ⟨_,_,rfl,hr.snoc hsecond,?_,by decide,out,?_,hstep⟩
  · intro hagrees
    have hstale := (hagrees 1 ⟨11,false,some (.v4 1 2)⟩ (by decide) (.v4 1 1)).mp (by decide)
    revert hstale
    decide
  · have hback := Packet.decode_self hout
    exact ⟨_,_,_,_,hback⟩

end VoiceRelayServer
end VoiceApp.Voice
