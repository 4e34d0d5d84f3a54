import VoiceApp.Management.Lifecycle
import VoiceApp.Voice.Relay

/-! # Management server and relay together

The two servers share nothing but the queue of events, so a run of the whole is a run of
each. The relay's sessions, without their UDP addresses, are at every moment what the
events consumed so far say, and at rest that is what the users map says.
-/
namespace VoiceApp.System
open Protocol Server

/-- Both servers; `consumed` counts the events that the relay has taken from the queue. -/
structure Servers where
  management : Management.ManagementServer
  relay : Voice.VoiceRelayServer
  consumed : ℕ

def Servers.new : Servers := ⟨.new,.new,0⟩

inductive Label
  | management (l : Management.Label)
  | relay (input : Voice.Input) (sends : List Voice.Send)

/-- A step of either server; the relay's next event is the oldest in the queue. -/
inductive Step : Servers → Label → Servers → Prop
  | management {s l m} (h : Management.Step s.management l m) :
      Step s (.management l) { s with management := m }
  | event {s e r} (he : s.management.events[s.consumed]? = some e)
      (h : Voice.Step s.relay (.event e,[]) r) :
      Step s (.relay (.event e) []) { s with relay := r, consumed := s.consumed + 1 }
  | datagram {s src b sends r} (h : Voice.Step s.relay (.datagram src b,sends) r) :
      Step s (.relay (.datagram src b) sends) { s with relay := r }
  | receiveError {s} : Step s (.relay .receiveError []) s

def Label.managed : Label → Option Management.Label
  | .management l => some l
  | .relay .. => none

theorem filterMap_relay (trace : List Label) (input : Voice.Input) (sends : List Voice.Send) :
    (trace ++ [Label.relay input sends]).filterMap Label.managed = trace.filterMap Label.managed := by
  rw [List.filterMap_append]
  exact List.append_nil _

/-- No write fails, no task panics, and two tasks that are running have different peers. -/
def undisturbed : Management.Assumptions where
  reliable := True
  held := Management.Phase.Alive
  held_alive _ h := h
  held_ended := Management.Phase.alive_ended

def guard (s : Servers) : Label → Prop
  | .management l => undisturbed.guard s.management l
  | .relay .. => True

/-- A session without its UDP address. -/
def view (session : Voice.VoiceSession) : UInt64 × Bool := (session.token,session.inVoice)

/-- What the relay holds about `id`. -/
def held (r : Voice.VoiceRelayServer) (id : UInt64) : Option (UInt64 × Bool) :=
  (r.sessions.lookup id).map view

theorem held_setInVoice (r : Voice.VoiceRelayServer) (id id' : UInt64) (value : Bool) :
    held (r.setInVoice id' value) id =
      if id' = id then (held r id).map fun p => (p.1,value) else held r id := by
  unfold held
  rw [Voice.VoiceRelayServer.setInVoice_lookup]
  by_cases hid : id' = id
  · rw [if_pos hid,if_pos hid.symm,hid,Option.map_map,Option.map_map]
    rfl
  · rw [if_neg hid,if_neg (Ne.symm hid)]

/-- An event moves the relay's sessions as the ledger of events says. -/
theorem held_handleEvent (r : Voice.VoiceRelayServer) (cache : List (SocketAddr × UInt64))
    (e : Event) (id : UInt64) :
    held (r.handleEvent cache e) id = Management.sessionStep id (held r id) e := by
  cases e with
  | userConnected id' token =>
    unfold held
    simp only [Voice.VoiceRelayServer.handleEvent,Table.lookup_insert_eq,Management.sessionStep]
    by_cases hid : id' = id
    · rw [if_pos hid,if_pos hid.symm]
      rfl
    · rw [if_neg hid,if_neg (Ne.symm hid)]
  | voiceJoined id' => exact held_setInVoice r id id' true
  | voiceLeft id' => exact held_setInVoice r id id' false
  | userDisconnected id' =>
    unfold held
    simp only [Voice.VoiceRelayServer.handleEvent,Table.lookup_erase_eq,Management.sessionStep]
    by_cases hid : id' = id
    · rw [if_pos hid,if_pos hid.symm]
      rfl
    · rw [if_neg hid,if_neg (Ne.symm hid)]

/-- A datagram changes nothing of a session but its UDP address. -/
theorem held_datagram {r r' : Voice.VoiceRelayServer} {src : SocketAddr} {b : Bytes}
    {sends : List Voice.Send} (h : Voice.Step r (.datagram src b,sends) r') (id : UInt64) :
    held r' id = held r id := by
  cases h with
  | @datagram _ _ iter _ _ hi h =>
    have hcase := Voice.VoiceRelayServer.handlePacket_handled iter r src (Voice.received b)
    rw [h] at hcase
    cases hcase with
    | authenticated hd hf hout =>
      obtain ⟨hl,_⟩ := hi.find?_some hf
      unfold held
      rw [Table.lookup_insert_eq]
      split
      · rename_i hid
        rw [hid,hl]
        rfl
      · rfl
    | forwarded => rfl
    | ignored => rfl

/-- The queue only grows. -/
theorem events_grow {s s' : Management.ManagementServer} {l : Management.Label}
    (h : Management.Step s l s') : ∃ more, s'.events = s.events ++ more := by
  cases h with
  | connect => exact ⟨_,rfl⟩
  | disconnect => exact ⟨_,rfl⟩
  | @exec id c o k r b hc hp hr hb =>
    cases o with
    | send e => exact ⟨_,rfl⟩
    | _ => exact ⟨[],(List.append_nil _).symm⟩
  | _ => exact ⟨[],(List.append_nil _).symm⟩

/-- The relay's sessions are what the events consumed so far say. -/
structure Follows (s : Servers) : Prop where
  consumed : s.consumed ≤ s.management.events.length
  sessions : ∀ id, held s.relay id =
    Management.sessionOf id (s.management.events.take s.consumed)

theorem step_follows {s s' : Servers} {label : Label} (h : Follows s) (hstep : Step s label s') :
    Follows s' := by
  cases hstep with
  | @management l m hm =>
    obtain ⟨more,hmore⟩ := events_grow hm
    constructor
    · change s.consumed ≤ m.events.length
      rw [hmore,List.length_append]
      exact Nat.le_add_right_of_le h.consumed
    · intro id
      change held s.relay id = Management.sessionOf id (m.events.take s.consumed)
      rw [hmore,List.take_append_of_le_length h.consumed]
      exact h.sessions id
  | @event e r he hr =>
    have hlt : s.consumed < s.management.events.length := (List.getElem?_eq_some_iff.mp he).1
    have htake : s.management.events.take (s.consumed + 1) =
        s.management.events.take s.consumed ++ [e] := by
      rw [List.take_add_one,he]
      rfl
    refine ⟨hlt,fun id => ?_⟩
    change held r id = Management.sessionOf id (s.management.events.take (s.consumed + 1))
    rw [htake,Management.sessionOf_concat,← h.sessions id]
    cases hr with
    | event => exact held_handleEvent _ _ e id
  | @datagram src b sends r hr =>
    exact ⟨h.consumed,fun id => (held_datagram hr id).trans (h.sessions id)⟩
  | receiveError => exact h

theorem run_follows {trace : List Label} {s : Servers} (hr : Run Step Servers.new trace s) :
    Follows s :=
  hr.preserves (fun _ _ _ h hstep => step_follows h hstep) ⟨Nat.le_refl 0,fun _ => rfl⟩

/-- The management server's part of a run is a run of its own. -/
theorem run_managed {trace : List Label} {s : Servers} (hr : Run Step Servers.new trace s) :
    Run Management.Step Management.ManagementServer.new (trace.filterMap Label.managed) s.management := by
  refine hr.project Servers.management Label.managed ?_ ?_
  · intro s label s' l hstep hl
    cases hstep with
    | management hm =>
      cases hl
      exact hm
    | _ => cases hl
  · intro s label s' hstep hl
    cases hstep with
    | management => cases hl
    | _ => rfl

/-- The relay is where the events consumed so far have brought it. -/
structure Refines (trace : List Label) (s : Servers) : Prop where
  lifecycle : Management.Lifecycle undisturbed (trace.filterMap Label.managed) s.management
  consumed : s.consumed ≤ s.management.events.length
  sessions : ∀ id, held s.relay id =
    Management.sessionOf id (s.management.events.take s.consumed)

theorem refines_new : Refines [] Servers.new :=
  ⟨Management.lifecycle_new,Nat.le_refl 0,fun _ => rfl⟩

theorem step_refines {trace : List Label} {s s' : Servers} {label : Label} (h : Refines trace s)
    (hstep : Guarded guard Step s label s') : Refines (trace ++ [label]) s' := by
  obtain ⟨hguard,hstep⟩ := hstep
  have hfollows := step_follows ⟨h.consumed,h.sessions⟩ hstep
  refine ⟨?_,hfollows.consumed,hfollows.sessions⟩
  cases hstep with
  | @management l m hm =>
    rw [List.filterMap_append]
    exact Management.step_lifecycle h.lifecycle ⟨hguard,hm⟩
  | event =>
    rw [filterMap_relay]
    exact h.lifecycle
  | datagram =>
    rw [filterMap_relay]
    exact h.lifecycle
  | receiveError =>
    rw [filterMap_relay]
    exact h.lifecycle

theorem run_refines {trace : List Label} {s : Servers}
    (h : Run (Guarded guard Step) Servers.new trace s) : Refines trace s := by
  induction h with
  | refl => exact refines_new
  | snoc _ hstep ih => exact step_refines ih hstep

/-- The task has announced its user to the relay and not yet taken that back. -/
def Announced : Management.Phase → Prop
  | .spawned => False
  | .ended => False
  | _ => True

/-- The task is not in the middle of a packet, a broadcast or its own end. -/
def BetweenPackets : Management.Phase → Prop
  | .running .. => False
  | .returned _ => False
  | .panicked => False
  | _ => True

/-- A connected task at rest is steady, so what the relay has been told agrees with its
record. -/
theorem Refines.steady {trace : List Label} {s : Servers} (h : Refines trace s) {id : UInt64}
    {c : Management.Connection} (hc : s.management.connections.lookup id = some c)
    (hann : Announced c.phase) (hbetween : BetweenPackets c.phase) :
    Management.Steady True id c.user.token
      (Management.ledger (trace.filterMap Label.managed) s.management id c.address) := by
  have hset := h.lifecycle.settled id c hc
  unfold Management.Settled at hset
  cases hp : c.phase with
  | connected =>
    rw [hp] at hset
    exact hset
  | select packetBuffer =>
    rw [hp] at hset
    exact hset
  | spawned =>
    rw [hp] at hann
    exact hann.elim
  | ended =>
    rw [hp] at hann
    exact hann.elim
  | running o k =>
    rw [hp] at hbetween
    exact hbetween.elim
  | returned e =>
    rw [hp] at hbetween
    exact hbetween.elim
  | panicked =>
    rw [hp] at hbetween
    exact hbetween.elim

/-- A session that the events speak of belongs to a connected task. -/
theorem Refines.announced {trace : List Label} {s : Servers} (h : Refines trace s) {id : UInt64}
    {x : UInt64 × Bool} (hsession : Management.sessionOf id s.management.events = some x) :
    ∃ c, s.management.connections.lookup id = some c ∧ Announced c.phase := by
  cases hc : s.management.connections.lookup id with
  | none =>
    rw [(h.lifecycle.unknown id hc).1] at hsession
    cases hsession
  | some c =>
    refine ⟨c,rfl,?_⟩
    have hset := h.lifecycle.settled id c hc
    unfold Management.Settled at hset
    cases hp : c.phase with
    | spawned =>
      rw [hp] at hset
      have hnone : Management.sessionOf id s.management.events = none := hset.2.2.1
      rw [hnone] at hsession
      cases hsession
    | ended =>
      rw [hp] at hset
      have hnone : Management.sessionOf id s.management.events = none := hset
      rw [hnone] at hsession
      cases hsession
    | _ => trivial

/-- At rest the relay has exactly one session for each connected user, with the token of
its connection and the voice flag of its record; datagrams change nothing of that. -/
theorem sessions_refine_users {trace : List Label} {s : Servers}
    (h : Run (Guarded guard Step) Servers.new trace s)
    (hqueue : s.consumed = s.management.events.length)
    (hidle : ∀ id c, s.management.connections.lookup id = some c → BetweenPackets c.phase) :
    (∀ id session, s.relay.sessions.lookup id = some session →
      ∃ c u, s.management.connections.lookup id = some c ∧ Announced c.phase ∧
        s.management.users.lookup c.address = some u ∧ u.id = id ∧
        session.token = c.user.token ∧ session.inVoice = u.inVoice) ∧
    (∀ id c, s.management.connections.lookup id = some c → Announced c.phase →
      ∃ session, s.relay.sessions.lookup id = some session) ∧
    ∀ src b sends r, Voice.Step s.relay (.datagram src b,sends) r →
      ∀ id, (r.sessions.lookup id).map view = (s.relay.sessions.lookup id).map view := by
  have hrefines := run_refines h
  have hall : ∀ id, held s.relay id = Management.sessionOf id s.management.events := by
    intro id
    rw [hrefines.sessions id,hqueue,List.take_length]
  refine ⟨?_,?_,fun _ _ _ _ hr id => held_datagram hr id⟩
  · intro id session hsession
    have hheld : Management.sessionOf id s.management.events = some (view session) := by
      rw [← hall id,held,hsession]
      rfl
    obtain ⟨c,hc,hann⟩ := hrefines.announced hheld
    obtain ⟨u,hown,hid,_,hagree⟩ := (hrefines.steady hc hann (hidle id c hc)).record
    have hview := Option.some.inj (hheld.symm.trans (hagree trivial))
    exact ⟨c,u,hc,hann,hown,hid,congrArg Prod.fst hview,congrArg Prod.snd hview⟩
  · intro id c hc hann
    obtain ⟨u,_,_,_,hagree⟩ := (hrefines.steady hc hann (hidle id c hc)).record
    have hheld : held s.relay id = some (c.user.token,u.inVoice) := (hall id).trans (hagree trivial)
    obtain ⟨session,hsession,_⟩ := Option.map_eq_some_iff.mp hheld
    exact ⟨session,hsession⟩

/-- One user is connected and the relay knows it. -/
theorem sessions_refine_users_one : ∃ s : Servers, ∃ c u,
    s.relay.sessions.lookup 1 = some ⟨11,false,none⟩ ∧
    s.management.connections.lookup 1 = some c ∧ Announced c.phase ∧
    s.management.users.lookup c.address = some u ∧ u.id = 1 ∧ 11 = c.user.token ∧
    false = u.inVoice := by
  let user : Management.User := ⟨1,none,false,false,11⟩
  let m₁ := Management.ManagementServer.new.accept (.v4 1 1) 11
  let m₂ := (m₁.setConnection 1 ⟨user,.v4 1 1,.connected,0,[],[]⟩).sendEvent (.userConnected 1 11)
  let r := Voice.VoiceRelayServer.new.handleEvent [] (.userConnected 1 11)
  have haccept : Management.Step .new (.accept (.v4 1 1) 11) m₁ := .accept (by decide)
  have hconnect : Management.Step m₁ (.connect 1) m₂ :=
    .connect (c := ⟨user,.v4 1 1,.spawned,0,[],[]⟩) rfl rfl
  have hevent : Voice.Step .new (.event (.userConnected 1 11),[]) r := .event .nil
  have hrun : Run (Guarded guard Step) Servers.new
      [.management (.accept (.v4 1 1) 11),.management (.connect 1),
        .relay (.event (.userConnected 1 11)) []] ⟨m₂,r,1⟩ := by
    refine .snoc (.snoc (.snoc .refl ⟨?_,.management haccept⟩) ⟨trivial,.management hconnect⟩)
      ⟨trivial,.event rfl hevent⟩
    intro id c hc
    simp [Servers.new,Management.ManagementServer.new] at hc
  have hidle : ∀ id c, m₂.connections.lookup id = some c → BetweenPackets c.phase := by
    intro id c hc
    change Finmap.lookup id (Finmap.insert _ _ (Finmap.insert _ _ ∅)) = _ at hc
    rw [Table.lookup_insert_eq,Table.lookup_insert_eq] at hc
    split at hc
    · cases hc
      trivial
    · split at hc
      · cases hc
        trivial
      · simp at hc
  obtain ⟨c,u,h⟩ := (sessions_refine_users hrun rfl hidle).1 1 ⟨11,false,none⟩ rfl
  exact ⟨_,c,u,rfl,h⟩

end VoiceApp.System
