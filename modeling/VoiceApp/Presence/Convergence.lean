import VoiceApp.Presence.Queues

/-! # Convergence in every run

In every run of polite clients the standings of all tasks are kept at once: the task that
moves keeps to its program, and for all others the step is a drift.
-/
namespace VoiceApp.Presence
open Protocol Server Framing Management

/-- No write fails, no task panics, and all peers have addresses of their own. -/
def reliablePeers : Assumptions where
  reliable := True
  held _ := True
  held_alive _ _ := trivial
  held_ended _ _ := trivial

/-- The bytes received so far are the beginning of a conversation. -/
def Courteous (id : UInt64) (received : Bytes) : Prop :=
  ∃ packets ws, Framer.Encoded Packet.encode packets ws ∧ received <+: ws.flatten ∧
    Conversation id packets

/-- Clients are polite and disconnect with an EOF, and no receiver lags. -/
def guard (s : ManagementServer) : Label → Prop
  | .read id (.ok bytes) =>
    ∀ c, s.connections.lookup id = some c → Courteous id (c.received ++ bytes)
  | .read _ .error => False
  | .recv _ .lagged => False
  | label => reliablePeers.guard s label

theorem guard_reliable {s : ManagementServer} {label : Label} (h : guard s label) :
    reliablePeers.guard s label := by
  cases label with
  | read => trivial
  | recv => trivial
  | _ => exact h

/-- A broadcast message is an event, and one about a user is withheld from nobody but
perhaps that user. -/
def Attributed (s : ManagementServer) (m : BroadcastMessage) : Prop :=
  ∃ packet : Packet, packet.encode = some m.data ∧ packet.isEvent = true ∧
    ∀ v, subject packet = some v → ∃ c, s.connections.lookup v = some c ∧
      (m.exclude = none ∨ m.exclude = some c.address)

/-- The standing that goes with each phase of a task. -/
def Attending (id : UInt64) (c : Connection) (g : Standing) : Prop :=
  match c.phase with
  | .spawned => c.received = [] ∧ Blank id g
  | .connected => c.received = [] ∧ Blank id g
  | .select packetBuffer => After id c.received (.proceed packetBuffer) g
  | .running o k => Keeps id c.address (After id c.received) (.op o k) g
  | .returned _ => g.owed = []
  | .ended => g.owed = []
  | .panicked => False

/-- The invariant of all runs of polite clients, with the announcements that each task
owes in `owed`. -/
structure Converging (trace : Trace) (owed : UInt64 → List Packet) (s : ManagementServer) : Prop where
  lifecycle : Lifecycle reliablePeers trace s
  replayable : ∀ v, Replayable (touch v) (news v s.broadcasts ++ owed v) (stored s v)
  attributed : ∀ m ∈ s.broadcasts, Attributed s m
  silent : ∀ v, s.connections.lookup v = none → owed v = []
  cursors : ∀ id c, s.connections.lookup id = some c → c.cursor ≤ s.broadcasts.length
  wires : ∀ id c, s.connections.lookup id = some c → Wire c.written
  tasks : ∀ id c, s.connections.lookup id = some c → Attending id c (standing owed s id c)

theorem converging_new : Converging [] (fun _ => []) ManagementServer.new := by
  have hnone : ∀ id c, ManagementServer.new.connections.lookup id = some c → False := by
    intro id c h
    simp [ManagementServer.new] at h
  exact ⟨lifecycle_new,fun _ => .nil,fun m hm => (List.not_mem_nil hm).elim,fun _ _ => rfl,
    fun id c h => (hnone id c h).elim,fun id c h => (hnone id c h).elim,
    fun id c h => (hnone id c h).elim⟩

theorem Attending.drift {id : UInt64} {c : Connection} {g g' : Standing} (h : Attending id c g)
    (hd : Drift g g') : Attending id c g' := by
  unfold Attending at h ⊢
  cases hp : c.phase with
  | spawned =>
    rw [hp] at h
    exact ⟨h.1,h.2.drift hd⟩
  | connected =>
    rw [hp] at h
    exact ⟨h.1,h.2.drift hd⟩
  | select packetBuffer =>
    rw [hp] at h
    exact After.drift h hd
  | running o k =>
    rw [hp] at h
    exact Discipline.wp_stable h hd
  | returned e =>
    rw [hp] at h
    exact hd.owed.trans h
  | ended =>
    rw [hp] at h
    exact hd.owed.trans h
  | panicked =>
    rw [hp] at h
    exact h

/-- What is left of a program decides the phase. -/
theorem attending_ofProgram {id : UInt64} {c : Connection} {p : HandlerM Outcome} {g : Standing}
    (hphase : c.phase = .ofProgram p) (h : Keeps id c.address (After id c.received) p g) :
    Attending id c g := by
  unfold Attending
  rw [hphase]
  cases p with
  | op o k => exact h
  | ret outcome =>
    have hpost := h g (Drift.refl g)
    cases outcome with
    | proceed packetBuffer => exact hpost
    | exit e => exact hpost

section Steps
variable {trace : Trace} {owed owed' : UInt64 → List Packet} {s s₁ : ManagementServer}
  {label : Label} {id : UInt64} {c c' : Connection} {more : List BroadcastMessage}

theorem Attributed.mono {m : BroadcastMessage} (h : Attributed s m)
    (hadv : Advances owed s owed' s₁ more) : Attributed s₁ m := by
  obtain ⟨packet,hpacket,hevent,hall⟩ := h
  refine ⟨packet,hpacket,hevent,fun v hv => ?_⟩
  obtain ⟨c,hc,hexclude⟩ := hall v hv
  obtain ⟨c',hc',haddr⟩ := hadv.home v c hc
  exact ⟨c',hc',by rwa [haddr]⟩

/-- One task moves; for the others it is a drift. -/
theorem Converging.move (h : Converging trace owed s)
    (hlife : Lifecycle reliablePeers (trace ++ [label]) (s₁.setConnection id c'))
    (hconn : s₁.connections = s.connections)
    (hadv : Advances owed s owed' (s₁.setConnection id c') more)
    (hmore : ∀ m ∈ more, Attributed s m) (howed : ∀ v, v ≠ id → owed' v = owed v)
    (hrecords : ∀ v c₂, v ≠ id → s.connections.lookup v = some c₂ →
      s₁.users.lookup c₂.address = s.users.lookup c₂.address)
    (hcursor : c'.cursor ≤ s.broadcasts.length) (hwire : Wire c'.written)
    (htask : Attending id c' (standing owed' (s₁.setConnection id c') id c')) :
    Converging (trace ++ [label]) owed' (s₁.setConnection id c') := by
  have hlookup : ∀ v, (s₁.setConnection id c').connections.lookup v =
      if v = id then some c' else s.connections.lookup v := by
    intro v
    rw [ManagementServer.setConnection_lookup,hconn]
  have hlength : s.broadcasts.length ≤ (s₁.setConnection id c').broadcasts.length := by
    rw [hadv.broadcasts,List.length_append]
    exact Nat.le_add_right _ _
  refine ⟨hlife,fun v => hadv.replayable (h.replayable v),?_,?_,?_,?_,?_⟩
  · intro m hm
    rw [hadv.broadcasts] at hm
    rcases List.mem_append.mp hm with hm | hm
    · exact (h.attributed m hm).mono hadv
    · exact (hmore m hm).mono hadv
  · intro v hv
    rw [hlookup] at hv
    split at hv
    · cases hv
    · rename_i hne
      rw [howed v hne]
      exact h.silent v hv
  · intro v c₂ hv
    rw [hlookup] at hv
    split at hv
    · cases hv
      exact hcursor.trans hlength
    · exact (h.cursors v c₂ hv).trans hlength
  · intro v c₂ hv
    rw [hlookup] at hv
    split at hv
    · cases hv
      exact hwire
    · exact h.wires v c₂ hv
  · intro v c₂ hv
    rw [hlookup] at hv
    split at hv
    · rename_i heq
      cases hv
      rw [heq]
      exact htask
    · rename_i hne
      exact (h.tasks v c₂ hv).drift
        (hadv.drift (h.cursors v c₂ hv) (hrecords v c₂ hne hv) (howed v hne))

/-- A step that touches neither records nor broadcasts. -/
theorem Converging.quiet (h : Converging trace owed s) (s₁ : ManagementServer) (c' : Connection)
    (hc : s.connections.lookup id = some c)
    (hlife : Lifecycle reliablePeers (trace ++ [label]) (s₁.setConnection id c'))
    (hs₁ : s₁ = { s with events := s₁.events }) (haddr : c'.address = c.address)
    (hwritten : c'.written = c.written) (hcursor : c'.cursor ≤ s.broadcasts.length)
    (htask : Attending id c' (standing owed s id c')) :
    Converging (trace ++ [label]) owed (s₁.setConnection id c') := by
  have hconn : s₁.connections = s.connections := by rw [hs₁]
  have husers : s₁.users = s.users := by rw [hs₁]
  have hbroadcasts : s₁.broadcasts = s.broadcasts := by rw [hs₁]
  have hc₁ : s₁.connections.lookup id = some c := by rwa [hconn]
  have hadv : Advances owed s owed (s₁.setConnection id c') [] := by
    refine ⟨?_,?_,?_⟩
    · rw [List.append_nil]
      exact hbroadcasts
    · intro v c₂ hv
      exact home_setConnection hc₁ haddr (by rwa [hconn])
    · intro v
      refine ⟨[],(List.append_nil _).symm,?_⟩
      rw [stored_setConnection hc₁ haddr,stored,hconn,husers]
      rfl
  refine h.move hlife hconn hadv (fun m hm => by cases hm) (fun _ _ => rfl)
    (fun _ _ _ _ => by rw [husers]) hcursor (hwritten ▸ h.wires id c hc) ?_
  refine htask.drift ⟨?_,rfl,rfl,fun v a ha => hadv.homes ha,fun v x hx => hadv.converges hcursor hx⟩
  change s₁.users.lookup c'.address = _
  rw [husers]
  rfl

/-- Two connections are apart. -/
theorem Converging.apart (h : Converging trace owed s) (hc : s.connections.lookup id = some c)
    {v : UInt64} {c₂ : Connection} (hne : v ≠ id) (hv : s.connections.lookup v = some c₂) :
    c₂.address ≠ c.address :=
  h.lifecycle.apart id v c c₂ hc hv trivial trivial hne

/-- The answer that the shared state gives is one the task may rely on. -/
theorem Converging.answers (h : Converging trace owed s) {o : Op} {r : o.Res} (hr : s.Answers o r)
    (hguard : guard s (.exec id o r)) :
    (protocol id c.address).answers (standing owed s id c) o r := by
  cases o with
  | getMut a update =>
    rintro rfl
    exact hr
  | get a =>
    rintro rfl
    exact hr
  | remove a =>
    rintro rfl
    exact hr
  | encode packet => exact hr
  | write data => exact hguard trivial
  | keys =>
    intro v
    -- a record that is missing at the start of the iteration needs no entry
    have hmissing : stored s v = none → (standing owed s id c).converges v none := by
      intro hnone
      rw [← hnone]
      exact stored_converges h.replayable v
    cases hv : s.connections.lookup v with
    | none => exact .inl (hmissing (by rw [stored,hv]; rfl))
    | some c₂ =>
      cases hu : s.users.lookup c₂.address with
      | none => exact .inl (hmissing (by rw [stored_of_connection hv,hu]; rfl))
      | some u =>
        refine .inr ⟨c₂.address,hr.2 _ u hu,?_⟩
        change (s.connections.lookup v).map _ = _
        rw [hv]
        rfl
  | read a =>
    obtain rfl : r = s.users.lookup a := hr
    refine ⟨fun v hv => ?_,fun u hu => ?_⟩
    · obtain ⟨c₂,hc₂,rfl⟩ := Option.map_eq_some_iff.mp hv
      refine ⟨?_,fun u hu => ?_⟩
      · rw [← stored_of_connection hc₂]
        exact stored_converges h.replayable v
      · obtain ⟨c₃,hc₃,haddr⟩ := h.lifecycle.owner _ u hu
        by_contra hne
        exact h.apart hc₂ hne hc₃ haddr
    · obtain ⟨c₂,hc₂,haddr⟩ := h.lifecycle.owner a u hu
      change (s.connections.lookup u.id).map _ = _
      rw [hc₂,← haddr]
      rfl
  | _ => trivial

/-- A new connection has a blank record, and nobody is to show it. -/
theorem Converging.accept {address : SocketAddr} {token : UInt64} (h : Converging trace owed s)
    (hlife : Lifecycle reliablePeers (trace ++ [.accept address token]) (s.accept address token))
    (hguard : guard s (.accept address token)) :
    Converging (trace ++ [.accept address token]) owed (s.accept address token) := by
  have hfresh := h.lifecycle.fresh
  have hlookup := s.accept_connections address token
  have husers := s.accept_users address token
  have hne : ∀ v c, s.connections.lookup v = some c → v ≠ s.nextUserId := by
    rintro v c hc rfl
    rw [hfresh] at hc
    cases hc
  have hrecord : ∀ v c, s.connections.lookup v = some c →
      (s.accept address token).users.lookup c.address = s.users.lookup c.address := by
    intro v c hc
    have haddr : c.address ≠ address := hguard v c hc trivial
    rw [husers,if_neg haddr]
  have hadv : Advances owed s owed (s.accept address token) [] := by
    refine ⟨(List.append_nil _).symm,?_,?_⟩
    · intro v c hc
      exact ⟨c,by rw [hlookup,if_neg (hne v c hc),hc],rfl⟩
    · intro v
      refine ⟨[],(List.append_nil _).symm,?_⟩
      unfold stored
      rw [hlookup]
      split
      · rename_i hv
        rw [hv,hfresh]
        change present ((s.accept address token).users.lookup address) = none
        rw [husers,if_pos rfl]
        rfl
      · cases hc : s.connections.lookup v with
        | none => rfl
        | some c => exact congrArg present (hrecord v c hc)
  refine ⟨hlife,fun v => hadv.replayable (h.replayable v),fun m hm => (h.attributed m hm).mono hadv,
    ?_,?_,?_,?_⟩
  · intro v hv
    rw [hlookup] at hv
    split at hv
    · cases hv
    · exact h.silent v hv
  · intro v c hv
    rw [hlookup] at hv
    split at hv
    · cases hv
      exact Nat.zero_le _
    · exact h.cursors v c hv
  · intro v c hv
    rw [hlookup] at hv
    split at hv
    · cases hv
      exact ⟨[],[],.nil,rfl⟩
    · exact h.wires v c hv
  · intro v c hv
    rw [hlookup] at hv
    split at hv
    · rename_i hnew
      cases hv
      rw [hnew]
      refine ⟨rfl,⟨s.newUser token,?_,rfl,rfl,rfl,rfl⟩,h.silent _ hfresh⟩
      exact (husers address).trans (if_pos rfl)
    · exact (h.tasks v c hv).drift (hadv.drift (h.cursors v c hv) (hrecord v c hv) rfl)

/-- Behind the next message every other user converges once the client has it. -/
theorem Converging.next {m : BroadcastMessage} {packet : Packet}
    (hm : s.broadcasts[c.cursor]? = some m) (hpacket : packet.encode = some m.data)
    (hevent : packet.isEvent = true) {v : UInt64} {x : Option ParticipantInfo}
    (hx : (standing owed s id c).converges v x) :
    (standing owed s id { c with cursor := c.cursor + 1 }).converges v (touch v x packet) := by
  have hnext := converges_next hm hx
  rw [news_single hpacket] at hnext
  split at hnext
  · exact hnext
  · rename_i hne
    rw [touch_event hevent hne]
    exact hnext

/-- The broadcast branch begins: the client is sent what it needs. -/
theorem Converging.recv (h : Converging trace owed s) (hc : s.connections.lookup id = some c)
    {m : BroadcastMessage} (hm : s.broadcasts[c.cursor]? = some m)
    (hidle : Idle id (standing owed s id c) (Packet.framer.split c.received).1) :
    Keeps id c.address (After id c.received)
      (handleRecv c.address (Packet.framer.split c.received).2 (.ok m))
      (standing owed s id { c with cursor := c.cursor + 1 }) := by
  obtain ⟨packet,hpacket,hevent,hwho⟩ := h.attributed m (List.mem_of_getElem? hm)
  cases hsend : m.shouldSendTo c.address with
  | true =>
    apply handleRecv_sent_after hsend hpacket
    refine hidle.turn rfl rfl fun v _ hpage => ?_
    rw [Standing.page,List.foldl_append]
    exact Converging.next hm hpacket hevent hpage
  | false =>
    apply handleRecv_filtered_after hsend
    refine hidle.turn rfl rfl fun v hne hpage => ?_
    -- a message withheld from this client is about its own user
    have hother : subject packet ≠ some v := by
      intro hv
      obtain ⟨c₂,hc₂,hexclude⟩ := hwho v hv
      have hself : m.exclude = some c.address := by
        simpa [BroadcastMessage.shouldSendTo] using hsend
      rw [hself] at hexclude
      rcases hexclude with hexclude | hexclude
      · cases hexclude
      · exact h.apart hc hne hc₂ (Option.some.inj hexclude).symm
    have hnext := Converging.next hm hpacket hevent hpage
    rw [touch_event hevent hother] at hnext
    exact hnext

/-- The read branch begins: what the client sends keeps to the conversation. -/
theorem Courteous.read {bytes : Bytes} {g : Standing} (h : Courteous id (c.received ++ bytes))
    (hidle : Idle id g (Packet.framer.split c.received).1) :
    Keeps id c.address (After id (c.received ++ bytes))
      (handleRead c.address (Packet.framer.split c.received).2 (.ok bytes)) g := by
  obtain ⟨packets,ws,hws,hpre,hall⟩ := h
  obtain ⟨k,kept,hsplit,_⟩ := Packet.framer_encodes.split_stream hws hpre
  refine handleRead_after (r := .ok bytes) (Packet.framer_encodes.split_more hws hpre) ?_ hidle
  change Conversation id (Packet.framer.split (c.received ++ bytes)).1
  rw [hsplit]
  rw [← List.take_append_drop k packets] at hall
  exact hall.before

end Steps

theorem step_converging {trace : Trace} {owed : UInt64 → List Packet} {s s' : ManagementServer}
    {label : Label} (h : Converging trace owed s) (hstep : Guarded guard Step s label s') :
    ∃ owed', Converging (trace ++ [label]) owed' s' := by
  obtain ⟨hguard,hstep⟩ := hstep
  have hlife := step_lifecycle h.lifecycle ⟨guard_reliable hguard,hstep⟩
  cases hstep with
  | accept hid => exact ⟨owed,h.accept hlife hguard⟩
  | @connect id c hc hp =>
    have htask := h.tasks id c hc
    rw [Attending,hp] at htask
    exact ⟨owed,h.quiet (s.sendEvent (.userConnected c.user.id c.user.token))
      { c with phase := .connected } hc hlife rfl rfl rfl (h.cursors id c hc) htask⟩
  | @subscribe id c hc hp =>
    have htask := h.tasks id c hc
    rw [Attending,hp] at htask
    obtain ⟨hreceived,hblank⟩ := htask
    refine ⟨owed,h.quiet s { c with phase := .select [], cursor := s.broadcasts.length } hc hlife
      rfl rfl rfl (Nat.le_refl _) ?_⟩
    constructor
    · rw [hreceived,Packet.framer_encodes.split_nil]
    · rw [hreceived,Packet.framer_encodes.split_nil]
      exact ⟨hblank.record,hblank.owed⟩
  | @read id c packetBuffer r hc hp hlen =>
    have htask := h.tasks id c hc
    rw [Attending,hp] at htask
    obtain ⟨rfl,hidle⟩ := htask
    cases r with
    | error => exact hguard.elim
    | ok bytes =>
      have hread : Courteous id (c.received ++ bytes) := hguard c hc
      refine ⟨owed,h.quiet s _ hc hlife rfl rfl rfl (h.cursors id c hc) ?_⟩
      exact attending_ofProgram rfl (hread.read hidle)
  | @recv id c packetBuffer m hc hp hm hring =>
    have htask := h.tasks id c hc
    rw [Attending,hp] at htask
    obtain ⟨rfl,hidle⟩ := htask
    have hlt : c.cursor < s.broadcasts.length := (List.getElem?_eq_some_iff.mp hm).1
    refine ⟨owed,h.quiet s _ hc hlife rfl rfl rfl hlt ?_⟩
    exact attending_ofProgram rfl (h.recv hc hm hidle)
  | lagged => exact hguard.elim
  | @closed id c packetBuffer hc hp =>
    have htask := h.tasks id c hc
    rw [Attending,hp] at htask
    exact ⟨owed,h.quiet s _ hc hlife rfl rfl rfl (h.cursors id c hc) htask.2.owed⟩
  | @exec id c o k r b hc hp hr hb =>
    have htask := h.tasks id c hc
    rw [Attending,hp] at htask
    have hans := h.answers (c := c) hr hguard
    obtain ⟨g,heff,hk⟩ := Discipline.wp_op htask hans
    obtain ⟨hwire,hsent⟩ := perform_written (h.wires id c hc) hans hb heff
    have hadv := perform_advances
      { c with phase := .ofProgram (k r), written := c.written ++ b } hc rfl
      (fun v c₂ hne hv => h.apart hc hne hv) hr heff
    refine ⟨_,h.move hlife (s.perform_connections o) hadv ?_
      (fun v hne => Function.update_of_ne hne _ _)
      (fun v c₂ hne hv => perform_record heff (h.apart hc hne hv)) (h.cursors id c hc) hwire ?_⟩
    · intro m hm
      obtain ⟨packet,hpacket,hevent,hwho⟩ := (effect_spec heff).attributed m hm
      refine ⟨packet,hpacket,hevent,fun v hv => ?_⟩
      obtain ⟨rfl,hexclude⟩ := hwho v hv
      exact ⟨c,hc,hexclude⟩
    · apply attending_ofProgram rfl
      exact Discipline.wp_stable hk
        (perform_drift hadv (h.cursors id c hc) rfl (perform_own (c := c) hr heff) hsent
          (effect_spec heff))
  | panic => exact (hguard trivial).elim
  | @disconnect id c e hc hp =>
    have htask := h.tasks id c hc
    rw [Attending,hp] at htask
    exact ⟨owed,h.quiet (s.sendEvent (.userDisconnected c.user.id)) { c with phase := .ended } hc
      hlife rfl rfl rfl (h.cursors id c hc) htask⟩

/-- In every reachable state each client converges. -/
theorem run_converging {trace : Trace} {s : ManagementServer}
    (h : Run (Guarded guard Step) ManagementServer.new trace s) :
    ∃ owed, Converging trace owed s := by
  induction h with
  | refl => exact ⟨_,converging_new⟩
  | snoc _ hstep ih =>
    obtain ⟨owed,ih⟩ := ih
    exact step_converging ih hstep

end VoiceApp.Presence
