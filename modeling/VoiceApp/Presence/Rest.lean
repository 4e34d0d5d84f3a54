import VoiceApp.Management.OwnRecord
import VoiceApp.Presence.Convergence
import VoiceApp.Sdk.TcpClient

/-! # Presence at rest

As soon as nothing is being handled and every queue is empty, each logged in client shows
of all other users exactly what the users map says.
-/
namespace VoiceApp.Presence
open Protocol Server Framing Management Sdk Desktop

/-- The task is not in the middle of a packet or a broadcast. -/
def AtRest : Phase → Prop
  | .running .. => False
  | _ => True

section Rest
variable {trace : Trace} {owed : UInt64 → List Packet} {s : ManagementServer} {id : UInt64}
  {c : Connection}

/-- A task at rest owes nothing. -/
theorem Converging.owes_nothing (h : Converging trace owed s)
    (hrest : ∀ id c, s.connections.lookup id = some c → AtRest c.phase) (v : UInt64) :
    owed v = [] := by
  cases hc : s.connections.lookup v with
  | none => exact h.silent v hc
  | some c =>
    have htask := h.tasks v c hc
    have hphase := hrest v c hc
    unfold Attending at htask
    cases hp : c.phase with
    | spawned =>
      rw [hp] at htask
      exact htask.2.owed
    | connected =>
      rw [hp] at htask
      exact htask.2.owed
    | select packetBuffer =>
      rw [hp] at htask
      exact htask.2.owed
    | running o k =>
      rw [hp] at hphase
      exact hphase.elim
    | returned e =>
      rw [hp] at htask
      exact htask
    | ended =>
      rw [hp] at htask
      exact htask
    | panicked =>
      rw [hp] at htask
      exact htask.elim

/-- The client of a named record shows of everybody else what is stored. -/
theorem Converging.page_eq (h : Converging trace owed s) (howed : ∀ v, owed v = [])
    (hc : s.connections.lookup id = some c) {packetBuffer : Bytes}
    (hp : c.phase = .select packetBuffer) (hdrained : c.cursor = s.broadcasts.length) {u : User}
    {name : String} (hu : s.users.lookup c.address = some u) (hname : u.username = some name)
    {v : UInt64} (hne : v ≠ id) : (packetsOf c.written).foldl (touch v) none = stored s v := by
  have htask := h.tasks id c hc
  rw [Attending,hp] at htask
  have hidle := htask.2
  cases hhandled : (Packet.framer.split c.received).1 with
  | nil =>
    rw [hhandled] at hidle
    obtain ⟨u',hown,_,hnone,_⟩ := Blank.record hidle
    have heq : u' = u := Option.some.inj (hown.symm.trans hu)
    rw [heq,hname] at hnone
    cases hnone
  | cons first rest =>
    rw [hhandled] at hidle
    have hpage := Synced.page hidle v hne
    change (news v (s.broadcasts.drop c.cursor) ++ owed v).foldl (touch v) _ = stored s v at hpage
    rw [hdrained,List.drop_length,howed v] at hpage
    exact hpage

theorem Converging.stored_eq (h : Converging trace owed s) {a : SocketAddr} {u : User}
    (hu : s.users.lookup a = some u) : stored s u.id = present (some u) := by
  obtain ⟨c,hc,rfl⟩ := h.lifecycle.owner a u hu
  rw [stored_of_connection hc,hu]

theorem Converging.stored_none (h : Converging trace owed s) {v : UInt64}
    (hv : ∀ a u, s.users.lookup a = some u → u.id = v → u.username = none) : stored s v = none := by
  cases hc : s.connections.lookup v with
  | none =>
    rw [stored,hc]
    rfl
  | some c =>
    rw [stored_of_connection hc]
    cases hu : s.users.lookup c.address with
    | none => rfl
    | some u =>
      obtain ⟨c₂,hc₂,haddr⟩ := h.lifecycle.owner _ u hu
      have hid : u.id = v := by
        by_contra hne
        exact h.apart hc hne hc₂ haddr
      change u.username.map _ = none
      rw [hv _ u hu hid]
      rfl

end Rest

/-- Once everything is at rest, what a logged in client has received, in whatever reads,
folds to the stored name, voice and mute state of every other user with a name, and to no
entry for anybody else. -/
theorem presence_converges (formatTime : UInt64 → String) {trace : Trace} {s : ManagementServer}
    (h : Run (Guarded guard Step) ManagementServer.new trace s)
    (hrest : ∀ id c, s.connections.lookup id = some c → AtRest c.phase)
    (hdrained : ∀ id c packetBuffer, s.connections.lookup id = some c →
      c.phase = .select packetBuffer → c.cursor = s.broadcasts.length)
    {id : UInt64} {c : Connection} {packetBuffer : Bytes} {u : User} {name : String}
    (hc : s.connections.lookup id = some c) (hp : c.phase = .select packetBuffer)
    (hu : s.users.lookup c.address = some u) (hname : u.username = some name)
    (reads : List Bytes) (hne : ∀ bytes ∈ reads, bytes ≠ []) (hreads : reads.flatten = c.written) :
    ∃ client page, TcpClient.handleReads .new reads = .ok (true,client) ∧
      page = RoomPage.new.serverEventsReceived formatTime
        (EventHandler.listenToPackets client.packetTx) ∧
      (∀ a u', s.users.lookup a = some u' → u'.id ≠ id → ∀ name', u'.username = some name' →
        page.participants.lookup u'.id = some ⟨u'.id,name',u'.inVoice,u'.isMuted⟩) ∧
      ∀ v, v ≠ id → (∀ a u', s.users.lookup a = some u' → u'.id = v → u'.username = none) →
        page.participants.lookup v = none := by
  obtain ⟨owed,hconv⟩ := run_converging h
  obtain ⟨client,hclient,hfeed⟩ := TcpClient.handleReads_feed hne .new
  have hpackets : client.packetTx = packetsOf c.written := by
    obtain ⟨packets,ws,hws,hwritten⟩ := hconv.wires id c hc
    have hpre : reads.flatten <+: ws.flatten := by rw [hreads,hwritten]
    rw [packetsOf,← hreads,← Packet.framer_encodes.feedAll_eq hws hpre]
    exact congrArg Prod.fst hfeed
  have hpage : ∀ v, v ≠ id → (RoomPage.new.serverEventsReceived formatTime
      (EventHandler.listenToPackets client.packetTx)).participants.lookup v = stored s v := by
    intro v hne
    rw [received_lookup,hpackets]
    exact hconv.page_eq (hconv.owes_nothing hrest) hc hp (hdrained id c _ hc hp) hu hname hne
  refine ⟨client,_,hclient,rfl,?_,?_⟩
  · intro a u' hu' hother name' hname'
    rw [hpage u'.id hother,hconv.stored_eq hu']
    change u'.username.map _ = _
    rw [hname']
    rfl
  · intro v hother hv
    rw [hpage v hother]
    exact hconv.stored_none hv

/-! ## A run in which two users log in one after the other -/

/-- A state that a run of polite clients reaches. -/
def Reachable (s : ManagementServer) : Prop :=
  ∃ trace, Run (Guarded guard Step) ManagementServer.new trace s

/-- The record gets its name. -/
def naming (username : String) (user : User) : User := { user with username := some username }

section Login
variable {s : ManagementServer} {id : UInt64} {c : Connection}

theorem Reachable.step {s' : ManagementServer} {label : Label} (h : Reachable s)
    (hstep : Step s label s') (hguard : guard s label) : Reachable s' := by
  obtain ⟨trace,hrun⟩ := h
  exact ⟨_,hrun.snoc ⟨hguard,hstep⟩⟩

theorem guard_calm (id : UInt64) : Calmly (Guarded guard Step) id := by
  intro s s' o r hstep ho
  refine ⟨?_,hstep⟩
  cases o with
  | write data => exact fun _ => ho
  | _ => trivial

theorem naming_keys {users : Table SocketAddr User} {addresses : List SocketAddr}
    {address : SocketAddr} {username : String}
    (h : ∀ a u, users.lookup a = some u → a ∈ addresses) :
    ∀ a u, (users.modify address (naming username)).lookup a = some u → a ∈ addresses := by
  intro a u ha
  rw [Table.lookup_modify] at ha
  split at ha
  · rename_i heq
    obtain ⟨u',hu',_⟩ := Option.map_eq_some_iff.mp ha
    rw [heq]
    exact h address u' hu'
  · exact h a u ha

/-- The task at hand carries out a login on its own. -/
theorem Reachable.login {u : User} {data response joined : Bytes} {users : Table SocketAddr User}
    (h : Reachable (s.setConnection id c)) (requestId : UInt64) (username : String)
    (addresses : List SocketAddr) (hp : c.phase = .select []) (hreceived : c.received = [])
    (hdata : (Packet.loginRequest requestId username).encode = some data)
    (hlen : data.length ≤ packetBufferSize) (hv : validUsername username = true)
    (hu : s.users.lookup c.address = some u)
    (husers : users = s.users.modify c.address (naming username))
    (hnodup : addresses.Nodup) (hkeys : ∀ a u, s.users.lookup a = some u → a ∈ addresses)
    (hresponse : (Packet.loginResponse requestId u.id u.token
      ((addresses.map fun a => users.lookup a).filterMap present)).encode = some response)
    (hjoined : (Packet.userJoinedServer ⟨u.id,username,false,false⟩).encode = some joined) :
    Reachable (ManagementServer.setConnection
      { s with users := users, broadcasts := s.broadcasts ++ [⟨some c.address,joined⟩] } id
      { c with phase := .select [], received := data, written := c.written ++ response }) := by
  have hpolite : guard (s.setConnection id c) (.read id (.ok data)) := by
    intro c' hc'
    rw [ManagementServer.setConnection_own] at hc'
    cases hc'
    rw [hreceived]
    exact ⟨[.loginRequest requestId username],[data],.cons hdata .nil,by simp,
      ⟨requestId,username,rfl,hv⟩,by simp⟩
  obtain ⟨trace,hrun⟩ := h
  have hlogin := run_login (guard_calm id) hrun requestId username addresses hp hdata hlen hv hu husers
    hnodup (by rw [husers]; exact naming_keys hkeys) hresponse hjoined fun hstep => ⟨hpolite,hstep⟩
  rw [hreceived] at hlogin
  exact ⟨_,hlogin⟩

end Login

/-- Bob logs in as user 1 while user 2 is connected, then user 2 logs in as Ann, and both
receive what there is to receive. -/
theorem logins_reachable : ∃ s c₁ c₂, Reachable s ∧ s.nextUserId = 3 ∧ s.broadcasts.length = 2 ∧
    s.connections.lookup 0 = none ∧ s.connections.lookup 1 = some c₁ ∧
    s.connections.lookup 2 = some c₂ ∧ c₁.phase = .select [] ∧ c₂.phase = .select [] ∧
    c₁.cursor = 2 ∧ c₂.cursor = 2 ∧ c₂.address = .v4 2 2 ∧
    s.users.lookup (.v4 1 1) = some ⟨1,some "bob",false,false,11⟩ ∧
    s.users.lookup (.v4 2 2) = some ⟨2,some "ann",false,false,22⟩ := by
  let accepted := (ManagementServer.new.accept (.v4 1 1) 11).accept (.v4 2 2) 22
  let bob : Connection := ⟨⟨1,none,false,false,11⟩,.v4 1 1,.spawned,0,[],[]⟩
  let ann : Connection := ⟨⟨2,none,false,false,22⟩,.v4 2 2,.spawned,0,[],[]⟩
  have haccepted : Reachable accepted := by
    have hempty : Reachable ManagementServer.new := ⟨[],.refl⟩
    refine (hempty.step (.accept (by decide)) ?_).step (.accept (by decide)) ?_
    · intro id c hc
      simp [ManagementServer.new] at hc
    · intro id c hc _
      rw [ManagementServer.accept_connections] at hc
      split at hc
      · cases hc
        simp
      · simp [ManagementServer.new] at hc
  have hkeys : ∀ a u, accepted.users.lookup a = some u → a ∈ [SocketAddr.v4 1 1,.v4 2 2] := by
    intro a u hu
    rw [ManagementServer.accept_users,ManagementServer.accept_users] at hu
    split at hu
    · simp [*]
    · split at hu
      · simp [*]
      · simp [ManagementServer.new] at hu
  have hdata₁ : (Packet.loginRequest 7 "bob").encode =
      some [1,0,13,0,0,0,0,0,0,0,7,0,3,98,111,98] := by decide
  have hdata₂ : (Packet.loginRequest 8 "ann").encode =
      some [1,0,13,0,0,0,0,0,0,0,8,0,3,97,110,110] := by decide
  obtain ⟨response₁,hresponse₁⟩ :=
    (Packet.encode_isSome_iff (.loginResponse 7 1 11 [⟨1,"bob",false,false⟩])).mpr (by decide)
  obtain ⟨joined₁,hjoined₁⟩ :=
    (Packet.encode_isSome_iff (.userJoinedServer ⟨1,"bob",false,false⟩)).mpr (by decide)
  obtain ⟨response₂,hresponse₂⟩ := (Packet.encode_isSome_iff
    (.loginResponse 8 2 22 [⟨1,"bob",false,false⟩,⟨2,"ann",false,false⟩])).mpr (by decide)
  obtain ⟨joined₂,hjoined₂⟩ :=
    (Packet.encode_isSome_iff (.userJoinedServer ⟨2,"ann",false,false⟩)).mpr (by decide)
  have hconnected₁ := haccepted.step (show Step _ (.connect 1) _ from
    .connect (c := bob) rfl rfl) trivial
  have hselect₁ := hconnected₁.step (show Step _ (.subscribe 1) _ from
    .subscribe (c := { bob with phase := .connected }) rfl rfl) trivial
  have hlogin₁ := hselect₁.login 7 "bob" [.v4 1 1,.v4 2 2] rfl rfl hdata₁ (by decide) (by decide)
    rfl rfl (by decide) hkeys hresponse₁ hjoined₁
  have hconnected₂ := hlogin₁.step (show Step _ (.connect 2) _ from
    .connect (c := ann) rfl rfl) trivial
  have hselect₂ := hconnected₂.step (show Step _ (.subscribe 2) _ from
    .subscribe (c := { ann with phase := .connected }) rfl rfl) trivial
  have hlogin₂ := hselect₂.login 8 "ann" [.v4 1 1,.v4 2 2] rfl rfl hdata₂ (by decide) (by decide)
    rfl rfl (by decide) (naming_keys hkeys) hresponse₂ hjoined₂
  have hrecv₂ := hlogin₂.step (show Step _ (.recv 2 (.ok ⟨some (.v4 2 2),joined₂⟩)) _ from
    .recv rfl rfl rfl (Nat.le_of_ble_eq_true rfl)) trivial
  have hrecv₁ := hrecv₂.step (show Step _ (.recv 1 (.ok ⟨some (.v4 1 1),joined₁⟩)) _ from
    .recv rfl rfl rfl (Nat.le_of_ble_eq_true rfl)) trivial
  have hrecv₁' := hrecv₁.step (show Step _ (.recv 1 (.ok ⟨some (.v4 2 2),joined₂⟩)) _ from
    .recv rfl rfl rfl (Nat.le_of_ble_eq_true rfl)) trivial
  have hsent₁ := hrecv₁'.step (show Step _ (.exec 1 (.write joined₂) true) _ from
    .exec rfl rfl trivial rfl) fun _ => rfl
  exact ⟨_,_,_,hsent₁,rfl,rfl,rfl,rfl,rfl,rfl,rfl,rfl,rfl,rfl,rfl,rfl⟩

/-- Ann's client shows Bob. -/
theorem presence_converges_logins : ∃ reads client page,
    TcpClient.handleReads .new reads = .ok (true,client) ∧
    page = RoomPage.new.serverEventsReceived (fun _ => "")
      (EventHandler.listenToPackets client.packetTx) ∧
    page.participants.lookup 1 = some ⟨1,"bob",false,false⟩ := by
  obtain ⟨s,c₁,c₂,⟨trace,hrun⟩,hnext,hlength,h₀,h₁,h₂,hp₁,hp₂,hcursor₁,hcursor₂,haddr,hbob,hann⟩ :=
    logins_reachable
  have hboth : ∀ id c, s.connections.lookup id = some c → c = c₁ ∨ c = c₂ := by
    intro id c hc
    obtain ⟨owed,hconv⟩ := run_converging hrun
    have hlt := (hconv.lifecycle.ids id c hc).2
    rw [hnext] at hlt
    change id.toNat < 3 at hlt
    have hids : id = 0 ∨ id = 1 ∨ id = 2 := by
      simp only [← UInt64.toNat_inj]
      change id.toNat = 0 ∨ id.toNat = 1 ∨ id.toNat = 2
      omega
    rcases hids with rfl | rfl | rfl
    · rw [h₀] at hc
      cases hc
    · exact .inl (Option.some.inj (hc.symm.trans h₁))
    · exact .inr (Option.some.inj (hc.symm.trans h₂))
  obtain ⟨client,page,hclient,hpage,hshown,_⟩ := presence_converges (fun _ => "") hrun
    (fun id c hc => by rcases hboth id c hc with rfl | rfl <;> simp [hp₁,hp₂,AtRest])
    (fun id c _ hc _ => by rcases hboth id c hc with rfl | rfl <;> simp [hcursor₁,hcursor₂,hlength])
    h₂ hp₂ (haddr ▸ hann) rfl (c₂.written.map fun b => [b]) (by simp)
    (List.flatMap_singleton' _)
  exact ⟨_,client,page,hclient,hpage,hshown _ _ hbob (by decide) "bob" rfl⟩

end VoiceApp.Presence
