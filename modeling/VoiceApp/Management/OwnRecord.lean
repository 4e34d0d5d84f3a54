import VoiceApp.Management.Law

/-! # What a task does with its own record

The affairs of a task are its record, as the users map has it, and the record it has taken
out for good. No task touches another record, so a law about the operations that are
allowed in view of the own record is a matter of the programs alone.
-/
namespace VoiceApp.Management
open Protocol Server

/-- The record of a task, and what it has taken out. -/
structure Own where
  record : Option User
  taken : List User

def Own.view (trace : Trace) (s : ManagementServer) (id : UInt64) (c : Connection) : Own :=
  ⟨s.users.lookup c.address,departed id trace⟩

/-- The affairs after an operation on the own record. -/
def Own.after (g : Own) : (o : Op) → o.Res → Own
  | .getMut _ _,r => { g with record := r }
  | .remove _,r => { record := none, taken := g.taken ++ r.toList }
  | _,_ => g

/-- The operation touches no record but the one at this address, and does not rename it. -/
def Op.Local (address : SocketAddr) : Op → Prop
  | .getMut a update => a = address ∧ ∀ u, (update u).id = u.id
  | .remove a => a = address
  | _ => True

/-- No address is accepted again while a task that uses it is running. -/
def liveApart : Assumptions where
  reliable := False
  held := Phase.Alive
  held_alive _ h := h
  held_ended := Phase.alive_ended

theorem liveApart_guard {s : ManagementServer} {label : Label}
    (h : ∀ address token, label ≠ .accept address token) : liveApart.guard s label := by
  cases label with
  | accept address token => exact (h address token rfl).elim
  | exec id o r =>
    cases o with
    | write => exact fun h => h.elim
    | _ => trivial
  | panic id => exact fun h => h
  | _ => trivial

theorem perform_local {s : ManagementServer} {o : Op} {address a : SocketAddr}
    (h : o.Local address) (hne : a ≠ address) : (s.perform o).users.lookup a = s.users.lookup a := by
  cases o with
  | getMut a' update =>
    obtain ⟨rfl,_⟩ := h
    simp [ManagementServer.perform,Table.lookup_modify,hne]
  | remove a' =>
    obtain rfl := h
    simp [ManagementServer.perform,hne]
  | _ => rfl

theorem perform_after {trace : Trace} {s : ManagementServer} {id : UInt64} {o : Op} {r : o.Res}
    {c c' : Connection} (hr : s.Answers o r) (hlocal : o.Local c.address)
    (haddr : c'.address = c.address) :
    Own.view (trace ++ [.exec id o r]) ((s.perform o).setConnection id c') id c' =
      (Own.view trace s id c).after o r := by
  have hlabel : departed id (trace ++ [.exec id o r]) =
      departed id trace ++ (Label.removed id (.exec id o r)).toList := departed_concat _ _ _
  have husers : ((s.perform o).setConnection id c').users = (s.perform o).users := rfl
  rw [Own.view,husers,haddr,hlabel]
  cases o with
  | getMut a update =>
    obtain ⟨rfl,_⟩ := hlocal
    have hown : r = (s.users.lookup c.address).map update := hr
    simp [ManagementServer.perform,Table.lookup_modify,hown,Own.after,Own.view,Label.removed]
  | remove a =>
    obtain rfl := hlocal
    simp [ManagementServer.perform,Own.after,Own.view,Label.removed]
  | _ => simp [ManagementServer.perform,ManagementServer.sendEvent,Own.after,Own.view,Label.removed]

/-- A step that touches no record. -/
theorem view_stays (trace : Trace) (s : ManagementServer) (id : UInt64) (c : Connection)
    {s₁ : ManagementServer} {c' : Connection} {label : Label} (hremoved : ∀ id, label.removed id = none)
    (husers : s₁.users = s.users) (haddr : c'.address = c.address) :
    Own.view (trace ++ [label]) s₁ id c' = Own.view trace s id c := by
  rw [Own.view,Own.view,husers,haddr,departed_concat,hremoved]
  exact congrArg _ (List.append_nil _)

/-- What holds of a view still holds after a step that touches no record. -/
theorem view_still (Q : Own → Prop) (trace : Trace) (s : ManagementServer) (id : UInt64) (c : Connection)
    {s₁ : ManagementServer} {c' : Connection} {label : Label} (hremoved : ∀ id, label.removed id = none)
    (husers : s₁.users = s.users) (haddr : c'.address = c.address) (h : Q (Own.view trace s id c)) :
    Q (Own.view (trace ++ [label]) s₁ id c') := by
  rw [view_stays trace s id c hremoved husers haddr]
  exact h

section Others
variable {trace : Trace} {s s' : ManagementServer} {label : Label} {id : UInt64} {c : Connection}

/-- Another task leaves the record and what was taken out alone. -/
theorem view_others (hr : Run (Guarded liveApart.guard Step) ManagementServer.new trace s)
    (hstep : Guarded liveApart.guard Step s label s') (hne : label.actor ≠ some id)
    (hc : s.connections.lookup id = some c) (halive : c.phase.Alive) :
    Own.view (trace ++ [label]) s' id c = Own.view trace s id c := by
  have hlife := run_lifecycle hr
  obtain ⟨hguard,hstep⟩ := hstep
  have hremoved : label.removed id = none := by
    cases label with
    | exec id' o r =>
      cases o with
      | remove a => exact if_neg fun heq => hne (by rw [← heq]; rfl)
      | _ => rfl
    | _ => rfl
  have htaken : departed id (trace ++ [label]) = departed id trace := by
    rw [departed_concat,hremoved]
    exact List.append_nil _
  rw [Own.view,htaken]
  refine congrArg (fun record => (⟨record,departed id trace⟩ : Own)) ?_
  cases hstep with
  | accept =>
    have haddr := hguard id c hc halive
    rw [s.accept_users,if_neg haddr]
  | @exec id' c₂ o k r b hc₂ hp hans hb =>
    have hset := hlife.settled id' c₂ hc₂
    rw [Settled,hp] at hset
    obtain ⟨g,heff,_⟩ := Discipline.wp_op hset (answers_ledger hans hguard)
    have hid : id ≠ id' := fun heq => hne (by rw [heq]; rfl)
    have hapart := hlife.apart id' id c₂ c hc₂ hc (show c₂.phase.Alive by rw [hp]; trivial) halive hid
    exact perform_users heff hapart
  | _ => rfl

end Others

section Discipline
variable (allowed : UInt64 → Own → Op → Prop) (idle : UInt64 → Own → Prop)

/-- The task touches its own record only and keeps to the operations that are allowed. -/
def ownDiscipline (id : UInt64) (address : SocketAddr) : Discipline Op Op.Res Own where
  rely := Eq
  answers g
    | .getMut a update,r => a = address → r = g.record.map update
    | .get a,r => a = address → r = g.record
    | .remove a,r => a = address → r = g.record
    | .encode packet,r => packet.encode = some r
    | _,_ => True
  effect g o r g' := o.Local address ∧ allowed id g o ∧ g' = g.after o r
  rely_refl := Eq.refl
  rely_trans := Eq.trans

def ownLaw : Law Own where
  view := Own.view
  discipline := ownDiscipline allowed
  early id _ := idle id
  idle id _ _ := idle id

end Discipline

section Programs
variable {allowed : UInt64 → Own → Op → Prop} {id : UInt64} {address : SocketAddr} {A : Type}
  {post : A → Own → Prop} {g : Own}

/-- The program keeps to what is allowed from these affairs on, and its results satisfy `post`. -/
abbrev Allowed (allowed : UInt64 → Own → Op → Prop) (id : UInt64) (address : SocketAddr)
    (post : A → Own → Prop) (p : HandlerM A) (g : Own) : Prop :=
  (ownDiscipline allowed id address).wp post p g

theorem allowed_ret {a : A} (h : post a g) : Allowed allowed id address post (.ret a) g := by
  intro g' hr
  cases hr
  exact h

/-- An operation with nothing in between. -/
theorem allowed_op {o : Op} {k : o.Res → HandlerM A} (hlocal : o.Local address) (ho : allowed id g o)
    (h : ∀ r, (ownDiscipline allowed id address).answers g o r →
      Allowed allowed id address post (k r) (g.after o r)) :
    Allowed allowed id address post (.op o k) g := by
  intro g' hr r hans
  cases hr
  exact ⟨_,⟨hlocal,ho,rfl⟩,h r hans⟩

theorem allowed_writing {post : Except ServerError Unit → Own → Prop} {data : Bytes}
    {k : HandlerM (Except ServerError Unit)} (ho : allowed id g (.write data))
    (hfailed : post (.error .io) g) (h : Allowed allowed id address post k g) :
    Allowed allowed id address post (writing data k) g := by
  refine allowed_op trivial ho fun written _ => ?_
  cases written with
  | true => exact h
  | false => exact allowed_ret hfailed

theorem allowed_announcing {exclude : Option SocketAddr} {packet : Packet} {k : HandlerM A}
    (hencode : allowed id g (.encode packet))
    (ho : ∀ data, packet.encode = some data → allowed id g (.broadcast ⟨exclude,data⟩))
    (h : Allowed allowed id address post k g) :
    Allowed allowed id address post (announcing exclude packet k) g :=
  allowed_op trivial hencode fun data hdata => allowed_op trivial (ho data hdata) fun _ _ => h

/-- A response that is encoded and written, with nothing behind it. -/
theorem allowed_response {post : Except ServerError Unit → Own → Prop} {response : Packet}
    (hencode : allowed id g (.encode response))
    (ho : ∀ data, response.encode = some data → allowed id g (.write data))
    (h : ∀ result, post result g) :
    Allowed allowed id address post (.op (.encode response) fun data =>
      writing data (.ret (.ok ()))) g :=
  allowed_op trivial hencode fun data hdata =>
    allowed_writing (ho data hdata) (h _) (allowed_ret (h _))

/-- Looking through the users map changes nothing. -/
theorem collectParticipants_allowed (hkeys : allowed id g .keys) (hread : ∀ a, allowed id g (.read a)) :
    Allowed allowed id address (fun _ g' => g' = g) collectParticipants g := by
  refine allowed_op trivial hkeys fun addresses _ => ?_
  change Allowed allowed id address _ (addresses.mapM (fun a => perform (.read a)) >>= _) g
  have hreads := Discipline.wp_mapM (D := ownDiscipline allowed id address)
    (f := fun a => perform (.read a)) (fun _ _ g' => g' = g)
    (fun _ _ g₁ g₂ hr h => by cases hr; exact h)
    (fun a _ _ g' h => by
      cases h
      exact allowed_op trivial (hread a) fun _ _ => allowed_ret rfl)
    addresses [] g rfl
  refine Discipline.wp_bind (Discipline.wp_mono ?_ hreads)
  intro records g₁ h
  exact allowed_ret h

/-- The read branch: the packets that are complete are handled one by one, or the task
takes its leave. -/
theorem handleRead_allowed {idle : UInt64 → Own → Prop} {packetBuffer : Bytes} {r : ReadResult}
    (h : idle id g) (hleave : Allowed allowed id address (fun _ _ => True) (handleDisconnect address) g)
    (hpacket : ∀ bytes packet, r = .ok bytes →
      packet ∈ (Packet.framer.split (packetBuffer ++ bytes)).1 → ∀ g', idle id g' →
        Allowed allowed id address (fun _ => idle id) (handlePacket address packet).run g') :
    (ownLaw allowed idle).Keeps id address (handleRead address packetBuffer r) g := by
  refine handleRead_wp (fun left g' => idle id g' ∧ ∀ packet ∈ left, ∃ bytes, r = .ok bytes ∧
      packet ∈ (Packet.framer.split (packetBuffer ++ bytes)).1) (fun _ _ _ hr h => by cases hr; exact h) ?_
    (fun _ _ _ hr h => by cases hr; exact h) (fun _ _ => hleave)
    (fun byte rest hr => ⟨h,fun packet hq => ⟨byte :: rest,hr,hq⟩⟩) (fun _ _ _ _ h => h.1)
  rintro packet left g' ⟨hidle,hall⟩
  obtain ⟨bytes,hr,hmem⟩ := hall packet List.mem_cons_self
  refine Discipline.wp_mono (fun _ g'' h'' => ?_) (hpacket bytes packet hr hmem g' hidle)
  exact ⟨h'',fun q hq => hall q (List.mem_cons_of_mem packet hq)⟩

/-- The broadcast branch only writes. -/
theorem handleRecv_allowed {idle : UInt64 → Own → Prop} {packetBuffer : Bytes}
    {m : BroadcastMessage} (h : idle id g)
    (hwrite : m.shouldSendTo address = true → allowed id g (.write m.data)) :
    (ownLaw allowed idle).Keeps id address (handleRecv address packetBuffer (.ok m)) g := by
  cases hm : m.shouldSendTo address with
  | true =>
    rw [handleRecv_sent address hm]
    refine allowed_op trivial (hwrite hm) fun written _ => ?_
    cases written with
    | true => exact allowed_ret h
    | false => exact allowed_ret trivial
  | false =>
    rw [handleRecv_filtered address hm]
    exact allowed_ret h

end Programs

section Runs
variable {allowed : UInt64 → Own → Op → Prop} {idle : UInt64 → Own → Prop}
  {guard : ManagementServer → Label → Prop}

/-- A law about the own record is kept when the two branches keep it. -/
theorem ownLaw_kept (hguard : ∀ s label, guard s label → liveApart.guard s label)
    (hstart : ∀ id token, idle id ⟨some ⟨id,none,false,false,token⟩,[]⟩)
    (hread : ∀ {trace s id c b r}, Run (Guarded guard Step) ManagementServer.new trace s →
      guard s (.read id r) → s.connections.lookup id = some c → c.phase = .select b →
      idle id (Own.view trace s id c) →
        (ownLaw allowed idle).Keeps id c.address (handleRead c.address b r) (Own.view trace s id c))
    (hrecv : ∀ {trace s id c b m}, Run (Guarded guard Step) ManagementServer.new trace s →
      guard s (.recv id (.ok m)) → s.connections.lookup id = some c → c.phase = .select b →
      s.broadcasts[c.cursor]? = some m → idle id (Own.view trace s id c) →
        (ownLaw allowed idle).Keeps id c.address (handleRecv c.address b (.ok m))
          (Own.view trace s id c)) :
    (ownLaw allowed idle).Kept guard := by
  have hmono : ∀ {trace s}, Run (Guarded guard Step) ManagementServer.new trace s →
      Run (Guarded liveApart.guard Step) ManagementServer.new trace s :=
    fun hr => hr.mono fun s label s' h => ⟨hguard s label h.1,h.2⟩
  constructor
  · rintro id address g g' rfl h
    exact h
  · rintro id address b g g' rfl h
    exact h
  · intro trace s label s' id c hr hstep hne hc halive
    exact (view_others (hmono hr) ⟨hguard s label hstep.1,hstep.2⟩ hne hc halive).symm
  · intro trace s address token hr _
    have hlife := run_lifecycle (hmono hr)
    have htaken : departed s.nextUserId (trace ++ [.accept address token]) = [] := by
      rw [departed_concat,(hlife.unknown _ hlife.fresh).2.2]
      rfl
    have hrecord : (s.accept address token).users.lookup address = some (s.newUser token) := by
      rw [s.accept_users,if_pos rfl]
    change idle s.nextUserId ⟨_,_⟩
    rw [htaken,hrecord]
    exact hstart s.nextUserId token
  · intro trace s id c hr hc h
    exact view_still (idle id) trace s id c (fun _ => rfl) rfl rfl h
  · intro trace s id c hr hc h
    exact view_still (idle id) trace s id c (fun _ => rfl) rfl rfl h
  · intro trace s id c b r phase hr hg hc hp h
    exact view_still ((ownLaw allowed idle).Keeps id c.address _) trace s id c (fun _ => rfl) rfl rfl
      (hread hr hg hc hp h)
  · intro trace s id c b m phase hr hg hc hp hm h
    exact view_still ((ownLaw allowed idle).Keeps id c.address _) trace s id c (fun _ => rfl) rfl rfl
      (hrecv hr hg hc hp hm h)
  · intro trace s id c b hr hg hc hp hring h
    exact view_still (idle id) trace s id c (fun _ => rfl) rfl rfl h
  · intro trace s id c o r hr hg hc hans
    cases o with
    | getMut a update =>
      rintro rfl
      exact hans
    | get a =>
      rintro rfl
      exact hans
    | remove a =>
      rintro rfl
      exact hans
    | encode packet => exact hans
    | _ => trivial
  · rintro trace s id c o r b phase g hr hg hc hans hb ⟨hlocal,_,rfl⟩
    exact (perform_after hans hlocal rfl).symm

/-- What every operation of a task then is. -/
theorem ownLaw_effect (h : (ownLaw allowed idle).Kept guard) {trace : Trace}
    {s s' : ManagementServer} {id : UInt64} {o : Op} {r : o.Res}
    (hr : Run (Guarded guard Step) ManagementServer.new trace s)
    (hstep : Guarded guard Step s (.exec id o r) s') :
    ∃ c, s.connections.lookup id = some c ∧ allowed id (Own.view trace s id c) o ∧
      ∀ a, a ≠ c.address → s'.users.lookup a = s.users.lookup a := by
  obtain ⟨c,g,hc,_,hlocal,hallowed,_⟩ := h.run_effect hr hstep
  refine ⟨c,hc,hallowed,fun a hne => ?_⟩
  cases hstep.2 with
  | exec => exact perform_local hlocal hne

end Runs

/-! ## Runs of one task -/

/-- An operation that takes nothing away and does not fail. -/
def Op.Calm : (o : Op) → o.Res → Prop
  | .remove _,_ => False
  | .write _,written => written = true
  | _,_ => True

/-- Calm operations of the task are steps of this kind. -/
def Calmly (step : ManagementServer → Label → ManagementServer → Prop) (id : UInt64) : Prop :=
  ∀ {s s' : ManagementServer} {o : Op} {r : o.Res}, Step s (.exec id o r) s' → o.Calm r →
    step s (.exec id o r) s'

section Task
variable {step : ManagementServer → Label → ManagementServer → Prop} {trace : Trace}
  {s₀ s : ManagementServer} {id : UInt64} {c : Connection} (hcalm : Calmly step id)
  (h : Run step s₀ trace (s.setConnection id c))
include hcalm h

/-- The task at hand performs its next operation. -/
theorem run_exec {o : Op} {k : o.Res → HandlerM Outcome} {r : o.Res} {b : Bytes}
    (hp : c.phase = .running o k) (hr : s.Answers o r) (hb : o.Writes r b) (ho : o.Calm r) :
    Run step s₀ (trace ++ [.exec id o r]) ((s.perform o).setConnection id { c with
      phase := .ofProgram (k r), written := c.written ++ b }) :=
  h.snoc (hcalm (step_exec hp hr hb) ho)

/-- An operation that writes nothing. -/
theorem run_silent {o : Op} {k : o.Res → HandlerM Outcome} {r : o.Res} (hp : c.phase = .running o k)
    (hr : s.Answers o r) (hb : o.Writes r []) (ho : o.Calm r) :
    Run step s₀ (trace ++ [.exec id o r])
      ((s.perform o).setConnection id { c with phase := .ofProgram (k r) }) := by
  have hnext := run_exec hcalm h hp hr hb ho
  rw [List.append_nil] at hnext
  exact hnext

/-- The task at hand reads these records one after the other. -/
theorem run_reads {addresses : List SocketAddr} {k : List (Option User) → HandlerM Outcome}
    (hp : c.phase = .ofProgram (addresses.mapM (fun a => perform (.read a)) >>= k)) :
    Run step s₀ (trace ++ addresses.map fun a => .exec id (.read a) (s.users.lookup a))
      (s.setConnection id { c with
        phase := .ofProgram (k (addresses.map fun a => s.users.lookup a)) }) := by
  induction addresses generalizing trace c k with
  | nil =>
    rw [List.mapM_nil,pure_bind] at hp
    rw [List.map_nil,List.map_nil,List.append_nil,← hp]
    exact h
  | cons a rest ih =>
    rw [List.mapM_cons,bind_assoc] at hp
    have hread := run_silent hcalm h (o := .read a) (r := s.users.lookup a) hp rfl rfl trivial
    have hrest := ih hread (k := fun records => k (s.users.lookup a :: records))
      (congrArg Phase.ofProgram (bind_assoc _ _ _))
    rw [List.append_assoc] at hrest
    exact hrest

/-- The task at hand carries out a login up to its announcement. -/
theorem run_login_announcing {u : User} {data response joined : Bytes} (requestId : UInt64) (username : String)
    (addresses : List SocketAddr) (hp : c.phase = .select [])
    (hdata : (Packet.loginRequest requestId username).encode = some data)
    (hlen : data.length ≤ packetBufferSize) (hv : validUsername username = true)
    (hu : s.users.lookup c.address = some u) {users : Table SocketAddr User}
    (husers : users = s.users.modify c.address fun user => { user with username := some username })
    (hnodup : addresses.Nodup) (hkeys : ∀ a u, users.lookup a = some u → a ∈ addresses)
    (hresponse : (Packet.loginResponse requestId u.id u.token
      ((addresses.map fun a => users.lookup a).filterMap fun r => r.bind User.participant)).encode =
        some response)
    (hjoined : (Packet.userJoinedServer ⟨u.id,username,false,false⟩).encode = some joined)
    (hread : ∀ {s'}, Step (s.setConnection id c) (.read id (.ok data)) s' →
      step (s.setConnection id c) (.read id (.ok data)) s') :
    Run step s₀ (trace ++ [.read id (.ok data),.exec id (.getMut c.address fun user => { user with
          username := some username }) (some { u with username := some username }),
          .exec id .keys addresses] ++
        (addresses.map fun a => .exec id (.read a) (users.lookup a)) ++
        [.exec id (.encode (.loginResponse requestId u.id u.token
          ((addresses.map fun a => users.lookup a).filterMap fun r => r.bind User.participant))) response,
          .exec id (.write response) true,
          .exec id (.encode (.userJoinedServer ⟨u.id,username,false,false⟩)) joined])
      (ManagementServer.setConnection { s with users := users } id { c with
        phase := .running (.broadcast ⟨some c.address,joined⟩) fun _ => .ret (.proceed [])
        received := c.received ++ data
        written := c.written ++ response }) := by
  subst husers
  have hrecord : s.Answers (.getMut c.address fun user => { user with username := some username })
      (some { u with username := some username }) := by
    change _ = (s.users.lookup c.address).map _
    rw [hu]
    rfl
  have h₁ := h.snoc (hread (step_read (r := .ok data) hp hlen))
  rw [handleRead_login c.address hdata hv] at h₁
  have h₂ := run_silent hcalm h₁ rfl hrecord rfl trivial
  have h₃ := run_silent hcalm h₂ (o := .keys) rfl ⟨hnodup,hkeys⟩ rfl trivial
  have h₄ := run_reads hcalm h₃ rfl
  have h₅ := run_silent hcalm h₄ (o := .encode _) rfl hresponse rfl trivial
  have h₆ := run_exec hcalm h₅ (o := .write response) (r := true) rfl trivial rfl rfl
  have h₇ := run_silent hcalm h₆ (o := .encode _) rfl hjoined rfl trivial
  simp only [List.append_assoc,List.cons_append,List.nil_append] at h₇ ⊢
  exact h₇

/-- The task at hand carries out a login. -/
theorem run_login {u : User} {data response joined : Bytes} (requestId : UInt64) (username : String)
    (addresses : List SocketAddr) (hp : c.phase = .select [])
    (hdata : (Packet.loginRequest requestId username).encode = some data)
    (hlen : data.length ≤ packetBufferSize) (hv : validUsername username = true)
    (hu : s.users.lookup c.address = some u) {users : Table SocketAddr User}
    (husers : users = s.users.modify c.address fun user => { user with username := some username })
    (hnodup : addresses.Nodup) (hkeys : ∀ a u, users.lookup a = some u → a ∈ addresses)
    (hresponse : (Packet.loginResponse requestId u.id u.token
      ((addresses.map fun a => users.lookup a).filterMap fun r => r.bind User.participant)).encode =
        some response)
    (hjoined : (Packet.userJoinedServer ⟨u.id,username,false,false⟩).encode = some joined)
    (hread : ∀ {s'}, Step (s.setConnection id c) (.read id (.ok data)) s' →
      step (s.setConnection id c) (.read id (.ok data)) s') :
    Run step s₀ (trace ++ [.read id (.ok data),.exec id (.getMut c.address fun user => { user with
          username := some username }) (some { u with username := some username }),
          .exec id .keys addresses] ++
        (addresses.map fun a => .exec id (.read a) (users.lookup a)) ++
        [.exec id (.encode (.loginResponse requestId u.id u.token
          ((addresses.map fun a => users.lookup a).filterMap fun r => r.bind User.participant))) response,
          .exec id (.write response) true,
          .exec id (.encode (.userJoinedServer ⟨u.id,username,false,false⟩)) joined,
          .exec id (.broadcast ⟨some c.address,joined⟩) ()])
      (ManagementServer.setConnection
        { s with users := users, broadcasts := s.broadcasts ++ [⟨some c.address,joined⟩] } id
        { c with phase := .select [], received := c.received ++ data, written := c.written ++ response }) := by
  have hannouncing := run_login_announcing hcalm h requestId username addresses hp hdata hlen hv hu
    husers hnodup hkeys hresponse hjoined hread
  have hdone := run_silent hcalm hannouncing (o := .broadcast ⟨some c.address,joined⟩) (r := ()) rfl trivial
    rfl trivial
  simp only [List.append_assoc,List.cons_append,List.nil_append] at hdone ⊢
  exact hdone

end Task

/-! ## A user alone -/

/-- Everything but the connection of user 1, who has just subscribed. -/
def solo : ManagementServer :=
  (((ManagementServer.new.accept (.v4 1 1) 11).setConnection 1
    ⟨⟨1,none,false,false,11⟩,.v4 1 1,.connected,0,[],[]⟩).sendEvent (.userConnected 1 11))

/-- The connection of user 1. -/
def soloist : Connection := ⟨⟨1,none,false,false,11⟩,.v4 1 1,.select [],0,[],[]⟩

section Solo
variable {guard : ManagementServer → Label → Prop}

theorem guarded_exec (hguard : ∀ s label, liveApart.guard s label → (∀ id r, label ≠ .read id r) →
      (∀ id r, label ≠ .recv id r) → guard s label)
    {s s' : ManagementServer} {id : UInt64} {o : Op} {r : o.Res} (h : Step s (.exec id o r) s') :
    Guarded guard Step s (.exec id o r) s' :=
  ⟨hguard _ _ (liveApart_guard (by simp)) (by simp) (by simp),h⟩

/-- User 1 connects if the three steps are allowed. -/
theorem run_solo_steps (haccept : guard .new (.accept (.v4 1 1) 11))
    (hconnect : guard (ManagementServer.new.accept (.v4 1 1) 11) (.connect 1))
    (hsubscribe : guard solo (.subscribe 1)) : Run (Guarded guard Step) ManagementServer.new
      [.accept (.v4 1 1) 11,.connect 1,.subscribe 1] (solo.setConnection 1 soloist) := by
  have h₁ : Guarded guard Step .new (.accept (.v4 1 1) 11) (ManagementServer.new.accept (.v4 1 1) 11) :=
    ⟨haccept,.accept (by decide)⟩
  have h₂ : Guarded guard Step (ManagementServer.new.accept (.v4 1 1) 11) (.connect 1) solo :=
    ⟨hconnect,.connect (c := ⟨⟨1,none,false,false,11⟩,.v4 1 1,.spawned,0,[],[]⟩) rfl rfl⟩
  have h₃ : Guarded guard Step solo (.subscribe 1) (solo.setConnection 1 soloist) :=
    ⟨hsubscribe,.subscribe (c := ⟨⟨1,none,false,false,11⟩,.v4 1 1,.connected,0,[],[]⟩) rfl rfl⟩
  exact .snoc (.snoc (.snoc .refl h₁) h₂) h₃

theorem run_solo (hguard : ∀ s label, liveApart.guard s label → (∀ id r, label ≠ .read id r) →
      (∀ id r, label ≠ .recv id r) → guard s label) :
    Run (Guarded guard Step) ManagementServer.new
      [.accept (.v4 1 1) 11,.connect 1,.subscribe 1] (solo.setConnection 1 soloist) := by
  refine run_solo_steps (hguard _ _ ?_ (by simp) (by simp)) (hguard _ _ trivial (by simp) (by simp))
    (hguard _ _ trivial (by simp) (by simp))
  intro id c hc
  simp [ManagementServer.new] at hc

end Solo
end VoiceApp.Management
