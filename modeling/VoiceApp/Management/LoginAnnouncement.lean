import VoiceApp.Management.Admission
import VoiceApp.Management.LoginResponse

/-! # The announcement of a login

A login speaks of the caller three times: the record, the entry in the response, and the
participant that is announced. The announced one is made up anew, out of voice and not
muted, so it is true as long as the record says the same.
-/
namespace VoiceApp.Management
open Protocol Server

/-- The participants of a login response that has been written. -/
def listedIn (data : Bytes) : Option (List ParticipantInfo) :=
  match packetOf data with
  | some (.loginResponse _ _ _ participants) => some participants
  | _ => none

def Label.listed (id : UInt64) : Label → Option (List ParticipantInfo)
  | .exec id' (.write data) true => if id' = id then listedIn data else none
  | _ => none

/-- The participants of the last login response that the task `id` wrote. -/
def lastListed (id : UInt64) (trace : Trace) : Option (List ParticipantInfo) :=
  (trace.filterMap (Label.listed id)).getLast?

theorem lastListed_snoc (id : UInt64) (trace : Trace) (label : Label) :
    lastListed id (trace ++ [label]) = (label.listed id).or (lastListed id trace) := by
  unfold lastListed
  rw [List.filterMap_append]
  cases h : label.listed id <;> simp [h]

/-- A step of another task writes nothing for this one. -/
theorem listed_other {id : UInt64} {label : Label} (h : label.actor ≠ some id) : label.listed id = none := by
  cases label with
  | exec id' o r =>
    cases o with
    | write data =>
      cases r with
      | true => exact if_neg fun heq => h (by rw [← heq]; rfl)
      | false => rfl
    | _ => rfl
  | _ => rfl

/-- The user has one entry in this list, the one that its record makes. -/
def ListsOwn (u : User) (participants : List ParticipantInfo) : Prop :=
  ∃ p, u.participant = some p ∧ p ∈ participants ∧ ∀ q ∈ participants, q.userId = u.id → q = p

/-- The announced participant is that of the record, and that of the response. -/
structure Truthful (u : User) (participants : List ParticipantInfo) (announced : ParticipantInfo) : Prop where
  record : u.participant = some announced
  response : announced ∈ participants ∧ ∀ q ∈ participants, q.userId = u.id → q = announced

theorem truthful_iff {u : User} {username : String} {participants : List ParticipantInfo}
    (hname : u.username = some username) (h : ListsOwn u participants) :
    Truthful u participants ⟨u.id,username,false,false⟩ ↔ u.inVoice = false ∧ u.isMuted = false := by
  have hown : u.participant = some ⟨u.id,username,u.inVoice,u.isMuted⟩ := by
    rw [User.participant,hname]
    rfl
  obtain ⟨p,hp,hmem,honly⟩ := h
  cases hown.symm.trans hp
  constructor
  · intro htruthful
    have hsame := hown.symm.trans htruthful.record
    simpa using hsame
  · rintro ⟨hvoice,hmuted⟩
    rw [hvoice,hmuted] at hown hmem honly
    exact ⟨hown,hmem,honly⟩

/-- Of these records the user's own makes its entry, and no other has its id. -/
theorem listsOwn_records {u : User} {username : String} {records : List (Option User)}
    (hname : u.username = some username) (hown : some u ∈ records)
    (honly : ∀ v, some v ∈ records → v.id = u.id → v = u) :
    ListsOwn u (records.filterMap fun r => r.bind User.participant) := by
  have hentry : u.participant = some ⟨u.id,username,u.inVoice,u.isMuted⟩ := by
    rw [User.participant,hname]
    rfl
  refine ⟨_,hentry,List.mem_filterMap.mpr ⟨some u,hown,hentry⟩,?_⟩
  intro q hq hid
  obtain ⟨record,hrecord,hbind⟩ := List.mem_filterMap.mp hq
  obtain ⟨v,rfl,hv⟩ := Option.bind_eq_some_iff.mp hbind
  have hvid : v.id = q.userId := by
    obtain ⟨name,_,rfl⟩ := Option.map_eq_some_iff.mp hv
    rfl
  rw [honly v hrecord (hvid.trans hid)] at hv
  exact Option.some.inj (hv.symm.trans hentry)

/-! ## The law -/

/-- The record of a task, and what its last login response listed. -/
structure Telling where
  own : Own
  listed : Option (List ParticipantInfo)

namespace Telling

def view (trace : Trace) (s : ManagementServer) (id : UInt64) (c : Connection) : Telling :=
  ⟨Own.view trace s id c,lastListed id trace⟩

def after (id : UInt64) (g : Telling) (o : Op) (r : o.Res) : Telling :=
  ⟨g.own.after o r,(Label.listed id (.exec id o r)).or g.listed⟩

/-- The record is there, under the id of the connection. -/
def Recorded (id : UInt64) (g : Telling) : Prop := ∃ u, g.own.record = some u ∧ u.id = id

/-- The participant carries the name of the record, and the response has listed the record. -/
def Introduces (g : Telling) (announced : ParticipantInfo) : Prop :=
  ∃ u username participants, g.own.record = some u ∧ u.username = some username ∧
    announced = ⟨u.id,username,false,false⟩ ∧ g.listed = some participants ∧ ListsOwn u participants

/-- A user is announced after the response that lists it. -/
def Tells (g : Telling) : Op → Prop
  | .broadcast m => ∀ announced, packetOf m.data = some (.userJoinedServer announced) →
      g.Introduces announced
  | _ => True

end Telling

def tellingDiscipline (id : UInt64) (address : SocketAddr) : Discipline Op Op.Res Telling where
  rely := Eq
  answers g
    | .getMut a update,r => a = address → r = g.own.record.map update
    | .get a,r => a = address → r = g.own.record
    | .keys,addresses => ∀ u, g.own.record = some u → address ∈ addresses
    | .read a,r => (a = address → r = g.own.record) ∧ ∀ v, r = some v → v.id = id → a = address
    | .encode packet,r => packet.encode = some r
    | _,_ => True
  effect g o r g' := o.Local address ∧ g.Tells o ∧ g' = g.after id o r
  rely_refl := Eq.refl
  rely_trans := Eq.trans

def tellingLaw : Law Telling where
  view := Telling.view
  discipline := tellingDiscipline
  early id _ := Telling.Recorded id
  idle id _ _ := Telling.Recorded id

/-! ## The programs -/

section Programs
variable {id : UInt64} {address : SocketAddr} {A : Type} {post : A → Telling → Prop} {g : Telling}

abbrev Speaks (id : UInt64) (address : SocketAddr) (post : A → Telling → Prop) (p : HandlerM A)
    (g : Telling) : Prop :=
  (tellingDiscipline id address).wp post p g

theorem speaks_ret {a : A} (h : post a g) : Speaks id address post (.ret a) g := by
  rintro g' rfl
  exact h

theorem speaks_op {o : Op} {k : o.Res → HandlerM A} (hlocal : o.Local address) (htells : g.Tells o)
    (h : ∀ r, (tellingDiscipline id address).answers g o r → Speaks id address post (k r) (g.after id o r)) :
    Speaks id address post (.op o k) g := by
  rintro g' rfl r hans
  exact ⟨_,⟨hlocal,htells,rfl⟩,h r hans⟩

theorem speaks_writing {post : Except ServerError Unit → Telling → Prop} {data : Bytes}
    {k : HandlerM (Except ServerError Unit)} (hfailed : post (.error .io) g)
    (h : Speaks id address post k ⟨g.own,(listedIn data).or g.listed⟩) :
    Speaks id address post (writing data k) g := by
  refine speaks_op trivial trivial fun written _ => ?_
  cases written with
  | true =>
    have hlisted : Label.listed id (.exec id (.write data) true) = listedIn data := if_pos rfl
    rw [Telling.after,hlisted]
    exact h
  | false => exact speaks_ret hfailed

theorem speaks_announcing {exclude : Option SocketAddr} {packet : Packet} {k : HandlerM A}
    (hintroduces : ∀ announced, packet = .userJoinedServer announced → g.Introduces announced)
    (h : Speaks id address post k g) : Speaks id address post (announcing exclude packet k) g := by
  refine speaks_op trivial trivial fun data hdata => speaks_op trivial ?_ fun _ _ => h
  intro announced hannounced
  rw [packetOf_encode hdata] at hannounced
  exact hintroduces announced (Option.some.inj hannounced)

/-- A response that is encoded and written, with nothing behind it. -/
theorem speaks_response (h : g.Recorded id) (response : Packet) :
    Speaks id address (fun _ => Telling.Recorded id) (.op (.encode response) fun data =>
      writing data (.ret (.ok ()))) g :=
  speaks_op trivial trivial fun _ _ => speaks_writing h (speaks_ret h)

/-- The entries are collected while the record stays as it is. -/
theorem collectParticipants_speaks {u : User} {username : String} (hown : g.own.record = some u)
    (hid : u.id = id) (hname : u.username = some username) :
    Speaks id address (fun participants g' => g' = g ∧ ListsOwn u participants) collectParticipants g := by
  refine speaks_op trivial trivial fun addresses hkeys => ?_
  change Speaks id address _ (addresses.mapM (fun a => perform (.read a)) >>= _) g
  have hreads := Discipline.wp_mapM (D := tellingDiscipline id address) (f := fun a => perform (.read a))
    (fun rest records g' => g' = g ∧ (address ∈ rest ∨ some u ∈ records) ∧
      ∀ v, some v ∈ records → v.id = u.id → v = u)
    (fun _ _ g₁ g₂ hr h => by cases hr; exact h)
    (fun a rest records g' h => by
      obtain ⟨rfl,hleft,honly⟩ := h
      refine speaks_op trivial trivial fun record hread => speaks_ret ⟨rfl,?_,?_⟩
      · rcases hleft with hleft | hleft
        · rcases List.mem_cons.mp hleft with rfl | hleft
          · right
            rw [hread.1 rfl,hown]
            exact List.mem_append_right _ (List.mem_singleton_self _)
          · exact .inl hleft
        · exact .inr (List.mem_append_left _ hleft)
      · intro v hv hvid
        rcases List.mem_append.mp hv with hv | hv
        · exact honly v hv hvid
        · have hrecord := List.mem_singleton.mp hv
          have ha := hread.2 v hrecord.symm (hvid.trans hid)
          rw [hread.1 ha,hown] at hrecord
          exact Option.some.inj hrecord)
    addresses [] g ⟨rfl,.inl (hkeys u hown),fun v hv => by cases hv⟩
  refine Discipline.wp_bind (Discipline.wp_mono ?_ hreads)
  rintro records g' ⟨rfl,hleft,honly⟩
  refine speaks_ret ⟨rfl,listsOwn_records hname ?_ honly⟩
  simpa using hleft

theorem handleLoginRequest_speaks (h : g.Recorded id) (requestId : UInt64) (username : String) :
    Speaks id address (fun _ => Telling.Recorded id) (handleLoginRequest address requestId username).run g := by
  cases hv : validUsername username with
  | false =>
    rw [handleLoginRequest_run_invalid address hv]
    exact speaks_response h _
  | true =>
    obtain ⟨u,hown,hid⟩ := h
    rw [handleLoginRequest_run_valid address hv]
    refine speaks_op ⟨rfl,fun _ => rfl⟩ trivial fun record hrecord => ?_
    obtain rfl : record = some { u with username := some username } := by
      rw [hrecord rfl,hown]
      rfl
    refine Discipline.wp_bind (Discipline.wp_mono ?_ (collectParticipants_speaks rfl hid rfl))
    rintro participants g' ⟨rfl,hlists⟩
    refine speaks_op trivial trivial fun data hdata => ?_
    refine speaks_writing ⟨_,rfl,hid⟩ (speaks_announcing ?_ (speaks_ret ⟨_,rfl,hid⟩))
    rintro announced ⟨⟩
    refine ⟨_,username,participants,rfl,rfl,rfl,?_,hlists⟩
    rw [listedIn,packetOf_encode hdata]
    rfl

theorem changeVoice_speaks (h : g.Recorded id) {inVoice : Bool} {response : Packet}
    {event : UInt64 → Event} {announcement : UInt64 → Packet}
    (hquiet : ∀ userId announced, announcement userId ≠ .userJoinedServer announced) :
    Speaks id address (fun _ => Telling.Recorded id)
      (changeVoice address inVoice response event announcement).run g := by
  obtain ⟨u,hown,hid⟩ := h
  rw [changeVoice_run]
  refine speaks_op ⟨rfl,fun _ => rfl⟩ trivial fun record hrecord => ?_
  obtain rfl : record = some { u with inVoice := inVoice, isMuted := false } := by
    rw [hrecord rfl,hown]
    rfl
  refine speaks_op trivial trivial fun data _ => speaks_writing ⟨_,rfl,hid⟩ ?_
  refine speaks_op trivial trivial fun _ _ => speaks_announcing ?_ (speaks_ret ⟨_,rfl,hid⟩)
  exact fun announced heq => (hquiet u.id announced heq).elim

theorem handleChatMessageRequest_speaks (h : g.Recorded id) (requestId : UInt64) (message : String) :
    Speaks id address (fun _ => Telling.Recorded id)
      (handleChatMessageRequest address requestId message).run g := by
  rw [handleChatMessageRequest_run]
  refine speaks_op trivial trivial fun record _ => ?_
  cases record with
  | none => exact speaks_ret h
  | some u =>
    refine speaks_op trivial trivial fun data _ => speaks_writing h ?_
    refine speaks_op trivial trivial fun timestamp _ => speaks_announcing ?_ (speaks_ret h)
    rintro announced ⟨⟩

theorem handleUserMuteState_speaks (h : g.Recorded id) (userId : UInt64) (isMuted : Bool) :
    Speaks id address (fun _ => Telling.Recorded id) (handleUserMuteState address userId isMuted).run g := by
  obtain ⟨u,hown,hid⟩ := h
  rw [handleUserMuteState_run]
  refine speaks_op ⟨rfl,fun _ => rfl⟩ trivial fun record hrecord => ?_
  obtain rfl : record = some { u with isMuted := isMuted } := by
    rw [hrecord rfl,hown]
    rfl
  refine speaks_announcing ?_ (speaks_ret ⟨_,rfl,hid⟩)
  rintro announced ⟨⟩

theorem handlePacket_speaks (h : g.Recorded id) (packet : Packet) :
    Speaks id address (fun _ => Telling.Recorded id) (handlePacket address packet).run g := by
  cases packet with
  | loginRequest requestId username => exact handleLoginRequest_speaks h requestId username
  | joinVoiceChannelRequest requestId => exact changeVoice_speaks h (by simp)
  | leaveVoiceChannelRequest requestId => exact changeVoice_speaks h (by simp)
  | chatMessageRequest requestId message => exact handleChatMessageRequest_speaks h requestId message
  | pingRequest requestId =>
    rw [handlePacket,handlePingRequest_run]
    exact speaks_response h _
  | userMuteState userId isMuted => exact handleUserMuteState_speaks h userId isMuted
  | _ => exact speaks_ret h

theorem handleDisconnect_speaks : Speaks id address (fun _ _ => True) (handleDisconnect address) g := by
  rw [handleDisconnect_eq]
  refine speaks_op rfl trivial fun record _ => ?_
  cases record with
  | none => exact speaks_ret trivial
  | some u =>
    refine speaks_announcing (by simp) ?_
    split
    · exact speaks_announcing (by simp) (speaks_ret trivial)
    · exact speaks_ret trivial

theorem handleRead_speaks (h : g.Recorded id) (packetBuffer : Bytes) (r : ReadResult) :
    tellingLaw.Keeps id address (handleRead address packetBuffer r) g := by
  exact handleRead_wp (fun _ => Telling.Recorded id) (fun _ _ _ hr h => by cases hr; exact h)
    (fun packet _ _ h => handlePacket_speaks h packet) (fun _ _ _ hr h => by cases hr; exact h)
    (fun _ _ => handleDisconnect_speaks) (fun _ _ _ => h) (fun _ _ _ _ h => h)

theorem handleRecv_speaks (h : g.Recorded id) (packetBuffer : Bytes) (m : BroadcastMessage) :
    tellingLaw.Keeps id address (handleRecv address packetBuffer (.ok m)) g := by
  cases hm : m.shouldSendTo address with
  | true =>
    rw [handleRecv_sent address hm]
    refine speaks_op trivial trivial fun written _ => ?_
    cases written with
    | true => exact speaks_ret h
    | false => exact speaks_ret trivial
  | false =>
    rw [handleRecv_filtered address hm]
    exact speaks_ret h

end Programs

/-! ## Every run -/

/-- A step of its own that leaves the record alone and writes nothing. -/
theorem telling_stays (trace : Trace) (s : ManagementServer) (id : UInt64) (c : Connection)
    {s₁ : ManagementServer} {c' : Connection} {label : Label} (hremoved : ∀ id, label.removed id = none)
    (hlisted : label.listed id = none) (husers : s₁.users = s.users) (haddr : c'.address = c.address) :
    Telling.view (trace ++ [label]) s₁ id c' = Telling.view trace s id c := by
  rw [Telling.view,Telling.view,view_stays trace s id c hremoved husers haddr,lastListed_snoc,hlisted,
    Option.none_or]

/-- What holds of a view still holds after such a step. -/
theorem telling_still (Q : Telling → Prop) (trace : Trace) (s : ManagementServer) (id : UInt64)
    (c : Connection) {s₁ : ManagementServer} {c' : Connection} {label : Label}
    (hremoved : ∀ id, label.removed id = none) (hlisted : label.listed id = none)
    (husers : s₁.users = s.users) (haddr : c'.address = c.address) (h : Q (Telling.view trace s id c)) :
    Q (Telling.view (trace ++ [label]) s₁ id c') := by
  rw [telling_stays trace s id c hremoved hlisted husers haddr]
  exact h

/-- Every task keeps the law while no address is used twice. -/
theorem tellingLaw_kept : tellingLaw.Kept liveApart.guard := by
  constructor
  · rintro id address g g' rfl h
    exact h
  · rintro id address b g g' rfl h
    exact h
  · intro trace s label s' id c hr hstep hne hc halive
    change Telling.view _ _ _ _ = Telling.view _ _ _ _
    rw [Telling.view,Telling.view,view_others hr hstep hne hc halive,lastListed_snoc,listed_other hne,
      Option.none_or]
  · intro trace s address token _ _
    exact ⟨s.newUser token,(s.accept_users address token address).trans (if_pos rfl),rfl⟩
  · intro trace s id c _ _ h
    exact telling_still (Telling.Recorded id) trace s id c (fun _ => rfl) rfl rfl rfl h
  · intro trace s id c _ _ h
    exact telling_still (Telling.Recorded id) trace s id c (fun _ => rfl) rfl rfl rfl h
  · intro trace s id c b r phase _ _ _ _ h
    exact telling_still (tellingLaw.Keeps id c.address _) trace s id c (fun _ => rfl) rfl rfl rfl
      (handleRead_speaks h b r)
  · intro trace s id c b m phase _ _ _ _ _ h
    exact telling_still (tellingLaw.Keeps id c.address _) trace s id c (fun _ => rfl) rfl rfl rfl
      (handleRecv_speaks h b m)
  · intro trace s id c b _ _ _ _ _ h
    exact telling_still (Telling.Recorded id) trace s id c (fun _ => rfl) rfl rfl rfl h
  · intro trace s id c o r hr _ hc hans
    cases o with
    | getMut a update =>
      rintro rfl
      exact hans
    | get a =>
      rintro rfl
      exact hans
    | keys => exact fun u hu => hans.2 c.address u hu
    | read a =>
      refine ⟨?_,fun v hv hid => ?_⟩
      · rintro rfl
        exact hans
      · -- the record belongs to the connection with its id, which is this one
        have hread : s.users.lookup a = some v := Eq.trans (Eq.symm hans) hv
        obtain ⟨c',hc',ha⟩ := run_owner (hr.mono fun _ _ _ h => h.2) a v hread
        rw [hid,hc] at hc'
        cases hc'
        exact ha.symm
    | encode packet => exact hans
    | _ => trivial
  · rintro trace s id c o r b phase g _ _ _ hans _ ⟨hlocal,_,rfl⟩
    exact congrArg₂ Telling.mk (perform_after hans hlocal rfl).symm (lastListed_snoc id trace _).symm

/-- When a user is announced, its last response has listed it as its record is. -/
theorem run_introduces {trace : Trace} {s s' : ManagementServer} {id : UInt64} {m : BroadcastMessage}
    {announced : ParticipantInfo} (hr : Run (Guarded liveApart.guard Step) ManagementServer.new trace s)
    (hstep : Guarded liveApart.guard Step s (.exec id (.broadcast m) ()) s')
    (hm : packetOf m.data = some (.userJoinedServer announced)) :
    ∃ c u username participants, s.connections.lookup id = some c ∧
      s.users.lookup c.address = some u ∧ u.username = some username ∧
      announced = ⟨u.id,username,false,false⟩ ∧ lastListed id trace = some participants ∧
      ListsOwn u participants := by
  obtain ⟨c,_,hc,_,_,htells,_⟩ := tellingLaw_kept.run_effect hr hstep
  obtain ⟨u,username,participants,hu,hname,hannounced,hlisted,hlists⟩ := htells announced hm
  exact ⟨c,u,username,participants,hc,hu,hname,hannounced,hlisted,hlists⟩

/-- Run by itself, the login handler lists the record as it is. -/
theorem alone_login_lists {trace : Trace} {s s' : ManagementServer} {address : SocketAddr}
    {requestId : UInt64} {username : String} {data : Bytes} {k : Bool → HandlerM (Except ServerError Unit)}
    (hr : Run Step ManagementServer.new trace s) (hv : validUsername username = true)
    (h : Alone s (handleLoginRequest address requestId username).run s' (.op (.write data) k)) :
    ∃ u participants, s.users.lookup address = some u ∧ listedIn data = some participants ∧
      ListsOwn { u with username := some username } participants := by
  obtain ⟨u,addresses,hu,_,hkeys,hdata⟩ := alone_login_writes hv h
  have hrenamed : (rename s.users address username).lookup address =
      some { u with username := some username } := by
    rw [rename,Table.lookup_modify,if_pos rfl,hu]
    rfl
  refine ⟨u,_,hu,by rw [listedIn,packetOf_encode hdata],?_⟩
  rw [← collected_eq]
  refine listsOwn_records rfl ?_ ?_
  · exact List.mem_map.mpr ⟨address,hkeys address _ hrenamed,hrenamed⟩
  · intro v hv hid
    obtain ⟨a,_,ha⟩ := List.mem_map.mp hv
    obtain ⟨v',hv',hvid⟩ := ManagementServer.perform_ids (s := s) (o := .getMut address fun user =>
      { user with username := some username }) (fun _ _ heq _ => by cases heq; rfl) ha
    obtain ⟨c,hc,hca⟩ := run_owner hr a v' hv'
    obtain ⟨c',hc',hca'⟩ := run_owner hr address u hu
    rw [hvid,hid,hc'] at hc
    cases hc
    rw [← hca,hca',hrenamed] at ha
    exact (Option.some.inj ha).symm

/-- What a login announces is true of the record and of the response, exactly if the record
is out of voice and not muted: for the handler by itself in every state that can be reached,
and for every announcement in a run in which no address is accepted again before its task
has ended. -/
theorem login_announced_truthfully_iff {trace : Trace} {s : ManagementServer}
    (hr : Run Step ManagementServer.new trace s) :
    (∀ {t s' : ManagementServer} {address : SocketAddr} {requestId : UInt64} {username : String}
      {data : Bytes} {m : BroadcastMessage} {k : Bool → HandlerM (Except ServerError Unit)}
      {l : Unit → HandlerM (Except ServerError Unit)}, validUsername username = true →
      Alone s (handleLoginRequest address requestId username).run t (.op (.write data) k) →
      Alone t (.op (.write data) k) s' (.op (.broadcast m) l) →
        ∃ u record participants announced, s.users.lookup address = some u ∧
          s'.users.lookup address = some record ∧ listedIn data = some participants ∧
          packetOf m.data = some (.userJoinedServer announced) ∧
          (Truthful record participants announced ↔ u.inVoice = false ∧ u.isMuted = false)) ∧
    ∀ {s' : ManagementServer} {id : UInt64} {m : BroadcastMessage} {announced : ParticipantInfo},
      Run (Guarded liveApart.guard Step) ManagementServer.new trace s →
      Guarded liveApart.guard Step s (.exec id (.broadcast m) ()) s' →
      packetOf m.data = some (.userJoinedServer announced) →
        ∃ c record participants, s.connections.lookup id = some c ∧
          s.users.lookup c.address = some record ∧ lastListed id trace = some participants ∧
          (Truthful record participants announced ↔ record.inVoice = false ∧ record.isMuted = false) := by
  constructor
  · intro t s' address requestId username data m k l hv hwrite hbroadcast
    obtain ⟨u,participants,hu,hlisted,hlists⟩ := alone_login_lists hr hv hwrite
    obtain ⟨u',hu',hm,husers⟩ := alone_login_announces hv (hwrite.trans hbroadcast)
    cases hu.symm.trans hu'
    refine ⟨u,{ u with username := some username },participants,_,hu,?_,hlisted,packetOf_encode hm,
      truthful_iff rfl hlists⟩
    rw [husers,rename,Table.lookup_modify,if_pos rfl,hu]
    rfl
  · intro s' id m announced hapart hstep hm
    obtain ⟨c,u,username,participants,hc,hu,hname,rfl,hlisted,hlists⟩ := run_introduces hapart hstep hm
    exact ⟨c,u,participants,hc,hu,hlisted,truthful_iff hname hlists⟩

/-! ## One user -/

/-- A name changes nothing about where the records are. -/
theorem rename_only {users : Table SocketAddr User} {address : SocketAddr} {username : String}
    (h : ∀ a u, users.lookup a = some u → a = address) (a : SocketAddr) (u : User)
    (ha : (rename users address username).lookup a = some u) : a ∈ [address] := by
  rw [rename,Table.lookup_modify] at ha
  split at ha
  · rename_i heq
    exact List.mem_singleton.mpr heq
  · exact List.mem_singleton.mpr (h a u ha)

section One
variable {trace : Trace} {s : ManagementServer} {c : Connection} {isMuted : Bool}

/-- User 1, who is alone, logs in as Bob and is about to be announced. -/
theorem run_announcing (h : Run (Guarded liveApart.guard Step) ManagementServer.new trace
      (s.setConnection 1 c)) (hp : c.phase = .select []) (haddr : c.address = .v4 1 1)
    (hu : s.users.lookup (.v4 1 1) = some ⟨1,none,false,isMuted,11⟩)
    (hkeys : ∀ a u, s.users.lookup a = some u → a = .v4 1 1) :
    ∃ trace' s' s'' c' joined, Run (Guarded liveApart.guard Step) ManagementServer.new trace' s' ∧
      Guarded liveApart.guard Step s' (.exec 1 (.broadcast ⟨some (.v4 1 1),joined⟩) ()) s'' ∧
      packetOf joined = some (.userJoinedServer ⟨1,"bob",false,false⟩) ∧
      s'.connections.lookup 1 = some c' ∧
      s'.users.lookup c'.address = some ⟨1,some "bob",false,isMuted,11⟩ := by
  have hlogin : (Packet.loginRequest 7 "bob").encode =
      some [1,0,13,0,0,0,0,0,0,0,7,0,3,98,111,98] := by decide
  obtain ⟨response,hresponse⟩ :=
    (Packet.encode_isSome_iff (.loginResponse 7 1 11 [⟨1,"bob",false,isMuted⟩])).mpr (by
      cases isMuted <;> decide)
  obtain ⟨joined,hjoined⟩ :=
    (Packet.encode_isSome_iff (.userJoinedServer ⟨1,"bob",false,false⟩)).mpr (by decide)
  have hrenamed : (rename s.users (.v4 1 1) "bob").lookup (.v4 1 1) =
      some ⟨1,some "bob",false,isMuted,11⟩ := by
    rw [rename,Table.lookup_modify,if_pos rfl,hu]
    rfl
  have hlisted : (([SocketAddr.v4 1 1].map fun a => (rename s.users (.v4 1 1) "bob").lookup a).filterMap
      fun r => r.bind User.participant) = [⟨1,"bob",false,isMuted⟩] := by
    rw [List.map_cons,hrenamed]
    rfl
  have hcalm : Calmly (Guarded liveApart.guard Step) 1 := fun hstep _ =>
    ⟨liveApart_guard (by simp),hstep⟩
  rcases c with ⟨user,address,phase,cursor,received,written⟩
  cases hp
  cases haddr
  have hannouncing := run_login_announcing hcalm h 7 "bob" [.v4 1 1] rfl hlogin (by decide) (by decide)
    hu (show rename s.users (.v4 1 1) "bob" = s.users.modify (.v4 1 1) _ from rfl) (by decide)
    (rename_only hkeys) (by rw [hlisted]; exact hresponse) hjoined fun hstep => ⟨trivial,hstep⟩
  let announcing : Connection := ⟨user,.v4 1 1,.running (.broadcast ⟨some (.v4 1 1),joined⟩) fun _ =>
    .ret (.proceed []),cursor,received ++ [1,0,13,0,0,0,0,0,0,0,7,0,3,98,111,98],written ++ response⟩
  have hstep : Step (ManagementServer.setConnection { s with users := rename s.users (.v4 1 1) "bob" } 1
      announcing) (.exec 1 (.broadcast ⟨some (.v4 1 1),joined⟩) ()) _ :=
    step_exec (c := announcing) (r := ()) rfl trivial rfl
  exact ⟨_,_,_,_,joined,hannouncing,⟨liveApart_guard (by simp),hstep⟩,packetOf_encode hjoined,
    ManagementServer.setConnection_own _ _ _,hrenamed⟩

end One

theorem solo_only (a : SocketAddr) (u : User) (h : solo.users.lookup a = some u) : a = .v4 1 1 := by
  have hu : (ManagementServer.new.accept (.v4 1 1) 11).users.lookup a = some u := h
  rw [ManagementServer.accept_users] at hu
  split at hu
  · assumption
  · simp [ManagementServer.new] at hu

/-- Bob, who has neither joined nor muted, is announced as he is. -/
theorem login_announced_truthfully_bob :
    (∃ participants announced, Truthful ⟨1,some "bob",false,false,11⟩ participants announced) ∧
    ∃ trace s participants, Run (Guarded liveApart.guard Step) ManagementServer.new trace s ∧
      lastListed 1 trace = some participants ∧
      Truthful ⟨1,some "bob",false,false,11⟩ participants ⟨1,"bob",false,false⟩ := by
  have hsolo : Run (Guarded liveApart.guard Step) ManagementServer.new _ (solo.setConnection 1 soloist) :=
    run_solo fun _ _ h _ _ => h
  constructor
  · obtain ⟨response,hresponse⟩ :=
      (Packet.encode_isSome_iff (.loginResponse 7 1 11 [⟨1,"bob",false,false⟩])).mpr (by decide)
    obtain ⟨joined,hjoined⟩ :=
      (Packet.encode_isSome_iff (.userJoinedServer ⟨1,"bob",false,false⟩)).mpr (by decide)
    have hanswering : Alone (solo.setConnection 1 soloist) (handleLoginRequest (.v4 1 1) 7 "bob").run _
        (answering solo.users (.v4 1 1) 7 ⟨1,none,false,false,11⟩ "bob" [.v4 1 1]) :=
      login_alone_answering rfl 7 (by decide) (by decide) (rename_only solo_only)
    have hwrite := hanswering.trans (.op response hresponse .refl)
    obtain ⟨u,record,participants,announced,hu,hrecord,_,_,htruthful⟩ :=
      (login_announced_truthfully_iff (hsolo.mono fun _ _ _ h => h.2)).1 (by decide) hwrite
        (.op true trivial (.op joined hjoined .refl))
    cases hu
    cases hrecord
    exact ⟨participants,announced,htruthful.mpr ⟨rfl,rfl⟩⟩
  · obtain ⟨trace,s,s',c,joined,hr,hstep,hm,hc,hu⟩ := run_announcing hsolo rfl rfl rfl solo_only
    obtain ⟨c',record,participants,hc',hrecord,hlisted,htruthful⟩ :=
      (login_announced_truthfully_iff (hr.mono fun _ _ _ h => h.2)).2 hr hstep hm
    cases hc.symm.trans hc'
    cases hu.symm.trans hrecord
    exact ⟨trace,s,participants,hr,hlisted,htruthful.mpr ⟨rfl,rfl⟩⟩

/-- User 1 mutes itself and then logs in as Bob. Its record says that it is muted, and the
others are told that it is not. -/
theorem muted_login_announced_unmuted : ∃ trace s s' c joined,
    Run (Guarded liveApart.guard Step) ManagementServer.new trace s ∧
    Guarded liveApart.guard Step s (.exec 1 (.broadcast ⟨some (.v4 1 1),joined⟩) ()) s' ∧
    packetOf joined = some (.userJoinedServer ⟨1,"bob",false,false⟩) ∧
    s.connections.lookup 1 = some c ∧ s.users.lookup c.address = some ⟨1,some "bob",false,true,11⟩ ∧
    ∀ participants, ¬ Truthful ⟨1,some "bob",false,true,11⟩ participants ⟨1,"bob",false,false⟩ := by
  obtain ⟨data,hdata,hlen⟩ := encode_userMuteState 1 true
  have hprogram := handleRead_userMuteState (.v4 1 1) hdata
  have hcalm : Calmly (Guarded liveApart.guard Step) 1 := fun hstep _ =>
    ⟨liveApart_guard (by simp),hstep⟩
  have hsolo : Run (Guarded liveApart.guard Step) ManagementServer.new _ (solo.setConnection 1 soloist) :=
    run_solo fun _ _ h _ _ => h
  have hmuted : solo.Answers (.getMut (.v4 1 1) fun user => { user with isMuted := true })
      (some ⟨1,none,false,true,11⟩) := rfl
  have h₁ := hsolo.snoc ⟨liveApart_guard (by simp),step_read (r := .ok data) rfl hlen⟩
  have h₂ := run_silent hcalm h₁ (congrArg Phase.ofProgram hprogram) hmuted rfl trivial
  have h₃ := run_silent hcalm h₂ (o := .encode _) rfl hdata rfl trivial
  have h₄ := run_silent hcalm h₃ (o := .broadcast ⟨some (.v4 1 1),data⟩) (r := ()) rfl trivial rfl trivial
  obtain ⟨trace,s,s',c,joined,hr,hstep,hm,hc,hu⟩ := run_announcing h₄ rfl rfl rfl (by
    intro a u ha
    have ha : (solo.users.modify (.v4 1 1) fun user => { user with isMuted := true }).lookup a = some u := ha
    rw [Table.lookup_modify] at ha
    split at ha
    · assumption
    · exact solo_only a u ha)
  refine ⟨trace,s,s',c,joined,hr,hstep,hm,hc,hu,?_⟩
  intro participants htruthful
  exact absurd htruthful.record (by decide)

end VoiceApp.Management
