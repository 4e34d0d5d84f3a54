import VoiceApp.Management.OwnRecord

/-! # In whose name a task speaks

Every announcement takes its user id from the record of the connection, but for one: a
`UserMuteState` is passed on with the id that the client has put into it.
-/
namespace VoiceApp.Management
open Protocol Server

/-- A broadcast names the user of the record, or of the record just taken out. -/
def NamesOwn (_ : UInt64) (g : Own) : Op → Prop
  | .broadcast m => ∃ packet u, packet.encode = some m.data ∧ named packet = some u.id ∧
      (g.record = some u ∨ g.taken = [u])
  | _ => True

/-- The record is there, under the id of the connection. -/
def Present (id : UInt64) (g : Own) : Prop :=
  ∃ u, g.record = some u ∧ u.id = id ∧ g.taken = []

/-- No packet that this read completes is a `UserMuteState` with the id of anybody else
than the user of the record. -/
def OwnMute (s : ManagementServer) : Label → Prop
  | .read id (.ok bytes) => ∀ c b u, s.connections.lookup id = some c → c.phase = .select b →
      s.users.lookup c.address = some u → ∀ userId isMuted,
        .userMuteState userId isMuted ∈ (Packet.framer.split (b ++ bytes)).1 → userId = u.id
  | _ => True

section Programs
variable {id : UInt64} {address : SocketAddr} {g : Own}

theorem changeVoice_names (h : Present id g) {inVoice : Bool} {response : Packet}
    {event : UInt64 → Event} {announcement : UInt64 → Packet}
    (hnamed : ∀ userId, named (announcement userId) = some userId) :
    Allowed NamesOwn id address (fun _ => Present id)
      (changeVoice address inVoice response event announcement).run g := by
  obtain ⟨u,hown,hid,htaken⟩ := h
  rw [changeVoice_run]
  refine allowed_op ⟨rfl,fun _ => rfl⟩ trivial fun r hr => ?_
  obtain rfl : r = some { u with inVoice := inVoice, isMuted := false } := by
    rw [hr rfl,hown]
    rfl
  have hstays : Present id (g.after (.getMut address fun user =>
      { user with inVoice := inVoice, isMuted := false }) (some { u with
        inVoice := inVoice, isMuted := false })) := ⟨_,rfl,hid,htaken⟩
  refine allowed_op trivial trivial fun data _ => ?_
  refine allowed_writing trivial hstays ?_
  refine allowed_op trivial trivial fun _ _ => ?_
  exact allowed_announcing trivial (fun data hdata => ⟨_,{ u with
    inVoice := inVoice, isMuted := false },hdata,hnamed u.id,.inl rfl⟩) (allowed_ret hstays)

theorem handleLoginRequest_names (h : Present id g) (requestId : UInt64) (username : String) :
    Allowed NamesOwn id address (fun _ => Present id)
      (handleLoginRequest address requestId username).run g := by
  cases hv : validUsername username with
  | false =>
    rw [handleLoginRequest_run_invalid address hv]
    exact allowed_response trivial (fun _ _ => trivial) fun _ => h
  | true =>
    obtain ⟨u,hown,hid,htaken⟩ := h
    rw [handleLoginRequest_run_valid address hv]
    refine allowed_op ⟨rfl,fun _ => rfl⟩ trivial fun r hr => ?_
    obtain rfl : r = some { u with username := some username } := by
      rw [hr rfl,hown]
      rfl
    have hstays : Present id (g.after (.getMut address fun user =>
        { user with username := some username }) (some { u with username := some username })) :=
      ⟨_,rfl,hid,htaken⟩
    refine Discipline.wp_bind (Discipline.wp_mono ?_
      (collectParticipants_allowed trivial fun _ => trivial))
    rintro participants g' rfl
    refine allowed_op trivial trivial fun data _ => ?_
    refine allowed_writing trivial hstays ?_
    exact allowed_announcing trivial (fun data hdata => ⟨_,{ u with username := some username },
      hdata,rfl,.inl rfl⟩) (allowed_ret hstays)

theorem handleChatMessageRequest_names (h : Present id g) (requestId : UInt64) (message : String) :
    Allowed NamesOwn id address (fun _ => Present id)
      (handleChatMessageRequest address requestId message).run g := by
  obtain ⟨u,hown,hid,htaken⟩ := h
  rw [handleChatMessageRequest_run]
  refine allowed_op trivial trivial fun r hr => ?_
  obtain rfl : r = some u := by rw [hr rfl,hown]
  have hstays : Present id g := ⟨u,hown,hid,htaken⟩
  refine allowed_op trivial trivial fun data _ => ?_
  refine allowed_writing trivial hstays ?_
  refine allowed_op trivial trivial fun timestamp _ => ?_
  exact allowed_announcing trivial (fun data hdata => ⟨_,u,hdata,rfl,.inl hown⟩) (allowed_ret hstays)

theorem handleUserMuteState_names (h : Present id g) (isMuted : Bool) :
    Allowed NamesOwn id address (fun _ => Present id)
      (handleUserMuteState address id isMuted).run g := by
  obtain ⟨u,hown,rfl,htaken⟩ := h
  rw [handleUserMuteState_run]
  refine allowed_op ⟨rfl,fun _ => rfl⟩ trivial fun r hr => ?_
  obtain rfl : r = some { u with isMuted := isMuted } := by
    rw [hr rfl,hown]
    rfl
  exact allowed_announcing trivial (fun data hdata => ⟨_,{ u with isMuted := isMuted },hdata,rfl,
    .inl rfl⟩) (allowed_ret ⟨_,rfl,rfl,htaken⟩)

/-- A `UserMuteState` with another id is announced with that id. -/
theorem handleUserMuteState_own (h : Present id g) {userId : UInt64} {isMuted : Bool}
    (hallowed : Allowed NamesOwn id address (fun _ => Present id)
      (handleUserMuteState address userId isMuted).run g) : userId = id := by
  obtain ⟨u,hown,hid,htaken⟩ := h
  rw [handleUserMuteState_run] at hallowed
  obtain ⟨data,hdata,_⟩ := encode_userMuteState userId isMuted
  obtain ⟨_,⟨_,_,rfl⟩,hencode⟩ := Discipline.wp_op hallowed
    (show _ from fun _ => rfl : (ownDiscipline NamesOwn id address).answers g (.getMut address _)
      (g.record.map fun user => { user with isMuted := isMuted }))
  rw [hown] at hencode
  obtain ⟨_,⟨_,_,rfl⟩,hsend⟩ := Discipline.wp_op hencode hdata
  obtain ⟨_,⟨_,⟨packet,u',hpacket,hname,hrecord⟩,_⟩,_⟩ := Discipline.wp_op (r := ()) hsend trivial
  have hself := Packet.decode_self hdata
  have hback := Packet.decode_self hpacket
  cases hself.symm.trans hback
  have hid' : u'.id = id := by
    rcases hrecord with hrecord | hrecord
    · cases hrecord
      exact hid
    · have hnone : g.taken = [u'] := hrecord
      rw [htaken] at hnone
      cases hnone
  exact (Option.some.inj hname).trans hid'

/-- The handler of a packet speaks in the name of its own user only, exactly if the packet
is not a `UserMuteState` with another id. -/
theorem handlePacket_names_iff (h : Present id g) (packet : Packet) :
    Allowed NamesOwn id address (fun _ => Present id) (handlePacket address packet).run g ↔
      ∀ userId isMuted, packet = .userMuteState userId isMuted → userId = id := by
  constructor
  · rintro hallowed userId isMuted rfl
    exact handleUserMuteState_own h hallowed
  · intro hmute
    cases packet with
    | loginRequest requestId username => exact handleLoginRequest_names h requestId username
    | joinVoiceChannelRequest requestId => exact changeVoice_names h fun _ => rfl
    | leaveVoiceChannelRequest requestId => exact changeVoice_names h fun _ => rfl
    | chatMessageRequest requestId message => exact handleChatMessageRequest_names h requestId message
    | pingRequest requestId =>
      rw [handlePacket,handlePingRequest_run]
      exact allowed_response trivial (fun _ _ => trivial) fun _ => h
    | userMuteState userId isMuted =>
      rw [hmute userId isMuted rfl]
      exact handleUserMuteState_names h isMuted
    | _ => exact allowed_ret h

theorem handleDisconnect_names (h : Present id g) :
    Allowed NamesOwn id address (fun _ _ => True) (handleDisconnect address) g := by
  obtain ⟨u,hown,hid,htaken⟩ := h
  rw [handleDisconnect_eq]
  refine allowed_op rfl trivial fun r hr => ?_
  obtain rfl : r = some u := by rw [hr rfl,hown]
  have htook : (g.after (.remove address) (some u)).taken = [u] := by
    change g.taken ++ [u] = [u]
    rw [htaken]
    rfl
  refine allowed_announcing trivial (fun data hdata => ⟨_,u,hdata,rfl,.inr htook⟩) ?_
  split
  · exact allowed_announcing trivial (fun data hdata => ⟨_,u,hdata,rfl,.inr htook⟩) (allowed_ret trivial)
  · exact allowed_ret trivial

end Programs

/-- The steps in which nobody mutes anybody else. -/
def honest (s : ManagementServer) (label : Label) : Prop := liveApart.guard s label ∧ OwnMute s label

theorem namesOwn_kept : (ownLaw NamesOwn Present).Kept honest := by
  refine ownLaw_kept (fun _ _ h => h.1) (fun id token => ⟨_,rfl,rfl,rfl⟩) ?_ ?_
  · intro trace s id c b r _ hguard hc hp h
    refine handleRead_allowed h (handleDisconnect_names h) ?_
    rintro bytes packet rfl hmem g' hg'
    rw [handlePacket_names_iff hg']
    rintro userId isMuted rfl
    obtain ⟨u,hown,hid,_⟩ := h
    exact (hguard.2 c b u hc hp hown userId isMuted hmem).trans hid
  · intro trace s id c b m _ _ _ _ _ h
    exact handleRecv_allowed h fun _ => trivial

/-- In every run in which clients mute themselves only, each broadcast of a task names the
user whose record is stored for its address, or whose record it has just taken out when
its connection ended; and no step of a task changes any other record. -/
theorem broadcasts_name_own {trace : Trace} {s s' : ManagementServer} {id : UInt64} {o : Op}
    {r : o.Res} (hr : Run (Guarded honest Step) ManagementServer.new trace s)
    (hstep : Guarded honest Step s (.exec id o r) s') :
    ∃ c, s.connections.lookup id = some c ∧
      (∀ m, o = .broadcast m → ∃ packet u, packet.encode = some m.data ∧
        named packet = some u.id ∧ (s.users.lookup c.address = some u ∨ departed id trace = [u])) ∧
      ∀ a, a ≠ c.address → s'.users.lookup a = s.users.lookup a := by
  obtain ⟨c,hc,hnames,hothers⟩ := ownLaw_effect namesOwn_kept hr hstep
  refine ⟨c,hc,?_,hothers⟩
  rintro m rfl
  exact hnames

/-- User 1 says that `userId` is muted, and the announcement is about to be broadcast. -/
theorem run_mute {guard : ManagementServer → Label → Prop} (userId : UInt64)
    (hguard : ∀ s label, liveApart.guard s label → (∀ id r, label ≠ .read id r) →
      (∀ id r, label ≠ .recv id r) → guard s label)
    (hread : ∀ data, (Packet.userMuteState userId true).encode = some data →
      guard (solo.setConnection 1 soloist) (.read 1 (.ok data))) :
    ∃ trace s s' data, Run (Guarded guard Step) ManagementServer.new trace s ∧
      (∃ c, s.connections.lookup 1 = some c ∧ c.address = .v4 1 1) ∧
      s.users.lookup (.v4 1 1) = some ⟨1,none,false,true,11⟩ ∧ departed 1 trace = [] ∧
      (Packet.userMuteState userId true).encode = some data ∧
      Guarded guard Step s (.exec 1 (.broadcast ⟨some (.v4 1 1),data⟩) ()) s' := by
  obtain ⟨data,hdata,hlen⟩ := encode_userMuteState userId true
  have hprogram := handleRead_userMuteState (.v4 1 1) hdata
  have h₁ := (run_solo hguard).snoc ⟨hread data hdata,step_read (r := .ok data) rfl hlen⟩
  have hrecord : solo.Answers (.getMut (.v4 1 1) fun user => { user with isMuted := true })
      (some ⟨1,none,false,true,11⟩) := rfl
  have hmuted : (solo.perform (.getMut (.v4 1 1) fun user => { user with isMuted := true })).users.lookup
      (.v4 1 1) = some ⟨1,none,false,true,11⟩ := rfl
  have h₂ := h₁.snoc (guarded_exec hguard
    (step_exec (congrArg Phase.ofProgram hprogram) hrecord rfl))
  have h₃ := h₂.snoc (guarded_exec hguard (step_exec (o := .encode _) (r := data) rfl hdata rfl))
  refine ⟨_,_,_,data,h₃,⟨_,ManagementServer.setConnection_own _ _ _,rfl⟩,hmuted,rfl,
    hdata,guarded_exec hguard (step_exec (o := .broadcast _) (r := ()) rfl trivial rfl)⟩

/-- User 1 mutes itself, and the broadcast names user 1. -/
theorem broadcasts_name_own_mute : ∃ data packet, (Packet.userMuteState 1 true).encode = some data ∧
    packet.encode = some data ∧ named packet = some 1 := by
  have hguard : ∀ s label, liveApart.guard s label → (∀ id r, label ≠ .read id r) →
      (∀ id r, label ≠ .recv id r) → honest s label := by
    intro s label h hread _
    refine ⟨h,?_⟩
    cases label with
    | read id r => exact (hread id r rfl).elim
    | _ => trivial
  have hread : ∀ data, (Packet.userMuteState 1 true).encode = some data →
      honest (solo.setConnection 1 soloist) (.read 1 (.ok data)) := by
    intro data hdata
    refine ⟨trivial,?_⟩
    intro c b u hc hp hu userId isMuted hmem
    cases (ManagementServer.setConnection_own _ _ _).symm.trans hc
    cases hp
    have hsplit : Packet.framer.split data = ([.userMuteState 1 true],[]) := by
      have := Packet.framer_encodes.split_append hdata []
      rwa [List.append_nil,Packet.framer_encodes.split_nil] at this
    rw [List.nil_append,hsplit] at hmem
    cases List.mem_singleton.mp hmem
    have hone : some u = some ⟨1,none,false,false,11⟩ := hu.symm
    cases hone
    rfl
  obtain ⟨trace,s,s',data,hr,⟨c,hc,haddr⟩,hu,hdeparted,hdata,hstep⟩ := run_mute 1 hguard hread
  obtain ⟨c',hc',hnames,_⟩ := broadcasts_name_own hr hstep
  cases hc.symm.trans hc'
  obtain ⟨packet,u,hpacket,hname,hown | hown⟩ := hnames _ rfl
  · rw [haddr,hu] at hown
    cases hown
    exact ⟨data,packet,hdata,hpacket,hname⟩
  · rw [hdeparted] at hown
    cases hown

/-- User 1 says that user 2 is muted, and this is what everybody is told. -/
theorem mute_names_another : ∃ trace s s' data, Run (Guarded liveApart.guard Step) .new trace s ∧
    Step s (.exec 1 (.broadcast ⟨some (.v4 1 1),data⟩) ()) s' ∧
    s.users.lookup (.v4 1 1) = some ⟨1,none,false,true,11⟩ ∧ departed 1 trace = [] ∧
    (Packet.userMuteState 2 true).encode = some data ∧
    ¬ ∃ packet u, packet.encode = some data ∧ named packet = some u.id ∧
      (s.users.lookup (.v4 1 1) = some u ∨ departed 1 trace = [u]) := by
  obtain ⟨trace,s,s',data,hr,_,hu,hdeparted,hdata,_,hstep⟩ := run_mute 2 (fun _ _ h _ _ => h)
    fun _ _ => trivial
  refine ⟨trace,s,s',data,hr,hstep,hu,hdeparted,hdata,?_⟩
  rintro ⟨packet,u,hpacket,hname,hown | hown⟩
  · have hself := Packet.decode_self hdata
    have hback := Packet.decode_self hpacket
    cases hself.symm.trans hback
    rw [hu] at hown
    cases hown
    revert hname
    decide
  · rw [hdeparted] at hown
    cases hown

end VoiceApp.Management
