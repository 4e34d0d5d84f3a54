import VoiceApp.Management.Law

/-! # Which operations a task performs

Whatever a task is told and answered, it gets at records by its own address only and tells
the relay about voice only. This is a matter of its programs alone, so it holds in every
run.
-/
namespace VoiceApp.Management
open Protocol Server

/-- The user whose connection an event begins or ends. -/
def connectionOf : Event → Option UInt64
  | .userConnected id _ => some id
  | .userDisconnected id => some id
  | _ => none

/-- An access by key is one at this address that keeps the id and stores no name but a valid
one, and an event that is sent is about voice. -/
def Op.At (address : SocketAddr) : Op → Prop
  | .getMut a update => a = address ∧ (∀ u, (update u).id = u.id) ∧
    ∀ u name, (update u).username = some name → u.username = some name ∨ validUsername name = true
  | .get a => a = address
  | .remove a => a = address
  | .send event => connectionOf event = none
  | _ => True

/-- Keep to one address, whatever the others do. -/
def atDiscipline (address : SocketAddr) : Discipline Op Op.Res Unit where
  rely _ _ := True
  answers _ _ _ := True
  effect _ o _ _ := o.At address
  rely_refl _ := trivial
  rely_trans _ _ := trivial

def addressLaw : Law Unit where
  view _ _ _ _ := ()
  discipline _ := atDiscipline
  early _ _ _ := True
  idle _ _ _ _ := True

section Programs
variable {address : SocketAddr} {A B : Type}

abbrev Stays (address : SocketAddr) (p : HandlerM A) : Prop :=
  (atDiscipline address).wp (fun _ _ => True) p ()

theorem stays_ret (a : A) : Stays address (.ret a) := fun _ _ => trivial

theorem stays_op {o : Op} {k : o.Res → HandlerM A} (ho : o.At address)
    (h : ∀ r, Stays address (k r)) : Stays address (.op o k) := fun _ _ r _ => ⟨(),ho,h r⟩

theorem stays_bind {p : HandlerM A} {f : A → HandlerM B} (hp : Stays address p)
    (hf : ∀ a, Stays address (f a)) : Stays address (p >>= f) :=
  Discipline.wp_bind (Discipline.wp_mono (fun a _ _ => hf a) hp)

theorem stays_writing {data : Bytes} {k : HandlerM (Except ServerError Unit)}
    (h : Stays address k) : Stays address (writing data k) := by
  refine stays_op trivial fun written => ?_
  cases written with
  | true => exact h
  | false => exact stays_ret _

theorem stays_announcing {exclude : Option SocketAddr} {packet : Packet} {k : HandlerM A}
    (h : Stays address k) : Stays address (announcing exclude packet k) :=
  stays_op trivial fun _ => stays_op trivial fun _ => h

theorem collectParticipants_stays : Stays address collectParticipants := by
  refine stays_op trivial fun addresses => ?_
  have hreads : Stays address (addresses.mapM fun a => perform (.read a)) :=
    Discipline.wp_mono (fun _ _ _ => trivial)
      (Discipline.wp_mapM (f := fun a => perform (.read a)) (fun _ _ _ => True) (fun _ _ _ _ _ h => h)
        (fun _ _ _ _ _ => stays_op trivial fun _ => stays_ret _) addresses [] () trivial)
  change Stays address (addresses.mapM (fun a => perform (.read a)) >>= _)
  exact stays_bind hreads fun _ => stays_ret _

theorem handleLoginRequest_stays (requestId : UInt64) (username : String) :
    Stays address (handleLoginRequest address requestId username).run := by
  cases hv : validUsername username with
  | false =>
    rw [handleLoginRequest_run_invalid address hv]
    exact stays_op trivial fun _ => stays_writing (stays_ret _)
  | true =>
    rw [handleLoginRequest_run_valid address hv]
    refine stays_op ⟨rfl,fun _ => rfl,fun _ name h => .inr (Option.some.inj h ▸ hv)⟩ fun record => ?_
    cases record with
    | none => exact stays_ret _
    | some user =>
      apply stays_bind collectParticipants_stays
      intro participants
      exact stays_op trivial fun _ => stays_writing (stays_announcing (stays_ret _))

theorem changeVoice_stays {event : UInt64 → Event} (hevent : ∀ id, connectionOf (event id) = none)
    (inVoice : Bool) (response : Packet) (announcement : UInt64 → Packet) :
    Stays address (changeVoice address inVoice response event announcement).run := by
  rw [changeVoice_run]
  refine stays_op ⟨rfl,fun _ => rfl,fun _ _ h => .inl h⟩ fun record => ?_
  cases record with
  | none => exact stays_ret _
  | some user =>
    exact stays_op trivial fun _ => stays_writing
      (stays_op (hevent user.id) fun _ => stays_announcing (stays_ret _))

theorem handleChatMessageRequest_stays (requestId : UInt64) (message : String) :
    Stays address (handleChatMessageRequest address requestId message).run := by
  rw [handleChatMessageRequest_run]
  refine stays_op rfl fun record => ?_
  cases record with
  | none => exact stays_ret _
  | some user =>
    exact stays_op trivial fun _ => stays_writing
      (stays_op trivial fun _ => stays_announcing (stays_ret _))

theorem handleUserMuteState_stays (userId : UInt64) (isMuted : Bool) :
    Stays address (handleUserMuteState address userId isMuted).run := by
  rw [handleUserMuteState_run]
  refine stays_op ⟨rfl,fun _ => rfl,fun _ _ h => .inl h⟩ fun record => ?_
  cases record with
  | none => exact stays_ret _
  | some user => exact stays_announcing (stays_ret _)

theorem handlePacket_stays (packet : Packet) : Stays address (handlePacket address packet).run := by
  cases packet with
  | loginRequest requestId username => exact handleLoginRequest_stays requestId username
  | joinVoiceChannelRequest requestId => exact changeVoice_stays (fun _ => rfl) _ _ _
  | leaveVoiceChannelRequest requestId => exact changeVoice_stays (fun _ => rfl) _ _ _
  | chatMessageRequest requestId message => exact handleChatMessageRequest_stays requestId message
  | pingRequest requestId =>
    rw [handlePacket,handlePingRequest_run]
    exact stays_op trivial fun _ => stays_writing (stays_ret _)
  | userMuteState userId isMuted => exact handleUserMuteState_stays userId isMuted
  | _ => exact stays_ret _

theorem handleDisconnect_stays : Stays address (handleDisconnect address) := by
  rw [handleDisconnect_eq]
  refine stays_op rfl fun record => ?_
  cases record with
  | none => exact stays_ret _
  | some user =>
    apply stays_announcing
    split
    · exact stays_announcing (stays_ret _)
    · exact stays_ret _

theorem handleRead_stays (packetBuffer : Bytes) (r : ReadResult) :
    Stays address (handleRead address packetBuffer r) := by
  exact handleRead_wp (fun _ _ => True) (fun _ _ _ _ h => h) (fun packet _ _ _ => handlePacket_stays packet)
    (fun _ _ _ _ h => h) (fun _ _ => handleDisconnect_stays) (fun _ _ _ => trivial) (fun _ _ _ _ h => h)

theorem handleRecv_stays (packetBuffer : Bytes) (m : BroadcastMessage) :
    Stays address (handleRecv address packetBuffer (.ok m)) := by
  cases hm : m.shouldSendTo address with
  | false =>
    rw [handleRecv_filtered address hm]
    exact stays_ret _
  | true =>
    rw [handleRecv_sent address hm]
    refine stays_op trivial fun written => ?_
    cases written with
    | true => exact stays_ret _
    | false => exact stays_ret _

/-- The results of the branches do not matter to this law. -/
theorem keeps_of_stays {id : UInt64} {p : HandlerM Outcome} (h : Stays address p) :
    addressLaw.Keeps id address p () := by
  refine Discipline.wp_mono ?_ h
  intro outcome _ _
  cases outcome <;> trivial

end Programs

theorem addressLaw_kept (guard : ManagementServer → Label → Prop) : addressLaw.Kept guard where
  early_stable _ h := h
  idle_stable _ h := h
  others _ _ _ _ _ := trivial
  accept _ _ := trivial
  connect _ _ _ := trivial
  subscribe _ _ _ := trivial
  read _ _ _ _ _ := keeps_of_stays (handleRead_stays _ _)
  recv _ _ _ _ _ _ := keeps_of_stays (handleRecv_stays _ _)
  lagged _ _ _ _ _ _ := trivial
  answers _ _ _ _ := trivial
  exec _ _ _ _ _ _ := trivial

/-- What every operation of a task then is. -/
theorem run_at {guard : ManagementServer → Label → Prop} {trace : Trace} {s s' : ManagementServer}
    {id : UInt64} {o : Op} {r : o.Res} (hr : Run (Guarded guard Step) ManagementServer.new trace s)
    (hstep : Guarded guard Step s (.exec id o r) s') :
    ∃ c, s.connections.lookup id = some c ∧ c.phase.Alive ∧ o.At c.address := by
  obtain ⟨c,_,hc,halive,hat⟩ := (addressLaw_kept guard).run_effect hr hstep
  exact ⟨c,hc,halive,hat⟩

/-- Every record belongs to the connection with its id, at the address of this connection. -/
theorem run_owner {trace : Trace} {s : ManagementServer} (hr : Run Step ManagementServer.new trace s) :
    ∀ a u, s.users.lookup a = some u → ∃ c, s.connections.lookup u.id = some c ∧ c.address = a := by
  induction hr with
  | refl =>
    intro a u hu
    simp [ManagementServer.new] at hu
  | @snoc trace s label s' hr hstep ih =>
    have hguarded : ∀ {t label t'}, Step t label t' → Guarded (fun _ _ => True) Step t label t' :=
      fun hs => ⟨trivial,hs⟩
    have hall : Run (Guarded (fun _ _ => True) Step) ManagementServer.new trace s :=
      hr.mono fun _ _ _ hs => hguarded hs
    -- a task that moves keeps its address, and the records their ids
    have hmove : ∀ {t s₁ : ManagementServer} {id c c'}, s.connections.lookup id = some c →
        t.connections = (s₁.setConnection id c').connections → c'.address = c.address →
        s₁.connections = s.connections →
        (∀ a u, t.users.lookup a = some u → ∃ u', s.users.lookup a = some u' ∧ u'.id = u.id) →
        ∀ a u, t.users.lookup a = some u →
          ∃ c₂, t.connections.lookup u.id = some c₂ ∧ c₂.address = a := by
      intro t s₁ id c c' hc ht haddr hconn hids a u hu
      obtain ⟨u',hu',hid⟩ := hids a u hu
      obtain ⟨c₂,hc₂,ha⟩ := ih a u' hu'
      rw [ht,ManagementServer.setConnection_lookup,hconn,← hid]
      split
      · rename_i heq
        rw [heq,hc] at hc₂
        cases hc₂
        exact ⟨c',rfl,haddr.trans ha⟩
      · exact ⟨c₂,hc₂,ha⟩
    have hsame : ∀ a u, s.users.lookup a = some u → ∃ u', s.users.lookup a = some u' ∧ u'.id = u.id :=
      fun a u hu => ⟨u,hu,rfl⟩
    cases hstep with
    | @accept address token hid =>
      intro a u hu
      rw [s.accept_users] at hu
      rw [s.accept_connections]
      split at hu
      · rename_i ha
        cases hu
        exact ⟨_,if_pos rfl,ha.symm⟩
      · obtain ⟨c,hc,ha⟩ := ih a u hu
        have hne : u.id ≠ s.nextUserId := by
          intro heq
          rw [heq,run_fresh hall] at hc
          cases hc
        exact ⟨c,by rw [if_neg hne,hc],ha⟩
    | connect hc hp => exact hmove hc rfl rfl rfl hsame
    | subscribe hc hp => exact hmove hc rfl rfl rfl hsame
    | read hc hp => exact hmove hc rfl rfl rfl hsame
    | recv hc hp => exact hmove hc rfl rfl rfl hsame
    | lagged hc hp => exact hmove hc rfl rfl rfl hsame
    | closed hc hp => exact hmove hc rfl rfl rfl hsame
    | @exec id c o k r b hc hp hans hb =>
      obtain ⟨_,_,_,hat⟩ := run_at hall (hguarded (Step.exec hc hp hans hb))
      refine hmove hc rfl rfl (s.perform_connections o) fun a u hu => ManagementServer.perform_ids ?_ hu
      rintro a' update rfl
      exact hat.2.1
    | panic hc hp => exact hmove hc rfl rfl rfl hsame
    | disconnect hc hp => exact hmove hc rfl rfl rfl hsame

/-- Every name that is stored has passed the check. -/
theorem run_named {trace : Trace} {s : ManagementServer} (hr : Run Step ManagementServer.new trace s) :
    ∀ a u name, s.users.lookup a = some u → u.username = some name → validUsername name = true := by
  induction hr with
  | refl =>
    intro a u name hu
    simp [ManagementServer.new] at hu
  | @snoc trace s label s' hr hstep ih =>
    cases hstep with
    | @accept address token =>
      intro a u name hu hname
      rw [s.accept_users] at hu
      split at hu
      · cases hu
        cases hname
      · exact ih a u name hu hname
    | @exec id c o k r b hc hp hans hb =>
      have hall : Run (Guarded (fun _ _ => True) Step) ManagementServer.new trace s :=
        hr.mono fun _ _ _ hs => ⟨trivial,hs⟩
      obtain ⟨_,_,_,hat⟩ := run_at hall ⟨trivial,Step.exec hc hp hans hb⟩
      intro a u name hu hname
      change (s.perform o).users.lookup a = some u at hu
      cases o with
      | getMut address update =>
        simp only [ManagementServer.perform,Table.lookup_modify] at hu
        split at hu
        · obtain ⟨u',hu',rfl⟩ := Option.map_eq_some_iff.mp hu
          rcases hat.2.2 u' name hname with hold | hvalid
          · exact ih _ u' name hu' hold
          · exact hvalid
        · exact ih a u name hu hname
      | remove address =>
        simp only [ManagementServer.perform,Table.lookup_erase_eq] at hu
        split at hu
        · cases hu
        · exact ih a u name hu hname
      | _ => exact ih a u name hu hname
    | _ => exact ih

end VoiceApp.Management
