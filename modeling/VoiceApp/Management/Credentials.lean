import VoiceApp.Management.Authorship

/-! # What a login gives away

A voice token is written to the connection it was made for and to no other: a login that is
answered is told the id and the token of the record at its own address, or two zeros.
-/
namespace VoiceApp.Management
open Protocol Server

/-- Tokens are never changed, and a login response that is written carries the id and the
token of the own record, or has been turned down. -/
def OwnCredentials (_ : UInt64) (g : Own) : Op → Prop
  | .getMut _ update => ∀ u, (update u).token = u.token
  | .write data => ∀ requestId id voiceToken participants,
    packetOf data = some (.loginResponse requestId id voiceToken participants) →
      id = 0 ∧ voiceToken = 0 ∨ ∃ u, g.record = some u ∧ u.id = id ∧ u.token = voiceToken
  | _ => True

/-! ## The programs -/

section Programs
variable {id : UInt64} {address : SocketAddr} {g : Own}

/-- A packet that is no login response gives nothing away. -/
theorem credentials_quiet {packet : Packet} {data : Bytes} (hdata : packet.encode = some data)
    (hlogin : ∀ requestId id voiceToken participants,
      packet ≠ .loginResponse requestId id voiceToken participants) : OwnCredentials id g (.write data) := by
  intro requestId id' voiceToken participants hpacket
  cases (packetOf_encode hdata).symm.trans hpacket
  exact (hlogin _ _ _ _ rfl).elim

theorem changeVoice_credentials (h : Present id g) {inVoice : Bool} {response : Packet}
    {event : UInt64 → Event} {announcement : UInt64 → Packet}
    (hlogin : ∀ requestId id voiceToken participants,
      response ≠ .loginResponse requestId id voiceToken participants) :
    Allowed OwnCredentials id address (fun _ => Present id)
      (changeVoice address inVoice response event announcement).run g := by
  obtain ⟨u,hown,hid,htaken⟩ := h
  rw [changeVoice_run]
  refine allowed_op ⟨rfl,fun _ => rfl⟩ (fun _ => rfl) fun r hr => ?_
  obtain rfl : r = some { u with inVoice := inVoice, isMuted := false } := by
    rw [hr rfl,hown]
    rfl
  have hstays : Present id (g.after (.getMut address fun user =>
      { user with inVoice := inVoice, isMuted := false }) (some { u with
        inVoice := inVoice, isMuted := false })) := ⟨_,rfl,hid,htaken⟩
  refine allowed_op trivial trivial fun data hdata => ?_
  refine allowed_writing (credentials_quiet hdata hlogin) hstays ?_
  refine allowed_op trivial trivial fun _ _ => ?_
  exact allowed_announcing trivial (fun _ _ => trivial) (allowed_ret hstays)

theorem handleLoginRequest_credentials (h : Present id g) (requestId : UInt64) (username : String) :
    Allowed OwnCredentials id address (fun _ => Present id)
      (handleLoginRequest address requestId username).run g := by
  cases hv : validUsername username with
  | false =>
    rw [handleLoginRequest_run_invalid address hv]
    refine allowed_response trivial (fun data hdata => ?_) fun _ => h
    intro requestId' id' voiceToken participants hpacket
    cases (packetOf_encode hdata).symm.trans hpacket
    exact .inl ⟨rfl,rfl⟩
  | true =>
    obtain ⟨u,hown,hid,htaken⟩ := h
    rw [handleLoginRequest_run_valid address hv]
    refine allowed_op ⟨rfl,fun _ => rfl⟩ (fun _ => rfl) fun r hr => ?_
    obtain rfl : r = some { u with username := some username } := by
      rw [hr rfl,hown]
      rfl
    have hstays : Present id (g.after (.getMut address fun user =>
        { user with username := some username }) (some { u with username := some username })) :=
      ⟨_,rfl,hid,htaken⟩
    refine Discipline.wp_bind (Discipline.wp_mono ?_
      (collectParticipants_allowed trivial fun _ => trivial))
    rintro participants g' rfl
    refine allowed_op trivial trivial fun data hdata => ?_
    refine allowed_writing ?_ hstays ?_
    · intro requestId' id' voiceToken participants' hpacket
      cases (packetOf_encode hdata).symm.trans hpacket
      exact .inr ⟨_,rfl,rfl,rfl⟩
    · exact allowed_announcing trivial (fun _ _ => trivial) (allowed_ret hstays)

theorem handleChatMessageRequest_credentials (h : Present id g) (requestId : UInt64) (message : String) :
    Allowed OwnCredentials id address (fun _ => Present id)
      (handleChatMessageRequest address requestId message).run g := by
  rw [handleChatMessageRequest_run]
  refine allowed_op trivial trivial fun r _ => ?_
  cases r with
  | none => exact allowed_ret h
  | some u =>
    refine allowed_op trivial trivial fun data hdata => ?_
    refine allowed_writing (credentials_quiet hdata (by simp)) h ?_
    refine allowed_op trivial trivial fun timestamp _ => ?_
    exact allowed_announcing trivial (fun _ _ => trivial) (allowed_ret h)

theorem handleUserMuteState_credentials (h : Present id g) (userId : UInt64) (isMuted : Bool) :
    Allowed OwnCredentials id address (fun _ => Present id)
      (handleUserMuteState address userId isMuted).run g := by
  obtain ⟨u,hown,hid,htaken⟩ := h
  rw [handleUserMuteState_run]
  refine allowed_op ⟨rfl,fun _ => rfl⟩ (fun _ => rfl) fun r hr => ?_
  obtain rfl : r = some { u with isMuted := isMuted } := by
    rw [hr rfl,hown]
    rfl
  exact allowed_announcing trivial (fun _ _ => trivial) (allowed_ret ⟨_,rfl,hid,htaken⟩)

theorem handlePacket_credentials (h : Present id g) (packet : Packet) :
    Allowed OwnCredentials id address (fun _ => Present id) (handlePacket address packet).run g := by
  cases packet with
  | loginRequest requestId username => exact handleLoginRequest_credentials h requestId username
  | joinVoiceChannelRequest requestId => exact changeVoice_credentials h (by simp)
  | leaveVoiceChannelRequest requestId => exact changeVoice_credentials h (by simp)
  | chatMessageRequest requestId message => exact handleChatMessageRequest_credentials h requestId message
  | pingRequest requestId =>
    rw [handlePacket,handlePingRequest_run]
    exact allowed_response trivial (fun data hdata => credentials_quiet hdata (by simp)) fun _ => h
  | userMuteState userId isMuted => exact handleUserMuteState_credentials h userId isMuted
  | _ => exact allowed_ret h

theorem handleDisconnect_credentials :
    Allowed OwnCredentials id address (fun _ _ => True) (handleDisconnect address) g := by
  rw [handleDisconnect_eq]
  refine allowed_op rfl trivial fun r _ => ?_
  cases r with
  | none => exact allowed_ret trivial
  | some u =>
    refine allowed_announcing trivial (fun _ _ => trivial) ?_
    split
    · exact allowed_announcing trivial (fun _ _ => trivial) (allowed_ret trivial)
    · exact allowed_ret trivial

end Programs

/-! ## Every run -/

/-- The token was made for this connection. -/
def ManagementServer.MadeFor (s : ManagementServer) (id token : UInt64) : Prop :=
  ∃ c, s.connections.lookup id = some c ∧ c.user.token = token

/-- No address in use is accepted again, and what is received from the channel is an event. -/
def Discreet (s : ManagementServer) (label : Label) : Prop := liveApart.guard s label ∧ Announced s label

theorem ownCredentials_kept : (ownLaw OwnCredentials Present).Kept Discreet := by
  refine ownLaw_kept (fun _ _ h => h.1) (fun id token => ⟨_,rfl,rfl,rfl⟩) ?_ ?_
  · intro trace s id c b r _ _ _ _ h
    exact handleRead_allowed h handleDisconnect_credentials fun _ packet _ _ _ hg' =>
      handlePacket_credentials hg' packet
  · intro trace s id c b m _ hguard _ _ _ h
    refine handleRecv_allowed h fun _ => ?_
    obtain ⟨packet,hdata,hevent⟩ := hguard.2 id m rfl
    refine credentials_quiet hdata ?_
    rintro _ _ _ _ rfl
    cases hevent

section Runs
variable {guard : ManagementServer → Label → Prop} {trace : Trace} {s : ManagementServer}

theorem run_discreet (hguard : ∀ s label, guard s label → liveApart.guard s label)
    (h : Run (Guarded guard Step) ManagementServer.new trace s) :
    Run (Guarded Discreet Step) ManagementServer.new trace s := by
  induction h with
  | refl => exact .refl
  | snoc hr hs ih =>
    exact ih.snoc ⟨⟨hguard _ _ hs.1,(announced_step hs.2 (run_announced hr).2).1⟩,hs.2⟩

theorem step_madeFor {label : Label} {s' : ManagementServer} {id token : UInt64}
    (hr : Run (Guarded guard Step) ManagementServer.new trace s) (hstep : Step s label s')
    (h : s.MadeFor id token) : s'.MadeFor id token := by
  obtain ⟨c,hc,htoken⟩ := h
  by_cases hactor : label.actor = some id
  · -- a task keeps its copy of the record
    have hmove : ∀ {t : ManagementServer} {id' : UInt64} {c₀ c' : Connection}, some id' = some id →
        s.connections.lookup id' = some c₀ → c'.user = c₀.user → (t.setConnection id' c').MadeFor id token := by
      rintro s₁ _ c₀ c' ⟨⟩ hc₀ huser
      cases hc.symm.trans hc₀
      exact ⟨c',ManagementServer.setConnection_own _ _ _,by rw [huser,htoken]⟩
    cases hstep with
    | accept => cases hactor
    | connect hc₀ => exact hmove (t := s) hactor hc₀ rfl
    | disconnect hc₀ => exact hmove (t := s) hactor hc₀ rfl
    | _ hc₀ => exact hmove hactor hc₀ rfl
  · exact ⟨c,step_other hr hstep hactor hc,htoken⟩

/-- Every record has the token of the connection with its id. -/
theorem run_token (h : Run (Guarded Discreet Step) ManagementServer.new trace s) :
    ∀ a u, s.users.lookup a = some u → s.MadeFor u.id u.token := by
  induction h with
  | refl =>
    intro a u hu
    simp [ManagementServer.new] at hu
  | @snoc trace s label s' hr hstep ih =>
    have hold : ∀ (a : SocketAddr) (u : User), (∃ u', s.users.lookup a = some u' ∧ u'.id = u.id ∧ u'.token = u.token) →
        s'.MadeFor u.id u.token := by
      rintro a u ⟨u',hu',hid,htoken⟩
      rw [← hid,← htoken]
      exact step_madeFor hr hstep.2 (ih a u' hu')
    have hstepped := hstep.2
    cases hstepped with
    | @accept address token hlt =>
      intro a u hu
      rw [s.accept_users] at hu
      split at hu
      · cases hu
        exact ⟨_,(s.accept_connections address token s.nextUserId).trans (if_pos rfl),rfl⟩
      · exact hold a u ⟨u,hu,rfl,rfl⟩
    | @exec id c o k r b hc hp hans hb =>
      obtain ⟨_,_,hallowed,_⟩ := ownLaw_effect ownCredentials_kept hr hstep
      obtain ⟨_,_,_,hat⟩ := run_at hr hstep
      intro a u hu
      have hu : (s.perform o).users.lookup a = some u := hu
      refine hold a u ?_
      cases o with
      | getMut address update =>
        simp only [ManagementServer.perform,Table.lookup_modify] at hu
        split at hu
        · rename_i ha
          obtain ⟨u',hu',rfl⟩ := Option.map_eq_some_iff.mp hu
          exact ⟨u',ha ▸ hu',(hat.2.1 u').symm,(hallowed u').symm⟩
        · exact ⟨u,hu,rfl,rfl⟩
      | remove address =>
        simp only [ManagementServer.perform,Table.lookup_erase_eq] at hu
        split at hu
        · cases hu
        · exact ⟨u,hu,rfl,rfl⟩
      | _ => exact ⟨u,hu,rfl,rfl⟩
    | _ => exact fun a u hu => hold a u ⟨u,hu,rfl,rfl⟩

/-- What a connection is told of a token: its own id with the token made for it, or zeros. -/
theorem run_credentials (h : Run (Guarded Discreet Step) ManagementServer.new trace s) (id : UInt64) :
    ∀ data ∈ (exchange id trace).wrote, ∀ requestId id' voiceToken participants,
      packetOf data = some (.loginResponse requestId id' voiceToken participants) →
        id' = 0 ∧ voiceToken = 0 ∨ id' = id ∧ s.MadeFor id voiceToken := by
  induction h with
  | refl =>
    intro data hdata
    cases hdata
  | @snoc trace s label s' hr hstep ih =>
    intro data hdata requestId id' voiceToken participants hpacket
    have hold : data ∈ (exchange id trace).wrote →
        id' = 0 ∧ voiceToken = 0 ∨ id' = id ∧ s'.MadeFor id voiceToken := by
      intro hmem
      rcases ih data hmem requestId id' voiceToken participants hpacket with hzero | ⟨hid,hmade⟩
      · exact .inl hzero
      · exact .inr ⟨hid,step_madeFor hr hstep.2 hmade⟩
    rw [exchange_snoc,List.mem_append] at hdata
    rcases hdata with hdata | hdata
    · exact hold hdata
    · cases label with
      | exec id₂ o r =>
        cases o with
        | write data₂ =>
          rw [Label.wroteBy] at hdata
          split at hdata
          · rename_i hown
            obtain ⟨rfl,_⟩ := hown
            cases List.mem_singleton.mp hdata
            obtain ⟨c,hc,hallowed,_⟩ := ownLaw_effect ownCredentials_kept hr hstep
            obtain ⟨c',hc',halive,_⟩ := run_at hr hstep
            cases hc.symm.trans hc'
            rcases hallowed requestId id' voiceToken participants hpacket with hzero | ⟨u,hu,hid,htoken⟩
            · exact .inl hzero
            · have hown := run_ownRecords (hr.mono fun _ _ _ hs => ⟨hs.1.1,hs.2⟩) id₂ c u hc halive hu
              have hmade := run_token hr c.address u hu
              rw [hown,htoken] at hmade
              exact .inr ⟨hid.symm.trans hown,step_madeFor hr hstep.2 hmade⟩
          · cases hdata
        | _ => cases hdata
      | _ => cases hdata

/-- The relay is told the token of a connection. -/
theorem run_told_token (h : Run (Guarded guard Step) ManagementServer.new trace s) {id token : UInt64}
    (hmem : .userConnected id token ∈ s.events) : s.MadeFor id token := by
  induction h with
  | refl => cases hmem
  | @snoc trace s label s' hr hstep ih =>
    have hold : .userConnected id token ∈ s.events → s'.MadeFor id token :=
      fun h => step_madeFor hr hstep.2 (ih h)
    have hstepped := hstep.2
    cases hstepped with
    | @connect id' c hc hp =>
      rcases List.mem_append.mp hmem with hmem | hmem
      · exact hold hmem
      · cases List.mem_singleton.mp hmem
        rw [(run_ids hr id' c hc).1]
        exact ⟨_,ManagementServer.setConnection_own _ _ _,rfl⟩
    | disconnect =>
      rcases List.mem_append.mp hmem with hmem | hmem
      · exact hold hmem
      · cases List.mem_singleton.mp hmem
    | @exec id' c o k r b hc hp hans hb =>
      cases o with
      | send e =>
        rcases List.mem_append.mp hmem with hmem | hmem
        · exact hold hmem
        · obtain ⟨_,_,_,hat⟩ := run_at hr hstep
          cases List.mem_singleton.mp hmem
          cases hat
      | _ => exact hold hmem
    | _ => exact hold hmem

end Runs
end VoiceApp.Management
