import VoiceApp.Management.OwnRecord

/-! # Requests that fail

A request first changes the record, then writes its response, then tells the relay and the
others. When the write fails, the change stays and nobody is told of it.
-/
namespace VoiceApp.Management
open Protocol Server

/-- A program runs to its result, performing these operations. Other tasks may move in
between, as long as they leave the record at `address` alone. -/
inductive Ends (address : SocketAddr) {A : Type} :
    ManagementServer → HandlerM A → List Op → A → ManagementServer → Prop
  | ret {s a} : Ends address s (.ret a) [] a s
  | op {s o k r ops a s'} (hr : s.Answers o r) (h : Ends address (s.perform o) (k r) ops a s') :
      Ends address s (.op o k) (o :: ops) a s'
  | others {s s₁ p ops a s'} (hrecord : s₁.users.lookup address = s.users.lookup address)
      (h : Ends address s₁ p ops a s') : Ends address s p ops a s'

/-- The relay or the other clients have been told something. -/
def Told (ops : List Op) : Prop := (∃ e, .send e ∈ ops) ∨ ∃ m, .broadcast m ∈ ops

/-- What a request makes of the record before it writes its response. -/
def change : Packet → User → User
  | .loginRequest _ username,u =>
    if validUsername username then { u with username := some username } else u
  | .joinVoiceChannelRequest _,u => { u with inVoice := true, isMuted := false }
  | .leaveVoiceChannelRequest _,u => { u with inVoice := false, isMuted := false }
  | _,u => u

/-- When the handler returns an error, the record is as it was before the request. -/
def FailsClean (address : SocketAddr) (s : ManagementServer) (packet : Packet) : Prop :=
  ∀ ops e s', Ends address s (handlePacket address packet).run ops (.error e) s' →
    s'.users.lookup address = s.users.lookup address

/-- When the handler has changed the record, somebody has been told. -/
def ChangesTold (address : SocketAddr) (s : ManagementServer) (packet : Packet) : Prop :=
  ∀ ops result s', Ends address s (handlePacket address packet).run ops result s' →
    s'.users.lookup address ≠ s.users.lookup address → Told ops

namespace Ends
variable {address : SocketAddr} {s s' : ManagementServer} {ops : List Op} {A : Type}

theorem op_inv {o : Op} {k : o.Res → HandlerM A} {a : A} (h : Ends address s (.op o k) ops a s') :
    ∃ (s₁ : ManagementServer) (r : o.Res) (rest : List Op),
      s₁.users.lookup address = s.users.lookup address ∧ s₁.Answers o r ∧ ops = o :: rest ∧
        Ends address (s₁.perform o) (k r) rest a s' := by
  generalize hp : Proc.op o k = p at h
  induction h with
  | ret => cases hp
  | op hr h =>
    cases hp
    exact ⟨_,_,_,rfl,hr,rfl,h⟩
  | others hrecord _ ih =>
    obtain ⟨s₁,r,rest,hsame,hr,hops,h⟩ := ih hp
    exact ⟨s₁,r,rest,hsame.trans hrecord,hr,hops,h⟩

theorem ret_inv {a b : A} (h : Ends address s (.ret a) ops b s') :
    b = a ∧ s'.users.lookup address = s.users.lookup address := by
  generalize hp : Proc.ret a = p at h
  induction h with
  | ret =>
    cases hp
    exact ⟨rfl,rfl⟩
  | op => cases hp
  | others hrecord _ ih =>
    obtain ⟨hb,hsame⟩ := ih hp
    exact ⟨hb,hsame.trans hrecord⟩

/-- An operation that does not touch the record. -/
theorem pass {o : Op} {k : o.Res → HandlerM A} {a : A} (h : Ends address s (.op o k) ops a s')
    (hquiet : ∀ s : ManagementServer, (s.perform o).users = s.users) :
    ∃ s₁ r rest, s₁.users.lookup address = s.users.lookup address ∧ rest ⊆ ops ∧
      Ends address s₁ (k r) rest a s' := by
  obtain ⟨s₁,r,rest,hsame,_,rfl,h₁⟩ := h.op_inv
  exact ⟨_,r,rest,by rw [hquiet,hsame],List.subset_cons_self _ _,h₁⟩

/-- A change of the record. -/
theorem update {update : User → User} {k : Option User → HandlerM A} {a : A}
    (h : Ends address s (.op (.getMut address update) k) ops a s') :
    ∃ s₁ rest, s₁.users.lookup address = (s.users.lookup address).map update ∧ rest ⊆ ops ∧
      Ends address s₁ (k ((s.users.lookup address).map update)) rest a s' := by
  obtain ⟨s₁,r,rest,hsame,hr,rfl,h₁⟩ := h.op_inv
  have hr : r = (s₁.users.lookup address).map update := hr
  rw [hr,hsame] at h₁
  refine ⟨_,rest,?_,List.subset_cons_self _ _,h₁⟩
  simp only [ManagementServer.perform,Table.lookup_modify,if_true,hsame]

/-- The response is written, or the program ends with an error. -/
theorem writing_inv {data : Bytes} {k : HandlerM (Except ServerError Unit)}
    {result : Except ServerError Unit} (h : Ends address s (writing data k) ops result s') :
    (result = .error .io ∧ s'.users.lookup address = s.users.lookup address) ∨
      ∃ s₁ rest, s₁.users.lookup address = s.users.lookup address ∧ rest ⊆ ops ∧
        Ends address s₁ k rest result s' := by
  obtain ⟨s₁,written,rest,hsame,hsub,h₁⟩ := pass h fun _ => rfl
  cases written with
  | true => exact .inr ⟨s₁,rest,hsame,hsub,h₁⟩
  | false =>
    obtain ⟨hresult,hlast⟩ := h₁.ret_inv
    exact .inl ⟨hresult,hlast.trans hsame⟩

/-- The write of the response may fail. -/
theorem writing_fails (s : ManagementServer) (data : Bytes) (k : HandlerM (Except ServerError Unit)) :
    Ends address s (writing data k) [.write data] (.error .io) s :=
  .op (o := .write data) (r := false) trivial .ret

/-- The announcement at the end of a handler. -/
theorem announced {exclude : Option SocketAddr} {packet : Packet} {result : Except ServerError Unit}
    (h : Ends address s (announcing exclude packet (.ret (.ok ()))) ops result s') :
    result = .ok () ∧ Told ops := by
  obtain ⟨s₁,data,rest,_,hsub,h₁⟩ := pass h fun _ => rfl
  obtain ⟨s₂,_,rest₂,_,_,rfl,h₂⟩ := h₁.op_inv
  obtain ⟨hresult,_⟩ := h₂.ret_inv
  exact ⟨hresult,.inr ⟨⟨exclude,data⟩,hsub List.mem_cons_self⟩⟩

theorem reads {addresses : List SocketAddr} {f : List (Option User) → HandlerM A} {a : A}
    (h : Ends address s (addresses.mapM (fun a => perform (.read a)) >>= f) ops a s') :
    ∃ s₁ records rest, s₁.users.lookup address = s.users.lookup address ∧ rest ⊆ ops ∧
      Ends address s₁ (f records) rest a s' := by
  induction addresses generalizing s ops f with
  | nil =>
    rw [List.mapM_nil,pure_bind] at h
    exact ⟨s,[],ops,rfl,List.Subset.refl ops,h⟩
  | cons first others ih =>
    rw [List.mapM_cons,bind_assoc] at h
    obtain ⟨s₁,r,rest,hsame,hsub,h₁⟩ := pass h fun _ => rfl
    change Ends address s₁ ((others.mapM (fun a => perform (.read a)) >>= _) >>= f) rest a s' at h₁
    rw [bind_assoc] at h₁
    obtain ⟨s₂,records,rest₂,hsame₂,hsub₂,h₂⟩ := ih h₁
    exact ⟨s₂,r :: records,rest₂,hsame₂.trans hsame,List.Subset.trans hsub₂ hsub,h₂⟩

theorem collected {f : List ParticipantInfo → HandlerM A} {a : A}
    (h : Ends address s (collectParticipants >>= f) ops a s') :
    ∃ s₁ participants rest, s₁.users.lookup address = s.users.lookup address ∧ rest ⊆ ops ∧
      Ends address s₁ (f participants) rest a s' := by
  obtain ⟨s₁,addresses,rest,hsame,hsub,h₁⟩ := pass h fun _ => rfl
  change Ends address s₁ ((addresses.mapM (fun a => perform (.read a)) >>= _) >>= f) rest a s' at h₁
  rw [bind_assoc] at h₁
  obtain ⟨s₂,records,rest₂,hsame₂,hsub₂,h₂⟩ := h₁.reads
  exact ⟨s₂,_,rest₂,hsame₂.trans hsame,List.Subset.trans hsub₂ hsub,h₂⟩

end Ends

theorem Told.mono {ops ops' : List Op} (h : Told ops) (hsub : ops ⊆ ops') : Told ops' := by
  rcases h with ⟨e,he⟩ | ⟨m,hm⟩
  · exact .inl ⟨e,hsub he⟩
  · exact .inr ⟨m,hsub hm⟩

/-- How a handler may end: with an error and the record changed as the request has it, or
with success and the change, if any, told. -/
def Ended (address : SocketAddr) (s : ManagementServer) (packet : Packet) (ops : List Op)
    (result : Except ServerError Unit) (s' : ManagementServer) : Prop :=
  (∃ e, result = .error e ∧
    s'.users.lookup address = (s.users.lookup address).map (change packet)) ∨
  result = .ok () ∧ (s'.users.lookup address = s.users.lookup address ∨ Told ops)

section Handlers
variable {address : SocketAddr} {s s' : ManagementServer} {ops : List Op}
  {result : Except ServerError Unit}

/-- A response with nothing behind it. -/
theorem response_ended {packet response : Packet} (hkeeps : ∀ u, change packet u = u)
    (h : Ends address s (.op (.encode response) fun data => writing data (.ret (.ok ()))) ops
      result s') : Ended address s packet ops result s' := by
  have hsame : (s.users.lookup address).map (change packet) = s.users.lookup address := by
    rw [show change packet = id from funext hkeeps,Option.map_id_fun,id]
  obtain ⟨s₁,data,rest,hsame₁,_,h₁⟩ := Ends.pass h fun _ => rfl
  rcases h₁.writing_inv with ⟨hresult,hlast⟩ | ⟨s₂,rest₂,hsame₂,_,h₂⟩
  · exact .inl ⟨_,hresult,by rw [hlast,hsame₁,hsame]⟩
  · obtain ⟨hresult,hlast⟩ := h₂.ret_inv
    exact .inr ⟨hresult,.inl (hlast.trans (hsame₂.trans hsame₁))⟩

theorem changeVoice_ended {packet response : Packet} {inVoice : Bool} {event : UInt64 → Event}
    {announcement : UInt64 → Packet}
    (hchange : change packet = fun u => { u with inVoice := inVoice, isMuted := false })
    (h : Ends address s (changeVoice address inVoice response event announcement).run ops
      result s') : Ended address s packet ops result s' := by
  rw [changeVoice_run,← hchange] at h
  obtain ⟨s₁,rest₁,hrecord,hsub₁,h₁⟩ := Ends.update h
  cases hu : s.users.lookup address with
  | none =>
    rw [hu] at h₁
    obtain ⟨hresult,hlast⟩ := h₁.ret_inv
    exact .inl ⟨_,hresult,hlast.trans hrecord⟩
  | some u =>
    rw [hu] at h₁
    obtain ⟨s₂,data,rest₂,hsame₂,hsub₂,h₂⟩ := Ends.pass h₁ fun _ => rfl
    rcases h₂.writing_inv with ⟨hresult,hlast⟩ | ⟨s₃,rest₃,_,hsub₃,h₃⟩
    · exact .inl ⟨_,hresult,hlast.trans (hsame₂.trans hrecord)⟩
    · obtain ⟨s₄,_,rest₄,_,hsub₄,h₄⟩ := Ends.pass h₃ fun _ => rfl
      obtain ⟨hresult,htold⟩ := h₄.announced
      exact .inr ⟨hresult,.inr ((((htold.mono hsub₄).mono hsub₃).mono hsub₂).mono hsub₁)⟩

theorem login_ended {requestId : UInt64} {username : String}
    (h : Ends address s (handleLoginRequest address requestId username).run ops result s') :
    Ended address s (.loginRequest requestId username) ops result s' := by
  cases hv : validUsername username with
  | false =>
    rw [handleLoginRequest_run_invalid address hv] at h
    exact response_ended (fun u => by simp [change,hv]) h
  | true =>
    have hchange : change (.loginRequest requestId username) =
        fun u => { u with username := some username } := by
      funext u
      simp [change,hv]
    rw [handleLoginRequest_run_valid address hv,← hchange] at h
    obtain ⟨s₁,rest₁,hrecord,hsub₁,h₁⟩ := Ends.update h
    cases hu : s.users.lookup address with
    | none =>
      rw [hu] at h₁
      obtain ⟨hresult,hlast⟩ := h₁.ret_inv
      exact .inl ⟨_,hresult,hlast.trans hrecord⟩
    | some u =>
      rw [hu] at h₁
      obtain ⟨s₂,participants,rest₂,hsame₂,hsub₂,h₂⟩ := Ends.collected h₁
      obtain ⟨s₃,data,rest₃,hsame₃,hsub₃,h₃⟩ := Ends.pass h₂ fun _ => rfl
      rcases h₃.writing_inv with ⟨hresult,hlast⟩ | ⟨s₄,rest₄,_,hsub₄,h₄⟩
      · exact .inl ⟨_,hresult,hlast.trans (hsame₃.trans (hsame₂.trans hrecord))⟩
      · obtain ⟨hresult,htold⟩ := h₄.announced
        exact .inr ⟨hresult,.inr ((((htold.mono hsub₄).mono hsub₃).mono hsub₂).mono hsub₁)⟩

theorem chat_ended {requestId : UInt64} {message : String}
    (h : Ends address s (handleChatMessageRequest address requestId message).run ops result s') :
    Ended address s (.chatMessageRequest requestId message) ops result s' := by
  have hsame : (s.users.lookup address).map (change (.chatMessageRequest requestId message)) =
      s.users.lookup address := Option.map_id'
  rw [handleChatMessageRequest_run] at h
  obtain ⟨s₁,r,rest₁,hsame₁,hsub₁,h₁⟩ := Ends.pass h fun _ => rfl
  cases r with
  | none =>
    obtain ⟨hresult,hlast⟩ := h₁.ret_inv
    exact .inl ⟨_,hresult,by rw [hlast,hsame₁,hsame]⟩
  | some u =>
    obtain ⟨s₂,data,rest₂,hsame₂,hsub₂,h₂⟩ := Ends.pass h₁ fun _ => rfl
    rcases h₂.writing_inv with ⟨hresult,hlast⟩ | ⟨s₃,rest₃,_,hsub₃,h₃⟩
    · exact .inl ⟨_,hresult,by rw [hlast,hsame₂,hsame₁,hsame]⟩
    · obtain ⟨s₄,_,rest₄,_,hsub₄,h₄⟩ := Ends.pass h₃ fun _ => rfl
      obtain ⟨hresult,htold⟩ := h₄.announced
      exact .inr ⟨hresult,.inr ((((htold.mono hsub₄).mono hsub₃).mono hsub₂).mono hsub₁)⟩

theorem handlePacket_ended {packet : Packet}
    (h : Ends address s (handlePacket address packet).run ops result s') :
    Ended address s packet ops result s' := by
  cases packet with
  | loginRequest requestId username => exact login_ended h
  | joinVoiceChannelRequest requestId => exact changeVoice_ended rfl h
  | leaveVoiceChannelRequest requestId => exact changeVoice_ended rfl h
  | chatMessageRequest requestId message => exact chat_ended h
  | pingRequest requestId =>
    rw [handlePacket,handlePingRequest_run] at h
    exact response_ended (fun _ => rfl) h
  | userMuteState userId isMuted =>
    rw [handlePacket,handleUserMuteState_run] at h
    obtain ⟨s₁,rest₁,hrecord,hsub₁,h₁⟩ := Ends.update h
    cases hu : s.users.lookup address with
    | none =>
      rw [hu] at h₁ hrecord
      obtain ⟨hresult,hlast⟩ := h₁.ret_inv
      exact .inl ⟨_,hresult,by rw [hlast,hrecord,hu]; rfl⟩
    | some u =>
      rw [hu] at h₁
      obtain ⟨hresult,htold⟩ := h₁.announced
      exact .inr ⟨hresult,.inr (htold.mono hsub₁)⟩
  | _ =>
    obtain ⟨hresult,hlast⟩ := h.ret_inv
    exact .inr ⟨hresult,.inl hlast⟩

/-- A request that changes the record can fail behind the change. -/
theorem change_fails {packet : Packet} {u : User} (hu : s.users.lookup address = some u)
    (hne : change packet u ≠ u) : ∃ ops e s',
      Ends address s (handlePacket address packet).run ops (.error e) s' ∧
        s'.users.lookup address = some (change packet u) := by
  have hupdate : ∀ f : User → User, (s.perform (.getMut address f)).users.lookup address =
      some (f u) := by
    intro f
    simp [ManagementServer.perform,Table.lookup_modify,hu]
  have hvoice : ∀ (inVoice : Bool) (response : Packet) (event : UInt64 → Event)
      (announcement : UInt64 → Packet), (∃ data, response.encode = some data) → ∃ ops e s',
        Ends address s (changeVoice address inVoice response event announcement).run ops (.error e) s' ∧
          s'.users.lookup address = some { u with inVoice := inVoice, isMuted := false } := by
    rintro inVoice response event announcement ⟨data,hdata⟩
    rw [changeVoice_run]
    refine ⟨_,.io,_,.op (r := some { u with inVoice := inVoice, isMuted := false }) ?_
      (.op (o := .encode response) (r := data) hdata (.writing_fails _ _ _)),hupdate _⟩
    change _ = (s.users.lookup address).map _
    rw [hu]
    rfl
  cases packet with
  | joinVoiceChannelRequest requestId =>
    exact hvoice _ _ _ _ (Packet.plain_encodes _ rfl rfl (by simp [Packet.payloadLen]))
  | leaveVoiceChannelRequest requestId =>
    exact hvoice _ _ _ _ (Packet.plain_encodes _ rfl rfl (by simp [Packet.payloadLen]))
  | loginRequest requestId username =>
    cases hv : validUsername username with
    | false => simp [change,hv] at hne
    | true =>
      have hlen := validUsername_length hv
      have hchange : change (.loginRequest requestId username) u =
          { u with username := some username } := by simp [change,hv]
      let named : User := { u with username := some username }
      -- the others have left by the time the participants are collected
      let alone : ManagementServer := { s with users := (∅ : Table SocketAddr User).insert address named }
      have hlone : alone.users.lookup address = some named := Finmap.lookup_insert _
      obtain ⟨data,hdata⟩ := (Packet.encode_isSome_iff (.loginResponse requestId u.id u.token
        [⟨u.id,username,u.inVoice,u.isMuted⟩])).mpr (by
          simp only [Packet.strings,Packet.participantCount,Packet.payloadLen,List.map_cons,
            List.map_nil,List.mem_singleton,forall_eq,ParticipantInfo.payloadLen,List.length_cons,
            List.length_nil,List.sum_cons,List.sum_nil]
          omega)
      have hkeys : alone.Answers .keys [address] := by
        refine ⟨List.nodup_singleton _,fun a v ha => ?_⟩
        rw [Table.lookup_insert_eq] at ha
        split at ha
        · rename_i heq
          exact List.mem_singleton.mpr heq
        · simp at ha
      rw [hchange]
      change ∃ ops e s', Ends address s (handleLoginRequest address requestId username).run ops
        (.error e) s' ∧ _
      rw [handleLoginRequest_run_valid address hv]
      refine ⟨_,.io,alone,.op (r := some named) ?_ (@Ends.others _ _ _ alone _ _ _ _ ?_
        (.op (o := .keys) (r := [address]) hkeys (.op (o := .read address) (r := some named) hlone.symm
          (.op (o := .encode _) (r := data) hdata (.writing_fails alone data _))))),hlone⟩
      · change _ = (s.users.lookup address).map _
        rw [hu]
        rfl
      · rw [hlone,hupdate]
  | _ => exact (hne rfl).elim

end Handlers

/-- A failed request leaves the record as it was, and every change is told, exactly if the
request has nothing to change. -/
theorem failed_request_iff (address : SocketAddr) (s : ManagementServer) (packet : Packet) :
    (FailsClean address s packet ∧ ChangesTold address s packet) ↔
      ∀ u, s.users.lookup address = some u → change packet u = u := by
  constructor
  · rintro ⟨hclean,_⟩ u hu
    by_contra hne
    obtain ⟨ops,e,s',hends,hlast⟩ := change_fails hu hne
    have hsame := hclean ops e s' hends
    rw [hlast,hu] at hsame
    exact hne (Option.some.inj hsame)
  · intro hidle
    have hsame : (s.users.lookup address).map (change packet) = s.users.lookup address := by
      cases hu : s.users.lookup address with
      | none => rfl
      | some u => exact congrArg some (hidle u hu)
    constructor
    · intro ops e s' h
      rcases handlePacket_ended h with ⟨_,_,hlast⟩ | ⟨hresult,_⟩
      · exact hlast.trans hsame
      · cases hresult
    · intro ops result s' h hchanged
      rcases handlePacket_ended h with ⟨_,_,hlast⟩ | ⟨_,hunchanged | htold⟩
      · exact (hchanged (hlast.trans hsame)).elim
      · exact (hchanged hunchanged).elim
      · exact htold

/-- User 1 asks to join and the write of the response fails: the connection goes on with
the record in voice, and neither the relay nor anybody else has been told. -/
theorem failed_join_stays : ∃ trace s c, Run (Guarded liveApart.guard Step) .new trace s ∧
    s.connections.lookup 1 = some c ∧ c.address = .v4 1 1 ∧ c.phase = .select [] ∧
    s.users.lookup (.v4 1 1) = some ⟨1,none,true,false,11⟩ ∧ s.broadcasts = [] ∧
    s.events = [.userConnected 1 11] ∧
    ¬ FailsClean (.v4 1 1) solo (.joinVoiceChannelRequest 7) := by
  have hguard : ∀ s label, liveApart.guard s label → (∀ id r, label ≠ .read id r) →
      (∀ id r, label ≠ .recv id r) → liveApart.guard s label := fun _ _ h _ _ => h
  have hdata : (Packet.joinVoiceChannelRequest 7).encode = some [2,0,8,0,0,0,0,0,0,0,7] := by decide
  obtain ⟨response,hresponse⟩ := Packet.plain_encodes (.joinVoiceChannelResponse 7 true) rfl rfl
    (by simp [Packet.payloadLen])
  let joining (u : User) : User := { u with inVoice := true, isMuted := false }
  have hprogram := handleRead_joinVoiceChannelRequest (.v4 1 1) hdata
  have hrecord : solo.Answers (.getMut (.v4 1 1) joining) (some ⟨1,none,true,false,11⟩) := rfl
  have hjoined : (solo.perform (.getMut (.v4 1 1) joining)).users.lookup (.v4 1 1) =
      some ⟨1,none,true,false,11⟩ := rfl
  have h₁ := (run_solo hguard).snoc ⟨liveApart_guard (by simp),step_read
    (r := .ok [2,0,8,0,0,0,0,0,0,0,7]) rfl (by decide)⟩
  have h₂ := h₁.snoc (guarded_exec hguard
    (step_exec (congrArg Phase.ofProgram hprogram) hrecord rfl))
  have h₃ := h₂.snoc (guarded_exec hguard
    (step_exec (o := .encode _) (r := response) rfl hresponse rfl))
  have h₄ := h₃.snoc (guarded_exec hguard
    (step_exec (o := .write response) (r := false) (b := []) rfl trivial List.nil_prefix))
  refine ⟨_,_,_,h₄,ManagementServer.setConnection_own _ _ _,rfl,rfl,hjoined,rfl,rfl,?_⟩
  intro hclean
  obtain ⟨ops,e,s',hends,hlast⟩ := change_fails
    (show solo.users.lookup (.v4 1 1) = some ⟨1,none,false,false,11⟩ from rfl)
    (show change (.joinVoiceChannelRequest 7) _ ≠ _ by decide)
  have hsame := (hclean ops e s' hends).symm.trans hlast
  revert hsame
  decide

end VoiceApp.Management
