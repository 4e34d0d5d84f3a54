import VoiceApp.Management.Server

/-! # What one task does to its own record and announcements

The ledger of a connection is the part of the shared state that only its own task
changes: its record, what the relay has been told about it, and its farewells. A handler
of a packet leaves the ledger steady; leaving for good removes the record and says so.
-/
namespace VoiceApp.Management
open Protocol Server

/-- What an event says about the session of `id`: its token, and whether it is in voice. -/
def sessionStep (id : UInt64) (x : Option (UInt64 × Bool)) : Event → Option (UInt64 × Bool)
  | .userConnected id' token => if id' = id then some (token,false) else x
  | .voiceJoined id' => if id' = id then x.map fun p => (p.1,true) else x
  | .voiceLeft id' => if id' = id then x.map fun p => (p.1,false) else x
  | .userDisconnected id' => if id' = id then none else x

/-- The session of `id` after these events. -/
def sessionOf (id : UInt64) (events : List Event) : Option (UInt64 × Bool) :=
  events.foldl (sessionStep id) none

/-- The packet as a farewell of `id`, if it is one. -/
def takesLeave (id : UInt64) : Packet → Option Packet
  | .userLeftServer userId => if userId = id then some (.userLeftServer id) else none
  | .userLeftVoice userId => if userId = id then some (.userLeftVoice id) else none
  | _ => none

def farewell (id : UInt64) (m : BroadcastMessage) : Option Packet :=
  match Packet.decode m.data with
  | .ok (packet,_) => takesLeave id packet
  | .error _ => none

theorem farewell_encode {packet : Packet} {data : Bytes} (h : packet.encode = some data)
    (id : UInt64) (exclude : Option SocketAddr) : farewell id ⟨exclude,data⟩ = takesLeave id packet := by
  unfold farewell
  rw [Packet.decode_self h]

def farewells (id : UInt64) (broadcasts : List BroadcastMessage) : List Packet :=
  broadcasts.filterMap (farewell id)

/-- The record that the task of `id` took out of the users map, if the label is that step. -/
def Label.removed (id : UInt64) : Label → Option User
  | .exec id' (.remove _) r => if id' = id then r else none
  | _ => none

def departed (id : UInt64) (trace : Trace) : List User := trace.filterMap (Label.removed id)

/-- The state of a connection's own affairs. -/
structure Ledger where
  own : Option User
  session : Option (UInt64 × Bool)
  farewells : List Packet
  departed : List User

def ledger (trace : Trace) (s : ManagementServer) (id : UInt64) (address : SocketAddr) : Ledger :=
  ⟨s.users.lookup address,sessionOf id s.events,farewells id s.broadcasts,departed id trace⟩

section Discipline
variable (reliable : Prop) (id token : UInt64) (address : SocketAddr)

/-- The task touches no record but its own, sends no event and no farewell but about its
own id, and does not rename its record. While the network is `reliable` no write fails. -/
def discipline : Discipline Op Op.Res Ledger where
  rely := Eq
  answers g
    | .getMut a update,r => a = address → r = g.own.map update
    | .get a,r => a = address → r = g.own
    | .remove a,r => a = address → r = g.own
    | .encode packet,r => packet.encode = some r
    | .write _,r => reliable → r = true
    | _,_ => True
  effect g
    | .getMut a update,r,g' => a = address ∧ (∀ u, (update u).id = u.id) ∧ g' = { g with own := r }
    | .remove a,r,g' => a = address ∧
      g' = { g with own := none, departed := g.departed ++ r.toList }
    | .broadcast m,_,g' => (∀ id', id' ≠ id → farewell id' m = none) ∧
      g' = { g with farewells := g.farewells ++ (farewell id m).toList }
    | .send e,_,g' => (e = .voiceJoined id ∨ e = .voiceLeft id) ∧
      g' = { g with session := sessionStep id g.session e }
    | _,_,g' => g' = g
  rely_refl := Eq.refl
  rely_trans := Eq.trans

/-- The record is there, nothing has been said about leaving, and the relay has been told
the truth. -/
structure Steady (g : Ledger) : Prop where
  record : ∃ u, g.own = some u ∧ u.id = id ∧ u.token = token ∧
    (reliable → g.session = some (token,u.inVoice))
  stays : g.departed = []
  silent : .userLeftServer id ∉ g.farewells

/-- The record has been taken out and every client told, as the last thing about it. -/
structure TakenLeave (g : Ledger) : Prop where
  record : g.own = none
  told : ∃ u before, g.departed = [u] ∧ .userLeftServer id ∉ before ∧
    g.farewells = before ++ .userLeftServer id :: if u.inVoice then [.userLeftVoice id] else []

/-- The ledger behind each of the four ways out. -/
def Gone : Exit → Ledger → Prop
  | .eof => TakenLeave id
  | .readError => TakenLeave id
  | .broadcastWriteFailed => Steady reliable id token
  | .broadcastClosed => Steady reliable id token

def AfterBranch : Outcome → Ledger → Prop
  | .proceed _ => Steady reliable id token
  | .exit e => Gone reliable id token e

end Discipline

section Programs
variable {reliable : Prop} {id token : UInt64} {address : SocketAddr} {A : Type}
  {post : A → Ledger → Prop} {g : Ledger}

/-- The program keeps the discipline from this ledger on, and its results satisfy `post`. -/
abbrev Within (reliable : Prop) (id : UInt64) (address : SocketAddr) (post : A → Ledger → Prop)
    (p : HandlerM A) (g : Ledger) : Prop :=
  (discipline reliable id address).wp post p g

theorem within_ret {a : A} (h : post a g) : Within reliable id address post (.ret a) g := by
  intro g' hr
  cases hr
  exact h

theorem within_encode {packet : Packet} {k : Bytes → HandlerM A}
    (h : ∀ data, packet.encode = some data → Within reliable id address post (k data) g) :
    Within reliable id address post (.op (.encode packet) k) g := by
  intro g' hr data hdata
  cases hr
  exact ⟨g,rfl,h data hdata⟩

theorem within_writing {post : Except ServerError Unit → Ledger → Prop} {data : Bytes}
    {k : HandlerM (Except ServerError Unit)} (hfailed : ¬ reliable → post (.error .io) g)
    (h : Within reliable id address post k g) :
    Within reliable id address post (writing data k) g := by
  intro g' hr written hans
  cases hr
  refine ⟨g,rfl,?_⟩
  cases written with
  | true => exact h
  | false =>
    apply within_ret
    apply hfailed
    intro hrel
    cases hans hrel

/-- A change of the own record that keeps its id. -/
theorem within_update {update : User → User} {k : Option User → HandlerM A} {u : User}
    (hown : g.own = some u) (hid : ∀ u, (update u).id = u.id)
    (h : Within reliable id address post (k (some (update u))) { g with own := some (update u) }) :
    Within reliable id address post (.op (.getMut address update) k) g := by
  intro g' hr r hans
  cases hr
  obtain rfl : r = some (update u) := by
    rw [hans rfl,hown]
    rfl
  exact ⟨_,⟨rfl,hid,rfl⟩,h⟩

/-- An operation that leaves the ledger alone. -/
theorem within_pass {o : Op} {k : o.Res → HandlerM A}
    (heffect : ∀ r, (discipline reliable id address).effect g o r g)
    (h : ∀ r, Within reliable id address post (k r) g) :
    Within reliable id address post (.op o k) g := by
  intro g' hr r _
  cases hr
  exact ⟨g,heffect r,h r⟩

/-- Announcing a packet adds the farewell that it is, if any. -/
theorem within_announcing {exclude : Option SocketAddr} {packet : Packet} {k : HandlerM A}
    (hothers : ∀ id', id' ≠ id → takesLeave id' packet = none)
    (h : Within reliable id address post k
      { g with farewells := g.farewells ++ (takesLeave id packet).toList }) :
    Within reliable id address post (announcing exclude packet k) g := by
  apply within_encode
  intro data hdata g' hr _ _
  cases hr
  refine ⟨_,⟨fun id' hne => ?_,rfl⟩,?_⟩
  · rw [farewell_encode hdata]
    exact hothers id' hne
  · rw [farewell_encode hdata]
    exact h

/-- Looking through the users map changes nothing. -/
theorem collectParticipants_within :
    Within reliable id address (fun _ g' => g' = g) collectParticipants g := by
  refine within_pass (fun _ => rfl) fun addresses => ?_
  change Within reliable id address _ (addresses.mapM (fun a => perform (.read a)) >>= _) g
  have hreads := Discipline.wp_mapM (D := discipline reliable id address)
    (f := fun a => perform (.read a)) (fun _ _ g' => g' = g)
    (fun _ _ g₁ g₂ hr h => by cases hr; exact h)
    (fun _ _ _ _ h => within_pass (fun _ => rfl) fun _ => within_ret h)
    addresses [] g rfl
  refine Discipline.wp_bind (Discipline.wp_mono ?_ hreads)
  intro records g₁ h
  exact within_ret h

theorem Steady.announce {g : Ledger} (h : Steady reliable id token g) {packet : Packet}
    (hnot : takesLeave id packet ≠ some (.userLeftServer id)) :
    Steady reliable id token { g with farewells := g.farewells ++ (takesLeave id packet).toList } := by
  refine ⟨h.record,h.stays,?_⟩
  intro hmem
  rcases List.mem_append.mp hmem with hmem | hmem
  · exact h.silent hmem
  · exact hnot (Option.mem_toList.mp hmem)

/-- Entering and leaving voice keeps the record and the relay in step, unless the write of
the response fails in between. -/
theorem changeVoice_steady {inVoice : Bool} {response : Packet} {event : UInt64 → Event}
    {announcement : UInt64 → Packet} (h : Steady reliable id token g)
    (hevent : event id = .voiceJoined id ∨ event id = .voiceLeft id)
    (hsession : ∀ x, sessionStep id x (event id) = x.map fun p => (p.1,inVoice))
    (hothers : ∀ id', id' ≠ id → takesLeave id' (announcement id) = none)
    (hnot : takesLeave id (announcement id) ≠ some (.userLeftServer id)) :
    Within reliable id address (fun _ => Steady reliable id token)
      (changeVoice address inVoice response event announcement).run g := by
  obtain ⟨⟨u,hown,rfl,htok,hses⟩,hstays,hsilent⟩ := h
  rw [changeVoice_run]
  refine within_update hown (fun _ => rfl) ?_
  apply within_encode
  intro data _
  apply within_writing
  · intro hfails
    exact ⟨⟨_,rfl,rfl,htok,fun hrel => (hfails hrel).elim⟩,hstays,hsilent⟩
  · intro g' hr _ _
    cases hr
    have hsteady : Steady reliable u.id token { g with
        own := some { u with inVoice := inVoice, isMuted := false }
        session := sessionStep u.id g.session (event u.id) } := by
      refine ⟨⟨_,rfl,rfl,htok,fun hrel => ?_⟩,hstays,hsilent⟩
      simp only [hsession,hses hrel,Option.map_some]
    refine ⟨_,⟨hevent,rfl⟩,?_⟩
    apply within_announcing hothers
    exact within_ret (hsteady.announce hnot)

theorem handleLoginRequest_steady (h : Steady reliable id token g) (requestId : UInt64)
    (username : String) : Within reliable id address (fun _ => Steady reliable id token)
      (handleLoginRequest address requestId username).run g := by
  cases hv : validUsername username with
  | false =>
    rw [handleLoginRequest_run_invalid address hv]
    apply within_encode
    intro data _
    exact within_writing (fun _ => h) (within_ret h)
  | true =>
    obtain ⟨⟨u,hown,hid,htok,hses⟩,hstays,hsilent⟩ := h
    rw [handleLoginRequest_run_valid address hv]
    have hsteady : Steady reliable id token { g with own := some { u with username := some username } } :=
      ⟨⟨_,rfl,hid,htok,hses⟩,hstays,hsilent⟩
    refine within_update hown (fun _ => rfl) ?_
    refine Discipline.wp_bind (Discipline.wp_mono ?_ collectParticipants_within)
    rintro participants g' rfl
    apply within_encode
    intro data _
    refine within_writing (fun _ => hsteady) ?_
    apply within_announcing (fun _ _ => rfl)
    apply within_ret
    exact hsteady.announce (by simp [takesLeave])

theorem handleChatMessageRequest_steady (h : Steady reliable id token g) (requestId : UInt64)
    (message : String) : Within reliable id address (fun _ => Steady reliable id token)
      (handleChatMessageRequest address requestId message).run g := by
  rw [handleChatMessageRequest_run]
  refine within_pass (fun _ => rfl) fun r => ?_
  cases r with
  | none => exact within_ret h
  | some user =>
    apply within_encode
    intro data _
    refine within_writing (fun _ => h) ?_
    refine within_pass (fun _ => rfl) fun timestamp => ?_
    apply within_announcing (fun _ _ => rfl)
    exact within_ret (h.announce (by simp [takesLeave]))

theorem handleUserMuteState_steady (h : Steady reliable id token g) (userId : UInt64)
    (isMuted : Bool) : Within reliable id address (fun _ => Steady reliable id token)
      (handleUserMuteState address userId isMuted).run g := by
  obtain ⟨⟨u,hown,hid,htok,hses⟩,hstays,hsilent⟩ := h
  rw [handleUserMuteState_run]
  have hsteady : Steady reliable id token { g with own := some { u with isMuted := isMuted } } :=
    ⟨⟨_,rfl,hid,htok,hses⟩,hstays,hsilent⟩
  refine within_update hown (fun _ => rfl) ?_
  apply within_announcing (fun _ _ => rfl)
  exact within_ret (hsteady.announce (by simp [takesLeave]))

/-- Whatever packet it handles, the handler leaves its ledger steady. -/
theorem handlePacket_steady (h : Steady reliable id token g) (packet : Packet) :
    Within reliable id address (fun _ => Steady reliable id token)
      (handlePacket address packet).run g := by
  cases packet with
  | loginRequest requestId username => exact handleLoginRequest_steady h requestId username
  | joinVoiceChannelRequest requestId =>
    refine changeVoice_steady h (.inl rfl) (fun x => ?_) (fun _ _ => rfl) (by simp [takesLeave])
    simp [sessionStep]
  | leaveVoiceChannelRequest requestId =>
    refine changeVoice_steady h (.inr rfl) (fun x => ?_) (fun id' hne => ?_) (by simp [takesLeave])
    · simp [sessionStep]
    · simp [takesLeave,Ne.symm hne]
  | chatMessageRequest requestId message => exact handleChatMessageRequest_steady h requestId message
  | pingRequest requestId =>
    rw [handlePacket,handlePingRequest_run]
    apply within_encode
    intro data _
    exact within_writing (fun _ => h) (within_ret h)
  | userMuteState userId isMuted => exact handleUserMuteState_steady h userId isMuted
  | _ => exact within_ret h

theorem handleDisconnect_takesLeave (h : Steady reliable id token g) :
    Within reliable id address (fun _ => TakenLeave id) (handleDisconnect address) g := by
  obtain ⟨⟨u,hown,hid,htok,hses⟩,hstays,hsilent⟩ := h
  rw [handleDisconnect_eq]
  intro g' hr r hans
  cases hr
  obtain rfl : r = some u := by rw [hans rfl,hown]
  refine ⟨_,⟨rfl,rfl⟩,?_⟩
  simp only [hid]
  apply within_announcing (fun id' hne => by simp [takesLeave,Ne.symm hne])
  have hleft : takesLeave id (.userLeftServer id) = some (.userLeftServer id) := if_pos rfl
  have hvoice : takesLeave id (.userLeftVoice id) = some (.userLeftVoice id) := if_pos rfl
  cases hv : u.inVoice with
  | false =>
    apply within_ret
    refine ⟨rfl,u,g.farewells,?_,hsilent,?_⟩
    · simp [hstays]
    · simp [hleft,hv]
  | true =>
    apply within_announcing (fun id' hne => by simp [takesLeave,Ne.symm hne])
    apply within_ret
    refine ⟨rfl,u,g.farewells,?_,hsilent,?_⟩
    · simp [hstays]
    · simp [hleft,hvoice,hv]

/-- The read branch keeps the ledger steady or takes leave. -/
theorem handleRead_afterBranch (h : Steady reliable id token g) (packetBuffer : Bytes)
    (r : ReadResult) : Within reliable id address (AfterBranch reliable id token)
      (handleRead address packetBuffer r) g := by
  refine handleRead_wp (fun _ => Steady reliable id token) (fun _ _ _ hr h => by cases hr; exact h)
    (fun packet _ _ h => handlePacket_steady h packet) (fun _ _ _ hr h => by cases hr; exact h) ?_
    (fun _ _ _ => h) (fun _ _ _ _ h => h)
  intro e he
  have htakes : Within reliable id address (fun _ => TakenLeave id) (handleDisconnect address) g :=
    handleDisconnect_takesLeave h
  rcases he with ⟨_,rfl⟩ | ⟨_,rfl⟩
  · exact htakes
  · exact htakes

/-- The broadcast branch does not touch the ledger. -/
theorem handleRecv_afterBranch (h : Steady reliable id token g) (packetBuffer : Bytes)
    (r : RecvResult) : Within reliable id address (AfterBranch reliable id token)
      (handleRecv address packetBuffer r) g := by
  cases r with
  | lagged => exact within_ret h
  | closed => exact within_ret h
  | ok message =>
    have hmessage : Within reliable id address (fun _ => Steady reliable id token)
        (handleBroadcastMessage address message).run g := by
      rw [handleBroadcastMessage_run]
      split
      · exact within_writing (fun _ => h) (within_ret h)
      · exact within_ret h
    refine Discipline.wp_bind (Discipline.wp_mono ?_ hmessage)
    intro result g' hg'
    cases result with
    | ok => exact within_ret hg'
    | error => exact within_ret hg'

end Programs
end VoiceApp.Management
