import VoiceApp.Management.Agreement
import VoiceApp.Management.Operations
import VoiceApp.Management.RecordReuse

/-! # On whose behalf a task speaks

Every announcement of a task goes back to a packet that the task has received, and it is
about the user of the connection; the client's own words are passed on as they are. Only the
farewell has no packet behind it. The same holds of what the relay is told of a user in
between.
-/
namespace VoiceApp.Management
open Protocol Server Framing

/-- What the others are told of the user because of its packet. -/
def Causes (userId : UInt64) : Packet → Packet → Prop
  | .loginRequest _ username,.userJoinedServer participant =>
    validUsername username = true ∧ participant = ⟨userId,username,false,false⟩
  | .joinVoiceChannelRequest _,.userJoinedVoice id => id = userId
  | .leaveVoiceChannelRequest _,.userLeftVoice id => id = userId
  | .chatMessageRequest _ message,.userSentMessage id _ message' => id = userId ∧ message' = message
  | .userMuteState id isMuted,.userMuteState id' isMuted' => id' = id ∧ isMuted' = isMuted
  | _,_ => False

/-- What the relay is told of the user because of its packet. -/
def Moves (userId : UInt64) : Packet → Event → Prop
  | .joinVoiceChannelRequest _,.voiceJoined id => id = userId
  | .leaveVoiceChannelRequest _,.voiceLeft id => id = userId
  | _,_ => False

/-- The user that joins or leaves the channel. -/
def mover : Event → Option UInt64
  | .voiceJoined id => some id
  | .voiceLeft id => some id
  | _ => none

theorem Moves.mover {userId : UInt64} {request : Packet} {e : Event} (h : Moves userId request e) :
    mover e = some userId := by
  cases request <;> cases e <;> first | exact congrArg some h | exact h.elim

/-- What the others are told when the connection ends. -/
def lastWords (userId : UInt64) : List Packet := [.userLeftServer userId,.userLeftVoice userId]

/-- The user an event is about, where the server takes the id from its own record. -/
def speaker : Packet → Option UInt64
  | .userMuteState .. => none
  | packet => named packet

theorem Causes.speaker {userId : UInt64} {request event : Packet} (h : Causes userId request event) :
    speaker event = none ∨ speaker event = some userId := by
  cases request <;> cases event <;> first | exact h.elim | skip
  case loginRequest.userJoinedServer =>
    obtain ⟨_,rfl⟩ := h
    exact .inr rfl
  case chatMessageRequest.userSentMessage => exact .inr (congrArg some h.1)
  case userMuteState.userMuteState => exact .inl rfl
  all_goals exact .inr (congrArg some h)

theorem lastWords_speaker {userId : UInt64} {event : Packet} (h : event ∈ lastWords userId) :
    speaker event = some userId := by
  rcases List.mem_pair.mp h with rfl | rfl <;> rfl

theorem speaker_isEvent {event : Packet} {userId : UInt64} (h : speaker event = some userId) :
    event.isEvent = true := by
  cases event <;> first | rfl | cases h

/-- What was announced against what was received: each event goes back to a packet of its
own, in their order. -/
def Authored (userId : UInt64) (handled : List Packet) (posted : List Bytes) : Prop :=
  ∃ requests events, requests.Sublist handled ∧ List.Forall₂ (Causes userId) requests events ∧
    Framer.Encoded Packet.encode events posted

/-- The same for what the relay was told. -/
def Moved (userId : UInt64) (handled : List Packet) (told : List Event) : Prop :=
  ∃ requests, requests.Sublist handled ∧ List.Forall₂ (Moves userId) requests told

/-- The same with the farewell behind it, if it has begun. -/
def Attributed (userId : UInt64) (handled : List Packet) (posted : List Bytes) : Prop :=
  ∃ requests events last, requests.Sublist handled ∧ List.Forall₂ (Causes userId) requests events ∧
    last.Sublist (lastWords userId) ∧ Framer.Encoded Packet.encode (events ++ last) posted

namespace Authored
variable {userId : UInt64} {handled more : List Packet} {posted : List Bytes}

theorem nil : Authored userId handled [] := ⟨[],[],List.nil_sublist _,.nil,.nil⟩

theorem mono (h : Authored userId handled posted) (hmore : handled.Sublist more) :
    Authored userId more posted := by
  obtain ⟨requests,events,hrequests,hcauses,hposted⟩ := h
  exact ⟨requests,events,hrequests.trans hmore,hcauses,hposted⟩

theorem attributed (h : Authored userId handled posted) : Attributed userId handled posted := by
  obtain ⟨requests,events,hrequests,hcauses,hposted⟩ := h
  refine ⟨requests,events,[],hrequests,hcauses,List.nil_sublist _,?_⟩
  rwa [List.append_nil]

theorem event {request event : Packet} {data : Bytes} (h : Authored userId handled posted)
    (hcauses : Causes userId request event) (hdata : event.encode = some data) :
    Authored userId (handled ++ [request]) (posted ++ [data]) := by
  obtain ⟨requests,events,hrequests,hall,hposted⟩ := h
  exact ⟨requests ++ [request],events ++ [event],hrequests.append_right [request],
    List.rel_append hall (.cons hcauses .nil),List.rel_append hposted (.cons hdata .nil)⟩

theorem leave (h : Authored userId handled posted) {last : List Packet} {datas : List Bytes}
    (hlast : last.Sublist (lastWords userId)) (hdatas : Framer.Encoded Packet.encode last datas) :
    Attributed userId handled (posted ++ datas) := by
  obtain ⟨requests,events,hrequests,hall,hposted⟩ := h
  exact ⟨requests,events,last,hrequests,hall,hlast,List.rel_append hposted hdatas⟩

end Authored

theorem Attributed.mono {userId : UInt64} {handled more : List Packet} {posted : List Bytes}
    (h : Attributed userId handled posted) (hmore : handled.Sublist more) : Attributed userId more posted := by
  obtain ⟨requests,events,last,hrequests,hcauses,hlast,hposted⟩ := h
  exact ⟨requests,events,last,hrequests.trans hmore,hcauses,hlast,hposted⟩

namespace Moved
variable {userId : UInt64} {handled more : List Packet} {told : List Event}

theorem nil : Moved userId handled [] := ⟨[],List.nil_sublist _,.nil⟩

theorem mono (h : Moved userId handled told) (hmore : handled.Sublist more) : Moved userId more told := by
  obtain ⟨requests,hrequests,hmoves⟩ := h
  exact ⟨requests,hrequests.trans hmore,hmoves⟩

theorem move {request : Packet} {e : Event} (h : Moved userId handled told) (hmoves : Moves userId request e) :
    Moved userId (handled ++ [request]) (told ++ [e]) := by
  obtain ⟨requests,hrequests,hall⟩ := h
  exact ⟨requests ++ [request],hrequests.append_right [request],List.rel_append hall (.cons hmoves .nil)⟩

/-- The relay is told of the user's own moves. -/
theorem mover (h : Moved userId handled told) {e : Event} (he : e ∈ told) : mover e = some userId := by
  obtain ⟨requests,_,hmoves⟩ := h
  obtain ⟨request,_,hmove⟩ := exists_of_mem_right hmoves he
  exact hmove.mover

end Moved

/-- What was announced last is about the user, or in the client's own words. -/
theorem Attributed.last {userId : UInt64} {handled : List Packet} {posted : List Bytes} {data : Bytes}
    (h : Attributed userId handled (posted ++ [data])) :
    ∃ packet, packet.encode = some data ∧ (speaker packet = none ∨ speaker packet = some userId) := by
  obtain ⟨requests,events,last,_,hcauses,hlast,hposted⟩ := h
  obtain ⟨packet,hmem,hpacket⟩ := exists_of_mem_right hposted (List.mem_append_right _ List.mem_cons_self)
  refine ⟨packet,hpacket,?_⟩
  rcases List.mem_append.mp hmem with hmem | hmem
  · obtain ⟨request,_,hcause⟩ := exists_of_mem_right hcauses hmem
    exact hcause.speaker
  · exact .inr (lastWords_speaker (hlast.subset hmem))

/-- In the channel is who has moved last by joining it. -/
theorem last_move_joins {id voiceToken : UInt64} {events : List Event}
    (h : sessionOf id events = some (voiceToken,true)) :
    ∃ moves, events.filter (mover · = some id) = moves ++ [.voiceJoined id] := by
  induction events using List.reverseRecOn with
  | nil => cases h
  | append_singleton events e ih =>
    rw [sessionOf_concat] at h
    rw [List.filter_append]
    have hstill : sessionStep id (sessionOf id events) e = sessionOf id events → mover e ≠ some id →
        ∃ moves, events.filter (mover · = some id) ++ [e].filter (mover · = some id) =
          moves ++ [.voiceJoined id] := by
      intro hsame hmover
      rw [List.filter_cons_of_neg (by simpa using hmover),List.filter_nil,List.append_nil]
      exact ih (hsame.symm.trans h)
    cases e with
    | userConnected id' token =>
      by_cases hid : id' = id
      · simp [sessionStep,hid] at h
      · exact hstill (if_neg hid) (by simp [mover])
    | voiceJoined id' =>
      by_cases hid : id' = id
      · refine ⟨events.filter (mover · = some id),?_⟩
        rw [hid,List.filter_cons_of_pos (by simp [mover]),List.filter_nil]
      · exact hstill (if_neg hid) (by simpa [mover] using hid)
    | voiceLeft id' =>
      by_cases hid : id' = id
      · simp [sessionStep,hid] at h
      · exact hstill (if_neg hid) (by simpa [mover] using hid)
    | userDisconnected id' =>
      by_cases hid : id' = id
      · simp [sessionStep,hid] at h
      · exact hstill (if_neg hid) (by simp [mover])

/-! ## The affairs of a task -/

/-- The reads of a task, its announcements and what it has told the relay. -/
structure Speech where
  reads : List Bytes
  posted : List Bytes
  told : List Event

def Label.postedBy (id : UInt64) : Label → List Bytes
  | .exec id' (.broadcast m) _ => if id' = id then [m.data] else []
  | _ => []

def Label.toldBy (id : UInt64) : Label → List Event
  | .exec id' (.send e) _ => if id' = id then [e] else []
  | _ => []

/-- What the connection `id` has read and said by the steps of a run. -/
def speech (id : UInt64) (trace : Trace) : Speech :=
  ⟨(exchange id trace).reads,trace.flatMap (Label.postedBy id),trace.flatMap (Label.toldBy id)⟩

namespace Speech

def view (trace : Trace) (_ : ManagementServer) (id : UInt64) (_ : Connection) : Speech :=
  speech id trace

/-- The packets received. -/
def handled (g : Speech) : List Packet := (Packet.framer.feedAll g.reads).1

def after (g : Speech) : (o : Op) → o.Res → Speech
  | .broadcast m,_ => { g with posted := g.posted ++ [m.data] }
  | .send e,_ => { g with told := g.told ++ [e] }
  | _,_ => g

structure Honest (userId : UInt64) (g : Speech) : Prop where
  attributed : Attributed userId g.handled g.posted
  moved : Moved userId g.handled g.told

end Speech

/-- What is said must go back to what was received. A record at the own address is that
of the own user. -/
def speechDiscipline (id : UInt64) (address : SocketAddr) : Discipline Op Op.Res Speech where
  rely := Eq
  answers _
    | .encode packet,r => packet.encode = some r
    | .getMut a update,r => a = address → (∀ u, (update u).id = u.id) → ∀ u, r = some u → u.id = id
    | .get a,r => a = address → ∀ u, r = some u → u.id = id
    | .remove a,r => a = address → ∀ u, r = some u → u.id = id
    | _,_ => True
  effect g o r g' := g' = g.after o r ∧ g'.Honest id
  rely_refl := Eq.refl
  rely_trans := Eq.trans

def speechLaw : Law Speech where
  view := Speech.view
  discipline := speechDiscipline
  early _ _ g := g = ⟨[],[],[]⟩
  idle id _ packetBuffer g := packetBuffer = (Packet.framer.feedAll g.reads).2 ∧
    Authored id g.handled g.posted ∧ Moved id g.handled g.told

/-! ## The programs -/

section Programs
variable {id : UInt64} {address : SocketAddr} {A : Type} {post : A → Speech → Prop} {g : Speech}
  {reads : List Bytes} {before after : List Packet} {packet : Packet}

abbrev Proclaims (id : UInt64) (address : SocketAddr) (post : A → Speech → Prop) (p : HandlerM A)
    (g : Speech) : Prop := (speechDiscipline id address).wp post p g

theorem proclaims_ret {a : A} (h : post a g) : Proclaims id address post (.ret a) g := by
  rintro g' rfl
  exact h

/-- An operation that says nothing. -/
theorem proclaims_op {o : Op} {k : o.Res → HandlerM A} (h : g.Honest id) (hafter : ∀ r, g.after o r = g)
    (hk : ∀ r, (speechDiscipline id address).answers g o r → Proclaims id address post (k r) g) :
    Proclaims id address post (.op o k) g := by
  rintro g' rfl r hr
  exact ⟨g,⟨(hafter r).symm,h⟩,hk r hr⟩

theorem proclaims_writing {post : Except ServerError Unit → Speech → Prop} {data : Bytes}
    {k : HandlerM (Except ServerError Unit)} (h : g.Honest id) (herr : post (.error .io) g)
    (hk : Proclaims id address post k g) : Proclaims id address post (writing data k) g := by
  refine proclaims_op h (fun _ => rfl) fun written _ => ?_
  cases written with
  | true => exact hk
  | false => exact proclaims_ret herr

theorem proclaims_telling {e : Event} {k : HandlerM A}
    (h : Speech.Honest id { g with told := g.told ++ [e] })
    (hk : Proclaims id address post k { g with told := g.told ++ [e] }) :
    Proclaims id address post (.op (.send e) fun _ => k) g := by
  rintro g' rfl r _
  exact ⟨_,⟨rfl,h⟩,hk⟩

theorem proclaims_announcing {exclude : Option SocketAddr} {event : Packet} {k : HandlerM A} (h : g.Honest id)
    (hk : ∀ data, event.encode = some data → Speech.Honest id { g with posted := g.posted ++ [data] } ∧
      Proclaims id address post k { g with posted := g.posted ++ [data] }) :
    Proclaims id address post (announcing exclude event k) g := by
  refine proclaims_op h (fun _ => rfl) fun data hdata => ?_
  rintro g' rfl r _
  exact ⟨_,⟨rfl,(hk data hdata).1⟩,(hk data hdata).2⟩

/-- In between two packets of these reads: what was said goes back to those in front. -/
structure Midway (id : UInt64) (reads : List Bytes) (before after : List Packet) (g : Speech) : Prop where
  reads_eq : g.reads = reads
  handled_eq : (Packet.framer.feedAll reads).1 = before ++ after
  authored : Authored id before g.posted
  moved : Moved id before g.told

namespace Midway

theorem honest (h : Midway id reads before after g) : g.Honest id := by
  have hbefore : before.Sublist g.handled := by
    rw [Speech.handled,h.reads_eq,h.handled_eq]
    exact List.sublist_append_left _ _
  exact ⟨h.authored.attributed.mono hbefore,h.moved.mono hbefore⟩

theorem pass (h : Midway id reads before (packet :: after) g) :
    Midway id reads (before ++ [packet]) after g :=
  have hmore := List.sublist_append_left before [packet]
  ⟨h.reads_eq,h.handled_eq.trans (List.append_cons _ _ _),h.authored.mono hmore,h.moved.mono hmore⟩

theorem event (h : Midway id reads before (packet :: after) g) {event : Packet} {data : Bytes}
    (hcauses : Causes id packet event) (hdata : event.encode = some data) :
    Midway id reads (before ++ [packet]) after { g with posted := g.posted ++ [data] } :=
  { h.pass with authored := h.authored.event hcauses hdata }

/-- The relay is told of a move before it is announced. -/
theorem move (h : Midway id reads before (packet :: after) g) {e : Event} (hmoves : Moves id packet e) :
    Speech.Honest id { g with told := g.told ++ [e] } :=
  have hahead : Midway id reads (before ++ [packet]) after { g with told := g.told ++ [e] } :=
    { h.pass with moved := h.moved.move hmoves }
  hahead.honest

theorem moveEvent (h : Midway id reads before (packet :: after) g) {e : Event} {event : Packet} {data : Bytes}
    (hmoves : Moves id packet e) (hcauses : Causes id packet event) (hdata : event.encode = some data) :
    Midway id reads (before ++ [packet]) after
      { g with posted := g.posted ++ [data], told := g.told ++ [e] } :=
  { h.event hcauses hdata with moved := h.moved.move hmoves }

end Midway

/-- The announcement that goes with the packet is the last thing done for it. -/
theorem proclaims_last {exclude : Option SocketAddr} {event : Packet} (h : g.Honest id)
    (hevent : ∀ data, event.encode = some data →
      Midway id reads before after { g with posted := g.posted ++ [data] }) :
    Proclaims id address (fun _ => Midway id reads before after)
      (announcing exclude event (.ret (.ok () : Except ServerError Unit))) g :=
  proclaims_announcing h fun data hdata => ⟨(hevent data hdata).honest,proclaims_ret (hevent data hdata)⟩

theorem proclaims_caused {exclude : Option SocketAddr} {event : Packet}
    (h : Midway id reads before (packet :: after) g) (hcauses : Causes id packet event) :
    Proclaims id address (fun _ => Midway id reads (before ++ [packet]) after)
      (announcing exclude event (.ret (.ok () : Except ServerError Unit))) g :=
  proclaims_last h.honest fun _ hdata => h.event hcauses hdata

/-- A response, and what comes behind it. -/
theorem proclaims_response {response : Packet} {k : HandlerM (Except ServerError Unit)}
    (h : Midway id reads before (packet :: after) g)
    (hk : Proclaims id address (fun _ => Midway id reads (before ++ [packet]) after) k g) :
    Proclaims id address (fun _ => Midway id reads (before ++ [packet]) after)
      (.op (.encode response) fun data => writing data k) g :=
  proclaims_op h.honest (fun _ => rfl) fun _ _ => proclaims_writing h.honest h.pass hk

theorem collectParticipants_proclaims (h : g.Honest id) :
    Proclaims id address (fun _ g' => g' = g) collectParticipants g := by
  refine proclaims_op h (fun _ => rfl) fun addresses _ => ?_
  change Proclaims id address _ (addresses.mapM (fun a => perform (.read a)) >>= _) g
  have hreads := Discipline.wp_mapM (D := speechDiscipline id address) (f := fun a => perform (.read a))
    (fun _ _ g' => g' = g) (fun _ _ g₁ g₂ hr h => by cases hr; exact h)
    (fun a _ _ g' hg => by
      cases hg
      exact proclaims_op h (fun _ => rfl) fun _ _ => proclaims_ret rfl) addresses [] g rfl
  exact Discipline.wp_bind (Discipline.wp_mono (fun _ _ => proclaims_ret) hreads)

theorem changeVoice_proclaims {inVoice : Bool} {response : Packet} {event : UInt64 → Event}
    {announcement : UInt64 → Packet} (h : Midway id reads before (packet :: after) g)
    (hmoves : Moves id packet (event id)) (hcauses : Causes id packet (announcement id)) :
    Proclaims id address (fun _ => Midway id reads (before ++ [packet]) after)
      (changeVoice address inVoice response event announcement).run g := by
  rw [changeVoice_run]
  refine proclaims_op h.honest (fun _ => rfl) fun record hrecord => ?_
  cases record with
  | none => exact proclaims_ret h.pass
  | some user =>
    obtain rfl := hrecord rfl (fun _ => rfl) user rfl
    refine proclaims_response h (proclaims_telling (h.move hmoves) ?_)
    exact proclaims_last (h.move hmoves) fun _ hdata => h.moveEvent hmoves hcauses hdata

theorem handleLoginRequest_proclaims {requestId : UInt64} {username : String}
    (h : Midway id reads before (.loginRequest requestId username :: after) g) :
    Proclaims id address (fun _ => Midway id reads (before ++ [.loginRequest requestId username]) after)
      (handleLoginRequest address requestId username).run g := by
  cases hv : validUsername username with
  | false =>
    rw [handleLoginRequest_run_invalid address hv]
    exact proclaims_response h (proclaims_ret h.pass)
  | true =>
    rw [handleLoginRequest_run_valid address hv]
    refine proclaims_op h.honest (fun _ => rfl) fun record hrecord => ?_
    cases record with
    | none => exact proclaims_ret h.pass
    | some user =>
      obtain rfl := hrecord rfl (fun _ => rfl) user rfl
      refine Discipline.wp_bind (Discipline.wp_mono ?_ (collectParticipants_proclaims h.honest))
      rintro participants g' rfl
      exact proclaims_response h (proclaims_caused h ⟨hv,rfl⟩)

theorem handleChatMessageRequest_proclaims {requestId : UInt64} {message : String}
    (h : Midway id reads before (.chatMessageRequest requestId message :: after) g) :
    Proclaims id address (fun _ => Midway id reads (before ++ [.chatMessageRequest requestId message]) after)
      (handleChatMessageRequest address requestId message).run g := by
  rw [handleChatMessageRequest_run]
  refine proclaims_op h.honest (fun _ => rfl) fun record hrecord => ?_
  cases record with
  | none => exact proclaims_ret h.pass
  | some user =>
    obtain rfl := hrecord rfl user rfl
    refine proclaims_response h (proclaims_op h.honest (fun _ => rfl) fun timestamp _ => ?_)
    exact proclaims_caused h ⟨rfl,rfl⟩

theorem handlePacket_proclaims (h : Midway id reads before (packet :: after) g) :
    Proclaims id address (fun _ => Midway id reads (before ++ [packet]) after)
      (handlePacket address packet).run g := by
  cases packet with
  | loginRequest requestId username => exact handleLoginRequest_proclaims h
  | joinVoiceChannelRequest requestId => exact changeVoice_proclaims h rfl rfl
  | leaveVoiceChannelRequest requestId => exact changeVoice_proclaims h rfl rfl
  | chatMessageRequest requestId message => exact handleChatMessageRequest_proclaims h
  | pingRequest requestId =>
    rw [handlePacket,handlePingRequest_run]
    exact proclaims_response h (proclaims_ret h.pass)
  | userMuteState userId isMuted =>
    rw [handlePacket,handleUserMuteState_run]
    refine proclaims_op h.honest (fun _ => rfl) fun record _ => ?_
    cases record with
    | none => exact proclaims_ret h.pass
    | some user => exact proclaims_caused h ⟨rfl,rfl⟩
  | _ => exact proclaims_ret h.pass

theorem handleDisconnect_proclaims (h : Authored id g.handled g.posted) (hmoved : Moved id g.handled g.told) :
    Proclaims id address (fun _ _ => True) (handleDisconnect address) g := by
  rw [handleDisconnect_eq]
  have hhonest : g.Honest id := ⟨h.attributed,hmoved⟩
  refine proclaims_op hhonest (fun _ => rfl) fun record hrecord => ?_
  cases record with
  | none => exact proclaims_ret trivial
  | some user =>
    obtain rfl := hrecord rfl user rfl
    refine proclaims_announcing hhonest fun left hleft => ?_
    have hone : Speech.Honest user.id { g with posted := g.posted ++ [left] } :=
      ⟨h.leave (List.singleton_sublist.mpr (by simp [lastWords])) (.cons hleft .nil),hmoved⟩
    refine ⟨hone,?_⟩
    split
    · refine proclaims_announcing hone fun voice hvoice => ⟨⟨?_,hmoved⟩,proclaims_ret trivial⟩
      change Attributed _ _ (_ ++ [left] ++ [voice])
      rw [List.append_assoc]
      exact h.leave (List.Sublist.refl _) (.cons hleft (.cons hvoice .nil))
    · exact proclaims_ret trivial

/-- The read branch announces what the packets that are complete give cause to. -/
theorem handleRead_proclaims {b bytes : Bytes} {posted : List Bytes} {told : List Event}
    (h : speechLaw.idle id address b ⟨reads,posted,told⟩) :
    speechLaw.Keeps id address (handleRead address b (.ok bytes)) ⟨reads ++ [bytes],posted,told⟩ := by
  obtain ⟨rfl,hauthored,hmoved⟩ := h
  have hfeed := Packet.framer.feedAll_concat reads bytes
  have hgrown : (Packet.framer.feedAll reads).1.Sublist (Packet.framer.feedAll (reads ++ [bytes])).1 := by
    rw [congrArg Prod.fst hfeed]
    exact List.sublist_append_left _ _
  refine handleRead_wp (fun left g' => ∃ before, Midway id (reads ++ [bytes]) before left g')
    (fun _ _ _ hr h => by cases hr; exact h)
    (fun packet left g₁ ⟨before,h₁⟩ => Discipline.wp_mono (fun _ _ h₂ => ⟨before ++ [packet],h₂⟩)
      (handlePacket_proclaims h₁))
    (fun _ _ _ hr h => by cases hr; exact h)
    (fun _ _ => Discipline.wp_mono (fun _ _ _ => trivial)
      (handleDisconnect_proclaims (hauthored.mono hgrown) (hmoved.mono hgrown))) ?_ ?_
  · rintro byte rest ⟨⟩
    exact ⟨_,rfl,congrArg Prod.fst hfeed,hauthored,hmoved⟩
  · rintro byte rest ⟨⟩ g' ⟨before,hreads,hhandled,hbefore,hmove⟩
    rw [List.append_nil] at hhandled
    constructor
    · change _ = (Packet.framer.feedAll g'.reads).2
      rw [hreads,hfeed]
      rfl
    · rw [Speech.handled,hreads,hhandled]
      exact ⟨hbefore,hmove⟩

theorem handleRecv_proclaims {b : Bytes} {m : BroadcastMessage} (h : speechLaw.idle id address b g) :
    speechLaw.Keeps id address (handleRecv address b (.ok m)) g := by
  cases hm : m.shouldSendTo address with
  | true =>
    rw [handleRecv_sent address hm]
    refine proclaims_op ⟨h.2.1.attributed,h.2.2⟩ (fun _ => rfl) fun written _ => ?_
    cases written with
    | true => exact proclaims_ret h
    | false => exact proclaims_ret trivial
  | false =>
    rw [handleRecv_filtered address hm]
    exact proclaims_ret h

end Programs

/-! ## Every run -/

theorem speech_snoc (id : UInt64) (trace : Trace) (label : Label) : speech id (trace ++ [label]) =
    ⟨(speech id trace).reads ++ label.readBy id,(speech id trace).posted ++ label.postedBy id,
      (speech id trace).told ++ label.toldBy id⟩ := by
  simp only [speech,exchange_snoc,List.flatMap_append,List.flatMap_singleton]

theorem speech_quiet {id : UInt64} {label : Label} (hread : label.readBy id = [])
    (hposted : label.postedBy id = []) (htold : label.toldBy id = []) (trace : Trace) :
    speech id (trace ++ [label]) = speech id trace := by
  rw [speech_snoc,hread,hposted,htold,List.append_nil,List.append_nil,List.append_nil]

theorem speech_exec (id : UInt64) (trace : Trace) (o : Op) (r : o.Res) :
    speech id (trace ++ [.exec id o r]) = (speech id trace).after o r := by
  rw [speech_snoc]
  cases o with
  | broadcast m => simp [Speech.after,Label.readBy,Label.postedBy,Label.toldBy]
  | send e => simp [Speech.after,Label.readBy,Label.postedBy,Label.toldBy]
  | _ => simp [Speech.after,Label.readBy,Label.postedBy,Label.toldBy]

theorem speech_other {id : UInt64} {label : Label} (hne : label.actor ≠ some id) (trace : Trace) :
    speech id (trace ++ [label]) = speech id trace := by
  have hid : ∀ {id'}, some id' ≠ some id → id' ≠ id := fun h heq => h (by rw [heq])
  refine speech_quiet ?_ ?_ ?_ trace
  · cases label with
    | read id' r =>
      cases r with
      | ok bytes => exact if_neg (hid hne)
      | error => rfl
    | _ => rfl
  · cases label with
    | exec id' o r =>
      cases o with
      | broadcast m => exact if_neg (hid hne)
      | _ => rfl
    | _ => rfl
  · cases label with
    | exec id' o r =>
      cases o with
      | send e => exact if_neg (hid hne)
      | _ => rfl
    | _ => rfl

theorem speech_fresh {guard : ManagementServer → Label → Prop} {trace : Trace} {s : ManagementServer}
    (h : Run (Guarded guard Step) ManagementServer.new trace s) {id : UInt64}
    (hnone : s.connections.lookup id = none) : speech id trace = ⟨[],[],[]⟩ := by
  refine run_unborn (P := fun trace => speech id trace = ⟨[],[],[]⟩) rfl ?_ h hnone
  intro trace label hactor hspeech
  rw [speech_other hactor,hspeech]

/-- The record that a task finds at its address is that of its user. -/
def FindsOwn (s : ManagementServer) (label : Label) : Prop :=
  ∀ id o r, label = .exec id o r → ∀ c, s.connections.lookup id = some c →
    ∀ u, s.users.lookup c.address = some u → u.id = id

theorem speechLaw_kept : speechLaw.Kept FindsOwn := by
  constructor
  · rintro id address g g' rfl h
    exact h
  · rintro id address b g g' rfl h
    exact h
  · intro trace s label s' id c _ _ hne _ _
    exact (speech_other hne trace).symm
  · intro trace s address token hr _
    have hsame : speech s.nextUserId (trace ++ [.accept address token]) = speech s.nextUserId trace :=
      speech_quiet rfl rfl rfl trace
    exact hsame.trans (speech_fresh hr (run_fresh hr))
  · intro trace s id c _ _ h
    exact Eq.mpr (congrArg (speechLaw.early id c.address) (speech_quiet rfl rfl rfl trace)) h
  · intro trace s id c _ _ h
    have hfresh : speech id (trace ++ [.subscribe id]) = ⟨[],[],[]⟩ := (speech_quiet rfl rfl rfl trace).trans h
    exact Eq.mpr (congrArg (speechLaw.idle id c.address []) hfresh) ⟨rfl,.nil,.nil⟩
  · intro trace s id c b r phase _ _ _ _ h
    cases r with
    | ok bytes =>
      have hview : speech id (trace ++ [.read id (.ok bytes)]) =
          ⟨(speech id trace).reads ++ [bytes],(speech id trace).posted,(speech id trace).told⟩ := by
        rw [speech_snoc]
        simp [Label.readBy,Label.postedBy,Label.toldBy]
      exact Eq.mpr (congrArg (speechLaw.Keeps id c.address _) hview) (handleRead_proclaims h)
    | error =>
      refine Eq.mpr (congrArg (speechLaw.Keeps id c.address _) (speech_quiet rfl rfl rfl trace)) ?_
      refine Discipline.wp_bind (Discipline.wp_mono ?_ (handleDisconnect_proclaims h.2.1 h.2.2))
      intro _ g' _
      exact proclaims_ret trivial
  · intro trace s id c b m phase _ _ _ _ _ h
    exact Eq.mpr (congrArg (speechLaw.Keeps id c.address _) (speech_quiet rfl rfl rfl trace))
      (handleRecv_proclaims h)
  · intro trace s id c b _ _ _ _ _ h
    exact Eq.mpr (congrArg (speechLaw.idle id c.address b) (speech_quiet rfl rfl rfl trace)) h
  · intro trace s id c o r _ hguard hc hans
    have hown : ∀ u, s.users.lookup c.address = some u → u.id = id := hguard id o r rfl c hc
    cases o with
    | getMut a update =>
      rintro rfl hids u rfl
      obtain ⟨u',hu',rfl⟩ := Option.map_eq_some_iff.mp (Eq.symm hans)
      exact (hids u').trans (hown u' hu')
    | get a =>
      rintro rfl u rfl
      exact hown u (Eq.symm hans)
    | remove a =>
      rintro rfl u rfl
      exact hown u (Eq.symm hans)
    | encode packet => exact hans
    | _ => trivial
  · rintro trace s id c o r b phase g _ _ _ _ _ ⟨rfl,_⟩
    exact (speech_exec id trace o r).symm

section Runs
variable {guard : ManagementServer → Label → Prop} {trace : Trace} {s s' : ManagementServer}

/-- While no address in use is accepted again, every task finds its own record. -/
theorem run_findsOwn (hguard : ∀ s label, guard s label → liveApart.guard s label)
    (h : Run (Guarded guard Step) ManagementServer.new trace s) :
    Run (Guarded FindsOwn Step) ManagementServer.new trace s := by
  induction h with
  | refl => exact .refl
  | @snoc trace s label s' hr hstep ih =>
    refine ih.snoc ⟨?_,hstep.2⟩
    rintro id o r rfl c hc u hu
    obtain ⟨c',hc',halive,_⟩ := run_at hr hstep
    cases hc.symm.trans hc'
    exact run_ownRecords (hr.mono fun _ _ _ hs => ⟨hguard _ _ hs.1,hs.2⟩) id c u hc halive hu

/-- In every run what a task has said goes back to what it has received. -/
theorem run_attributed (h : Run (Guarded FindsOwn Step) ManagementServer.new trace s) (id : UInt64) :
    (speech id trace).Honest id := by
  induction h with
  | refl => exact ⟨Authored.nil.attributed,.nil⟩
  | @snoc trace s label s' hr hstep ih =>
    have hquiet : label.postedBy id = [] → label.toldBy id = [] → (speech id (trace ++ [label])).Honest id := by
      intro hposted htold
      have hmore := (handled_mono (exchange id trace) (label.readBy id)).sublist
      rw [speech_snoc,hposted,htold,List.append_nil,List.append_nil]
      exact ⟨ih.attributed.mono hmore,ih.moved.mono hmore⟩
    cases label with
    | exec id' o r =>
      by_cases hid : id' = id
      · subst hid
        obtain ⟨c,g,_,_,rfl,hhonest⟩ := speechLaw_kept.run_effect hr hstep
        rw [speech_exec]
        exact hhonest
      · refine hquiet ?_ ?_
        · cases o with
          | broadcast m => exact if_neg hid
          | _ => rfl
        · cases o with
          | send e => exact if_neg hid
          | _ => rfl
    | _ => exact hquiet rfl rfl

/-- What is said of a user in the channel has been said by its connection. -/
theorem run_spoken (h : Run (Guarded FindsOwn Step) ManagementServer.new trace s) (id : UInt64) :
    s.announcements.filter (speaker · = some id) =
      ((speech id trace).posted.filterMap packetOf).filter (speaker · = some id) := by
  induction h with
  | refl => rfl
  | @snoc trace s label s' hr hstep ih =>
    have hsaid : (label.sent.filterMap BroadcastMessage.packet).filter (speaker · = some id) =
        ((label.postedBy id).filterMap packetOf).filter (speaker · = some id) := by
      cases label with
      | exec id' o r =>
        cases o with
        | broadcast m =>
          by_cases hid : id' = id
          · rw [Label.postedBy,if_pos hid]
            simp [Label.sent,Op.sent,BroadcastMessage.packet,List.filterMap_cons]
          · rw [Label.postedBy,if_neg hid]
            obtain ⟨c,g,_,_,rfl,hhonest⟩ := speechLaw_kept.run_effect hr hstep
            obtain ⟨packet,hpacket,hspeaker⟩ := Attributed.last hhonest.attributed
            have hm : m.packet = some packet := packetOf_encode hpacket
            have hother : ¬speaker packet = some id := by
              rcases hspeaker with hnone | hown
              · rw [hnone]
                exact (Option.some_ne_none id).symm
              · rw [hown]
                exact fun heq => hid (Option.some.inj heq)
            rw [List.filterMap_nil,List.filter_nil]
            change ([m].filterMap BroadcastMessage.packet).filter _ = []
            rw [List.filterMap_cons_some hm,List.filterMap_nil]
            exact List.filter_cons_of_neg (by simpa using hother)
        | _ => rfl
      | _ => rfl
    rw [ManagementServer.announcements,step_broadcasts hstep.2,List.filterMap_append,List.filter_append,
      speech_snoc,List.filterMap_append,List.filter_append,hsaid]
    exact congrArg (· ++ _) ih

/-- What the relay is told of a user's place in the channel has been said by its connection. -/
theorem run_moved (h : Run (Guarded FindsOwn Step) ManagementServer.new trace s) (id : UInt64) :
    s.events.filter (mover · = some id) = (speech id trace).told := by
  induction h with
  | refl => rfl
  | @snoc trace s label s' hr hstep ih =>
    have hquiet : ∀ {more}, s'.events = s.events ++ more → more.filter (mover · = some id) = label.toldBy id →
        s'.events.filter (mover · = some id) = (speech id (trace ++ [label])).told := by
      intro more hmore hsame
      rw [hmore,List.filter_append,hsame,ih,speech_snoc]
    have hstepped := hstep.2
    cases hstepped with
    | connect => exact hquiet rfl rfl
    | disconnect => exact hquiet rfl rfl
    | @exec id' c o k r b hc hp hans hb =>
      cases o with
      | send e =>
        refine hquiet rfl ?_
        obtain ⟨c,g,_,_,rfl,hhonest⟩ := speechLaw_kept.run_effect hr hstep
        have hmover : mover e = some id' :=
          hhonest.moved.mover (List.mem_append_right _ (List.mem_singleton_self _))
        rw [List.filter_singleton,hmover]
        by_cases hid : id' = id <;> simp [Label.toldBy,hid]
      | _ => exact hquiet (List.append_nil _).symm rfl
    | _ => exact hquiet (List.append_nil _).symm rfl

end Runs
end VoiceApp.Management
