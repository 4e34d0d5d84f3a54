import VoiceApp.Management.Delivery

/-! # Requests and responses on one connection

What a task writes is a sequence of whole packets. Those that are no events answer requests
it has received, in their order and at most once each, under the ids of the requests.
-/
namespace VoiceApp.Management
open Protocol Server Framing

/-- The response is of the kind of the request and carries its id. -/
def Responds : Packet → Packet → Prop
  | .loginRequest requestId _,.loginResponse requestId' _ _ _ => requestId' = requestId
  | .joinVoiceChannelRequest requestId,.joinVoiceChannelResponse requestId' _ => requestId' = requestId
  | .leaveVoiceChannelRequest requestId,.leaveVoiceChannelResponse requestId' _ =>
    requestId' = requestId
  | .chatMessageRequest requestId _,.chatMessageResponse requestId' _ => requestId' = requestId
  | .pingRequest requestId,.pingResponse requestId' => requestId' = requestId
  | _,_ => False

theorem Responds.spec {request response : Packet} (h : Responds request response) :
    response.isEvent = false ∧ response.requestId = request.requestId := by
  cases request <;> cases response <;> first | exact h.elim | exact ⟨rfl,congrArg some h⟩

/-- The bytes are those of an event. -/
def Announces (data : Bytes) : Prop := ∃ packet : Packet, packet.encode = some data ∧ packet.isEvent = true

/-- The packets written without failure, and the requests they answer, against what has been
received. -/
def Answered (handled : List Packet) (wrote : List Bytes) : Prop :=
  ∃ packets requests, Framer.Encoded Packet.encode packets wrote ∧ requests.Sublist handled ∧
    List.Forall₂ Responds requests (packets.filter fun packet => !packet.isEvent)

namespace Answered
variable {handled : List Packet} {wrote : List Bytes}

theorem nil : Answered handled [] := ⟨[],[],.nil,List.nil_sublist _,.nil⟩

theorem mono {more : List Packet} (h : Answered handled wrote) (hmore : handled.Sublist more) :
    Answered more wrote := by
  obtain ⟨packets,requests,hwrote,hrequests,hresponds⟩ := h
  exact ⟨packets,requests,hwrote,hrequests.trans hmore,hresponds⟩

theorem event {data : Bytes} (h : Answered handled wrote) (hdata : Announces data) :
    Answered handled (wrote ++ [data]) := by
  obtain ⟨packets,requests,hwrote,hrequests,hresponds⟩ := h
  obtain ⟨packet,hencode,hevent⟩ := hdata
  refine ⟨packets ++ [packet],requests,List.rel_append hwrote (.cons hencode .nil),hrequests,?_⟩
  rw [List.filter_append,List.filter_cons_of_neg (by simp [hevent]),List.filter_nil,List.append_nil]
  exact hresponds

theorem response {request response : Packet} {data : Bytes} (h : Answered handled wrote)
    (hresponds : Responds request response) (hdata : response.encode = some data) :
    Answered (handled ++ [request]) (wrote ++ [data]) := by
  obtain ⟨packets,requests,hwrote,hrequests,hall⟩ := h
  refine ⟨packets ++ [response],requests ++ [request],List.rel_append hwrote (.cons hdata .nil),
    hrequests.append_right [request],?_⟩
  rw [List.filter_append,List.filter_cons_of_pos (by simp [hresponds.spec.1]),List.filter_nil]
  exact List.rel_append hall (.cons hresponds .nil)

end Answered

/-! ## The affairs of a task -/

/-- The reads of a task, and its writes that did not fail. -/
structure Exchange where
  reads : List Bytes
  wrote : List Bytes

def Label.readBy (id : UInt64) : Label → List Bytes
  | .read id' (.ok bytes) => if id' = id then [bytes] else []
  | _ => []

def Label.wroteBy (id : UInt64) : Label → List Bytes
  | .exec id' (.write data) written => if id' = id ∧ written = true then [data] else []
  | _ => []

/-- The exchange of the connection `id` by the steps of a run. -/
def exchange (id : UInt64) (trace : Trace) : Exchange :=
  ⟨trace.flatMap (Label.readBy id),trace.flatMap (Label.wroteBy id)⟩

namespace Exchange

def view (trace : Trace) (_ : ManagementServer) (id : UInt64) (_ : Connection) : Exchange :=
  exchange id trace

/-- The packets received. -/
def handled (g : Exchange) : List Packet := (Packet.framer.feedAll g.reads).1

/-- The bytes of a packet that is not complete. -/
def kept (g : Exchange) : Bytes := (Packet.framer.feedAll g.reads).2

def after (g : Exchange) : (o : Op) → o.Res → Exchange
  | .write data,written => if written = true then { g with wrote := g.wrote ++ [data] } else g
  | _,_ => g

/-- Only events are broadcast, and what is written answers what has been received. -/
def Proper (g : Exchange) : (o : Op) → o.Res → Prop
  | .broadcast m,_ => Announces m.data
  | .write data,written => written = true → Answered g.handled (g.wrote ++ [data])
  | _,_ => True

end Exchange

theorem exchange_snoc (id : UInt64) (trace : Trace) (label : Label) :
    exchange id (trace ++ [label]) =
      ⟨(exchange id trace).reads ++ label.readBy id,(exchange id trace).wrote ++ label.wroteBy id⟩ := by
  simp only [exchange,List.flatMap_append,List.flatMap_singleton]

def responseDiscipline : Discipline Op Op.Res Exchange where
  rely := Eq
  answers _
    | .encode packet,r => packet.encode = some r
    | _,_ => True
  effect g o r g' := g.Proper o r ∧ g' = g.after o r
  rely_refl := Eq.refl
  rely_trans := Eq.trans

def responseLaw : Law Exchange where
  view := Exchange.view
  discipline _ _ := responseDiscipline
  early _ _ g := g.reads = [] ∧ g.wrote = []
  idle _ _ packetBuffer g := packetBuffer = g.kept ∧ Answered g.handled g.wrote

/-! ## The programs -/

section Programs
variable {id : UInt64} {address : SocketAddr} {A : Type} {post : A → Exchange → Prop} {g : Exchange}
  {reads : List Bytes} {before after : List Packet} {packet : Packet}

/-- The program writes and broadcasts properly from these affairs on. -/
abbrev Serves (post : A → Exchange → Prop) (p : HandlerM A)
    (g : Exchange) : Prop :=
  responseDiscipline.wp post p g

theorem serves_ret {a : A} (h : post a g) : Serves post (.ret a) g := by
  rintro g' rfl
  exact h

/-- An operation that neither writes nor broadcasts. -/
theorem serves_op {o : Op} {k : o.Res → HandlerM A} (hproper : ∀ r, g.Proper o r)
    (hafter : ∀ r, g.after o r = g)
    (h : ∀ r, responseDiscipline.answers g o r → Serves post (k r) g) :
    Serves post (.op o k) g := by
  rintro g' rfl r hans
  exact ⟨g,⟨hproper r,(hafter r).symm⟩,h r hans⟩

theorem serves_announcing {exclude : Option SocketAddr} {event : Packet} {k : HandlerM A}
    (hevent : event.isEvent = true) (h : Serves post k g) :
    Serves post (announcing exclude event k) g := by
  refine serves_op (fun _ => trivial) (fun _ => rfl) fun data hdata => ?_
  rintro g' rfl r _
  exact ⟨g,⟨⟨event,hdata,hevent⟩,rfl⟩,h⟩

/-- In between two packets of these reads: those in front have been answered or passed over. -/
structure Between (reads : List Bytes) (before after : List Packet) (g : Exchange) : Prop where
  reads_eq : g.reads = reads
  handled_eq : (Packet.framer.feedAll reads).1 = before ++ after
  answered : Answered before g.wrote

theorem Between.pass (h : Between reads before (packet :: after) g) :
    Between reads (before ++ [packet]) after g :=
  ⟨h.reads_eq,h.handled_eq.trans (List.append_cons _ _ _),
    h.answered.mono (List.sublist_append_left _ _)⟩

theorem serves_response {response : Packet} {k : HandlerM (Except ServerError Unit)}
    (h : Between reads before (packet :: after) g) (hresponds : Responds packet response)
    (hk : ∀ g', Between reads (before ++ [packet]) after g' →
      Serves (fun _ => Between reads (before ++ [packet]) after) k g') :
    Serves (fun _ => Between reads (before ++ [packet]) after)
      (.op (.encode response) fun data => writing data k) g := by
  refine serves_op (fun _ => trivial) (fun _ => rfl) fun data hdata => ?_
  have hanswered := h.answered.response hresponds hdata
  have hall : (before ++ [packet]).Sublist g.handled := by
    rw [Exchange.handled,h.reads_eq,h.pass.handled_eq]
    exact List.sublist_append_left _ _
  rintro g' rfl written _
  refine ⟨_,⟨fun _ => hanswered.mono hall,rfl⟩,?_⟩
  cases written with
  | true => exact hk _ ⟨h.reads_eq,h.pass.handled_eq,hanswered⟩
  | false => exact serves_ret h.pass

theorem collectParticipants_serves :
    Serves (fun _ g' => g' = g) collectParticipants g := by
  refine serves_op (fun _ => trivial) (fun _ => rfl) fun addresses _ => ?_
  change Serves _ (addresses.mapM (fun a => perform (.read a)) >>= _) g
  have hreads := Discipline.wp_mapM (D := responseDiscipline)
    (f := fun a => perform (.read a)) (fun _ _ g' => g' = g)
    (fun _ _ g₁ g₂ hr h => by cases hr; exact h)
    (fun a _ _ g' h => by
      cases h
      exact serves_op (fun _ => trivial) (fun _ => rfl) fun _ _ => serves_ret rfl)
    addresses [] g rfl
  refine Discipline.wp_bind (Discipline.wp_mono ?_ hreads)
  intro records g₁ h
  exact serves_ret h

theorem changeVoice_serves {inVoice : Bool} {response : Packet} {event : UInt64 → Event}
    {announcement : UInt64 → Packet} (h : Between reads before (packet :: after) g)
    (hresponds : Responds packet response) (hevent : ∀ userId, (announcement userId).isEvent = true) :
    Serves (fun _ => Between reads (before ++ [packet]) after)
      (changeVoice address inVoice response event announcement).run g := by
  rw [changeVoice_run]
  refine serves_op (fun _ => trivial) (fun _ => rfl) fun record _ => ?_
  cases record with
  | none => exact serves_ret h.pass
  | some user =>
    refine serves_response h hresponds fun g' hserved => ?_
    refine serves_op (fun _ => trivial) (fun _ => rfl) fun _ _ => ?_
    exact serves_announcing (hevent user.id) (serves_ret hserved)

theorem handleLoginRequest_serves {requestId : UInt64} {username : String}
    (h : Between reads before (.loginRequest requestId username :: after) g) :
    Serves (fun _ => Between reads (before ++ [.loginRequest requestId username]) after)
      (handleLoginRequest address requestId username).run g := by
  cases hv : validUsername username with
  | false =>
    rw [handleLoginRequest_run_invalid address hv]
    exact serves_response h rfl fun _ hserved => serves_ret hserved
  | true =>
    rw [handleLoginRequest_run_valid address hv]
    refine serves_op (fun _ => trivial) (fun _ => rfl) fun record _ => ?_
    cases record with
    | none => exact serves_ret h.pass
    | some user =>
      refine Discipline.wp_bind (Discipline.wp_mono ?_ collectParticipants_serves)
      rintro participants g' rfl
      refine serves_response h rfl fun g'' hserved => ?_
      exact serves_announcing rfl (serves_ret hserved)

theorem handleChatMessageRequest_serves {requestId : UInt64} {message : String}
    (h : Between reads before (.chatMessageRequest requestId message :: after) g) :
    Serves (fun _ => Between reads (before ++ [.chatMessageRequest requestId message]) after)
      (handleChatMessageRequest address requestId message).run g := by
  rw [handleChatMessageRequest_run]
  refine serves_op (fun _ => trivial) (fun _ => rfl) fun record _ => ?_
  cases record with
  | none => exact serves_ret h.pass
  | some user =>
    refine serves_response h rfl fun g' hserved => ?_
    refine serves_op (fun _ => trivial) (fun _ => rfl) fun timestamp _ => ?_
    exact serves_announcing rfl (serves_ret hserved)

theorem handlePacket_serves (h : Between reads before (packet :: after) g) :
    Serves (fun _ => Between reads (before ++ [packet]) after) (handlePacket address packet).run g := by
  cases packet with
  | loginRequest requestId username => exact handleLoginRequest_serves h
  | joinVoiceChannelRequest requestId => exact changeVoice_serves h rfl fun _ => rfl
  | leaveVoiceChannelRequest requestId => exact changeVoice_serves h rfl fun _ => rfl
  | chatMessageRequest requestId message => exact handleChatMessageRequest_serves h
  | pingRequest requestId =>
    rw [handlePacket,handlePingRequest_run]
    exact serves_response h rfl fun _ hserved => serves_ret hserved
  | userMuteState userId isMuted =>
    rw [handlePacket,handleUserMuteState_run]
    refine serves_op (fun _ => trivial) (fun _ => rfl) fun record _ => ?_
    cases record with
    | none => exact serves_ret h.pass
    | some user => exact serves_announcing rfl (serves_ret h.pass)
  | _ => exact serves_ret h.pass

theorem handleDisconnect_serves : Serves (fun _ _ => True) (handleDisconnect address) g := by
  rw [handleDisconnect_eq]
  refine serves_op (fun _ => trivial) (fun _ => rfl) fun record _ => ?_
  cases record with
  | none => exact serves_ret trivial
  | some user =>
    refine serves_announcing rfl ?_
    split
    · exact serves_announcing rfl (serves_ret trivial)
    · exact serves_ret trivial

/-- The read branch answers the packets that are complete one after the other. -/
theorem handleRead_serves {b bytes : Bytes} {wrote : List Bytes}
    (h : responseLaw.idle id address b ⟨reads,wrote⟩) :
    responseLaw.Keeps id address (handleRead address b (.ok bytes)) ⟨reads ++ [bytes],wrote⟩ := by
  obtain ⟨rfl,hanswered⟩ := h
  have hfeed := Packet.framer.feedAll_concat reads bytes
  refine handleRead_wp (fun left g' => ∃ before, Between (reads ++ [bytes]) before left g')
    (fun _ _ _ hr h => by cases hr; exact h)
    (fun packet left g₁ ⟨before,h₁⟩ => Discipline.wp_mono (fun _ _ h₂ => ⟨before ++ [packet],h₂⟩)
      (handlePacket_serves h₁))
    (fun _ _ _ hr h => by cases hr; exact h)
    (fun _ _ => Discipline.wp_mono (fun _ _ _ => trivial) handleDisconnect_serves) ?_ ?_
  · rintro byte rest ⟨⟩
    exact ⟨_,rfl,congrArg Prod.fst hfeed,hanswered⟩
  · rintro byte rest ⟨⟩ g' ⟨before,hreads,hhandled,hbefore⟩
    rw [List.append_nil] at hhandled
    constructor
    · change _ = (Packet.framer.feedAll g'.reads).2
      rw [hreads,hfeed]
      rfl
    · rw [Exchange.handled,hreads,hhandled]
      exact hbefore

/-- The broadcast branch writes events only. -/
theorem handleRecv_serves {b : Bytes} {m : BroadcastMessage} (h : responseLaw.idle id address b g)
    (hevent : Announces m.data) :
    responseLaw.Keeps id address (handleRecv address b (.ok m)) g := by
  cases hm : m.shouldSendTo address with
  | true =>
    rw [handleRecv_sent address hm]
    rintro g' rfl written _
    refine ⟨_,⟨fun _ => h.2.event hevent,rfl⟩,?_⟩
    cases written with
    | true => exact serves_ret ⟨h.1,h.2.event hevent⟩
    | false => exact serves_ret trivial
  | false =>
    rw [handleRecv_filtered address hm]
    exact serves_ret h

end Programs

/-! ## Every run -/

theorem exchange_other {id : UInt64} {label : Label} (hne : label.actor ≠ some id) (trace : Trace) :
    exchange id (trace ++ [label]) = exchange id trace := by
  have hid : ∀ {id'}, some id' ≠ some id → id' ≠ id := fun h heq => h (by rw [heq])
  have hread : label.readBy id = [] := by
    cases label with
    | read id' r =>
      cases r with
      | ok bytes => exact if_neg (hid hne)
      | error => rfl
    | _ => rfl
  have hwrote : label.wroteBy id = [] := by
    cases label with
    | exec id' o r =>
      cases o with
      | write data => exact if_neg fun h => hid hne h.1
      | _ => rfl
    | _ => rfl
  rw [exchange_snoc,hread,hwrote,List.append_nil,List.append_nil]

/-- Before a connection has been accepted its task has done nothing. -/
theorem run_exchange_fresh {guard : ManagementServer → Label → Prop} {trace : Trace}
    {s : ManagementServer} (h : Run (Guarded guard Step) ManagementServer.new trace s) {id : UInt64}
    (hnone : s.connections.lookup id = none) : exchange id trace = ⟨[],[]⟩ := by
  refine run_unborn (P := fun trace => exchange id trace = ⟨[],[]⟩) rfl ?_ h hnone
  intro trace label hactor hexchange
  rw [exchange_other hactor,hexchange]

/-- The message that is received is an event. -/
def Announced (_ : ManagementServer) (label : Label) : Prop :=
  ∀ id m, label = .recv id (.ok m) → Announces m.data

theorem responseLaw_kept : responseLaw.Kept Announced := by
  have hquiet : ∀ (trace : Trace) (id : UInt64) (label : Label), label.readBy id = [] →
      label.wroteBy id = [] → exchange id (trace ++ [label]) = exchange id trace := by
    intro trace id label hread hwrote
    rw [exchange_snoc,hread,hwrote,List.append_nil,List.append_nil]
  constructor
  · rintro id address g g' rfl h
    exact h
  · rintro id address b g g' rfl h
    exact h
  · intro trace s label s' id c _ _ hne _ _
    exact (exchange_other hne trace).symm
  · intro trace s address token hr _
    have hfresh := run_fresh hr
    have hnone := run_exchange_fresh hr hfresh
    refine Eq.mpr (congrArg (fun g : Exchange => g.reads = [] ∧ g.wrote = [])
      ((hquiet trace s.nextUserId _ rfl rfl).trans hnone)) ?_
    exact ⟨rfl,rfl⟩
  · intro trace s id c _ _ h
    exact Eq.mpr (congrArg (responseLaw.early id c.address) (hquiet trace id _ rfl rfl)) h
  · rintro trace s id c _ _ ⟨hreads,hwrote⟩
    have hreads : (exchange id trace).reads = [] := hreads
    have hwrote : (exchange id trace).wrote = [] := hwrote
    refine Eq.mpr (congrArg (responseLaw.idle id c.address []) (hquiet trace id _ rfl rfl)) ⟨?_,?_⟩
    · rw [Exchange.kept,hreads]
      rfl
    · rw [hwrote]
      exact .nil
  · intro trace s id c b r phase _ _ _ _ h
    cases r with
    | ok bytes =>
      have hview : exchange id (trace ++ [.read id (.ok bytes)]) =
          ⟨(exchange id trace).reads ++ [bytes],(exchange id trace).wrote⟩ := by
        rw [exchange_snoc]
        simp [Label.readBy,Label.wroteBy]
      exact Eq.mpr (congrArg (responseLaw.Keeps id c.address _) hview) (handleRead_serves h)
    | error =>
      refine Eq.mpr (congrArg (responseLaw.Keeps id c.address _) (hquiet trace id _ rfl rfl)) ?_
      refine Discipline.wp_bind (Discipline.wp_mono ?_ handleDisconnect_serves)
      intro _ g' _
      exact serves_ret trivial
  · intro trace s id c b m phase _ hguard _ _ _ h
    refine Eq.mpr (congrArg (responseLaw.Keeps id c.address _) (hquiet trace id _ rfl rfl)) ?_
    exact handleRecv_serves h (hguard id m rfl)
  · intro trace s id c b _ _ _ _ _ h
    exact Eq.mpr (congrArg (responseLaw.idle id c.address b) (hquiet trace id _ rfl rfl)) h
  · intro trace s id c o r _ _ _ hans
    cases o with
    | encode packet => exact hans
    | _ => trivial
  · rintro trace s id c o r b phase g _ _ _ _ _ ⟨_,rfl⟩
    change Exchange.after (exchange id trace) o r = exchange id (trace ++ [.exec id o r])
    rw [exchange_snoc]
    cases o with
    | write data =>
      cases r with
      | true => simp [Exchange.after,Label.readBy,Label.wroteBy]
      | false => simp [Exchange.after,Label.readBy,Label.wroteBy]
    | _ => simp [Exchange.after,Label.readBy,Label.wroteBy]

theorem announced_step {s s' : ManagementServer} {label : Label} (hstep : Step s label s')
    (hevents : ∀ m ∈ s.broadcasts, Announces m.data) : Guarded Announced Step s label s' := by
  refine ⟨?_,hstep⟩
  rintro id m rfl
  cases hstep with
  | recv _ _ hm => exact hevents m (List.mem_of_getElem? hm)

/-- In every run only events are broadcast. -/
theorem run_announced {guard : ManagementServer → Label → Prop} {trace : Trace} {s : ManagementServer}
    (h : Run (Guarded guard Step) ManagementServer.new trace s) :
    Run (Guarded Announced Step) ManagementServer.new trace s ∧ ∀ m ∈ s.broadcasts, Announces m.data := by
  induction h with
  | refl => exact ⟨.refl,fun m hm => by cases hm⟩
  | @snoc trace s label s' _ hstep ih =>
    obtain ⟨hr,hevents⟩ := ih
    have hguarded := announced_step hstep.2 hevents
    refine ⟨hr.snoc hguarded,fun m hm => ?_⟩
    rw [step_broadcasts hstep.2,List.mem_append] at hm
    rcases hm with hm | hm
    · exact hevents m hm
    · cases label with
      | exec id o r =>
        obtain ⟨c,g,_,_,hproper,_⟩ := responseLaw_kept.run_effect hr hguarded
        cases o with
        | broadcast m' =>
          rw [List.mem_singleton.mp hm]
          exact hproper
        | _ => cases hm
      | _ => cases hm

theorem handled_mono (g : Exchange) (more : List Bytes) :
    g.handled <+: (Packet.framer.feedAll (g.reads ++ more)).1 := by
  induction more using List.reverseRecOn with
  | nil => rw [List.append_nil,Exchange.handled]
  | append_singleton more bytes ih =>
    rw [← List.append_assoc,Packet.framer.feedAll_concat]
    exact ih.trans (List.prefix_append _ _)

/-- In every run what a task has written without failure is a sequence of whole packets,
and those that are no events answer what it has received. -/
theorem run_answered {guard : ManagementServer → Label → Prop} {trace : Trace} {s : ManagementServer}
    (h : Run (Guarded guard Step) ManagementServer.new trace s) (id : UInt64) :
    Answered (exchange id trace).handled (exchange id trace).wrote := by
  have hannounced := (run_announced h).1
  clear h
  induction hannounced with
  | refl => exact .nil
  | @snoc trace s label s' hr hstep ih =>
    have hmono := ih.mono (handled_mono (exchange id trace) (label.readBy id)).sublist
    have hquiet : label.wroteBy id = [] →
        Answered (exchange id (trace ++ [label])).handled (exchange id (trace ++ [label])).wrote := by
      intro hwrote
      rw [exchange_snoc,hwrote,List.append_nil]
      exact hmono
    cases label with
    | exec id' o r =>
      cases o with
      | write data =>
        by_cases hown : id' = id ∧ r = true
        · obtain ⟨rfl,rfl⟩ := hown
          obtain ⟨c,g,_,_,hproper,_⟩ := responseLaw_kept.run_effect hr hstep
          have hanswered : Answered (exchange id' trace).handled ((exchange id' trace).wrote ++ [data]) :=
            hproper rfl
          rw [exchange_snoc]
          simpa [Label.readBy,Label.wroteBy,Exchange.handled] using hanswered
        · exact hquiet (if_neg hown)
      | _ => exact hquiet rfl
    | _ => exact hquiet rfl

/-- What a step of its own task adds to the two streams of a connection. -/
theorem step_carried {s s' : ManagementServer} {label : Label} {id : UInt64} {c c' : Connection}
    (hstep : Step s label s') (hactor : label.actor = some id)
    (hwrites : ∀ data written, label = .exec id (.write data) written → written = true)
    (hc : s.connections.lookup id = some c) (hc' : s'.connections.lookup id = some c') :
    c'.received = c.received ++ (label.readBy id).flatten ∧
      c'.written = c.written ++ (label.wroteBy id).flatten := by
  have hsame : ∀ {x : Connection}, x.received = c.received → x.written = c.written →
      x.received = c.received ++ ([] : List Bytes).flatten ∧
        x.written = c.written ++ ([] : List Bytes).flatten := by
    intro x hreceived hwritten
    rw [List.flatten_nil,List.append_nil,List.append_nil]
    exact ⟨hreceived,hwritten⟩
  cases hstep with
  | accept => cases hactor
  | @exec _ c₁ o k r b hl hp hans hb =>
    cases hactor
    cases hc.symm.trans hl
    cases (ManagementServer.setConnection_own _ _ _).symm.trans hc'
    cases o with
    | write data =>
      obtain rfl : r = true := hwrites data r rfl
      have hall : b = data := hb
      simp [Label.readBy,Label.wroteBy,hall]
    | _ =>
      obtain rfl : b = [] := hb
      exact hsame rfl (List.append_nil _)
  | @read _ c₁ _ r hl hp hlen =>
    cases hactor
    cases hc.symm.trans hl
    cases (ManagementServer.setConnection_own _ _ _).symm.trans hc'
    cases r with
    | ok bytes => simp [Label.readBy,Label.wroteBy,ReadResult.bytes]
    | error => exact hsame (List.append_nil _) rfl
  | _ hl =>
    cases hactor
    cases hc.symm.trans hl
    cases (ManagementServer.setConnection_own _ _ _).symm.trans hc'
    exact hsame rfl rfl

/-- What the socket of a connection has carried. -/
theorem run_carried {guard : ManagementServer → Label → Prop} {trace : Trace} {s : ManagementServer}
    {id : UInt64} (h : Run (Guarded guard Step) ManagementServer.new trace s)
    (hwrites : ∀ data written, .exec id (.write data) written ∈ trace → written = true) {c : Connection}
    (hc : s.connections.lookup id = some c) :
    c.received = (exchange id trace).reads.flatten ∧ c.written = (exchange id trace).wrote.flatten := by
  induction h generalizing c with
  | refl => simp [ManagementServer.new] at hc
  | @snoc trace s label s' hr hstep ih =>
    have hbefore : ∀ data written, .exec id (.write data) written ∈ trace → written = true :=
      fun data written hmem => hwrites data written (List.mem_append_left _ hmem)
    by_cases hactor : label.actor = some id
    · obtain ⟨c₀,hc₀⟩ := step_actor hstep.2 hactor
      obtain ⟨hreceived,hwritten⟩ := ih hbefore hc₀
      obtain ⟨hread,hwrote⟩ := step_carried hstep.2 hactor
        (fun data written hlabel => hwrites data written (by simp [hlabel])) hc₀ hc
      rw [exchange_snoc,List.flatten_append,List.flatten_append,hread,hwrote,hreceived,hwritten]
      exact ⟨rfl,rfl⟩
    · rw [exchange_other hactor]
      cases hc₀ : s.connections.lookup id with
      | some c₀ =>
        cases (step_other hr hstep.2 hactor hc₀).symm.trans hc
        exact ih hbefore hc₀
      | none =>
        obtain ⟨address,token,rfl,rfl,rfl,rfl⟩ := step_appears hstep.2 hactor hc₀ hc
        rw [run_exchange_fresh hr hc₀]
        exact ⟨rfl,rfl⟩

end VoiceApp.Management
