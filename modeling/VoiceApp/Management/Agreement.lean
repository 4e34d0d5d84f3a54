import VoiceApp.Management.Admission
import VoiceApp.Management.Responses

/-! # The order of events

There is one order of events, that of the broadcast channel. A task writes a broadcast only
right behind receiving it, and everything else that it writes is a response; so the events on
a connection come in that order, none of them twice.
-/
namespace VoiceApp.Management
open Protocol Server Framing

/-- The packet that a message is made of. -/
def BroadcastMessage.packet (m : BroadcastMessage) : Option Packet := packetOf m.data

/-- What a task has received and what it has written. -/
structure Hearing where
  got : List BroadcastMessage
  wrote : List Bytes

def Label.gotBy (id : UInt64) : Label → List BroadcastMessage
  | .recv id' (.ok m) => if id' = id then [m] else []
  | _ => []

/-- What the connection `id` has received and written by the steps of a run. -/
def hearing (id : UInt64) (trace : Trace) : Hearing :=
  ⟨trace.flatMap (Label.gotBy id),(exchange id trace).wrote⟩

namespace Hearing

def view (trace : Trace) (_ : ManagementServer) (id : UInt64) (_ : Connection) : Hearing :=
  hearing id trace

/-- The events among the packets written are messages received, each at most once and in
their order. -/
def Relayed (g : Hearing) : Prop :=
  ∃ packets, Framer.Encoded Packet.encode packets g.wrote ∧
    (packets.filter Packet.isEvent).Sublist (g.got.filterMap BroadcastMessage.packet)

def after (g : Hearing) : (o : Op) → o.Res → Hearing
  | .write data,written => if written = true then { g with wrote := g.wrote ++ [data] } else g
  | _,_ => g

theorem Relayed.nil : Relayed ⟨[],[]⟩ := ⟨[],.nil,.slnil⟩

theorem Relayed.more {g : Hearing} (h : g.Relayed) (more : List BroadcastMessage) :
    Relayed ⟨g.got ++ more,g.wrote⟩ := by
  obtain ⟨packets,hwrote,hevents⟩ := h
  refine ⟨packets,hwrote,hevents.trans ?_⟩
  rw [List.filterMap_append]
  exact List.sublist_append_left _ _

theorem Relayed.response {g : Hearing} (h : g.Relayed) {response : Packet} {data : Bytes}
    (hdata : response.encode = some data) (hres : response.isEvent = false) :
    Relayed ⟨g.got,g.wrote ++ [data]⟩ := by
  obtain ⟨packets,hwrote,hevents⟩ := h
  refine ⟨packets ++ [response],List.rel_append hwrote (.cons hdata .nil),?_⟩
  rw [List.filter_append,List.filter_cons_of_neg (by simp [hres]),List.filter_nil,List.append_nil]
  exact hevents

theorem Relayed.forward {g : Hearing} (h : g.Relayed) {m : BroadcastMessage} (hm : Announces m.data) :
    Relayed ⟨g.got ++ [m],g.wrote ++ [m.data]⟩ := by
  obtain ⟨packets,hwrote,hevents⟩ := h
  obtain ⟨packet,hdata,hevent⟩ := hm
  have hpacket : m.packet = some packet := packetOf_encode hdata
  refine ⟨packets ++ [packet],List.rel_append hwrote (.cons hdata .nil),?_⟩
  rw [List.filter_append,List.filterMap_append,List.filter_cons_of_pos hevent,List.filter_nil,
    List.filterMap_cons_some hpacket,List.filterMap_nil]
  exact hevents.append_right [packet]

end Hearing

/-- What is written must be relayed or a response. -/
def hearingDiscipline : Discipline Op Op.Res Hearing where
  rely := Eq
  answers _
    | .encode packet,r => packet.encode = some r
    | _,_ => True
  effect g o r g' := g' = g.after o r ∧ g'.Relayed
  rely_refl := Eq.refl
  rely_trans := Eq.trans

def hearingLaw : Law Hearing where
  view := Hearing.view
  discipline _ _ := hearingDiscipline
  early _ _ := Hearing.Relayed
  idle _ _ _ := Hearing.Relayed

/-! ## The programs -/

section Programs
variable {address : SocketAddr} {A : Type} {g : Hearing}

abbrev Relays (p : HandlerM A) (g : Hearing) : Prop := hearingDiscipline.wp (fun _ => Hearing.Relayed) p g

theorem relays_ret {a : A} (h : g.Relayed) : Relays (.ret a) g := by
  rintro g' rfl
  exact h

/-- An operation that writes nothing. -/
theorem relays_op {o : Op} {k : o.Res → HandlerM A} (h : g.Relayed) (hafter : ∀ r, g.after o r = g)
    (hk : ∀ r, Relays (k r) g) : Relays (.op o k) g := by
  rintro g' rfl r _
  exact ⟨g,⟨(hafter r).symm,h⟩,hk r⟩

theorem relays_announcing {exclude : Option SocketAddr} {packet : Packet} {k : HandlerM A} (h : g.Relayed)
    (hk : Relays k g) : Relays (announcing exclude packet k) g :=
  relays_op h (fun _ => rfl) fun _ => relays_op h (fun _ => rfl) fun _ => hk

theorem relays_response {response : Packet} {k : HandlerM (Except ServerError Unit)} (h : g.Relayed)
    (hres : response.isEvent = false) (hk : ∀ g', g'.Relayed → Relays k g') :
    Relays (.op (.encode response) fun data => writing data k) g := by
  rintro g' rfl data hdata
  refine ⟨g,⟨rfl,h⟩,?_⟩
  rintro g' rfl written _
  cases written with
  | true =>
    have hwritten := h.response hdata hres
    exact ⟨_,⟨rfl,hwritten⟩,hk _ hwritten⟩
  | false => exact ⟨g,⟨rfl,h⟩,relays_ret h⟩

theorem collectParticipants_relays (h : g.Relayed) : Relays collectParticipants g := by
  refine relays_op h (fun _ => rfl) fun addresses => ?_
  change Relays (addresses.mapM (fun a => perform (.read a)) >>= _) g
  have hreads := Discipline.wp_mapM (D := hearingDiscipline) (f := fun a => perform (.read a))
    (fun _ _ => Hearing.Relayed) (fun _ _ g₁ g₂ hr h => by cases hr; exact h)
    (fun a _ _ g' h => relays_op h (fun _ => rfl) fun _ => relays_ret h) addresses [] g h
  exact Discipline.wp_bind (Discipline.wp_mono (fun _ _ => relays_ret) hreads)

theorem changeVoice_relays {inVoice : Bool} {response : Packet} {event : UInt64 → Event}
    {announcement : UInt64 → Packet} (h : g.Relayed) (hres : response.isEvent = false) :
    Relays (changeVoice address inVoice response event announcement).run g := by
  rw [changeVoice_run]
  refine relays_op h (fun _ => rfl) fun record => ?_
  cases record with
  | none => exact relays_ret h
  | some user =>
    refine relays_response h hres fun g' h' => ?_
    exact relays_op h' (fun _ => rfl) fun _ => relays_announcing h' (relays_ret h')

theorem handleLoginRequest_relays (h : g.Relayed) (requestId : UInt64) (username : String) :
    Relays (handleLoginRequest address requestId username).run g := by
  cases hv : validUsername username with
  | false =>
    rw [handleLoginRequest_run_invalid address hv]
    exact relays_response h rfl fun _ h' => relays_ret h'
  | true =>
    rw [handleLoginRequest_run_valid address hv]
    refine relays_op h (fun _ => rfl) fun record => ?_
    cases record with
    | none => exact relays_ret h
    | some user =>
      refine Discipline.wp_bind (Discipline.wp_mono ?_ (collectParticipants_relays h))
      intro participants g' h'
      exact relays_response h' rfl fun _ h'' => relays_announcing h'' (relays_ret h'')

theorem handleChatMessageRequest_relays (h : g.Relayed) (requestId : UInt64) (message : String) :
    Relays (handleChatMessageRequest address requestId message).run g := by
  rw [handleChatMessageRequest_run]
  refine relays_op h (fun _ => rfl) fun record => ?_
  cases record with
  | none => exact relays_ret h
  | some user =>
    refine relays_response h rfl fun g' h' => ?_
    exact relays_op h' (fun _ => rfl) fun _ => relays_announcing h' (relays_ret h')

theorem handlePacket_relays (h : g.Relayed) (packet : Packet) :
    Relays (handlePacket address packet).run g := by
  cases packet with
  | loginRequest requestId username => exact handleLoginRequest_relays h requestId username
  | joinVoiceChannelRequest requestId => exact changeVoice_relays h rfl
  | leaveVoiceChannelRequest requestId => exact changeVoice_relays h rfl
  | chatMessageRequest requestId message => exact handleChatMessageRequest_relays h requestId message
  | pingRequest requestId =>
    rw [handlePacket,handlePingRequest_run]
    exact relays_response h rfl fun _ h' => relays_ret h'
  | userMuteState userId isMuted =>
    rw [handlePacket,handleUserMuteState_run]
    refine relays_op h (fun _ => rfl) fun record => ?_
    cases record with
    | none => exact relays_ret h
    | some user => exact relays_announcing h (relays_ret h)
  | _ => exact relays_ret h

theorem handleDisconnect_relays (h : g.Relayed) : Relays (handleDisconnect address) g := by
  rw [handleDisconnect_eq]
  refine relays_op h (fun _ => rfl) fun record => ?_
  cases record with
  | none => exact relays_ret h
  | some user =>
    refine relays_announcing h ?_
    split
    · exact relays_announcing h (relays_ret h)
    · exact relays_ret h

theorem handleRead_relays (h : g.Relayed) (packetBuffer : Bytes) (r : ReadResult) :
    Relays (handleRead address packetBuffer r) g := by
  have hstable : ∀ g₁ g₂ : Hearing, g₁ = g₂ → g₁.Relayed → g₂.Relayed := fun _ _ hr h => hr ▸ h
  exact handleRead_wp (fun _ => Hearing.Relayed) (fun _ => hstable)
    (fun packet _ _ h' => handlePacket_relays h' packet) (fun _ => hstable)
    (fun _ _ => handleDisconnect_relays h) (fun _ _ _ => h) fun _ _ _ _ h' => h'

end Programs

/-! ## Every run -/

theorem hearing_snoc (id : UInt64) (trace : Trace) (label : Label) : hearing id (trace ++ [label]) =
    ⟨(hearing id trace).got ++ label.gotBy id,(hearing id trace).wrote ++ label.wroteBy id⟩ := by
  simp only [hearing,exchange_snoc,List.flatMap_append,List.flatMap_singleton]

theorem hearing_quiet {id : UInt64} {label : Label} (hgot : label.gotBy id = []) (hwrote : label.wroteBy id = [])
    (trace : Trace) : hearing id (trace ++ [label]) = hearing id trace := by
  rw [hearing_snoc,hgot,hwrote,List.append_nil,List.append_nil]

/-- What other tasks do is not heard. -/
theorem hearing_other {id : UInt64} {label : Label} (hne : label.actor ≠ some id) (trace : Trace) :
    hearing id (trace ++ [label]) = hearing id trace := by
  have hid : ∀ {id'}, some id' ≠ some id → id' ≠ id := fun h heq => h (by rw [heq])
  refine hearing_quiet ?_ ?_ trace
  · cases label with
    | recv id' r =>
      cases r with
      | ok m => exact if_neg (hid hne)
      | _ => rfl
    | _ => rfl
  · cases label with
    | exec id' o r =>
      cases o with
      | write data => exact if_neg fun h => hid hne h.1
      | _ => rfl
    | _ => rfl

theorem hearing_fresh {guard : ManagementServer → Label → Prop} {trace : Trace} {s : ManagementServer}
    (h : Run (Guarded guard Step) ManagementServer.new trace s) {id : UInt64}
    (hnone : s.connections.lookup id = none) : hearing id trace = ⟨[],[]⟩ := by
  refine run_unborn (P := fun trace => hearing id trace = ⟨[],[]⟩) rfl ?_ h hnone
  intro trace label hactor hhearing
  rw [hearing_other hactor,hhearing]

theorem hearingLaw_kept : hearingLaw.Kept Announced := by
  have hquiet : ∀ {trace : Trace} {id : UInt64} {label : Label}, label.gotBy id = [] →
      label.wroteBy id = [] → (hearing id trace).Relayed → (hearing id (trace ++ [label])).Relayed := by
    intro trace id label hgot hwrote h
    rw [hearing_quiet hgot hwrote]
    exact h
  constructor
  · rintro id address g g' rfl h
    exact h
  · rintro id address b g g' rfl h
    exact h
  · intro trace s label s' id c _ _ hne _ _
    exact (hearing_other hne trace).symm
  · intro trace s address token hr _
    refine hquiet rfl rfl ?_
    rw [hearing_fresh hr (run_fresh hr)]
    exact .nil
  · intro trace s id c _ _ h
    exact hquiet rfl rfl h
  · intro trace s id c _ _ h
    exact hquiet rfl rfl h
  · intro trace s id c b r phase _ _ _ _ h
    refine Discipline.wp_mono (fun outcome g h => ?_) (handleRead_relays (hquiet rfl rfl h) b r)
    cases outcome with
    | proceed => exact h
    | exit => trivial
  · intro trace s id c b m phase _ hguard _ _ _ h
    have hgot : hearing id (trace ++ [.recv id (.ok m)]) =
        ⟨(hearing id trace).got ++ [m],(hearing id trace).wrote⟩ := by
      rw [hearing_snoc]
      simp [Label.gotBy,Label.wroteBy]
    refine Eq.mpr (congrArg (hearingLaw.Keeps id c.address _) hgot) ?_
    have h : (hearing id trace).Relayed := h
    cases hsend : m.shouldSendTo c.address with
    | false =>
      rw [handleRecv_filtered _ hsend]
      rintro g' rfl
      exact h.more [m]
    | true =>
      rw [handleRecv_sent _ hsend]
      rintro g' rfl written _
      cases written with
      | true =>
        have hforward := h.forward (hguard id m rfl)
        refine ⟨_,⟨rfl,hforward⟩,?_⟩
        rintro g' rfl
        exact hforward
      | false =>
        refine ⟨_,⟨rfl,h.more [m]⟩,?_⟩
        rintro g' rfl
        trivial
  · intro trace s id c b _ _ _ _ _ h
    exact hquiet rfl rfl h
  · intro trace s id c o r _ _ _ hans
    cases o with
    | encode packet => exact hans
    | _ => trivial
  · rintro trace s id c o r b phase g _ _ _ _ _ ⟨rfl,_⟩
    change Hearing.after (hearing id trace) o r = hearing id (trace ++ [.exec id o r])
    rw [hearing_snoc]
    cases o with
    | write data => cases r <;> simp [Hearing.after,Label.gotBy,Label.wroteBy]
    | _ => simp [Hearing.after,Label.gotBy,Label.wroteBy]

/-- In every run the events that a task has written are messages it has received. -/
theorem run_relayed {guard : ManagementServer → Label → Prop} {trace : Trace} {s : ManagementServer}
    (h : Run (Guarded guard Step) ManagementServer.new trace s) (id : UInt64) :
    (hearing id trace).Relayed := by
  have hannounced := (run_announced h).1
  clear h
  induction hannounced with
  | refl => exact .nil
  | @snoc trace s label s' hr hstep ih =>
    have hquiet : label.wroteBy id = [] → (hearing id (trace ++ [label])).Relayed := by
      intro hwrote
      rw [hearing_snoc,hwrote,List.append_nil]
      exact ih.more _
    cases label with
    | exec id' o r =>
      cases o with
      | write data =>
        by_cases hown : id' = id ∧ r = true
        · obtain ⟨rfl,rfl⟩ := hown
          obtain ⟨c,g,_,_,rfl,hrelayed⟩ := hearingLaw_kept.run_effect hr hstep
          have hrelayed : Hearing.Relayed ⟨(hearing id' trace).got,(hearing id' trace).wrote ++ [data]⟩ := hrelayed
          rw [hearing_snoc]
          simpa [Label.gotBy,Label.wroteBy] using hrelayed
        · exact hquiet (if_neg hown)
      | _ => exact hquiet rfl
    | _ => exact hquiet rfl

/-- What a task has received is in front of its place in the channel. -/
theorem run_got {guard : ManagementServer → Label → Prop} {trace : Trace} {s : ManagementServer}
    (h : Run (Guarded guard Step) ManagementServer.new trace s) {id : UInt64} {c : Connection}
    (hc : s.connections.lookup id = some c) :
    (hearing id trace).got.Sublist (s.broadcasts.take c.cursor) := by
  induction h generalizing c with
  | refl => simp [ManagementServer.new] at hc
  | @snoc trace s label s' hr hs ih =>
    have hgrows (n : ℕ) : (s.broadcasts.take n).Sublist (s'.broadcasts.take n) := by
      rw [step_broadcasts hs.2,List.take_append]
      exact List.sublist_append_left _ _
    by_cases hactor : label.actor = some id
    · obtain ⟨c₀,hc₀⟩ := step_actor hs.2 hactor
      have hold := ih hc₀
      have hfurther : ∀ n, c₀.cursor ≤ n → label.gotBy id = [] →
          (hearing id (trace ++ [label])).got.Sublist (s'.broadcasts.take n) := by
        intro n hn hgot
        rw [hearing_snoc,hgot,List.append_nil]
        exact (hold.trans (List.take_sublist_take_left hn)).trans (hgrows n)
      obtain ⟨_,hs⟩ := hs
      cases hs with
      | accept => cases hactor
      | subscribe hl =>
        cases hactor
        cases hc₀.symm.trans hl
        cases (ManagementServer.setConnection_own _ _ _).symm.trans hc
        rw [hearing_quiet rfl rfl]
        change List.Sublist _ (s.broadcasts.take s.broadcasts.length)
        rw [List.take_length]
        exact hold.trans (List.take_sublist _ _)
      | @recv _ _ b m hl hp hm =>
        cases hactor
        cases hc₀.symm.trans hl
        cases (ManagementServer.setConnection_own _ _ _).symm.trans hc
        have hgot : Label.gotBy id (.recv id (.ok m)) = [m] := if_pos rfl
        have htake : s.broadcasts.take (c₀.cursor + 1) = s.broadcasts.take c₀.cursor ++ [m] := by
          rw [List.take_add_one,hm]
          rfl
        rw [hearing_snoc,hgot]
        change List.Sublist _ (s.broadcasts.take (c₀.cursor + 1))
        rw [htake]
        exact hold.append_right [m]
      | lagged hl hp hring =>
        cases hactor
        cases hc₀.symm.trans hl
        cases (ManagementServer.setConnection_own _ _ _).symm.trans hc
        have hle : c₀.cursor ≤ s.broadcasts.length - broadcastChannelCapacity := by omega
        exact hfurther _ hle rfl
      | _ hl =>
        cases hactor
        cases hc₀.symm.trans hl
        cases (ManagementServer.setConnection_own _ _ _).symm.trans hc
        exact hfurther _ le_rfl rfl
    · rw [hearing_other hactor]
      cases hc₀ : s.connections.lookup id with
      | none =>
        rw [hearing_fresh hr hc₀]
        exact List.nil_sublist _
      | some c₀ =>
        cases (step_other hr hs.2 hactor hc₀).symm.trans hc
        exact (ih hc₀).trans (hgrows _)

/-- The events in the order of the broadcast channel. -/
def ManagementServer.announcements (s : ManagementServer) : List Packet :=
  s.broadcasts.filterMap BroadcastMessage.packet

/-- The events in what arrives from a connection are in the common order, however it is read. -/
theorem run_events_ordered {guard : ManagementServer → Label → Prop} {trace : Trace} {s : ManagementServer}
    (h : Run (Guarded guard Step) ManagementServer.new trace s) (id : UInt64) {reads : List Bytes}
    (hreads : reads.flatten <+: (exchange id trace).wrote.flatten) :
    ((Packet.framer.feedAll reads).1.filter Packet.isEvent).Sublist s.announcements := by
  obtain ⟨packets,hwrote,hevents⟩ := run_relayed h id
  obtain ⟨k,kept,hsplit,_⟩ := Packet.framer_encodes.split_stream hwrote hreads
  rw [Packet.framer_encodes.feedAll_eq hwrote hreads,hsplit]
  have hpart : ((packets.take k).filter Packet.isEvent).Sublist (packets.filter Packet.isEvent) :=
    (List.take_sublist k packets).filter _
  refine (hpart.trans hevents).trans ?_
  cases hc : s.connections.lookup id with
  | none =>
    rw [hearing_fresh h hc]
    exact List.nil_sublist _
  | some c => exact ((run_got h hc).trans (List.take_sublist _ _)).filterMap _

end VoiceApp.Management
