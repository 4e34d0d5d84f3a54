import VoiceApp.Management.Identity
import VoiceApp.Management.Responses

/-! # Before and after the login

A connection has its record from the accept on, so no handler asks whether it has logged
in. A login is what lets a user take part if, until then, the client sends nothing but
logins and pings, stays connected and is sent no broadcast.
-/
namespace VoiceApp.Management
open Protocol Server Framing

/-! ## What a client has been told -/

/-- The packet at the beginning of these bytes. -/
def packetOf (data : Bytes) : Option Packet :=
  match Packet.decode data with
  | .ok (packet,_) => some packet
  | .error _ => none

theorem packetOf_encode {packet : Packet} {data : Bytes} (h : packet.encode = some data) :
    packetOf data = some packet := by
  rw [packetOf,Packet.decode_self h]

/-- The packet accepts the login of the user `id`. -/
def accepts (id : UInt64) : Packet → Bool
  | .loginResponse _ id' _ _ => id' == id
  | _ => false

/-- The packet introduces the user `id` to the others. -/
def introduces (id : UInt64) : Packet → Bool
  | .userJoinedServer participant => participant.userId == id
  | _ => false

/-- The message introduces the user `id`. -/
def BroadcastMessage.brings (id : UInt64) (m : BroadcastMessage) : Bool :=
  (packetOf m.data).any (introduces id)

/-- The message is about the user `id`. -/
def BroadcastMessage.names (id : UInt64) (m : BroadcastMessage) : Bool :=
  (packetOf m.data).bind named == some id

theorem brings_encode {packet : Packet} {m : BroadcastMessage} (h : packet.encode = some m.data)
    (id : UInt64) : m.brings id = introduces id packet := by
  rw [BroadcastMessage.brings,packetOf_encode h]
  rfl

theorem names_encode {packet : Packet} {m : BroadcastMessage} (h : packet.encode = some m.data)
    (id : UInt64) : m.names id = (named packet == some id) := by
  rw [BroadcastMessage.names,packetOf_encode h]
  rfl

/-- Who is introduced is named. -/
theorem brings_names {id : UInt64} {m : BroadcastMessage} (h : m.brings id = true) :
    m.names id = true := by
  obtain ⟨packet,hpacket,hbrings⟩ := (Option.any_eq_true _ _).mp h
  rw [BroadcastMessage.names,hpacket]
  cases packet with
  | userJoinedServer participant =>
    have hid : participant.userId = id := beq_iff_eq.mp hbrings
    simp [named,hid]
  | _ => cases hbrings

/-- An iteration over the users map: its addresses, and the records found at those visited
so far. -/
structure Scan where
  addresses : List SocketAddr
  records : List (Option User)

/-- What a task has done for its client: the packets written without failure, whether its
user has been introduced, the last iteration over the users map, and the message it has
received and not written yet. -/
structure Admission where
  told : List Packet
  introduced : Bool
  scan : Option Scan
  held : Option BroadcastMessage

namespace Admission

/-- The task of the connection `id` takes a step. -/
def own (id : UInt64) (g : Admission) : Label → Admission
  | .recv _ (.ok m) => ⟨g.told,g.introduced,g.scan,some m⟩
  | .exec _ (.write data) written =>
    if written then ⟨g.told ++ (packetOf data).toList,g.introduced,g.scan,none⟩ else g
  | .exec _ (.broadcast m) _ => ⟨g.told,g.introduced || m.brings id,g.scan,none⟩
  | .exec _ .keys addresses => ⟨g.told,g.introduced,some ⟨addresses,[]⟩,none⟩
  | .exec _ (.read _) record =>
    ⟨g.told,g.introduced,g.scan.map fun scan => ⟨scan.addresses,scan.records ++ [record]⟩,none⟩
  | _ => ⟨g.told,g.introduced,g.scan,none⟩

def observe (id : UInt64) (g : Admission) (label : Label) : Admission :=
  if label.actor = some id then g.own id label else g

/-- The login has been accepted. -/
def accepted (id : UInt64) (g : Admission) : Bool := g.told.any (accepts id)

/-- Nothing that was received is still to be written. -/
def Free (address : SocketAddr) (g : Admission) : Prop :=
  ∀ m, g.held = some m → m.shouldSendTo address = false

end Admission

/-- The admission of the connection `id` by the steps of a run. -/
def admission (id : UInt64) (trace : Trace) : Admission :=
  trace.foldl (Admission.observe id) ⟨[],false,none,none⟩

theorem admission_snoc (id : UInt64) (trace : Trace) (label : Label) :
    admission id (trace ++ [label]) = (admission id trace).observe id label := by
  simp only [admission,List.foldl_append,List.foldl_cons,List.foldl_nil]

theorem admission_own {id : UInt64} {label : Label} (h : label.actor = some id) (trace : Trace) :
    admission id (trace ++ [label]) = (admission id trace).own id label := by
  rw [admission_snoc,Admission.observe,if_pos h]

theorem admission_other {id : UInt64} {label : Label} (h : label.actor ≠ some id) (trace : Trace) :
    admission id (trace ++ [label]) = admission id trace := by
  rw [admission_snoc,Admission.observe,if_neg h]

/-- An operation takes nothing back. -/
theorem Admission.own_exec (id : UInt64) (g : Admission) (o : Op) (r : o.Res) :
    g.told <+: (g.own id (.exec id o r)).told ∧
      (g.introduced = true → (g.own id (.exec id o r)).introduced = true) ∧
      ∀ address, g.Free address → (g.own id (.exec id o r)).Free address := by
  have hnone : ∀ address told introduced scan, Free address ⟨told,introduced,scan,none⟩ :=
    fun _ _ _ _ m hm => by cases hm
  cases o with
  | write data =>
    cases r with
    | true => exact ⟨List.prefix_append _ _,fun h => h,fun a _ => hnone a _ _ _⟩
    | false => exact ⟨List.prefix_refl _,fun h => h,fun _ h => h⟩
  | broadcast m =>
    refine ⟨List.prefix_refl _,fun h => ?_,fun a _ => hnone a _ _ _⟩
    change (g.introduced || m.brings id) = true
    rw [h,Bool.true_or]
  | _ => exact ⟨List.prefix_refl _,fun h => h,fun a _ => hnone a _ _ _⟩

/-- What a client has been told it stays told. -/
theorem told_mono {told told' : List Packet} {p : Packet → Bool} (h : told <+: told')
    (htold : told.any p = true) : told'.any p = true := by
  obtain ⟨packet,hmem,hpacket⟩ := List.any_eq_true.mp htold
  exact List.any_eq_true.mpr ⟨packet,h.subset hmem,hpacket⟩

theorem Admission.accepted_mono {id : UInt64} {g g' : Admission} (h : g.told <+: g'.told)
    (haccepted : g.accepted id = true) : g'.accepted id = true :=
  told_mono h haccepted

/-! ## The law -/

/-- The record of a task and its admission. -/
structure Affairs where
  own : Own
  admission : Admission

namespace Affairs

def view (trace : Trace) (s : ManagementServer) (id : UInt64) (c : Connection) : Affairs :=
  ⟨Own.view trace s id c,Management.admission id trace⟩

def after (id : UInt64) (g : Affairs) (o : Op) (r : o.Res) : Affairs :=
  ⟨g.own.after o r,g.admission.own id (.exec id o r)⟩

end Affairs

/-- What joining, leaving and muting change. -/
def User.voiceState (u : User) : Bool × Bool := (u.inVoice,u.isMuted)

/-- The events that tell the relay who is in voice. -/
def voiceEvent : Event → Bool
  | .voiceJoined _ => true
  | .voiceLeft _ => true
  | _ => false

/-- What the admission has to do with an operation. -/
def Allows (id : UInt64) (address : SocketAddr) (g : Affairs) : Op → Prop
  | .getMut _ update =>
    (∀ u, u.username.isSome = true → (update u).username.isSome = true) ∧
      (g.admission.accepted id = true ∨ ∀ u, (update u).voiceState = u.voiceState)
  | .remove _ => g.admission.accepted id = true ∧ g.admission.introduced = true
  | .keys => g.admission.accepted id = true ∨ g.admission.scan = none
  | .read a => ∃ scan, g.admission.scan = some scan ∧ scan.addresses[scan.records.length]? = some a
  | .write data => ∃ packet : Packet, packet.encode = some data ∧
      (packet.isEvent = true → g.admission.accepted id = true ∧
        ∃ m, g.admission.held = some m ∧ m.data = data ∧ m.shouldSendTo address = true) ∧
      ∀ requestId token participants, packet = .loginResponse requestId id token participants →
        (∃ u, g.own.record = some u ∧ u.username.isSome = true) ∧
        ∃ scan, g.admission.scan = some scan ∧ scan.records.length = scan.addresses.length ∧
          participants = scan.records.filterMap fun record => record.bind User.participant
  | .broadcast m => g.admission.accepted id = true ∧
      (m.exclude = none ∨ m.exclude = some address) ∧
      ∃ packet : Packet, packet.encode = some m.data ∧ packet.isEvent = true ∧
        named packet = some id ∧ (introduces id packet = true ∨ g.admission.introduced = true)
  | .send e => voiceEvent e = true → g.admission.accepted id = true
  | _ => True

/-- Between taking its name and being accepted a user is shown the others: until the
iteration over the users map has come to its end, the next operation takes it on. -/
def Gathers (id : UInt64) (g : Affairs) (o : Op) : Prop :=
  g.admission.accepted id = false → (∃ u, g.own.record = some u ∧ u.username.isSome = true) →
    match g.admission.scan with
    | none => o = .keys
    | some scan => scan.records.length < scan.addresses.length → ∃ a, o = .read a

theorem Gathers.keys {id : UInt64} {g : Affairs} {o : Op} (h : Gathers id g o)
    (hout : g.admission.accepted id = false)
    (hnamed : ∃ u, g.own.record = some u ∧ u.username.isSome = true) (hscan : g.admission.scan = none) :
    o = .keys := by
  have hgathers := h hout hnamed
  rw [hscan] at hgathers
  exact hgathers

theorem Gathers.read {id : UInt64} {g : Affairs} {o : Op} {scan : Scan} (h : Gathers id g o)
    (hout : g.admission.accepted id = false)
    (hnamed : ∃ u, g.own.record = some u ∧ u.username.isSome = true) (hscan : g.admission.scan = some scan)
    (hlt : scan.records.length < scan.addresses.length) : ∃ a, o = .read a := by
  have hgathers := h hout hnamed
  rw [hscan] at hgathers
  exact hgathers hlt

/-- The operation is allowed, touches no other record, and comes after the message held has
been written. -/
structure Proper (id : UInt64) (address : SocketAddr) (g : Affairs) (o : Op) : Prop where
  here : o.Local address
  forwards : ∀ m, g.admission.held = some m → m.shouldSendTo address = true → o = .write m.data
  allowed : Allows id address g o
  gathers : Gathers id g o

/-- What is written when the login becomes accepted. -/
theorem accepting_write {id : UInt64} {address : SocketAddr} {g : Affairs} {data : Bytes}
    (h : Allows id address g (.write data))
    (haccepted : (g.admission.own id (.exec id (.write data) true)).accepted id = true) :
    g.admission.accepted id = true ∨ ∃ requestId token participants,
      packetOf data = some (.loginResponse requestId id token participants) ∧
      (∃ u, g.own.record = some u ∧ u.username.isSome = true) ∧
      ∃ scan, g.admission.scan = some scan ∧ scan.records.length = scan.addresses.length ∧
        participants = scan.records.filterMap fun record => record.bind User.participant := by
  obtain ⟨packet,hpacket,_,hresponse⟩ := h
  have htold : (g.admission.told ++ (packetOf data).toList).any (accepts id) = true := haccepted
  rw [packetOf_encode hpacket,List.any_append,Bool.or_eq_true] at htold
  rcases htold with htold | htold
  · exact .inl htold
  · cases packet with
    | loginResponse requestId id' token participants =>
      have hid : id' = id := by simpa [accepts] using htold
      cases hid
      exact .inr ⟨requestId,token,participants,packetOf_encode hpacket,hresponse _ _ _ rfl⟩
    | _ => simp [accepts] at htold

def admissionDiscipline (id : UInt64) (address : SocketAddr) : Discipline Op Op.Res Affairs where
  rely := Eq
  answers g
    | .getMut a update,r => a = address → r = g.own.record.map update
    | .get a,r => a = address → r = g.own.record
    | .remove a,r => a = address → r = g.own.record
    | .encode packet,r => packet.encode = some r
    | .write data,written => (packetOf data).any (accepts id) = true → written = true
    | _,_ => True
  effect g o r g' := Proper id address g o ∧ g' = g.after id o r
  rely_refl := Eq.refl
  rely_trans := Eq.trans

/-- Before the login. -/
structure Outside (id : UInt64) (address : SocketAddr) (g : Affairs) : Prop where
  record : ∃ u, g.own.record = some u ∧ u.id = id ∧ u.username = none
  accepted : g.admission.accepted id = false
  introduced : g.admission.introduced = false
  scan : g.admission.scan = none
  free : g.admission.Free address

/-- After the login. -/
structure Inside (id : UInt64) (address : SocketAddr) (g : Affairs) : Prop where
  record : ∃ u, g.own.record = some u ∧ u.id = id ∧ u.username.isSome = true
  accepted : g.admission.accepted id = true
  introduced : g.admission.introduced = true
  free : g.admission.Free address

def admissionLaw : Law Affairs where
  view := Affairs.view
  discipline := admissionDiscipline
  early id address g := id ≠ 0 ∧ Outside id address g
  idle id address _ g := id ≠ 0 ∧ (Outside id address g ∨ Inside id address g)

/-! ## The programs -/

section Programs
variable {id : UInt64} {address : SocketAddr} {A : Type} {post : A → Affairs → Prop} {g : Affairs}

abbrev Admitted (id : UInt64) (address : SocketAddr) (post : A → Affairs → Prop) (p : HandlerM A)
    (g : Affairs) : Prop :=
  (admissionDiscipline id address).wp post p g

theorem admitted_ret {a : A} (h : post a g) : Admitted id address post (.ret a) g := by
  rintro g' rfl
  exact h

/-- An operation with nothing in between. -/
theorem admitted_op {o : Op} {k : o.Res → HandlerM A} (hfree : g.admission.Free address)
    (hlocal : o.Local address) (hallowed : Allows id address g o) (hgathers : Gathers id g o)
    (h : ∀ r, (admissionDiscipline id address).answers g o r →
      Admitted id address post (k r) (g.after id o r)) :
    Admitted id address post (.op o k) g := by
  rintro g' rfl r hans
  refine ⟨_,⟨⟨hlocal,fun m hm hsend => ?_,hallowed,hgathers⟩,rfl⟩,h r hans⟩
  rw [hfree m hm] at hsend
  cases hsend

theorem gathers_accepted (h : g.admission.accepted id = true) (o : Op) : Gathers id g o := by
  intro hnot
  rw [h] at hnot
  cases hnot

theorem gathers_unnamed (h : ∀ u, g.own.record = some u → u.username = none) (o : Op) :
    Gathers id g o := by
  rintro - ⟨u,hu,hnamed⟩
  rw [h u hu] at hnamed
  cases hnamed

/-- An iteration over the users map takes itself on. -/
theorem gathers_read {scan : Scan} (h : g.admission.scan = some scan) (a : SocketAddr) :
    Gathers id g (.read a) := by
  intro _ _
  rw [h]
  exact fun _ => ⟨a,rfl⟩

theorem gathers_complete {scan : Scan} (h : g.admission.scan = some scan)
    (hcomplete : scan.records.length = scan.addresses.length) (o : Op) : Gathers id g o := by
  intro _ _
  rw [h]
  intro hlt
  rw [hcomplete] at hlt
  exact absurd hlt (Nat.lt_irrefl _)

theorem Outside.gathers (h : Outside id address g) (o : Op) : Gathers id g o := by
  obtain ⟨u,hu,_,hunnamed⟩ := h.record
  refine gathers_unnamed (fun u' hu' => ?_) o
  cases hu.symm.trans hu'
  exact hunnamed

/-- After the login an operation that leaves the record alone. -/
theorem Inside.after (h : Inside id address g) {o : Op} {r : o.Res}
    (hrecord : (g.own.after o r).record = g.own.record) : Inside id address (g.after id o r) := by
  obtain ⟨htold,hintroduced,hfree⟩ := g.admission.own_exec id o r
  refine ⟨?_,Admission.accepted_mono htold h.accepted,hintroduced h.introduced,hfree _ h.free⟩
  change ∃ u, (g.own.after o r).record = some u ∧ _
  rw [hrecord]
  exact h.record

/-- After the login an operation that leaves the record alone. -/
theorem Inside.op (h : Inside id address g) {o : Op} {k : o.Res → HandlerM A}
    (hlocal : o.Local address) (hallowed : Allows id address g o)
    (hrecord : ∀ r, (g.own.after o r).record = g.own.record)
    (hk : ∀ r, (admissionDiscipline id address).answers g o r → ∀ g', Inside id address g' →
      Admitted id address post (k r) g') :
    Admitted id address post (.op o k) g :=
  admitted_op h.free hlocal hallowed (gathers_accepted h.accepted o) fun r hans =>
    hk r hans _ (h.after (hrecord r))

/-- After the login the own record changes, its name and id apart. -/
theorem Inside.update (h : Inside id address g) {update : User → User} {k : Option User → HandlerM A}
    (hid : ∀ u, (update u).id = u.id) (hname : ∀ u, (update u).username = u.username)
    (hk : ∀ u, u.id = id → ∀ g', Inside id address g' → Admitted id address post (k (some u)) g') :
    Admitted id address post (.op (.getMut address update) k) g := by
  obtain ⟨u,hown,hu,hnamed⟩ := h.record
  refine admitted_op h.free ⟨rfl,hid⟩ ⟨fun u hu => by rw [hname]; exact hu,.inl h.accepted⟩
    (gathers_accepted h.accepted _) fun r hr => ?_
  obtain rfl : r = some (update u) := by
    rw [hr rfl,hown]
    rfl
  obtain ⟨htold,hintroduced,hfree⟩ := g.admission.own_exec id (.getMut address update) (some (update u))
  refine hk _ ((hid u).trans hu) _ ⟨⟨_,rfl,(hid u).trans hu,?_⟩,
    Admission.accepted_mono htold h.accepted,hintroduced h.introduced,hfree _ h.free⟩
  rw [hname]
  exact hnamed

/-- After the login the task announces something about its user. -/
theorem Inside.announce (h : Inside id address g) {exclude : Option SocketAddr} {event : Packet}
    {k : HandlerM A} (hexclude : exclude = none ∨ exclude = some address)
    (hevent : event.isEvent = true) (hnamed : named event = some id)
    (hk : ∀ g', Inside id address g' → Admitted id address post k g') :
    Admitted id address post (announcing exclude event k) g := by
  refine h.op trivial trivial (fun _ => rfl) fun data hdata g' h' => ?_
  exact h'.op trivial ⟨h'.accepted,hexclude,event,hdata,hevent,hnamed,.inr h'.introduced⟩ (fun _ => rfl)
    fun _ _ g'' h'' => hk g'' h''

/-- A response that accepts no login, before or after the login. -/
theorem admitted_respond {P : Affairs → Prop} (hfree : ∀ g, P g → g.admission.Free address)
    (hgathers : ∀ g o, P g → Gathers id g o)
    (hencode : ∀ g packet data, P g → P (g.after id (.encode packet) data))
    (hwrite : ∀ g data written, (packetOf data).any (accepts id) = false → P g →
      P (g.after id (.write data) written))
    (h : P g) {response : Packet} (hevent : response.isEvent = false)
    (haccepts : accepts id response = false) {k : HandlerM (Except ServerError Unit)}
    (hk : ∀ g', P g' → Admitted id address (fun _ => P) k g') :
    Admitted id address (fun _ => P) (.op (.encode response) fun data => writing data k) g := by
  refine admitted_op (hfree g h) trivial trivial (hgathers g _ h) fun data hdata => ?_
  have h' := hencode g response data h
  refine admitted_op (hfree _ h') trivial ⟨response,hdata,fun he => ?_,?_⟩ (hgathers _ _ h')
    fun written _ => ?_
  · rw [hevent] at he
    cases he
  · rintro requestId token participants rfl
    simp [accepts] at haccepts
  · have h'' := hwrite _ data written (by rw [packetOf_encode hdata]; exact haccepts) h'
    cases written with
    | true => exact hk _ h''
    | false => exact admitted_ret h''

theorem Inside.respond (h : Inside id address g) {response : Packet} (hevent : response.isEvent = false)
    (haccepts : accepts id response = false) {k : HandlerM (Except ServerError Unit)}
    (hk : ∀ g', Inside id address g' → Admitted id address (fun _ => Inside id address) k g') :
    Admitted id address (fun _ => Inside id address)
      (.op (.encode response) fun data => writing data k) g :=
  admitted_respond (fun _ h => h.free) (fun _ o h => gathers_accepted h.accepted o)
    (fun _ _ _ h => h.after rfl) (fun _ _ _ _ h => h.after rfl)
    h hevent haccepts hk

theorem Outside.respond (h : Outside id address g) {response : Packet} (hevent : response.isEvent = false)
    (haccepts : accepts id response = false) :
    Admitted id address (fun _ => Outside id address)
      (.op (.encode response) fun data => writing data (.ret (.ok ()))) g := by
  refine admitted_respond (fun _ h => h.free) (fun _ o h => h.gathers o) (fun g packet data h => ?_)
    (fun g data written hdata h => ?_) h hevent haccepts fun _ h => admitted_ret h
  · exact ⟨h.record,h.accepted,h.introduced,h.scan,(g.admission.own_exec id (.encode packet) data).2.2 _ h.free⟩
  · refine ⟨h.record,?_,?_,?_,(g.admission.own_exec id (.write data) written).2.2 _ h.free⟩
    · cases written with
      | false => exact h.accepted
      | true =>
        have hbefore : g.admission.told.any (accepts id) = false := h.accepted
        have hnew : (packetOf data).toList.any (accepts id) = false := by
          cases hpacket : packetOf data with
          | none => rfl
          | some packet => simpa [hpacket] using hdata
        change (g.admission.told ++ (packetOf data).toList).any (accepts id) = false
        rw [List.any_append,hbefore,hnew,Bool.or_false]
    · cases written <;> exact h.introduced
    · cases written <;> exact h.scan

/-- An iteration over the users map that has come to its end with these participants. -/
structure Scanned (address : SocketAddr) (g : Affairs) (participants : List ParticipantInfo) (g' : Affairs) :
    Prop where
  own : g'.own = g.own
  free : g'.admission.Free address
  scan : ∃ scan, g'.admission.scan = some scan ∧ scan.records.length = scan.addresses.length ∧
    participants = scan.records.filterMap fun record => record.bind User.participant

theorem collectParticipants_admitted (hfree : g.admission.Free address)
    (hfirst : g.admission.accepted id = true ∨ g.admission.scan = none) :
    Admitted id address (Scanned address g) collectParticipants g := by
  have hgathers : Gathers id g .keys := by
    rcases hfirst with haccepted | hscan
    · exact gathers_accepted haccepted _
    · intro _ _
      rw [hscan]
  refine admitted_op hfree trivial hfirst hgathers fun addresses _ => ?_
  change Admitted id address _ (addresses.mapM (fun a => perform (.read a)) >>= _) _
  have hreads := Discipline.wp_mapM (D := admissionDiscipline id address)
    (f := fun a => perform (.read a))
    (fun rest records g' => g'.own = g.own ∧
      g'.admission.Free address ∧ g'.admission.scan = some ⟨addresses,records⟩ ∧
      ∃ visited, addresses = visited ++ rest ∧ visited.length = records.length)
    (fun _ _ g₁ g₂ hr h => by cases hr; exact h)
    (fun a rest records g₁ h₁ => by
      obtain ⟨hown,hfree₁,hscan,visited,haddresses,hlen⟩ := h₁
      refine admitted_op hfree₁ trivial ⟨_,hscan,?_⟩ (gathers_read hscan a) fun record _ =>
        admitted_ret ?_
      · rw [haddresses,← hlen,List.getElem?_append_right (Nat.le_refl _),Nat.sub_self]
        rfl
      · refine ⟨hown,(g₁.admission.own_exec id (.read a) record).2.2 _ hfree₁,?_,
          visited ++ [a],?_,?_⟩
        · change g₁.admission.scan.map _ = _
          rw [hscan]
          rfl
        · rw [haddresses,List.append_assoc]
          rfl
        · rw [List.length_append,List.length_append,hlen]
          rfl)
    addresses [] (g.after id .keys addresses)
    ⟨rfl,(g.admission.own_exec id .keys addresses).2.2 _ hfree,rfl,[],rfl,rfl⟩
  refine Discipline.wp_bind (Discipline.wp_mono ?_ hreads)
  rintro records g₁ ⟨hown,hfree₁,hscan,visited,haddresses,hlen⟩
  rw [List.append_nil] at haddresses
  exact admitted_ret ⟨hown,hfree₁,_,hscan,by rw [haddresses,hlen],rfl⟩

/-! ## The handlers -/

theorem changeVoice_inside (h : Inside id address g) {inVoice : Bool} {response : Packet}
    {event : UInt64 → Event} {announcement : UInt64 → Packet} (hresponse : response.isEvent = false)
    (haccepts : accepts id response = false) (hevent : (announcement id).isEvent = true)
    (hnamed : named (announcement id) = some id) :
    Admitted id address (fun _ => Inside id address)
      (changeVoice address inVoice response event announcement).run g := by
  rw [changeVoice_run]
  refine h.update (fun _ => rfl) (fun _ => rfl) fun u hu g' h' => ?_
  refine h'.respond hresponse haccepts fun g'' h'' => ?_
  refine h''.op trivial (fun _ => h''.accepted) (fun _ => rfl) fun _ _ g₃ h₃ => ?_
  rw [hu]
  exact h₃.announce (.inr rfl) hevent hnamed fun _ h₄ => admitted_ret h₄

theorem handleChatMessageRequest_inside (h : Inside id address g) (requestId : UInt64) (message : String) :
    Admitted id address (fun _ => Inside id address)
      (handleChatMessageRequest address requestId message).run g := by
  obtain ⟨u,hown,hu,_⟩ := h.record
  rw [handleChatMessageRequest_run]
  refine h.op trivial trivial (fun _ => rfl) fun r hr g' h' => ?_
  obtain rfl : r = some u := by rw [hr rfl,hown]
  refine h'.respond rfl rfl fun g'' h'' => ?_
  refine h''.op trivial trivial (fun _ => rfl) fun timestamp _ g₃ h₃ => ?_
  exact h₃.announce (.inl rfl) rfl (congrArg some hu) fun _ h₄ => admitted_ret h₄

theorem handleUserMuteState_inside (h : Inside id address g) (isMuted : Bool) :
    Admitted id address (fun _ => Inside id address) (handleUserMuteState address id isMuted).run g := by
  rw [handleUserMuteState_run]
  refine h.update (fun _ => rfl) (fun _ => rfl) fun u hu g' h' => ?_
  exact h'.announce (.inr rfl) rfl rfl fun _ h'' => admitted_ret h''

/-- A valid login lets the user in, whether for the first time or not. -/
theorem handleLoginRequest_inside (hfree : g.admission.Free address)
    (hrecord : ∃ u, g.own.record = some u ∧ u.id = id ∧
      (g.admission.accepted id = true ∨ u.username = none ∧ g.admission.scan = none))
    (requestId : UInt64) {username : String} (hv : validUsername username = true) :
    Admitted id address (fun _ => Inside id address)
      (handleLoginRequest address requestId username).run g := by
  obtain ⟨u,hown,rfl,hfirst⟩ := hrecord
  have hgathers : ∀ o, Gathers u.id g o := by
    intro o
    rcases hfirst with haccepted | ⟨hunnamed,_⟩
    · exact gathers_accepted haccepted o
    · refine gathers_unnamed (fun u' hu' => ?_) o
      cases hown.symm.trans hu'
      exact hunnamed
  rw [handleLoginRequest_run_valid address hv]
  refine admitted_op hfree ⟨rfl,fun _ => rfl⟩ ⟨fun _ _ => rfl,.inr fun _ => rfl⟩ (hgathers _) fun r hr => ?_
  obtain rfl : r = some { u with username := some username } := by
    rw [hr rfl,hown]
    rfl
  refine Discipline.wp_bind (Discipline.wp_mono ?_
    (collectParticipants_admitted (fun m hm => by cases hm) (hfirst.imp_right And.right)))
  intro participants g₁ h₁
  have hnamed : g₁.own.record = some { u with username := some username } := by
    rw [h₁.own]
    rfl
  obtain ⟨scan,hscan,hcomplete,hparticipants⟩ := h₁.scan
  refine admitted_op h₁.free trivial trivial (gathers_complete hscan hcomplete _) fun data hdata => ?_
  have hfree₂ := (g₁.admission.own_exec u.id (.encode (.loginResponse requestId u.id u.token participants))
    data).2.2 address h₁.free
  refine admitted_op hfree₂ trivial ⟨_,hdata,(fun he => by cases he),fun _ _ _ heq => ?_⟩
    (gathers_complete hscan hcomplete _) fun written hw => ?_
  · cases heq
    exact ⟨⟨_,hnamed,rfl⟩,scan,hscan,hcomplete,hparticipants⟩
  · have hpacket := packetOf_encode hdata
    obtain rfl : written = true := by
      refine hw ?_
      rw [hpacket]
      exact beq_self_eq_true u.id
    -- what the client is told now accepts the login
    have haccepted : ∀ (before : List Packet) (introduced : Bool) (scan : Option Scan),
        Admission.accepted u.id ⟨before ++ (packetOf data).toList,introduced,scan,none⟩ = true := by
      intro before introduced scan
      rw [hpacket]
      simp [Admission.accepted,accepts]
    refine admitted_op (fun m hm => by cases hm) trivial trivial (gathers_accepted (haccepted _ _ _) _)
      fun event hevent => ?_
    refine admitted_op (fun m hm => by cases hm) trivial ⟨haccepted _ _ _,.inr rfl,_,hevent,rfl,rfl,
      .inl (beq_self_eq_true u.id)⟩ (gathers_accepted (haccepted _ _ _) _) fun _ _ => ?_
    refine admitted_ret ⟨⟨_,hnamed,rfl,rfl⟩,haccepted _ _ _,?_,fun m hm => by cases hm⟩
    have hencode : (Packet.userJoinedServer ⟨u.id,username,false,false⟩).encode = some event := hevent
    have hbrings : BroadcastMessage.brings u.id ⟨some address,event⟩ = true := by
      rw [brings_encode hencode]
      exact beq_self_eq_true u.id
    change (_ || BroadcastMessage.brings u.id ⟨some address,event⟩) = true
    rw [hbrings,Bool.or_true]

theorem handlePacket_inside (h : Inside id address g) (hid : id ≠ 0) {packet : Packet}
    (hmute : ∀ userId isMuted, packet = .userMuteState userId isMuted → userId = id) :
    Admitted id address (fun _ => Inside id address) (handlePacket address packet).run g := by
  cases packet with
  | loginRequest requestId username =>
    cases hv : validUsername username with
    | true =>
      obtain ⟨u,hown,hu,_⟩ := h.record
      exact handleLoginRequest_inside h.free ⟨u,hown,hu,.inl h.accepted⟩ requestId hv
    | false =>
      rw [handlePacket,handleLoginRequest_run_invalid address hv]
      have hrefused : accepts id (.loginResponse requestId 0 0 []) = false :=
        beq_eq_false_iff_ne.mpr (Ne.symm hid)
      exact h.respond rfl hrefused fun _ h' => admitted_ret h'
  | joinVoiceChannelRequest requestId => exact changeVoice_inside h rfl rfl rfl rfl
  | leaveVoiceChannelRequest requestId => exact changeVoice_inside h rfl rfl rfl rfl
  | chatMessageRequest requestId message => exact handleChatMessageRequest_inside h requestId message
  | pingRequest requestId =>
    rw [handlePacket,handlePingRequest_run]
    exact h.respond rfl rfl fun _ h' => admitted_ret h'
  | userMuteState userId isMuted =>
    rw [hmute userId isMuted rfl]
    exact handleUserMuteState_inside h isMuted
  | _ => exact admitted_ret h

theorem handleDisconnect_inside (h : Inside id address g) :
    Admitted id address (fun _ _ => True) (handleDisconnect address) g := by
  obtain ⟨u,hown,hu,_⟩ := h.record
  -- both farewells come after the login, and the record is gone
  have hannounce : ∀ {g' : Affairs} {event : Packet} {k : HandlerM Unit},
      g'.admission.accepted id = true ∧ g'.admission.introduced = true ∧ g'.admission.Free address →
      event.isEvent = true → named event = some id →
      (∀ g'' : Affairs, g''.admission.accepted id = true ∧ g''.admission.introduced = true ∧
        g''.admission.Free address → Admitted id address (fun _ _ => True) k g'') →
      Admitted id address (fun _ _ => True) (announcing none event k) g' := by
    rintro g' event k ⟨haccepted,hintroduced,hfree⟩ hevent hnamed hk
    refine admitted_op hfree trivial trivial (gathers_accepted haccepted _) fun data hdata => ?_
    obtain ⟨htold₁,hintroduced₁,hfree₁⟩ := g'.admission.own_exec id (.encode event) data
    have haccepted₁ := Admission.accepted_mono htold₁ haccepted
    refine admitted_op (hfree₁ _ hfree) trivial ⟨haccepted₁,.inl rfl,event,
      hdata,hevent,hnamed,.inr (hintroduced₁ hintroduced)⟩ (gathers_accepted haccepted₁ _) fun r _ => ?_
    obtain ⟨htold₂,hintroduced₂,hfree₂⟩ :=
      (g'.admission.own id (.exec id (.encode event) data)).own_exec id (.broadcast ⟨none,data⟩) r
    exact hk _ ⟨Admission.accepted_mono (htold₁.trans htold₂) haccepted,
      hintroduced₂ (hintroduced₁ hintroduced),hfree₂ _ (hfree₁ _ hfree)⟩
  rw [handleDisconnect_eq]
  refine admitted_op h.free rfl ⟨h.accepted,h.introduced⟩ (gathers_accepted h.accepted _) fun r hr => ?_
  obtain rfl : r = some u := by rw [hr rfl,hown]
  obtain ⟨htold,hintroduced,hfree⟩ := g.admission.own_exec id (.remove address) (some u)
  refine hannounce ⟨Admission.accepted_mono htold h.accepted,hintroduced h.introduced,hfree _ h.free⟩ rfl
    (congrArg some hu) fun g' h' => ?_
  split
  · exact hannounce h' rfl (congrArg some hu) fun _ _ => admitted_ret trivial
  · exact admitted_ret trivial

/-! ## The branches of the loop -/

/-- What a client may send to the users around it. -/
def takesPart : Packet → Bool
  | .joinVoiceChannelRequest _ => true
  | .leaveVoiceChannelRequest _ => true
  | .chatMessageRequest .. => true
  | .userMuteState .. => true
  | _ => false

/-- A login that is accepted. -/
def logsIn : Packet → Bool
  | .loginRequest _ username => validUsername username
  | _ => false

/-- Nothing takes part in front of the first login that is accepted. -/
def LoginFirst : List Packet → Prop
  | [] => True
  | packet :: rest => logsIn packet = true ∨ takesPart packet = false ∧ LoginFirst rest

theorem handlePacket_outside (h : Outside id address g) (hid : id ≠ 0) {packet : Packet}
    (hlogin : logsIn packet = false) (hpart : takesPart packet = false) :
    Admitted id address (fun _ => Outside id address) (handlePacket address packet).run g := by
  cases packet with
  | loginRequest requestId username =>
    rw [handlePacket,handleLoginRequest_run_invalid address hlogin]
    have hrejects : accepts id (.loginResponse requestId 0 0 []) = false :=
      beq_eq_false_iff_ne.mpr (Ne.symm hid)
    exact h.respond rfl hrejects
  | pingRequest requestId =>
    rw [handlePacket,handlePingRequest_run]
    exact h.respond rfl rfl
  | joinVoiceChannelRequest => cases hpart
  | leaveVoiceChannelRequest => cases hpart
  | chatMessageRequest => cases hpart
  | userMuteState => cases hpart
  | _ => exact admitted_ret h

/-- The next packets can be handled: the login comes first, or it is behind. -/
def Ready (id : UInt64) (address : SocketAddr) (packets : List Packet) (g : Affairs) : Prop :=
  (∀ userId isMuted, .userMuteState userId isMuted ∈ packets → userId = id) ∧
    (Outside id address g ∧ LoginFirst packets ∨ Inside id address g)

theorem handlePacket_ready (hid : id ≠ 0) {packet : Packet} {rest : List Packet}
    (h : Ready id address (packet :: rest) g) :
    Admitted id address (fun _ => Ready id address rest) (handlePacket address packet).run g := by
  obtain ⟨hmute,h⟩ := h
  have hrest : ∀ userId isMuted, .userMuteState userId isMuted ∈ rest → userId = id :=
    fun userId isMuted hmem => hmute userId isMuted (List.mem_cons_of_mem packet hmem)
  rcases h with ⟨houtside,hfirst⟩ | hinside
  · cases hlogin : logsIn packet with
    | true =>
      cases packet with
      | loginRequest requestId username =>
        obtain ⟨u,hown,hu,hunnamed⟩ := houtside.record
        exact Discipline.wp_mono (fun _ _ h => ⟨hrest,.inr h⟩) (handleLoginRequest_inside houtside.free
          ⟨u,hown,hu,.inr ⟨hunnamed,houtside.scan⟩⟩ requestId hlogin)
      | _ => cases hlogin
    | false =>
      obtain hlogin' | ⟨hpart,hfirst⟩ := hfirst
      · rw [hlogin] at hlogin'
        cases hlogin'
      · exact Discipline.wp_mono (fun _ _ h => ⟨hrest,.inl ⟨h,hfirst⟩⟩)
          (handlePacket_outside houtside hid hlogin hpart)
  · refine Discipline.wp_mono (fun _ _ h => ⟨hrest,.inr h⟩) (handlePacket_inside hinside hid ?_)
    rintro userId isMuted rfl
    exact hmute userId isMuted List.mem_cons_self

theorem Ready.idle (h : Ready id address [] g) (hid : id ≠ 0) (packetBuffer : Bytes) :
    admissionLaw.idle id address packetBuffer g := by
  rcases h.2 with ⟨houtside,_⟩ | hinside
  · exact ⟨hid,.inl houtside⟩
  · exact ⟨hid,.inr hinside⟩

/-- The read branch handles what is complete. -/
theorem handleRead_admitted {packetBuffer : Bytes} {byte : UInt8} {bytes : Bytes} (hid : id ≠ 0)
    (h : Ready id address (Packet.framer.split (packetBuffer ++ byte :: bytes)).1 g) :
    admissionLaw.Keeps id address (handleRead address packetBuffer (.ok (byte :: bytes))) g := by
  refine handleRead_wp (Ready id address) (fun _ _ _ hr h => by cases hr; exact h)
    (fun packet left g₁ h₁ => handlePacket_ready hid h₁) (fun _ _ _ hr h => by cases hr; exact h) ?_
    (fun _ _ heq => by cases heq; exact h) (fun _ _ _ _ h => h.idle hid _)
  rintro e (⟨heq,_⟩ | ⟨heq,_⟩)
  · cases heq
  · cases heq

/-- The end of the connection after the login. -/
theorem handleDisconnect_admitted (h : Inside id address g) (e : Exit) :
    admissionLaw.Keeps id address (handleDisconnect address >>= fun _ => .ret (.exit e)) g := by
  refine Discipline.wp_bind (Discipline.wp_mono ?_ (handleDisconnect_inside h))
  intro _ g' _
  exact admitted_ret trivial

/-- The broadcast branch: before the login nothing is written. -/
theorem handleRecv_admitted {packetBuffer : Bytes} {m : BroadcastMessage} (hid : id ≠ 0)
    (h : Outside id address g ∧ m.shouldSendTo address = false ∨ Inside id address g)
    (hevent : Announces m.data) :
    admissionLaw.Keeps id address (handleRecv address packetBuffer (.ok m))
      ⟨g.own,g.admission.own id (.recv id (.ok m))⟩ := by
  cases hm : m.shouldSendTo address with
  | false =>
    rw [handleRecv_filtered address hm]
    have hfree : (g.admission.own id (.recv id (.ok m))).Free address := by
      intro m' hm'
      cases hm'
      exact hm
    refine admitted_ret ⟨hid,?_⟩
    rcases h with ⟨h,_⟩ | h
    · exact .inl ⟨h.record,h.accepted,h.introduced,h.scan,hfree⟩
    · exact .inr ⟨h.record,h.accepted,h.introduced,hfree⟩
  | true =>
    rcases h with ⟨_,hnot⟩ | h
    · rw [hm] at hnot
      cases hnot
    · rw [handleRecv_sent address hm]
      obtain ⟨packet,hpacket,hisEvent⟩ := hevent
      rintro g' rfl written _
      refine ⟨_,⟨⟨trivial,?_,⟨packet,hpacket,fun _ => ⟨h.accepted,m,rfl,rfl,hm⟩,?_⟩,
        gathers_accepted h.accepted _⟩,rfl⟩,?_⟩
      · intro m' hm' _
        cases hm'
        rfl
      · rintro requestId token participants rfl
        cases hisEvent
      · cases written with
        | false => exact admitted_ret trivial
        | true =>
          refine admitted_ret ⟨hid,.inr ⟨h.record,?_,h.introduced,fun m' hm' => by cases hm'⟩⟩
          exact Admission.accepted_mono (List.prefix_append _ _) h.accepted

end Programs

/-! ## Every run -/

/-- The record has no name yet. -/
def Unnamed (s : ManagementServer) (c : Connection) : Prop :=
  ∃ u, s.users.lookup c.address = some u ∧ u.username = none

/-- Until its login a client stays, sends nothing but logins and pings, and is sent no
broadcast; and the response that accepts a login is written. -/
def Patient (s : ManagementServer) : Label → Prop
  | .read id r => ∀ c b, s.connections.lookup id = some c → c.phase = .select b → Unnamed s c →
      ∃ byte bytes, r = .ok (byte :: bytes) ∧
        LoginFirst (Packet.framer.split (b ++ byte :: bytes)).1
  | .recv id (.ok m) => ∀ c, s.connections.lookup id = some c → Unnamed s c →
      m.shouldSendTo c.address = false
  | .exec id (.write data) written => (packetOf data).any (accepts id) = true → written = true
  | _ => True

/-- The steps in which clients are patient and nobody mutes anybody else. -/
def patient (s : ManagementServer) (label : Label) : Prop := honest s label ∧ Patient s label

/-- No user has the id 0. -/
theorem run_nextUserId {guard : ManagementServer → Label → Prop} {trace : Trace} {s : ManagementServer}
    (h : Run (Guarded guard Step) ManagementServer.new trace s) : s.nextUserId ≠ 0 := by
  have hpos : 0 < s.nextUserId.toNat := by
    refine h.preserves (P := fun s => 0 < s.nextUserId.toNat) ?_ (by decide)
    rintro s label s' hpos ⟨_,hstep⟩
    cases hstep with
    | @accept address token hid =>
      change 0 < (s.nextUserId + 1).toNat
      rw [BigEndian.toNat_succ hid]
      exact Nat.succ_pos _
    | exec =>
      change 0 < (s.perform _).nextUserId.toNat
      rw [s.perform_nextUserId]
      exact hpos
    | _ => exact hpos
  intro heq
  rw [heq] at hpos
  exact absurd hpos (by decide)

/-- A step of its own that leaves the record alone, seen by the task. -/
theorem affairs_own {trace : Trace} {s s₁ : ManagementServer} {id : UInt64} {c c' : Connection}
    {label : Label} (hactor : label.actor = some id) (hremoved : ∀ id, label.removed id = none)
    (husers : s₁.users = s.users) (haddr : c'.address = c.address) :
    Affairs.view (trace ++ [label]) s₁ id c' =
      ⟨Own.view trace s id c,(admission id trace).own id label⟩ := by
  rw [Affairs.view,view_stays trace s id c hremoved husers haddr,admission_own hactor]

theorem idle_record {id : UInt64} {address : SocketAddr} {g : Affairs}
    (h : Outside id address g ∨ Inside id address g) : ∃ u, g.own.record = some u ∧ u.id = id := by
  rcases h with h | h
  · obtain ⟨u,hu,hid,_⟩ := h.record
    exact ⟨u,hu,hid⟩
  · obtain ⟨u,hu,hid,_⟩ := h.record
    exact ⟨u,hu,hid⟩

/-- Nothing is held any more; the rest stays. -/
theorem idle_clear {id : UInt64} {address : SocketAddr} {g : Affairs}
    (h : Outside id address g ∨ Inside id address g) :
    Outside id address ⟨g.own,g.admission.told,g.admission.introduced,g.admission.scan,none⟩ ∨
      Inside id address ⟨g.own,g.admission.told,g.admission.introduced,g.admission.scan,none⟩ := by
  rcases h with h | h
  · exact .inl ⟨h.record,h.accepted,h.introduced,h.scan,fun m hm => by cases hm⟩
  · exact .inr ⟨h.record,h.accepted,h.introduced,fun m hm => by cases hm⟩

/-- Before a connection has been accepted nothing has been done for it. -/
theorem run_admission_fresh {guard : ManagementServer → Label → Prop} {trace : Trace}
    {s : ManagementServer} (h : Run (Guarded guard Step) ManagementServer.new trace s) {id : UInt64}
    (hnone : s.connections.lookup id = none) : admission id trace = ⟨[],false,none,none⟩ := by
  refine run_unborn (P := fun trace => admission id trace = ⟨[],false,none,none⟩) rfl ?_ h hnone
  intro trace label hactor hadmission
  rw [admission_other hactor,hadmission]

/-- Every task keeps the law, in the runs whose clients are patient. -/
theorem admissionLaw_kept : admissionLaw.Kept patient := by
  have hmono : ∀ {trace s}, Run (Guarded patient Step) ManagementServer.new trace s →
      Run (Guarded liveApart.guard Step) ManagementServer.new trace s :=
    fun hr => hr.mono fun s label s' h => ⟨h.1.1.1,h.2⟩
  constructor
  · rintro id address g g' rfl h
    exact h
  · rintro id address b g g' rfl h
    exact h
  · intro trace s label s' id c hr hstep hne hc halive
    change Affairs.view _ _ _ _ = Affairs.view _ _ _ _
    rw [Affairs.view,Affairs.view,admission_other hne,
      view_others (hmono hr) ⟨hstep.1.1.1,hstep.2⟩ hne hc halive]
  · intro trace s address token hr _
    have hlife := run_lifecycle (hmono hr)
    have hrecord : (s.accept address token).users.lookup address = some (s.newUser token) := by
      rw [s.accept_users,if_pos rfl]
    have hadmission : admission s.nextUserId (trace ++ [.accept address token]) = ⟨[],false,none,none⟩ := by
      rw [admission_other (by simp [Label.actor]),run_admission_fresh hr hlife.fresh]
    refine ⟨run_nextUserId hr,⟨_,hrecord,rfl,rfl⟩,?_,?_,?_,?_⟩
    · exact congrArg (Admission.accepted s.nextUserId) hadmission
    · exact congrArg Admission.introduced hadmission
    · exact congrArg Admission.scan hadmission
    · change (admission _ _).Free address
      rw [hadmission]
      exact fun m hm => by cases hm
  · intro trace s id c _ _ h
    refine Eq.mpr (congrArg (admissionLaw.early id c.address)
      (affairs_own (c := c) rfl (fun _ => rfl) rfl rfl)) ⟨h.1,?_⟩
    exact ⟨h.2.record,h.2.accepted,h.2.introduced,h.2.scan,fun m hm => by cases hm⟩
  · intro trace s id c _ _ h
    refine Eq.mpr (congrArg (admissionLaw.idle id c.address [])
      (affairs_own (c := c) rfl (fun _ => rfl) rfl rfl)) ⟨h.1,.inl ?_⟩
    exact ⟨h.2.record,h.2.accepted,h.2.introduced,h.2.scan,fun m hm => by cases hm⟩
  · rintro trace s id c b r phase hr hguard hc hp ⟨hid,h⟩
    refine Eq.mpr (congrArg (admissionLaw.Keeps id c.address _)
      (affairs_own (c := c) rfl (fun _ => rfl) rfl rfl)) ?_
    have hclear := idle_clear h
    obtain ⟨u,hu,hown⟩ := idle_record h
    have hmute : ∀ byte bytes, r = .ok (byte :: bytes) → ∀ userId isMuted,
        .userMuteState userId isMuted ∈ (Packet.framer.split (b ++ byte :: bytes)).1 → userId = id := by
      rintro byte bytes rfl userId isMuted hmem
      exact (hguard.1.2 c b u hc hp hu userId isMuted hmem).trans hown
    rcases hclear with hclear | hclear
    · obtain ⟨u,hu,_,hname⟩ := hclear.record
      obtain ⟨byte,bytes,rfl,hfirst⟩ := hguard.2 c b hc hp ⟨u,hu,hname⟩
      exact handleRead_admitted hid ⟨hmute byte bytes rfl,.inl ⟨hclear,hfirst⟩⟩
    · cases r with
      | error => exact handleDisconnect_admitted hclear .readError
      | ok bytes =>
        cases bytes with
        | nil => exact handleDisconnect_admitted hclear .eof
        | cons byte bytes => exact handleRead_admitted hid ⟨hmute byte bytes rfl,.inr hclear⟩
  · rintro trace s id c b m phase hr hguard hc hp hm ⟨hid,h⟩
    refine Eq.mpr (congrArg (admissionLaw.Keeps id c.address _)
      (affairs_own (c := c) rfl (fun _ => rfl) rfl rfl)) ?_
    refine handleRecv_admitted (g := Affairs.view trace s id c) hid ?_
      ((run_announced hr).2 m (List.mem_of_getElem? hm))
    rcases h with h | h
    · obtain ⟨u,hu,_,hname⟩ := h.record
      exact .inl ⟨h,hguard.2 c hc ⟨u,hu,hname⟩⟩
    · exact .inr h
  · rintro trace s id c b hr hguard hc hp hring ⟨hid,h⟩
    exact Eq.mpr (congrArg (admissionLaw.idle id c.address b)
      (affairs_own (c := c) rfl (fun _ => rfl) rfl rfl)) ⟨hid,idle_clear h⟩
  · intro trace s id c o r hr hguard hc hans
    cases o with
    | getMut a update =>
      rintro rfl
      exact hans
    | get a =>
      rintro rfl
      exact hans
    | remove a =>
      rintro rfl
      exact hans
    | encode packet => exact hans
    | write data => exact hguard.2
    | _ => trivial
  · rintro trace s id c o r b phase g hr hguard hc hans hb ⟨hproper,rfl⟩
    change Affairs.after _ _ _ _ = Affairs.view _ _ _ _
    have hown : Own.view (trace ++ [.exec id o r]) ((s.perform o).setConnection id { c with
        phase := phase, written := c.written ++ b }) id { c with
        phase := phase, written := c.written ++ b } = (Own.view trace s id c).after o r :=
      perform_after hans hproper.here rfl
    rw [Affairs.view,hown,admission_own rfl]
    rfl

/-- The others do not notice the step, and no event is written in it. -/
structure Unnoticed (s : ManagementServer) (label : Label) (s' : ManagementServer) : Prop where
  broadcasts : s'.broadcasts = s.broadcasts
  events : ∃ sent, s'.events = s.events ++ sent ∧ ∀ e ∈ sent, voiceEvent e = false
  voice : ∀ a, (s'.users.lookup a).map User.voiceState = (s.users.lookup a).map User.voiceState
  quiet : ∀ id data written (packet : Packet), label = .exec id (.write data) written →
    packet.encode = some data → packet.isEvent = false

/-- A step with no operation in it. -/
theorem unnoticed_still {s s' : ManagementServer} {label : Label}
    (hlabel : ∀ id o r, label ≠ .exec id o r) (hbroadcasts : s'.broadcasts = s.broadcasts)
    (husers : s'.users = s.users)
    (hevents : ∃ sent, s'.events = s.events ++ sent ∧ ∀ e ∈ sent, voiceEvent e = false) :
    Unnoticed s label s' :=
  ⟨hbroadcasts,hevents,fun a => by rw [husers],fun _ _ _ _ heq => (hlabel _ _ _ heq).elim⟩

/-- Until its login has been accepted nobody notices what a connection does. -/
theorem step_unnoticed {trace : Trace} {s s' : ManagementServer} {label : Label} {id : UInt64}
    (hr : Run (Guarded patient Step) ManagementServer.new trace s)
    (hstep : Guarded patient Step s label s') (hactor : label.actor = some id)
    (hout : (admission id trace).accepted id = false) : Unnoticed s label s' := by
  have hsame : ∃ sent, s.events = s.events ++ sent ∧ ∀ e ∈ sent, voiceEvent e = false :=
    ⟨[],(List.append_nil _).symm,fun e he => by cases he⟩
  have hsent : ∀ e, voiceEvent e = false →
      ∃ sent, (s.sendEvent e).events = s.events ++ sent ∧ ∀ e ∈ sent, voiceEvent e = false := by
    intro e he
    refine ⟨[e],rfl,fun e' he' => ?_⟩
    rw [List.mem_singleton.mp he']
    exact he
  have hnot : ∀ {P : Prop}, (admission id trace).accepted id = true → P := by
    intro P haccepted
    rw [hout] at haccepted
    cases haccepted
  cases hstep.2 with
  | accept => cases hactor
  | connect => exact unnoticed_still (by simp) rfl rfl (hsent _ rfl)
  | disconnect => exact unnoticed_still (by simp) rfl rfl (hsent _ rfl)
  | @exec _ c o k r b hc hp hans hb =>
    cases hactor
    obtain ⟨_,_,_,_,hproper,_⟩ := admissionLaw_kept.run_effect hr hstep
    have hallowed : Allows id _ (Affairs.view trace s id _) o := hproper.allowed
    cases o with
    | getMut a update =>
      refine ⟨rfl,hsame,fun a' => ?_,fun _ _ _ _ heq => by cases heq⟩
      have hvoice : ∀ u, (update u).voiceState = u.voiceState := by
        rcases hallowed.2 with haccepted | hvoice
        · exact hnot haccepted
        · exact hvoice
      change ((s.users.modify a update).lookup a').map _ = _
      rw [Table.lookup_modify]
      split
      · rename_i ha
        rw [ha,Option.map_map]
        exact congrArg (fun f => (s.users.lookup a).map f) (funext hvoice)
      · rfl
    | remove a => exact hnot hallowed.1
    | broadcast m => exact hnot hallowed.1
    | send e =>
      refine ⟨rfl,hsent e ?_,fun _ => rfl,fun _ _ _ _ heq => by cases heq⟩
      cases he : voiceEvent e with
      | false => rfl
      | true => exact hnot (hallowed he)
    | write data =>
      refine ⟨rfl,hsame,fun _ => rfl,fun _ data' _ packet heq hpacket => ?_⟩
      cases heq
      obtain ⟨packet',hpacket',hevent,_⟩ := hallowed
      cases (packetOf_encode hpacket).symm.trans (packetOf_encode hpacket')
      cases he : packet.isEvent with
      | false => rfl
      | true => exact hnot (hevent he).1
    | _ => exact ⟨rfl,hsame,fun _ => rfl,fun _ _ _ _ heq => by cases heq⟩
  | _ => exact unnoticed_still (by simp) rfl rfl hsame

end VoiceApp.Management
