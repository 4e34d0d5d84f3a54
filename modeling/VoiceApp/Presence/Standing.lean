import VoiceApp.Presence.Announcements

/-! # What one task keeps about presence

A task announces every change of its own record in order, and its client converges: what
the client shows of another user is brought up to date by the announcements that the task
has not received yet. A login response establishes this although it reads every record at
a moment of its own.
-/
namespace VoiceApp.Presence
open Protocol Server Management Sdk Desktop

/-- A record as the entry that clients should show. -/
def present (record : Option User) : Option ParticipantInfo := record.bind User.participant

/-- The standing of a task: its record, the announcements it owes, the packets written to
its client, and the addresses of all users. `converges v x` says that the announcements
still to be received turn the entry `x` of `v` into what its record says. -/
structure Standing where
  own : Option User
  owed : List Packet
  sent : List Packet
  home : UInt64 → Option SocketAddr
  converges : UInt64 → Option ParticipantInfo → Prop

/-- What the client shows of `v`. -/
def Standing.page (g : Standing) (v : UInt64) : Option ParticipantInfo :=
  g.sent.foldl (touch v) none

/-- What the other tasks may change in between. -/
structure Drift (g g' : Standing) : Prop where
  own : g'.own = g.own
  owed : g'.owed = g.owed
  sent : g'.sent = g.sent
  home : ∀ v a, g.home v = some a → g'.home v = some a
  converges : ∀ v x, g.converges v x → g'.converges v x

theorem Drift.refl (g : Standing) : Drift g g := ⟨rfl,rfl,rfl,fun _ _ h => h,fun _ _ h => h⟩

theorem Drift.trans {g g' g'' : Standing} (h : Drift g g') (h' : Drift g' g'') : Drift g g'' :=
  ⟨h'.own.trans h.own,h'.owed.trans h.owed,h'.sent.trans h.sent,
    fun v a ha => h'.home v a (h.home v a ha),fun v x hx => h'.converges v x (h.converges v x hx)⟩

theorem Drift.page {g g' : Standing} (h : Drift g g') (v : UInt64) : g'.page v = g.page v := by
  rw [Standing.page,h.sent]
  rfl

section Discipline
variable (id : UInt64) (address : SocketAddr)

/-- A new record, with the announcements that the change gives rise to. -/
def Moves (g : Standing) (record : Option User) (g' : Standing) : Prop :=
  ∃ news, present record = news.foldl (touch id) (present g.own) ∧
    g' = { g with own := record, owed := g.owed ++ news }

/-- The task changes no record but its own, and broadcasts what it owes in order, to all
or to all others; a broadcast about nobody may come in between. -/
def protocol : Discipline Op Op.Res Standing where
  rely := Drift
  answers g
    | .getMut a update,r => a = address → r = g.own.map update
    | .get a,r => a = address → r = g.own
    | .keys,r => ∀ v, g.converges v none ∨ ∃ a ∈ r, g.home v = some a
    | .read a,r => (∀ v, g.home v = some a → g.converges v (present r) ∧ ∀ u, r = some u → u.id = v) ∧
      ∀ u, r = some u → g.home u.id = some a
    | .remove a,r => a = address → r = g.own
    | .encode packet,r => packet.encode = some r
    | .write _,r => r = true
    | _,_ => True
  effect g
    | .getMut a _,r,g' => a = address ∧ Moves id g r g'
    | .remove a,_,g' => a = address ∧ Moves id g none g'
    | .broadcast m,_,g' => ∃ packet : Packet, packet.encode = some m.data ∧ packet.isEvent = true ∧
      (subject packet = none ∧ g' = g ∨
        subject packet = some id ∧ (m.exclude = none ∨ m.exclude = some address) ∧
          ∃ rest, g.owed = packet :: rest ∧ g' = { g with owed := rest })
    | .write data,_,g' => ∃ packet : Packet, packet.encode = some data ∧
      g' = { g with sent := g.sent ++ [packet] }
    | _,_,g' => g' = g
  rely_refl := Drift.refl
  rely_trans := Drift.trans

/-- Before the login: a record without a name, and nothing to announce. -/
structure Blank (g : Standing) : Prop where
  record : ∃ u, g.own = some u ∧ u.id = id ∧ u.username = none ∧ u.inVoice = false ∧
    u.isMuted = false
  owed : g.owed = []

/-- After the login: everything has been announced, and the client converges. -/
structure Synced (g : Standing) : Prop where
  record : ∃ u name, g.own = some u ∧ u.id = id ∧ u.username = some name
  owed : g.owed = []
  page : ∀ v, v ≠ id → g.converges v (g.page v)

/-- The standing between two packets, after these have been handled. -/
def Idle (g : Standing) : List Packet → Prop
  | [] => Blank id g
  | _ :: _ => Synced id g

/-- The standing behind a branch of the `select!` when this has been received so far. -/
def After (received : Bytes) : Outcome → Standing → Prop
  | .proceed packetBuffer,g =>
    packetBuffer = (Packet.framer.split received).2 ∧ Idle id g (Packet.framer.split received).1
  | .exit _,g => g.owed = []

/-- What a client may send once it is logged in. -/
def Polite : Packet → Prop
  | .joinVoiceChannelRequest _ => True
  | .leaveVoiceChannelRequest _ => True
  | .chatMessageRequest .. => True
  | .pingRequest _ => True
  | .userMuteState userId _ => userId = id
  | _ => False

/-- One accepted login request, then only what is polite. -/
def Conversation : List Packet → Prop
  | [] => True
  | first :: rest => (∃ requestId username, first = .loginRequest requestId username ∧
      validUsername username = true) ∧ ∀ packet ∈ rest, Polite id packet

end Discipline

section Programs
variable {id : UInt64} {address : SocketAddr} {A : Type} {post : A → Standing → Prop}
  {g g' : Standing}

theorem Blank.drift (h : Blank id g) (hd : Drift g g') : Blank id g' :=
  ⟨by rw [hd.own]; exact h.record,hd.owed.trans h.owed⟩

theorem Synced.drift (h : Synced id g) (hd : Drift g g') : Synced id g' := by
  refine ⟨by rw [hd.own]; exact h.record,hd.owed.trans h.owed,fun v hne => ?_⟩
  rw [hd.page]
  exact hd.converges v _ (h.page v hne)

/-- Between two packets only the client's page matters besides the own affairs. -/
theorem Idle.turn {handled : List Packet} (h : Idle id g handled) (hown : g'.own = g.own)
    (howed : g'.owed = g.owed)
    (hpage : ∀ v, v ≠ id → g.converges v (g.page v) → g'.converges v (g'.page v)) :
    Idle id g' handled := by
  cases handled with
  | nil => exact ⟨by rw [hown]; exact Blank.record h,howed.trans (Blank.owed h)⟩
  | cons =>
    refine ⟨by rw [hown]; exact Synced.record h,howed.trans (Synced.owed h),fun v hne => ?_⟩
    exact hpage v hne (Synced.page h v hne)

theorem Idle.drift {handled : List Packet} (h : Idle id g handled) (hd : Drift g g') :
    Idle id g' handled := by
  refine h.turn hd.own hd.owed fun v _ hpage => ?_
  rw [hd.page]
  exact hd.converges v _ hpage

theorem After.drift {received : Bytes} {outcome : Outcome} (h : After id received outcome g)
    (hd : Drift g g') : After id received outcome g' := by
  cases outcome with
  | proceed packetBuffer => exact ⟨h.1,h.2.drift hd⟩
  | exit e => exact hd.owed.trans h

theorem Idle.record {handled : List Packet} (h : Idle id g handled) :
    ∃ u, g.own = some u ∧ u.id = id := by
  cases handled with
  | nil =>
    obtain ⟨u,hown,hid,_⟩ := Blank.record h
    exact ⟨u,hown,hid⟩
  | cons =>
    obtain ⟨u,_,hown,hid,_⟩ := Synced.record h
    exact ⟨u,hown,hid⟩

theorem Idle.owed {handled : List Packet} (h : Idle id g handled) : g.owed = [] := by
  cases handled with
  | nil => exact Blank.owed h
  | cons => exact Synced.owed h

theorem Conversation.before {before after : List Packet} (h : Conversation id (before ++ after)) :
    Conversation id before := by
  cases before with
  | nil => trivial
  | cons first rest => exact ⟨h.1,fun packet hp => h.2 packet (List.mem_append_left after hp)⟩

/-- The program keeps the protocol from this standing on, and its results satisfy `post`. -/
abbrev Keeps (id : UInt64) (address : SocketAddr) (post : A → Standing → Prop) (p : HandlerM A)
    (g : Standing) : Prop :=
  (protocol id address).wp post p g

/-! ## Rules for the operations -/

theorem keeps_synced {a : A} (h : Synced id g) :
    Keeps id address (fun _ => Synced id) (.ret a) g :=
  Discipline.wp_ret (fun _ _ hd h => Synced.drift h hd) h

theorem keeps_after {received : Bytes} {outcome : Outcome} (h : After id received outcome g) :
    Keeps id address (After id received) (.ret outcome) g :=
  Discipline.wp_ret (fun _ _ hd h => After.drift h hd) h

theorem keeps_encode {packet : Packet} {k : Bytes → HandlerM A}
    (h : ∀ data, packet.encode = some data → Keeps id address post (k data) g) :
    Keeps id address post (.op (.encode packet) k) g := by
  intro g' hd data hdata
  exact ⟨g',rfl,Discipline.wp_stable (h data hdata) hd⟩

theorem keeps_writing {post : Except ServerError Unit → Standing → Prop} {packet : Packet}
    {data : Bytes} {k : HandlerM (Except ServerError Unit)} (hdata : packet.encode = some data)
    (h : Keeps id address post k { g with sent := g.sent ++ [packet] }) :
    Keeps id address post (writing data k) g := by
  intro g' hd written hwritten
  obtain rfl : written = true := hwritten
  refine ⟨{ g' with sent := g'.sent ++ [packet] },⟨packet,hdata,rfl⟩,Discipline.wp_stable h ?_⟩
  exact ⟨hd.own,hd.owed,congrArg (· ++ [packet]) hd.sent,hd.home,hd.converges⟩

theorem Moves.drift {record : Option User} {news : List Packet} (hd : Drift g g') :
    Drift { g with own := record, owed := g.owed ++ news }
      { g' with own := record, owed := g'.owed ++ news } :=
  ⟨rfl,congrArg (· ++ news) hd.owed,hd.sent,hd.home,hd.converges⟩

theorem keeps_update {update : User → User} {k : Option User → HandlerM A} {u : User}
    (hown : g.own = some u) (news : List Packet)
    (hnews : (update u).participant = news.foldl (touch id) u.participant)
    (h : Keeps id address post (k (some (update u)))
      { g with own := some (update u), owed := g.owed ++ news }) :
    Keeps id address post (.op (.getMut address update) k) g := by
  intro g' hd r hans
  have hown' : g'.own = some u := hd.own.trans hown
  obtain rfl : r = some (update u) := by
    rw [hans rfl,hown']
    rfl
  refine ⟨_,⟨rfl,news,?_,rfl⟩,Discipline.wp_stable h (Moves.drift hd)⟩
  rw [hown']
  exact hnews

theorem keeps_remove {k : Option User → HandlerM A} {u : User} (hown : g.own = some u)
    (news : List Packet) (hnews : none = news.foldl (touch id) u.participant)
    (h : Keeps id address post (k (some u)) { g with own := none, owed := g.owed ++ news }) :
    Keeps id address post (.op (.remove address) k) g := by
  intro g' hd r hans
  have hown' : g'.own = some u := hd.own.trans hown
  obtain rfl : r = some u := (hans rfl).trans hown'
  refine ⟨_,⟨rfl,news,?_,rfl⟩,Discipline.wp_stable h (Moves.drift hd)⟩
  rw [hown']
  exact hnews

/-- Broadcast the oldest announcement owed. -/
theorem keeps_announcing (rest : List Packet) {exclude : Option SocketAddr} {packet : Packet}
    {k : HandlerM A} (hevent : packet.isEvent = true) (hsubject : subject packet = some id)
    (hexclude : exclude = none ∨ exclude = some address) (howed : g.owed = packet :: rest)
    (h : Keeps id address post k { g with owed := rest }) :
    Keeps id address post (announcing exclude packet k) g := by
  apply keeps_encode
  intro data hdata g' hd _ _
  refine ⟨{ g' with owed := rest },⟨packet,hdata,hevent,.inr ⟨hsubject,hexclude,rest,?_,rfl⟩⟩,?_⟩
  · exact hd.owed.trans howed
  · exact Discipline.wp_stable h ⟨hd.own,rfl,hd.sent,hd.home,hd.converges⟩

/-- An operation that neither changes nor tells anything about presence. -/
theorem keeps_pass {o : Op} {k : o.Res → HandlerM A}
    (heffect : ∀ g r, (protocol id address).effect g o r g)
    (h : ∀ r, Keeps id address post (k r) g) : Keeps id address post (.op o k) g := by
  intro g' hd r _
  exact ⟨g',heffect g' r,Discipline.wp_stable (h r) hd⟩

/-! ## The handlers -/

/-- While the addresses in `rest` are still to be read: the entry collected for a user
converges, or there is none yet and the record of the user is still to be read. -/
def Collecting (rest : List SocketAddr) (records : List (Option User)) (g : Standing) : Prop :=
  ∀ v, g.converges v (RoomPage.entry v (records.filterMap present)) ∨
    RoomPage.entry v (records.filterMap present) = none ∧ ∃ b ∈ rest, g.home v = some b

theorem Collecting.drift {rest : List SocketAddr} {records : List (Option User)}
    (h : Collecting rest records g) (hd : Drift g g') : Collecting rest records g' := by
  intro v
  rcases h v with h | ⟨hnone,b,hb,hv⟩
  · exact .inl (hd.converges v _ h)
  · exact .inr ⟨hnone,b,hb,hd.home v b hv⟩

theorem Collecting.read {a : SocketAddr} {rest : List SocketAddr} {records : List (Option User)}
    {r : Option User} (h : Collecting (a :: rest) records g)
    (hr : (protocol id address).answers g (.read a) r) : Collecting rest (records ++ [r]) g := by
  obtain ⟨hhome,hrecord⟩ := hr
  intro v
  rw [List.filterMap_append]
  -- no entry for `v` comes from this record
  have hkeep : present r = none ∨ (∃ u, r = some u ∧ u.id ≠ v) →
      g.converges v (RoomPage.entry v (records.filterMap present)) ∨
        RoomPage.entry v (records.filterMap present) = none ∧ ∃ b ∈ rest, g.home v = some b := by
    intro hr
    rcases h v with h | ⟨hnone,b,hb,hv⟩
    · exact .inl h
    · rcases List.mem_cons.mp hb with rfl | hb
      · obtain ⟨hconv,hid⟩ := hhome v hv
        rcases hr with hr | ⟨u,hu,hne⟩
        · left
          rw [hnone,← hr]
          exact hconv
        · exact (hne (hid u hu)).elim
      · exact .inr ⟨hnone,b,hb,hv⟩
  cases hp : present r with
  | none =>
    rw [List.filterMap_cons_none hp,List.filterMap_nil,List.append_nil]
    exact hkeep (.inl hp)
  | some info =>
    rw [List.filterMap_cons_some hp,List.filterMap_nil,RoomPage.entry_concat]
    obtain ⟨u,hu,hinfo⟩ := Option.bind_eq_some_iff.mp hp
    have hid : info.userId = u.id := by
      obtain ⟨name,_,rfl⟩ := Option.map_eq_some_iff.mp hinfo
      rfl
    rw [hid]
    by_cases hv : u.id = v
    · left
      rw [if_pos hv,← hp]
      exact (hhome v (hv ▸ hrecord u hu)).1
    · rw [if_neg hv]
      exact hkeep (.inr ⟨u,hu,hv⟩)

/-- The participants collected converge for every user, though each record is read at its
own moment. -/
theorem collectParticipants_keeps : Keeps id address
    (fun participants g' => Drift g g' ∧ ∀ v, g'.converges v (RoomPage.entry v participants))
    collectParticipants g := by
  intro g₁ hd₁ addresses hkeys
  refine ⟨g₁,rfl,?_⟩
  change Keeps id address _ (addresses.mapM (fun a => perform (.read a)) >>= _) g₁
  have hstart : Collecting addresses [] g₁ := by
    intro v
    rcases hkeys v with h | h
    · exact .inl h
    · exact .inr ⟨rfl,h⟩
  have hreads := Discipline.wp_mapM (D := protocol id address) (f := fun a => perform (.read a))
    (fun rest records g' => Drift g g' ∧ Collecting rest records g')
    (fun _ _ _ _ hd h => ⟨h.1.trans hd,h.2.drift hd⟩)
    (fun a rest records g₂ h g₃ hd r hr => by
      refine ⟨g₃,rfl,Discipline.wp_ret (fun _ _ hd h => ⟨h.1.trans hd,h.2.drift hd⟩) ?_⟩
      exact ⟨h.1.trans hd,(h.2.drift hd).read hr⟩)
    addresses [] g₁ ⟨hd₁,hstart⟩
  refine Discipline.wp_bind (Discipline.wp_mono ?_ hreads)
  intro records g₂ h
  refine Discipline.wp_ret (fun g₃ g₄ hd h => ⟨h.1.trans hd,fun v => hd.converges v _ (h.2 v)⟩) ?_
  refine ⟨h.1,fun v => ?_⟩
  rcases h.2 v with h | ⟨_,b,hb,_⟩
  · exact h
  · cases hb

theorem handleLoginRequest_keeps (h : Blank id g) (requestId : UInt64) {username : String}
    (hv : validUsername username = true) : Keeps id address (fun _ => Synced id)
      (handleLoginRequest address requestId username).run g := by
  obtain ⟨⟨u,hown,rfl,hname,hvoice,hmuted⟩,howed⟩ := h
  rw [handleLoginRequest_run_valid address hv]
  apply keeps_update hown [.userJoinedServer ⟨u.id,username,false,false⟩]
  · simp [User.participant,touch,EventHandler.handlePacket,RoomPage.seen,hvoice,hmuted]
  · refine Discipline.wp_bind (Discipline.wp_mono ?_ collectParticipants_keeps)
    rintro participants g' ⟨hd,hconv⟩
    apply keeps_encode
    intro data hdata
    apply keeps_writing hdata
    apply keeps_announcing [] rfl rfl (.inr rfl)
    · rw [hd.owed,howed]
      rfl
    · apply keeps_synced
      refine ⟨⟨_,username,hd.own,rfl,rfl⟩,rfl,fun v _ => ?_⟩
      -- the login response has replaced whatever the client showed
      rw [Standing.page,List.foldl_append]
      exact hconv v

theorem Synced.respond (h : Synced id g) {response : Packet}
    (hresponse : ∀ v x, touch v x response = x) :
    Synced id { g with sent := g.sent ++ [response] } := by
  refine ⟨h.record,h.owed,fun v hne => ?_⟩
  rw [Standing.page,List.foldl_append]
  change g.converges v (touch v (g.page v) response)
  rw [hresponse]
  exact h.page v hne

/-- Change the own record and announce that to the others. -/
theorem changeVoice_keeps {inVoice : Bool} {response : Packet} {event : UInt64 → Event}
    {announcement : UInt64 → Packet} (h : Synced id g) (hresponse : ∀ v x, touch v x response = x)
    (hevent : (announcement id).isEvent = true) (hsubject : subject (announcement id) = some id)
    (htouch : ∀ x, touch id x (announcement id) =
      x.map fun user => { user with inVoice := inVoice, isMuted := false }) :
    Keeps id address (fun _ => Synced id)
      (changeVoice address inVoice response event announcement).run g := by
  obtain ⟨u,name,hown,rfl,hname⟩ := h.record
  rw [changeVoice_run]
  apply keeps_update hown [announcement u.id]
  · rw [List.foldl_cons,List.foldl_nil,htouch]
    simp [User.participant,hname]
  · apply keeps_encode
    intro data hdata
    apply keeps_writing hdata
    refine keeps_pass (fun _ _ => rfl) fun _ => ?_
    apply keeps_announcing [] hevent hsubject (.inr rfl)
    · rw [h.owed]
      rfl
    · apply keeps_synced
      exact ⟨⟨_,name,rfl,rfl,hname⟩,rfl,(h.respond hresponse).page⟩

theorem handleUserMuteState_keeps (h : Synced id g) (isMuted : Bool) :
    Keeps id address (fun _ => Synced id) (handleUserMuteState address id isMuted).run g := by
  obtain ⟨u,name,hown,rfl,hname⟩ := h.record
  rw [handleUserMuteState_run]
  apply keeps_update hown [.userMuteState u.id isMuted]
  · simp [User.participant,touch,EventHandler.handlePacket,RoomPage.seen,hname]
  · apply keeps_announcing [] rfl rfl (.inr rfl)
    · rw [h.owed]
      rfl
    · apply keeps_synced
      exact ⟨⟨_,name,rfl,rfl,hname⟩,rfl,h.page⟩

theorem handleChatMessageRequest_keeps (h : Synced id g) (requestId : UInt64) (message : String) :
    Keeps id address (fun _ => Synced id)
      (handleChatMessageRequest address requestId message).run g := by
  rw [handleChatMessageRequest_run]
  refine keeps_pass (fun _ _ => rfl) fun r => ?_
  cases r with
  | none => exact keeps_synced h
  | some user =>
    apply keeps_encode
    intro data hdata
    apply keeps_writing hdata
    refine keeps_pass (fun _ _ => rfl) fun timestamp => ?_
    apply keeps_encode
    intro announced hannounced g' hd _ _
    refine ⟨g',⟨_,hannounced,rfl,.inl ⟨rfl,rfl⟩⟩,?_⟩
    apply keeps_synced
    exact (h.respond fun _ _ => rfl).drift hd

/-- A logged in client that is polite stays in step. -/
theorem handlePacket_keeps (h : Synced id g) {packet : Packet} (hpolite : Polite id packet) :
    Keeps id address (fun _ => Synced id) (handlePacket address packet).run g := by
  cases packet with
  | joinVoiceChannelRequest requestId =>
    exact changeVoice_keeps h (fun _ _ => rfl) rfl rfl fun _ => if_pos rfl
  | leaveVoiceChannelRequest requestId =>
    exact changeVoice_keeps h (fun _ _ => rfl) rfl rfl fun _ => if_pos rfl
  | chatMessageRequest requestId message => exact handleChatMessageRequest_keeps h requestId message
  | pingRequest requestId =>
    rw [handlePacket,handlePingRequest_run]
    apply keeps_encode
    intro data hdata
    apply keeps_writing hdata
    exact keeps_synced (h.respond fun _ _ => rfl)
  | userMuteState userId isMuted =>
    obtain rfl : userId = id := hpolite
    exact handleUserMuteState_keeps h isMuted
  | _ => exact hpolite.elim

/-- The next packet of a conversation, be it the login or what follows it, keeps the task in step. -/
theorem nextPacket_keeps {handled rest : List Packet} {packet : Packet}
    (hall : Conversation id (handled ++ packet :: rest)) (h : Idle id g handled) :
    Keeps id address (fun _ g' => Idle id g' (handled ++ [packet]))
      (handlePacket address packet).run g := by
  cases handled with
  | nil =>
    obtain ⟨⟨requestId,username,rfl,hv⟩,_⟩ := hall
    exact handleLoginRequest_keeps h requestId hv
  | cons first before =>
    have hpolite : Polite id packet := hall.2 packet (by simp)
    exact handlePacket_keeps h hpolite

/-- The end of a connection owes nothing: both farewells are out. -/
theorem handleDisconnect_keeps {u : User} (hown : g.own = some u) (hid : u.id = id)
    (howed : g.owed = []) :
    Keeps id address (fun _ g' => g'.owed = []) (handleDisconnect address) g := by
  subst hid
  have hstable : ∀ g g' : Standing, Drift g g' → g.owed = [] → g'.owed = [] :=
    fun _ _ hd h => hd.owed.trans h
  rw [handleDisconnect_eq]
  cases hv : u.inVoice with
  | false =>
    apply keeps_remove hown [.userLeftServer u.id]
    · exact (if_pos rfl).symm
    · apply keeps_announcing [] rfl rfl (.inl rfl)
      · rw [howed]
        rfl
      · rw [hv]
        exact Discipline.wp_ret hstable rfl
  | true =>
    apply keeps_remove hown [.userLeftServer u.id,.userLeftVoice u.id]
    · simp [touch,EventHandler.handlePacket,RoomPage.seen]
    · apply keeps_announcing [.userLeftVoice u.id] rfl rfl (.inl rfl)
      · rw [howed]
        rfl
      · rw [hv]
        apply keeps_announcing [] rfl rfl (.inl rfl) rfl
        exact Discipline.wp_ret hstable rfl

/-! ## The branches of the loop -/

/-- The read branch: `received` is what had been received before it. -/
theorem handleRead_after {received : Bytes} {r : ReadResult}
    (hsplit : Packet.framer.split (received ++ r.bytes) =
      ((Packet.framer.split received).1 ++
        (Packet.framer.split ((Packet.framer.split received).2 ++ r.bytes)).1,
        (Packet.framer.split ((Packet.framer.split received).2 ++ r.bytes)).2))
    (hall : Conversation id (Packet.framer.split (received ++ r.bytes)).1)
    (h : Idle id g (Packet.framer.split received).1) :
    Keeps id address (After id (received ++ r.bytes))
      (handleRead address (Packet.framer.split received).2 r) g := by
  refine handleRead_wp (fun left g' => ∃ before,
      before ++ left = (Packet.framer.split (received ++ r.bytes)).1 ∧ Idle id g' before)
    (fun _ _ _ hd ⟨before,hbefore,h⟩ => ⟨before,hbefore,h.drift hd⟩) ?_
    (fun _ _ _ hd h => After.drift h hd) ?_ ?_ ?_
  · rintro packet left g₁ ⟨before,hbefore,h₁⟩
    have hnext : Conversation id (before ++ packet :: left) := hbefore ▸ hall
    refine Discipline.wp_mono (fun _ g₂ h₂ => ?_) (nextPacket_keeps hnext h₁)
    exact ⟨before ++ [packet],by rw [List.append_assoc]; exact hbefore,h₂⟩
  · intro e _
    obtain ⟨u,hown,hid⟩ := h.record
    exact handleDisconnect_keeps hown hid h.owed
  · rintro byte rest rfl
    exact ⟨_,(congrArg Prod.fst hsplit).symm,h⟩
  · rintro byte rest rfl g' ⟨before,hbefore,hidle⟩
    rw [List.append_nil] at hbefore
    subst hbefore
    exact ⟨(congrArg Prod.snd hsplit).symm,hidle⟩

/-- The broadcast branch with a message that is sent on; the announcement has already
been counted as received. -/
theorem handleRecv_sent_after {received : Bytes} {message : BroadcastMessage} {packet : Packet}
    (hsend : message.shouldSendTo address = true) (hpacket : packet.encode = some message.data)
    (h : Idle id { g with sent := g.sent ++ [packet] } (Packet.framer.split received).1) :
    Keeps id address (After id received)
      (handleRecv address (Packet.framer.split received).2 (.ok message)) g := by
  rw [handleRecv_sent address hsend]
  intro g' hd written hwritten
  obtain rfl : written = true := hwritten
  refine ⟨{ g' with sent := g'.sent ++ [packet] },⟨packet,hpacket,rfl⟩,?_⟩
  refine keeps_after ⟨rfl,h.drift ?_⟩
  exact ⟨hd.own,hd.owed,congrArg (· ++ [packet]) hd.sent,hd.home,hd.converges⟩

theorem handleRecv_filtered_after {received : Bytes} {message : BroadcastMessage}
    (hsend : message.shouldSendTo address = false)
    (h : Idle id g (Packet.framer.split received).1) :
    Keeps id address (After id received)
      (handleRecv address (Packet.framer.split received).2 (.ok message)) g := by
  rw [handleRecv_filtered address hsend]
  exact keeps_after ⟨rfl,h⟩

end Programs
end VoiceApp.Presence
