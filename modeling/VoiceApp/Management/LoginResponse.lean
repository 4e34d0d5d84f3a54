import VoiceApp.Management.Operations
import VoiceApp.Management.OwnRecord
import VoiceApp.Management.Rebroadcast

/-! # The response to a login

The response lists every user who has logged in, so it grows with the users map, and its
frame has a 16-bit length. It can be encoded as long as 26 bytes and the entries of all
these users fit; every further login panics.
-/
namespace VoiceApp.Management
open Protocol Server

/-- The entries of the users who have logged in. -/
def roster (users : Table SocketAddr User) : Multiset ParticipantInfo :=
  users.entries.filterMap fun e => e.2.participant

/-- The bytes that the response needs behind its header. -/
def responseLength (users : Table SocketAddr User) : ℕ :=
  26 + ((roster users).map ParticipantInfo.payloadLen).sum

/-- The users map once the login handler has stored the name. -/
def rename (users : Table SocketAddr User) (address : SocketAddr) (username : String) :
    Table SocketAddr User :=
  users.modify address fun user => { user with username := some username }

/-- The handler performs operations while nobody else does. -/
abbrev Alone {A : Type} : ManagementServer → HandlerM A → ManagementServer → HandlerM A → Prop :=
  Proc.Alone ManagementServer.Answers ManagementServer.perform

/-- The response can be encoded, and decodes to one entry for each user who has logged in,
the caller `u` among them. -/
def TellsEverybody (users : Table SocketAddr User) (requestId : UInt64) (u : User)
    (username : String) (response : Packet) : Prop :=
  ∃ data participants, response.encode = some data ∧
    Packet.decode data = .ok (.loginResponse requestId u.id u.token participants,data.length) ∧
    (participants : Multiset ParticipantInfo) = roster users ∧
    (participants.map ParticipantInfo.userId).Nodup ∧
    ⟨u.id,username,u.inVoice,u.isMuted⟩ ∈ participants

/-! ## What is collected -/

section Collecting
variable {users : Table SocketAddr User} {addresses : List SocketAddr}

/-- A record as an entry, looked up by its address. -/
def entryAt (users : Table SocketAddr User) (a : SocketAddr) : Option ParticipantInfo :=
  (users.lookup a).bind User.participant

theorem collected_eq (users : Table SocketAddr User) (addresses : List SocketAddr) :
    ((addresses.map fun a => users.lookup a).filterMap fun r => r.bind User.participant) =
      addresses.filterMap (entryAt users) := List.filterMap_map

/-- An iteration that visits all records collects the roster. -/
theorem collected_roster (hnodup : addresses.Nodup)
    (hkeys : ∀ a u, users.lookup a = some u → a ∈ addresses) :
    (addresses.filterMap (entryAt users) : Multiset ParticipantInfo) = roster users := by
  have hentries : (addresses.filterMap fun a => (users.lookup a).map (Sigma.mk a) :
      Multiset (Σ _ : SocketAddr, User)) = users.entries := by
    have hleft : (addresses.filterMap fun a => (users.lookup a).map (Sigma.mk a)).Nodup := by
      apply hnodup.filterMap
      intro a a' e ha ha'
      obtain ⟨u,_,rfl⟩ := Option.map_eq_some_iff.mp ha
      obtain ⟨u',_,heq⟩ := Option.map_eq_some_iff.mp ha'
      exact (congrArg Sigma.fst heq).symm
    apply (Multiset.Nodup.ext (Multiset.coe_nodup.mpr hleft) users.nodup_entries).mpr
    rintro ⟨a,u⟩
    rw [Multiset.mem_coe,List.mem_filterMap,← Finmap.lookup_eq_some_iff]
    constructor
    · rintro ⟨a',_,ha'⟩
      obtain ⟨u',hu',heq⟩ := Option.map_eq_some_iff.mp ha'
      cases heq
      exact hu'
    · intro hu
      exact ⟨a,hkeys a u hu,by rw [hu]; rfl⟩
  rw [roster,← hentries,Multiset.filterMap_coe,List.filterMap_filterMap]
  refine congrArg (fun f => Multiset.ofList (addresses.filterMap f)) (funext fun a => ?_)
  unfold entryAt
  cases users.lookup a <;> rfl

/-- Records of different connections have different ids. -/
theorem collected_nodup (hnodup : addresses.Nodup)
    (howner : ∀ a u a' u', users.lookup a = some u → users.lookup a' = some u' → u.id = u'.id → a = a') :
    ((addresses.filterMap (entryAt users)).map ParticipantInfo.userId).Nodup := by
  rw [List.map_filterMap]
  apply hnodup.filterMap
  have hentry : ∀ {a id}, (entryAt users a).map ParticipantInfo.userId = some id →
      ∃ u, users.lookup a = some u ∧ u.id = id := by
    intro a id h
    obtain ⟨p,hp,rfl⟩ := Option.map_eq_some_iff.mp h
    obtain ⟨u,hu,hparticipant⟩ := Option.bind_eq_some_iff.mp hp
    obtain ⟨name,_,rfl⟩ := Option.map_eq_some_iff.mp hparticipant
    exact ⟨u,hu,rfl⟩
  intro a a' id ha ha'
  obtain ⟨u,hu,hid⟩ := hentry ha
  obtain ⟨u',hu',hid'⟩ := hentry ha'
  exact howner a u a' u' hu hu' (hid.trans hid'.symm)

end Collecting

/-! ## What can be encoded -/

theorem length_le_sum_payloadLen (participants : List ParticipantInfo) :
    participants.length ≤ (participants.map ParticipantInfo.payloadLen).sum := by
  induction participants with
  | nil => simp
  | cons p rest ih =>
    simp only [List.length_cons,List.map_cons,List.sum_cons,ParticipantInfo.payloadLen]
    omega

theorem username_le_sum_payloadLen {participants : List ParticipantInfo} {p : ParticipantInfo}
    (hp : p ∈ participants) :
    p.username.utf8ByteSize ≤ (participants.map ParticipantInfo.payloadLen).sum := by
  induction participants with
  | nil => simp at hp
  | cons q rest ih =>
    simp only [List.map_cons,List.sum_cons]
    rcases List.mem_cons.mp hp with rfl | hp
    · simp only [ParticipantInfo.payloadLen]
      omega
    · have hrest := ih hp
      omega

/-- A login response is limited by its length alone. -/
theorem loginResponse_encodes_iff (requestId id token : UInt64) (participants : List ParticipantInfo) :
    (∃ data, (Packet.loginResponse requestId id token participants).encode = some data) ↔
      26 + (participants.map ParticipantInfo.payloadLen).sum ≤ 65535 := by
  rw [Packet.encode_isSome_iff]
  have hcount := length_le_sum_payloadLen participants
  simp only [Packet.strings,Packet.participantCount,Packet.payloadLen,List.forall_mem_map]
  constructor
  · rintro ⟨_,_,hlen⟩
    omega
  · intro hlen
    refine ⟨fun p hp => ?_,by omega,by omega⟩
    have hname := username_le_sum_payloadLen hp
    omega

/-! ## The handler by itself -/

section Handler
variable {s s' : ManagementServer} {address : SocketAddr} {A : Type}

/-- Reading the records one after the other gives them as they are. -/
theorem alone_reads {addresses : List SocketAddr} {K : List (Option User) → HandlerM A} {o : Op}
    {k : o.Res → HandlerM A} (ho : ∀ a, o ≠ .read a)
    (h : Alone s (addresses.mapM (fun a => perform (.read a)) >>= K) s' (.op o k)) :
    Alone s (K (addresses.map fun a => s.users.lookup a)) s' (.op o k) := by
  induction addresses generalizing K with
  | nil =>
    rw [List.mapM_nil,pure_bind] at h
    exact h
  | cons a rest ih =>
    rw [List.mapM_cons,bind_assoc] at h
    rcases Proc.Alone.step h with ⟨hread,_⟩ | ⟨r,hr,h⟩
    · exact (ho a hread.symm).elim
    · obtain rfl : r = s.users.lookup a := hr
      have hrest : Alone s (rest.mapM (fun a => perform (.read a)) >>= fun records =>
          K (s.users.lookup a :: records)) s' (.op o k) := by
        refine Eq.mp (congrArg (fun p => Alone s p s' (.op o k)) ?_) h
        exact bind_assoc _ _ _
      exact ih hrest

theorem alone_writing {data : Bytes} {k' : HandlerM (Except ServerError Unit)} {o : Op}
    {k : o.Res → HandlerM (Except ServerError Unit)} (ho : o ≠ .write data)
    (h : Alone s (writing data k') s' (.op o k)) : Alone s k' s' (.op o k) := by
  rcases Proc.Alone.step h with ⟨hwrite,_⟩ | ⟨written,_,h⟩
  · exact (ho hwrite.symm).elim
  · cases written with
    | true => exact h
    | false => exact (Proc.Alone.ret h).elim

/-- What the login handler has left to do by itself once it has collected the participants. -/
def answering (users : Table SocketAddr User) (address : SocketAddr) (requestId : UInt64) (u : User)
    (username : String) (addresses : List SocketAddr) : HandlerM (Except ServerError Unit) :=
  .op (.encode (.loginResponse requestId u.id u.token
    (addresses.filterMap (entryAt (rename users address username))))) fun data =>
      writing data (announcing (some address) (.userJoinedServer ⟨u.id,username,false,false⟩)
        (.ret (.ok ())))

/-- The login handler collects the participants by itself before it does anything else. -/
theorem alone_login_collects {requestId : UInt64} {username : String} {o : Op}
    {k : o.Res → HandlerM (Except ServerError Unit)} (hv : validUsername username = true)
    (hget : ∀ a update, o ≠ .getMut a update) (hiterate : o ≠ .keys) (hread : ∀ a, o ≠ .read a)
    (h : Alone s (handleLoginRequest address requestId username).run s' (.op o k)) :
    ∃ u, ∃ addresses : List SocketAddr, s.users.lookup address = some u ∧ addresses.Nodup ∧
      (∀ a u, (rename s.users address username).lookup a = some u → a ∈ addresses) ∧
      Alone (s.perform (.getMut address fun user => { user with username := some username }))
        (answering s.users address requestId u username addresses) s' (.op o k) := by
  rw [handleLoginRequest_run_valid address hv] at h
  rcases h.step with ⟨hother,_⟩ | ⟨r,hr,h⟩
  · exact (hget _ _ hother.symm).elim
  · obtain rfl : r = (s.users.lookup address).map fun user =>
      { user with username := some username } := hr
    cases hu : s.users.lookup address with
    | none =>
      rw [hu] at h
      exact h.ret.elim
    | some u =>
      rw [hu] at h
      rcases h.step with ⟨hother,_⟩ | ⟨addresses,hkeys,h⟩
      · exact (hiterate hother.symm).elim
      · refine ⟨u,addresses,rfl,hkeys.1,hkeys.2,?_⟩
        change Alone _ ((addresses.mapM (fun a => perform (.read a)) >>= _) >>= _) _ _ at h
        rw [bind_assoc] at h
        have h := alone_reads hread h
        unfold answering
        rw [← collected_eq]
        exact h

/-- The response that the login handler builds by itself. -/
theorem alone_login {requestId : UInt64} {username : String} {response : Packet}
    {k : Bytes → HandlerM (Except ServerError Unit)} (hv : validUsername username = true)
    (hres : response.isEvent = false)
    (h : Alone s (handleLoginRequest address requestId username).run s' (.op (.encode response) k)) :
    ∃ u, ∃ addresses : List SocketAddr, s.users.lookup address = some u ∧ addresses.Nodup ∧
      (∀ a u, (rename s.users address username).lookup a = some u → a ∈ addresses) ∧
      response = .loginResponse requestId u.id u.token
        (addresses.filterMap (entryAt (rename s.users address username))) ∧
      s'.users = rename s.users address username := by
  obtain ⟨u,addresses,hu,hnodup,hkeys,h⟩ := alone_login_collects hv (by simp) (by simp) (by simp) h
  refine ⟨u,addresses,hu,hnodup,hkeys,?_⟩
  rcases h.step with ⟨heq,hsame⟩ | ⟨data,_,h⟩
  · rw [hsame]
    exact ⟨(Op.encode.inj heq).symm,rfl⟩
  · have h := alone_writing (by simp) h
    rcases h.step with ⟨heq,_⟩ | ⟨joined,_,h⟩
    · rw [← Op.encode.inj heq] at hres
      cases hres
    · rcases h.step with ⟨heq,_⟩ | ⟨_,_,h⟩
      · cases heq
      · exact h.ret.elim

/-- The response that the login handler writes by itself. -/
theorem alone_login_writes {requestId : UInt64} {username : String} {data : Bytes}
    {k : Bool → HandlerM (Except ServerError Unit)} (hv : validUsername username = true)
    (h : Alone s (handleLoginRequest address requestId username).run s' (.op (.write data) k)) :
    ∃ u, ∃ addresses : List SocketAddr, s.users.lookup address = some u ∧ addresses.Nodup ∧
      (∀ a u, (rename s.users address username).lookup a = some u → a ∈ addresses) ∧
      (Packet.loginResponse requestId u.id u.token
        (addresses.filterMap (entryAt (rename s.users address username)))).encode = some data := by
  obtain ⟨u,addresses,hu,hnodup,hkeys,h⟩ := alone_login_collects hv (by simp) (by simp) (by simp) h
  refine ⟨u,addresses,hu,hnodup,hkeys,?_⟩
  rcases h.step with ⟨heq,_⟩ | ⟨data',hdata,h⟩
  · cases heq
  · rcases h.step with ⟨heq,_⟩ | ⟨written,_,h⟩
    · cases heq
      exact hdata
    · cases written with
      | false => exact h.ret.elim
      | true =>
        rcases h.step with ⟨heq,_⟩ | ⟨_,_,h⟩
        · cases heq
        · rcases h.step with ⟨heq,_⟩ | ⟨_,_,h⟩
          · cases heq
          · exact h.ret.elim

/-- The announcement that the login handler broadcasts by itself. -/
theorem alone_login_announces {requestId : UInt64} {username : String} {m : BroadcastMessage}
    {k : Unit → HandlerM (Except ServerError Unit)} (hv : validUsername username = true)
    (h : Alone s (handleLoginRequest address requestId username).run s' (.op (.broadcast m) k)) :
    ∃ u, s.users.lookup address = some u ∧
      (Packet.userJoinedServer ⟨u.id,username,false,false⟩).encode = some m.data ∧
      s'.users = rename s.users address username := by
  obtain ⟨u,addresses,hu,_,_,h⟩ := alone_login_collects hv (by simp) (by simp) (by simp) h
  refine ⟨u,hu,?_⟩
  rcases h.step with ⟨heq,_⟩ | ⟨_,_,h⟩
  · cases heq
  · have h := alone_writing (by simp) h
    rcases h.step with ⟨heq,_⟩ | ⟨joined,hjoined,h⟩
    · cases heq
    · rcases h.step with ⟨heq,hsame⟩ | ⟨_,_,h⟩
      · cases heq
        rw [hsame]
        exact ⟨hjoined,rfl⟩
      · exact h.ret.elim

/-- A name that fails the check is answered with id and token 0 and an empty list, and
nothing is stored. -/
theorem alone_login_invalid {requestId : UInt64} {username : String} {response : Packet}
    {k : Bytes → HandlerM (Except ServerError Unit)} (hv : validUsername username = false)
    (h : Alone s (handleLoginRequest address requestId username).run s' (.op (.encode response) k)) :
    response = .loginResponse requestId 0 0 [] ∧ s' = s := by
  rw [handleLoginRequest_run_invalid address hv] at h
  rcases h.step with ⟨heq,hsame⟩ | ⟨data,_,h⟩
  · exact ⟨(Op.encode.inj heq).symm,hsame⟩
  · exact (alone_writing (by simp) h).ret.elim

/-- A handler that is alone runs as part of its task. -/
theorem alone_run {p p' : HandlerM A} (h : Alone s p s' p') {K : A → HandlerM Outcome} (id : UInt64)
    {c : Connection} (hp : c.phase = .ofProgram (p >>= K)) :
    ∃ trace written, Run Step (s.setConnection id c) trace
      (s'.setConnection id { c with phase := .ofProgram (p' >>= K),written := written }) := by
  induction h generalizing c with
  | refl =>
    refine ⟨[],c.written,?_⟩
    rw [← hp]
    exact .refl
  | @op s o k s' p' r hr _ ih =>
    have hwrites : ∃ b, o.Writes r b := by
      cases o with
      | write data =>
        cases r with
        | true => exact ⟨data,rfl⟩
        | false => exact ⟨[],List.nil_prefix⟩
      | _ => exact ⟨[],rfl⟩
    obtain ⟨b,hb⟩ := hwrites
    have hstep : Step (s.setConnection id c) (.exec id o r) _ := step_exec hp hr hb
    obtain ⟨trace,written,hrun⟩ := ih (c := { c with
      phase := .ofProgram (k r >>= K),written := c.written ++ b }) rfl
    exact ⟨_,written,(Run.single hstep).append hrun⟩

theorem reads_alone (s : ManagementServer) (addresses : List SocketAddr)
    (K : List (Option User) → HandlerM A) :
    Alone s (addresses.mapM (fun a => perform (.read a)) >>= K) s
      (K (addresses.map fun a => s.users.lookup a)) := by
  induction addresses generalizing K with
  | nil =>
    rw [List.mapM_nil,pure_bind]
    exact .refl
  | cons a rest ih =>
    rw [List.mapM_cons,bind_assoc]
    refine .op (s.users.lookup a) rfl ?_
    have hassoc : ((rest.mapM fun a => perform (.read a)) >>= fun records =>
        pure (s.users.lookup a :: records)) >>= K = (rest.mapM fun a => perform (.read a)) >>=
          fun records => K (s.users.lookup a :: records) := bind_assoc _ _ _
    change Alone s (((rest.mapM fun a => perform (.read a)) >>= fun records =>
      pure (s.users.lookup a :: records)) >>= K) s _
    rw [hassoc]
    exact ih _

/-- A user with a record comes to be answered. -/
theorem login_alone_answering {u : User} (hu : s.users.lookup address = some u) (requestId : UInt64)
    {username : String} (hv : validUsername username = true) {addresses : List SocketAddr}
    (hnodup : addresses.Nodup)
    (hkeys : ∀ a u, (rename s.users address username).lookup a = some u → a ∈ addresses) :
    Alone s (handleLoginRequest address requestId username).run
      (s.perform (.getMut address fun user => { user with username := some username }))
      (answering s.users address requestId u username addresses) := by
  have hrecord : s.Answers (.getMut address fun user => { user with username := some username })
      (some { u with username := some username }) := by
    change _ = (s.users.lookup address).map _
    rw [hu]
    rfl
  rw [handleLoginRequest_run_valid address hv]
  refine .op _ hrecord (.op addresses ⟨hnodup,hkeys⟩ ?_)
  change Alone _ ((addresses.mapM (fun a => perform (.read a)) >>= _) >>= _) _ _
  rw [bind_assoc]
  unfold answering
  rw [← collected_eq]
  exact reads_alone _ _ _

/-- A user with a record is answered by some response, whatever becomes of it. -/
theorem login_alone {u : User} (hu : s.users.lookup address = some u) (requestId : UInt64)
    {username : String} (hv : validUsername username = true) :
    ∃ response k s', response.isEvent = false ∧
      Alone s (handleLoginRequest address requestId username).run s' (.op (.encode response) k) := by
  obtain ⟨entries,hentries⟩ := Table.exists_enumeration (rename s.users address username)
  have hkeys : ∀ a u, (rename s.users address username).lookup a = some u →
      a ∈ entries.map Prod.fst := fun a u ha =>
    List.mem_map.mpr ⟨(a,u),(hentries.mem_iff a u).mpr ha,rfl⟩
  exact ⟨_,_,_,rfl,login_alone_answering hu requestId hv hentries.nodup hkeys⟩

end Handler

/-- The response that the login handler builds in a state that can be reached tells the
caller of everybody exactly if the names of all who have logged in fit one frame. -/
theorem login_tells_everybody_iff {trace : Trace} {s s' : ManagementServer} {address : SocketAddr}
    {requestId : UInt64} {username : String} {response : Packet}
    {k : Bytes → HandlerM (Except ServerError Unit)} (hr : Run Step ManagementServer.new trace s)
    (hv : validUsername username = true) (hres : response.isEvent = false)
    (h : Alone s (handleLoginRequest address requestId username).run s' (.op (.encode response) k)) :
    ∃ u, s.users.lookup address = some u ∧
      (TellsEverybody (rename s.users address username) requestId u username response ↔
        responseLength (rename s.users address username) ≤ 65535) := by
  obtain ⟨u,addresses,hu,hnodup,hkeys,rfl,_⟩ := alone_login hv hres h
  refine ⟨u,hu,?_⟩
  have hroster := collected_roster hnodup hkeys
  have hlength : responseLength (rename s.users address username) =
      26 + ((addresses.filterMap (entryAt (rename s.users address username))).map
        ParticipantInfo.payloadLen).sum := by
    rw [responseLength,← hroster,Multiset.map_coe,Multiset.sum_coe]
  rw [hlength,← loginResponse_encodes_iff requestId u.id u.token]
  constructor
  · rintro ⟨data,_,hdata,_⟩
    exact ⟨data,hdata⟩
  · rintro ⟨data,hdata⟩
    refine ⟨data,_,hdata,Packet.decode_self hdata,hroster,collected_nodup hnodup ?_,?_⟩
    · have hids : ∀ a u, (rename s.users address username).lookup a = some u →
          ∃ u', s.users.lookup a = some u' ∧ u'.id = u.id := by
        intro a u ha
        refine ManagementServer.perform_ids (s := s) (o := .getMut address fun user =>
          { user with username := some username }) ?_ ha
        rintro a update heq u
        cases heq
        rfl
      intro a u a' u' ha ha' hid
      obtain ⟨v,hv,hvid⟩ := hids a u ha
      obtain ⟨v',hv',hvid'⟩ := hids a' u' ha'
      obtain ⟨c,hc,hca⟩ := run_owner hr a v hv
      obtain ⟨c',hc',hca'⟩ := run_owner hr a' v' hv'
      rw [hvid,hid,← hvid',hc'] at hc
      cases hc
      exact hca.symm.trans hca'
    · have hrenamed : (rename s.users address username).lookup address =
          some { u with username := some username } := by
        rw [rename,Table.lookup_modify,if_pos rfl,hu]
        rfl
      refine List.mem_filterMap.mpr ⟨address,hkeys address _ hrenamed,?_⟩
      rw [entryAt,hrenamed]
      rfl

/-! ## A crowd -/

/-- `n` users with names of 32 letters have logged in, one after the other. -/
structure Crowd (n : ℕ) (s : ManagementServer) : Prop where
  reachable : ∃ trace, Run Step ManagementServer.new trace s
  next : s.nextUserId.toNat = n + 1
  addresses : ∀ a u, s.users.lookup a = some u → ∃ j < n, a = .v4 (UInt32.ofNat j) 1
  named : ∀ a u, s.users.lookup a = some u → u.username = some (letters 32)
  size : (roster s.users).card = n

theorem valid_letters : validUsername (letters 32) = true := by
  have hsize := utf8ByteSize_letters 32
  have hnonempty : (letters 32).isEmpty = false := by
    rw [String.isEmpty,hsize]
    rfl
  simp [validUsername,hnonempty,hsize,maxUsernameLen]

/-- Each of these users takes 44 bytes. -/
theorem responseLength_named {users : Table SocketAddr User}
    (h : ∀ a u, users.lookup a = some u → u.username = some (letters 32)) :
    responseLength users = 26 + 44 * (roster users).card := by
  have hlen : ∀ p ∈ roster users, p.payloadLen = 44 := by
    intro p hp
    obtain ⟨⟨a,u⟩,hmem,hparticipant⟩ := (Multiset.mem_filterMap _ _).mp hp
    have hname := h a u (Finmap.lookup_eq_some_iff.mpr hmem)
    rw [User.participant,hname] at hparticipant
    cases hparticipant
    simp [ParticipantInfo.payloadLen,utf8ByteSize_letters]
  rw [responseLength,Multiset.map_congr rfl hlen,Multiset.map_const',Multiset.sum_replicate]
  exact congrArg (26 + ·) (Nat.mul_comm _ 44)

section Newcomer
variable {n : ℕ} {s : ManagementServer}

/-- The address of the next user. -/
def nextAddress (n : ℕ) : SocketAddr := .v4 (UInt32.ofNat n) 1

/-- The state once the next user has connected, but for its connection. -/
def joining (n : ℕ) (s : ManagementServer) : ManagementServer :=
  ((s.accept (nextAddress n) 0).setConnection s.nextUserId
    ⟨s.newUser 0,nextAddress n,.connected,0,[],[]⟩).sendEvent (.userConnected s.nextUserId 0)

def newcomer (n : ℕ) (s : ManagementServer) : Connection :=
  ⟨s.newUser 0,nextAddress n,.select [],s.broadcasts.length,[],[]⟩

theorem Crowd.connect (h : Crowd n s) (hn : n < 65536) :
    ∃ trace, Run Step .new trace ((joining n s).setConnection s.nextUserId (newcomer n s)) := by
  obtain ⟨trace,hr⟩ := h.reachable
  have haccept : Step s (.accept (nextAddress n) 0) (s.accept (nextAddress n) 0) := by
    apply Step.accept
    rw [h.next]
    omega
  have hconnect : Step (s.accept (nextAddress n) 0) (.connect s.nextUserId) (joining n s) := by
    refine .connect (c := ⟨s.newUser 0,nextAddress n,.spawned,0,[],[]⟩) ?_ rfl
    rw [s.accept_connections,if_pos rfl]
  have hsubscribe : Step (joining n s) (.subscribe s.nextUserId)
      ((joining n s).setConnection s.nextUserId (newcomer n s)) := by
    refine .subscribe (c := ⟨s.newUser 0,nextAddress n,.connected,0,[],[]⟩) ?_ rfl
    exact ManagementServer.setConnection_own _ _ _
  exact ⟨_,((hr.snoc haccept).snoc hconnect).snoc hsubscribe⟩

theorem Crowd.fresh (h : Crowd n s) (hn : n < 65536) : nextAddress n ∉ s.users := by
  intro hmem
  obtain ⟨u,hu⟩ := Finmap.mem_iff.mp hmem
  obtain ⟨j,hj,ha⟩ := h.addresses _ u hu
  have hofNat : UInt32.ofNat n = UInt32.ofNat j := (SocketAddr.v4.inj ha).1
  have htoNat := congrArg UInt32.toNat hofNat
  rw [UInt32.toNat_ofNat_of_lt' (by simp [UInt32.size]; omega),
    UInt32.toNat_ofNat_of_lt' (by simp [UInt32.size]; omega)] at htoNat
  omega

/-- The users map once the next user has got its name. -/
theorem rename_joining (n : ℕ) (s : ManagementServer) :
    rename (joining n s).users (nextAddress n) (letters 32) =
      s.users.insert (nextAddress n) { s.newUser 0 with username := some (letters 32) } := by
  change Table.modify (s.users.insert (nextAddress n) (s.newUser 0)) _ _ = _
  rw [Table.modify,Finmap.lookup_insert]
  exact Finmap.insert_insert s.users

theorem Crowd.roster_joining (h : Crowd n s) (hn : n < 65536) :
    (roster (rename (joining n s).users (nextAddress n) (letters 32))).card = n + 1 := by
  have hentry : User.participant { s.newUser 0 with username := some (letters 32) } =
    some ⟨s.nextUserId,letters 32,false,false⟩ := rfl
  rw [rename_joining,roster,Finmap.entries_insert_of_notMem (h.fresh hn),Multiset.filterMap_cons_some
    (fun e : Σ _ : SocketAddr, User => e.2.participant) _ _ hentry,Multiset.card_cons]
  exact congrArg (· + 1) h.size

theorem Crowd.named_joining (h : Crowd n s) : ∀ a u,
    (rename (joining n s).users (nextAddress n) (letters 32)).lookup a = some u →
      u.username = some (letters 32) := by
  intro a u hu
  rw [rename_joining,Table.lookup_insert_eq] at hu
  split at hu
  · cases hu
    rfl
  · exact h.named a u hu

theorem Crowd.responseLength_joining (h : Crowd n s) (hn : n < 65536) :
    responseLength (rename (joining n s).users (nextAddress n) (letters 32)) = 26 + 44 * (n + 1) := by
  rw [responseLength_named h.named_joining,h.roster_joining hn]

theorem encode_request : ∃ data, (Packet.loginRequest 7 (letters 32)).encode = some data ∧
    data.length ≤ packetBufferSize := by
  have hsize := utf8ByteSize_letters 32
  obtain ⟨data,hdata⟩ := (Packet.encode_isSome_iff (.loginRequest 7 (letters 32))).mpr
    ⟨by simp [Packet.strings,hsize],by simp [Packet.participantCount],by simp [Packet.payloadLen,hsize]⟩
  refine ⟨data,hdata,?_⟩
  have hlen := Packet.encode_length hdata
  simp only [Packet.payloadLen,hsize] at hlen
  simp only [packetBufferSize]
  omega

/-- One more user logs in while the response fits. -/
theorem Crowd.login (h : Crowd n s) (hfits : 26 + 44 * (n + 1) ≤ 65535) : ∃ s', Crowd (n + 1) s' := by
  have hn : n < 65536 := by omega
  obtain ⟨trace,hr⟩ := h.connect hn
  obtain ⟨data,hdata,hlen⟩ := encode_request
  obtain ⟨entries,hentries⟩ := Table.exists_enumeration
    (rename (joining n s).users (nextAddress n) (letters 32))
  have hkeys : ∀ a u, (rename (joining n s).users (nextAddress n) (letters 32)).lookup a = some u →
      a ∈ entries.map Prod.fst := fun a u ha =>
    List.mem_map.mpr ⟨(a,u),(hentries.mem_iff a u).mpr ha,rfl⟩
  obtain ⟨response,hresponse⟩ := (loginResponse_encodes_iff 7 (s.newUser 0).id (s.newUser 0).token
    (((entries.map Prod.fst).map fun a => (rename (joining n s).users (nextAddress n)
      (letters 32)).lookup a).filterMap fun r => r.bind User.participant)).mpr (by
    have hlength := h.responseLength_joining hn
    rw [responseLength,← collected_roster hentries.nodup hkeys,Multiset.map_coe,Multiset.sum_coe]
      at hlength
    rw [collected_eq,hlength]
    exact hfits)
  obtain ⟨joined,hjoined⟩ := (Packet.encode_isSome_iff
    (.userJoinedServer ⟨(s.newUser 0).id,letters 32,false,false⟩)).mpr (by
      simp [Packet.strings,Packet.participantCount,Packet.payloadLen,ParticipantInfo.payloadLen,
        utf8ByteSize_letters])
  have hcalm : Calmly Step s.nextUserId := fun hstep _ => hstep
  have hrecord : (joining n s).users.lookup (newcomer n s).address = some (s.newUser 0) :=
    Finmap.lookup_insert _
  have hlogin := run_login hcalm hr 7 (letters 32) (entries.map Prod.fst) rfl hdata hlen valid_letters
    hrecord rfl hentries.nodup hkeys hresponse hjoined fun hstep => hstep
  refine ⟨_,⟨_,hlogin⟩,?_,?_,h.named_joining,h.roster_joining hn⟩
  · change (s.nextUserId + 1).toNat = _
    rw [BigEndian.toNat_succ (by rw [h.next]; omega),h.next]
  · intro a u hu
    have hu : (rename (joining n s).users (nextAddress n) (letters 32)).lookup a = some u := hu
    rw [rename_joining,Table.lookup_insert_eq] at hu
    split at hu
    · rename_i ha
      exact ⟨n,Nat.lt_succ_self n,ha⟩
    · obtain ⟨j,hj,ha⟩ := h.addresses a u hu
      exact ⟨j,Nat.lt_succ_of_lt hj,ha⟩

end Newcomer

theorem exists_crowd (n : ℕ) (hn : n ≤ 1488) : ∃ s, Crowd n s := by
  induction n with
  | zero =>
    refine ⟨.new,⟨[],.refl⟩,rfl,?_,?_,rfl⟩ <;>
      · intro a u hu
        simp [ManagementServer.new] at hu
  | succ n ih =>
    obtain ⟨s,hs⟩ := ih (Nat.le_of_succ_le hn)
    exact hs.login (by omega)

/-- The first user to log in is told of itself. -/
theorem login_tells_everybody_first : ∃ trace s u response, Run Step .new trace s ∧
    s.users.lookup (nextAddress 0) = some u ∧
    TellsEverybody (rename s.users (nextAddress 0) (letters 32)) 7 u (letters 32) response := by
  obtain ⟨s,hs⟩ := exists_crowd 0 (Nat.zero_le _)
  obtain ⟨trace,hr⟩ := hs.connect (by decide)
  have hrecord : ((joining 0 s).setConnection s.nextUserId (newcomer 0 s)).users.lookup
      (nextAddress 0) = some (s.newUser 0) := Finmap.lookup_insert _
  obtain ⟨response,k,s',hres,halone⟩ := login_alone hrecord 7 valid_letters
  obtain ⟨u,hu,htells⟩ := login_tells_everybody_iff hr valid_letters hres halone
  have hlength := hs.responseLength_joining (by decide)
  exact ⟨trace,_,u,response,hr,hu,htells.mpr (by
    change responseLength (rename (joining 0 s).users (nextAddress 0) (letters 32)) ≤ 65535
    omega)⟩

/-- With 1488 users of 32 letters online the next login gets no response: its handler comes
to encode one that does not fit, and its task panics. -/
theorem crowded_login_panics : ∃ trace s s' response k trace' t t' id, Run Step .new trace s ∧
    (∀ a u name, s.users.lookup a = some u → u.username = some name → validUsername name = true) ∧
    Alone s (handleLoginRequest (nextAddress 1488) 7 (letters 32)).run s' (.op (.encode response) k) ∧
    response.isEvent = false ∧
    (∀ u, ¬ TellsEverybody (rename s.users (nextAddress 1488) (letters 32)) 7 u (letters 32) response) ∧
    Run Step s trace' t ∧ Step t (.panic id) t' := by
  obtain ⟨s,hs⟩ := exists_crowd 1488 (Nat.le_refl _)
  obtain ⟨trace,hr⟩ := hs.connect (by decide)
  obtain ⟨data,hdata,hlen⟩ := encode_request
  have hread := hr.snoc (step_read (r := .ok data) rfl hlen)
  let reading : Connection := { newcomer 1488 s with
    phase := .ofProgram (handleRead (nextAddress 1488) [] (.ok data)),received := [] ++ data }
  let start := (joining 1488 s).setConnection s.nextUserId reading
  have hrecord : start.users.lookup (nextAddress 1488) = some (s.newUser 0) := Finmap.lookup_insert _
  obtain ⟨response,k,s',hres,halone⟩ := login_alone hrecord 7 valid_letters
  obtain ⟨u,addresses,hu,hnodup,hkeys,hresponse,_⟩ := alone_login valid_letters hres halone
  have hnone : response.encode = none := by
    rw [hresponse]
    refine Option.eq_none_iff_forall_ne_some.mpr fun out hout => ?_
    have hfits := (loginResponse_encodes_iff _ _ _ _).mp ⟨out,hout⟩
    have hlength := hs.responseLength_joining (by decide)
    change responseLength (rename start.users (nextAddress 1488) (letters 32)) = _ at hlength
    rw [responseLength,← collected_roster hnodup hkeys,Multiset.map_coe,Multiset.sum_coe] at hlength
    omega
  have hprogram : reading.phase = .ofProgram ((handleLoginRequest (nextAddress 1488) 7
      (letters 32)).run >>= fun _ => .ret (.proceed [])) :=
    congrArg Phase.ofProgram (handleRead_packet (nextAddress 1488) hdata)
  obtain ⟨trace',written,hrun⟩ := alone_run halone s.nextUserId hprogram
  have hsame : start.setConnection s.nextUserId reading = start :=
    ManagementServer.setConnection_twice _ _ _ _
  rw [hsame] at hrun
  refine ⟨_,start,s',response,k,trace',_,_,s.nextUserId,hread,?_,halone,hres,?_,hrun,
    .panic (ManagementServer.setConnection_own _ _ _) rfl hnone⟩
  · intro a u name ha hname
    have ha : (s.users.insert (nextAddress 1488) (s.newUser 0)).lookup a = some u := ha
    rw [Table.lookup_insert_eq] at ha
    split at ha
    · cases ha
      cases hname
    · rw [hs.named a u ha] at hname
      cases hname
      exact valid_letters
  · rintro u ⟨out,_,hout,_⟩
    rw [hnone] at hout
    cases hout

end VoiceApp.Management
