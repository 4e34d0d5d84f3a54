import VoiceApp.Management.Handler

/-! # Events built from a client's packet

A packet arrives and is announced under the same 16-bit limit on its payload, but a chat
message is announced with eight bytes more than it arrived with. All other announcements
are of bounded size.
-/
namespace VoiceApp.Management
open Protocol Server

/-- Answers to the handler at `address` while its record is `record`; what concerns
anything else is left open. -/
def AnswersFor (address : SocketAddr) (record : Option User) : (o : Op) → o.Res → Prop
  | .getMut a update,r => a = address → r = record.map update
  | .get a,r => a = address → r = record
  | .encode packet,r => packet.encode = some r
  | _,_ => True

/-- An event packet that the handler encodes while it handles `packet`. -/
def Builds (address : SocketAddr) (record : Option User) (packet q : Packet) : Prop :=
  Proc.Reaches (AnswersFor address record) (handlePacket address packet).run (.encode q) ∧
    q.isEvent = true

/-- Every event built from the packet is encoded and decodes to itself. A chat message of
a user with a record is announced under its id, at whatever time, and as nothing else. -/
def Rebroadcasts (address : SocketAddr) (record : Option User) (packet : Packet) : Prop :=
  (∀ q, Builds address record packet q → ∃ out, q.encode = some out ∧
    Packet.decode out = .ok (q,out.length)) ∧
  ∀ requestId message user, packet = .chatMessageRequest requestId message →
    record = some user → ∀ q, Builds address record packet q ↔
      ∃ timestamp, q = .userSentMessage user.id timestamp message

/-- A chat message of more than 65517 bytes. -/
def LongChat (packet : Packet) : Prop :=
  ∃ requestId message, packet = .chatMessageRequest requestId message ∧ 65517 < message.utf8ByteSize

section Reached
variable {address : SocketAddr} {record : Option User} {q : Packet}

theorem reaches_writing {data : Bytes} {k : HandlerM (Except ServerError Unit)} {o : Op}
    (h : Proc.Reaches (AnswersFor address record) (writing data k) o) :
    o = .write data ∨ Proc.Reaches (AnswersFor address record) k o := by
  rw [writing,Proc.reaches_op] at h
  rcases h with rfl | ⟨written,_,h⟩
  · exact .inl rfl
  · cases written with
    | true => exact .inr h
    | false => exact ((Proc.reaches_ret _ _) h).elim

theorem reaches_announcing {exclude : Option SocketAddr} {packet : Packet}
    (h : Proc.Reaches (AnswersFor address record)
      (announcing exclude packet (.ret (.ok ()) : HandlerM (Except ServerError Unit))) (.encode q)) :
    q = packet := by
  simp only [announcing,Proc.reaches_op,Proc.reaches_ret,and_false,exists_false,or_false,
    Op.encode.injEq,reduceCtorEq] at h
  exact h.symm

/-- Collecting the participants encodes nothing. -/
theorem not_reaches_collectParticipants :
    ¬ Proc.Reaches (AnswersFor address record) collectParticipants (.encode q) := by
  intro h
  rw [collectParticipants,perform,Proc.call_bind,Proc.reaches_op] at h
  rcases h with h | ⟨addresses,_,h⟩
  · cases h
  · rcases h.of_bind with h | ⟨records,h⟩
    · obtain ⟨a,_,h⟩ := h.of_mapM
      simp [perform,Proc.call] at h
    · exact Proc.reaches_ret _ _ h

/-- A response encoded and written, with nothing behind it, builds no event. -/
theorem not_builds_response {response : Packet} (hres : response.isEvent = false)
    (hq : q.isEvent = true)
    (h : Proc.Reaches (AnswersFor address record) (.op (.encode response) fun data =>
      writing data (.ret (.ok ()))) (.encode q)) : False := by
  rw [Proc.reaches_op] at h
  rcases h with h | ⟨data,_,h⟩
  · cases h
    simp [hres] at hq
  · rcases reaches_writing h with h | h
    · cases h
    · exact Proc.reaches_ret _ _ h

theorem builds_login {requestId : UInt64} {username : String}
    (h : Builds address record (.loginRequest requestId username) q) :
    validUsername username = true ∧ ∃ userId, q = .userJoinedServer ⟨userId,username,false,false⟩ := by
  obtain ⟨h,hq⟩ := h
  change Proc.Reaches _ (handleLoginRequest address requestId username).run _ at h
  cases hv : validUsername username with
  | false =>
    rw [handleLoginRequest_run_invalid address hv] at h
    exact (not_builds_response rfl hq h).elim
  | true =>
    rw [handleLoginRequest_run_valid address hv,Proc.reaches_op] at h
    rcases h with h | ⟨found,_,h⟩
    · cases h
    · cases found with
      | none => exact ((Proc.reaches_ret _ _) h).elim
      | some user =>
        rcases h.of_bind with h | ⟨participants,h⟩
        · exact (not_reaches_collectParticipants h).elim
        · rw [Proc.reaches_op] at h
          rcases h with h | ⟨data,_,h⟩
          · cases h
            cases hq
          · rcases reaches_writing h with h | h
            · cases h
            · exact ⟨rfl,user.id,reaches_announcing h⟩

theorem builds_changeVoice {inVoice : Bool} {response : Packet} {event : UInt64 → Event}
    {announcement : UInt64 → Packet} (hres : response.isEvent = false) (hq : q.isEvent = true)
    (h : Proc.Reaches (AnswersFor address record)
      (changeVoice address inVoice response event announcement).run (.encode q)) :
    ∃ userId, q = announcement userId := by
  rw [changeVoice_run,Proc.reaches_op] at h
  rcases h with h | ⟨found,_,h⟩
  · cases h
  · cases found with
    | none => exact ((Proc.reaches_ret _ _) h).elim
    | some user =>
      rw [Proc.reaches_op] at h
      rcases h with h | ⟨data,_,h⟩
      · cases h
        simp [hres] at hq
      · rcases reaches_writing h with h | h
        · cases h
        · rw [Proc.reaches_op] at h
          rcases h with h | ⟨_,_,h⟩
          · cases h
          · exact ⟨user.id,reaches_announcing h⟩

theorem builds_chat {requestId : UInt64} {message : String}
    (h : Builds address record (.chatMessageRequest requestId message) q) :
    ∃ user timestamp, record = some user ∧ q = .userSentMessage user.id timestamp message := by
  obtain ⟨h,hq⟩ := h
  change Proc.Reaches _ (handleChatMessageRequest address requestId message).run _ at h
  rw [handleChatMessageRequest_run,Proc.reaches_op] at h
  rcases h with h | ⟨found,hfound,h⟩
  · cases h
  · obtain rfl : found = record := hfound rfl
    cases found with
    | none => exact ((Proc.reaches_ret _ _) h).elim
    | some user =>
      rw [Proc.reaches_op] at h
      rcases h with h | ⟨data,_,h⟩
      · cases h
        cases hq
      · rcases reaches_writing h with h | h
        · cases h
        · rw [Proc.reaches_op] at h
          rcases h with h | ⟨timestamp,_,h⟩
          · cases h
          · exact ⟨user,timestamp,rfl,reaches_announcing h⟩

theorem builds_mute {userId : UInt64} {isMuted : Bool}
    (h : Builds address record (.userMuteState userId isMuted) q) :
    q = .userMuteState userId isMuted := by
  obtain ⟨h,_⟩ := h
  change Proc.Reaches _ (handleUserMuteState address userId isMuted).run _ at h
  rw [handleUserMuteState_run,Proc.reaches_op] at h
  rcases h with h | ⟨found,_,h⟩
  · cases h
  · cases found with
    | none => exact ((Proc.reaches_ret _ _) h).elim
    | some user => exact reaches_announcing h

/-- A chat message of an existing user is announced. -/
theorem chat_builds (address : SocketAddr) (user : User) (requestId : UInt64) (message : String)
    (timestamp : UInt64) : Builds address (some user) (.chatMessageRequest requestId message)
      (.userSentMessage user.id timestamp message) := by
  refine ⟨?_,rfl⟩
  change Proc.Reaches _ (handleChatMessageRequest address requestId message).run _
  obtain ⟨data,hdata⟩ := Packet.plain_encodes (.chatMessageResponse requestId true) rfl rfl
    (by simp [Packet.payloadLen])
  rw [handleChatMessageRequest_run]
  exact .there (some user) (fun _ => rfl) (.there data hdata (.there true trivial
    (.there timestamp trivial .here)))

end Reached

/-- Everything the other packets give rise to fits its frame. -/
theorem builds_encodes {address : SocketAddr} {record : Option User} {packet q : Packet}
    (hchat : record = none ∨ ¬ LongChat packet) (h : Builds address record packet q) :
    ∃ out, q.encode = some out := by
  rw [Packet.encode_isSome_iff]
  cases packet with
  | loginRequest requestId username =>
    obtain ⟨hv,userId,rfl⟩ := builds_login h
    have hlen := validUsername_length hv
    simp only [Packet.strings,Packet.participantCount,Packet.payloadLen,List.mem_singleton,
      forall_eq,ParticipantInfo.payloadLen]
    omega
  | joinVoiceChannelRequest requestId =>
    obtain ⟨userId,rfl⟩ := builds_changeVoice rfl h.2 h.1
    simp [Packet.strings,Packet.participantCount,Packet.payloadLen]
  | leaveVoiceChannelRequest requestId =>
    obtain ⟨userId,rfl⟩ := builds_changeVoice rfl h.2 h.1
    simp [Packet.strings,Packet.participantCount,Packet.payloadLen]
  | chatMessageRequest requestId message =>
    obtain ⟨user,timestamp,rfl,rfl⟩ := builds_chat h
    have hle : message.utf8ByteSize ≤ 65517 := by
      by_contra hlt
      exact hchat.elim (fun hnone => by cases hnone)
        fun hshort => hshort ⟨requestId,message,rfl,by omega⟩
    simp only [Packet.strings,Packet.participantCount,Packet.payloadLen,List.mem_singleton,forall_eq]
    omega
  | pingRequest requestId =>
    have hreach := h.1
    rw [handlePacket,handlePingRequest_run] at hreach
    exact (not_builds_response rfl h.2 hreach).elim
  | userMuteState userId isMuted =>
    obtain rfl := builds_mute h
    simp [Packet.strings,Packet.participantCount,Packet.payloadLen]
  | _ => exact (Proc.reaches_ret _ _ h.1).elim

/-- The handler survives announcing a packet exactly when the packet is not a chat
message of more than 65517 bytes from a user with a record. -/
theorem rebroadcasts_iff (address : SocketAddr) (record : Option User) (packet : Packet) :
    Rebroadcasts address record packet ↔ record = none ∨ ¬ LongChat packet := by
  constructor
  · intro h
    by_contra hnot
    obtain ⟨hsome,hlong⟩ := not_or.mp hnot
    obtain ⟨user,rfl⟩ := Option.ne_none_iff_exists'.mp hsome
    obtain ⟨requestId,message,rfl,hlen⟩ := not_not.mp hlong
    obtain ⟨out,hout,_⟩ := h.1 _ (chat_builds address user requestId message 0)
    have hdom := ((Packet.encode_isSome_iff _).mp ⟨out,hout⟩).2.2
    simp only [Packet.payloadLen] at hdom
    omega
  · intro hchat
    constructor
    · intro q h
      obtain ⟨out,hout⟩ := builds_encodes hchat h
      exact ⟨out,hout,Packet.decode_self hout⟩
    · rintro requestId message user rfl rfl q
      constructor
      · intro h
        obtain ⟨user',timestamp,huser,rfl⟩ := builds_chat h
        cases huser
        exact ⟨timestamp,rfl⟩
      · rintro ⟨timestamp,rfl⟩
        exact chat_builds address user requestId message timestamp

/-- Eight lengths are accepted in a request and panic in the announcement. -/
theorem accepted_chat_panics (address : SocketAddr) (user : User) (requestId : UInt64)
    {message : String} (hlong : 65517 < message.utf8ByteSize) (hfits : message.utf8ByteSize ≤ 65525) :
    (∃ b, (Packet.chatMessageRequest requestId message).encode = some b ∧
      Packet.decode b = .ok (.chatMessageRequest requestId message,b.length)) ∧
    ∃ q, Builds address (some user) (.chatMessageRequest requestId message) q ∧ q.encode = none := by
  constructor
  · obtain ⟨b,hb⟩ := (Packet.encode_isSome_iff (.chatMessageRequest requestId message)).mpr (by
      simp only [Packet.strings,Packet.participantCount,Packet.payloadLen,List.mem_singleton,forall_eq]
      omega)
    exact ⟨b,hb,Packet.decode_self hb⟩
  · refine ⟨_,chat_builds address user requestId message 0,?_⟩
    by_contra hsome
    obtain ⟨out,hout⟩ := Option.ne_none_iff_exists'.mp hsome
    have hdom := ((Packet.encode_isSome_iff _).mp ⟨out,hout⟩).2.2
    simp only [Packet.payloadLen] at hdom
    omega

/-- A message of `n` letters. -/
def letters (n : ℕ) : String := n.repeat (fun s => s.push 'a') ""

theorem utf8ByteSize_letters (n : ℕ) : (letters n).utf8ByteSize = n := by
  induction n with
  | zero => rfl
  | succ n ih =>
    change ((letters n).push 'a').utf8ByteSize = n + 1
    rw [String.utf8ByteSize_push,ih]
    rfl

/-- A message of 65518 letters is accepted, and its announcement cannot be encoded. -/
theorem long_chat_panics : (∃ b, (Packet.chatMessageRequest 7 (letters 65518)).encode = some b ∧
      Packet.decode b = .ok (.chatMessageRequest 7 (letters 65518),b.length)) ∧
    ∃ q, Builds (.v4 1 1) (some ⟨1,some "ann",false,false,11⟩)
      (.chatMessageRequest 7 (letters 65518)) q ∧ q.encode = none :=
  accepted_chat_panics _ _ _ (by rw [utf8ByteSize_letters]; omega) (by rw [utf8ByteSize_letters]; omega)

end VoiceApp.Management
