import VoiceApp.Base.Segmentation
import VoiceApp.Protocol.Verdict

/-! # The codec round trip and its exact domain

Encoding fails on a 16-bit overflow of a string, of the participant count or of the
whole payload, and on nothing else. What it writes decodes to the same packet in
front of any suffix, and every strict initial part of it makes the loops wait.
-/
namespace VoiceApp.Protocol
open WireFormat Framing

def ParticipantInfo.payloadLen (p : ParticipantInfo) : ℕ := 8 + (2 + p.username.utf8ByteSize) + 1 + 1

namespace Packet

def strings : Packet → List String
  | loginRequest _ username => [username]
  | chatMessageRequest _ message => [message]
  | loginResponse _ _ _ participants => participants.map (·.username)
  | userJoinedServer participant => [participant.username]
  | userSentMessage _ _ message => [message]
  | _ => []

def participantCount : Packet → ℕ
  | loginResponse _ _ _ participants => participants.length
  | _ => 0

/-- The number of payload bytes, field by field. -/
def payloadLen : Packet → ℕ
  | loginRequest _ username => 8 + (2 + username.utf8ByteSize)
  | voiceAuthRequest .. => 8 + 8
  | joinVoiceChannelRequest _ => 8
  | leaveVoiceChannelRequest _ => 8
  | chatMessageRequest _ message => 8 + (2 + message.utf8ByteSize)
  | pingRequest _ => 8
  | loginResponse _ _ _ participants =>
    8 + 8 + 8 + 2 + (participants.map ParticipantInfo.payloadLen).sum
  | voiceAuthResponse .. => 8 + 1
  | joinVoiceChannelResponse .. => 8 + 1
  | leaveVoiceChannelResponse .. => 8 + 1
  | chatMessageResponse .. => 8 + 1
  | pingResponse _ => 8
  | userJoinedServer participant => participant.payloadLen
  | userJoinedVoice _ => 8
  | userLeftVoice _ => 8
  | userLeftServer _ => 8
  | userSentMessage _ _ message => 8 + 8 + (2 + message.utf8ByteSize)
  | userMuteState .. => 8 + 1
  | voiceData _ _ _ data => 8 + 4 + 4 + data.length

theorem fits_val (p : Packet) : (layout p.packetId).Fits p.val ↔
    (∀ s ∈ p.strings, s.utf8ByteSize ≤ 65535) ∧ p.participantCount ≤ 65535 := by
  cases p with
  | loginResponse requestId id voiceToken participants =>
    simp only [layout,packetId,val,Format.Fits,Format.u16Max,strings,participantCount,
      ParticipantInfo.val,List.length_map,List.forall_mem_map,and_true,true_and]
    exact and_comm
  | _ => simp [layout,packetId,val,Format.Fits,Format.u16Max,strings,participantCount,
      ParticipantInfo.val]

theorem size_participant (p : ParticipantInfo) : participantFormat.size p.val = p.payloadLen := by
  simp only [Format.size,ParticipantInfo.val,ParticipantInfo.payloadLen,Word.width]
  omega

theorem size_val (p : Packet) : (layout p.packetId).size p.val = p.payloadLen := by
  cases p with
  | loginResponse requestId id voiceToken participants =>
    have h : (participants.map ParticipantInfo.val).map participantFormat.size =
        participants.map ParticipantInfo.payloadLen := by
      rw [List.map_map]
      exact List.map_congr_left fun p _ => size_participant p
    change 8 + (8 + (8 + (2 + ((participants.map ParticipantInfo.val).map participantFormat.size).sum))) = _
    rw [h,payloadLen]
    omega
  | userJoinedServer participant => exact size_participant participant
  | _ =>
    simp only [layout,packetId,val,Format.size,Word.width,payloadLen]
    try omega

/-- The writer's output is one frame around the written payload. -/
theorem encode_eq_some {p : Packet} {b : Bytes} (h : p.encode = some b) :
    ∃ w, (layout p.packetId).write p.val = some w ∧ w.length ≤ 65535 ∧ b = frame p.packetId w := by
  rw [encode_eq] at h
  obtain ⟨w,hw,h⟩ := Option.bind_eq_some_iff.mp h
  split at h
  · cases h
    exact ⟨w,hw,‹_›,rfl⟩
  · cases h

theorem encode_isSome_iff (p : Packet) : (∃ b, p.encode = some b) ↔
    (∀ s ∈ p.strings, s.utf8ByteSize ≤ 65535) ∧ p.participantCount ≤ 65535 ∧ p.payloadLen ≤ 65535 := by
  rw [← and_assoc,← fits_val,← size_val,← Format.write_isSome_iff]
  constructor
  · rintro ⟨b,hb⟩
    obtain ⟨w,hw,hlen,_⟩ := encode_eq_some hb
    exact ⟨⟨w,hw⟩,Format.write_length hw ▸ hlen⟩
  · rintro ⟨⟨w,hw⟩,hlen⟩
    have hle : w.length ≤ 65535 := Format.write_length hw ▸ hlen
    exact ⟨frame p.packetId w,by rw [encode_eq,hw,Option.bind_some,if_pos hle]⟩

/-- A packet of numbers and flags, or of data that is not too long. -/
theorem plain_encodes (p : Packet) (hstrings : p.strings = []) (hcount : p.participantCount = 0)
    (hlen : p.payloadLen ≤ 65535) : ∃ b, p.encode = some b := by
  rw [encode_isSome_iff,hstrings,hcount]
  exact ⟨by simp,Nat.zero_le _,hlen⟩

theorem encode_length {p : Packet} {b : Bytes} (h : p.encode = some b) :
    b.length = 3 + p.payloadLen := by
  obtain ⟨w,hw,_,rfl⟩ := encode_eq_some h
  rw [frame_length,Format.write_length hw,size_val]

theorem decode_encode {p : Packet} {b : Bytes} (h : p.encode = some b) (s : Bytes) :
    decode (b ++ s) = .ok (p,b.length) := by
  obtain ⟨w,hw,hlen,rfl⟩ := encode_eq_some h
  rw [decode_frame_done s hlen (Format.parse_write (layout_tail _) hw),ofVal_val,frame_length]

theorem decode_self {p : Packet} {b : Bytes} (h : p.encode = some b) :
    decode b = .ok (p,b.length) := by
  simpa using decode_encode h []

/-- Codec round trip with its exact domain. -/
theorem encode_iff_fits_and_decodes (p : Packet) :
    ((∃ b, p.encode = some b) ↔ (∀ s ∈ p.strings, s.utf8ByteSize ≤ 65535) ∧
      p.participantCount ≤ 65535 ∧ p.payloadLen ≤ 65535) ∧
    ∀ b, p.encode = some b → ∀ s, decode (b ++ s) = .ok (p,b.length) :=
  ⟨encode_isSome_iff p,fun _ h => decode_encode h⟩

/-! ## Cut frames -/

/-- A strict initial part of a frame is unfinished. -/
theorem unfinished_of_cut {id : PacketId} {w b : Bytes} (hw : w.length ≤ 65535)
    (hp : b <+: frame id w) (hlt : b.length < (frame id w).length) :
    Unfinished b ∧ ∀ value ∈ b.head?, ∃ id, value = PacketId.asU8 id := by
  obtain ⟨t,ht⟩ := hp
  constructor
  · by_cases h3 : b.length < 3
    · exact .inl h3
    · right
      have hd : declaredLen b = declaredLen (frame id w ++ []) := by
        have h1 : 1 ≤ b.length := by omega
        have h2 : 2 ≤ (b.drop 1).length := by
          rw [List.length_drop]
          omega
        rw [List.append_nil,← ht,declaredLen,declaredLen,List.drop_append_of_le_length h1,
          List.take_append_of_le_length h2]
      rw [hd,declaredLen_frame id w [] hw,← frame_length id w]
      exact hlt
  · cases b with
    | nil => simp
    | cons value rest =>
      have hv : value = id.asU8 := (List.cons.inj ht).1
      intro value' h'
      cases h'
      exact ⟨id,hv⟩

/-- An accepted packet is the value of a complete frame at the front of the buffer. -/
theorem decode_ok {b : Bytes} {p : Packet} {n : ℕ} (h : decode b = .ok (p,n)) :
    ∃ id payload s v rest, payload.length ≤ 65535 ∧ b = frame id payload ++ s ∧
      (layout id).parse payload = .done v rest ∧ p = ofVal id v ∧ n = 3 + payload.length := by
  cases shape b with
  | unknown value rest hv => cases (decode_unknown hv).symm.trans h
  | unfinished b hu hid =>
    obtain ⟨e,he,_⟩ := decode_unfinished hu hid
    cases he.symm.trans h
  | complete id payload s hlen =>
    cases hp : (layout id).parse payload with
    | done v rest =>
      cases (decode_frame_done s hlen hp).symm.trans h
      exact ⟨id,payload,s,v,rest,hlen,rfl,hp,rfl,rfl⟩
    | short =>
      obtain ⟨expected,got,he⟩ := decode_frame_short s hlen hp
      cases he.symm.trans h
    | invalid => cases (decode_frame_invalid s hlen hp).symm.trans h

/-- An accepted packet takes at least its header and at most the buffer. -/
theorem decode_ok_bounds {b : Bytes} {p : Packet} {n : ℕ} (h : decode b = .ok (p,n)) :
    3 ≤ n ∧ n ≤ b.length := by
  obtain ⟨id,payload,s,v,rest,_,rfl,_,_,rfl⟩ := decode_ok h
  rw [List.length_append,frame_length]
  omega

theorem write_ofVal (id : PacketId) (v : (layout id).Val) :
    (layout (ofVal id v).packetId).write (ofVal id v).val = (layout id).write v := by
  cases id <;> try rfl
  case loginResponse =>
    have h : (v.2.2.2.map ParticipantInfo.ofVal).map ParticipantInfo.val = v.2.2.2 := by
      rw [List.map_map]
      exact List.map_id v.2.2.2
    simp only [ofVal,packetId,val,layout,h]

/-- An accepted packet fits the 16-bit limits and can be sent on, in no more bytes
than it was received in. -/
theorem encode_of_decode {b : Bytes} {p : Packet} {n : ℕ} (h : decode b = .ok (p,n)) :
    ∃ b', p.encode = some b' ∧ b'.length ≤ n := by
  obtain ⟨id,payload,s,v,rest,hlen,rfl,hp,rfl,rfl⟩ := decode_ok h
  obtain ⟨hfits,hsize⟩ := Format.parse_done hp
  obtain ⟨w,hw⟩ := Format.write_isSome_iff.mpr hfits
  have hwlen := Format.write_length hw
  have hle : w.length ≤ 65535 := by omega
  refine ⟨frame (ofVal id v).packetId w,?_,?_⟩
  · rw [encode_eq,write_ofVal,hw,Option.bind_some,if_pos hle]
  · rw [frame_length]
    omega

/-- `Packet::decode` as the decoder of a receive loop. -/
def framer : Framer UInt8 Packet ProtocolError where
  decode := decode
  waits := ProtocolError.waits
  decode_pos h := by
    have := (decode_ok_bounds h).1
    omega
  decode_le h := (decode_ok_bounds h).2

theorem framer_encodes : framer.Encodes encode where
  decode_append h s := decode_encode h s
  decode_cut h hp hlt := by
    obtain ⟨w,_,hlen,rfl⟩ := encode_eq_some h
    obtain ⟨hu,hid⟩ := unfinished_of_cut hlen hp hlt
    exact decode_unfinished hu hid
  decode_nil := ⟨_,rfl,rfl⟩

/-- The verdict on a complete frame and on an unknown type byte stands. -/
theorem framer_stable : framer.Stable where
  nil_waits := ⟨_,rfl,rfl⟩
  accepted_append h s := by
    obtain ⟨id,payload,s₀,v,rest,hlen,rfl,hp,rfl,rfl⟩ := decode_ok h
    rw [List.append_assoc]
    exact decode_frame_done (s₀ ++ s) hlen hp
  rejected_append {b e} h hw s := by
    have hdecode : decode b = .error e := h
    cases shape b with
    | unknown value rest hv => exact ⟨_,decode_unknown hv,rfl⟩
    | unfinished b hu hid =>
      obtain ⟨e',he,hwaits⟩ := decode_unfinished hu hid
      cases he.symm.trans hdecode
      exact (Bool.eq_false_iff.mp hw hwaits).elim
    | complete id payload s₀ hlen =>
      rw [List.append_assoc]
      cases hp : (layout id).parse payload with
      | done v rest => cases (decode_frame_done s₀ hlen hp).symm.trans hdecode
      | short =>
        obtain ⟨expected,got,he⟩ := decode_frame_short s₀ hlen hp
        cases he.symm.trans hdecode
        cases hw
      | invalid => exact ⟨_,decode_frame_invalid (s₀ ++ s) hlen hp,rfl⟩

end Packet
end VoiceApp.Protocol
