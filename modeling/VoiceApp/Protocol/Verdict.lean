import VoiceApp.Protocol.Cursor

/-! # Buffers and the verdicts of the decoder

A buffer starts with an unknown type byte, is an unfinished frame, or starts with a
complete frame. The decoder's verdict on each is read off the payload layout.
-/
namespace VoiceApp.Protocol
open BigEndian WireFormat Reader

/-- The two errors on which the receive loops keep the buffer and wait. -/
def ProtocolError.waits : ProtocolError → Bool
  | packetTooShort .. => true
  | incompletePayload .. => true
  | unknownPacketId .. => false
  | invalidUtf8 => false

/-- The payload length declared in bytes 1..3. -/
def declaredLen (b : Bytes) : ℕ := ofBytes ((b.drop 1).take 2)

/-- A strict initial part of one frame: the header or the declared payload is cut. -/
def Unfinished (b : Bytes) : Prop := b.length < 3 ∨ b.length < 3 + declaredLen b

instance (b : Bytes) : Decidable (Unfinished b) := inferInstanceAs (Decidable (_ ∨ _))

/-- Every buffer starts with an unknown type byte, is cut short, or starts with a
complete frame of a known type. -/
inductive Shape : Bytes → Prop
  | unknown (value : UInt8) (rest : Bytes)
      (h : PacketId.tryFrom value = .error (.unknownPacketId value)) : Shape (value :: rest)
  | unfinished (b : Bytes) (h : Unfinished b) (hid : ∀ value ∈ b.head?, ∃ id, value = PacketId.asU8 id) :
      Shape b
  | complete (id : PacketId) (payload s : Bytes) (h : payload.length ≤ 65535) :
      Shape (frame id payload ++ s)

theorem shape (b : Bytes) : Shape b := by
  cases b with
  | nil => exact .unfinished _ (.inl (by simp)) (by simp)
  | cons value rest =>
    cases hid : PacketId.tryFrom value with
    | error e =>
      obtain rfl := PacketId.tryFrom_error hid
      exact .unknown value rest hid
    | ok id =>
      obtain rfl := PacketId.tryFrom_ok hid
      by_cases hu : Unfinished (id.asU8 :: rest)
      · exact .unfinished _ hu (by simp)
      · obtain ⟨h3,hn⟩ := not_or.mp hu
        simp only [List.length_cons,not_lt,declaredLen,List.drop_one,List.tail_cons] at h3 hn
        have h2 : (rest.take 2).length = 2 := by
          rw [List.length_take]
          omega
        have hlt := ofBytes_lt (rest.take 2)
        have hlen : ((rest.drop 2).take (ofBytes (rest.take 2))).length = ofBytes (rest.take 2) := by
          rw [List.length_take,List.length_drop]
          omega
        have hhead := toBytes_ofBytes (rest.take 2)
        rw [h2] at hhead hlt
        have he : id.asU8 :: rest = frame id ((rest.drop 2).take (ofBytes (rest.take 2))) ++
            (rest.drop 2).drop (ofBytes (rest.take 2)) := by
          simp only [frame,hlen,hhead,List.cons_append,List.append_assoc,List.take_append_drop]
        rw [he]
        exact .complete id _ _ (by omega)

theorem declaredLen_frame (id : PacketId) (payload s : Bytes) (h : payload.length ≤ 65535) :
    declaredLen (frame id payload ++ s) = payload.length := by
  have ht : (toBytes 2 payload.length ++ (payload ++ s)).take 2 = toBytes 2 payload.length := by
    rw [List.take_append_of_le_length (by simp)]
    exact List.take_of_length_le (by simp)
  simp only [declaredLen,frame,List.cons_append,List.drop_one,List.tail_cons,List.append_assoc,ht]
  exact Format.ofBytes_toBytes_u16 h

theorem not_unfinished_frame (id : PacketId) (payload s : Bytes) (h : payload.length ≤ 65535) :
    ¬Unfinished (frame id payload ++ s) := by
  unfold Unfinished
  rw [declaredLen_frame id payload s h,List.length_append,frame_length]
  omega

namespace Packet

theorem decode_unknown {value : UInt8} {rest : Bytes} {e : ProtocolError}
    (h : PacketId.tryFrom value = .error e) : decode (value :: rest) = .error e := by
  simp [decode,StateT.run,readU8,new,bind,Except.bind,h]

/-- The header reads, with both bytes of the length present. -/
theorem decode_header {id : PacketId} {rest : Bytes} (h : 2 ≤ rest.length) :
    decode (id.asU8 :: rest) =
      if (rest.drop 2).length < ofBytes (rest.take 2) then
        .error (.incompletePayload (ofBytes (rest.take 2)) (rest.drop 2).length)
      else ((readPayload id) ⟨(rest.drop 2).take (ofBytes (rest.take 2)),0⟩).bind fun p =>
        .ok (p.1,3 + ofBytes (rest.take 2)) := by
  have hbyte : readU8.run (new (id.asU8 :: rest)) = .ok (id.asU8,⟨id.asU8 :: rest,1⟩) := rfl
  have hle : 1 + 2 ≤ (id.asU8 :: rest).length := by
    rw [List.length_cons]
    omega
  have hword : readU16.run ⟨id.asU8 :: rest,1⟩ =
      .ok (UInt16.ofNat (ofBytes (rest.take 2)),⟨id.asU8 :: rest,3⟩) := by
    change (readSlice 2 ⟨id.asU8 :: rest,1⟩).bind _ = _
    rw [readSlice,if_pos hle]
    rfl
  have hnum := toNat_ofNat_ofBytes_two (b := rest.take 2) (by rw [List.length_take]; omega)
  simp only [decode,hbyte,bind,Except.bind,PacketId.tryFrom_asU8,hword,hnum,remaining,
    List.drop_succ_cons]
  split <;> rfl

/-- A known type byte with the rest of the frame missing makes the loops wait. -/
theorem decode_unfinished {b : Bytes} (h : Unfinished b)
    (hid : ∀ value ∈ b.head?, ∃ id, value = PacketId.asU8 id) :
    ∃ e, decode b = .error e ∧ e.waits = true := by
  cases b with
  | nil => exact ⟨_,rfl,rfl⟩
  | cons value rest =>
    obtain ⟨id,rfl⟩ := hid value (by simp)
    by_cases h2 : rest.length < 2
    · refine ⟨.packetTooShort 3 (rest.length + 1),?_,rfl⟩
      have hle : ¬1 + 2 ≤ rest.length + 1 := by omega
      simp [decode,StateT.run,readU8,new,bind,Except.bind,readU16,StateT.bind,readSlice,hle]
    · have hlt : (rest.drop 2).length < ofBytes (rest.take 2) := by
        simp only [Unfinished,List.length_cons,declaredLen,List.drop_one,List.tail_cons] at h
        rw [List.length_drop]
        omega
      rw [decode_header (by omega),if_pos hlt]
      exact ⟨_,rfl,rfl⟩

/-- The verdict on a complete frame is the layout's verdict on its payload. -/
theorem decode_frame (id : PacketId) {payload : Bytes} (s : Bytes) (h : payload.length ≤ 65535) :
    match (layout id).parse payload with
    | .done v _ => decode (frame id payload ++ s) = .ok (ofVal id v,3 + payload.length)
    | .short => ∃ expected got,
        decode (frame id payload ++ s) = .error (.packetTooShort expected got)
    | .invalid => decode (frame id payload ++ s) = .error .invalidUtf8 := by
  have he : decode (frame id payload ++ s) =
      ((readPayload id) ⟨payload,0⟩).bind fun p => .ok (p.1,3 + payload.length) := by
    have htake : (toBytes 2 payload.length ++ payload ++ s).take 2 = toBytes 2 payload.length := by
      rw [List.append_assoc]
      exact List.take_left' (by simp)
    have hdrop : (toBytes 2 payload.length ++ payload ++ s).drop 2 = payload ++ s := by
      rw [List.append_assoc]
      exact List.drop_left' (by simp)
    have hfull : ¬(payload ++ s).length < payload.length := by
      rw [List.length_append]
      omega
    rw [frame,List.cons_append,decode_header (by simp),htake,hdrop,Format.ofBytes_toBytes_u16 h,
      if_neg hfull,List.take_left]
  have hr := readPayload_agrees id payload 0 (Nat.zero_le _)
  rw [List.drop_zero] at hr
  rw [he]
  cases hp : (layout id).parse payload with
  | done v rest =>
    obtain ⟨after,_,hok⟩ := (hp ▸ hr : Agrees _ _ (.done v rest) _)
    rw [hok]
    rfl
  | short =>
    obtain ⟨expected,got,herr⟩ := (hp ▸ hr : Agrees _ _ .short _)
    rw [herr]
    exact ⟨expected,got,rfl⟩
  | invalid =>
    have herr := (hp ▸ hr : Agrees _ _ .invalid _)
    rw [show readPayload id ⟨payload,0⟩ = _ from herr]
    rfl

theorem decode_frame_done {id : PacketId} {payload : Bytes} (s : Bytes) (h : payload.length ≤ 65535)
    {v : (layout id).Val} {rest : Bytes} (hp : (layout id).parse payload = .done v rest) :
    decode (frame id payload ++ s) = .ok (ofVal id v,3 + payload.length) := by
  simpa only [hp] using decode_frame id s h

theorem decode_frame_short {id : PacketId} {payload : Bytes} (s : Bytes) (h : payload.length ≤ 65535)
    (hp : (layout id).parse payload = .short) :
    ∃ expected got, decode (frame id payload ++ s) = .error (.packetTooShort expected got) := by
  simpa only [hp] using decode_frame id s h

theorem decode_frame_invalid {id : PacketId} {payload : Bytes} (s : Bytes)
    (h : payload.length ≤ 65535) (hp : (layout id).parse payload = .invalid) :
    decode (frame id payload ++ s) = .error .invalidUtf8 := by
  simpa only [hp] using decode_frame id s h

end Packet
end VoiceApp.Protocol
