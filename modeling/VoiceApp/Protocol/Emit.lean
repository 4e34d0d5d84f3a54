import VoiceApp.Protocol.Layout

/-! # The writer refines its layout

Every arm of the writer match appends exactly what the layout writes and panics
exactly when the layout cannot be written. The back-patched length field turns the
whole run into one frame.
-/
namespace VoiceApp.Protocol
open BigEndian WireFormat Writer

/-- Running `m` appends `o`, or panics when there is nothing to append. -/
def Emits (m : Write Unit) (o : Option Bytes) : Prop :=
  ∀ buf, m ⟨buf⟩ = o.map fun w => ((),⟨buf ++ w⟩)

theorem emits_writeBytes (b : Bytes) : Emits (writeBytes b) (some b) := fun _ => rfl

theorem emits_nil : Emits (pure ()) (some []) := fun buf => by
  rw [run_pure,Option.map_some,List.append_nil]

theorem Emits.seq {m m' : Write Unit} {o o' : Option Bytes} (h : Emits m o) (h' : Emits m' o') :
    Emits (do m; m') (o.bind fun x => o'.map fun y => x ++ y) := by
  intro buf
  change (m ⟨buf⟩).bind (fun s => m' s.2) = _
  rw [h buf]
  cases o with
  | none => rfl
  | some x =>
    simp only [Option.map_some,Option.bind_some,h' (buf ++ x),Option.map_map,Function.comp_def,
      List.append_assoc]

theorem emits_writeU64 (v : UInt64) : Emits (writeU64 v) (u64Format.write v) := emits_writeBytes _
theorem emits_writeU32 (v : UInt32) : Emits (writeU32 v) ((Format.word .u32).write v) :=
  emits_writeBytes _
theorem emits_writeBool (v : Bool) : Emits (writeBool v) (Format.bool.write v) := emits_writeBytes _

/-- A 16-bit count written through `expect`, followed by `m`. -/
theorem emits_expectU16 {m : Write Unit} {o : Option Bytes} (n : ℕ) (h : Emits m o) :
    Emits (do writeU16 (← expectU16 n); m)
      (if n ≤ 65535 then o.map fun w => toBytes 2 n ++ w else none) := by
  intro buf
  change (expectU16 n ⟨buf⟩).bind (fun s => (writeU16 s.1 s.2).bind fun s => m s.2) = _
  unfold expectU16
  split
  · have hn : (UInt16.ofNat n).toNat = n := by
      rw [UInt16.toNat_ofNat']
      omega
    simp only [Option.bind_some,writeU16,writeBytes,hn]
    rw [h (buf ++ toBytes 2 n)]
    simp only [Option.map_map,Function.comp_def,List.append_assoc]
  · rfl

theorem emits_writeString (s : String) : Emits (writeString s) (Format.str.write s) := by
  intro buf
  rw [writeString,emits_expectU16 s.utf8ByteSize (emits_writeBytes (utf8 s)) buf]
  rfl

theorem emits_participant (p : ParticipantInfo) :
    Emits p.write (participantFormat.write p.val) :=
  (emits_writeU64 _).seq ((emits_writeString _).seq ((emits_writeBool _).seq (emits_writeBool _)))

theorem emits_writeParticipants (ps : List ParticipantInfo) :
    Emits (writeParticipants ps)
      (((ps.map ParticipantInfo.val).mapM participantFormat.write).map List.flatten) := by
  induction ps with
  | nil => exact emits_nil
  | cons p ps ih =>
    intro buf
    have h := (emits_participant p).seq ih buf
    rw [writeParticipants,h,List.map_cons,List.mapM_cons]
    cases participantFormat.write p.val with
    | none => rfl
    | some w =>
      cases (ps.map ParticipantInfo.val).mapM participantFormat.write with
      | none => rfl
      | some ws => rfl

theorem emits_participantList (ps : List ParticipantInfo) :
    Emits (do writeU16 (← expectU16 ps.length); writeParticipants ps)
      ((Format.list participantFormat).write (ps.map ParticipantInfo.val)) := by
  intro buf
  rw [emits_expectU16 ps.length (emits_writeParticipants ps) buf]
  simp only [Format.write,Format.u16Max,List.length_map,Option.map_map,Function.comp_def]

theorem emits_writePayload (p : Packet) : Emits p.writePayload ((layout p.packetId).write p.val) := by
  cases p with
  | loginRequest => exact (emits_writeU64 _).seq (emits_writeString _)
  | voiceAuthRequest => exact (emits_writeU64 _).seq (emits_writeU64 _)
  | chatMessageRequest => exact (emits_writeU64 _).seq (emits_writeString _)
  | loginResponse => exact (emits_writeU64 _).seq ((emits_writeU64 _).seq
      ((emits_writeU64 _).seq (emits_participantList _)))
  | userJoinedServer => exact emits_participant _
  | userSentMessage => exact (emits_writeU64 _).seq ((emits_writeU64 _).seq (emits_writeString _))
  | voiceData => exact (emits_writeU64 _).seq ((emits_writeU32 _).seq
      ((emits_writeU32 _).seq (emits_writeBytes _)))
  | voiceAuthResponse => exact (emits_writeU64 _).seq (emits_writeBool _)
  | joinVoiceChannelResponse => exact (emits_writeU64 _).seq (emits_writeBool _)
  | leaveVoiceChannelResponse => exact (emits_writeU64 _).seq (emits_writeBool _)
  | chatMessageResponse => exact (emits_writeU64 _).seq (emits_writeBool _)
  | userMuteState => exact (emits_writeU64 _).seq (emits_writeBool _)
  | joinVoiceChannelRequest => exact emits_writeU64 _
  | leaveVoiceChannelRequest => exact emits_writeU64 _
  | pingRequest => exact emits_writeU64 _
  | pingResponse => exact emits_writeU64 _
  | userJoinedVoice => exact emits_writeU64 _
  | userLeftVoice => exact emits_writeU64 _
  | userLeftServer => exact emits_writeU64 _

/-- A whole frame around a payload. -/
def frame (id : PacketId) (payload : Bytes) : Bytes :=
  id.asU8 :: (toBytes 2 payload.length ++ payload)

@[simp] theorem frame_length (id : PacketId) (payload : Bytes) :
    (frame id payload).length = 3 + payload.length := by
  simp only [frame,List.length_cons,List.length_append,toBytes_length]
  omega

/-- The back-patched length field makes `encode` a frame around the written format. -/
theorem encode_eq (p : Packet) : p.encode =
    ((layout p.packetId).write p.val).bind fun w =>
      if w.length ≤ 65535 then some (frame p.packetId w) else none := by
  have hrun (buf : Bytes) := emits_writePayload p buf
  cases hw : (layout p.packetId).write p.val with
  | none =>
    simp only [hw,Option.map_none] at hrun
    simp [Packet.encode,StateT.run,bind,StateT.bind,writeU8,reserveU16,position,writeBytes,Writer.new,
      run_pure,hrun]
  | some w =>
    simp only [hw,Option.map_some] at hrun
    simp only [Packet.encode,StateT.run,bind,StateT.bind,writeU8,reserveU16,position,writeBytes,Writer.new,
      run_pure,hrun,Option.bind_some,expectU16]
    have hlen : (([] ++ [p.id] ++ [0,0] ++ w).length - ([] ++ [p.id] ++ [0,0] : Bytes).length) =
        w.length := by simp
    rw [hlen]
    by_cases hle : w.length ≤ 65535
    · have hn : (UInt16.ofNat w.length).toNat = w.length := by
        rw [UInt16.toNat_ofNat']
        omega
      simp [hle,writeU16At,hn,frame,Packet.id]
    · simp [hle]

end VoiceApp.Protocol
