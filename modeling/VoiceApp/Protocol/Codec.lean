import VoiceApp.Protocol.Packet

/-! # Writer, reader and the packet codec

`Write` is the growing buffer of `Writer`; `none` is a failed `expect`. `Read` is the
cursor of `Reader` over a borrowed slice. Both packet matches are kept arm by arm.
-/
namespace VoiceApp.Protocol
open BigEndian WireFormat

/-! ## Writer -/

structure Writer where
  buf : Bytes

abbrev Write := StateT Writer Option

namespace Writer

def new : Writer := ⟨[]⟩

theorem run_pure {A : Type} (a : A) (w : Writer) : (pure a : Write A) w = some (a,w) := rfl

def writeBytes (bytes : Bytes) : Write Unit := fun w => some ((),⟨w.buf ++ bytes⟩)
def writeU8 (value : UInt8) : Write Unit := writeBytes [value]
def writeU16 (value : UInt16) : Write Unit := writeBytes (toBytes 2 value.toNat)
def writeU32 (value : UInt32) : Write Unit := writeBytes (toBytes 4 value.toNat)
def writeU64 (value : UInt64) : Write Unit := writeBytes (toBytes 8 value.toNat)
def writeBool (value : Bool) : Write Unit := writeU8 (if value then 1 else 0)

/-- `usize::try_into::<u16>().expect(..)`. -/
def expectU16 (n : ℕ) : Write UInt16 := fun w =>
  if n ≤ 65535 then some (UInt16.ofNat n,w) else none

/-- A length-prefixed string; panics above 65535 bytes. -/
def writeString (s : String) : Write Unit := do
  writeU16 (← expectU16 s.utf8ByteSize)
  writeBytes (utf8 s)

def position : Write ℕ := fun w => some (w.buf.length,w)

def reserveU16 : Write ℕ := do
  let pos ← position
  writeBytes [0,0]
  return pos

/-- Overwrite two bytes in place; slicing past the end panics. -/
def writeU16At (pos : ℕ) (value : UInt16) : Write Unit := fun w =>
  if pos + 2 ≤ w.buf.length then
    some ((),⟨w.buf.take pos ++ toBytes 2 value.toNat ++ w.buf.drop (pos + 2)⟩)
  else none

end Writer

/-! ## Reader -/

structure Reader where
  data : Bytes
  pos : ℕ

abbrev Read := StateT Reader (Except ProtocolError)

namespace Reader

def new (data : Bytes) : Reader := ⟨data,0⟩

theorem run_pure {A : Type} (a : A) (r : Reader) : (pure a : Read A) r = .ok (a,r) := rfl

def readU8 : Read UInt8 := fun r =>
  match r.data[r.pos]? with
  | some value => .ok (value,{ r with pos := r.pos + 1 })
  | none => .error (.packetTooShort (r.pos + 1) r.data.length)

/-- `data.get(pos..pos + n)`, advancing past the slice. -/
def readSlice (n : ℕ) : Read Bytes := fun r =>
  if r.pos + n ≤ r.data.length then
    .ok ((r.data.drop r.pos).take n,{ r with pos := r.pos + n })
  else .error (.packetTooShort (r.pos + n) r.data.length)

def readU16 : Read UInt16 := return UInt16.ofNat (ofBytes (← readSlice 2))
def readU32 : Read UInt32 := return UInt32.ofNat (ofBytes (← readSlice 4))
def readU64 : Read UInt64 := return UInt64.ofNat (ofBytes (← readSlice 8))
def readBool : Read Bool := return (← readU8) != 0

def readString : Read String := do
  let len ← readU16
  let bytes ← readSlice len.toNat
  match ofUtf8 bytes with
  | some s => return s
  | none => throw .invalidUtf8

def remaining (r : Reader) : Bytes := r.data.drop r.pos

/-- `r.remaining().to_vec()`, the cursor staying where it is. -/
def readRemaining : Read Bytes := fun r => .ok (r.remaining,r)

end Reader

/-! ## Packets -/

open Writer Reader

def ParticipantInfo.write (p : ParticipantInfo) : Write Unit := do
  writeU64 p.userId
  writeString p.username
  writeBool p.inVoice
  writeBool p.isMuted

def ParticipantInfo.read : Read ParticipantInfo := do
  let userId ← readU64
  let username ← readString
  let inVoice ← readBool
  let isMuted ← readBool
  return { userId, username, inVoice, isMuted }

/-- `for p in participants { p.write(&mut w); }` -/
def writeParticipants : List ParticipantInfo → Write Unit
  | [] => return ()
  | p :: ps => do
    p.write
    writeParticipants ps

/-- `for _ in 0..count { participants.push(ParticipantInfo::read(&mut r)?); }` -/
def readParticipants : ℕ → Read (List ParticipantInfo)
  | 0 => return []
  | count + 1 => do
    let p ← ParticipantInfo.read
    let ps ← readParticipants count
    return p :: ps

namespace Packet

def writePayload : Packet → Write Unit
  | loginRequest requestId username => do
    writeU64 requestId
    writeString username
  | voiceAuthRequest requestId voiceToken => do
    writeU64 requestId
    writeU64 voiceToken
  | joinVoiceChannelRequest requestId => writeU64 requestId
  | leaveVoiceChannelRequest requestId => writeU64 requestId
  | chatMessageRequest requestId message => do
    writeU64 requestId
    writeString message
  | pingRequest requestId => writeU64 requestId
  | loginResponse requestId id voiceToken participants => do
    writeU64 requestId
    writeU64 id
    writeU64 voiceToken
    writeU16 (← expectU16 participants.length)
    writeParticipants participants
  | voiceAuthResponse requestId success => do
    writeU64 requestId
    writeBool success
  | joinVoiceChannelResponse requestId success => do
    writeU64 requestId
    writeBool success
  | leaveVoiceChannelResponse requestId success => do
    writeU64 requestId
    writeBool success
  | chatMessageResponse requestId success => do
    writeU64 requestId
    writeBool success
  | pingResponse requestId => writeU64 requestId
  | userJoinedServer participant => participant.write
  | userJoinedVoice userId => writeU64 userId
  | userLeftVoice userId => writeU64 userId
  | userLeftServer userId => writeU64 userId
  | userMuteState userId isMuted => do
    writeU64 userId
    writeBool isMuted
  | userSentMessage userId timestamp message => do
    writeU64 userId
    writeU64 timestamp
    writeString message
  | voiceData userId sequence timestamp data => do
    writeU64 userId
    writeU32 sequence
    writeU32 timestamp
    writeBytes data

/-- Wire format `[packet_id: u8][payload_len: u16][payload...]`; `none` is a panic. -/
def encode (p : Packet) : Option Bytes := do
  let write : Write Unit := do
    writeU8 p.id
    let lenPos ← reserveU16
    let payloadStart ← position
    p.writePayload
    let payloadLen ← expectU16 ((← position) - payloadStart)
    writeU16At lenPos payloadLen
  let (_,w) ← write.run Writer.new
  return w.buf

def readPayload : PacketId → Read Packet
  | .loginRequest => return loginRequest (← readU64) (← readString)
  | .voiceAuthRequest => return voiceAuthRequest (← readU64) (← readU64)
  | .joinVoiceChannelRequest => return joinVoiceChannelRequest (← readU64)
  | .leaveVoiceChannelRequest => return leaveVoiceChannelRequest (← readU64)
  | .chatMessageRequest => return chatMessageRequest (← readU64) (← readString)
  | .pingRequest => return pingRequest (← readU64)
  | .loginResponse => do
    let requestId ← readU64
    let id ← readU64
    let voiceToken ← readU64
    let count ← readU16
    return loginResponse requestId id voiceToken (← readParticipants count.toNat)
  | .voiceAuthResponse => return voiceAuthResponse (← readU64) (← readBool)
  | .joinVoiceChannelResponse => return joinVoiceChannelResponse (← readU64) (← readBool)
  | .leaveVoiceChannelResponse => return leaveVoiceChannelResponse (← readU64) (← readBool)
  | .chatMessageResponse => return chatMessageResponse (← readU64) (← readBool)
  | .pingResponse => return pingResponse (← readU64)
  | .userJoinedServer => return userJoinedServer (← ParticipantInfo.read)
  | .userJoinedVoice => return userJoinedVoice (← readU64)
  | .userLeftVoice => return userLeftVoice (← readU64)
  | .userLeftServer => return userLeftServer (← readU64)
  | .userSentMessage => return userSentMessage (← readU64) (← readU64) (← readString)
  | .userMuteState => return userMuteState (← readU64) (← readBool)
  | .voiceData => return voiceData (← readU64) (← readU32) (← readU32) (← readRemaining)

/-- The packet at the front of `buf` and the number of bytes it takes. -/
def decode (buf : Bytes) : Except ProtocolError (Packet × ℕ) := do
  let (idByte,header) ← readU8.run (Reader.new buf)
  let packetId ← PacketId.tryFrom idByte
  let (payloadLen,header) ← readU16.run header
  let remaining := header.remaining
  if remaining.length < payloadLen.toNat then
    throw (.incompletePayload payloadLen.toNat remaining.length)
  let (packet,_) ← (readPayload packetId).run (Reader.new (remaining.take payloadLen.toNat))
  return (packet,header.pos + payloadLen.toNat)

end Packet
end VoiceApp.Protocol
