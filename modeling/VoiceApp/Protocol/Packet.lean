import VoiceApp.Base.WireFormat

/-! # Packets and protocol errors

The data model shared by the server and the SDK. Identifiers and counters are the
fixed-width integers of the wire, strings are valid UTF-8 by construction.
-/
namespace VoiceApp.Protocol

abbrev Bytes := List UInt8

/-- Decoding errors, with the byte counts they report. -/
inductive ProtocolError
  | packetTooShort (expected got : ℕ)
  | unknownPacketId (id : UInt8)
  | invalidUtf8
  | incompletePayload (expected got : ℕ)
  deriving DecidableEq

inductive PacketId
  | loginRequest
  | joinVoiceChannelRequest
  | voiceAuthRequest
  | leaveVoiceChannelRequest
  | chatMessageRequest
  | pingRequest
  | loginResponse
  | voiceAuthResponse
  | joinVoiceChannelResponse
  | leaveVoiceChannelResponse
  | chatMessageResponse
  | pingResponse
  | userJoinedServer
  | userJoinedVoice
  | userLeftVoice
  | userLeftServer
  | userSentMessage
  | userMuteState
  | voiceData
  deriving DecidableEq

namespace PacketId

def asU8 : PacketId → UInt8
  | loginRequest => 0x01
  | joinVoiceChannelRequest => 0x02
  | voiceAuthRequest => 0x03
  | leaveVoiceChannelRequest => 0x04
  | chatMessageRequest => 0x05
  | pingRequest => 0x06
  | loginResponse => 0x21
  | voiceAuthResponse => 0x22
  | joinVoiceChannelResponse => 0x23
  | leaveVoiceChannelResponse => 0x24
  | chatMessageResponse => 0x25
  | pingResponse => 0x26
  | userJoinedServer => 0x41
  | userJoinedVoice => 0x42
  | userLeftVoice => 0x43
  | userLeftServer => 0x44
  | userSentMessage => 0x45
  | userMuteState => 0x46
  | voiceData => 0x61

def tryFrom (value : UInt8) : Except ProtocolError PacketId :=
  match value with
  | 0x01 => .ok loginRequest
  | 0x02 => .ok joinVoiceChannelRequest
  | 0x03 => .ok voiceAuthRequest
  | 0x04 => .ok leaveVoiceChannelRequest
  | 0x05 => .ok chatMessageRequest
  | 0x06 => .ok pingRequest
  | 0x21 => .ok loginResponse
  | 0x22 => .ok voiceAuthResponse
  | 0x23 => .ok joinVoiceChannelResponse
  | 0x24 => .ok leaveVoiceChannelResponse
  | 0x25 => .ok chatMessageResponse
  | 0x26 => .ok pingResponse
  | 0x41 => .ok userJoinedServer
  | 0x42 => .ok userJoinedVoice
  | 0x43 => .ok userLeftVoice
  | 0x44 => .ok userLeftServer
  | 0x45 => .ok userSentMessage
  | 0x46 => .ok userMuteState
  | 0x61 => .ok voiceData
  | _ => .error (.unknownPacketId value)

@[simp] theorem tryFrom_asU8 (id : PacketId) : tryFrom id.asU8 = .ok id := by
  cases id <;> rfl

/-- A rejected identifier byte is reported as it was read. -/
theorem tryFrom_error {value : UInt8} {e : ProtocolError} (h : tryFrom value = .error e) :
    e = .unknownPacketId value := by
  unfold tryFrom at h
  split at h <;> cases h
  rfl

theorem tryFrom_ok {value : UInt8} {id : PacketId} (h : tryFrom value = .ok id) :
    value = id.asU8 := by
  unfold tryFrom at h
  split at h <;> cases h <;> rfl

end PacketId

/-- User information carried in participant lists. -/
structure ParticipantInfo where
  userId : UInt64
  username : String
  inVoice : Bool
  isMuted : Bool
  deriving DecidableEq

inductive Packet
  -- requests
  | loginRequest (requestId : UInt64) (username : String)
  | voiceAuthRequest (requestId voiceToken : UInt64)
  | joinVoiceChannelRequest (requestId : UInt64)
  | leaveVoiceChannelRequest (requestId : UInt64)
  | chatMessageRequest (requestId : UInt64) (message : String)
  | pingRequest (requestId : UInt64)
  -- responses
  | loginResponse (requestId id voiceToken : UInt64) (participants : List ParticipantInfo)
  | voiceAuthResponse (requestId : UInt64) (success : Bool)
  | joinVoiceChannelResponse (requestId : UInt64) (success : Bool)
  | leaveVoiceChannelResponse (requestId : UInt64) (success : Bool)
  | chatMessageResponse (requestId : UInt64) (success : Bool)
  | pingResponse (requestId : UInt64)
  -- events
  | userJoinedServer (participant : ParticipantInfo)
  | userJoinedVoice (userId : UInt64)
  | userLeftVoice (userId : UInt64)
  | userLeftServer (userId : UInt64)
  | userSentMessage (userId timestamp : UInt64) (message : String)
  | userMuteState (userId : UInt64) (isMuted : Bool)
  -- UDP
  | voiceData (userId : UInt64) (sequence timestamp : UInt32) (data : Bytes)
  deriving DecidableEq

namespace Packet

def packetId : Packet → PacketId
  | loginRequest .. => .loginRequest
  | voiceAuthRequest .. => .voiceAuthRequest
  | joinVoiceChannelRequest .. => .joinVoiceChannelRequest
  | leaveVoiceChannelRequest .. => .leaveVoiceChannelRequest
  | chatMessageRequest .. => .chatMessageRequest
  | pingRequest .. => .pingRequest
  | loginResponse .. => .loginResponse
  | voiceAuthResponse .. => .voiceAuthResponse
  | joinVoiceChannelResponse .. => .joinVoiceChannelResponse
  | leaveVoiceChannelResponse .. => .leaveVoiceChannelResponse
  | chatMessageResponse .. => .chatMessageResponse
  | pingResponse .. => .pingResponse
  | userJoinedServer .. => .userJoinedServer
  | userJoinedVoice .. => .userJoinedVoice
  | userLeftVoice .. => .userLeftVoice
  | userLeftServer .. => .userLeftServer
  | userSentMessage .. => .userSentMessage
  | userMuteState .. => .userMuteState
  | voiceData .. => .voiceData

/-- The packet type byte. -/
def id (p : Packet) : UInt8 := p.packetId.asU8

/-- The correlation id of requests and responses; events and voice data have none. -/
def requestId : Packet → Option UInt64
  | loginRequest requestId _ => some requestId
  | voiceAuthRequest requestId _ => some requestId
  | joinVoiceChannelRequest requestId => some requestId
  | leaveVoiceChannelRequest requestId => some requestId
  | chatMessageRequest requestId _ => some requestId
  | pingRequest requestId => some requestId
  | loginResponse requestId _ _ _ => some requestId
  | voiceAuthResponse requestId _ => some requestId
  | joinVoiceChannelResponse requestId _ => some requestId
  | leaveVoiceChannelResponse requestId _ => some requestId
  | chatMessageResponse requestId _ => some requestId
  | pingResponse requestId => some requestId
  | _ => none

/-- Packets the server broadcasts about its users. -/
def isEvent : Packet → Bool
  | userJoinedServer .. => true
  | userJoinedVoice .. => true
  | userLeftVoice .. => true
  | userLeftServer .. => true
  | userSentMessage .. => true
  | userMuteState .. => true
  | _ => false

end Packet
end VoiceApp.Protocol
