import VoiceApp.Protocol.Codec

/-! # Payload layouts

Each packet type has one format, and a packet is its type together with the fields
of that format in wire order.
-/
namespace VoiceApp.Protocol
open WireFormat

abbrev u64Format : Format := .word .u64

abbrev participantFormat : Format := .seq u64Format (.seq .str (.seq .bool .bool))

abbrev layout : PacketId → Format
  | .loginRequest => .seq u64Format .str
  | .joinVoiceChannelRequest => u64Format
  | .voiceAuthRequest => .seq u64Format u64Format
  | .leaveVoiceChannelRequest => u64Format
  | .chatMessageRequest => .seq u64Format .str
  | .pingRequest => u64Format
  | .loginResponse => .seq u64Format (.seq u64Format (.seq u64Format (.list participantFormat)))
  | .voiceAuthResponse => .seq u64Format .bool
  | .joinVoiceChannelResponse => .seq u64Format .bool
  | .leaveVoiceChannelResponse => .seq u64Format .bool
  | .chatMessageResponse => .seq u64Format .bool
  | .pingResponse => u64Format
  | .userJoinedServer => participantFormat
  | .userJoinedVoice => u64Format
  | .userLeftVoice => u64Format
  | .userLeftServer => u64Format
  | .userSentMessage => .seq u64Format (.seq u64Format .str)
  | .userMuteState => .seq u64Format .bool
  | .voiceData => .seq u64Format (.seq (.word .u32) (.seq (.word .u32) .rest))

theorem layout_tail (id : PacketId) : (layout id).Tail = true := by cases id <;> rfl

def ParticipantInfo.val (p : ParticipantInfo) : participantFormat.Val :=
  (p.userId,p.username,p.inVoice,p.isMuted)

def ParticipantInfo.ofVal (v : participantFormat.Val) : ParticipantInfo :=
  ⟨v.1,v.2.1,v.2.2.1,v.2.2.2⟩

namespace Packet

/-- The fields of a packet in wire order. -/
def val : (p : Packet) → (layout p.packetId).Val
  | loginRequest requestId username => (requestId,username)
  | voiceAuthRequest requestId voiceToken => (requestId,voiceToken)
  | joinVoiceChannelRequest requestId => requestId
  | leaveVoiceChannelRequest requestId => requestId
  | chatMessageRequest requestId message => (requestId,message)
  | pingRequest requestId => requestId
  | loginResponse requestId id voiceToken participants =>
    (requestId,id,voiceToken,participants.map ParticipantInfo.val)
  | voiceAuthResponse requestId success => (requestId,success)
  | joinVoiceChannelResponse requestId success => (requestId,success)
  | leaveVoiceChannelResponse requestId success => (requestId,success)
  | chatMessageResponse requestId success => (requestId,success)
  | pingResponse requestId => requestId
  | userJoinedServer participant => participant.val
  | userJoinedVoice userId => userId
  | userLeftVoice userId => userId
  | userLeftServer userId => userId
  | userSentMessage userId timestamp message => (userId,timestamp,message)
  | userMuteState userId isMuted => (userId,isMuted)
  | voiceData userId sequence timestamp data => (userId,sequence,timestamp,data)

def ofVal : (id : PacketId) → (layout id).Val → Packet
  | .loginRequest, v => loginRequest v.1 v.2
  | .joinVoiceChannelRequest, v => joinVoiceChannelRequest v
  | .voiceAuthRequest, v => voiceAuthRequest v.1 v.2
  | .leaveVoiceChannelRequest, v => leaveVoiceChannelRequest v
  | .chatMessageRequest, v => chatMessageRequest v.1 v.2
  | .pingRequest, v => pingRequest v
  | .loginResponse, v => loginResponse v.1 v.2.1 v.2.2.1 (v.2.2.2.map ParticipantInfo.ofVal)
  | .voiceAuthResponse, v => voiceAuthResponse v.1 v.2
  | .joinVoiceChannelResponse, v => joinVoiceChannelResponse v.1 v.2
  | .leaveVoiceChannelResponse, v => leaveVoiceChannelResponse v.1 v.2
  | .chatMessageResponse, v => chatMessageResponse v.1 v.2
  | .pingResponse, v => pingResponse v
  | .userJoinedServer, v => userJoinedServer (.ofVal v)
  | .userJoinedVoice, v => userJoinedVoice v
  | .userLeftVoice, v => userLeftVoice v
  | .userLeftServer, v => userLeftServer v
  | .userSentMessage, v => userSentMessage v.1 v.2.1 v.2.2
  | .userMuteState, v => userMuteState v.1 v.2
  | .voiceData, v => voiceData v.1 v.2.1 v.2.2.1 v.2.2.2

@[simp] theorem ofVal_val (p : Packet) : ofVal p.packetId p.val = p := by
  cases p <;> try rfl
  case loginResponse requestId id voiceToken participants =>
    have h : (participants.map ParticipantInfo.val).map ParticipantInfo.ofVal = participants := by
      rw [List.map_map]
      exact List.map_id participants
    simp only [packetId,val,ofVal,h]

end Packet

end VoiceApp.Protocol
