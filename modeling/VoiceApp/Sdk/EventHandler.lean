import VoiceApp.Protocol.Packet

/-! # The events of the packet stream

The client library turns packets of the management connection into the events that the
application folds. Packets that answer requests, the login response apart, are no events.
-/
namespace VoiceApp.Sdk
open Protocol

/-- Events from the voice server. -/
inductive ClientEvent
  | participantsList (userId : UInt64) (participants : List ParticipantInfo)
  | userJoinedServer (userId : UInt64) (username : String)
  | userJoinedVoice (userId : UInt64)
  | userLeftVoice (userId : UInt64)
  | userLeftServer (userId : UInt64)
  | userSentMessage (userId timestamp : UInt64) (message : String)
  | userMuteState (userId : UInt64) (isMuted : Bool)
  deriving DecidableEq

namespace EventHandler

/-- Handle one packet: the event sent into the event channel, if any. -/
def handlePacket : Packet → Option ClientEvent
  | .loginResponse _ id _ participants => some (.participantsList id participants)
  -- the voice and mute flags of the participant are not passed on
  | .userJoinedServer participant =>
    some (.userJoinedServer participant.userId participant.username)
  | .userLeftServer userId => some (.userLeftServer userId)
  | .userJoinedVoice userId => some (.userJoinedVoice userId)
  | .userLeftVoice userId => some (.userLeftVoice userId)
  | .userSentMessage userId timestamp message => some (.userSentMessage userId timestamp message)
  | .userMuteState userId isMuted => some (.userMuteState userId isMuted)
  | _ => none

/-- Everything sent into the event channel while the packets are received in order. -/
def listenToPackets (packets : List Packet) : List ClientEvent := packets.filterMap handlePacket

end EventHandler
end VoiceApp.Sdk
