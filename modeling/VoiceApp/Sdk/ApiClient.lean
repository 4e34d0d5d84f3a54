import VoiceApp.Sdk.Client

/-! # What a call makes of its response

The login and the ping want a response of their own type; the other calls over TCP are
content with any packet that carries their request id. The time that a ping took is left
out.
-/
namespace VoiceApp.Sdk
open Protocol

/-- The errors of a call that has been answered. -/
inductive SdkError
  | connectionFailed (message : String)
  deriving DecidableEq

namespace ApiClient

def authenticateManagement : Packet → Except SdkError (UInt64 × UInt64)
  | .loginResponse _ id voiceToken _ => .ok (id,voiceToken)
  | _ => .error (.connectionFailed "Expected LoginResponse packet")

def joinChannel (_ : Packet) : Except SdkError Unit := .ok ()

def leaveChannel (_ : Packet) : Except SdkError Unit := .ok ()

def sendMessage (_ : Packet) : Except SdkError Unit := .ok ()

def ping : Packet → Except SdkError Unit
  | .pingResponse _ => .ok ()
  | _ => .error (.connectionFailed "Expected PingResponse packet")

end ApiClient

/-- The call returns `Ok` when it gets this response. -/
def Api.Succeeds (response : Packet) : Api → Prop
  | authenticateManagement _ => ∃ user, ApiClient.authenticateManagement response = .ok user
  | joinChannel => ApiClient.joinChannel response = .ok ()
  | leaveChannel => ApiClient.leaveChannel response = .ok ()
  | sendMessage _ => ApiClient.sendMessage response = .ok ()
  | ping => ApiClient.ping response = .ok ()

/-- The response grants the request with this id: it is of the matching type, and says so
where its type can also deny it. -/
def Api.GrantedBy (requestId : UInt64) (response : Packet) : Api → Prop
  | authenticateManagement _ => ∃ id voiceToken participants,
    response = .loginResponse requestId id voiceToken participants
  | joinChannel => response = .joinVoiceChannelResponse requestId true
  | leaveChannel => response = .leaveVoiceChannelResponse requestId true
  | sendMessage _ => response = .chatMessageResponse requestId true
  | ping => response = .pingResponse requestId

end VoiceApp.Sdk
