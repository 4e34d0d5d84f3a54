import VoiceApp.Base.Table
import VoiceApp.Protocol.Packet

/-! # Shared server types

Socket addresses, the configuration constants, and the events that the management
server sends to the voice relay.
-/
namespace VoiceApp.Server

/-- `std::net::SocketAddr`. -/
inductive SocketAddr
  | v4 (ip : UInt32) (port : UInt16)
  | v6 (ip : BitVec 128) (port : UInt16) (flowinfo scopeId : UInt32)
  deriving DecidableEq

/-- Buffer size for reading packets. -/
def packetBufferSize : ℕ := 4096

/-- Capacity of the broadcast channel for client messages. -/
def broadcastChannelCapacity : ℕ := 1000

/-- Maximum allowed username length, in bytes. -/
def maxUsernameLen : ℕ := 32

inductive Event
  | userConnected (id token : UInt64)
  | voiceJoined (id : UInt64)
  | voiceLeft (id : UInt64)
  | userDisconnected (id : UInt64)
  deriving DecidableEq

end VoiceApp.Server
