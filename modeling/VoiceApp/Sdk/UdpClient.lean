import VoiceApp.Sdk.Pending

/-! # The UDP client's receiving side

The handler task of the UDP client hands every packet either to the request it answers or
to the packet stream.
-/
namespace VoiceApp.Sdk.UdpClient
open Protocol

/-- Length of the buffer each datagram is received into. -/
def readBufSize : ℕ := 4096

/-- The handler's side of the client; `packetTx` is everything sent into the packet stream
so far, oldest first. -/
structure Handler where
  pendingRequests : Pending
  packetTx : List Packet
  bytesReceived : UInt64

/-- Why the handler stops. -/
inductive HandlerError
  | parse (e : ProtocolError)
  | receive
  deriving DecidableEq

/-- The request a packet on this socket may answer. -/
def responseId : Packet → Option UInt64
  | .voiceAuthResponse requestId _ => some requestId
  | _ => none

/-- `handle_incoming` on a receive that returned these bytes (`none` for an I/O error);
the Boolean is `should_continue`. -/
def handleIncoming (c : Handler) : Option Bytes → Except HandlerError (Bool × Handler)
  | none => .error .receive
  | some [] => .ok (false,c)
  | some bytes =>
    let bytesReceived := c.bytesReceived + UInt64.ofNat bytes.length
    match Packet.decode bytes with
    | .error e => .error (.parse e)
    | .ok (packet,_) =>
      match c.pendingRequests.resolve (responseId packet) packet with
      | (pendingRequests,true) => .ok (true,⟨pendingRequests,c.packetTx,bytesReceived⟩)
      | (pendingRequests,false) => .ok (true,⟨pendingRequests,c.packetTx ++ [packet],bytesReceived⟩)

/-- Voice data that fits the receive buffer reaches the packet stream as it was sent. -/
theorem handleIncoming_voiceData {userId : UInt64} {sequence timestamp : UInt32} {data out : Bytes}
    (h : (Packet.voiceData userId sequence timestamp data).encode = some out)
    (hlen : out.length ≤ readBufSize) (c : Handler) :
    handleIncoming c (some (out.take readBufSize)) =
      .ok (true,{ c with
        packetTx := c.packetTx ++ [.voiceData userId sequence timestamp data]
        bytesReceived := c.bytesReceived + UInt64.ofNat out.length }) := by
  rw [List.take_of_length_le hlen]
  have hd := Packet.decode_self h
  have hpos := Packet.encode_length h
  cases out with
  | nil =>
    simp only [List.length_nil] at hpos
    omega
  | cons byte rest => simp only [handleIncoming,hd,responseId,Pending.resolve]

end VoiceApp.Sdk.UdpClient
