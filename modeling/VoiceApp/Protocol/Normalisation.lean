import VoiceApp.Base.CanonicalImage
import VoiceApp.Protocol.RoundTrip

/-! # What sending an accepted frame on makes of it

The decoder reads any byte but zero as `true`, and never looks behind the last field of a
payload. Sending a packet on puts both right and changes nothing else.
-/
namespace VoiceApp.Protocol
open WireFormat

/-- The payload of the frame that takes the first `n` bytes. -/
def payload (b : Bytes) (n : ℕ) : Bytes := (b.take n).drop 3

namespace Packet

/-- What the payload of a packet of this kind has behind its last field. -/
def leftOver (id : PacketId) (payload : Bytes) : Bytes :=
  match (layout id).parse payload with
  | .done _ rest => rest
  | _ => []

/-- The bytes of the payload that are read as booleans. -/
def booleans (id : PacketId) (payload : Bytes) : Bytes := (layout id).flags payload

theorem payload_frame (id : PacketId) (w s : Bytes) : payload (frame id w ++ s) (3 + w.length) = w := by
  have hlen : (frame id w).length = 3 + w.length := frame_length id w
  rw [payload,← hlen,List.take_left]
  rfl

/-- An accepted frame can be sent on: the packet is encoded again, in no more bytes, and is
decoded again. The bytes are the same exactly if there is nothing behind the last field of
the payload and every boolean is zero or one. -/
theorem decode_normalised {b : Bytes} {p : Packet} {n : ℕ} (h : decode b = .ok (p,n)) :
    ∃ b', p.encode = some b' ∧ b'.length ≤ n ∧ decode b' = .ok (p,b'.length) ∧
      (b' = b.take n ↔ leftOver p.packetId (payload b n) = [] ∧
        ∀ x ∈ booleans p.packetId (payload b n), x = 0 ∨ x = 1) := by
  obtain ⟨b',hb',hle⟩ := encode_of_decode h
  refine ⟨b',hb',hle,decode_self hb',?_⟩
  obtain ⟨w,hw,_,rfl⟩ := encode_eq_some hb'
  obtain ⟨id,front,s,v,rest,_,rfl,hparse,rfl,rfl⟩ := decode_ok h
  rw [write_ofVal] at hw
  have hid : (ofVal id v).packetId = id := by cases id <;> rfl
  rw [hid,payload_frame,leftOver,hparse,booleans]
  have himage := Format.parse_image hparse hw
  have hsize : w.length + rest.length = front.length := by
    rw [Format.write_length hw,(Format.parse_done hparse).2]
  have htake : (frame id front ++ s).take (3 + front.length) = frame id front := by
    rw [← frame_length id front,List.take_left]
  rw [htake]
  constructor
  · intro heq
    have hframes := congrArg List.length heq
    rw [frame_length,frame_length] at hframes
    have hnil : rest = [] := List.eq_nil_of_length_eq_zero (by omega)
    subst hnil
    have hsame : w = front := by
      have hlen : w.length = front.length := by omega
      have hback := payload_frame id w []
      rw [heq,hlen,payload_frame] at hback
      exact hback.symm
    refine ⟨rfl,himage.mp ?_⟩
    rw [hsame,List.append_nil]
  · rintro ⟨hnil,hflags⟩
    have hnil : rest = [] := hnil
    have hsame := himage.mpr hflags
    rw [hnil,List.append_nil] at hsame
    rw [hsame]

/-- A mute state whose boolean is written as 5, with one more byte behind it. -/
theorem decode_normalised_mute : ∃ b', (userMuteState 7 true).encode = some b' ∧ b'.length ≤ 13 ∧
    decode b' = .ok (userMuteState 7 true,b'.length) ∧ b' ≠ [0x46,0,10,0,0,0,0,0,0,0,7,5,9] := by
  obtain ⟨b',hb',hle,hback,hsame⟩ := decode_normalised (b := [0x46,0,10,0,0,0,0,0,0,0,7,5,9,0x06])
    (p := userMuteState 7 true) (n := 13) (by decide)
  refine ⟨b',hb',hle,hback,fun heq => ?_⟩
  obtain ⟨hnothing,_⟩ := hsame.mp heq
  revert hnothing
  decide

end Packet
end VoiceApp.Protocol
