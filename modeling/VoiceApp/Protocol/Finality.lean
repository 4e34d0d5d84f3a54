import VoiceApp.Protocol.RoundTrip

/-! # Verdicts that stand

The decoder reads a payload through a slice of its declared length, so nothing behind the
frame can change what it says. Only a frame that is not all there leaves it undecided.
-/
namespace VoiceApp.Protocol
open WireFormat

/-- The decoder has made up its mind: a packet, an unknown type byte, or a text that is not
UTF-8. -/
def Definite : Except ProtocolError (Packet × ℕ) → Prop
  | .ok _ => True
  | .error (.unknownPacketId _) => True
  | .error .invalidUtf8 => True
  | .error (.packetTooShort ..) => False
  | .error (.incompletePayload ..) => False

namespace Packet

/-- Waiting is not a definite verdict. -/
theorem not_definite_of_waits {e : ProtocolError} (h : e.waits = true) : ¬Definite (.error e) := by
  cases e with
  | packetTooShort => exact not_false
  | incompletePayload => exact not_false
  | unknownPacketId => cases h
  | invalidUtf8 => cases h

/-- What comes behind a buffer does not change a definite verdict on it. -/
theorem decode_append {b : Bytes} (h : Definite (decode b)) (s : Bytes) : decode (b ++ s) = decode b := by
  cases shape b with
  | unknown value rest hv => rw [List.cons_append,decode_unknown hv,decode_unknown hv]
  | unfinished b hu hid =>
    obtain ⟨e,he,hw⟩ := decode_unfinished hu hid
    rw [he] at h
    exact (not_definite_of_waits hw h).elim
  | complete id payload s₀ hlen =>
    rw [List.append_assoc]
    cases hp : (layout id).parse payload with
    | done v rest => rw [decode_frame_done (s₀ ++ s) hlen hp,decode_frame_done s₀ hlen hp]
    | short =>
      obtain ⟨expected,got,he⟩ := decode_frame_short s₀ hlen hp
      rw [he] at h
      exact h.elim
    | invalid => rw [decode_frame_invalid (s₀ ++ s) hlen hp,decode_frame_invalid s₀ hlen hp]

/-- With any of its last bytes missing an accepted packet is waited for. -/
theorem decode_take {b : Bytes} {p : Packet} {n : ℕ} (h : decode b = .ok (p,n)) {k : ℕ} (hk : k < n) :
    ∃ e, decode (b.take k) = .error e ∧ e.waits = true := by
  obtain ⟨id,payload,s,v,rest,hlen,rfl,hp,rfl,rfl⟩ := decode_ok h
  rw [← frame_length id payload] at hk
  have hcut : (frame id payload ++ s).take k = (frame id payload).take k :=
    List.take_append_of_le_length hk.le
  have hshort : ((frame id payload).take k).length < (frame id payload).length := by
    rw [List.length_take]
    omega
  rw [hcut]
  obtain ⟨hu,hid⟩ := unfinished_of_cut hlen (List.take_prefix k _) hshort
  exact decode_unfinished hu hid

/-- For every buffer: a definite verdict is the verdict on every longer buffer, and each
strict initial part of an accepted packet has one of the two verdicts that wait. -/
theorem verdict_final (b : Bytes) :
    (Definite (decode b) → ∀ s, decode (b ++ s) = decode b) ∧
    ∀ p n, decode b = .ok (p,n) → ∀ k, k < n →
      ∃ e, decode (b.take k) = .error e ∧ e.waits = true :=
  ⟨decode_append,fun _ _ h _ hk => decode_take h hk⟩

end Packet
end VoiceApp.Protocol
