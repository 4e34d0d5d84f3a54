import VoiceApp.Protocol.RoundTrip

/-! # When the receive loops wait

The field readers report a payload that is too small for its layout with the same
error as a buffer that is too small for its frame. A complete frame with such a
payload is therefore waited on, and nothing that arrives later releases it.
-/
namespace VoiceApp.Protocol
open WireFormat Framing Packet

/-- A complete frame of a known type whose payload ends before the last field of its
layout, every string before that point being valid UTF-8. -/
def TruncatedFrame (b : Bytes) : Prop :=
  ∃ id payload s, payload.length ≤ 65535 ∧ b = frame id payload ++ s ∧
    (layout id).parse payload = .short

theorem TruncatedFrame.decode {b : Bytes} (h : TruncatedFrame b) :
    ∃ e, Packet.decode b = .error e ∧ e.waits = true := by
  obtain ⟨id,payload,s,hlen,rfl,hp⟩ := h
  obtain ⟨expected,got,he⟩ := decode_frame_short s hlen hp
  exact ⟨_,he,rfl⟩

theorem TruncatedFrame.not_unfinished {b : Bytes} (h : TruncatedFrame b) : ¬Unfinished b := by
  obtain ⟨id,payload,s,hlen,rfl,_⟩ := h
  exact not_unfinished_frame id payload s hlen

theorem TruncatedFrame.append {b : Bytes} (h : TruncatedFrame b) (chunk : Bytes) :
    TruncatedFrame (b ++ chunk) := by
  obtain ⟨id,payload,s,hlen,rfl,hp⟩ := h
  exact ⟨id,payload,s ++ chunk,hlen,by rw [List.append_assoc],hp⟩

/-- Waiting means unfinished or truncated. -/
theorem waits_cases {b : Bytes} {e : ProtocolError} (h : Packet.decode b = .error e)
    (hw : e.waits = true) : Unfinished b ∨ TruncatedFrame b := by
  cases shape b with
  | unknown value rest hv =>
    cases (decode_unknown hv).symm.trans h
    cases hw
  | unfinished b hu _ => exact .inl hu
  | complete id payload s hlen =>
    cases hp : (layout id).parse payload with
    | done v rest => cases (decode_frame_done s hlen hp).symm.trans h
    | short => exact .inr ⟨id,payload,s,hlen,rfl,hp⟩
    | invalid =>
      cases (decode_frame_invalid s hlen hp).symm.trans h
      cases hw

/-- The bytes a receive loop keeps after a list of reads. -/
def retained (reads : List Bytes) : Bytes := (framer.feedAll reads).2

/-- What is kept after splitting is empty or something the decoder waits on. -/
theorem split_kept (b : Bytes) : (framer.split b).2 = [] ∨
    ∃ e, Packet.decode (framer.split b).2 = .error e ∧ e.waits = true := by
  induction hn : b.length using Nat.strongRecOn generalizing b with
  | ind len ih =>
    cases h : framer.decode b with
    | ok r =>
      obtain ⟨p,n⟩ := r
      rw [framer.split_ok h]
      exact ih _ (hn ▸ framer.drop_length_lt h) (b.drop n) rfl
    | error e =>
      rw [framer.split_error h]
      by_cases hw : framer.waits e = true
      · rw [if_pos hw]
        exact .inr ⟨e,h,hw⟩
      · rw [if_neg hw]
        exact .inl rfl

theorem Unfinished.length_lt {b : Bytes} (h : Unfinished b) : b.length < 3 + 65535 := by
  have hlt := BigEndian.ofBytes_lt ((b.drop 1).take 2)
  have hpow : 256 ^ ((b.drop 1).take 2).length ≤ 256 ^ 2 :=
    Nat.pow_le_pow_right (by omega) (List.length_take_le _ _)
  rcases h with h | h
  · omega
  · unfold declaredLen at h
    omega

theorem retained_unfinished {reads : List Bytes} (h : ¬TruncatedFrame (retained reads)) :
    retained reads = [] ∨ Unfinished (retained reads) := by
  rcases List.eq_nil_or_concat reads with rfl | ⟨reads,chunk,rfl⟩
  · exact .inl rfl
  · rw [List.concat_eq_append,retained,framer.feedAll_concat] at h ⊢
    rcases split_kept ((framer.feedAll reads).2 ++ chunk) with h0 | ⟨e,he,hw⟩
    · exact .inl h0
    · exact .inr ((waits_cases he hw).resolve_right h)

/-- A truncated frame is never released: every later read is kept behind it. -/
theorem TruncatedFrame.split {b : Bytes} (h : TruncatedFrame b) : framer.split b = ([],b) := by
  obtain ⟨e,he,hw⟩ := h.decode
  exact framer.split_waits he hw

/-- The decoder waits on unfinished frames only, except on truncated ones. In a run
that never keeps a truncated frame the buffer stays below one maximal frame; behind
a truncated frame it grows with every read. -/
theorem waits_only_on_unfinished_iff (b : Bytes) :
    ((∀ e, Packet.decode b = .error e → e.waits = true → Unfinished b) ↔ ¬TruncatedFrame b) ∧
    (∀ reads : List Bytes, (∀ r, r <+: reads → ¬TruncatedFrame (retained r)) →
      ∀ r, r <+: reads → (retained r = [] ∨ Unfinished (retained r)) ∧
        (retained r).length < 3 + 65535) ∧
    (∀ reads chunk, TruncatedFrame (retained reads) →
      retained (reads ++ [chunk]) = retained reads ++ chunk ∧
        TruncatedFrame (retained (reads ++ [chunk]))) := by
  refine ⟨⟨?_,?_⟩,?_,?_⟩
  · intro h ht
    obtain ⟨e,he,hw⟩ := ht.decode
    exact ht.not_unfinished (h e he hw)
  · intro ht e he hw
    exact (waits_cases he hw).resolve_right ht
  · intro reads h r hr
    have hu := retained_unfinished (h r hr)
    refine ⟨hu,?_⟩
    rcases hu with h0 | hu
    · rw [h0]
      simp
    · exact hu.length_lt
  · intro reads chunk ht
    have hs : retained (reads ++ [chunk]) = retained reads ++ chunk := by
      rw [retained,framer.feedAll_concat]
      exact congrArg Prod.snd (ht.append chunk).split
    exact ⟨hs,hs ▸ ht.append chunk⟩

/-- A ping request with an empty payload is complete and is waited on. -/
theorem waits_on_complete_ping : ¬∀ b e, Packet.decode b = .error e → e.waits = true →
    b.length < 3 ∨ b.length < 3 + declaredLen b := by
  intro h
  have hd : Packet.decode [0x06,0,0] = .error (.packetTooShort 8 0) := rfl
  exact absurd (h [0x06,0,0] _ hd rfl) (by decide)

end VoiceApp.Protocol
