import VoiceApp.Protocol.RoundTrip

/-! # The reader with its range checks

The decoder once more, with every index, slice, conversion and sum that could panic
written out as a check. None of the checks ever fails: the cursor stays inside its slice,
and the positions are far from the end of the range of `usize`.
-/
namespace VoiceApp.Protocol
open BigEndian WireFormat

/-- Why a read ends without a value: an error that it returns, or a panic. -/
inductive Failure
  | error (e : ProtocolError)
  | panic

abbrev CheckedRead := StateT Reader (Except Failure)

namespace Checked

/-- A sum of two `usize`; overflow panics. -/
def add (a b : ℕ) : Except Failure ℕ := if a + b < 2 ^ 64 then .ok (a + b) else .error .panic

def readU8 : CheckedRead UInt8 := fun r => do
  let next ← add r.pos 1
  match r.data[r.pos]? with
  | some value => return (value,{ r with pos := next })
  | none => throw (.error (.packetTooShort next r.data.length))

/-- `data.get(pos..pos + n)` with its error, and `pos += n`. -/
def readSlice (n : ℕ) : CheckedRead Bytes := fun r => do
  let stop ← add r.pos n
  if stop ≤ r.data.length then return ((r.data.drop r.pos).take n,{ r with pos := stop })
  else throw (.error (.packetTooShort stop r.data.length))

/-- A slice as an array of its length: `try_into().unwrap()`. -/
def readArray (n : ℕ) : CheckedRead Bytes := do
  let bytes ← readSlice n
  if bytes.length = n then return bytes else throw .panic

def readU16 : CheckedRead UInt16 := return UInt16.ofNat (ofBytes (← readArray 2))
def readU32 : CheckedRead UInt32 := return UInt32.ofNat (ofBytes (← readArray 4))
def readU64 : CheckedRead UInt64 := return UInt64.ofNat (ofBytes (← readArray 8))
def readBool : CheckedRead Bool := return (← readU8) != 0

def readString : CheckedRead String := do
  let len ← readU16
  let bytes ← readSlice len.toNat
  match ofUtf8 bytes with
  | some s => return s
  | none => throw (.error .invalidUtf8)

/-- `&self.data[self.pos..]`. -/
def remaining : CheckedRead Bytes := fun r =>
  if r.pos ≤ r.data.length then .ok (r.data.drop r.pos,r) else .error .panic

def readParticipant : CheckedRead ParticipantInfo := do
  let userId ← readU64
  let username ← readString
  let inVoice ← readBool
  let isMuted ← readBool
  return { userId, username, inVoice, isMuted }

def readParticipants : ℕ → CheckedRead (List ParticipantInfo)
  | 0 => return []
  | count + 1 => do
    let p ← readParticipant
    let ps ← readParticipants count
    return p :: ps

open Packet in
def readPayload : PacketId → CheckedRead Packet
  | .loginRequest => return loginRequest (← readU64) (← readString)
  | .voiceAuthRequest => return voiceAuthRequest (← readU64) (← readU64)
  | .joinVoiceChannelRequest => return joinVoiceChannelRequest (← readU64)
  | .leaveVoiceChannelRequest => return leaveVoiceChannelRequest (← readU64)
  | .chatMessageRequest => return chatMessageRequest (← readU64) (← readString)
  | .pingRequest => return pingRequest (← readU64)
  | .loginResponse => do
    let requestId ← readU64
    let id ← readU64
    let voiceToken ← readU64
    let count ← readU16
    return loginResponse requestId id voiceToken (← readParticipants count.toNat)
  | .voiceAuthResponse => return voiceAuthResponse (← readU64) (← readBool)
  | .joinVoiceChannelResponse => return joinVoiceChannelResponse (← readU64) (← readBool)
  | .leaveVoiceChannelResponse => return leaveVoiceChannelResponse (← readU64) (← readBool)
  | .chatMessageResponse => return chatMessageResponse (← readU64) (← readBool)
  | .pingResponse => return pingResponse (← readU64)
  | .userJoinedServer => return userJoinedServer (← readParticipant)
  | .userJoinedVoice => return userJoinedVoice (← readU64)
  | .userLeftVoice => return userLeftVoice (← readU64)
  | .userLeftServer => return userLeftServer (← readU64)
  | .userSentMessage => return userSentMessage (← readU64) (← readU64) (← readString)
  | .userMuteState => return userMuteState (← readU64) (← readBool)
  | .voiceData => return voiceData (← readU64) (← readU32) (← readU32) (← remaining)

/-- `&bytes[..n]`. -/
def sliceTo (n : ℕ) (bytes : Bytes) : Except Failure Bytes :=
  if n ≤ bytes.length then .ok (bytes.take n) else .error .panic

/-- `Packet::decode`. -/
def decode (buf : Bytes) : Except Failure (Packet × ℕ) := do
  let (idByte,header) ← readU8.run (Reader.new buf)
  let packetId ← (PacketId.tryFrom idByte).mapError Failure.error
  let (payloadLen,header) ← readU16.run header
  let (rest,header) ← remaining.run header
  if rest.length < payloadLen.toNat then
    throw (.error (.incompletePayload payloadLen.toNat rest.length))
  let payload ← sliceTo payloadLen.toNat rest
  let (packet,_) ← (readPayload packetId).run (Reader.new payload)
  return (packet,← add header.pos payloadLen.toNat)

/-! ## No check fails -/

variable {α β : Type}

theorem add_ok {a b : ℕ} (h : a + b < 2 ^ 64) : add a b = .ok (a + b) := if_pos h

/-- In a slice of at most 65535 bytes the checked read does what the read does, and leaves
the cursor inside the slice. -/
def Safe (r : Read α) (c : CheckedRead α) : Prop := ∀ data pos, pos ≤ data.length →
  data.length ≤ 65535 → c ⟨data,pos⟩ = (r ⟨data,pos⟩).mapError .error ∧
    ∀ a after, r ⟨data,pos⟩ = .ok (a,after) → after.data = data ∧ after.pos ≤ data.length

theorem Safe.pure (a : α) : Safe (pure a) (pure a) := by
  intro data pos hpos _
  refine ⟨rfl,fun a' after h => ?_⟩
  cases h
  exact ⟨rfl,hpos⟩

theorem Safe.bind {r : Read α} {c : CheckedRead α} {k : α → Read β} {k' : α → CheckedRead β}
    (h : Safe r c) (hk : ∀ a, Safe (k a) (k' a)) : Safe (r >>= k) (c >>= k') := by
  intro data pos hpos hlen
  obtain ⟨hsame,hcursor⟩ := h data pos hpos hlen
  change (c ⟨data,pos⟩).bind _ = ((r ⟨data,pos⟩).bind _).mapError _ ∧
    ∀ _ _, (r ⟨data,pos⟩).bind _ = _ → _
  rw [hsame]
  cases hr : r ⟨data,pos⟩ with
  | error e => exact ⟨rfl,fun _ _ he => by cases he⟩
  | ok x =>
    obtain ⟨a,⟨data',pos'⟩⟩ := x
    obtain ⟨rfl,hpos'⟩ := hcursor a _ hr
    exact hk a _ pos' hpos' hlen

theorem Safe.map {r : Read α} {c : CheckedRead α} (h : Safe r c) (f : α → β) :
    Safe (do return f (← r)) (do return f (← c)) := h.bind fun a => Safe.pure (f a)

theorem safe_readU8 : Safe Reader.readU8 readU8 := by
  intro data pos hpos hlen
  have hadd : add pos 1 = .ok (pos + 1) := add_ok (by omega)
  unfold readU8 Reader.readU8
  simp only [hadd]
  cases hd : data[pos]? with
  | none => exact ⟨rfl,fun _ _ he => by cases he⟩
  | some value =>
    refine ⟨rfl,fun _ _ he => ?_⟩
    cases he
    exact ⟨rfl,(List.getElem?_eq_some_iff.mp hd).1⟩

theorem safe_readSlice {n : ℕ} (hn : n ≤ 65535) : Safe (Reader.readSlice n) (readSlice n) := by
  intro data pos hpos hlen
  have hadd : add pos n = .ok (pos + n) := add_ok (by omega)
  unfold readSlice Reader.readSlice
  simp only [hadd]
  by_cases h : pos + n ≤ data.length
  · rw [if_pos h]
    refine ⟨by simp only [bind,Except.bind,if_pos h]; rfl,fun _ _ he => ?_⟩
    cases he
    exact ⟨rfl,h⟩
  · rw [if_neg h]
    exact ⟨by simp only [bind,Except.bind,if_neg h]; rfl,fun _ _ he => by cases he⟩

theorem safe_readArray {n : ℕ} (hn : n ≤ 65535) : Safe (Reader.readSlice n) (readArray n) := by
  intro data pos hpos hlen
  obtain ⟨hsame,hcursor⟩ := safe_readSlice hn data pos hpos hlen
  refine ⟨?_,hcursor⟩
  change (readSlice n ⟨data,pos⟩).bind _ = _
  rw [hsame]
  unfold Reader.readSlice
  by_cases h : pos + n ≤ data.length
  · have hbytes : ((data.drop pos).take n).length = n := by
      rw [List.length_take,List.length_drop]
      omega
    rw [if_pos h]
    simp only [Except.mapError,Except.bind,if_pos hbytes]
    rfl
  · rw [if_neg h]
    rfl

theorem safe_readU16 : Safe Reader.readU16 readU16 := (safe_readArray (by decide)).map _
theorem safe_readU32 : Safe Reader.readU32 readU32 := (safe_readArray (by decide)).map _
theorem safe_readU64 : Safe Reader.readU64 readU64 := (safe_readArray (by decide)).map _
theorem safe_readBool : Safe Reader.readBool readBool := safe_readU8.map _

theorem safe_readString : Safe Reader.readString readString := by
  refine safe_readU16.bind fun len => ?_
  have hlen : len.toNat ≤ 65535 := Nat.le_of_lt_succ len.toNat_lt
  refine (safe_readSlice hlen).bind fun bytes => ?_
  cases ofUtf8 bytes with
  | some s => exact Safe.pure s
  | none => exact fun _ _ _ _ => ⟨rfl,fun _ _ he => by cases he⟩

theorem safe_remaining : Safe Reader.readRemaining remaining := by
  intro data pos hpos hlen
  refine ⟨if_pos hpos,fun _ _ he => ?_⟩
  cases he
  exact ⟨rfl,hpos⟩

theorem safe_readParticipant : Safe ParticipantInfo.read readParticipant :=
  safe_readU64.bind fun userId => safe_readString.bind fun username => safe_readBool.bind fun inVoice =>
    safe_readBool.map (ParticipantInfo.mk userId username inVoice)

theorem safe_readParticipants (count : ℕ) :
    Safe (Protocol.readParticipants count) (readParticipants count) := by
  induction count with
  | zero => exact Safe.pure []
  | succ count ih => exact safe_readParticipant.bind fun p => ih.map (p :: ·)

/-- Every arm of the match is safe. -/
theorem safe_readPayload (id : PacketId) : Safe (Packet.readPayload id) (readPayload id) := by
  have u64 (c : UInt64 → Packet) := safe_readU64.map c
  have pair {γ : Type} {r : Read γ} {r' : CheckedRead γ} (h : Safe r r') (c : UInt64 → γ → Packet) :=
    safe_readU64.bind fun a => h.map (c a)
  cases id with
  | loginRequest => exact pair safe_readString Packet.loginRequest
  | joinVoiceChannelRequest => exact u64 Packet.joinVoiceChannelRequest
  | voiceAuthRequest => exact pair safe_readU64 Packet.voiceAuthRequest
  | leaveVoiceChannelRequest => exact u64 Packet.leaveVoiceChannelRequest
  | chatMessageRequest => exact pair safe_readString Packet.chatMessageRequest
  | pingRequest => exact u64 Packet.pingRequest
  | loginResponse =>
    exact safe_readU64.bind fun requestId => safe_readU64.bind fun id => safe_readU64.bind
      fun voiceToken => safe_readU16.bind fun count =>
        (safe_readParticipants count.toNat).map (Packet.loginResponse requestId id voiceToken)
  | voiceAuthResponse => exact pair safe_readBool Packet.voiceAuthResponse
  | joinVoiceChannelResponse => exact pair safe_readBool Packet.joinVoiceChannelResponse
  | leaveVoiceChannelResponse => exact pair safe_readBool Packet.leaveVoiceChannelResponse
  | chatMessageResponse => exact pair safe_readBool Packet.chatMessageResponse
  | pingResponse => exact u64 Packet.pingResponse
  | userJoinedServer => exact safe_readParticipant.map Packet.userJoinedServer
  | userJoinedVoice => exact u64 Packet.userJoinedVoice
  | userLeftVoice => exact u64 Packet.userLeftVoice
  | userLeftServer => exact u64 Packet.userLeftServer
  | userSentMessage =>
    exact safe_readU64.bind fun userId => safe_readU64.bind fun timestamp =>
      safe_readString.map (Packet.userSentMessage userId timestamp)
  | userMuteState => exact pair safe_readBool Packet.userMuteState
  | voiceData =>
    exact safe_readU64.bind fun userId => safe_readU32.bind fun sequence => safe_readU32.bind
      fun timestamp => safe_remaining.map (Packet.voiceData userId sequence timestamp)

/-- The length behind the type byte. -/
theorem readU16_header (value : UInt8) (rest : Bytes) :
    readU16.run ⟨value :: rest,1⟩ = (Reader.readU16.run ⟨value :: rest,1⟩).mapError .error ∧
      ∀ a after, Reader.readU16.run ⟨value :: rest,1⟩ = .ok (a,after) →
        after.pos = 3 ∧ 3 ≤ after.data.length := by
  have hadd : add 1 2 = .ok 3 := rfl
  change ((readSlice 2 ⟨value :: rest,1⟩).bind _).bind _ =
      ((Reader.readSlice 2 ⟨value :: rest,1⟩).bind _).mapError _ ∧
    ∀ _ _, (Reader.readSlice 2 ⟨value :: rest,1⟩).bind _ = _ → _
  unfold readSlice Reader.readSlice
  simp only [hadd]
  by_cases h : 3 ≤ (value :: rest).length
  · have hbytes : (((value :: rest).drop 1).take 2).length = 2 := by
      rw [List.length_take,List.length_drop]
      omega
    rw [if_pos h]
    constructor
    · simp only [bind,Except.bind,if_pos h,pure,Except.pure,if_pos hbytes]
      rfl
    · intro a after he
      cases he
      exact ⟨rfl,h⟩
  · rw [if_neg h]
    refine ⟨?_,fun a after he => by cases he⟩
    simp only [bind,Except.bind,if_neg h]
    rfl

/-- The decoder never panics: with its checks it does what it does without them. -/
theorem decode_eq (b : Bytes) : decode b = (Packet.decode b).mapError .error := by
  cases b with
  | nil => rfl
  | cons value rest =>
    have hbyte : readU8.run (Reader.new (value :: rest)) = .ok (value,⟨value :: rest,1⟩) := rfl
    have hbyte' : Reader.readU8.run (Reader.new (value :: rest)) = .ok (value,⟨value :: rest,1⟩) := rfl
    obtain ⟨hword,hcursor⟩ := readU16_header value rest
    simp only [decode,Packet.decode,hbyte,hbyte',hword,bind,Except.bind]
    cases PacketId.tryFrom value with
    | error e => rfl
    | ok id =>
      cases hlen : Reader.readU16.run ⟨value :: rest,1⟩ with
      | error e => rfl
      | ok x =>
        obtain ⟨payloadLen,header⟩ := x
        obtain ⟨hpos,hdata⟩ := hcursor _ _ hlen
        have hbound : payloadLen.toNat ≤ 65535 := Nat.le_of_lt_succ payloadLen.toNat_lt
        have hrest : remaining.run header = .ok (header.remaining,header) := if_pos (by omega)
        have hsize : add header.pos payloadLen.toNat = .ok (header.pos + payloadLen.toNat) :=
          add_ok (by omega)
        simp only [Except.mapError,hrest,hsize]
        by_cases hshort : header.remaining.length < payloadLen.toNat
        · rw [if_pos hshort,if_pos hshort]
          rfl
        · have hslice : sliceTo payloadLen.toNat header.remaining =
              .ok (header.remaining.take payloadLen.toNat) := if_pos (not_lt.mp hshort)
          have hpayload : (header.remaining.take payloadLen.toNat).length ≤ 65535 :=
            (List.length_take_le _ _).trans hbound
          obtain ⟨hsame,_⟩ := safe_readPayload id _ 0 (Nat.zero_le _) hpayload
          rw [if_neg hshort,if_neg hshort]
          simp only [pure,Except.pure,hslice,StateT.run,Reader.new,hsame]
          cases Packet.readPayload id ⟨header.remaining.take payloadLen.toNat,0⟩ <;> rfl

theorem decode_ne_panic (b : Bytes) : decode b ≠ .error .panic := by
  rw [decode_eq]
  cases Packet.decode b with
  | ok r => exact fun h => by cases h
  | error e => exact fun h => by cases h

theorem decode_ok_iff {b : Bytes} {p : Packet} {n : ℕ} :
    decode b = .ok (p,n) ↔ Packet.decode b = .ok (p,n) := by
  rw [decode_eq]
  cases Packet.decode b with
  | ok r => exact ⟨fun h => congrArg Except.ok (Except.ok.inj h),fun h => congrArg Except.ok (Except.ok.inj h)⟩
  | error e => exact ⟨fun h => (by cases h),fun h => (by cases h)⟩

end Checked
end VoiceApp.Protocol
