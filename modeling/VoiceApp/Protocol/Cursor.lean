import VoiceApp.Protocol.Emit

/-! # The reader refines its layout

A cursor read accepts, runs short or rejects exactly as its format parses what is
left after the cursor. The byte counts inside `packetTooShort` are not part of the
format.
-/
namespace VoiceApp.Protocol
open BigEndian WireFormat Reader

variable {α β V : Type} {f f' : Format}

/-- The outcome of a read against the outcome of a parse; `P` relates the cursor
after a success to the bytes the parser left. -/
def Agrees (P : Reader → Bytes → Prop) (g : V → α) :
    Parsed V → Except ProtocolError (α × Reader) → Prop
  | .done v rest, res => ∃ after, P after rest ∧ res = .ok (g v,after)
  | .short, res => ∃ expected got, res = .error (.packetTooShort expected got)
  | .invalid, res => res = .error .invalidUtf8

/-- The cursor stands in front of what the parser left. -/
def Stands (data : Bytes) (after : Reader) (rest : Bytes) : Prop :=
  after.data = data ∧ after.pos ≤ data.length ∧ after.remaining = rest

/-- Reading from any cursor agrees with parsing what is left after it. -/
def ReadsTo (P : Bytes → Reader → Bytes → Prop) (r : Read α) (f : Format) (g : f.Val → α) : Prop :=
  ∀ data pos, pos ≤ data.length → Agrees (P data) g (f.parse (data.drop pos)) (r ⟨data,pos⟩)

abbrev Reads (r : Read α) (f : Format) (g : f.Val → α) : Prop := ReadsTo Stands r f g

theorem Agrees.map {P : Reader → Bytes → Prop} {g : V → α} {x : Parsed V}
    {res : Except ProtocolError (α × Reader)} (h : Agrees P g x res) (c : α → β) :
    Agrees P (fun v => c (g v)) x (res.map fun s => (c s.1,s.2)) := by
  cases x with
  | done v rest =>
    obtain ⟨after,hP,rfl⟩ := h
    exact ⟨after,hP,rfl⟩
  | short =>
    obtain ⟨expected,got,rfl⟩ := h
    exact ⟨expected,got,rfl⟩
  | invalid =>
    cases h
    rfl

theorem ReadsTo.map {P : Bytes → Reader → Bytes → Prop} {r : Read α} {g : f.Val → α}
    (h : ReadsTo P r f g) (c : α → β) : ReadsTo P (do return c (← r)) f (fun v => c (g v)) := by
  intro data pos hpos
  have hm := (h data pos hpos).map c
  have he : (do return c (← r) : Read β) ⟨data,pos⟩ = (r ⟨data,pos⟩).map fun s => (c s.1,s.2) := by
    change (r ⟨data,pos⟩).bind _ = _
    cases r ⟨data,pos⟩ <;> rfl
  rw [he]
  exact hm

theorem ReadsTo.bind {P : Bytes → Reader → Bytes → Prop} {r : Read α} {g : f.Val → α}
    {k : α → Read β} {g' : α → f'.Val → β} (h : Reads r f g) (hk : ∀ a, ReadsTo P (k a) f' (g' a)) :
    ReadsTo P (r >>= k) (.seq f f') (fun v => g' (g v.1) v.2) := by
  intro data pos hpos
  have hr := h data pos hpos
  change Agrees (P data) _ ((f.parse (data.drop pos)).bind _) ((r ⟨data,pos⟩).bind fun s => k s.1 s.2)
  cases hp : f.parse (data.drop pos) with
  | done v rest =>
    rw [hp] at hr
    obtain ⟨⟨_,next⟩,⟨rfl,hn,rfl⟩,he⟩ := hr
    have hk := hk (g v) _ next hn
    rw [he]
    simp only [Parsed.done_bind,Except.bind]
    cases hq : f'.parse (Reader.remaining ⟨_,next⟩) with
    | done v' rest' =>
      obtain ⟨after,hP,he'⟩ := (hq ▸ hk : Agrees _ _ (.done v' rest') _)
      exact ⟨after,hP,he'⟩
    | short => exact (hq ▸ hk : Agrees _ _ .short _)
    | invalid => exact (hq ▸ hk : Agrees _ _ .invalid _)
  | short =>
    rw [hp] at hr
    obtain ⟨expected,got,he⟩ := hr
    rw [he]
    exact ⟨expected,got,rfl⟩
  | invalid =>
    rw [hp] at hr
    have he : r ⟨data,pos⟩ = .error .invalidUtf8 := hr
    rw [he]
    rfl

/-! ## Field readers -/

theorem readSlice_agrees (n : ℕ) (data : Bytes) (pos : ℕ) (hpos : pos ≤ data.length) :
    Agrees (Stands data) id (takeBytes n (data.drop pos)) (readSlice n ⟨data,pos⟩) := by
  unfold takeBytes readSlice
  rw [List.length_drop]
  by_cases h : pos + n ≤ data.length
  · have hn : n ≤ data.length - pos := by omega
    rw [if_pos h,if_pos hn]
    exact ⟨⟨data,pos + n⟩,⟨rfl,h,by simp [remaining,List.drop_drop]⟩,rfl⟩
  · have hn : ¬n ≤ data.length - pos := by omega
    rw [if_neg h,if_neg hn]
    exact ⟨_,_,rfl⟩

/-- The fixed-width integer readers are one slice and one conversion. -/
theorem reads_word (w : Word) : Reads (do return w.wrap (ofBytes (← readSlice w.width)))
    (.word w) id := by
  intro data pos hpos
  have h := (readSlice_agrees w.width data pos hpos).map fun bs => w.wrap (ofBytes bs)
  have he : (do return w.wrap (ofBytes (← readSlice w.width)) : Read w.Val) ⟨data,pos⟩ =
      (readSlice w.width ⟨data,pos⟩).map fun s => (w.wrap (ofBytes s.1),s.2) := by
    change (readSlice w.width ⟨data,pos⟩).bind _ = _
    cases readSlice w.width ⟨data,pos⟩ <;> rfl
  rw [he]
  change Agrees _ _ ((takeBytes w.width (data.drop pos)).map _) _
  cases ht : takeBytes w.width (data.drop pos) with
  | done bs rest => exact (ht ▸ h : Agrees _ _ (.done bs rest) _)
  | short => exact (ht ▸ h : Agrees _ _ .short _)
  | invalid => exact (ht ▸ h : Agrees _ _ .invalid _)

theorem reads_u64 : Reads readU64 u64Format id := reads_word .u64
theorem reads_u32 : Reads readU32 (.word .u32) id := reads_word .u32

theorem reads_bool : Reads readBool .bool id := by
  intro data pos hpos
  have hdrop : data.drop pos = [] ∨ ∃ b rest, data[pos]? = some b ∧ data.drop pos = b :: rest := by
    cases h : data[pos]? with
    | none =>
      left
      exact List.drop_eq_nil_iff.mpr (List.getElem?_eq_none_iff.mp h)
    | some b =>
      obtain ⟨hlt,rfl⟩ := List.getElem?_eq_some_iff.mp h
      exact .inr ⟨_,_,rfl,List.drop_eq_getElem_cons hlt⟩
  rcases hdrop with h | ⟨b,rest,hb,h⟩
  · have hlen : data.length ≤ pos := List.drop_eq_nil_iff.mp h
    have hnone : data[pos]? = none := List.getElem?_eq_none_iff.mpr hlen
    rw [h]
    exact ⟨pos + 1,data.length,by simp [readBool,readU8,hnone,bind,StateT.bind,Except.bind]⟩
  · have hlt : pos < data.length := (List.getElem?_eq_some_iff.mp hb).1
    have hrest : data.drop (pos + 1) = rest := by
      rw [← List.tail_drop,h,List.tail_cons]
    have hnum : (ofBytes [b] != 0) = (b != 0) := by
      rw [Bool.eq_iff_iff]
      simp [ofBytes,← UInt8.toNat_inj]
    rw [h]
    refine ⟨⟨data,pos + 1⟩,⟨rfl,hlt,hrest⟩,?_⟩
    simp [readBool,readU8,hb,bind,StateT.bind,Except.bind,run_pure,hnum]

theorem toNat_ofNat_ofBytes_two {b : Bytes} (h : b.length = 2) :
    (UInt16.ofNat (ofBytes b)).toNat = ofBytes b := by
  have hlt := ofBytes_lt b
  rw [h] at hlt
  exact UInt16.toNat_ofNat_of_lt' (by simpa using hlt)

/-- A string read is a length, a slice and the UTF-8 check, in that order. -/
theorem reads_str : Reads readString .str id := by
  intro data pos hpos
  have hlen := readSlice_agrees 2 data pos hpos
  change Agrees _ _ ((takeBytes 2 (data.drop pos)).bind _)
    (((readSlice 2 ⟨data,pos⟩).bind fun s => .ok (UInt16.ofNat (ofBytes s.1),s.2)).bind
      fun s => (readSlice s.1.toNat s.2).bind _)
  cases ht : takeBytes 2 (data.drop pos) with
  | short =>
    obtain ⟨expected,got,he⟩ := (ht ▸ hlen : Agrees _ _ .short _)
    rw [he]
    exact ⟨expected,got,rfl⟩
  | invalid =>
    have he := (ht ▸ hlen : Agrees _ _ .invalid _)
    rw [show readSlice 2 ⟨data,pos⟩ = _ from he]
    rfl
  | done len mid =>
    obtain ⟨⟨_,next⟩,⟨rfl,hn,rfl⟩,he⟩ := (ht ▸ hlen : Agrees _ _ (.done len mid) _)
    have hnum := toNat_ofNat_ofBytes_two (takeBytes_eq_done ht).1
    have hs := readSlice_agrees (ofBytes len) _ next hn
    rw [he]
    simp only [Parsed.done_bind,Except.bind,id_eq,hnum]
    cases hu : takeBytes (ofBytes len) (Reader.remaining ⟨_,next⟩) with
    | short =>
      obtain ⟨expected,got,he'⟩ := (hu ▸ hs : Agrees _ _ .short _)
      rw [he']
      exact ⟨expected,got,rfl⟩
    | invalid =>
      have he' := (hu ▸ hs : Agrees _ _ .invalid _)
      rw [show readSlice _ _ = _ from he']
      rfl
    | done bs rest =>
      obtain ⟨after,hstands,he'⟩ := (hu ▸ hs : Agrees _ _ (.done bs rest) _)
      rw [he']
      simp only [Parsed.done_bind,id_eq]
      cases ofUtf8 bs with
      | some s => exact ⟨after,hstands,rfl⟩
      | none => rfl

/-- The open tail of a payload. -/
theorem reads_remaining : ReadsTo (fun _ _ _ => True) readRemaining .rest id :=
  fun data pos _ => ⟨⟨data,pos⟩,trivial,rfl⟩

theorem ReadsTo.last {r : Read α} {g : f.Val → α} (h : Reads r f g) :
    ReadsTo (fun _ _ _ => True) r f g := by
  intro data pos hpos
  have hr := h data pos hpos
  cases hp : f.parse (data.drop pos) with
  | done v rest =>
    obtain ⟨after,_,he⟩ := (hp ▸ hr : Agrees _ _ (.done v rest) _)
    exact ⟨after,trivial,he⟩
  | short => exact (hp ▸ hr : Agrees _ _ .short _)
  | invalid => exact (hp ▸ hr : Agrees _ _ .invalid _)

/-! ## Records and payloads -/

theorem reads_participant : Reads ParticipantInfo.read participantFormat ParticipantInfo.ofVal :=
  reads_u64.bind fun userId => reads_str.bind fun username => reads_bool.bind fun inVoice =>
    reads_bool.map (ParticipantInfo.mk userId username inVoice)

theorem readParticipants_agrees (count : ℕ) (data : Bytes) (pos : ℕ) (hpos : pos ≤ data.length) :
    Agrees (Stands data) (List.map ParticipantInfo.ofVal)
      (parseN participantFormat.parse count (data.drop pos)) (readParticipants count ⟨data,pos⟩) := by
  induction count generalizing pos with
  | zero => exact ⟨⟨data,pos⟩,⟨rfl,hpos,rfl⟩,rfl⟩
  | succ count ih =>
    have hp := reads_participant data pos hpos
    change Agrees _ _ ((participantFormat.parse (data.drop pos)).bind _)
      ((ParticipantInfo.read ⟨data,pos⟩).bind fun s => (readParticipants count s.2).bind _)
    cases hq : participantFormat.parse (data.drop pos) with
    | short =>
      obtain ⟨expected,got,he⟩ := (hq ▸ hp : Agrees _ _ .short _)
      rw [he]
      exact ⟨expected,got,rfl⟩
    | invalid =>
      have he := (hq ▸ hp : Agrees _ _ .invalid _)
      rw [show ParticipantInfo.read ⟨data,pos⟩ = _ from he]
      rfl
    | done v rest =>
      obtain ⟨⟨_,next⟩,⟨rfl,hn,rfl⟩,he⟩ := (hq ▸ hp : Agrees _ _ (.done v rest) _)
      have hi := ih next hn
      rw [he]
      simp only [Parsed.done_bind,Except.bind]
      change Agrees _ _ ((parseN participantFormat.parse count (Reader.remaining ⟨_,next⟩)).map _) _
      cases hc : parseN participantFormat.parse count (Reader.remaining ⟨_,next⟩) with
      | short =>
        obtain ⟨expected,got,he'⟩ := (hc ▸ hi : Agrees _ _ .short _)
        rw [he']
        exact ⟨expected,got,rfl⟩
      | invalid =>
        have he' := (hc ▸ hi : Agrees _ _ .invalid _)
        rw [show readParticipants count _ = _ from he']
        rfl
      | done vs rest =>
        obtain ⟨after,hstands,he'⟩ := (hc ▸ hi : Agrees _ _ (.done vs rest) _)
        rw [he']
        exact ⟨after,hstands,rfl⟩

/-- The counted loop over participants, under the constructor it feeds. -/
theorem reads_participantList (c : List ParticipantInfo → β) :
    Reads (do
      let count ← readU16
      return c (← readParticipants count.toNat)) (.list participantFormat)
      (fun vs => c (vs.map ParticipantInfo.ofVal)) := by
  intro data pos hpos
  have hlen := readSlice_agrees 2 data pos hpos
  change Agrees _ _ ((takeBytes 2 (data.drop pos)).bind _)
    (((readSlice 2 ⟨data,pos⟩).bind fun s => .ok (UInt16.ofNat (ofBytes s.1),s.2)).bind
      fun s => (readParticipants s.1.toNat s.2).bind _)
  cases ht : takeBytes 2 (data.drop pos) with
  | short =>
    obtain ⟨expected,got,he⟩ := (ht ▸ hlen : Agrees _ _ .short _)
    rw [he]
    exact ⟨expected,got,rfl⟩
  | invalid =>
    have he := (ht ▸ hlen : Agrees _ _ .invalid _)
    rw [show readSlice 2 ⟨data,pos⟩ = _ from he]
    rfl
  | done len mid =>
    obtain ⟨⟨_,next⟩,⟨rfl,hn,rfl⟩,he⟩ := (ht ▸ hlen : Agrees _ _ (.done len mid) _)
    have hnum := toNat_ofNat_ofBytes_two (takeBytes_eq_done ht).1
    have hs := (readParticipants_agrees (ofBytes len) _ next hn).map c
    rw [he]
    simp only [Parsed.done_bind,Except.bind,id_eq,hnum]
    cases hr : readParticipants (ofBytes len) ⟨_,next⟩ <;> rw [hr] at hs <;> exact hs

/-- Every arm of the reader match follows the layout of its packet type. -/
theorem readPayload_agrees (id : PacketId) :
    ReadsTo (fun _ _ _ => True) (Packet.readPayload id) (layout id) (Packet.ofVal id) := by
  have u64 {β : Type} (c : UInt64 → β) := (reads_u64.map c).last
  have pair {f : Format} {α β : Type} {r : Read α} {g : f.Val → α} (h : Reads r f g)
      (c : UInt64 → α → β) := reads_u64.bind fun a => (h.map (c a)).last
  cases id with
  | loginRequest => exact pair reads_str Packet.loginRequest
  | joinVoiceChannelRequest => exact u64 Packet.joinVoiceChannelRequest
  | voiceAuthRequest => exact pair reads_u64 Packet.voiceAuthRequest
  | leaveVoiceChannelRequest => exact u64 Packet.leaveVoiceChannelRequest
  | chatMessageRequest => exact pair reads_str Packet.chatMessageRequest
  | pingRequest => exact u64 Packet.pingRequest
  | loginResponse =>
    exact reads_u64.bind fun requestId => reads_u64.bind fun id => reads_u64.bind fun voiceToken =>
      (reads_participantList (Packet.loginResponse requestId id voiceToken)).last
  | voiceAuthResponse => exact pair reads_bool Packet.voiceAuthResponse
  | joinVoiceChannelResponse => exact pair reads_bool Packet.joinVoiceChannelResponse
  | leaveVoiceChannelResponse => exact pair reads_bool Packet.leaveVoiceChannelResponse
  | chatMessageResponse => exact pair reads_bool Packet.chatMessageResponse
  | pingResponse => exact u64 Packet.pingResponse
  | userJoinedServer => exact (reads_participant.map Packet.userJoinedServer).last
  | userJoinedVoice => exact u64 Packet.userJoinedVoice
  | userLeftVoice => exact u64 Packet.userLeftVoice
  | userLeftServer => exact u64 Packet.userLeftServer
  | userSentMessage =>
    exact reads_u64.bind fun userId => reads_u64.bind fun timestamp =>
      (reads_str.map (Packet.userSentMessage userId timestamp)).last
  | userMuteState => exact pair reads_bool Packet.userMuteState
  | voiceData =>
    exact reads_u64.bind fun userId => reads_u32.bind fun sequence => reads_u32.bind fun timestamp =>
      reads_remaining.map (Packet.voiceData userId sequence timestamp)

end VoiceApp.Protocol
