import VoiceApp.Base.LabelledRun
import VoiceApp.Sdk.VoiceOutputs

/-! # The output streams and their decoders

An output stream holds the decoder that its user had when it was opened, and the client
feeds the decoder that the user has now. Both are the same as long as no stream fails to open
behind a decoder that has just replaced that of an open stream.
-/
namespace VoiceApp.Desktop
open Protocol Sdk

/-- An open stream: the sample rate it was opened at, and what it plays. -/
structure OutputStream where
  sampleRate : UInt32
  decoder : ℕ
  deriving DecidableEq

structure Playback (N : Type) where
  voiceOutputs : VoiceOutputs N
  outputStreams : Table UInt64 OutputStream

namespace Playback
variable {N D R F : Type}

def new : Playback N := ⟨.new,∅⟩

/-- `create_output_stream_for_user` with the sample rate of the configured device; `opens` is
what opening the stream comes to. -/
def createOutputStreamForUser (newDecoder : UInt32 → Except DecoderError N) (opens : Except String Unit)
    (sampleRate : UInt32) (p : Playback N) (userId : UInt64) : Except String Unit × Playback N :=
  match p.voiceOutputs.getOrCreateVoiceOutput newDecoder userId sampleRate with
  | (.error e,o) => (.error e.toString,{ p with voiceOutputs := o })
  | (.ok decoder,o) =>
    match opens with
    | .error e => (.error e,{ p with voiceOutputs := o })
    | .ok () => (.ok (),⟨o,p.outputStreams.insert userId ⟨sampleRate,decoder⟩⟩)

def removeOutputStreamForUser (p : Playback N) (userId : UInt64) : Playback N :=
  ⟨p.voiceOutputs.removeVoiceOutputFor userId,p.outputStreams.erase userId⟩

def removeAllOutputStreams (p : Playback N) : Playback N := ⟨p.voiceOutputs.removeAllVoiceOutputs,∅⟩

/-- What the application, the client and the callbacks of the streams do. -/
inductive Label (N F : Type)
  | create (newDecoder : UInt32 → Except DecoderError N) (opens : Except String Unit)
      (sampleRate : UInt32) (userId : UInt64)
  | remove (userId : UInt64)
  | removeAll
  | receive (packet : Packet)
  | play (userId : UInt64) (audio : Except DecoderError (List F))

inductive Step (neteq : NetEq N D R F) (p : Playback N) : Label N F → Playback N → Prop
  | create {newDecoder opens sampleRate userId} :
      Step neteq p (.create newDecoder opens sampleRate userId)
        (p.createOutputStreamForUser newDecoder opens sampleRate userId).2
  | remove {userId} : Step neteq p (.remove userId) (p.removeOutputStreamForUser userId)
  | removeAll : Step neteq p .removeAll p.removeAllOutputStreams
  | receive {packet} : Step neteq p (.receive packet)
      { p with voiceOutputs := p.voiceOutputs.processIncomingPacket neteq packet }
  | play {userId stream o audio} (hs : p.outputStreams.lookup userId = some stream)
      (ha : p.voiceOutputs.getDecodedAudio neteq stream.decoder = some (o,audio)) :
      Step neteq p (.play userId audio) { p with voiceOutputs := o }

/-- Every stream plays the decoder that its user's packets go to, at the rate it was made for. -/
structure Matched (p : Playback N) : Prop where
  separate : p.voiceOutputs.Separate
  fed : ∀ userId stream, p.outputStreams.lookup userId = some stream →
    p.voiceOutputs.table.lookup userId = some (stream.sampleRate,stream.decoder)

/-- A stream that does not open has no open one before it whose decoder is replaced. -/
def Careful (p : Playback N) : Label N F → Prop
  | .create newDecoder (.error _) sampleRate userId => ∀ stream,
    p.outputStreams.lookup userId = some stream →
    stream.sampleRate = sampleRate ∨ ∃ e, newDecoder sampleRate = .error e
  | _ => True

/-! ## One user -/

/-- Whether a label is about the user. -/
def concerns (userId : UInt64) : Label N F → Bool
  | .create _ _ _ id => id == userId
  | .remove id => id == userId
  | .removeAll => true
  | .receive (.voiceData id _ _ _) => id == userId
  | .receive _ => false
  | .play id _ => id == userId

/-- What a label about a user makes of the user's decoder and its rate. -/
def userStep (neteq : NetEq N D R F) (v : Option (UInt32 × N)) : Label N F → Option (UInt32 × N)
  | .create newDecoder _ sampleRate _ =>
    if v.map Prod.fst = some sampleRate then v
    else
      match newDecoder sampleRate with
      | .ok decoder => some (sampleRate,decoder)
      | .error _ => v
  | .remove _ => none
  | .removeAll => none
  | .receive (.voiceData userId sequence timestamp data) => v.map fun (rate,decoder) =>
    (rate,(Decoder.consumeVoiceData neteq decoder ⟨sequence,userId,timestamp,data⟩).1)
  | .receive _ => v
  | .play _ _ => v.map fun (rate,decoder) => (rate,(Decoder.getDecodedAudio neteq decoder).1)

section Proofs
variable {neteq : NetEq N D R F} {p p' : Playback N} {label : Label N F}

theorem matched_new : Matched (new : Playback N) :=
  ⟨Cells.separate_new,fun userId stream h => by simp [new] at h⟩

/-- Opening a stream does with the decoders what asking for the decoder does. -/
theorem createOutputStreamForUser_voiceOutputs (p : Playback N) (newDecoder : UInt32 → Except DecoderError N)
    (opens : Except String Unit) (sampleRate : UInt32) (userId : UInt64) :
    (p.createOutputStreamForUser newDecoder opens sampleRate userId).2.voiceOutputs =
      (p.voiceOutputs.getOrCreateVoiceOutput newDecoder userId sampleRate).2 := by
  unfold createOutputStreamForUser
  split
  · rename_i heq
    rw [heq]
  · rename_i heq
    rw [heq]
    cases opens <;> rfl

/-- Opening a stream leaves those of other users alone. -/
theorem createOutputStreamForUser_lookup (p : Playback N) (newDecoder : UInt32 → Except DecoderError N)
    (opens : Except String Unit) (sampleRate : UInt32) {userId id : UInt64} (hid : id ≠ userId) :
    (p.createOutputStreamForUser newDecoder opens sampleRate userId).2.outputStreams.lookup id =
      p.outputStreams.lookup id := by
  unfold createOutputStreamForUser
  split
  · rfl
  · cases opens with
    | error => rfl
    | ok => exact (Table.lookup_insert_eq ..).trans (if_neg hid)

theorem createOutputStreamForUser_opens (p : Playback N) {newDecoder : UInt32 → Except DecoderError N}
    {sampleRate : UInt32} (hnew : ∃ decoder, newDecoder sampleRate = .ok decoder) (userId : UInt64) :
    ∃ stream, (p.createOutputStreamForUser newDecoder (.ok ()) sampleRate userId).2.outputStreams.lookup
      userId = some stream := by
  obtain ⟨decoder,hnew⟩ := hnew
  unfold createOutputStreamForUser
  rcases p.voiceOutputs.getOrCreateVoiceOutput_cases newDecoder userId sampleRate with
    ⟨d,_,heq⟩ | ⟨_,⟨e,hfail,_⟩ | ⟨_,_,heq⟩⟩
  · rw [heq]
    exact ⟨_,(Table.lookup_insert_eq ..).trans (if_pos rfl)⟩
  · cases hnew.symm.trans hfail
  · rw [heq]
    exact ⟨_,(Table.lookup_insert_eq ..).trans (if_pos rfl)⟩

theorem step_separate (h : p.voiceOutputs.Separate) (hs : Step neteq p label p') :
    p'.voiceOutputs.Separate := by
  cases hs with
  | @create newDecoder opens sampleRate id =>
    rw [createOutputStreamForUser_voiceOutputs]
    rcases p.voiceOutputs.getOrCreateVoiceOutput_cases newDecoder id sampleRate with
      ⟨_,_,heq⟩ | ⟨_,⟨_,_,heq⟩ | ⟨_,_,heq⟩⟩
    · rw [heq]
      exact h
    · rw [heq]
      exact h
    · rw [heq]
      exact h.alloc _ _ _
  | remove => exact h.erase _
  | removeAll => exact Cells.separate_clear _
  | receive => exact (VoiceOutputs.processIncomingPacket_separate h neteq _).1
  | play hstream ha =>
    obtain ⟨decoder,_,heq⟩ := Option.map_eq_some_iff.mp ha
    cases heq
    exact h.setCell _ _

/-- A decoder that no user has any more is never a user's again. -/
theorem step_unreached {n : ℕ} (h : p.voiceOutputs.Unreached n) (hs : Step neteq p label p') :
    p'.voiceOutputs.Unreached n := by
  cases hs with
  | @create newDecoder opens sampleRate id =>
    rw [createOutputStreamForUser_voiceOutputs]
    rcases p.voiceOutputs.getOrCreateVoiceOutput_cases newDecoder id sampleRate with
      ⟨_,_,heq⟩ | ⟨_,⟨_,_,heq⟩ | ⟨_,_,heq⟩⟩
    · rw [heq]
      exact h
    · rw [heq]
      exact h
    · rw [heq]
      exact h.alloc _ _ _
  | remove => exact h.erase _
  | removeAll => exact h.clear
  | receive => exact VoiceOutputs.processIncomingPacket_unreached h neteq _
  | play hstream ha =>
    obtain ⟨decoder,_,heq⟩ := Option.map_eq_some_iff.mp ha
    cases heq
    exact h.setCell _ _

theorem step_value (h : Matched p) (hs : Step neteq p label p') (userId : UInt64) :
    p'.voiceOutputs.value userId =
      if concerns userId label then userStep neteq (p.voiceOutputs.value userId) label
      else p.voiceOutputs.value userId := by
  cases hs with
  | @create newDecoder opens sampleRate id =>
    rw [createOutputStreamForUser_voiceOutputs]
    by_cases hid : id = userId
    · subst hid
      simp only [concerns,beq_self_eq_true,if_true,userStep]
      rw [h.separate.value_tag]
      rcases p.voiceOutputs.getOrCreateVoiceOutput_cases newDecoder id sampleRate with
        ⟨decoder,hl,heq⟩ | ⟨hne,⟨e,hnew,heq⟩ | ⟨decoder,hnew,heq⟩⟩
      · rw [heq,hl,Option.map_some,if_pos rfl]
      · rw [heq,if_neg hne,hnew]
      · rw [heq,if_neg hne,hnew]
        exact (Cells.value_alloc h.separate id id sampleRate decoder).trans (if_pos rfl)
    · have hconcerns : concerns userId (.create newDecoder opens sampleRate id : Label N F) = false :=
        beq_eq_false_iff_ne.mpr hid
      rw [hconcerns]
      rcases p.voiceOutputs.getOrCreateVoiceOutput_cases newDecoder id sampleRate with
        ⟨decoder,hl,heq⟩ | ⟨hne,⟨e,hnew,heq⟩ | ⟨decoder,hnew,heq⟩⟩
      · rw [heq]
        rfl
      · rw [heq]
        rfl
      · rw [heq]
        exact (Cells.value_alloc h.separate id userId sampleRate decoder).trans (if_neg (Ne.symm hid))
  | @remove id =>
    change (p.voiceOutputs.erase id).value userId = _
    rw [Cells.value_erase]
    by_cases hid : id = userId
    · subst hid
      simp [concerns,userStep]
    · rw [if_neg (Ne.symm hid)]
      simp [concerns,hid]
  | removeAll => exact Cells.value_clear _ _
  | @receive packet =>
    cases packet with
    | voiceData id sequence timestamp data =>
      change (p.voiceOutputs.processIncomingPacket neteq (.voiceData id sequence timestamp data)).value
        userId = _
      rw [VoiceOutputs.processIncomingPacket_value h.separate]
      by_cases hid : id = userId
      · subst hid
        simp [concerns,userStep]
      · rw [if_neg (Ne.symm hid)]
        simp [concerns,hid]
    | _ => rfl
  | @play id stream o audio hstream ha =>
    have hfed := h.fed id stream hstream
    obtain ⟨decoder,hd,hv⟩ := h.separate.exists_value hfed
    rw [VoiceOutputs.getDecodedAudio,hd,Option.map_some] at ha
    cases ha
    change (p.voiceOutputs.setCell stream.decoder _).value userId = _
    rw [Cells.value_setCell h.separate hfed]
    by_cases hid : id = userId
    · subst hid
      simp only [concerns,beq_self_eq_true,if_true,userStep,hv,Option.map_some]
      rfl
    · rw [if_neg (Ne.symm hid)]
      simp [concerns,hid]

/-- A stream that opens plays the decoder it was opened for. -/
theorem Matched.opened (h : Matched p) {o : VoiceOutputs N} {userId : UInt64} {sampleRate : UInt32}
    {decoder : ℕ} (hseparate : o.Separate) (hl : o.table.lookup userId = some (sampleRate,decoder))
    (hothers : ∀ id, id ≠ userId → o.table.lookup id = p.voiceOutputs.table.lookup id) :
    Matched ⟨o,p.outputStreams.insert userId ⟨sampleRate,decoder⟩⟩ := by
  refine ⟨hseparate,fun id stream hstream => ?_⟩
  change Finmap.lookup id (p.outputStreams.insert userId _) = _ at hstream
  rw [Table.lookup_insert_eq] at hstream
  split at hstream
  · rename_i hid
    cases hstream
    rw [hid]
    exact hl
  · rename_i hid
    exact (hothers id hid).trans (h.fed id stream hstream)

theorem alloc_lookup (o : VoiceOutputs N) (userId id : UInt64) (sampleRate : UInt32) (decoder : N) :
    (o.alloc userId sampleRate decoder).table.lookup id =
      if id = userId then some (sampleRate,o.cells.length) else o.table.lookup id :=
  Table.lookup_insert_eq _ _ _ _

theorem create_matched_iff (h : Matched p) (newDecoder : UInt32 → Except DecoderError N)
    (opens : Except String Unit) (sampleRate : UInt32) (userId : UInt64) :
    Matched (p.createOutputStreamForUser newDecoder opens sampleRate userId).2 ↔
      p.Careful (.create newDecoder opens sampleRate userId : Label N F) := by
  unfold createOutputStreamForUser
  rcases p.voiceOutputs.getOrCreateVoiceOutput_cases newDecoder userId sampleRate with
    ⟨decoder,hl,heq⟩ | ⟨hne,⟨e,hnew,heq⟩ | ⟨decoder,hnew,heq⟩⟩
  · rw [heq]
    cases opens with
    | ok => exact iff_of_true (h.opened h.separate hl fun _ _ => rfl) trivial
    | error e =>
      refine iff_of_true h fun stream hstream => ?_
      cases hl.symm.trans (h.fed userId stream hstream)
      exact .inl rfl
  · rw [heq]
    cases opens with
    | ok => exact iff_of_true h trivial
    | error e' => exact iff_of_true h fun _ _ => .inr ⟨e,hnew⟩
  · rw [heq]
    have hother : ∀ id, id ≠ userId → (p.voiceOutputs.alloc userId sampleRate decoder).table.lookup id =
      p.voiceOutputs.table.lookup id := fun id hid => (alloc_lookup ..).trans (if_neg hid)
    have hseparate := h.separate.alloc userId sampleRate decoder
    cases opens with
    | ok => exact iff_of_true (h.opened hseparate ((alloc_lookup ..).trans (if_pos rfl)) hother) trivial
    | error e =>
      -- the old stream keeps the old decoder, if there is one
      constructor
      · intro h' stream hstream
        have hfed := h'.fed userId stream hstream
        change (p.voiceOutputs.alloc userId sampleRate decoder).table.lookup userId = _ at hfed
        rw [alloc_lookup,if_pos rfl] at hfed
        exact .inl (congrArg Prod.fst (Option.some.inj hfed)).symm
      · intro hcareful
        refine ⟨hseparate,fun id stream hstream => ?_⟩
        by_cases hid : id = userId
        · subst hid
          rcases hcareful stream hstream with hrate | ⟨e',hfail⟩
          · rw [h.fed id stream hstream,hrate] at hne
            exact (hne rfl).elim
          · cases hnew.symm.trans hfail
        · exact (hother id hid).trans (h.fed id stream hstream)

/-- A careful step keeps each stream with its user's decoder, and no other does. -/
theorem step_matched_iff (h : Matched p) (hs : Step neteq p label p') :
    Matched p' ↔ p.Careful label := by
  cases hs with
  | create => exact create_matched_iff h _ _ _ _
  | @remove id =>
    refine iff_of_true ⟨h.separate.erase id,fun userId stream hl => ?_⟩ trivial
    change Finmap.lookup userId (p.outputStreams.erase id) = _ at hl
    change Finmap.lookup userId (p.voiceOutputs.table.erase id) = _
    rw [Table.lookup_erase_eq] at hl ⊢
    split at hl
    · cases hl
    · rw [if_neg ‹_›]
      exact h.fed userId stream hl
  | removeAll =>
    refine iff_of_true ⟨Cells.separate_clear _,fun userId stream hl => ?_⟩ trivial
    simp [removeAllOutputStreams] at hl
  | @receive packet =>
    obtain ⟨hseparate,htable⟩ :=
      VoiceOutputs.processIncomingPacket_separate h.separate neteq packet
    refine iff_of_true ⟨hseparate,fun userId stream hl => ?_⟩ trivial
    change (p.voiceOutputs.processIncomingPacket neteq packet).table.lookup userId = _
    rw [htable]
    exact h.fed userId stream hl
  | @play id stream o audio hstream ha =>
    obtain ⟨decoder,_,heq⟩ := Option.map_eq_some_iff.mp ha
    cases heq
    exact iff_of_true ⟨h.separate.setCell _ _,h.fed⟩ trivial

theorem run_matched {trace : List (Label N F)} (h : Run (Guarded Careful (Step neteq)) new trace p) :
    Matched p :=
  h.preserves (fun _ _ _ ht hs => (step_matched_iff ht hs.2).mpr hs.1) matched_new

/-- A careless step leaves an open stream with a decoder that no user has any more. -/
theorem careless_unreached (h : Matched p) (hs : Step neteq p label p') (hcareless : ¬p.Careful label) :
    ∃ userId stream, p'.outputStreams.lookup userId = some stream ∧
      p'.voiceOutputs.Unreached stream.decoder := by
  cases hs with
  | @create newDecoder opens sampleRate userId =>
    cases opens with
    | ok => exact (hcareless trivial).elim
    | error e =>
      simp only [Careful,not_forall,not_or] at hcareless
      obtain ⟨stream,hstream,hrate,hnew⟩ := hcareless
      have hfed := h.fed userId stream hstream
      unfold createOutputStreamForUser
      rcases p.voiceOutputs.getOrCreateVoiceOutput_cases newDecoder userId sampleRate with
        ⟨decoder,hl,_⟩ | ⟨_,⟨e',hfail,_⟩ | ⟨decoder,_,heq⟩⟩
      · cases hl.symm.trans hfed
        exact (hrate rfl).elim
      · exact (hnew ⟨e',hfail⟩).elim
      · rw [heq]
        exact ⟨userId,stream,hstream,h.separate.alloc_unreached hfed _ _⟩
  | _ => exact (hcareless trivial).elim

/-- As long as no stream fails to open behind a decoder that replaces that of an open one,
every stream plays what its user's packets go to; and such a failure is all that ends it.
Behind it a stream stays open whose decoder gets no packet again. -/
theorem streams_fed_iff {trace : List (Label N F)}
    (h : Run (Guarded Careful (Step neteq)) new trace p) (hs : Step neteq p label p') :
    ((∀ userId stream, p'.outputStreams.lookup userId = some stream →
      p'.voiceOutputs.table.lookup userId = some (stream.sampleRate,stream.decoder)) ↔ p.Careful label) ∧
    (¬p.Careful label → ∃ userId stream, p'.outputStreams.lookup userId = some stream ∧
      ∀ later q, Run (Step neteq) p' later q → ∀ id sampleRate,
        q.voiceOutputs.table.lookup id ≠ some (sampleRate,stream.decoder)) := by
  have hmatched := run_matched h
  constructor
  · rw [← step_matched_iff hmatched hs]
    exact ⟨fun hfed => ⟨step_separate hmatched.separate hs,hfed⟩,fun h => h.fed⟩
  · intro hcareless
    obtain ⟨userId,stream,hstream,hunreached⟩ := careless_unreached hmatched hs hcareless
    refine ⟨userId,stream,hstream,fun later q hlater => ?_⟩
    exact (hlater.preserves (P := fun q : Playback N => q.voiceOutputs.Unreached stream.decoder)
      (fun _ _ _ hn hs => step_unreached hn hs) hunreached).apart

/-- The decoder of a user is what the labels about the user make of it. -/
theorem run_value {trace : List (Label N F)} (h : Run (Guarded Careful (Step neteq)) new trace p)
    (userId : UInt64) :
    p.voiceOutputs.value userId = (trace.filter (concerns userId)).foldl (userStep neteq) none := by
  induction h with
  | refl => simp [new,Cells.new,Cells.value]
  | @snoc trace t label u hr hs ih =>
    rw [step_value (run_matched hr) hs.2,List.filter_append,List.foldl_append,← ih]
    cases hc : concerns userId label <;> simp [hc]

/-- What a stream plays is what a decoder of its own sample rate makes of the packets of its
user alone, from the time that the decoder was made. -/
theorem plays_own {trace : List (Label N F)} {userId : UInt64} {audio : Except DecoderError (List F)}
    (h : Run (Guarded Careful (Step neteq)) new trace p) (hs : Step neteq p (.play userId audio) p') :
    ∃ stream decoder, p.outputStreams.lookup userId = some stream ∧
      (trace.filter (concerns userId)).foldl (userStep neteq) none = some (stream.sampleRate,decoder) ∧
      audio = (Decoder.getDecodedAudio neteq decoder).2 := by
  have hmatched := run_matched h
  cases hs with
  | @play _ stream o _ hstream ha =>
    have hfed := hmatched.fed userId stream hstream
    obtain ⟨decoder,hd,hv⟩ := hmatched.separate.exists_value hfed
    rw [VoiceOutputs.getDecodedAudio,hd,Option.map_some] at ha
    cases ha
    exact ⟨stream,decoder,hstream,(run_value h userId).symm.trans hv,rfl⟩

end Proofs

/-! ## One listener -/

section Sample

/-- A jitter buffer that plays all payloads at once. -/
def payloadBuffer : NetEq (List AudioPacket) Unit Unit UInt8 where
  new _ := .ok []
  registerDecoder buffer _ _ := buffer
  insertPacket buffer packet := (buffer ++ [packet],.ok ())
  getAudio buffer := ([],.ok (buffer.flatMap AudioPacket.payload))

def emptyDecoder (_ : UInt32) : Except DecoderError (List AudioPacket) := .ok []

def listenLabels : List (Label (List AudioPacket) UInt8) :=
  [.create emptyDecoder (.ok ()) 48000 7,.receive (.voiceData 7 0 0 [1,2]),
    .receive (.voiceData 9 0 0 [3]),.receive (.voiceData 7 1 960 [4])]

/-- The packets of user 7 are in the decoder that the stream plays. -/
def listened : Playback (List AudioPacket) :=
  ⟨⟨[[Decoder.createNeteqPacket ⟨0,7,0,[1,2]⟩,Decoder.createNeteqPacket ⟨1,7,960,[4]⟩]],
    (∅ : Table _ _).insert 7 (48000,0)⟩,(∅ : Table _ _).insert 7 ⟨48000,0⟩⟩

theorem listen_run : Run (Guarded Careful (Step payloadBuffer)) new listenLabels listened := by
  have hopen : Guarded Careful (Step payloadBuffer) new (.create emptyDecoder (.ok ()) 48000 7) _ :=
    ⟨trivial,.create⟩
  have hreceive : ∀ {p : Playback (List AudioPacket)} (packet : Packet),
    Guarded Careful (Step payloadBuffer) p (.receive packet) _ := fun _ => ⟨trivial,.receive⟩
  exact (((Run.single hopen).snoc (hreceive (.voiceData 7 0 0 [1,2]))).snoc
    (hreceive (.voiceData 9 0 0 [3]))).snoc (hreceive (.voiceData 7 1 960 [4]))

/-- User 9 is not heard on the stream of user 7. -/
theorem plays_own_listened : ∃ p', Step payloadBuffer listened (.play 7 (.ok [1,2,4])) p' ∧
    ∃ decoder : List AudioPacket,
      (listenLabels.filter (concerns 7)).foldl (userStep payloadBuffer) none = some (48000,decoder) ∧
      (.ok [1,2,4] : Except DecoderError (List UInt8)) = (Decoder.getDecodedAudio payloadBuffer decoder).2 := by
  have hplay : Step payloadBuffer listened (.play 7 (.ok [1,2,4])) _ := .play rfl rfl
  obtain ⟨stream,decoder,hstream,hown,haudio⟩ := plays_own listen_run hplay
  cases hstream
  exact ⟨_,hplay,decoder,hown,haudio⟩

/-- The next stream for user 7 has another rate and does not open: the open one goes silent. -/
theorem streams_fed_iff_listened : ∃ p', Step payloadBuffer listened
      (.create emptyDecoder (.error "device gone") 44100 7) p' ∧
    (¬∀ userId stream, p'.outputStreams.lookup userId = some stream →
      p'.voiceOutputs.table.lookup userId = some (stream.sampleRate,stream.decoder)) ∧
    ∃ userId stream, p'.outputStreams.lookup userId = some stream ∧
      ∀ later q, Run (Step payloadBuffer) p' later q → ∀ id sampleRate,
        q.voiceOutputs.table.lookup id ≠ some (sampleRate,stream.decoder) := by
  have hcareless : ¬listened.Careful (.create emptyDecoder (.error "device gone") 44100 7 : Label _ UInt8) := by
    intro hcareful
    rcases hcareful ⟨48000,0⟩ rfl with hrate | ⟨e,hfail⟩
    · cases hrate
    · cases hfail
  obtain ⟨hiff,hlost⟩ := streams_fed_iff listen_run .create
  exact ⟨_,.create,fun hfed => hcareless (hiff.mp hfed),hlost hcareless⟩

end Sample

end Playback
end VoiceApp.Desktop
