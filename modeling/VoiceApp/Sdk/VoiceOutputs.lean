import VoiceApp.Base.Cells
import VoiceApp.Sdk.InputPipeline

/-! # The decoders of a client

Every user that is listened to has a decoder with a jitter buffer, made for one sample rate.
A decoder is shared with whoever plays it. The jitter buffer, the codec and the resampler are
state machines of which nothing is known; no lock is poisoned.
-/
namespace VoiceApp.Sdk
open Protocol

def opusChannels : UInt8 := 1
def opusDecoderPacketId : UInt8 := 111

inductive DecoderError
  | decoderError (message : String)
  | resamplerError (message : String)
  deriving DecidableEq

def DecoderError.toString : DecoderError → String
  | decoderError message => "decoder error: " ++ message
  | resamplerError message => "resampler error: " ++ message

structure NetEqConfig where
  sampleRate : UInt32
  channels : UInt8

structure RtpHeader where
  sequenceNumber : UInt16
  timestamp : UInt32
  ssrc : UInt32
  payloadType : UInt8
  marker : Bool
  deriving DecidableEq

structure AudioPacket where
  header : RtpHeader
  payload : Bytes
  sampleRate : UInt32
  channels : UInt8
  durationMs : ℕ
  deriving DecidableEq

/-- The codec, the resampler and what makes them; `D` and `R` are their states. -/
structure OpusDecoder (D R F : Type) where
  new : UInt32 → UInt8 → Except String D
  decode : D → Bytes → D × Except String (List F)
  newResampler : UInt32 → UInt32 → ℕ → Except DecoderError R
  resample : R → List F → R × Except DecoderError (List F)

structure OpusResamplingDecoder (D R : Type) where
  opusDecoder : D
  resampler : Option R
  targetSampleRate : UInt32

namespace OpusResamplingDecoder
variable {D R F : Type}

def new (opus : OpusDecoder D R F) (sourceSampleRate targetSampleRate : UInt32) (channels : UInt8)
    (frameSize : ℕ) : Except DecoderError (OpusResamplingDecoder D R) := do
  let opusDecoder ← (opus.new sourceSampleRate channels).mapError .decoderError
  let resampler ←
    if targetSampleRate ≠ sourceSampleRate then
      some <$> opus.newResampler sourceSampleRate targetSampleRate frameSize
    else pure none
  return ⟨opusDecoder,resampler,targetSampleRate⟩

def decode (opus : OpusDecoder D R F) (d : OpusResamplingDecoder D R) (encoded : Bytes) :
    OpusResamplingDecoder D R × Except String (List F) :=
  match opus.decode d.opusDecoder encoded with
  | (opusDecoder,.error e) => ({ d with opusDecoder := opusDecoder },.error e)
  | (opusDecoder,.ok decoded) =>
    match d.resampler with
    | none => ({ d with opusDecoder := opusDecoder },.ok decoded)
    | some r =>
      let (r,resampled) := opus.resample r decoded
      ({ d with opusDecoder := opusDecoder, resampler := some r },resampled.mapError DecoderError.toString)

end OpusResamplingDecoder

/-- The jitter buffer; `N` is its state, with the registered decoders. -/
structure NetEq (N D R F : Type) where
  new : NetEqConfig → Except String N
  registerDecoder : N → UInt8 → OpusResamplingDecoder D R → N
  insertPacket : N → AudioPacket → N × Except String Unit
  getAudio : N → N × Except String (List F)

namespace Decoder
variable {N D R F : Type}

def new (opus : OpusDecoder D R F) (neteq : NetEq N D R F) (targetSampleRate : UInt32) :
    Except DecoderError N := do
  let buffer ← (neteq.new ⟨opusSampleRate,opusChannels⟩).mapError .decoderError
  let decoder ← (OpusResamplingDecoder.new opus opusSampleRate targetSampleRate opusChannels
    opusFrameSize).mapError fun e => .decoderError e.toString
  return neteq.registerDecoder buffer opusDecoderPacketId decoder

/-- The jitter buffer knows packets by the low half of their numbers. -/
def createNeteqPacket (packet : VoiceData) : AudioPacket where
  header := ⟨packet.sequence.toUInt16,packet.timestamp,0,opusDecoderPacketId,false⟩
  payload := packet.opusFrame
  sampleRate := opusSampleRate
  channels := opusChannels
  durationMs := opusFrameLengthMs

def consumeVoiceData (neteq : NetEq N D R F) (buffer : N) (packet : VoiceData) :
    N × Except DecoderError Unit :=
  let (buffer,result) := neteq.insertPacket buffer (createNeteqPacket packet)
  (buffer,result.mapError .decoderError)

def getDecodedAudio (neteq : NetEq N D R F) (buffer : N) : N × Except DecoderError (List F) :=
  let (buffer,audio) := neteq.getAudio buffer
  (buffer,audio.mapError .decoderError)

end Decoder

/-- Each user's decoder with its sample rate; a decoder is known by its place among all
decoders ever made. -/
abbrev VoiceOutputs (N : Type) := Cells UInt64 UInt32 N

namespace VoiceOutputs
variable {N D R F : Type}

/-- `newDecoder` is `Decoder::new` at the time of the call. -/
def getOrCreateVoiceOutput (newDecoder : UInt32 → Except DecoderError N) (o : VoiceOutputs N)
    (userId : UInt64) (outputSampleRate : UInt32) : Except DecoderError ℕ × VoiceOutputs N :=
  let create := match newDecoder outputSampleRate with
    | .ok decoder => (.ok o.cells.length,o.alloc userId outputSampleRate decoder)
    | .error e => (.error e,o)
  match o.table.lookup userId with
  | some (currentSampleRate,decoder) =>
    if currentSampleRate = outputSampleRate then (.ok decoder,o) else create
  | none => create

def removeVoiceOutputFor (o : VoiceOutputs N) (userId : UInt64) : VoiceOutputs N := o.erase userId

def removeAllVoiceOutputs (o : VoiceOutputs N) : VoiceOutputs N := o.clear

/-- One turn of `process_incoming_packets`; a packet that is refused is only logged. -/
def processIncomingPacket (neteq : NetEq N D R F) (o : VoiceOutputs N) : Packet → VoiceOutputs N
  | .voiceData userId sequence timestamp data =>
    match o.table.lookup userId with
    | some (_,d) =>
      match o.cells[d]? with
      | some decoder =>
        o.setCell d (Decoder.consumeVoiceData neteq decoder ⟨sequence,userId,timestamp,data⟩).1
      | none => o
    | none => o
  | _ => o

/-- `get_decoded_audio` of the decoder at this place. -/
def getDecodedAudio (neteq : NetEq N D R F) (o : VoiceOutputs N) (d : ℕ) :
    Option (VoiceOutputs N × Except DecoderError (List F)) :=
  (o.cells[d]?).map fun decoder =>
    let (decoder,audio) := Decoder.getDecodedAudio neteq decoder
    (o.setCell d decoder,audio)

/-- The decoder of a user is taken as it is if it has the rate, and else made anew. -/
theorem getOrCreateVoiceOutput_cases (newDecoder : UInt32 → Except DecoderError N) (o : VoiceOutputs N)
    (userId : UInt64) (rate : UInt32) :
    (∃ decoder, o.table.lookup userId = some (rate,decoder) ∧
      o.getOrCreateVoiceOutput newDecoder userId rate = (.ok decoder,o)) ∨
    (o.table.lookup userId).map Prod.fst ≠ some rate ∧
      ((∃ e, newDecoder rate = .error e ∧
        o.getOrCreateVoiceOutput newDecoder userId rate = (.error e,o)) ∨
      ∃ decoder, newDecoder rate = .ok decoder ∧
        o.getOrCreateVoiceOutput newDecoder userId rate =
          (.ok o.cells.length,o.alloc userId rate decoder)) := by
  unfold getOrCreateVoiceOutput
  cases hl : o.table.lookup userId with
  | none =>
    refine .inr ⟨by simp,?_⟩
    cases hnew : newDecoder rate with
    | error e => exact .inl ⟨e,rfl,rfl⟩
    | ok decoder => exact .inr ⟨decoder,rfl,rfl⟩
  | some entry =>
    obtain ⟨current,decoder⟩ := entry
    by_cases hrate : current = rate
    · subst hrate
      exact .inl ⟨decoder,rfl,if_pos rfl⟩
    · refine .inr ⟨by simpa using hrate,?_⟩
      simp only [if_neg hrate]
      cases hnew : newDecoder rate with
      | error e => exact .inl ⟨e,rfl,rfl⟩
      | ok decoder => exact .inr ⟨decoder,rfl,rfl⟩

/-- A packet goes to the decoder of its user. -/
theorem processIncomingPacket_value {o : VoiceOutputs N} (h : o.Separate) (neteq : NetEq N D R F)
    (userId : UInt64) (sequence timestamp : UInt32) (data : Bytes) (id : UInt64) :
    (o.processIncomingPacket neteq (.voiceData userId sequence timestamp data)).value id =
      if id = userId then (o.value userId).map fun (rate,decoder) =>
        (rate,(Decoder.consumeVoiceData neteq decoder ⟨sequence,userId,timestamp,data⟩).1)
      else o.value id := by
  cases hl : o.table.lookup userId with
  | none =>
    simp only [processIncomingPacket,hl,Cells.value_eq_none hl,Option.map_none]
    split
    · rename_i hid
      rw [hid,Cells.value_eq_none hl]
    · rfl
  | some entry =>
    obtain ⟨rate,d⟩ := entry
    obtain ⟨decoder,hd,hv⟩ := h.exists_value hl
    simp only [processIncomingPacket,hl,hd,hv,Option.map_some]
    exact Cells.value_setCell h hl id _

theorem processIncomingPacket_separate {o : VoiceOutputs N} (h : o.Separate) (neteq : NetEq N D R F)
    (packet : Packet) : (o.processIncomingPacket neteq packet).Separate ∧
      (o.processIncomingPacket neteq packet).table = o.table := by
  unfold processIncomingPacket
  split
  · split
    · split
      · exact ⟨h.setCell _ _,rfl⟩
      · exact ⟨h,rfl⟩
    · exact ⟨h,rfl⟩
  · exact ⟨h,rfl⟩

theorem processIncomingPacket_unreached {o : VoiceOutputs N} {n : ℕ} (h : o.Unreached n) (neteq : NetEq N D R F)
    (packet : Packet) : (o.processIncomingPacket neteq packet).Unreached n := by
  unfold processIncomingPacket
  split
  · split
    · split
      · exact h.setCell _ _
      · exact h
    · exact h
  · exact h

end VoiceOutputs
end VoiceApp.Sdk
