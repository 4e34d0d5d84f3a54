import VoiceApp.Base.Blocks
import VoiceApp.Protocol.RoundTrip

/-! # The voice input pipeline

Samples are resampled in chunks of one size and encoded in frames of another, each time
with what is left over carried to the next input frame. The Opus codec and the resampler
are state machines of which nothing is known but that the codec writes at most as many
bytes as it is given room for.
-/
namespace VoiceApp.Sdk
open Protocol Framing

def opusSampleRate : UInt32 := 48000
def opusFrameLengthMs : ℕ := 20

/-- `OPUS_SAMPLE_RATE / 1000 * OPUS_FRAME_LENGTH_MS` -/
def opusFrameSize : ℕ := opusSampleRate.toNat / 1000 * opusFrameLengthMs

def resamplerChunkSize : ℕ := 480

/-- The room that `encode` makes for one encoded frame. -/
def maxOpusFrame : ℕ := 4000

inductive VoiceError
  | encoderError (message : String)
  | resamplerError (message : String)
  | invalidInput (message : String)
  deriving DecidableEq

/-- The codec; `S` is its state and `F` the type of a sample. -/
structure OpusEncoder (S F : Type) where
  encodeFloat : S → List F → Except String (S × Bytes)
  length_le : ∀ {s samples s' data}, encodeFloat s samples = .ok (s',data) → data.length ≤ maxOpusFrame

/-- The resampler; a chunk that fails may still move its state. -/
structure AudioResampler (R F : Type) where
  resample : R → List F → R × Except VoiceError (List F)

structure VoiceData where
  sequence : UInt32
  userId : UInt64
  timestamp : UInt32
  opusFrame : Bytes
  deriving DecidableEq

/-- The packet that `encode_and_send` makes of it. -/
def VoiceData.packet (d : VoiceData) : Packet := .voiceData d.userId d.sequence d.timestamp d.opusFrame

structure Encoder (S : Type) where
  encoder : S
  sequence : UInt32
  timestamp : UInt32

namespace Encoder
variable {S F : Type} [Zero F]

def new (s : S) : Encoder S := ⟨s,0,0⟩

def encode (opus : OpusEncoder S F) (e : Encoder S) (samples : List F) :
    Except VoiceError (VoiceData × Encoder S) :=
  if opusFrameSize < samples.length then
    .error (.invalidInput s!"samples ({samples.length}) exceed frame size ({opusFrameSize})")
  else
    -- pad with zeros to reach frame size
    match opus.encodeFloat e.encoder (samples ++ List.replicate (opusFrameSize - samples.length) 0) with
    | .error message => .error (.encoderError ("Failed to encode Opus frame: " ++ message))
    | .ok (encoder,opusFrame) =>
      .ok (⟨e.sequence,0,e.timestamp,opusFrame⟩,
        ⟨encoder,e.sequence + 1,e.timestamp + UInt32.ofNat opusFrameSize⟩)

end Encoder

/-- Why the pipeline's task ends; `panic` stands for a packet that cannot be encoded. -/
inductive Stop
  | encodingError
  | sendChannelClosed
  | panic
  deriving DecidableEq

/-- The encoder and everything put on the UDP queue so far. -/
structure Sending (S : Type) where
  encoder : Encoder S
  sent : List Bytes

abbrev SendM (S : Type) := ExceptT Stop (StateM (Sending S))

section Code
variable {S R F : Type} [Zero F] (opus : OpusEncoder S F) (rubato : AudioResampler R F)
  -- how many packets the UDP queue takes before its receiver is gone
  (closesAfter : Option ℕ)

/-- `resampler.resample(input_chunk)` and what `resample` does with the result. -/
def resampleChunk (chunk : List F) : StateM (R × List F) Unit := fun (r,encodeBuffer) =>
  match rubato.resample r chunk with
  | (r',.ok resampled) => ((),r',encodeBuffer ++ resampled)
  | (r',.error _) => ((),r',encodeBuffer)

/-- One turn of the loop of `encode_and_send`. -/
def encodeFrame (frame : List F) : SendM S Unit := ExceptT.mk fun t =>
  match t.encoder.encode opus frame with
  | .error _ => (.error .encodingError,t)
  | .ok (voiceData,encoder) =>
    match voiceData.packet.encode with
    | none => (.error .panic,{ t with encoder := encoder })
    | some data =>
      if closesAfter.all (t.sent.length < ·) then (.ok (),⟨encoder,t.sent ++ [data]⟩)
      else (.error .sendChannelClosed,{ t with encoder := encoder })

/-- The chunks that `resample` takes off its buffer. -/
abbrev chunksOf : Framer F (List F) Unit := blocks resamplerChunkSize (by decide)

/-- The frames that `encode_and_send` takes off its buffer. -/
abbrev framesOf : Framer F (List F) Unit := blocks opusFrameSize (by decide)

/-- What the pipeline's task keeps between two input frames. -/
structure InputPipeline (S R F : Type) where
  encoder : Encoder S
  resampler : Option R
  resampleBuffer : List F
  encodeBuffer : List F

namespace InputPipeline

def new (s : S) (resampler : Option R) : InputPipeline S R F := ⟨.new s,resampler,[],[]⟩

/-- `resample`: chunks of the resample buffer go through the resampler, if there is one. -/
def resample (p : InputPipeline S R F) (frame : List F) : InputPipeline S R F :=
  match p.resampler with
  | some r =>
    let (resampleBuffer,r,encodeBuffer) :=
      (chunksOf.drain (resampleChunk rubato) (p.resampleBuffer ++ frame)).run (r,p.encodeBuffer)
    { p with resampler := some r, resampleBuffer := resampleBuffer, encodeBuffer := encodeBuffer }
  | none => { p with encodeBuffer := p.encodeBuffer ++ frame }

/-- `encode_and_send`: frames are taken off the encode buffer until one fails. -/
def encodeAndSend (encodeBuffer : List F) : SendM S (List F) :=
  framesOf.drain (encodeFrame opus closesAfter) encodeBuffer

end InputPipeline

/-- The task: what it keeps while it runs, and everything it has put on the UDP queue. -/
structure PipelineTask (S R F : Type) where
  status : Except Stop (InputPipeline S R F)
  sent : List Bytes

namespace PipelineTask

def new (s : S) (resampler : Option R) : PipelineTask S R F := ⟨.ok (.new s resampler),[]⟩

/-- One turn of the loop of `pipeline_task`. -/
def recv (t : PipelineTask S R F) (frame : List F) : PipelineTask S R F :=
  match t.status with
  | .error _ => t
  | .ok p =>
    let p := p.resample rubato frame
    match (InputPipeline.encodeAndSend opus closesAfter p.encodeBuffer).run.run ⟨p.encoder,t.sent⟩ with
    | (.ok encodeBuffer,s) => ⟨.ok { p with encoder := s.encoder, encodeBuffer := encodeBuffer },s.sent⟩
    | (.error e,s) => ⟨.error e,s.sent⟩

/-- `pipeline_task` on these input frames. -/
def run (s : S) (resampler : Option R) (frames : List (List F)) : PipelineTask S R F :=
  frames.foldl (recv opus rubato closesAfter) (new s resampler)

end PipelineTask
end Code

section Lemmas
variable {S R F : Type} [Zero F] {opus : OpusEncoder S F} {closesAfter : Option ℕ}

/-- The packet carries the counters of the encoder, and they move on. -/
theorem Encoder.encode_counters {e e' : Encoder S} {samples : List F} {d : VoiceData}
    (h : e.encode opus samples = .ok (d,e')) :
    d.sequence = e.sequence ∧ d.timestamp = e.timestamp ∧ e'.sequence = e.sequence + 1 ∧
      e'.timestamp = e.timestamp + UInt32.ofNat opusFrameSize := by
  unfold Encoder.encode at h
  split at h
  · cases h
  · split at h
    · cases h
    · cases h
      exact ⟨rfl,rfl,rfl,rfl⟩

theorem encodeFrame_error {t : Sending S} {frame : List F} {e : VoiceError}
    (h : t.encoder.encode opus frame = .error e) :
    (encodeFrame opus closesAfter frame).run.run t = (.error .encodingError,t) := by
  change (match t.encoder.encode opus frame with | .error _ => _ | .ok (_,_) => _) = _
  rw [h]

theorem encodeFrame_ok {t : Sending S} {frame : List F} {d : VoiceData} {encoder : Encoder S}
    {bytes : Bytes} (h : t.encoder.encode opus frame = .ok (d,encoder))
    (hbytes : d.packet.encode = some bytes) :
    (encodeFrame opus closesAfter frame).run.run t =
      if closesAfter.all (t.sent.length < ·) then (.ok (),⟨encoder,t.sent ++ [bytes]⟩)
      else (.error .sendChannelClosed,⟨encoder,t.sent⟩) := by
  change (match t.encoder.encode opus frame with | .error _ => _ | .ok (_,_) => _) = _
  rw [h]
  simp only [hbytes]

/-- A turn that queues a packet has encoded the frame. -/
theorem encodeFrame_queues {t t' : Sending S} {frame : List F} {d : VoiceData}
    (hdata : (t.encoder.encode opus frame).map Prod.fst = .ok d)
    (hrun : (encodeFrame opus closesAfter frame).run.run t = (.ok ⟨⟩,t')) :
    t.encoder.encode opus frame = .ok (d,t'.encoder) ∧
      ∃ bytes, d.packet.encode = some bytes ∧ t'.sent = t.sent ++ [bytes] := by
  cases h : t.encoder.encode opus frame with
  | error e =>
    rw [encodeFrame_error h] at hrun
    cases hrun
  | ok x =>
    obtain ⟨d',encoder⟩ := x
    rw [h] at hdata
    obtain rfl : d' = d := Except.ok.inj hdata
    change (match t.encoder.encode opus frame with | .error _ => _ | .ok (_,_) => _) = _ at hrun
    rw [h] at hrun
    cases hbytes : d'.packet.encode with
    | none =>
      simp only [hbytes] at hrun
      cases hrun
    | some bytes =>
      simp only [hbytes] at hrun
      split at hrun
      · cases hrun
        exact ⟨rfl,bytes,rfl,rfl⟩
      · cases hrun

/-- A turn that fails queues nothing. -/
theorem encodeFrame_fails {t t' : Sending S} {frame : List F} {e : Stop}
    (hrun : (encodeFrame opus closesAfter frame).run.run t = (.error e,t')) : t'.sent = t.sent := by
  change (match t.encoder.encode opus frame with | .error _ => _ | .ok (_,_) => _) = _ at hrun
  cases h : t.encoder.encode opus frame with
  | error e =>
    rw [h] at hrun
    cases hrun
    rfl
  | ok x =>
    obtain ⟨d,encoder⟩ := x
    rw [h] at hrun
    cases hbytes : d.packet.encode with
    | none =>
      simp only [hbytes] at hrun
      cases hrun
      rfl
    | some bytes =>
      simp only [hbytes] at hrun
      split at hrun
      · cases hrun
      · cases hrun
        rfl

end Lemmas
end VoiceApp.Sdk
