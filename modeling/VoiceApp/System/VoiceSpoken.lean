import VoiceApp.Sdk.Spoken
import VoiceApp.System.VoiceNetwork

/-! # From the microphone to the listener

Whatever a listener is handed as the voice of a user is one of the packets that the samples
of that user's own microphone come to.
-/
namespace VoiceApp.System.VoiceNetwork
open Protocol Server Framing
open Sdk (VoiceClient OpusEncoder AudioResampler VoiceError InputPipeline InputOutputManager encoderInput
  framesOf voicePackets)

section Voice
variable {P S R F : Type} [DecidableEq P] [Zero F] {opus : OpusEncoder S F} {rubato : AudioResampler R F}
  {newEncoder : Except VoiceError S} {newResampler : UInt32 → Except VoiceError R}

/-- The pipelines of a client make a run of their own. -/
theorem run_pipelines {trace : List (VoiceClient.Label F)} {v : VoiceClient S R F}
    (h : Run (VoiceClient.Step opus rubato newEncoder newResampler) VoiceClient.new trace v) :
    Run (InputOutputManager.Step opus rubato none newEncoder newResampler) .new
      (trace.filterMap VoiceClient.Label.pipeline?) v.pipelines := by
  refine h.project VoiceClient.pipelines VoiceClient.Label.pipeline? ?_ ?_
  · intro v label v' l hs hl
    cases hs with
    | pipeline hstep =>
      cases hl
      exact hstep
    | _ => cases hl
  · intro v label v' hs hl
    cases hs with
    | pipeline => cases hl
    | _ => rfl

/-- What the pipelines of one client did. -/
def pipelineTrace (p : P) (trace : List (Label P F)) : List (InputOutputManager.Label F) :=
  (trace.filterMap (Label.client? p)).filterMap VoiceClient.Label.pipeline?

/-- What arrives anywhere as the voice of a user whose token is secret is a packet of the
samples given to one of the senders of the client that has the token. -/
theorem voice_authentic {p q : P} {trace : List (Label P F)} {w : VoiceNetwork P S R F}
    {userId secret : UInt64} {sequence timestamp : UInt32} {frame : Bytes}
    (h : Run (Guarded Unshared (Step opus rubato newEncoder newResampler)) new trace w)
    (hsecret : Confidential p userId secret trace)
    (hmem : .voiceData userId sequence timestamp frame ∈ (w.clients q).udp.handler.packetTx) :
    ∃ i rate s resampler, (InputOutputManager.rates (pipelineTrace p trace))[i]? = some rate ∧
      InputOutputManager.create newEncoder newResampler rate = .ok (InputPipeline.new (F := F) s resampler) ∧
      ∃ claimed, .voiceData claimed sequence timestamp frame ∈ voicePackets opus s 0 (framesOf.split
        (encoderInput rubato resampler
          (InputOutputManager.spoken i (pipelineTrace p trace)).flatten)).1 := by
  obtain ⟨d,hd,rfl,rfl,rfl⟩ := handed_on_queued h hsecret hmem
  have hpipelines := run_pipelines (run_client (h.mono fun _ _ _ hs => hs.2) p)
  obtain ⟨i,rate,s,resampler,hrate,hcreate,hpacket⟩ :=
    (InputOutputManager.run_voiced hpipelines).packet_of_queued hd
  exact ⟨i,rate,s,resampler,hrate,hcreate,d.userId,hpacket⟩

end Voice

/-- The frame that user 2 hears comes from the samples of user 1. -/
theorem voice_authentic_talk : ∃ sends2 sends1 out, ∃ i : ℕ, ∃ resampler : Option Unit, ∃ claimed,
    .voiceData claimed 0 0 [248,255,254] ∈ voicePackets Sdk.InputOutputManager.silenceCodec () 0
      (framesOf.split (encoderInput Sdk.InputOutputManager.noResampler resampler
        (InputOutputManager.spoken i (pipelineTrace false
          (heardLabels (fun _ => 1) false true sends2 sends1 out))).flatten)).1 := by
  obtain ⟨sends2,sends1,out,w,hrun,hmem⟩ := talk_heard_first
  obtain ⟨i,_,_,resampler,_,_,claimed,hpacket⟩ :=
    voice_authentic hrun (confidential_talk sends2 sends1 out) hmem
  exact ⟨sends2,sends1,out,i,resampler,claimed,hpacket⟩

end VoiceApp.System.VoiceNetwork
