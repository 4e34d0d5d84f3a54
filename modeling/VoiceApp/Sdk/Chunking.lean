import VoiceApp.Sdk.InputPipeline

/-! # Chunking makes no difference

What the pipeline sends is a function of the samples alone: the chunks of the whole sample
sequence go through the resampler one after the other, and the frames of what comes out
through the encoder, up to the first that fails.
-/
namespace VoiceApp.Sdk
open Protocol Framing

section Reference
variable {S R F : Type} (opus : OpusEncoder S F) (rubato : AudioResampler R F)

/-- The resampler on consecutive chunks: its state behind them, and their outputs put
together. A chunk that fails has no output. -/
def resampleAll (r : R) : List (List F) → R × List F
  | [] => (r,[])
  | chunk :: rest =>
    match rubato.resample r chunk with
    | (r',.ok resampled) => ((resampleAll r' rest).1,resampled ++ (resampleAll r' rest).2)
    | (r',.error _) => resampleAll r' rest

/-- What the encoder gets to see of these samples. -/
def encoderInput (resampler : Option R) (samples : List F) : List F :=
  match resampler with
  | some r => (resampleAll rubato r (chunksOf.split samples).1).2
  | none => samples

/-- The packets of consecutive frames, the first with number `i`, up to the first frame that
cannot be encoded. -/
def voicePackets (s : S) (i : ℕ) : List (List F) → List Packet
  | [] => []
  | frame :: rest =>
    match opus.encodeFloat s frame with
    | .ok (s',data) =>
      .voiceData 0 (UInt32.ofNat i) (UInt32.ofNat (opusFrameSize * i)) data ::
        voicePackets s' (i + 1) rest
    | .error _ => []

/-- The codec behind these frames, if each of them can be encoded. -/
def codecAfter (s : S) : List (List F) → Option S
  | [] => some s
  | frame :: rest =>
    match opus.encodeFloat s frame with
    | .ok (s',_) => codecAfter s' rest
    | .error _ => none

/-- What the UDP queue takes of a list before its receiver is gone. -/
def accepted {A : Type} (closesAfter : Option ℕ) (xs : List A) : List A :=
  match closesAfter with
  | some k => xs.take k
  | none => xs

end Reference

variable {S R F : Type} {opus : OpusEncoder S F} {rubato : AudioResampler R F}
  {closesAfter : Option ℕ} {s : S}

/-! ## The resampler -/

theorem resampleAll_append (r : R) (before after : List (List F)) :
    resampleAll rubato r (before ++ after) =
      ((resampleAll rubato (resampleAll rubato r before).1 after).1,
        (resampleAll rubato r before).2 ++ (resampleAll rubato (resampleAll rubato r before).1 after).2) := by
  induction before generalizing r with
  | nil => rfl
  | cons chunk rest ih =>
    simp only [List.cons_append,resampleAll]
    rcases rubato.resample r chunk with ⟨r',_ | resampled⟩
    · exact ih r'
    · simp only [ih r',List.append_assoc]

/-- More samples only add to what the encoder gets to see. -/
theorem encoderInput_append (resampler : Option R) (samples more : List F) :
    encoderInput rubato resampler samples <+: encoderInput rubato resampler (samples ++ more) := by
  cases resampler with
  | none => exact List.prefix_append samples more
  | some r =>
    simp only [encoderInput]
    rw [Blocks.split_append,resampleAll_append]
    exact List.prefix_append _ _

theorem forM_resampleChunk (chunks : List (List F)) (r : R) (encodeBuffer : List F) :
    (forM chunks (resampleChunk rubato)).run (r,encodeBuffer) =
      ((),(resampleAll rubato r chunks).1,encodeBuffer ++ (resampleAll rubato r chunks).2) := by
  induction chunks generalizing r encodeBuffer with
  | nil =>
    rw [resampleAll,List.append_nil]
    rfl
  | cons chunk rest ih =>
    rw [List.forM_cons]
    change (forM rest (resampleChunk rubato)).run (resampleChunk rubato chunk (r,encodeBuffer)).2 = _
    simp only [resampleChunk,resampleAll]
    rcases rubato.resample r chunk with ⟨r',_ | resampled⟩
    · exact ih r' encodeBuffer
    · simp only [ih r',List.append_assoc]

/-- What is kept in front of the encoder when these samples have come in. -/
structure Kept (rubato : AudioResampler R F) (resampler : Option R) (samples : List F)
    (p : InputPipeline S R F) : Prop where
  machine : p.resampler = resampler.map fun r => (resampleAll rubato r (chunksOf.split samples).1).1
  rest : p.resampleBuffer = resampler.elim [] fun _ => (chunksOf.split samples).2

theorem kept_new (resampler : Option R) :
    Kept rubato resampler [] (InputPipeline.new (S := S) (F := F) s resampler) := by
  have hsplit : chunksOf.split ([] : List F) = ([],[]) := Blocks.stable.split_nil
  cases resampler with
  | none => exact ⟨rfl,rfl⟩
  | some r =>
    constructor
    · rw [Option.map_some,hsplit]
      rfl
    · rw [Option.elim_some,hsplit]
      rfl

/-- One input frame goes through the resampler as if it had come together with all the
samples before it. -/
theorem Kept.resample {resampler : Option R} {samples : List F} {p : InputPipeline S R F}
    (h : Kept rubato resampler samples p) (frame : List F) :
    Kept rubato resampler (samples ++ frame) (p.resample rubato frame) ∧
      (p.resample rubato frame).encoder = p.encoder ∧
      ∃ more, (p.resample rubato frame).encodeBuffer = p.encodeBuffer ++ more ∧
        encoderInput rubato resampler (samples ++ frame) =
          encoderInput rubato resampler samples ++ more := by
  obtain ⟨hmachine,hrest⟩ := h
  cases resampler with
  | none =>
    have hresample : p.resample rubato frame = { p with encodeBuffer := p.encodeBuffer ++ frame } := by
      unfold InputPipeline.resample
      rw [hmachine]
      rfl
    rw [hresample]
    exact ⟨⟨hmachine,hrest⟩,rfl,frame,rfl,rfl⟩
  | some r =>
    have hdrain := chunksOf.drain_eq (resampleChunk rubato) (p.resampleBuffer ++ frame)
    have hsplit : chunksOf.split (samples ++ frame) = _ := Blocks.split_append samples frame
    have hresample : p.resample rubato frame =
        ⟨p.encoder,some (resampleAll rubato (resampleAll rubato r (chunksOf.split samples).1).1
          (chunksOf.split (p.resampleBuffer ++ frame)).1).1,
          (chunksOf.split (p.resampleBuffer ++ frame)).2,p.encodeBuffer ++ (resampleAll rubato
          (resampleAll rubato r (chunksOf.split samples).1).1
          (chunksOf.split (p.resampleBuffer ++ frame)).1).2⟩ := by
      unfold InputPipeline.resample
      rw [hmachine]
      simp only [Option.map_some,hdrain]
      rw [StateT.run_bind,forM_resampleChunk]
      rfl
    have hkept : p.resampleBuffer = (chunksOf.split samples).2 := hrest
    rw [hresample,hkept]
    refine ⟨⟨?_,?_⟩,rfl,_,rfl,?_⟩
    · rw [Option.map_some,hsplit,resampleAll_append]
    · rw [Option.elim_some,hsplit]
    · simp only [encoderInput]
      rw [hsplit,resampleAll_append]

/-- The task against the loop over all frames that the samples so far make up. -/
inductive Progress (rubato : AudioResampler R F) (resampler : Option R) (samples : List F) :
    Except Stop PUnit × Sending S → PipelineTask S R F → Prop
  | running (p : InputPipeline S R F) (sent : List Bytes) (hkept : Kept rubato resampler samples p)
      (hbuffer : p.encodeBuffer = (framesOf.split (encoderInput rubato resampler samples)).2) :
      Progress rubato resampler samples (.ok ⟨⟩,⟨p.encoder,sent⟩) ⟨.ok p,sent⟩
  | stopped (e : Stop) (t : Sending S) : Progress rubato resampler samples (.error e,t) ⟨.error e,t.sent⟩

theorem Progress.sent_eq {resampler : Option R} {samples : List F} {r : Except Stop PUnit × Sending S}
    {t : PipelineTask S R F} (h : Progress rubato resampler samples r t) : t.sent = r.2.sent := by
  cases h with
  | running => rfl
  | stopped => rfl

theorem Progress.running_iff {resampler : Option R} {samples : List F}
    {r : Except Stop PUnit × Sending S} {t : PipelineTask S R F}
    (h : Progress rubato resampler samples r t) : (∃ p, t.status = .ok p) ↔ ∃ a, r.1 = .ok a := by
  cases h with
  | running p => exact ⟨fun _ => ⟨⟨⟩,rfl⟩,fun _ => ⟨p,rfl⟩⟩
  | stopped e sending => exact ⟨fun ⟨_,hp⟩ => (by cases hp),fun ⟨_,ha⟩ => (by cases ha)⟩

theorem Progress.stopped_by {resampler : Option R} {samples : List F}
    {r : Except Stop PUnit × Sending S} {t : PipelineTask S R F}
    (h : Progress rubato resampler samples r t) {e : Stop} (he : t.status = .error e) : r.1 = .error e := by
  cases h with
  | running => cases he
  | stopped =>
    cases he
    rfl

/-- Less than a chunk and less than a frame are kept. -/
theorem Progress.kept_lt {resampler : Option R} {samples : List F} {r : Except Stop PUnit × Sending S}
    {t : PipelineTask S R F} (h : Progress rubato resampler samples r t) {p : InputPipeline S R F}
    (hp : t.status = .ok p) :
    p.resampleBuffer.length < resamplerChunkSize ∧ p.encodeBuffer.length < opusFrameSize := by
  cases h with
  | stopped => cases hp
  | running p' sent hkept hbuffer =>
    cases hp
    rw [hkept.rest,hbuffer]
    refine ⟨?_,Blocks.rest_length_lt _⟩
    cases resampler with
    | none => exact Nat.succ_pos _
    | some r => exact Blocks.rest_length_lt _

/-! ## The packets -/

/-- The packet of a frame is what the codec, having come through the frames before it, makes
of the frame, with the number and the time of the frame. -/
theorem voicePackets_getElem? {i j : ℕ} {packet : Packet} {frames : List (List F)}
    (h : (voicePackets opus s i frames)[j]? = some packet) :
    ∃ frame state next data, frames[j]? = some frame ∧ codecAfter opus s (frames.take j) = some state ∧
      opus.encodeFloat state frame = .ok (next,data) ∧
      packet = .voiceData 0 (UInt32.ofNat (i + j)) (UInt32.ofNat (opusFrameSize * (i + j))) data := by
  induction frames generalizing s i j with
  | nil => cases h
  | cons frame rest ih =>
    cases hencode : opus.encodeFloat s frame with
    | error message =>
      rw [voicePackets,hencode] at h
      cases h
    | ok x =>
      obtain ⟨next,data⟩ := x
      rw [voicePackets,hencode] at h
      cases j with
      | zero =>
        cases h
        exact ⟨frame,s,next,data,rfl,rfl,hencode,rfl⟩
      | succ j =>
        obtain ⟨frame',state,next',data',hframe,hstate,hdata,hpacket⟩ := ih h
        refine ⟨frame',state,next',data',hframe,?_,hdata,?_⟩
        · rw [List.take_succ_cons,codecAfter,hencode]
          exact hstate
        · rw [hpacket,Nat.add_right_comm,Nat.add_assoc]

/-- If there are fewer packets than frames, the next frame is the first that the codec
fails on. -/
theorem voicePackets_stop {i : ℕ} {frames : List (List F)}
    (h : (voicePackets opus s i frames).length < frames.length) :
    ∃ frame state message, frames[(voicePackets opus s i frames).length]? = some frame ∧
      codecAfter opus s (frames.take (voicePackets opus s i frames).length) = some state ∧
      opus.encodeFloat state frame = .error message := by
  induction frames generalizing s i with
  | nil => cases h
  | cons frame rest ih =>
    cases hencode : opus.encodeFloat s frame with
    | error message =>
      have hnone : voicePackets opus s i (frame :: rest) = [] := by rw [voicePackets,hencode]
      rw [hnone]
      exact ⟨frame,s,message,rfl,rfl,hencode⟩
    | ok x =>
      obtain ⟨next,data⟩ := x
      have hcons : (voicePackets opus s i (frame :: rest)).length =
          (voicePackets opus next (i + 1) rest).length + 1 := by
        rw [voicePackets,hencode,List.length_cons]
      rw [hcons,List.length_cons,Nat.add_lt_add_iff_right] at h
      obtain ⟨frame',state,message,hframe,hstate,herror⟩ := ih h
      rw [hcons]
      refine ⟨frame',state,message,hframe,?_,herror⟩
      rw [List.take_succ_cons,codecAfter,hencode]
      exact hstate

/-! ## The encoder -/

/-- One frame of the codec fits a packet. -/
theorem packet_encode {s s' : S} {samples : List F} {data : Bytes}
    (h : opus.encodeFloat s samples = .ok (s',data)) (sequence timestamp : UInt32) :
    ∃ bytes, (Packet.voiceData 0 sequence timestamp data).encode = some bytes := by
  rw [Packet.encode_isSome_iff]
  have hlen : data.length ≤ 4000 := opus.length_le h
  refine ⟨fun s hs => (by cases hs),Nat.zero_le _,?_⟩
  change 16 + data.length ≤ 65535
  omega

theorem counter_succ (i : ℕ) : UInt32.ofNat i + 1 = UInt32.ofNat (i + 1) :=
  (UInt32.ofNat_add i 1).symm

theorem timestamp_succ (i : ℕ) : UInt32.ofNat (opusFrameSize * i) + UInt32.ofNat opusFrameSize =
    UInt32.ofNat (opusFrameSize * (i + 1)) :=
  (UInt32.ofNat_add _ _).symm

variable [Zero F]

/-- The encoder in front of frame number `i`. -/
def encoderAt (s : S) (i : ℕ) : Encoder S := ⟨s,UInt32.ofNat i,UInt32.ofNat (opusFrameSize * i)⟩

/-- A full frame is encoded as it is. -/
theorem encode_ok {s s' : S} {i : ℕ} {frame : List F} {data : Bytes} (hlen : frame.length = opusFrameSize)
    (h : opus.encodeFloat s frame = .ok (s',data)) :
    (encoderAt s i).encode opus frame =
      .ok (⟨UInt32.ofNat i,0,UInt32.ofNat (opusFrameSize * i),data⟩,encoderAt s' (i + 1)) := by
  unfold Encoder.encode
  rw [if_neg (by omega),hlen,Nat.sub_self,List.replicate_zero,List.append_nil]
  simp only [encoderAt,h,counter_succ,timestamp_succ]

theorem encode_error {s : S} {i : ℕ} {frame : List F} {message : String}
    (hlen : frame.length = opusFrameSize) (h : opus.encodeFloat s frame = .error message) :
    (encoderAt s i).encode opus frame =
      .error (.encoderError ("Failed to encode Opus frame: " ++ message)) := by
  unfold Encoder.encode
  rw [if_neg (by omega),hlen,Nat.sub_self,List.replicate_zero,List.append_nil]
  simp only [encoderAt,h]

/-! ## What the queue takes -/

section Accepted
variable {A B : Type}

theorem accepted_eq_iff {xs : List A} :
    accepted closesAfter xs = xs ↔ ∀ k, closesAfter = some k → xs.length ≤ k := by
  cases closesAfter with
  | none => simp [accepted]
  | some k =>
    constructor
    · rintro h _ ⟨⟩
      rw [← h]
      exact List.length_take_le k xs
    · intro h
      exact List.take_of_length_le (h k rfl)

/-- The queue takes one more as long as its receiver is there. -/
theorem accepted_snoc_iff {xs : List A} (x : A) :
    accepted closesAfter (xs ++ [x]) = xs ++ [x] ↔ closesAfter.all (xs.length < ·) = true := by
  rw [accepted_eq_iff]
  cases closesAfter with
  | none => simp
  | some k =>
    simp only [Option.some.injEq,forall_eq',List.length_append,List.length_singleton,Option.all_some,
      decide_eq_true_eq]
    exact Nat.succ_le_iff

/-- Behind the first that is refused nothing is taken. -/
theorem accepted_refused {xs : List A} {x : A} (hxs : accepted closesAfter xs = xs)
    (hx : ¬accepted closesAfter (xs ++ [x]) = xs ++ [x]) (more : List A) :
    accepted closesAfter (xs ++ x :: more) = xs ∧
      ¬accepted closesAfter (xs ++ x :: more) = xs ++ x :: more := by
  rw [accepted_eq_iff] at hxs hx ⊢
  cases closesAfter with
  | none => simp at hx
  | some k =>
    have hle : xs.length ≤ k := hxs k rfl
    have hlt : k < xs.length + 1 := by simpa using hx
    obtain rfl : k = xs.length := by omega
    constructor
    · exact List.take_left
    · simp

theorem accepted_encoded {enc : A → Option (List B)} {xs : List A} {ys : List (List B)}
    (h : Framer.Encoded enc xs ys) :
    Framer.Encoded enc (accepted closesAfter xs) (accepted closesAfter ys) := by
  cases closesAfter with
  | none => exact h
  | some k => exact List.forall₂_take k h

end Accepted

/-! ## Consecutive frames -/

theorem run_bind_ok {A B : Type} {x : SendM S A} {f : A → SendM S B} {t t' : Sending S} {a : A}
    (h : x.run.run t = (.ok a,t')) : (x >>= f).run.run t = (f a).run.run t' := by
  rw [ExceptT.run_bind,StateT.run_bind,h]
  rfl

theorem run_bind_error {A B : Type} {x : SendM S A} {f : A → SendM S B} {t t' : Sending S} {e : Stop}
    (h : x.run.run t = (.error e,t')) : (x >>= f).run.run t = (.error e,t') := by
  rw [ExceptT.run_bind,StateT.run_bind,h]
  rfl

/-- The outcome of the loop against the packets of its frames: they have been sent as far as
the queue took them, and the loop has come to its end if each frame could be encoded and
sent. -/
structure Sends (closesAfter : Option ℕ) (packets : List Packet) (frames : ℕ) (before : List Bytes)
    (r : Except Stop PUnit × Sending S) (bytes : List Bytes) : Prop where
  encoded : Framer.Encoded Packet.encode packets bytes
  sent : r.2.sent = accepted closesAfter (before ++ bytes)
  ok_iff : (∃ a, r.1 = .ok a) ↔
    packets.length = frames ∧ accepted closesAfter (before ++ bytes) = before ++ bytes
  no_panic : r.1 ≠ .error .panic

theorem forM_encodeFrame {frames : List (List F)} (hfull : ∀ frame ∈ frames, frame.length = opusFrameSize)
    (s : S) (i : ℕ) {sent : List Bytes} (hsent : accepted closesAfter sent = sent) :
    ∃ bytes, Sends closesAfter (voicePackets opus s i frames) frames.length sent
      ((forM frames (encodeFrame opus closesAfter)).run.run ⟨encoderAt s i,sent⟩) bytes := by
  induction frames generalizing s i sent with
  | nil =>
    refine ⟨[],.nil,?_,?_,fun h => by cases h⟩
    · rw [List.append_nil,hsent]
      rfl
    · rw [List.append_nil,hsent]
      exact ⟨fun _ => ⟨rfl,rfl⟩,fun _ => ⟨⟨⟩,rfl⟩⟩
  | cons frame rest ih =>
    have hlen := hfull frame (List.mem_cons_self ..)
    rw [List.forM_cons]
    cases h : opus.encodeFloat s frame with
    | error message =>
      -- the frame cannot be encoded, and nothing behind it is looked at
      have hnone : voicePackets opus s i (frame :: rest) = [] := by rw [voicePackets,h]
      have hrun : (encodeFrame opus closesAfter frame).run.run ⟨encoderAt s i,sent⟩ = _ :=
        encodeFrame_error (encode_error hlen h)
      rw [run_bind_error hrun,hnone]
      refine ⟨[],.nil,?_,?_,fun h => by cases h⟩
      · rw [List.append_nil,hsent]
      · constructor
        · rintro ⟨_,hok⟩
          cases hok
        · rintro ⟨hlength,_⟩
          cases hlength
    | ok x =>
      obtain ⟨s',data⟩ := x
      obtain ⟨bytes,hbytes⟩ := packet_encode h (UInt32.ofNat i) (UInt32.ofNat (opusFrameSize * i))
      have hpackets : voicePackets opus s i (frame :: rest) =
          .voiceData 0 (UInt32.ofNat i) (UInt32.ofNat (opusFrameSize * i)) data ::
            voicePackets opus s' (i + 1) rest := by rw [voicePackets,h]
      have hrun : (encodeFrame opus closesAfter frame).run.run ⟨encoderAt s i,sent⟩ = _ :=
        encodeFrame_ok (encode_ok hlen h) hbytes
      have hrest : ∀ x ∈ rest, x.length = opusFrameSize := fun x hx => hfull x (List.mem_cons_of_mem frame hx)
      rw [hpackets]
      by_cases haccepted : closesAfter.all (sent.length < ·) = true
      · rw [if_pos haccepted] at hrun
        obtain ⟨more,hmore⟩ := ih hrest s' (i + 1) ((accepted_snoc_iff bytes).mpr haccepted)
        rw [run_bind_ok hrun]
        refine ⟨bytes :: more,.cons hbytes hmore.encoded,?_,?_,hmore.no_panic⟩
        · rw [hmore.sent,List.append_assoc]
          rfl
        · rw [hmore.ok_iff,List.append_assoc,List.length_cons,List.length_cons,Nat.succ_inj]
          rfl
      · rw [if_neg haccepted] at hrun
        obtain ⟨more,hmore⟩ := ih hrest s' (i + 1) hsent
        obtain ⟨htaken,hrefused⟩ := accepted_refused hsent (mt (accepted_snoc_iff bytes).mp haccepted) more
        rw [run_bind_error hrun]
        refine ⟨bytes :: more,.cons hbytes hmore.encoded,htaken.symm,?_,fun h => by cases h⟩
        constructor
        · rintro ⟨_,hok⟩
          cases hok
        · rintro ⟨_,hall⟩
          exact (hrefused hall).elim

/-! ## The task -/

section Run
variable (opus rubato closesAfter s)

/-- The loop over all frames that these samples make up. -/
def batch (resampler : Option R) (samples : List F) : Except Stop PUnit × Sending S :=
  (forM (framesOf.split (encoderInput rubato resampler samples)).1
    (encodeFrame opus closesAfter)).run.run ⟨.new s,[]⟩

end Run

theorem Progress.recv {resampler : Option R} {samples : List F} {t : PipelineTask S R F}
    (h : Progress rubato resampler samples (batch opus rubato closesAfter s resampler samples) t)
    (frame : List F) :
    Progress rubato resampler (samples ++ frame)
      (batch opus rubato closesAfter s resampler (samples ++ frame))
      (t.recv opus rubato closesAfter frame) := by
  generalize hbatch : batch opus rubato closesAfter s resampler samples = r at h
  cases h with
  | stopped e sending =>
    obtain ⟨more,hmore⟩ : encoderInput rubato resampler samples <+: _ :=
      encoderInput_append resampler samples frame
    have hstopped : batch opus rubato closesAfter s resampler (samples ++ frame) = (.error e,sending) := by
      rw [batch,← hmore,Blocks.split_append,List.forM_append]
      exact run_bind_error hbatch
    rw [hstopped]
    exact .stopped e sending
  | running p sent hkept hbuffer =>
    obtain ⟨hkept',hencoder,more,hmore,hinput⟩ := hkept.resample frame
    have hsplit : framesOf.split (encoderInput rubato resampler samples ++ more) = _ :=
      Blocks.split_append (encoderInput rubato resampler samples) more
    rw [← hbuffer,← hmore,← hinput] at hsplit
    have hlonger : batch opus rubato closesAfter s resampler (samples ++ frame) =
        (forM (framesOf.split (p.resample rubato frame).encodeBuffer).1
          (encodeFrame opus closesAfter)).run.run ⟨p.encoder,sent⟩ := by
      rw [batch,hsplit,List.forM_append]
      exact run_bind_ok hbatch
    rw [hlonger,PipelineTask.recv]
    simp only [hencoder,InputPipeline.encodeAndSend,framesOf.drain_eq]
    cases hrun : (forM (framesOf.split (p.resample rubato frame).encodeBuffer).1
        (encodeFrame opus closesAfter)).run.run ⟨p.encoder,sent⟩ with
    | mk result sending =>
      cases result with
      | error e =>
        rw [run_bind_error hrun]
        exact .stopped e sending
      | ok a =>
        rw [run_bind_ok hrun]
        have hrest : (framesOf.split (p.resample rubato frame).encodeBuffer).2 =
            (framesOf.split (encoderInput rubato resampler (samples ++ frame))).2 := by rw [hsplit]
        exact Progress.running { p.resample rubato frame with
          encoder := sending.encoder
          encodeBuffer := (framesOf.split (p.resample rubato frame).encodeBuffer).2 } sending.sent
          ⟨hkept'.machine,hkept'.rest⟩ hrest

/-- Cut in any way, the samples go through the loop as if they had come at once. -/
theorem run_progress (resampler : Option R) (frames : List (List F)) :
    Progress rubato resampler frames.flatten (batch opus rubato closesAfter s resampler frames.flatten)
      (PipelineTask.run opus rubato closesAfter s resampler frames) := by
  induction frames using List.reverseRecOn with
  | nil =>
    have hinput : encoderInput rubato resampler [] = ([] : List F) := by
      cases resampler with
      | none => rfl
      | some r =>
        simp only [encoderInput]
        rw [Blocks.stable.split_nil]
        rfl
    have hempty : batch opus rubato closesAfter s resampler [] = (.ok ⟨⟩,⟨.new s,[]⟩) := by
      rw [batch,hinput,Blocks.stable.split_nil]
      rfl
    rw [List.flatten_nil,hempty]
    refine .running (.new s resampler) [] (kept_new resampler) ?_
    rw [hinput,Blocks.stable.split_nil]
    rfl
  | append_singleton frames frame ih =>
    rw [List.flatten_append,List.flatten_singleton,PipelineTask.run,List.foldl_append]
    exact ih.recv frame

/-- Whatever the codec and the resampler do, and however the samples are cut: the task sends
the packets of the consecutive frames of the encoder's input, up to the first frame that the
codec fails on, as long as the queue takes them. It runs on as long as every frame is encoded
and taken, and then less than a chunk and less than a frame are kept. -/
theorem pipeline_sends_batch (opus : OpusEncoder S F) (rubato : AudioResampler R F)
    (closesAfter : Option ℕ) (s : S) (resampler : Option R) (frames : List (List F)) :
    let stream := encoderInput rubato resampler frames.flatten
    let blocks := (framesOf.split stream).1
    let packets := voicePackets opus s 0 blocks
    let t := PipelineTask.run opus rubato closesAfter s resampler frames
    Framer.Encoded Packet.encode (accepted closesAfter packets) t.sent ∧
    ((∃ p, t.status = .ok p) ↔
      packets.length = blocks.length ∧ accepted closesAfter packets = packets) ∧
    t.status ≠ .error .panic ∧
    (∀ p, t.status = .ok p →
      p.resampleBuffer.length < resamplerChunkSize ∧ p.encodeBuffer.length < opusFrameSize) ∧
    (∀ i packet, packets[i]? = some packet → ∃ state next data,
      codecAfter opus s (blocks.take i) = some state ∧
      opus.encodeFloat state ((stream.drop (i * opusFrameSize)).take opusFrameSize) = .ok (next,data) ∧
      packet = .voiceData 0 (UInt32.ofNat i) (UInt32.ofNat (opusFrameSize * i)) data) ∧
    (packets.length < blocks.length → ∃ state message,
      codecAfter opus s (blocks.take packets.length) = some state ∧
      opus.encodeFloat state ((stream.drop (packets.length * opusFrameSize)).take opusFrameSize) =
        .error message) ∧
    ∀ others : List (List F), others.flatten = frames.flatten →
      (PipelineTask.run opus rubato closesAfter s resampler others).sent = t.sent := by
  intro stream blocks packets t
  have hfull : ∀ frame ∈ blocks, frame.length = opusFrameSize := fun frame h =>
    Blocks.length_of_mem stream h
  have hnone : accepted closesAfter ([] : List Bytes) = [] := by
    rw [accepted_eq_iff]
    exact fun k _ => Nat.zero_le k
  have hprogress : Progress rubato resampler frames.flatten _ t := run_progress resampler frames
  obtain ⟨bytes,hsends⟩ : ∃ bytes, Sends closesAfter packets blocks.length []
      (batch opus rubato closesAfter s resampler frames.flatten) bytes :=
    forM_encodeFrame hfull s 0 hnone
  have hlength : packets.length = bytes.length := hsends.encoded.length_eq
  have hall : accepted closesAfter bytes = bytes ↔ accepted closesAfter packets = packets := by
    rw [accepted_eq_iff,accepted_eq_iff,hlength]
  refine ⟨?_,?_,?_,fun p => hprogress.kept_lt,?_,?_,?_⟩
  · rw [hprogress.sent_eq,hsends.sent,List.nil_append]
    exact accepted_encoded hsends.encoded
  · rw [hprogress.running_iff,hsends.ok_iff,List.nil_append,hall]
  · exact fun h => hsends.no_panic (hprogress.stopped_by h)
  · intro i packet h
    obtain ⟨frame,state,next,data,hframe,hstate,hdata,hpacket⟩ := voicePackets_getElem? h
    rw [Nat.zero_add] at hpacket
    rw [Blocks.eq_of_getElem? stream hframe] at hdata
    exact ⟨state,next,data,hstate,hdata,hpacket⟩
  · intro h
    obtain ⟨frame,state,message,hframe,hstate,herror⟩ := voicePackets_stop h
    rw [Blocks.eq_of_getElem? stream hframe] at herror
    exact ⟨state,message,hstate,herror⟩
  · intro others h
    have hothers : Progress rubato resampler others.flatten _
        (PipelineTask.run opus rubato closesAfter s resampler others) := run_progress resampler others
    rw [h] at hothers
    rw [hothers.sent_eq,hprogress.sent_eq]

end VoiceApp.Sdk
