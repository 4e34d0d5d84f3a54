import VoiceApp.Sdk.Chunking
import VoiceApp.Sdk.Pending
import VoiceApp.Sdk.VoiceStream

/-! # What each pipeline sends

The pipelines of a client run side by side and share one queue. Each of them sends what it
would send alone: the packets that all the samples of its own sender come to, in order, as
far as it has come.
-/
namespace VoiceApp.Sdk
open Protocol Framing

/-! ## Frames one after the other -/

section Frames
variable {S F : Type} {opus : OpusEncoder S F}

theorem codecAfter_concat {s s' : S} {frames : List (List F)} (h : codecAfter opus s frames = some s')
    (frame : List F) : codecAfter opus s (frames ++ [frame]) = codecAfter opus s' [frame] := by
  induction frames generalizing s with
  | nil =>
    cases h
    rfl
  | cons first rest ih =>
    rw [codecAfter] at h
    rw [List.cons_append,codecAfter]
    cases hencode : opus.encodeFloat s first with
    | error message =>
      rw [hencode] at h
      cases h
    | ok x =>
      rw [hencode] at h
      exact ih h

/-- The packets of more frames begin with those of the first ones. -/
theorem voicePackets_append {s s' : S} {frames : List (List F)} (h : codecAfter opus s frames = some s')
    (i : ℕ) (more : List (List F)) : voicePackets opus s i (frames ++ more) =
      voicePackets opus s i frames ++ voicePackets opus s' (i + frames.length) more := by
  induction frames generalizing s i with
  | nil =>
    cases h
    rfl
  | cons first rest ih =>
    rw [codecAfter] at h
    cases hencode : opus.encodeFloat s first with
    | error message =>
      rw [hencode] at h
      cases h
    | ok x =>
      rw [hencode] at h
      rw [List.cons_append,voicePackets,voicePackets,hencode]
      simp only [ih h,List.length_cons,List.cons_append,Nat.add_assoc,Nat.add_comm 1]

theorem encoderInput_nil {R : Type} {rubato : AudioResampler R F} (resampler : Option R) :
    encoderInput rubato resampler [] = [] := by
  cases resampler with
  | none => rfl
  | some r =>
    rw [encoderInput,Blocks.split_short (Nat.succ_pos _)]
    rfl

end Frames

namespace InputOutputManager
variable {S R F : Type}

/-- The sample rates of the senders, in the order in which they were returned. -/
def rates (trace : List (Label F)) : List UInt32 :=
  trace.filterMap fun
    | .getVoiceInputSender inputSampleRate => some inputSampleRate
    | _ => none

/-- The frames sent on the sender `i`. -/
def spoken (i : ℕ) (trace : List (Label F)) : List (List F) :=
  trace.filterMap fun
    | .send j frame => if j = i then some frame else none
    | _ => none

/-- The packets that the pipeline `i` has queued. -/
def queuedBy (i : ℕ) (trace : List (Label F)) : List VoiceData :=
  trace.filterMap fun
    | .queue j d => if j = i then some d else none
    | _ => none

section Traces
variable (i : ℕ) (trace : List (Label F)) (label : Label F)

theorem rates_concat : rates (trace ++ [label]) = rates trace ++ rates [label] := List.filterMap_append ..

theorem spoken_concat : spoken i (trace ++ [label]) = spoken i trace ++ spoken i [label] :=
  List.filterMap_append ..

theorem queuedBy_concat : queuedBy i (trace ++ [label]) = queuedBy i trace ++ queuedBy i [label] :=
  List.filterMap_append ..

end Traces

/-- A packet that was queued was queued by a pipeline. -/
theorem mem_queuedBy {trace : List (Label F)} {d : VoiceData} (h : d ∈ queued trace) :
    ∃ i, d ∈ queuedBy i trace := by
  obtain ⟨label,hlabel,hd⟩ := List.mem_filterMap.mp h
  cases label with
  | queue i d' =>
    cases hd
    exact ⟨i,List.mem_filterMap.mpr ⟨_,hlabel,if_pos rfl⟩⟩
  | _ => cases hd

/-- The pipeline that a label is about. -/
def Label.pipeline : Label F → Option ℕ
  | .getVoiceInputSender _ => none
  | .refuseVoiceInputSender _ => none
  | .send i _ => some i
  | .close i => some i
  | .recv i => some i
  | .queue i _ => some i
  | .fail i => some i
  | .finish i => some i

/-- A label that is not about the pipeline `i`. -/
theorem quiet_label {i : ℕ} {label : Label F} (h : label.pipeline ≠ some i) :
    spoken i [label] = [] ∧ queuedBy i [label] = [] ∧ .finish i ∉ [label] := by
  have hne : ∀ {j}, some j ≠ some i → ¬j = i := fun hj heq => hj (congrArg some heq)
  cases label with
  | send j frame =>
    have hnone : spoken i [.send j frame] = [] := List.filterMap_cons_none (if_neg (hne h))
    exact ⟨hnone,rfl,by simp⟩
  | queue j d =>
    have hnone : queuedBy i ([.queue j d] : List (Label F)) = [] :=
      List.filterMap_cons_none (if_neg (hne h))
    exact ⟨rfl,hnone,by simp⟩
  | finish j =>
    refine ⟨rfl,rfl,fun hmem => ?_⟩
    cases List.mem_singleton.mp hmem
    exact h rfl
  | _ => exact ⟨rfl,rfl,by simp⟩

/-! ## One pipeline -/

section Pipelines
variable (opus : OpusEncoder S F) (rubato : AudioResampler R F)
  (newEncoder : Except VoiceError S) (newResampler : UInt32 → Except VoiceError R)

/-- A task has encoded the first whole frames of what it has received; the rest is in its
buffers, and what it has not received is in its channel. -/
structure Speaking (i : ℕ) (trace : List (Label F)) (task : VoiceTask S R F) (s : S)
    (resampler : Option R) (received : List (List F)) (done : List (List F)) : Prop where
  created : ∃ rate, (rates trace)[i]? = some rate ∧
    create newEncoder newResampler rate = .ok (.new (F := F) s resampler)
  given : spoken i trace = received ++ task.input
  kept : Kept rubato resampler received.flatten task.pipeline
  full : ∀ frame ∈ done, frame.length = opusFrameSize
  buffered : encoderInput rubato resampler received.flatten = done.flatten ++ task.pipeline.encodeBuffer
  codec : ∃ codec, codecAfter opus s done = some codec ∧ task.pipeline.encoder = encoderAt codec done.length
  queued : (queuedBy i trace).map VoiceData.packet = voicePackets opus s 0 done
  finished : .finish i ∈ trace → task.running = false ∧ task.input = [] ∧
    task.pipeline.encodeBuffer.length < opusFrameSize

end Pipelines

section Steps
variable {opus : OpusEncoder S F} {rubato : AudioResampler R F} {closesAfter : Option ℕ}
  {newEncoder : Except VoiceError S} {newResampler : UInt32 → Except VoiceError R} {i : ℕ}
  {trace : List (Label F)} {task task' : VoiceTask S R F} {s : S} {resampler : Option R}
  {received done : List (List F)} {label : Label F}

theorem create_new {rate : UInt32} {p : InputPipeline S R F}
    (h : create newEncoder newResampler rate = .ok p) : ∃ s resampler, p = .new s resampler := by
  unfold create at h
  cases hencoder : newEncoder with
  | error e =>
    rw [hencoder] at h
    cases h
  | ok encoder =>
    rw [hencoder] at h
    by_cases htarget : rate = opusSampleRate
    · rw [htarget] at h
      cases h
      exact ⟨_,_,rfl⟩
    · cases hresampler : newResampler rate with
      | error e =>
        simp only [bind,Except.bind,ne_eq,htarget,not_false_eq_true,if_true,hresampler] at h
        cases h
      | ok resampler =>
        simp only [bind,Except.bind,ne_eq,htarget,not_false_eq_true,if_true,hresampler] at h
        cases h
        exact ⟨_,_,rfl⟩

/-- A step that leaves the counts of the pipeline alone. -/
theorem Speaking.keep (h : Speaking opus rubato newEncoder newResampler i trace task s resampler received done)
    (hspoken : spoken i [label] = []) (hqueued : queuedBy i [label] = [])
    (hinput : task'.input = task.input) (hpipeline : task'.pipeline = task.pipeline)
    (hfinished : .finish i ∈ trace ++ [label] → task'.running = false ∧ task'.input = [] ∧
      task'.pipeline.encodeBuffer.length < opusFrameSize) :
    Speaking opus rubato newEncoder newResampler i (trace ++ [label]) task' s resampler received done := by
  obtain ⟨rate,hrate,hcreate⟩ := h.created
  constructor
  · refine ⟨rate,?_,hcreate⟩
    rw [rates_concat]
    exact getElem?_append_of_some hrate _
  · rw [spoken_concat,hspoken,List.append_nil,hinput]
    exact h.given
  · rw [hpipeline]
    exact h.kept
  · exact h.full
  · rw [hpipeline]
    exact h.buffered
  · rw [hpipeline]
    exact h.codec
  · rw [queuedBy_concat,hqueued,List.append_nil]
    exact h.queued
  · exact hfinished

/-- A step of another pipeline, or of none. -/
theorem Speaking.other (h : Speaking opus rubato newEncoder newResampler i trace task s resampler received done)
    (hne : label.pipeline ≠ some i) :
    Speaking opus rubato newEncoder newResampler i (trace ++ [label]) task s resampler received done := by
  obtain ⟨hspoken,hqueued,hfinish⟩ := quiet_label hne
  refine h.keep hspoken hqueued rfl rfl fun hmem => ?_
  rcases List.mem_append.mp hmem with hmem | hmem
  · exact h.finished hmem
  · exact (hfinish hmem).elim

/-- A running task has not finished. -/
theorem Speaking.unfinished (h : Speaking opus rubato newEncoder newResampler i trace task s resampler received done)
    (hrunning : task.running = true) : .finish i ∉ trace := by
  intro hmem
  cases (h.finished hmem).1.symm.trans hrunning

theorem Speaking.send (h : Speaking opus rubato newEncoder newResampler i trace task s resampler received done)
    (hrunning : task.running = true) (frame : List F) :
    Speaking opus rubato newEncoder newResampler i (trace ++ [.send i frame])
      { task with input := task.input ++ [frame] } s resampler received done := by
  obtain ⟨rate,hrate,hcreate⟩ := h.created
  have hsent : spoken i [.send i frame] = [frame] :=
    List.filterMap_cons_some (if_pos rfl)
  have hnone : queuedBy i (trace ++ [.send i frame]) = queuedBy i trace := by
    rw [queuedBy_concat]
    exact List.append_nil _
  refine ⟨⟨rate,?_,hcreate⟩,?_,h.kept,h.full,h.buffered,h.codec,?_,fun hmem => ?_⟩
  · rw [rates_concat]
    exact getElem?_append_of_some hrate _
  · rw [spoken_concat,hsent,h.given,List.append_assoc]
  · rw [hnone]
    exact h.queued
  · exact (h.unfinished hrunning (by simpa using hmem)).elim

theorem Speaking.recv (h : Speaking opus rubato newEncoder newResampler i trace task s resampler received done)
    (hrunning : task.running = true) {frame : List F} {rest : List (List F)}
    (hinput : task.input = frame :: rest) :
    Speaking opus rubato newEncoder newResampler i (trace ++ [.recv i])
      { task with pipeline := task.pipeline.resample rubato frame, input := rest } s resampler
        (received ++ [frame]) done := by
  obtain ⟨rate,hrate,hcreate⟩ := h.created
  obtain ⟨hkept,hencoder,more,hbuffer,hmore⟩ := h.kept.resample frame
  have hflatten : (received ++ [frame]).flatten = received.flatten ++ frame := by
    rw [List.flatten_append,List.flatten_singleton]
  refine ⟨⟨rate,?_,hcreate⟩,?_,?_,h.full,?_,?_,?_,fun hmem => ?_⟩
  · rw [rates_concat]
    exact getElem?_append_of_some hrate _
  · rw [spoken_concat,h.given,hinput]
    simp [spoken]
  · rw [hflatten]
    exact hkept
  · change _ = done.flatten ++ (task.pipeline.resample rubato frame).encodeBuffer
    rw [hflatten,hmore,h.buffered,hbuffer,List.append_assoc]
  · change ∃ codec, _ ∧ (task.pipeline.resample rubato frame).encoder = _
    rw [hencoder]
    exact h.codec
  · rw [queuedBy_concat]
    exact (congrArg (List.map VoiceData.packet) (List.append_nil _)).trans h.queued
  · exact (h.unfinished hrunning (by simpa using hmem)).elim

variable [Zero F]

/-- A packet is queued for the next frame. -/
theorem Speaking.queue (h : Speaking opus rubato newEncoder newResampler i trace task s resampler received done)
    (hrunning : task.running = true) (hfull : opusFrameSize ≤ task.pipeline.encodeBuffer.length)
    {d : VoiceData} {encoder : Encoder S}
    (hencode : task.pipeline.encoder.encode opus (task.pipeline.encodeBuffer.take opusFrameSize) =
      .ok (d,encoder)) :
    Speaking opus rubato newEncoder newResampler i (trace ++ [.queue i d])
      { task with pipeline := { task.pipeline with
          encoder := encoder
          encodeBuffer := task.pipeline.encodeBuffer.drop opusFrameSize } } s resampler received
        (done ++ [task.pipeline.encodeBuffer.take opusFrameSize]) := by
  obtain ⟨rate,hrate,hcreate⟩ := h.created
  obtain ⟨codec,hcodec,hat⟩ := h.codec
  have hlen : (task.pipeline.encodeBuffer.take opusFrameSize).length = opusFrameSize :=
    List.length_take_of_le hfull
  have hone : queuedBy i ([.queue i d] : List (Label F)) = [d] := List.filterMap_cons_some (if_pos rfl)
  rw [hat] at hencode
  cases hframe : opus.encodeFloat codec (task.pipeline.encodeBuffer.take opusFrameSize) with
  | error message =>
    rw [encode_error hlen hframe] at hencode
    cases hencode
  | ok x =>
    obtain ⟨codec',data⟩ := x
    rw [encode_ok hlen hframe] at hencode
    cases hencode
    refine ⟨⟨rate,?_,hcreate⟩,?_,⟨h.kept.machine,h.kept.rest⟩,?_,?_,⟨codec',?_,?_⟩,?_,fun hmem => ?_⟩
    · rw [rates_concat]
      exact getElem?_append_of_some hrate _
    · rw [spoken_concat]
      exact (List.append_nil _).trans h.given
    · intro frame hmem
      rcases List.mem_append.mp hmem with hmem | hmem
      · exact h.full frame hmem
      · rw [List.mem_singleton.mp hmem]
        exact hlen
    · change _ = _ ++ task.pipeline.encodeBuffer.drop opusFrameSize
      rw [h.buffered,List.flatten_append,List.flatten_singleton,List.append_assoc,List.take_append_drop]
    · rw [codecAfter_concat hcodec,codecAfter,hframe]
      rfl
    · rw [List.length_append]
      rfl
    · rw [queuedBy_concat,hone,List.map_append,h.queued,voicePackets_append hcodec,Nat.zero_add]
      simp [voicePackets,hframe,VoiceData.packet]
    · exact (h.unfinished hrunning (by simpa using hmem)).elim

end Steps

/-! ## All of them -/

section Runs
variable [Zero F] {opus : OpusEncoder S F} {rubato : AudioResampler R F} {closesAfter : Option ℕ}
  {newEncoder : Except VoiceError S} {newResampler : UInt32 → Except VoiceError R}
  {trace : List (Label F)} {m m' : InputOutputManager S R F} {label : Label F}

/-- Every task speaks for itself, and nothing has been said in the name of others. -/
structure Voiced (opus : OpusEncoder S F) (rubato : AudioResampler R F) (newEncoder : Except VoiceError S)
    (newResampler : UInt32 → Except VoiceError R) (trace : List (Label F)) (m : InputOutputManager S R F) :
    Prop where
  rates : (rates trace).length = m.tasks.length
  speaking : ∀ i task, m.tasks[i]? = some task → ∃ s resampler received done,
    Speaking opus rubato newEncoder newResampler i trace task s resampler received done
  unborn : ∀ i, m.tasks.length ≤ i → spoken i trace = [] ∧ queuedBy i trace = [] ∧ .finish i ∉ trace

omit [Zero F] in
/-- A step of a task. -/
theorem Voiced.move (h : Voiced opus rubato newEncoder newResampler trace m) {i : ℕ} {task task' : VoiceTask S R F}
    {sent : List Bytes} (htask : m.tasks[i]? = some task) (hlabel : label.pipeline = some i)
    (hspeaks : ∀ {s resampler received done},
      Speaking opus rubato newEncoder newResampler i trace task s resampler received done →
      ∃ received' done', Speaking opus rubato newEncoder newResampler i (trace ++ [label]) task' s resampler
        received' done') :
    Voiced opus rubato newEncoder newResampler (trace ++ [label])
      { m with tasks := m.tasks.set i task', sent := sent } := by
  have hrates : InputOutputManager.rates [label] = [] := by
    cases label with
    | getVoiceInputSender => cases hlabel
    | _ => rfl
  have hlt := (List.getElem?_eq_some_iff.mp htask).1
  constructor
  · rw [rates_concat,hrates,List.append_nil,List.length_set]
    exact h.rates
  · intro j task₂ htask₂
    rw [getElem?_set_of_some htask] at htask₂
    split at htask₂
    · rename_i hji
      subst hji
      cases htask₂
      obtain ⟨s,resampler,received,done,hspeaking⟩ := h.speaking j task htask
      obtain ⟨received',done',hspeaking'⟩ := hspeaks hspeaking
      exact ⟨s,resampler,received',done',hspeaking'⟩
    · rename_i hji
      obtain ⟨s,resampler,received,done,hspeaking⟩ := h.speaking j task₂ htask₂
      refine ⟨s,resampler,received,done,hspeaking.other ?_⟩
      rw [hlabel]
      exact fun heq => hji (Option.some.inj heq).symm
  · intro j hj
    rw [List.length_set] at hj
    obtain ⟨hspoken,hqueued,hfinish⟩ := h.unborn j hj
    have hquiet : label.pipeline ≠ some j := by
      rw [hlabel]
      rintro ⟨⟩
      omega
    obtain ⟨hspoken',hqueued',hfinish'⟩ := quiet_label hquiet
    rw [spoken_concat,queuedBy_concat,hspoken,hqueued,hspoken',hqueued',List.mem_append]
    exact ⟨rfl,rfl,fun hmem => hmem.elim hfinish hfinish'⟩

omit [Zero F] in
/-- A new pipeline has received nothing. -/
theorem Voiced.born {rate : UInt32} {p : InputPipeline S R F}
    (h : Voiced opus rubato newEncoder newResampler trace m)
    (hp : create newEncoder newResampler rate = .ok p) :
    Voiced opus rubato newEncoder newResampler (trace ++ [.getVoiceInputSender rate])
      ⟨m.tasks ++ [⟨p,[],false,true⟩],some m.tasks.length,m.sent⟩ := by
  have hquiet : ∀ j, (Label.getVoiceInputSender rate : Label F).pipeline ≠ some j := fun j heq => by cases heq
  have hrates : InputOutputManager.rates (trace ++ [.getVoiceInputSender rate]) =
      InputOutputManager.rates trace ++ [rate] := rates_concat _ _
  constructor
  · rw [hrates,List.length_append,List.length_append,h.rates]
    rfl
  · intro i task htask
    rcases getElem?_concat_inv htask with hold | ⟨rfl,rfl⟩
    · obtain ⟨s,resampler,received,done,hspeaking⟩ := h.speaking i task hold
      exact ⟨s,resampler,received,done,hspeaking.other (hquiet i)⟩
    · obtain ⟨s,resampler,rfl⟩ := create_new hp
      obtain ⟨hspoken,hqueued,hfinish⟩ := h.unborn m.tasks.length le_rfl
      obtain ⟨hspoken',hqueued',hfinish'⟩ := quiet_label (hquiet m.tasks.length)
      refine ⟨s,resampler,[],[],⟨rate,?_,hp⟩,?_,kept_new resampler,fun _ h => (by cases h),?_,⟨s,rfl,rfl⟩,?_,?_⟩
      · rw [hrates,← h.rates]
        exact List.getElem?_concat_length
      · rw [spoken_concat,hspoken,hspoken']
      · exact encoderInput_nil resampler
      · rw [queuedBy_concat,hqueued,hqueued']
        rfl
      · intro hmem
        exact ((List.mem_append.mp hmem).elim hfinish hfinish').elim
  · intro j hj
    have hj : m.tasks.length + 1 ≤ j := by simpa using hj
    obtain ⟨hspoken,hqueued,hfinish⟩ := h.unborn j (by omega)
    obtain ⟨hspoken',hqueued',hfinish'⟩ := quiet_label (hquiet j)
    rw [spoken_concat,queuedBy_concat,hspoken,hqueued,hspoken',hqueued',List.mem_append]
    exact ⟨rfl,rfl,fun hmem => hmem.elim hfinish hfinish'⟩

theorem step_voiced (h : Voiced opus rubato newEncoder newResampler trace m)
    (hs : Step opus rubato closesAfter newEncoder newResampler m label m') :
    Voiced opus rubato newEncoder newResampler (trace ++ [label]) m' := by
  cases hs with
  | getVoiceInputSender hp => exact h.born hp
  | @refuseVoiceInputSender rate e hp =>
    have hquiet : ∀ j, (Label.refuseVoiceInputSender rate : Label F).pipeline ≠ some j :=
      fun j heq => by cases heq
    constructor
    · rw [rates_concat]
      exact (congrArg List.length (List.append_nil _)).trans h.rates
    · intro i task htask
      obtain ⟨s,resampler,received,done,hspeaking⟩ := h.speaking i task htask
      exact ⟨s,resampler,received,done,hspeaking.other (hquiet i)⟩
    · intro j hj
      obtain ⟨hspoken,hqueued,hfinish⟩ := h.unborn j hj
      obtain ⟨hspoken',hqueued',hfinish'⟩ := quiet_label (hquiet j)
      rw [spoken_concat,queuedBy_concat,hspoken,hqueued,hspoken',hqueued',List.mem_append]
      exact ⟨rfl,rfl,fun hmem => hmem.elim hfinish hfinish'⟩
  | send frame htask hopen hrunning =>
    exact h.move htask rfl fun hspeaking => ⟨_,_,hspeaking.send hrunning frame⟩
  | close htask =>
    refine h.move htask rfl fun hspeaking => ⟨_,_,hspeaking.keep rfl rfl rfl rfl fun hmem => ?_⟩
    exact hspeaking.finished (by simpa using hmem)
  | recv htask hrunning hidle hinput =>
    exact h.move htask rfl fun hspeaking => ⟨_,_,hspeaking.recv hrunning hinput⟩
  | queue htask hrunning hfull hdata hrun =>
    exact h.move htask rfl fun hspeaking =>
      ⟨_,_,hspeaking.queue hrunning hfull (encodeFrame_queues hdata hrun).1⟩
  | fail htask hrunning =>
    refine h.move htask rfl fun hspeaking => ⟨_,_,hspeaking.keep rfl rfl rfl rfl fun hmem => ?_⟩
    exact (hspeaking.unfinished hrunning (by simpa using hmem)).elim
  | finish htask hrunning hidle hinput =>
    exact h.move htask rfl fun hspeaking =>
      ⟨_,_,hspeaking.keep rfl rfl rfl rfl fun _ => ⟨rfl,hinput,hidle⟩⟩

theorem run_voiced (h : Run (Step opus rubato closesAfter newEncoder newResampler) new trace m) :
    Voiced opus rubato newEncoder newResampler trace m := by
  induction h with
  | refl => exact ⟨rfl,fun _ _ h => (by cases h),fun _ _ => ⟨rfl,rfl,fun h => (by cases h)⟩⟩
  | snoc _ hs ih => exact step_voiced ih hs

omit [Zero F] in
/-- Each pipeline has sent the first of the packets that the samples given to its own sender
come to, and all of them when it has come to its end. -/
theorem Voiced.sends (h : Voiced opus rubato newEncoder newResampler trace m) {i : ℕ}
    (hi : i < m.tasks.length) :
    ∃ rate s resampler, (InputOutputManager.rates trace)[i]? = some rate ∧
      create newEncoder newResampler rate = .ok (.new (F := F) s resampler) ∧
      (queuedBy i trace).map VoiceData.packet <+: voicePackets opus s 0
        (framesOf.split (encoderInput rubato resampler (spoken i trace).flatten)).1 ∧
      (.finish i ∈ trace → (queuedBy i trace).map VoiceData.packet = voicePackets opus s 0
        (framesOf.split (encoderInput rubato resampler (spoken i trace).flatten)).1) := by
  obtain ⟨s,resampler,received,done,hspeaking⟩ := h.speaking i m.tasks[i] (List.getElem?_eq_getElem hi)
  obtain ⟨rate,hrate,hcreate⟩ := hspeaking.created
  obtain ⟨codec,hcodec,_⟩ := hspeaking.codec
  refine ⟨rate,s,resampler,hrate,hcreate,?_,fun hmem => ?_⟩
  · -- the samples still in the channel come behind those received
    obtain ⟨more,hmore⟩ : encoderInput rubato resampler received.flatten <+:
        encoderInput rubato resampler (received.flatten ++ m.tasks[i].input.flatten) :=
      encoderInput_append resampler received.flatten m.tasks[i].input.flatten
    rw [hspeaking.queued,hspeaking.given,List.flatten_append,← hmore,hspeaking.buffered,List.append_assoc,
      Blocks.split_flatten hspeaking.full,voicePackets_append hcodec]
    exact List.prefix_append _ _
  · obtain ⟨_,hinput,hshort⟩ := hspeaking.finished hmem
    rw [hspeaking.queued,hspeaking.given,hinput,List.append_nil,hspeaking.buffered,
      Blocks.split_flatten hspeaking.full,Blocks.split_short hshort,List.append_nil]

omit [Zero F] in
/-- A packet that was queued is one of those that the samples of one of the senders come to. -/
theorem Voiced.packet_of_queued (h : Voiced opus rubato newEncoder newResampler trace m) {d : VoiceData}
    (hd : d ∈ queued trace) :
    ∃ i rate s resampler, (InputOutputManager.rates trace)[i]? = some rate ∧
      create newEncoder newResampler rate = .ok (.new (F := F) s resampler) ∧
      d.packet ∈ voicePackets opus s 0
        (framesOf.split (encoderInput rubato resampler (spoken i trace).flatten)).1 := by
  obtain ⟨i,hmem⟩ := mem_queuedBy hd
  have hi : i < m.tasks.length := by
    by_contra hge
    obtain ⟨_,hnone,_⟩ := h.unborn i (by omega)
    rw [hnone] at hmem
    cases hmem
  obtain ⟨rate,s,resampler,hrate,hcreate,hfirst,_⟩ := h.sends hi
  exact ⟨i,rate,s,resampler,hrate,hcreate,hfirst.subset (List.mem_map_of_mem hmem)⟩

end Runs

end InputOutputManager
end VoiceApp.Sdk
