import VoiceApp.Base.LabelledRun
import VoiceApp.Sdk.InputPipeline

/-! # The voice stream of one client

Every sender that the client hands out belongs to a pipeline of its own, with its own
encoder and its own task. All tasks put their packets on one queue. Nothing ends a task but
the end of its samples, and nothing hands the counters on.
-/
namespace VoiceApp.Sdk
open Protocol Framing

/-- A pipeline's task and the channel of its sender. -/
structure VoiceTask (S R F : Type) where
  pipeline : InputPipeline S R F
  input : List (List F)
  inputClosed : Bool
  running : Bool

/-- The manager's handle on its pipeline is the number of the pipeline; the value behind it
is empty. -/
structure InputOutputManager (S R F : Type) where
  tasks : List (VoiceTask S R F)
  inputPipeline : Option ℕ
  sent : List Bytes

namespace InputOutputManager
variable {S R F : Type} [Zero F]

def new : InputOutputManager S R F := ⟨[],none,[]⟩

/-- What the manager and the tasks do; a packet that is queued comes with the number of its
pipeline. -/
inductive Label (F : Type)
  | getVoiceInputSender (inputSampleRate : UInt32)
  | refuseVoiceInputSender (inputSampleRate : UInt32)
  | send (i : ℕ) (frame : List F)
  | close (i : ℕ)
  | recv (i : ℕ)
  | queue (i : ℕ) (d : VoiceData)
  | fail (i : ℕ)
  | finish (i : ℕ)

section Steps
variable (opus : OpusEncoder S F) (rubato : AudioResampler R F) (closesAfter : Option ℕ)
  -- `opus::Encoder::new` and `AudioResampler::new`
  (newEncoder : Except VoiceError S) (newResampler : UInt32 → Except VoiceError R)

/-- `InputPipeline::new` -/
def create (targetSampleRate : UInt32) : Except VoiceError (InputPipeline S R F) := do
  let encoder ← newEncoder
  let resampler ←
    if targetSampleRate ≠ opusSampleRate then some <$> newResampler targetSampleRate else pure none
  return .new encoder resampler

inductive Step (m : InputOutputManager S R F) : Label F → InputOutputManager S R F → Prop
  | getVoiceInputSender {inputSampleRate : UInt32} {p : InputPipeline S R F}
      (h : create newEncoder newResampler inputSampleRate = .ok p) :
      Step m (.getVoiceInputSender inputSampleRate)
        ⟨m.tasks ++ [⟨p,[],false,true⟩],some m.tasks.length,m.sent⟩
  | refuseVoiceInputSender {inputSampleRate : UInt32} {e : VoiceError}
      (h : create newEncoder newResampler inputSampleRate = (.error e : Except _ (InputPipeline S R F))) :
      Step m (.refuseVoiceInputSender inputSampleRate) { m with inputPipeline := none }
  | send {i : ℕ} {task : VoiceTask S R F} (frame : List F) (h : m.tasks[i]? = some task)
      (hopen : task.inputClosed = false) (hrunning : task.running = true) :
      Step m (.send i frame)
        { m with tasks := m.tasks.set i { task with input := task.input ++ [frame] } }
  | close {i : ℕ} {task : VoiceTask S R F} (h : m.tasks[i]? = some task) :
      Step m (.close i) { m with tasks := m.tasks.set i { task with inputClosed := true } }
  | recv {i : ℕ} {task : VoiceTask S R F} {frame : List F} {rest : List (List F)}
      (h : m.tasks[i]? = some task) (hrunning : task.running = true)
      (hidle : task.pipeline.encodeBuffer.length < opusFrameSize) (hinput : task.input = frame :: rest) :
      Step m (.recv i) { m with
        tasks := m.tasks.set i { task with
          pipeline := task.pipeline.resample rubato frame
          input := rest } }
  | queue {i : ℕ} {task : VoiceTask S R F} {d : VoiceData} {t : Sending S}
      (h : m.tasks[i]? = some task) (hrunning : task.running = true)
      (hfull : opusFrameSize ≤ task.pipeline.encodeBuffer.length)
      (hdata : (task.pipeline.encoder.encode opus (task.pipeline.encodeBuffer.take opusFrameSize)).map
        Prod.fst = .ok d)
      (hrun : (encodeFrame opus closesAfter (task.pipeline.encodeBuffer.take opusFrameSize)).run.run
        ⟨task.pipeline.encoder,m.sent⟩ = (.ok ⟨⟩,t)) :
      Step m (.queue i d) { m with
        tasks := m.tasks.set i { task with
          pipeline := { task.pipeline with
            encoder := t.encoder
            encodeBuffer := task.pipeline.encodeBuffer.drop opusFrameSize } }
        sent := t.sent }
  | fail {i : ℕ} {task : VoiceTask S R F} {e : Stop} {t : Sending S}
      (h : m.tasks[i]? = some task) (hrunning : task.running = true)
      (hfull : opusFrameSize ≤ task.pipeline.encodeBuffer.length)
      (hrun : (encodeFrame opus closesAfter (task.pipeline.encodeBuffer.take opusFrameSize)).run.run
        ⟨task.pipeline.encoder,m.sent⟩ = (.error e,t)) :
      Step m (.fail i) { m with
        tasks := m.tasks.set i { task with running := false }
        sent := t.sent }
  | finish {i : ℕ} {task : VoiceTask S R F} (h : m.tasks[i]? = some task)
      (hrunning : task.running = true) (hidle : task.pipeline.encodeBuffer.length < opusFrameSize)
      (hinput : task.input = []) (hclosed : task.inputClosed = true) :
      Step m (.finish i) { m with tasks := m.tasks.set i { task with running := false } }

end Steps

/-! ## One stream -/

/-- The packets queued in a run, in order. -/
def queued (trace : List (Label F)) : List VoiceData :=
  trace.filterMap fun
    | .queue _ d => some d
    | _ => none

/-- How many senders have been returned. -/
def returned (trace : List (Label F)) : ℕ :=
  trace.countP fun
    | .getVoiceInputSender _ => true
    | _ => false

/-- Each packet carries the next number and the next time. -/
def Consecutive (ds : List VoiceData) : Prop := ∀ k a b, ds[k]? = some a → ds[k + 1]? = some b →
  b.sequence = a.sequence + 1 ∧ b.timestamp = a.timestamp + UInt32.ofNat opusFrameSize

/-- Every packet comes from the sender returned last. -/
def NewestOnly (trace : List (Label F)) : Prop := ∀ pre i d post, trace = pre ++ .queue i d :: post →
  i + 1 = returned pre

def OneStream (trace : List (Label F)) : Prop := Consecutive (queued trace) ∧ NewestOnly trace

/-- When a sender is asked for, no running task holds a whole frame, and what an older task
receives later does not complete one. The first packet of a pipeline is queued only when the
number of packets queued before it is a multiple of `2 ^ 32`, as it is when there are none. -/
def Careful (rubato : AudioResampler R F) (m : InputOutputManager S R F) : Label F → Prop
  | .getVoiceInputSender _ => ∀ (i : ℕ) (task : VoiceTask S R F), m.tasks[i]? = some task →
      task.running = true → task.pipeline.encodeBuffer.length < opusFrameSize
  | .recv i => i + 1 ≠ m.tasks.length → ∀ task frame rest, m.tasks[i]? = some task →
      task.input = frame :: rest →
      (task.pipeline.resample rubato frame).encodeBuffer.length < opusFrameSize
  | .queue i _ => ∀ task, m.tasks[i]? = some task → task.pipeline.encoder.sequence = 0 →
      2 ^ 32 ∣ m.sent.length
  | _ => True

/-! ## One step -/

/-- The encoder has encoded nothing, or as much as has been queued. -/
def Fresh (e : Encoder S) (count : ℕ) : Prop :=
  e.sequence = 0 ∧ e.timestamp = 0 ∨
  e.sequence = UInt32.ofNat count ∧ e.timestamp = UInt32.ofNat (opusFrameSize * count)

/-- The packets are numbered from 0 on, the newest pipeline goes on from there, and the other
running tasks hold no whole frame. -/
structure Numbered (trace : List (Label F)) (m : InputOutputManager S R F) : Prop where
  count : (queued trace).length = m.sent.length
  senders : returned trace = m.tasks.length
  numbered : ∀ k d, (queued trace)[k]? = some d →
    d.sequence = UInt32.ofNat k ∧ d.timestamp = UInt32.ofNat (opusFrameSize * k)
  fresh : ∀ i task, m.tasks[i]? = some task → i + 1 = m.tasks.length →
    Fresh task.pipeline.encoder m.sent.length
  idle : ∀ i task, m.tasks[i]? = some task → i + 1 ≠ m.tasks.length → task.running = true →
    task.pipeline.encodeBuffer.length < opusFrameSize
  newest : NewestOnly trace

section Traces
omit [Zero F]

theorem queued_concat (trace : List (Label F)) (label : Label F) :
    queued (trace ++ [label]) = queued trace ++ queued [label] := List.filterMap_append ..

theorem returned_concat (trace : List (Label F)) (label : Label F) :
    returned (trace ++ [label]) = returned trace + returned [label] := List.countP_append ..

/-- A packet is queued at the end of the run, or has been queued before. -/
theorem newestOnly_concat {trace : List (Label F)} {label : Label F} (h : NewestOnly trace)
    (hlast : ∀ i d, label = .queue i d → i + 1 = returned trace) : NewestOnly (trace ++ [label]) := by
  intro pre i d post htrace
  rcases List.eq_nil_or_concat post with rfl | ⟨post,last,rfl⟩
  · obtain ⟨rfl,hlabel⟩ := List.append_inj' htrace rfl
    exact hlast i d (List.cons.inj hlabel).1
  · rw [List.concat_eq_append,← List.cons_append,← List.append_assoc] at htrace
    exact h pre i d post (List.append_inj' htrace rfl).1

/-- A packet with the next number keeps the numbering. -/
theorem numbered_concat {ds : List VoiceData} {d : VoiceData}
    (h : ∀ k d, ds[k]? = some d →
      d.sequence = UInt32.ofNat k ∧ d.timestamp = UInt32.ofNat (opusFrameSize * k))
    (hd : d.sequence = UInt32.ofNat ds.length ∧ d.timestamp = UInt32.ofNat (opusFrameSize * ds.length))
    (k : ℕ) (d' : VoiceData) (hk : (ds ++ [d])[k]? = some d') :
    d'.sequence = UInt32.ofNat k ∧ d'.timestamp = UInt32.ofNat (opusFrameSize * k) := by
  rcases Nat.lt_trichotomy k ds.length with hlt | rfl | hgt
  · rw [List.getElem?_append_left hlt] at hk
    exact h k d' hk
  · rw [List.getElem?_concat_length] at hk
    cases hk
    exact hd
  · rw [List.getElem?_eq_none (by rw [List.length_append,List.length_singleton]; omega)] at hk
    cases hk

end Traces

omit [Zero F] in
/-- Packets numbered from 0 on are consecutive. -/
theorem Numbered.oneStream {trace : List (Label F)} {m : InputOutputManager S R F} (h : Numbered trace m) :
    OneStream trace := by
  refine ⟨fun k a b ha hb => ?_,h.newest⟩
  obtain ⟨hasequence,hatime⟩ := h.numbered k a ha
  obtain ⟨hbsequence,hbtime⟩ := h.numbered (k + 1) b hb
  rw [hasequence,hatime,hbsequence,hbtime]
  exact ⟨UInt32.ofNat_add k 1,UInt32.ofNat_add (opusFrameSize * k) opusFrameSize⟩

omit [Zero F] in
theorem numbered_new : Numbered [] (new : InputOutputManager S R F) :=
  ⟨rfl,rfl,fun _ _ h => (by cases h),fun _ _ h => (by cases h),fun _ _ h => (by cases h),
    fun _ _ _ _ h => (by simp at h)⟩

omit [Zero F] in
/-- A step that queues nothing, by what the tasks are like behind it. -/
theorem Numbered.still {trace : List (Label F)} {m m' : InputOutputManager S R F} {label : Label F}
    (h : Numbered trace m) (hqueued : queued [label] = []) (hsent : m'.sent = m.sent)
    (hsenders : m.tasks.length + returned [label] = m'.tasks.length)
    (hfresh : ∀ (i : ℕ) (task : VoiceTask S R F), m'.tasks[i]? = some task →
      i + 1 = m'.tasks.length → Fresh task.pipeline.encoder m.sent.length)
    (hidle : ∀ (i : ℕ) (task : VoiceTask S R F), m'.tasks[i]? = some task →
      i + 1 ≠ m'.tasks.length → task.running = true →
      task.pipeline.encodeBuffer.length < opusFrameSize) : Numbered (trace ++ [label]) m' := by
  have hsame : queued (trace ++ [label]) = queued trace := by
    rw [queued_concat,hqueued,List.append_nil]
  constructor
  · rw [hsame,hsent]
    exact h.count
  · rw [returned_concat,h.senders]
    exact hsenders
  · rw [hsame]
    exact h.numbered
  · rw [hsent]
    exact hfresh
  · exact hidle
  · refine newestOnly_concat h.newest ?_
    rintro i d rfl
    cases hqueued

omit [Zero F] in
/-- A step that queues nothing and changes one task but for its encoder. -/
theorem Numbered.quiet {trace : List (Label F)} {m : InputOutputManager S R F} {label : Label F}
    {i : ℕ} {task changed : VoiceTask S R F} {sent : List Bytes} (h : Numbered trace m)
    (hqueued : queued [label] = []) (hreturned : returned [label] = 0) (hsent : sent = m.sent)
    (htask : m.tasks[i]? = some task)
    (hencoder : changed.pipeline.encoder = task.pipeline.encoder)
    (hidle : i + 1 ≠ m.tasks.length → changed.running = true →
      changed.pipeline.encodeBuffer.length < opusFrameSize) :
    Numbered (trace ++ [label]) { m with tasks := m.tasks.set i changed, sent := sent } := by
  have hset : ∀ (j : ℕ) (task' : VoiceTask S R F), (m.tasks.set i changed)[j]? = some task' →
      j = i ∧ task' = changed ∨ m.tasks[j]? = some task' := by
    intro j task' htask'
    by_cases hij : i = j
    · subst hij
      rw [List.getElem?_set_self (List.getElem?_eq_some_iff.mp htask).1] at htask'
      exact .inl ⟨rfl,(Option.some.inj htask').symm⟩
    · rw [List.getElem?_set_ne hij] at htask'
      exact .inr htask'
  refine h.still hqueued hsent ?_ ?_ ?_
  · rw [hreturned,List.length_set]
    rfl
  · intro j task' htask' hlast
    rw [List.length_set] at hlast
    rcases hset j task' htask' with ⟨rfl,rfl⟩ | hold
    · rw [hencoder]
      exact h.fresh j task htask hlast
    · exact h.fresh j task' hold hlast
  · intro j task' htask' hlast
    rw [List.length_set] at hlast
    rcases hset j task' htask' with ⟨rfl,rfl⟩ | hold
    · exact hidle hlast
    · exact h.idle j task' hold hlast

omit [Zero F] in
theorem resample_encoder (rubato : AudioResampler R F) (p : InputPipeline S R F) (frame : List F) :
    (p.resample rubato frame).encoder = p.encoder := by
  unfold InputPipeline.resample
  split <;> rfl

/-- A multiple of `2 ^ 32` counts as none. -/
theorem counters_of_dvd {count : ℕ} (h : 2 ^ 32 ∣ count) :
    UInt32.ofNat count = 0 ∧ UInt32.ofNat (opusFrameSize * count) = 0 := by
  obtain ⟨k,rfl⟩ := h
  constructor
  · rw [← UInt32.toNat_inj,UInt32.toNat_ofNat']
    exact Nat.mul_mod_right _ _
  · rw [← UInt32.toNat_inj,UInt32.toNat_ofNat',Nat.mul_left_comm]
    exact Nat.mul_mod_right _ _

omit [Zero F] in
/-- A sender that is returned while no running task holds a whole frame. -/
theorem Numbered.returns {trace : List (Label F)} {m : InputOutputManager S R F}
    {inputSampleRate : UInt32} {p : InputPipeline S R F} (h : Numbered trace m)
    (hp : p.encoder.sequence = 0 ∧ p.encoder.timestamp = 0)
    (hidle : ∀ (i : ℕ) (task : VoiceTask S R F), m.tasks[i]? = some task → task.running = true →
      task.pipeline.encodeBuffer.length < opusFrameSize) :
    Numbered (trace ++ [.getVoiceInputSender inputSampleRate])
      ⟨m.tasks ++ [⟨p,[],false,true⟩],some m.tasks.length,m.sent⟩ := by
  have hlength : (m.tasks ++ [(⟨p,[],false,true⟩ : VoiceTask S R F)]).length = m.tasks.length + 1 :=
    List.length_append
  refine h.still rfl rfl hlength.symm ?_ ?_
  · intro i task htask hlast
    obtain rfl : i = m.tasks.length := Nat.succ.inj (hlast.trans hlength)
    rw [List.getElem?_concat_length] at htask
    cases htask
    exact .inl hp
  · intro i task htask hlast
    obtain ⟨hlt,_⟩ := List.getElem?_eq_some_iff.mp htask
    rw [hlength] at hlt hlast
    rw [List.getElem?_append_left (by omega)] at htask
    exact hidle i task htask

omit [Zero F] in
/-- A sender that is refused. -/
theorem Numbered.refuses {trace : List (Label F)} {m : InputOutputManager S R F}
    {inputSampleRate : UInt32} (h : Numbered trace m) :
    Numbered (trace ++ [.refuseVoiceInputSender inputSampleRate]) { m with inputPipeline := none } :=
  h.still rfl rfl rfl h.fresh h.idle

omit [Zero F] in
/-- The task with a whole frame is that of the newest sender. -/
theorem Numbered.full_newest {trace : List (Label F)} {m : InputOutputManager S R F} {i : ℕ}
    {task : VoiceTask S R F} (h : Numbered trace m) (htask : m.tasks[i]? = some task)
    (hrunning : task.running = true) (hfull : opusFrameSize ≤ task.pipeline.encodeBuffer.length) :
    i + 1 = m.tasks.length := by
  by_contra hne
  have hlt := h.idle i task htask hne hrunning
  omega

omit [Zero F] in
/-- The counters of the newest pipeline when its packet may be queued. -/
theorem Numbered.counters {trace : List (Label F)} {m : InputOutputManager S R F} {i : ℕ}
    {task : VoiceTask S R F} (h : Numbered trace m) (htask : m.tasks[i]? = some task)
    (hnewest : i + 1 = m.tasks.length)
    (hfirst : task.pipeline.encoder.sequence = 0 → 2 ^ 32 ∣ m.sent.length) :
    task.pipeline.encoder.sequence = UInt32.ofNat m.sent.length ∧
      task.pipeline.encoder.timestamp = UInt32.ofNat (opusFrameSize * m.sent.length) := by
  rcases h.fresh i task htask hnewest with ⟨hsequence,htime⟩ | hcount
  · obtain ⟨hzero,htzero⟩ := counters_of_dvd (hfirst hsequence)
    rw [hsequence,htime,hzero,htzero]
    exact ⟨rfl,rfl⟩
  · exact hcount

omit [Zero F] in
/-- A packet with the next number, queued by the newest pipeline. -/
theorem Numbered.queues {trace : List (Label F)} {m : InputOutputManager S R F} {i : ℕ}
    {task changed : VoiceTask S R F} {d : VoiceData} {data : Bytes} (h : Numbered trace m)
    (htask : m.tasks[i]? = some task) (hnewest : i + 1 = m.tasks.length)
    (hd : d.sequence = UInt32.ofNat m.sent.length ∧
      d.timestamp = UInt32.ofNat (opusFrameSize * m.sent.length))
    (hchanged : changed.pipeline.encoder.sequence = d.sequence + 1 ∧
      changed.pipeline.encoder.timestamp = d.timestamp + UInt32.ofNat opusFrameSize) :
    Numbered (trace ++ [.queue i d])
      { m with tasks := m.tasks.set i changed, sent := m.sent ++ [data] } := by
  have hqueued : queued (trace ++ [.queue i d]) = queued trace ++ [d] := queued_concat trace _
  have hlength : (m.sent ++ [data]).length = m.sent.length + 1 := List.length_append
  constructor
  · rw [hqueued,List.length_append,h.count,hlength]
    rfl
  · rw [returned_concat,List.length_set]
    exact h.senders
  · rw [hqueued]
    refine numbered_concat h.numbered ?_
    rw [h.count]
    exact hd
  · intro j task' htask' hlast
    rw [List.length_set] at hlast
    obtain rfl : j = i := Nat.succ.inj (hlast.trans hnewest.symm)
    rw [List.getElem?_set_self (List.getElem?_eq_some_iff.mp htask).1] at htask'
    cases htask'
    refine .inr ?_
    rw [hchanged.1,hchanged.2,hd.1,hd.2,hlength]
    exact ⟨(UInt32.ofNat_add _ 1).symm,(UInt32.ofNat_add (opusFrameSize * m.sent.length) _).symm⟩
  · intro j task' htask' hlast
    rw [List.length_set] at hlast
    rw [List.getElem?_set_ne (by omega)] at htask'
    exact h.idle j task' htask' hlast
  · refine newestOnly_concat h.newest ?_
    rintro j d' hlabel
    cases hlabel
    rw [h.senders]
    exact hnewest

omit [Zero F] in
/-- Number 0 comes next after a multiple of `2 ^ 32` packets only. -/
theorem Numbered.dvd_of_consecutive {trace : List (Label F)} {m : InputOutputManager S R F} {d : VoiceData}
    (h : Numbered trace m) (hconsecutive : Consecutive (queued trace ++ [d])) (hd : d.sequence = 0) :
    2 ^ 32 ∣ m.sent.length := by
  rcases Nat.eq_zero_or_eq_succ_pred m.sent.length with hzero | hsucc
  · rw [hzero]
    exact Nat.dvd_zero _
  · have hcount := h.count.trans hsucc
    obtain ⟨last,hlast⟩ : ∃ last, (queued trace)[m.sent.length.pred]? = some last :=
      ⟨_,List.getElem?_eq_getElem (by omega)⟩
    have hnext := (hconsecutive m.sent.length.pred last d
      (by rw [List.getElem?_append_left (by omega)]; exact hlast)
      (by rw [← Nat.succ_eq_add_one,← hcount]; exact List.getElem?_concat_length)).1
    rw [hd,(h.numbered _ last hlast).1] at hnext
    have hwrap := congrArg UInt32.toNat (hnext.trans (UInt32.ofNat_add m.sent.length.pred 1).symm)
    rw [UInt32.toNat_ofNat',← Nat.succ_eq_add_one,← hsucc] at hwrap
    exact Nat.dvd_of_mod_eq_zero hwrap.symm

section Runs
variable {opus : OpusEncoder S F} {rubato : AudioResampler R F} {closesAfter : Option ℕ}
  {newEncoder : Except VoiceError S} {newResampler : UInt32 → Except VoiceError R}

omit [Zero F] in
/-- A new pipeline counts from 0. -/
theorem create_counters {inputSampleRate : UInt32} {p : InputPipeline S R F}
    (h : create newEncoder newResampler inputSampleRate = .ok p) :
    p.encoder.sequence = 0 ∧ p.encoder.timestamp = 0 := by
  unfold create at h
  cases hencoder : newEncoder with
  | error e =>
    rw [hencoder] at h
    cases h
  | ok encoder =>
    rw [hencoder] at h
    by_cases htarget : inputSampleRate = opusSampleRate
    · rw [htarget] at h
      cases h
      exact ⟨rfl,rfl⟩
    · cases hresampler : newResampler inputSampleRate with
      | error e =>
        simp only [bind,Except.bind,ne_eq,htarget,not_false_eq_true,if_true,hresampler] at h
        cases h
      | ok resampler =>
        simp only [bind,Except.bind,ne_eq,htarget,not_false_eq_true,if_true,hresampler] at h
        cases h
        exact ⟨rfl,rfl⟩

theorem step_numbered {trace : List (Label F)} {m m' : InputOutputManager S R F} {label : Label F}
    (h : Numbered trace m)
    (hs : Guarded (Careful rubato) (Step opus rubato closesAfter newEncoder newResampler) m label m') :
    Numbered (trace ++ [label]) m' := by
  obtain ⟨hcareful,hs⟩ := hs
  cases hs with
  | getVoiceInputSender hp => exact h.returns (create_counters hp) hcareful
  | refuseVoiceInputSender hp => exact h.refuses
  | @send i task frame htask hopen hrunning =>
    exact h.quiet rfl rfl rfl htask rfl fun hne => h.idle i task htask hne
  | @close i task htask => exact h.quiet rfl rfl rfl htask rfl fun hne => h.idle i task htask hne
  | @recv i task frame rest htask hrunning hidle hinput =>
    exact h.quiet rfl rfl rfl htask (resample_encoder ..) fun hne _ =>
      hcareful hne task frame rest htask hinput
  | @queue i task d t htask hrunning hfull hdata hrun =>
    have hnewest := h.full_newest htask hrunning hfull
    obtain ⟨hencode,data,_,hsent⟩ := encodeFrame_queues hdata hrun
    obtain ⟨hdsequence,hdtime,hsequence,htime⟩ := Encoder.encode_counters hencode
    obtain ⟨hnumber,htimes⟩ := h.counters htask hnewest (hcareful task htask)
    rw [hsent]
    refine h.queues htask hnewest ⟨hdsequence.trans hnumber,hdtime.trans htimes⟩ ⟨?_,?_⟩
    · exact hsequence.trans (congrArg (· + 1) hdsequence.symm)
    · exact htime.trans (congrArg (· + UInt32.ofNat opusFrameSize) hdtime.symm)
  | @fail i task e t htask hrunning hfull hrun =>
    exact h.quiet rfl rfl (encodeFrame_fails hrun) htask rfl fun _ hrunning => (by cases hrunning)
  | @finish i task htask =>
    exact h.quiet rfl rfl rfl htask rfl fun _ hrunning => (by cases hrunning)

theorem numbered_run {trace : List (Label F)} {m : InputOutputManager S R F}
    (h : Run (Guarded (Careful rubato) (Step opus rubato closesAfter newEncoder newResampler)) new trace m) :
    Numbered trace m := by
  induction h with
  | refl => exact numbered_new
  | snoc _ hs ih => exact step_numbered ih hs

/-- The numbers of a careful run go up by one, and the first packet of a pipeline that is
queued after other packets breaks the stream. -/
theorem one_stream {trace : List (Label F)} {m : InputOutputManager S R F}
    (h : Run (Guarded (Careful rubato) (Step opus rubato closesAfter newEncoder newResampler)) new trace m) :
    OneStream trace ∧ ∀ i d m', Step opus rubato closesAfter newEncoder newResampler m (.queue i d) m' →
      ¬Careful rubato m (.queue i d) → ¬OneStream (trace ++ [.queue i d]) := by
  have hm := numbered_run h
  refine ⟨hm.oneStream,?_⟩
  rintro i d m' hs hcareless ⟨hconsecutive,_⟩
  apply hcareless
  cases hs with
  | @queue i task d t htask hrunning hfull hdata hrun =>
    intro task' htask' hfirst
    obtain rfl : task' = task := Option.some.inj (htask'.symm.trans htask)
    obtain ⟨hencode,_⟩ := encodeFrame_queues hdata hrun
    obtain ⟨hdsequence,_⟩ := Encoder.encode_counters hencode
    rw [show queued (trace ++ [.queue i d]) = queued trace ++ [d] from queued_concat trace _]
      at hconsecutive
    exact hm.dvd_of_consecutive hconsecutive (hdsequence.trans hfirst)

end Runs
/-! A codec that makes the same frame of any samples, and a microphone of 48 kHz. -/
section Silence

def silenceCodec : OpusEncoder Unit ℤ where
  encodeFloat s _ := .ok (s,[248,255,254])
  length_le h := by
    cases h
    decide

def noResampler : AudioResampler Unit ℤ := ⟨fun r chunk => (r,.ok chunk)⟩

abbrev SilentStep : InputOutputManager Unit Unit ℤ → Label ℤ → InputOutputManager Unit Unit ℤ → Prop :=
  Step silenceCodec noResampler none (.ok ()) (fun _ => .ok ())

def silentFrame : List ℤ := List.replicate opusFrameSize 0

theorem length_silentFrame : silentFrame.length = opusFrameSize := List.length_replicate

/-- The manager after its newest task, the last of all, has changed to this one. -/
def withTask (tasks : List (VoiceTask Unit Unit ℤ)) (sent : List Bytes) (task : VoiceTask Unit Unit ℤ) :
    InputOutputManager Unit Unit ℤ := ⟨tasks ++ [task],some tasks.length,sent⟩

theorem withTask_set {tasks : List (VoiceTask Unit Unit ℤ)} {task task' : VoiceTask Unit Unit ℤ} :
    (tasks ++ [task]).set tasks.length task' = tasks ++ [task'] := by
  rw [List.set_append,if_neg (lt_irrefl _),Nat.sub_self]
  rfl

def openedTask (e : Encoder Unit) (input : List (List ℤ)) (encodeBuffer : List ℤ) : VoiceTask Unit Unit ℤ :=
  ⟨⟨e,none,[],encodeBuffer⟩,input,false,true⟩

/-- What a frame of samples is encoded to, and the encoder after it. -/
def silence (e : Encoder Unit) : VoiceData := ⟨e.sequence,0,e.timestamp,[248,255,254]⟩

def silenced (e : Encoder Unit) : Encoder Unit := ⟨(),e.sequence + 1,e.timestamp + UInt32.ofNat opusFrameSize⟩

/-- The task that has sent one packet. -/
def silentTask : VoiceTask Unit Unit ℤ := openedTask ⟨(),1,960⟩ [] []

def silentData : VoiceData := ⟨0,0,0,[248,255,254]⟩

def silentPacket : Bytes := silentData.packet.encode.getD []

theorem encode_silentFrame (e : Encoder Unit) :
    e.encode silenceCodec silentFrame = .ok (silence e,silenced e) := by
  unfold Encoder.encode
  rw [if_neg (by rw [length_silentFrame]; exact lt_irrefl _)]
  rfl

theorem getSender (tasks : List (VoiceTask Unit Unit ℤ)) (inputPipeline : Option ℕ) (sent : List Bytes) :
    SilentStep ⟨tasks,inputPipeline,sent⟩ (.getVoiceInputSender opusSampleRate)
      (withTask tasks sent (openedTask (.new ()) [] [])) := Step.getVoiceInputSender rfl

section Newest
variable (tasks : List (VoiceTask Unit Unit ℤ)) (sent : List Bytes) (e : Encoder Unit)

theorem sendFrame : SilentStep (withTask tasks sent (openedTask e [] [])) (.send tasks.length silentFrame)
    (withTask tasks sent (openedTask e [silentFrame] [])) := by
  have hs : SilentStep (withTask tasks sent (openedTask e [] [])) (.send tasks.length silentFrame) _ :=
    Step.send silentFrame List.getElem?_concat_length rfl rfl
  rw [withTask,withTask_set] at hs
  exact hs

theorem recvFrame : SilentStep (withTask tasks sent (openedTask e [silentFrame] [])) (.recv tasks.length)
    (withTask tasks sent (openedTask e [] silentFrame)) := by
  have hs : SilentStep (withTask tasks sent (openedTask e [silentFrame] [])) (.recv tasks.length) _ :=
    Step.recv List.getElem?_concat_length rfl (show 0 < opusFrameSize by decide) rfl
  rw [withTask,withTask_set] at hs
  exact hs

theorem queueFrame {bytes : Bytes} (hbytes : (silence e).packet.encode = some bytes) :
    SilentStep (withTask tasks sent (openedTask e [] silentFrame)) (.queue tasks.length (silence e))
      (withTask tasks (sent ++ [bytes]) (openedTask (silenced e) [] [])) := by
  have htake : (openedTask e [] silentFrame).pipeline.encodeBuffer.take opusFrameSize = silentFrame :=
    List.take_of_length_le length_silentFrame.le
  have hdrop : (openedTask e [] silentFrame).pipeline.encodeBuffer.drop opusFrameSize = [] :=
    List.drop_of_length_le length_silentFrame.le
  have hencode : (openedTask e [] silentFrame).pipeline.encoder.encode silenceCodec
      ((openedTask e [] silentFrame).pipeline.encodeBuffer.take opusFrameSize) =
        .ok (silence e,silenced e) := by
    rw [htake]
    exact encode_silentFrame e
  have hs : SilentStep (withTask tasks sent (openedTask e [] silentFrame))
      (.queue tasks.length (silence e)) _ :=
    Step.queue List.getElem?_concat_length rfl length_silentFrame.ge (by rw [hencode]; rfl)
      (encodeFrame_ok hencode hbytes)
  rw [withTask,withTask_set,hdrop] at hs
  exact hs

end Newest

/-- A sender is returned, takes one frame, and the frame is queued. -/
def silentLabels (i : ℕ) : List (Label ℤ) :=
  [.getVoiceInputSender opusSampleRate,.send i silentFrame,.recv i,.queue i silentData]

/-- Each sender that is returned starts again at 0. -/
theorem silent_run (tasks : List (VoiceTask Unit Unit ℤ)) (inputPipeline : Option ℕ) (sent : List Bytes) :
    Run SilentStep ⟨tasks,inputPipeline,sent⟩ (silentLabels tasks.length)
      (withTask tasks (sent ++ [silentPacket]) silentTask) :=
  (((Run.single (getSender tasks inputPipeline sent)).snoc (sendFrame tasks sent (.new ()))).snoc
    (recvFrame tasks sent (.new ()))).snoc (queueFrame tasks sent (.new ()) rfl)

/-- The newest sender takes one frame, and the frame is queued. -/
def frameLabels (i : ℕ) (e : Encoder Unit) : List (Label ℤ) :=
  [.send i silentFrame,.recv i,.queue i (silence e)]

/-- The frames of the newest sender are queued with care, as long as its first packet is the
first of all. -/
theorem frame_run {tasks : List (VoiceTask Unit Unit ℤ)} {sent : List Bytes} {e : Encoder Unit} {bytes : Bytes}
    (hbytes : (silence e).packet.encode = some bytes) (hfirst : e.sequence = 0 → sent = []) :
    Run (Guarded (Careful noResampler) SilentStep) (withTask tasks sent (openedTask e [] []))
      (frameLabels tasks.length e) (withTask tasks (sent ++ [bytes]) (openedTask (silenced e) [] [])) := by
  have hrecv : Careful noResampler (withTask tasks sent (openedTask e [silentFrame] []))
      (.recv tasks.length) := by
    intro hne
    rw [withTask,List.length_append] at hne
    exact (hne rfl).elim
  have hqueue : Careful noResampler (withTask tasks sent (openedTask e [] silentFrame))
      (.queue tasks.length (silence e)) := by
    intro task htask hzero
    obtain rfl := Option.some.inj (List.getElem?_concat_length.symm.trans htask)
    rw [withTask,hfirst hzero]
    exact Nat.dvd_zero _
  exact ((Run.single ⟨trivial,sendFrame tasks sent e⟩).snoc ⟨hrecv,recvFrame tasks sent e⟩).snoc
    ⟨hqueue,queueFrame tasks sent e hbytes⟩

end Silence

/-- A second sender is asked for before the first one is used, and queues two packets. -/
theorem one_stream_second_sender :
    OneStream ([.getVoiceInputSender opusSampleRate,.getVoiceInputSender opusSampleRate] ++
      frameLabels 1 (.new ()) ++ frameLabels 1 (silenced (.new ()))) := by
  have hget : Careful noResampler (new : InputOutputManager Unit Unit ℤ)
      (.getVoiceInputSender opusSampleRate) := by
    intro i task htask
    cases htask
  have hsecond : Careful noResampler (withTask [] [] (openedTask (.new ()) [] []))
      (.getVoiceInputSender opusSampleRate) := by
    intro i task htask _
    have hidle := List.mem_of_getElem? htask
    rw [withTask,List.nil_append,List.mem_singleton] at hidle
    subst hidle
    decide
  have hsenders : Run (Guarded (Careful noResampler) SilentStep) new
      [.getVoiceInputSender opusSampleRate,.getVoiceInputSender opusSampleRate]
      (withTask [openedTask (.new ()) [] []] [] (openedTask (.new ()) [] [])) :=
    (Run.single ⟨hget,getSender [] none []⟩).snoc ⟨hsecond,getSender [openedTask (.new ()) [] []] (some 0) []⟩
  exact (one_stream ((hsenders.append (frame_run rfl fun _ => rfl)).append
    (frame_run rfl fun hzero => absurd hzero (by decide)))).1

/-- Two senders, one packet from each: both packets are numbered 0. -/
theorem two_senders_restart : ∃ trace m, Run SilentStep new trace m ∧ ¬OneStream trace := by
  refine ⟨silentLabels 0 ++ silentLabels 1,_,(silent_run [] none []).append (silent_run _ _ _),?_⟩
  rintro ⟨h,_⟩
  have hnext := (h 0 silentData silentData rfl rfl).1
  cases hnext

end InputOutputManager
end VoiceApp.Sdk
