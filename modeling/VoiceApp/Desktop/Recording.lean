import Mathlib.Algebra.Order.Ring.Int
import VoiceApp.Base.LabelledRun
import VoiceApp.Desktop.Config
import VoiceApp.Desktop.Output
import VoiceApp.Sdk.Pending

/-! # Recording

The callback of the input stream puts mono frames into a channel of its own, and a task of
its own takes them out and hands on what is neither muted nor too quiet. A stream ends when
another takes its place; its task does not, and may still hand on what was captured.
-/
namespace VoiceApp.Desktop
open Frontend (AudioDevice AudioConfig)

variable {F : Type}

/-- The samples that an input callback gets, in the format of the device. -/
inductive DeviceBuffer (F : Type)
  | f32 (data : List F)
  | i16 (data : List Int16)
  | u16 (data : List UInt16)

inductive DeviceFormat
  | f32
  | i16
  | u16
  deriving DecidableEq

def DeviceFormat.ofString : String → Except String DeviceFormat
  | "f32" => .ok .f32
  | "i16" => .ok .i16
  | "u16" => .ok .u16
  | other => .error ("Unsupported sample format: " ++ reprStr other)

def DeviceBuffer.format : DeviceBuffer F → DeviceFormat
  | f32 _ => .f32
  | i16 _ => .i16
  | u16 _ => .u16

section Samples
variable [Zero F] [One F] [Add F] [Sub F] [Div F] [NatCast F] [IntCast F]

/-- The mean of the channels of each whole frame; without channels the division panics. -/
def stereoToMono (stereo : List F) (channels : UInt16) : Option (List F) :=
  if channels = 1 then some stereo
  else if channels = 0 then none
  else some ((List.range (stereo.length / channels.toNat)).map fun frameIdx =>
    (List.range channels.toNat).foldl
      (fun sum ch => sum + stereo.getD (frameIdx * channels.toNat + ch) 0) 0 / (channels.toNat : F))

/-- What the callback sends. -/
def DeviceBuffer.toMono (channels : UInt16) : DeviceBuffer F → Option (List F)
  | f32 data => stereoToMono data channels
  | i16 data => stereoToMono (data.map fun s => (s.toInt : F) / ((32768 : ℕ) : F)) channels
  | u16 data => stereoToMono (data.map fun s => (s.toNat : F) / ((32768 : ℕ) : F) - 1) channels

end Samples

/-- The loudness of a frame, and a setting of the configuration as a factor. -/
structure Meter (F : Type) where
  calculateDbfs : List F → F
  percent : UInt8 → F

/-- An input stream's channel and its task; `captured` is everything ever sent into the
channel, `taken` counts what the task has received, and `sent` is what it has handed on. -/
structure Capture (F : Type) where
  format : DeviceFormat
  channels : UInt16
  captured : List (List F)
  taken : ℕ
  sent : List (List F)
  aborted : Bool
  running : Bool

def Capture.new (format : DeviceFormat) (channels : UInt16) : Capture F :=
  ⟨format,channels,[],0,[],false,true⟩

/-- The stream and the task that are held are known by their captures. -/
structure Recording (F : Type) where
  captures : List (Capture F)
  inputStream : Option ℕ
  inputReceiverTask : Option ℕ
  isInputMuted : Bool

/-- What the host says when a stream is created. -/
structure InputHost where
  findDevice : Except String Unit
  buildAndPlay : Except String Unit

def createInputStream (host : InputHost) (device : AudioDevice) : Except String DeviceFormat := do
  host.findDevice
  let format ← DeviceFormat.ofString device.sampleFormat
  host.buildAndPlay
  return format

namespace Recording

def new : Recording F := ⟨[],none,none,false⟩

/-- `start_recording`; `voiceInput` is what `get_voice_input_sender` comes to. -/
def startRecording (host : InputHost) (voiceInput : Except String Unit) (device : AudioDevice)
    (r : Recording F) : Except String Unit × Recording F :=
  match createInputStream host device with
  | .error e => (.error e,r)
  | .ok format =>
    match voiceInput with
    -- the new stream is dropped again
    | .error e => (.error e,r)
    | .ok () => (.ok (),{ r with
        captures := r.captures ++ [.new format device.channels]
        inputStream := some r.captures.length
        inputReceiverTask := some r.captures.length })

def stopRecording (r : Recording F) : Recording F :=
  { r with
    captures := match r.inputReceiverTask with
      | some k => r.captures.modify k fun c => { c with aborted := true }
      | none => r.captures
    inputStream := none
    inputReceiverTask := none }

def setCapture (r : Recording F) (k : ℕ) (c : Capture F) : Recording F :=
  { r with captures := r.captures.set k c }

section Code
variable [Mul F] [LE F] [DecidableLE F] (meter : Meter F)

/-- What the task makes of a frame. -/
def processed (config : AudioConfig) (muted : Bool) (frame : List F) : Option (List F) :=
  if muted then none
  else
    let frame := adjustVolume frame (meter.percent config.inputDevice.volume)
    if meter.percent config.inputSensitivity ≤ meter.calculateDbfs frame then some frame else none

end Code

inductive Label (F : Type)
  | start (host : InputHost) (voiceInput : Except String Unit) (device : AudioDevice)
  | stop
  | mute (muted : Bool)
  | capture (k : ℕ) (buffer : DeviceBuffer F)
  | recv (k : ℕ) (config : AudioConfig)
  | sendFails (k : ℕ) (config : AudioConfig)
  | cancelled (k : ℕ)
  | finish (k : ℕ)

section Steps
variable [Zero F] [One F] [Add F] [Sub F] [Div F] [NatCast F] [IntCast F] [Mul F] [LE F] [DecidableLE F]
  (meter : Meter F)

/-- A callback that panics captures nothing, and a task that was aborted goes on until it next
has to wait. -/
inductive Step (r : Recording F) : Label F → Recording F → Prop
  | start {host voiceInput device} : Step r (.start host voiceInput device)
      (r.startRecording host voiceInput device).2
  | stop : Step r .stop r.stopRecording
  | mute {muted} : Step r (.mute muted) { r with isInputMuted := muted }
  | capture {k c buffer mono} (hs : r.inputStream = some k) (hc : r.captures[k]? = some c)
      (hformat : buffer.format = c.format) (hmono : buffer.toMono c.channels = some mono) :
      Step r (.capture k buffer) (r.setCapture k { c with captured := c.captured ++ [mono] })
  | recv {k c config frame} (hc : r.captures[k]? = some c) (hrun : c.running = true)
      (hframe : c.captured[c.taken]? = some frame) :
      Step r (.recv k config) (r.setCapture k { c with
        taken := c.taken + 1
        sent := c.sent ++ (processed meter config r.isInputMuted frame).toList })
  -- the pipeline has ended, or the task is cancelled while it waits for the pipeline
  | sendFails {k c config frame sent} (hc : r.captures[k]? = some c) (hrun : c.running = true)
      (hframe : c.captured[c.taken]? = some frame)
      (hsent : processed meter config r.isInputMuted frame = some sent) :
      Step r (.sendFails k config) (r.setCapture k { c with taken := c.taken + 1, running := false })
  | cancelled {k c} (hc : r.captures[k]? = some c) (habort : c.aborted = true) :
      Step r (.cancelled k) (r.setCapture k { c with running := false })
  -- the channel is closed and empty
  | finish {k c} (hc : r.captures[k]? = some c) (hs : r.inputStream ≠ some k)
      (hdone : c.captured.length ≤ c.taken) :
      Step r (.finish k) (r.setCapture k { c with running := false })

end Steps

/-- The buffers that a stream has captured. -/
def buffers (k : ℕ) (trace : List (Label F)) : List (DeviceBuffer F) :=
  trace.filterMap fun
    | .capture j buffer => if j = k then some buffer else none
    | _ => none

/-- Whether the input is muted, and what the task of a stream was told with each frame. -/
def told (k : ℕ) (before : Bool × List (AudioConfig × Bool)) : Label F → Bool × List (AudioConfig × Bool)
  | .mute muted => (muted,before.2)
  | .recv j config => if j = k then (before.1,before.2 ++ [(config,before.1)]) else before
  | _ => before

/-- The configuration with each frame that a task was done with, and whether the input was
muted then. -/
def readings (k : ℕ) (trace : List (Label F)) : List (AudioConfig × Bool) :=
  (trace.foldl (told k) (false,[])).2

/-- What becomes of captured frames under these readings. -/
def forwarded [Mul F] [LE F] [DecidableLE F] (meter : Meter F) (captured : List (List F))
    (read : List (AudioConfig × Bool)) : List (List F) :=
  (captured.zip read).filterMap fun (frame,config,muted) => processed meter config muted frame

section Trace
variable (k : ℕ) (trace : List (Label F))

theorem buffers_append (more : List (Label F)) :
    buffers k (trace ++ more) = buffers k trace ++ buffers k more := List.filterMap_append ..

theorem told_concat (label : Label F) : (trace ++ [label]).foldl (told k) (false,[]) =
    told k (trace.foldl (told k) (false,[])) label := List.foldl_concat ..

variable [Mul F] [LE F] [DecidableLE F] (meter : Meter F)

/-- More that is captured is yet to be read. -/
theorem forwarded_more {captured : List (List F)} {read : List (AudioConfig × Bool)}
    (h : read.length ≤ captured.length) (more : List (List F)) :
    forwarded meter (captured ++ more) read = forwarded meter captured read := by
  induction read generalizing captured with
  | nil => simp [forwarded]
  | cons reading read ih =>
    cases captured with
    | nil => simp at h
    | cons frame captured =>
      have ih := ih (Nat.le_of_succ_le_succ h)
      simp only [forwarded,List.cons_append,List.zip_cons_cons,List.filterMap_cons] at ih ⊢
      rw [ih]

theorem forwarded_concat {captured : List (List F)} {read : List (AudioConfig × Bool)} {frame : List F}
    (h : captured[read.length]? = some frame) (config : AudioConfig) (muted : Bool) :
    forwarded meter captured (read ++ [(config,muted)]) =
      forwarded meter captured read ++ (processed meter config muted frame).toList := by
  induction read generalizing captured with
  | nil =>
    cases captured with
    | nil => simp at h
    | cons first captured =>
      cases h
      cases hp : processed meter config muted frame <;> simp [forwarded,hp]
  | cons reading read ih =>
    cases captured with
    | nil => simp at h
    | cons first captured =>
      have ih := ih (by simpa using h)
      simp only [forwarded,List.cons_append,List.zip_cons_cons,List.filterMap_cons] at ih ⊢
      rw [ih]
      cases processed meter reading.1 reading.2 first <;> rfl

end Trace

section Proofs
variable [Zero F] [One F] [Add F] [Sub F] [Div F] [NatCast F] [IntCast F] [Mul F] [LE F] [DecidableLE F]
  {meter : Meter F} {trace : List (Label F)} {r r' : Recording F} {label : Label F}

/-- What a capture holds and has handed on, from what its stream has captured and what its
task was told. -/
structure Tracks (meter : Meter F) (buffers : List (DeviceBuffer F)) (read : List (AudioConfig × Bool))
    (c : Capture F) : Prop where
  captured : buffers.map (DeviceBuffer.toMono c.channels) = c.captured.map some
  sent : c.sent = forwarded meter c.captured read
  taken : c.running = true → c.taken = read.length
  within : read.length ≤ c.captured.length

structure Tracked (meter : Meter F) (trace : List (Label F)) (r : Recording F) : Prop where
  muted : ∀ k, (trace.foldl (told k) (false,[])).1 = r.isInputMuted
  tracks : ∀ (k : ℕ) (c : Capture F), r.captures[k]? = some c →
    Tracks meter (buffers k trace) (readings k trace) c
  none : ∀ k, r.captures.length ≤ k → buffers k trace = [] ∧ readings k trace = []

theorem tracked_new : Tracked meter [] (new : Recording F) :=
  ⟨fun _ => rfl,fun k c hc => by simp [new] at hc,fun _ _ => ⟨rfl,rfl⟩⟩

omit [Zero F] [One F] [Add F] [Sub F] [Div F] [NatCast F] [IntCast F] [Mul F] [LE F] [DecidableLE F] in
theorem readings_concat (k : ℕ) (trace : List (Label F)) (label : Label F) :
    readings k (trace ++ [label]) = (told k ((trace.foldl (told k) (false,[])).1,readings k trace) label).2 := by
  rw [readings,told_concat]
  rfl

omit [Zero F] [One F] [Add F] [Sub F] [Div F] [NatCast F] [IntCast F] [Mul F] [LE F] [DecidableLE F] in
theorem startRecording_cases (r : Recording F) (host : InputHost) (voiceInput : Except String Unit)
    (device : AudioDevice) :
    (∃ e, r.startRecording host voiceInput device = (.error e,r)) ∨
    ∃ format, r.startRecording host voiceInput device = (.ok (),{ r with
      captures := r.captures ++ [.new format device.channels]
      inputStream := some r.captures.length
      inputReceiverTask := some r.captures.length }) := by
  unfold startRecording
  cases createInputStream host device with
  | error e => exact .inl ⟨e,rfl⟩
  | ok format =>
    cases voiceInput with
    | error e => exact .inl ⟨e,rfl⟩
    | ok => exact .inr ⟨format,rfl⟩

omit [Zero F] [One F] [Add F] [Sub F] [Div F] [NatCast F] [IntCast F] [Mul F] [LE F] [DecidableLE F] in
theorem stopRecording_length (r : Recording F) : r.stopRecording.captures.length = r.captures.length := by
  unfold stopRecording
  cases r.inputReceiverTask with
  | none => rfl
  | some k => exact List.length_modify ..

omit [Zero F] [One F] [Add F] [Sub F] [Div F] [NatCast F] [IntCast F] [Mul F] [LE F] [DecidableLE F] in
/-- Stopping does no more to a capture than to abort its task. -/
theorem stopRecording_capture {j : ℕ} {d : Capture F} (hd : r.stopRecording.captures[j]? = some d) :
    ∃ c, r.captures[j]? = some c ∧ (d = c ∨ d = { c with aborted := true }) := by
  unfold stopRecording at hd
  cases hk : r.inputReceiverTask with
  | none =>
    rw [hk] at hd
    exact ⟨d,hd,.inl rfl⟩
  | some k =>
    rw [hk] at hd
    change (r.captures.modify k _)[j]? = some d at hd
    rw [List.getElem?_modify] at hd
    obtain ⟨c,hc,rfl⟩ := Option.map_eq_some_iff.mp hd
    by_cases hkj : k = j
    · exact ⟨c,hc,.inr (if_pos hkj)⟩
    · exact ⟨c,hc,.inl (if_neg hkj)⟩

/-- A step that tells the task nothing. -/
theorem Tracked.still (h : Tracked meter trace r) (hbuffers : ∀ j, buffers j [label] = [])
    (htold : ∀ j before, told j before label = before) (hmuted : r'.isInputMuted = r.isInputMuted)
    (hlength : r.captures.length ≤ r'.captures.length)
    (htracks : ∀ (j : ℕ) (d : Capture F), r'.captures[j]? = some d →
      Tracks meter (buffers j trace) (readings j trace) d) :
    Tracked meter (trace ++ [label]) r' := by
  have hsame (j : ℕ) : buffers j (trace ++ [label]) = buffers j trace ∧
      readings j (trace ++ [label]) = readings j trace := by
    constructor
    · rw [buffers_append,hbuffers j,List.append_nil]
    · rw [readings_concat,htold]
  constructor
  · intro j
    rw [told_concat,htold,hmuted]
    exact h.muted j
  · intro j d hd
    rw [(hsame j).1,(hsame j).2]
    exact htracks j d hd
  · intro j hj
    rw [(hsame j).1,(hsame j).2]
    exact h.none j (hlength.trans hj)

/-- A step of one capture. -/
theorem Tracked.set (h : Tracked meter trace r) {k : ℕ} {c c' : Capture F} (hc : r.captures[k]? = some c)
    (hbuffers : ∀ j, j ≠ k → buffers j [label] = [])
    (htold : ∀ j before, (told j before label).1 = before.1)
    (hothers : ∀ j before, j ≠ k → (told j before label).2 = before.2)
    (htracks : Tracks meter (buffers k trace ++ buffers k [label])
      (told k (r.isInputMuted,readings k trace) label).2 c') :
    Tracked meter (trace ++ [label]) (r.setCapture k c') := by
  obtain ⟨hlt,_⟩ := List.getElem?_eq_some_iff.mp hc
  constructor
  · intro j
    rw [told_concat,htold]
    exact h.muted j
  · intro j d hd
    change (r.captures.set k c')[j]? = some d at hd
    rw [Sdk.getElem?_set_of_some hc] at hd
    rw [buffers_append,readings_concat,h.muted j]
    split at hd
    · rename_i hj
      cases hd
      rw [hj]
      exact htracks
    · rename_i hj
      rw [hbuffers j hj,List.append_nil,hothers j _ hj]
      exact h.tracks j d hd
  · intro j hj
    change (r.captures.set k c').length ≤ j at hj
    rw [List.length_set] at hj
    have hne : j ≠ k := by omega
    rw [buffers_append,readings_concat,hbuffers j hne,hothers j _ hne,List.append_nil]
    exact h.none j hj

theorem step_tracked (h : Tracked meter trace r) (hs : Step meter r label r') :
    Tracked meter (trace ++ [label]) r' := by
  cases hs with
  | @start host voiceInput device =>
    refine h.still (fun _ => rfl) (fun _ _ => rfl) ?_ ?_ fun j d hd => ?_
    · rcases r.startRecording_cases host voiceInput device with ⟨e,heq⟩ | ⟨format,heq⟩ <;> rw [heq]
    · rcases r.startRecording_cases host voiceInput device with ⟨e,heq⟩ | ⟨format,heq⟩ <;> rw [heq]
      exact (List.length_append ..) ▸ Nat.le_add_right _ _
    · rcases r.startRecording_cases host voiceInput device with ⟨e,heq⟩ | ⟨format,heq⟩ <;> rw [heq] at hd
      · exact h.tracks j d hd
      · rcases Sdk.getElem?_concat_inv hd with hd | ⟨rfl,rfl⟩
        · exact h.tracks j d hd
        · obtain ⟨hbuffers,hread⟩ := h.none _ le_rfl
          rw [hbuffers,hread]
          exact ⟨rfl,rfl,fun _ => rfl,le_rfl⟩
  | stop =>
    refine h.still (fun _ => rfl) (fun _ _ => rfl) rfl r.stopRecording_length.ge fun j d hd => ?_
    obtain ⟨c,hc,hd⟩ := stopRecording_capture hd
    have ht := h.tracks j c hc
    rcases hd with rfl | rfl
    · exact ht
    · exact ⟨ht.captured,ht.sent,ht.taken,ht.within⟩
  | mute =>
    refine ⟨fun j => ?_,fun j d hd => ?_,fun j hj => ?_⟩
    · rw [told_concat]
      rfl
    · rw [buffers_append,readings_concat]
      exact (List.append_nil (buffers j trace)).symm ▸ h.tracks j d hd
    · rw [buffers_append,readings_concat,(h.none j hj).1,(h.none j hj).2]
      exact ⟨rfl,rfl⟩
  | @capture k c buffer mono hstream hc hformat hmono =>
    have hone : buffers k [(.capture k buffer : Label F)] = [buffer] := by simp [buffers]
    have ht := h.tracks k c hc
    refine h.set hc (fun j hj => by simp [buffers,Ne.symm hj]) (fun _ _ => rfl) (fun _ _ _ => rfl) ?_
    rw [hone]
    refine ⟨?_,?_,ht.taken,?_⟩
    · rw [List.map_append,ht.captured,List.map_append,List.map_singleton,List.map_singleton,hmono]
    · exact ht.sent.trans (forwarded_more meter ht.within _).symm
    · exact ht.within.trans (by simp)
  | @recv k c config frame hc hrun hframe =>
    have ht := h.tracks k c hc
    have htaken := ht.taken hrun
    have hone : (told k (r.isInputMuted,readings k trace) (.recv k config : Label F)).2 =
        readings k trace ++ [(config,r.isInputMuted)] := by
      rw [told,if_pos rfl]
    refine h.set hc (fun _ _ => rfl) (fun j before => ?_) (fun j before hj => ?_) ?_
    · rw [told]
      split <;> rfl
    · rw [told,if_neg (Ne.symm hj)]
    · rw [hone]
      rw [htaken] at hframe
      refine ⟨by simpa [buffers] using ht.captured,?_,?_,?_⟩
      · rw [forwarded_concat meter hframe,← ht.sent]
      · intro _
        rw [List.length_append,← htaken]
        rfl
      · obtain ⟨hlt,_⟩ := List.getElem?_eq_some_iff.mp hframe
        rw [List.length_append]
        exact hlt
  | @sendFails k c config frame sent hc hrun hframe hsent =>
    have ht := h.tracks k c hc
    exact h.set hc (fun _ _ => rfl) (fun _ _ => rfl) (fun _ _ _ => rfl)
      ⟨by simpa [buffers] using ht.captured,ht.sent,nofun,ht.within⟩
  | @cancelled k c hc habort =>
    have ht := h.tracks k c hc
    exact h.set hc (fun _ _ => rfl) (fun _ _ => rfl) (fun _ _ _ => rfl)
      ⟨by simpa [buffers] using ht.captured,ht.sent,nofun,ht.within⟩
  | @finish k c hc hstream hdone =>
    have ht := h.tracks k c hc
    exact h.set hc (fun _ _ => rfl) (fun _ _ => rfl) (fun _ _ _ => rfl)
      ⟨by simpa [buffers] using ht.captured,ht.sent,nofun,ht.within⟩

theorem run_tracked (h : Run (Step meter) new trace r) : Tracked meter trace r := by
  induction h with
  | refl => exact tracked_new
  | snoc _ hs ih => exact step_tracked ih hs

/-- A stream that another has taken the place of, or that has been stopped. -/
def Closed (r : Recording F) (k : ℕ) : Prop := k < r.captures.length ∧ r.inputStream ≠ some k

theorem step_closed {k : ℕ} (h : r.Closed k) (hs : Step meter r label r') :
    r'.Closed k ∧ buffers k [label] = [] := by
  have hset : ∀ (j : ℕ) (c : Capture F), (r.setCapture j c).Closed k := by
    intro j c
    refine ⟨?_,h.2⟩
    change k < (r.captures.set j c).length
    rw [List.length_set]
    exact h.1
  cases hs with
  | @start host voiceInput device =>
    refine ⟨?_,rfl⟩
    rcases r.startRecording_cases host voiceInput device with ⟨e,heq⟩ | ⟨format,heq⟩ <;> rw [heq]
    · exact h
    · refine ⟨?_,fun hk => absurd (Option.some.inj hk) h.1.ne'⟩
      rw [List.length_append]
      exact Nat.lt_add_right _ h.1
  | stop => exact ⟨⟨r.stopRecording_length.symm ▸ h.1,nofun⟩,rfl⟩
  | mute => exact ⟨h,rfl⟩
  | @capture j c buffer mono hstream hc hformat hmono =>
    have hj : j ≠ k := fun hj => h.2 (hj ▸ hstream)
    exact ⟨hset j _,by simp [buffers,hj]⟩
  | recv => exact ⟨hset _ _,rfl⟩
  | sendFails => exact ⟨hset _ _,rfl⟩
  | cancelled => exact ⟨hset _ _,rfl⟩
  | finish => exact ⟨hset _ _,rfl⟩

theorem run_closed {k : ℕ} (h : r.Closed k) (hr : Run (Step meter) r trace r') :
    r'.Closed k ∧ buffers k trace = [] := by
  induction hr with
  | refl => exact ⟨h,rfl⟩
  | snoc _ hs ih =>
    obtain ⟨hclosed,hnone⟩ := step_closed ih.1 hs
    exact ⟨hclosed,by rw [buffers_append,ih.2,hnone]; rfl⟩

/-- A task hands on, in order and once, every frame of its stream that it is done with, at
the volume of that time, but for those that came while the input was muted or are too quiet.
Once the stream is closed these are at most the frames it had captured by then. -/
theorem task_forwards (h : Run (Step meter) new trace r) :
    (∀ (k : ℕ) (c : Capture F), r.captures[k]? = some c →
      (buffers k trace).map (DeviceBuffer.toMono c.channels) = c.captured.map some ∧
      c.sent = forwarded meter c.captured (readings k trace) ∧
      (readings k trace).length ≤ c.captured.length) ∧
    ∀ k after r', r.Closed k → Run (Step meter) r after r' → buffers k (trace ++ after) = buffers k trace := by
  refine ⟨fun k c hc => ?_,fun k after r' hclosed hafter => ?_⟩
  · have ht := (run_tracked h).tracks k c hc
    exact ⟨ht.captured,ht.sent,ht.within⟩
  · rw [buffers_append,(run_closed hclosed hafter).2,List.append_nil]

end Proofs

/-! ## One microphone -/

section Sample

def sumMeter : Meter ℤ := ⟨fun frame => frame.foldl (· + ·) 0,fun setting => (setting.toNat : ℤ)⟩

def stereoDevice : AudioDevice := ⟨"alsa:default",48000,"f32",2,2⟩

/-- Twice the volume, and no less than 20 of it. -/
def stereoConfig : AudioConfig := ⟨stereoDevice,stereoDevice,20,∅,100⟩

def spokenLabels : List (Label ℤ) :=
  [.start ⟨.ok (),.ok ()⟩ (.ok ()) stereoDevice,.capture 0 (.f32 [3,5,10,20]),.capture 0 (.f32 [1,1]),
    .recv 0 stereoConfig,.recv 0 stereoConfig,.capture 0 (.f32 [30,30]),.mute true,.stop,.recv 0 stereoConfig]

def speaking (captured : List (List ℤ)) (taken : ℕ) (sent : List (List ℤ)) : Recording ℤ :=
  ⟨[⟨.f32,2,captured,taken,sent,false,true⟩],some 0,some 0,false⟩

def spokenCapture : Capture ℤ := ⟨.f32,2,[[4,15],[1],[30]],3,[[8,30]],true,true⟩

theorem speaks {captured sent : List (List ℤ)} {taken : ℕ} (buffer : List ℤ) {mono : List ℤ}
    (h : stereoToMono buffer 2 = some mono) : Step sumMeter (speaking captured taken sent)
      (.capture 0 (.f32 buffer)) (speaking (captured ++ [mono]) taken sent) :=
  .capture (c := ⟨.f32,2,captured,taken,sent,false,true⟩) rfl rfl rfl h

theorem spoken_run : Run (Step sumMeter) new spokenLabels ⟨[spokenCapture],none,none,true⟩ := by
  have hstart : Step sumMeter new (.start ⟨.ok (),.ok ()⟩ (.ok ()) stereoDevice) (speaking [] 0 []) := .start
  have hfirst : Step sumMeter (speaking [[4,15],[1]] 0 []) (.recv 0 stereoConfig) _ := .recv rfl rfl rfl
  have hsecond : Step sumMeter (speaking [[4,15],[1]] 1 [[8,30]]) (.recv 0 stereoConfig) _ := .recv rfl rfl rfl
  have hmuted : Step sumMeter ⟨[⟨.f32,2,[[4,15],[1],[30]],2,[[8,30]],true,true⟩],none,none,true⟩
      (.recv 0 stereoConfig) _ := .recv rfl rfl rfl
  have hcaptured := ((Run.single hstart).snoc (speaks [3,5,10,20] rfl)).snoc
    (speaks [1,1] rfl)
  have hspoken := ((hcaptured.snoc hfirst).snoc hsecond).snoc (speaks [30,30] rfl)
  exact ((hspoken.snoc .mute).snoc .stop).snoc hmuted

/-- One frame is loud enough, one is not, and one comes when the input is muted. -/
theorem task_forwards_spoken :
    (buffers 0 spokenLabels).map (DeviceBuffer.toMono 2) = [some [4,15],some [1],some [30]] ∧
    forwarded sumMeter [[4,15],[1],[30]] (readings 0 spokenLabels) = [[8,30]] := by
  obtain ⟨hcaptured,hsent,_⟩ := (task_forwards spoken_run).1 0 spokenCapture rfl
  exact ⟨hcaptured,hsent.symm⟩

end Sample

end Recording
end VoiceApp.Desktop
