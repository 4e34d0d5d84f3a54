import Mathlib.Data.List.Forall2
import VoiceApp.Desktop.Output

/-! # The channels of an output device

A callback gets its mono samples from the source and writes each of them into all channels
of a frame, in the format of the device. What stands behind the last whole frame of a buffer
is left as it was.
-/
namespace VoiceApp.Desktop

variable {E F A : Type}

/-- `f32::clamp` -/
def clamp [LT F] [DecidableLT F] (sample min max : F) : F :=
  if sample < min then min else if max < sample then max else sample

/-- The casts of a float to an integer. -/
structure Casts (F : Type) where
  asI16 : F → Int16
  asU16 : F → UInt16

section Samples
variable [LT F] [DecidableLT F] [One F] [Neg F] [Add F] [Mul F] [Div F] [NatCast F] (casts : Casts F)

def sampleI16 (sample : F) : Int16 := casts.asI16 (clamp sample (-1) 1 * ((32767 : ℕ) : F))

def sampleU16 (sample : F) : UInt16 :=
  let half : F := 1 / ((2 : ℕ) : F)
  casts.asU16 ((clamp sample (-1) 1 * half + half) * ((65535 : ℕ) : F))

end Samples

section Code
variable [Zero F]

/-- The inner loop: a sample goes into the channels of frame `i`. -/
def writeFrame (sample : A) (channels i : ℕ) (output : List A) : List A :=
  (List.range channels).foldl (fun output ch => output.set (i * channels + ch) sample) output

/-- The loops of `mono_to_multichannel_f32` and its siblings. -/
def monoToMultichannel (convert : F → A) (monoBuffer : List F) (output : List A) (channels : ℕ) : List A :=
  (List.range (output.length / channels)).foldl
    (fun output i => writeFrame (convert (monoBuffer.getD i 0)) channels i output) output

def monoToMultichannelF32 : List F → List F → ℕ → List F := monoToMultichannel id

def monoToMultichannelI16 [LT F] [DecidableLT F] [One F] [Neg F] [Mul F] [NatCast F] (casts : Casts F) :
    List F → List Int16 → ℕ → List Int16 := monoToMultichannel (sampleI16 casts)

def monoToMultichannelU16 [LT F] [DecidableLT F] [One F] [Neg F] [Add F] [Mul F] [Div F] [NatCast F]
    (casts : Casts F) : List F → List UInt16 → ℕ → List UInt16 := monoToMultichannel (sampleU16 casts)

variable (convert : F → A) (channels : ℕ) (getAudio : ℕ → Except E (List F))

/-- A callback of an output stream; without channels the division panics. -/
def outputCallback (output : List A) (leftover : List F) (pulls : ℕ) : Option (List A × List F × ℕ) :=
  if channels = 0 then none
  else
    let filled := fillOutput getAudio (output.length / channels) leftover pulls
    some (monoToMultichannel convert filled.buffer output channels,filled.leftover,filled.pulls)

/-- The callbacks of a stream, each with the buffer it is given. -/
def outputCallbacks (outputs : List (List A)) : Option (List (List A) × List F × ℕ) :=
  outputs.foldlM (fun (played,leftover,pulls) output =>
    (outputCallback convert channels getAudio output leftover pulls).map fun (output,leftover,pulls) =>
      (played ++ [output],leftover,pulls)) ([],[],0)

end Code

/-- What a buffer holds for one channel. -/
def channelSamples (channels ch : ℕ) (output : List A) : List A :=
  (List.range (output.length / channels)).filterMap fun i => output[i * channels + ch]?

/-! ## One buffer -/

section Frames
variable {channels : ℕ}

theorem sets_length (sample : A) (first : ℕ) (chs : List ℕ) (output : List A) :
    (chs.foldl (fun output ch => output.set (first + ch) sample) output).length = output.length := by
  induction chs generalizing output with
  | nil => rfl
  | cons ch chs ih => rw [List.foldl_cons,ih,List.length_set]

theorem sets_getElem? (sample : A) (first n j : ℕ) (output : List A) (hj : j < output.length) :
    ((List.range n).foldl (fun output ch => output.set (first + ch) sample) output)[j]? =
      if first ≤ j ∧ j < first + n then some sample else output[j]? := by
  induction n with
  | zero => rw [List.range_zero,List.foldl_nil,if_neg (by omega)]
  | succ n ih =>
    rw [List.range_succ,List.foldl_append,List.foldl_cons,List.foldl_nil,List.getElem?_set,sets_length]
    by_cases hlast : first + n = j
    · rw [if_pos hlast,if_pos (by omega),if_pos (by omega)]
    · rw [if_neg hlast,ih]
      apply if_congr _ rfl rfl
      omega

theorem writeFrame_length (sample : A) (i : ℕ) (output : List A) :
    (writeFrame sample channels i output).length = output.length := sets_length ..

/-- A frame that is in the buffer holds the sample in all its channels. -/
theorem writeFrame_getElem? (sample : A) (i j : ℕ) (output : List A) (hj : j < output.length) :
    (writeFrame sample channels i output)[j]? =
      if i * channels ≤ j ∧ j < i * channels + channels then some sample else output[j]? :=
  sets_getElem? sample _ channels j output hj

theorem writeFrames_length (samples : ℕ → A) (frames : List ℕ) (output : List A) :
    (frames.foldl (fun output i => writeFrame (samples i) channels i output) output).length =
      output.length := by
  induction frames generalizing output with
  | nil => rfl
  | cons i frames ih => rw [List.foldl_cons,ih,writeFrame_length]

/-- The loop over the first `n` frames. -/
theorem writeFrames_getElem? (samples : ℕ → A) (n j : ℕ) (output : List A) (hj : j < output.length)
    (hchannels : 0 < channels) :
    ((List.range n).foldl (fun output i => writeFrame (samples i) channels i output) output)[j]? =
      if j < n * channels then some (samples (j / channels)) else output[j]? := by
  induction n with
  | zero => simp
  | succ n ih =>
    rw [List.range_succ,List.foldl_append,List.foldl_cons,List.foldl_nil,
      writeFrame_getElem? _ _ _ _ (by rwa [writeFrames_length]),ih,Nat.succ_mul]
    by_cases hframe : n * channels ≤ j ∧ j < n * channels + channels
    · have hdiv : j / channels = n := by
        apply Nat.div_eq_of_lt_le hframe.1
        rw [Nat.succ_mul]
        exact hframe.2
      rw [if_pos hframe,if_pos hframe.2,hdiv]
    · rw [if_neg hframe]
      apply if_congr _ rfl rfl
      omega

end Frames

section Multichannel
variable [Zero F] (convert : F → A) {channels : ℕ}

theorem monoToMultichannel_length (mono : List F) (output : List A) :
    (monoToMultichannel convert mono output channels).length = output.length := writeFrames_length ..

/-- Every channel gets the mono samples, and the slots behind the last frame keep theirs. -/
theorem monoToMultichannel_getElem? (hchannels : 0 < channels) (mono : List F) (output : List A) (j : ℕ)
    (hj : j < output.length) : (monoToMultichannel convert mono output channels)[j]? =
      if j < output.length / channels * channels then some (convert (mono.getD (j / channels) 0))
      else output[j]? :=
  writeFrames_getElem? (fun i => convert (mono.getD i 0)) _ j output hj hchannels

theorem channelSamples_monoToMultichannel {ch : ℕ} (hch : ch < channels) (mono : List F) (output : List A)
    (hmono : mono.length = output.length / channels) :
    channelSamples channels ch (monoToMultichannel convert mono output channels) = mono.map convert := by
  have hslot : ∀ i ∈ List.range (output.length / channels),
      (monoToMultichannel convert mono output channels)[i * channels + ch]? =
        some (convert (mono.getD i 0)) := by
    intro i hi
    have hframe : (i + 1) * channels ≤ output.length / channels * channels :=
      Nat.mul_le_mul_right _ (List.mem_range.mp hi)
    have hwhole := Nat.div_mul_le_self output.length channels
    rw [Nat.succ_mul] at hframe
    have hdiv : (i * channels + ch) / channels = i := by
      rw [Nat.mul_comm,Nat.mul_add_div (by omega),Nat.div_eq_of_lt hch,Nat.add_zero]
    rw [monoToMultichannel_getElem? convert (by omega) _ _ _ (by omega),if_pos (by omega),hdiv]
  rw [channelSamples,monoToMultichannel_length,List.filterMap_congr hslot,← hmono]
  apply List.ext_getElem?
  intro i
  by_cases hi : i < mono.length <;> simp [hi]

/-- What stands behind the last whole frame. -/
def behindFrames (channels : ℕ) (output : List A) : List A := output.drop (output.length / channels * channels)

theorem behindFrames_monoToMultichannel (hchannels : 0 < channels) (mono : List F) (output : List A) :
    behindFrames channels (monoToMultichannel convert mono output channels) = behindFrames channels output := by
  rw [behindFrames,behindFrames,monoToMultichannel_length]
  apply List.ext_getElem?
  intro j
  rw [List.getElem?_drop,List.getElem?_drop]
  by_cases hj : output.length / channels * channels + j < output.length
  · rw [monoToMultichannel_getElem? convert hchannels _ _ _ hj,if_neg (by omega)]
  · rw [List.getElem?_eq_none (by rw [monoToMultichannel_length]; omega),
      List.getElem?_eq_none (by omega)]

end Multichannel

/-! ## All buffers -/

section Callbacks
variable [Zero F] {convert : F → A} {channels : ℕ} {getAudio : ℕ → Except E (List F)}

open Output

theorem outputCallbacks_concat (outputs : List (List A)) (output : List A) :
    outputCallbacks convert channels getAudio (outputs ++ [output]) =
      (outputCallbacks convert channels getAudio outputs).bind fun (played,leftover,pulls) =>
        (outputCallback convert channels getAudio output leftover pulls).map fun (output,leftover,pulls) =>
          (played ++ [output],leftover,pulls) := by
  rw [outputCallbacks,List.foldlM_append]
  apply congrArg (Option.bind _)
  funext before
  exact bind_pure _

/-- The callbacks of a stream are those of `fill_output`, each copied to the channels. -/
theorem outputCallbacks_eq (hchannels : channels ≠ 0) (outputs : List (List A)) :
    outputCallbacks convert channels getAudio outputs =
      let filled := callbacks getAudio (outputs.map fun output => output.length / channels)
      some (filled.1.zipWith (fun mono output => monoToMultichannel convert mono output channels) outputs,
        filled.2) := by
  induction outputs using List.reverseRecOn with
  | nil => rfl
  | append_singleton outputs output ih =>
    obtain ⟨_,_,h⟩ := callbacks_run getAudio (outputs.map fun output => output.length / channels)
    have hlength := congrArg List.length h.filled
    rw [List.length_map,List.length_map] at hlength
    rw [outputCallbacks_concat,ih,List.map_append,List.map_singleton,callbacks_concat]
    dsimp only [Option.bind_some]
    rw [outputCallback,if_neg hchannels,List.zipWith_append hlength]
    rfl

theorem outputCallbacks_none (outputs : List (List A)) :
    outputCallbacks convert channels getAudio outputs = none ↔ channels = 0 ∧ outputs ≠ [] := by
  by_cases hchannels : channels = 0
  · subst hchannels
    cases outputs with
    | nil => simp [outputCallbacks]
    | cons output outputs => simp [outputCallbacks,outputCallback]
  · rw [outputCallbacks_eq hchannels]
    simp [hchannels]

/-- What a run has written, without the buffer that was there before the first callback. -/
theorem Follows.slots {calls : List ℕ} {trace : List (Label E F)} {o : Output F}
    (h : Follows getAudio calls trace o) : ∃ slots : List (List (Option F)),
      o.buffers ++ [o.buffer] = [] :: slots ∧
      slots.map (List.map (·.getD 0)) = (callbacks getAudio calls).1 ∧
      slots.flatten.reduceOption ++ (callbacks getAudio calls).2.1 =
        ((List.range (callbacks getAudio calls).2.2).map fun k => chunk (getAudio k)).flatten := by
  have hbuffers := h.buffers
  cases hall : o.buffers ++ [o.buffer] with
  | nil => exact absurd (List.append_eq_nil_iff.mp hall).2 (List.cons_ne_nil _ _)
  | cons buffer slots =>
    rw [hall,List.map_cons,List.cons_eq_cons,List.map_eq_nil_iff] at hbuffers
    obtain ⟨rfl,hslots⟩ := hbuffers
    have hwritten : o.written = slots.flatten := by
      rw [written,← List.flatten_concat,hall,List.flatten_cons,List.nil_append]
    have hsamples := (run_exact h.run).samples
    rw [hwritten,h.leftover,stream,h.pulls,List.map_map] at hsamples
    exact ⟨slots,rfl,hslots,hsamples⟩

/-- Each buffer has as many samples as its output has frames. -/
theorem zipWith_multichannel (convert : F → A) {monos : List (List F)} {outputs : List (List A)}
    (hchannels : 0 < channels)
    (h : List.Forall₂ (fun mono output => mono.length = output.length / channels) monos outputs) :
    let played := monos.zipWith (fun mono output => monoToMultichannel convert mono output channels) outputs
    (∀ ch < channels, played.map (channelSamples channels ch) = monos.map (List.map convert)) ∧
    played.map List.length = outputs.map List.length ∧
    played.map (behindFrames channels) = outputs.map (behindFrames channels) := by
  induction h with
  | nil => exact ⟨fun _ _ => rfl,rfl,rfl⟩
  | cons hmono _ ih =>
    obtain ⟨hplayed,hlength,hrest⟩ := ih
    refine ⟨fun ch hch => ?_,?_,?_⟩
    · rw [List.zipWith_cons_cons,List.map_cons,List.map_cons,hplayed ch hch,
        channelSamples_monoToMultichannel convert hch _ _ hmono]
    · rw [List.zipWith_cons_cons,List.map_cons,List.map_cons,hlength,monoToMultichannel_length]
    · rw [List.zipWith_cons_cons,List.map_cons,List.map_cons,hrest,
        behindFrames_monoToMultichannel convert hchannels]

/-- Whatever buffers a device hands out and whatever the source returns: without channels the
first callback panics, and with them every channel gets the same samples, those of the
source in their order, none twice and none left out, with silence where nothing was there to
be played; a buffer keeps its length and what stands behind its last frame. -/
theorem speakers_play (outputs : List (List A)) :
    (outputCallbacks convert channels getAudio outputs = none ↔ channels = 0 ∧ outputs ≠ []) ∧
    (channels ≠ 0 → ∃ played leftover pulls, ∃ slots : List (List (Option F)),
      outputCallbacks convert channels getAudio outputs = some (played,leftover,pulls) ∧
      slots.flatten.reduceOption ++ leftover =
        ((List.range pulls).map fun k => chunk (getAudio k)).flatten ∧
      (∀ buffer ∈ slots, Fades buffer) ∧
      slots.map List.length = outputs.map (fun output => output.length / channels) ∧
      (∀ ch < channels, played.map (channelSamples channels ch) =
        slots.map fun buffer => buffer.map fun slot => convert (slot.getD 0)) ∧
      played.map List.length = outputs.map List.length ∧
      played.map (behindFrames channels) = outputs.map (behindFrames channels)) := by
  refine ⟨outputCallbacks_none outputs,fun hchannels => ?_⟩
  obtain ⟨trace,o,hfollows⟩ := callbacks_run getAudio (outputs.map fun output => output.length / channels)
  obtain ⟨slots,hbuffers,hslots,hsamples⟩ := hfollows.slots
  have hfilled := hfollows.filled
  have hshape : List.Forall₂ (fun mono output => mono.length = output.length / channels)
      (callbacks getAudio (outputs.map fun output => output.length / channels)).1 outputs := by
    rw [← List.forall₂_eq_eq_eq,List.forall₂_map_left_iff,List.forall₂_map_right_iff] at hfilled
    exact hfilled
  obtain ⟨hplayed,hlength,hrest⟩ :=
    zipWith_multichannel convert (Nat.pos_of_ne_zero hchannels) hshape
  refine ⟨_,_,_,slots,outputCallbacks_eq hchannels outputs,hsamples,?_,?_,?_,hlength,hrest⟩
  · intro buffer hmem
    have hexact := run_exact hfollows.run
    have hall : buffer ∈ o.buffers ++ [o.buffer] := by
      rw [hbuffers]
      exact List.mem_cons_of_mem _ hmem
    rcases List.mem_append.mp hall with hbefore | hlast
    · exact hexact.fades buffer hbefore
    · rw [List.mem_singleton.mp hlast]
      exact hexact.current
  · rw [← hfilled,← hslots,List.map_map]
    apply List.map_congr_left
    intro buffer _
    exact (List.length_map _).symm
  · intro ch hch
    rw [hplayed ch hch,← hslots,List.map_map]
    apply List.map_congr_left
    intro buffer _
    exact List.map_map

end Callbacks
end VoiceApp.Desktop
