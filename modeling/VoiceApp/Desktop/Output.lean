import Mathlib.Data.List.ReduceOption
import VoiceApp.Base.LabelledRun

/-! # The output callback

A callback fills its buffer from what is left of the last chunk and from new chunks of the
audio source. `fillOutput` is the loop of one call; beneath it a call is cut into single
pulls and copies, between which the source may change.
-/
namespace VoiceApp.Desktop

variable {E F : Type}

def adjustVolume [Mul F] (buffer : List F) (volume : F) : List F := buffer.map (· * volume)

/-- The buffer that a call has filled, and what it leaves for the next one: the rest of the
last chunk and the number of `get_audio` calls so far. -/
structure Filled (F : Type) where
  buffer : List F
  leftover : List F
  pulls : ℕ

section Code
variable [Zero F] (getAudio : ℕ → Except E (List F))

/-- The leftover, after a pull if it is empty. -/
def refill (leftover : List F) (pulls : ℕ) : Except E (List F) × ℕ :=
  if leftover.isEmpty then ((getAudio pulls).map (leftover ++ ·),pulls + 1) else (.ok leftover,pulls)

/-- `fill_output` from slot `idx` on, where `frames` is `buffer.len() - idx` and `getAudio`
gives the result of each `get_audio` call. -/
def fillOutput (frames : ℕ) (leftover : List F) (pulls : ℕ) : Filled F :=
  if frames = 0 then ⟨[],leftover,pulls⟩
  else
    match refill getAudio leftover pulls with
    -- fill silence
    | (.error _,pulls) => ⟨List.replicate frames 0,leftover,pulls⟩
    | (.ok leftover,pulls) =>
      let n := min leftover.length frames
      if n = 0 then ⟨List.replicate frames 0,leftover,pulls⟩
      else
        let rest := fillOutput (frames - n) (leftover.drop n) pulls
        ⟨leftover.take n ++ rest.buffer,rest.leftover,rest.pulls⟩
termination_by frames

/-- Calls with buffers of these sizes: all buffers, and what is left after the last one. -/
def callbacks (sizes : List ℕ) : List (List F) × List F × ℕ :=
  sizes.foldl (fun (buffers,leftover,pulls) frames =>
    let filled := fillOutput getAudio frames leftover pulls
    (buffers ++ [filled.buffer],filled.leftover,filled.pulls)) ([],[],0)

end Code

/-- `VolumeAdjustedSource::get_audio`, with the volumes that the configuration holds at each
call. -/
def volumeAdjusted [Mul F] (inner : ℕ → Except E (List F)) (masterVolume userVolume : ℕ → F) (pull : ℕ) :
    Except E (List F) :=
  (inner pull).map (adjustVolume · (masterVolume pull * userVolume pull))

/-! ## Single pulls and copies -/

/-- The leftover, all buffers filled so far, and how many slots of the last one are still to
be filled. A slot that is filled with silence is `none`. -/
structure Output (F : Type) where
  leftover : List F
  buffers : List (List (Option F))
  buffer : List (Option F)
  frames : ℕ

namespace Output

def new : Output F := ⟨[],[],[],0⟩

/-- Everything written. -/
def written (o : Output F) : List (Option F) := o.buffers.flatten ++ o.buffer

inductive Label (E F : Type)
  | callback (frames : ℕ)
  | pull (r : Except E (List F))
  | copy

/-- What a pull gives; an error gives nothing. -/
def chunk : Except E (List F) → List F
  | .ok frame => frame
  | .error _ => []

/-- The volume makes no chunk empty, and none that is empty full. -/
theorem chunk_volumeAdjusted [Mul F] (inner : ℕ → Except E (List F)) (masterVolume userVolume : ℕ → F)
    (pull : ℕ) : (chunk (volumeAdjusted inner masterVolume userVolume pull)).length =
      (chunk (inner pull)).length := by
  rw [volumeAdjusted]
  cases inner pull with
  | error e => rfl
  | ok frame => exact List.length_map _

/-- The leftover is empty: take the next chunk, or fill up with silence. -/
def pulled (o : Output F) (r : Except E (List F)) : Output F :=
  if chunk r = [] then { o with buffer := o.buffer ++ List.replicate o.frames none, frames := 0 }
  else { o with leftover := chunk r }

/-- Copy as many samples as there are and as fit. -/
def copied (o : Output F) : Output F :=
  let n := min o.leftover.length o.frames
  { o with
    leftover := o.leftover.drop n
    buffer := o.buffer ++ (o.leftover.take n).map some
    frames := o.frames - n }

inductive Step (o : Output F) : Label E F → Output F → Prop
  | callback (frames : ℕ) (h : o.frames = 0) :
      Step o (.callback frames) ⟨o.leftover,o.buffers ++ [o.buffer],[],frames⟩
  | pull (r : Except E (List F)) (h : 0 < o.frames) (hleftover : o.leftover = []) :
      Step o (.pull r) (o.pulled r)
  | copy (h : 0 < o.frames) (hleftover : o.leftover ≠ []) : Step o .copy o.copied

/-- The sizes of the callbacks in a run. -/
def sizes (trace : List (Label E F)) : List ℕ :=
  trace.filterMap fun
    | .callback frames => some frames
    | _ => none

/-- What the source has returned, in order. -/
def pulls (trace : List (Label E F)) : List (Except E (List F)) :=
  trace.filterMap fun
    | .pull r => some r
    | _ => none

/-- The chunks pulled, one after the other. -/
def stream (trace : List (Label E F)) : List F := ((pulls trace).map chunk).flatten

/-- Samples, and after them silence only. -/
def Fades (buffer : List (Option F)) : Prop :=
  ∃ (samples : List F) (k : ℕ), buffer = samples.map some ++ List.replicate k none

/-! ## What a run writes -/

theorem reduceOption_map_some (samples : List F) : (samples.map some).reduceOption = samples := by
  rw [List.reduceOption,List.filterMap_map]
  exact List.filterMap_some

theorem sizes_append (trace rest : List (Label E F)) : sizes (trace ++ rest) = sizes trace ++ sizes rest :=
  List.filterMap_append ..

theorem pulls_append (trace rest : List (Label E F)) : pulls (trace ++ rest) = pulls trace ++ pulls rest :=
  List.filterMap_append ..

theorem stream_concat (trace : List (Label E F)) (label : Label E F) :
    stream (trace ++ [label]) = stream trace ++ stream [label] := by
  rw [stream,pulls_append,List.map_append,List.flatten_append]
  rfl

/-- The samples written and the leftover are the stream, and silence comes from the last
pull. -/
structure Exact (trace : List (Label E F)) (o : Output F) : Prop where
  samples : o.written.reduceOption ++ o.leftover = stream trace
  fades : ∀ buffer ∈ o.buffers, Fades buffer
  current : Fades o.buffer
  filling : 0 < o.frames → none ∉ o.buffer
  silence : none ∈ o.buffer → ∃ r, (pulls trace).getLast? = some r ∧ chunk r = []

theorem fades_append_silence {buffer : List (Option F)} (h : Fades buffer) (k : ℕ) :
    Fades (buffer ++ List.replicate k none) := by
  obtain ⟨samples,j,rfl⟩ := h
  refine ⟨samples,j + k,?_⟩
  rw [List.append_assoc,List.replicate_append_replicate]

theorem fades_of_loud {buffer : List (Option F)} (h : Fades buffer) (hloud : none ∉ buffer) :
    ∃ samples : List F, buffer = samples.map some := by
  obtain ⟨samples,k,rfl⟩ := h
  cases k with
  | zero => exact ⟨samples,List.append_nil _⟩
  | succ k => exact absurd (List.mem_append_right _ List.mem_cons_self) hloud

theorem exact_new : Exact ([] : List (Label E F)) (new : Output F) :=
  ⟨rfl,fun _ h => absurd h List.not_mem_nil,⟨[],0,rfl⟩,fun h => absurd h (Nat.lt_irrefl 0),
    fun h => absurd h List.not_mem_nil⟩

theorem step_exact {trace : List (Label E F)} {o o' : Output F} {label : Label E F}
    (h : Exact trace o) (hs : Step o label o') : Exact (trace ++ [label]) o' := by
  cases hs with
  | callback frames hframes =>
    refine ⟨?_,?_,⟨[],0,rfl⟩,fun _ => List.not_mem_nil,fun hmem => absurd hmem List.not_mem_nil⟩
    · rw [stream_concat,← h.samples,written,written,List.flatten_append]
      simp only [List.flatten_cons,List.flatten_nil,List.append_nil]
      exact (List.append_nil _).symm
    · intro buffer hmem
      rcases List.mem_append.mp hmem with hmem | hmem
      · exact h.fades buffer hmem
      · rw [List.mem_singleton.mp hmem]
        exact h.current
  | pull r hframes hleftover =>
    have hstream : stream (trace ++ [.pull r]) = o.written.reduceOption ++ chunk r := by
      rw [stream_concat,← h.samples,hleftover,List.append_nil]
      exact congrArg _ (List.append_nil _)
    have hlast : (pulls (trace ++ [.pull r])).getLast? = some r := by
      rw [pulls_append]
      exact List.getLast?_concat
    unfold pulled
    split
    case isTrue hsilent =>
      refine ⟨?_,h.fades,fades_append_silence h.current _,fun hlt => absurd hlt (Nat.lt_irrefl 0),
        fun _ => ⟨r,hlast,hsilent⟩⟩
      rw [hstream,hsilent,hleftover,written,← List.append_assoc,List.reduceOption_append,
        List.reduceOption_replicate_none,List.append_nil]
      rfl
    case isFalse hloud =>
      exact ⟨hstream.symm,h.fades,h.current,h.filling,fun hmem => absurd hmem (h.filling hframes)⟩
  | copy hframes hleftover =>
    have hquiet := h.filling hframes
    obtain ⟨samples,hsamples⟩ := fades_of_loud h.current hquiet
    have hloud : none ∉ o.buffer ++ (o.leftover.take (min o.leftover.length o.frames)).map some := by
      rw [List.mem_append]
      rintro (hmem | hmem)
      · exact hquiet hmem
      · obtain ⟨sample,_,hsample⟩ := List.mem_map.mp hmem
        cases hsample
    refine ⟨?_,h.fades,?_,fun _ => hloud,fun hmem => absurd hmem hloud⟩
    · rw [stream_concat,← h.samples,copied,written,← List.append_assoc,List.reduceOption_append,
        reduceOption_map_some,List.append_assoc,List.take_append_drop]
      exact (List.append_nil _).symm
    · refine ⟨samples ++ o.leftover.take (min o.leftover.length o.frames),0,?_⟩
      rw [copied,hsamples,List.map_append]
      exact (List.append_nil _).symm

theorem run_exact {trace : List (Label E F)} {o : Output F} (h : Run Step new trace o) :
    Exact trace o := by
  induction h with
  | refl => exact exact_new
  | snoc _ hs ih => exact step_exact ih hs

/-- The last chunk pulled, or nothing. -/
def lastChunk (trace : List (Label E F)) : List F := ((pulls trace).getLast?.map chunk).getD []

theorem lastChunk_concat (trace : List (Label E F)) (r : Except E (List F)) :
    lastChunk (trace ++ [.pull r]) = chunk r := by
  have hlast : (pulls (trace ++ [.pull r])).getLast? = some r := by
    rw [pulls_append]
    exact List.getLast?_concat
  rw [lastChunk,hlast]
  rfl

/-- The leftover is the end of the last chunk. -/
theorem run_leftover {trace : List (Label E F)} {o : Output F} (h : Run Step new trace o) :
    o.leftover <:+ lastChunk trace := by
  induction h with
  | refl => exact List.nil_suffix
  | @snoc trace t label u _ hs ih =>
    have hsame : pulls [label] = [] → lastChunk (trace ++ [label]) = lastChunk trace := by
      intro hpulls
      rw [lastChunk,pulls_append,hpulls,List.append_nil]
      rfl
    cases hs with
    | callback frames hframes =>
      rw [hsame rfl]
      exact ih
    | pull r hframes hleftover =>
      rw [lastChunk_concat]
      unfold pulled
      split
      · dsimp only
        rw [hleftover]
        exact List.nil_suffix
      · exact List.suffix_refl _
    | copy hframes hleftover =>
      rw [hsame rfl]
      exact (List.drop_suffix _ _).trans ih

end Output

/-! ## A call is a run -/

section Calls
variable [Zero F] {getAudio : ℕ → Except E (List F)}

open Output

omit [Zero F] in
theorem refill_nil {pulls : ℕ} : refill getAudio [] pulls = (getAudio pulls,pulls + 1) := by
  change (Except.map (fun frame => [] ++ frame) (getAudio pulls),pulls + 1) = _
  cases getAudio pulls <;> rfl

theorem fillOutput_zero {leftover : List F} {pulls : ℕ} :
    fillOutput getAudio 0 leftover pulls = ⟨[],leftover,pulls⟩ := by
  rw [fillOutput,if_pos rfl]

theorem fillOutput_copy {frames : ℕ} {leftover : List F} {pulls : ℕ} (hframes : 0 < frames)
    (hleftover : leftover ≠ []) : fillOutput getAudio frames leftover pulls =
      let n := min leftover.length frames
      let rest := fillOutput getAudio (frames - n) (leftover.drop n) pulls
      ⟨leftover.take n ++ rest.buffer,rest.leftover,rest.pulls⟩ := by
  have hrefill : refill getAudio leftover pulls = (.ok leftover,pulls) := by
    rw [refill,if_neg (by rwa [List.isEmpty_iff])]
  have hlength := List.length_pos_of_ne_nil hleftover
  rw [fillOutput,if_neg (by omega),hrefill]
  dsimp only
  rw [if_neg (by omega)]

/-- A pull that gives something: the loop goes on as if the chunk had been left over. -/
theorem fillOutput_pull {frames pulls : ℕ} (hframes : 0 < frames) (hloud : chunk (getAudio pulls) ≠ []) :
    fillOutput getAudio frames [] pulls =
      fillOutput getAudio frames (chunk (getAudio pulls)) (pulls + 1) := by
  rw [fillOutput_copy hframes hloud,fillOutput,if_neg (by omega),refill_nil]
  cases h : getAudio pulls with
  | error e =>
    rw [h] at hloud
    exact absurd rfl hloud
  | ok frame =>
    rw [h] at hloud
    have hlength := List.length_pos_of_ne_nil hloud
    dsimp only [chunk] at hlength ⊢
    rw [if_neg (by omega)]

theorem fillOutput_silence {frames pulls : ℕ} (hframes : 0 < frames) (hsilent : chunk (getAudio pulls) = []) :
    fillOutput getAudio frames [] pulls = ⟨List.replicate frames 0,[],pulls + 1⟩ := by
  rw [fillOutput,if_neg (by omega),refill_nil]
  cases h : getAudio pulls with
  | error e => rfl
  | ok frame =>
    rw [h] at hsilent
    obtain rfl : frame = [] := hsilent
    exact if_pos (Nat.zero_min _)

/-- The call is a run from here that fills the rest of the buffer and pulls what the source
returns next. -/
def Fills (getAudio : ℕ → Except E (List F)) (frames : ℕ) (leftover : List F) (first : ℕ) : Prop :=
  ∀ buffers buffer, ∃ (turns : List (Label E F)) (slots : List (Option F)) (k : ℕ),
    Run Step ⟨leftover,buffers,buffer,frames⟩ turns
      ⟨(fillOutput getAudio frames leftover first).leftover,buffers,buffer ++ slots,0⟩ ∧
    slots.map (·.getD 0) = (fillOutput getAudio frames leftover first).buffer ∧
    slots.length = frames ∧ sizes turns = [] ∧
    pulls turns = (List.range' first k).map getAudio ∧
    (fillOutput getAudio frames leftover first).pulls = first + k

theorem fills_zero {leftover : List F} {first : ℕ} : Fills getAudio 0 leftover first := by
  intro buffers buffer
  refine ⟨[],[],0,?_⟩
  rw [fillOutput_zero,List.append_nil]
  exact ⟨.refl,rfl,rfl,rfl,rfl,rfl⟩

theorem fills_silence {frames first : ℕ} (hframes : 0 < frames) (hsilent : chunk (getAudio first) = []) :
    Fills getAudio frames [] first := by
  intro buffers buffer
  refine ⟨[.pull (getAudio first)],List.replicate frames none,1,?_⟩
  rw [fillOutput_silence hframes hsilent]
  refine ⟨?_,by rw [List.map_replicate]; rfl,List.length_replicate,rfl,rfl,rfl⟩
  have hs : Step (⟨[],buffers,buffer,frames⟩ : Output F) (.pull (getAudio first)) _ :=
    .pull _ hframes rfl
  rw [pulled,if_pos hsilent] at hs
  exact .single hs

theorem fills_copy {frames first : ℕ} {leftover : List F} (hframes : 0 < frames)
    (hleftover : leftover ≠ [])
    (h : Fills getAudio (frames - min leftover.length frames)
      (leftover.drop (min leftover.length frames)) first) :
    Fills getAudio frames leftover first := by
  intro buffers buffer
  obtain ⟨turns,slots,k,hrun,hslots,hlength,hsizes,hpulls,hcount⟩ := h buffers
    (buffer ++ (leftover.take (min leftover.length frames)).map some)
  refine ⟨.copy :: turns,(leftover.take (min leftover.length frames)).map some ++ slots,k,?_⟩
  rw [fillOutput_copy hframes hleftover]
  have hs : Step (⟨leftover,buffers,buffer,frames⟩ : Output F) (.copy : Label E F) _ :=
    .copy hframes hleftover
  refine ⟨?_,?_,?_,hsizes,hpulls,hcount⟩
  · rw [← List.append_assoc]
    exact (Run.single hs).append hrun
  · rw [List.map_append,hslots,List.map_map]
    exact congrArg (· ++ _) (List.map_id _)
  · rw [List.length_append,hlength,List.length_map,List.length_take]
    omega

theorem fills_pull {frames first : ℕ} (hframes : 0 < frames) (hloud : chunk (getAudio first) ≠ [])
    (h : Fills getAudio frames (chunk (getAudio first)) (first + 1)) :
    Fills getAudio frames [] first := by
  intro buffers buffer
  obtain ⟨turns,slots,k,hrun,hslots,hlength,hsizes,hpulls,hcount⟩ := h buffers buffer
  refine ⟨.pull (getAudio first) :: turns,slots,k + 1,?_⟩
  rw [fillOutput_pull hframes hloud]
  have hs : Step (⟨[],buffers,buffer,frames⟩ : Output F) (.pull (getAudio first)) _ :=
    .pull _ hframes rfl
  rw [pulled,if_neg hloud] at hs
  refine ⟨(Run.single hs).append hrun,hslots,hlength,hsizes,?_,by omega⟩
  rw [List.range'_succ,List.map_cons,← hpulls]
  rfl

/-- Every call ends with its buffer full. -/
theorem fills (frames : ℕ) (leftover : List F) (first : ℕ) : Fills getAudio frames leftover first := by
  induction frames using Nat.strongRecOn generalizing leftover first with
  | _ frames ih =>
    have hcopy : ∀ (leftover : List F) (first : ℕ), 0 < frames → leftover ≠ [] →
        Fills getAudio frames leftover first := by
      intro leftover first hframes hleftover
      have hlength := List.length_pos_of_ne_nil hleftover
      exact fills_copy hframes hleftover (ih _ (by omega) _ _)
    rcases Nat.eq_zero_or_pos frames with rfl | hframes
    · exact fills_zero
    · by_cases hleftover : leftover = []
      · subst hleftover
        by_cases hsilent : chunk (getAudio first) = []
        · exact fills_silence hframes hsilent
        · exact fills_pull hframes hsilent (hcopy _ _ hframes hsilent)
      · exact hcopy leftover first hframes hleftover

/-- What the callbacks have done, as a run. -/
structure Follows (getAudio : ℕ → Except E (List F)) (calls : List ℕ) (trace : List (Label E F))
    (o : Output F) : Prop where
  run : Run Step new trace o
  sizes : sizes trace = calls
  pulls : pulls trace = (List.range (callbacks getAudio calls).2.2).map getAudio
  leftover : o.leftover = (callbacks getAudio calls).2.1
  frames : o.frames = 0
  buffers : (o.buffers ++ [o.buffer]).map (List.map (·.getD 0)) = [] :: (callbacks getAudio calls).1
  filled : (callbacks getAudio calls).1.map List.length = calls

theorem callbacks_concat (calls : List ℕ) (frames : ℕ) : callbacks getAudio (calls ++ [frames]) =
    let before := callbacks getAudio calls
    let filled := fillOutput getAudio frames before.2.1 before.2.2
    (before.1 ++ [filled.buffer],filled.leftover,filled.pulls) := by
  rw [callbacks,List.foldl_append]
  rfl

/-- Every sequence of callbacks is a run. -/
theorem callbacks_run (getAudio : ℕ → Except E (List F)) (calls : List ℕ) :
    ∃ trace o, Follows getAudio calls trace o := by
  induction calls using List.reverseRecOn with
  | nil => exact ⟨[],new,.refl,rfl,rfl,rfl,rfl,rfl,rfl⟩
  | append_singleton calls frames ih =>
    obtain ⟨trace,o,h⟩ := ih
    obtain ⟨turns,slots,k,hrun,hslots,hlength,hsizes,hpulls,hcount⟩ :=
      fills frames (callbacks getAudio calls).2.1 (callbacks getAudio calls).2.2
        (o.buffers ++ [o.buffer]) []
    have hcall := h.run.snoc (.callback frames h.frames)
    rw [h.leftover] at hcall
    refine ⟨trace ++ [.callback frames] ++ turns,⟨_,o.buffers ++ [o.buffer],slots,0⟩,
      hcall.append hrun,?_,?_,?_,rfl,?_,?_⟩
    · rw [sizes_append,sizes_append,h.sizes,hsizes,List.append_nil]
      rfl
    · rw [pulls_append,pulls_append,h.pulls,hpulls,callbacks_concat]
      dsimp only
      rw [hcount,List.range_eq_range',List.range_eq_range',← List.range'_append_1,Nat.zero_add,
        List.map_append]
      exact congrArg (· ++ _) (List.append_nil _)
    · rw [callbacks_concat]
    · rw [callbacks_concat,List.map_append,h.buffers]
      exact congrArg (fun buffer => [] :: ((callbacks getAudio calls).1 ++ [buffer])) hslots
    · rw [callbacks_concat,List.map_append,h.filled,List.map_singleton,← hslots,List.length_map,hlength]

/-- Whatever the source returns and whenever it is asked: the samples written and the
leftover are what has been pulled, each buffer holds samples and then silence, silence
follows a pull that gave nothing, and a pull is made when everything pulled before has been
written. The callbacks are such runs, and each fills its buffer. -/
theorem plays_stream :
    (∀ (trace : List (Label E F)) (o : Output F), Run Step new trace o →
      o.written.reduceOption ++ o.leftover = stream trace ∧
      (∀ buffer ∈ o.buffers ++ [o.buffer], Fades buffer) ∧
      (none ∈ o.buffer → ∃ r, (pulls trace).getLast? = some r ∧ chunk r = []) ∧
      ∀ pre t r, Run.At Step new trace o pre t (.pull r) →
        t.leftover = [] ∧ t.written.reduceOption = stream pre) ∧
    ∀ (getAudio : ℕ → Except E (List F)) (calls : List ℕ), ∃ trace o, Follows getAudio calls trace o := by
  refine ⟨fun trace o h => ?_,callbacks_run⟩
  have hexact := run_exact h
  refine ⟨hexact.samples,?_,hexact.silence,?_⟩
  · intro buffer hmem
    rcases List.mem_append.mp hmem with hmem | hmem
    · exact hexact.fades buffer hmem
    · rw [List.mem_singleton.mp hmem]
      exact hexact.current
  · intro pre t r hat
    obtain ⟨t',hpull⟩ := hat.taken
    have hbefore := (run_exact hat.before).samples
    cases hpull with
    | pull r hframes hleftover =>
      rw [hleftover,List.append_nil] at hbefore
      exact ⟨hleftover,hbefore⟩

end Calls
end VoiceApp.Desktop
