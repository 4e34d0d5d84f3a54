import Mathlib.Data.Nat.Notation
import VoiceApp.Desktop.NotificationPlayer

/-! # Resampling the notification sounds

A sound that was recorded at another rate goes through the resampler in chunks, as the one
channel of a resampler that has been made for two. A sound that fails is left out.
-/
namespace VoiceApp.Desktop

/-- The resampler of the library, with its documented behaviour: it is made for a number of
channels and takes `chunkSize` frames, rounded up to a multiple of the reduced input rate;
it fails on any other number of channels and on too few frames. -/
structure FftFixedInOut (R F E : Type) where
  new : (rateIn rateOut chunkSize channels : ℕ) → Except E R
  process : R → List (List F) → Except E (List (List F)) × R
  channels : R → ℕ
  inputFrames : R → ℕ
  new_ok : ∀ {rateIn rateOut} chunkSize channels, 0 < rateIn → 0 < rateOut →
    ∃ r, new rateIn rateOut chunkSize channels = .ok r
  new_channels : ∀ {rateIn rateOut chunkSize count r},
    new rateIn rateOut chunkSize count = .ok r → channels r = count
  new_inputFrames : ∀ {rateIn rateOut chunkSize count r},
    new rateIn rateOut chunkSize count = .ok r → ∃ k,
      inputFrames r = k * (rateIn / rateIn.gcd rateOut) ∧ chunkSize ≤ inputFrames r ∧
        inputFrames r < chunkSize + rateIn / rateIn.gcd rateOut
  process_error : ∀ {r chunks},
    chunks.length ≠ channels r ∨ (∃ chunk ∈ chunks, chunk.length < inputFrames r) →
      ∃ e, (process r chunks).1 = .error e

/-- A slice that is out of range is a panic. -/
inductive ResampleFailure (E : Type)
  | error (e : E)
  | outOfRange

namespace NotificationPlayer
variable {R F E : Type} [Zero F]

def resampleChunkSize : ℕ := 1024

section Code
variable (rubato : FftFixedInOut R F E)
  -- `(count as f32 * (to_rate as f32 / from_rate as f32)) as usize`
  (scaled : (count fromRate toRate : ℕ) → ℕ)

/-- The loop of `resample_audio` on the rest of the input. -/
def resampleLoop (fromRate toRate : ℕ) (resampler : R) (input : List F) :
    Except (ResampleFailure E) (List F) :=
  if _ : input = [] then .ok []
  else
    let chunk := input.take resampleChunkSize
    let paddedChunk := chunk ++ List.replicate (resampleChunkSize - chunk.length) 0
    match rubato.process resampler [paddedChunk] with
    | (.error e,_) => .error (.error e)
    | (.ok resampled,resampler) =>
      match resampled.head? with
      | none => .error .outOfRange
      | some first =>
        let validOutputSamples :=
          if chunk.length < resampleChunkSize then scaled chunk.length fromRate toRate else first.length
        if first.length < validOutputSamples then .error .outOfRange
        else (first.take validOutputSamples ++ ·) <$>
          resampleLoop fromRate toRate resampler (input.drop resampleChunkSize)
termination_by input.length
decreasing_by
  have hlength := List.length_pos_of_ne_nil ‹input ≠ []›
  rw [List.length_drop,resampleChunkSize]
  omega

def resampleAudio (input : List F) (fromRate toRate : ℕ) : Except (ResampleFailure E) (List F) :=
  match rubato.new fromRate toRate resampleChunkSize 2 with
  | .error e => .error (.error e)
  | .ok resampler => resampleLoop rubato scaled fromRate toRate resampler input

/-- The end of `load_and_resample_wav`, on the mono samples of a sound. -/
def loadAndResample (monoSamples : List F) (sourceSampleRate targetSampleRate : ℕ) :
    Except (ResampleFailure E) (List F) :=
  if sourceSampleRate = targetSampleRate then .ok monoSamples
  else resampleAudio rubato scaled monoSamples sourceSampleRate targetSampleRate

/-- The sounds that `new` keeps, of these names, rates and samples; of two with one name the
later one. -/
def loadSounds (targetSampleRate : ℕ) (embedded : List (String × ℕ × List F)) : String → Option (List F) :=
  embedded.foldl (fun sounds (name,sourceSampleRate,monoSamples) =>
    match loadAndResample rubato scaled monoSamples sourceSampleRate targetSampleRate with
    | .ok samples => fun soundId => if soundId = name then some samples else sounds soundId
    | .error _ => sounds) fun _ => none

end Code

section Lemmas
variable {rubato : FftFixedInOut R F E} {scaled : (count fromRate toRate : ℕ) → ℕ}

/-- One channel is not two. -/
theorem resampleLoop_error {fromRate toRate : ℕ} {resampler : R} {input : List F}
    (hchannels : rubato.channels resampler = 2) (hinput : input ≠ []) :
    ∃ e, resampleLoop rubato scaled fromRate toRate resampler input = .error (.error e) := by
  have hone : ([input.take resampleChunkSize ++
      List.replicate (resampleChunkSize - (input.take resampleChunkSize).length) 0]).length ≠
        rubato.channels resampler := by
    rw [hchannels]
    exact Nat.succ_ne_succ_iff.mpr Nat.zero_ne_one
  obtain ⟨e,he⟩ := rubato.process_error (.inl hone)
  refine ⟨e,?_⟩
  rw [resampleLoop,dif_neg hinput]
  dsimp only
  rw [← Prod.eta (rubato.process _ _),he]

/-- Resampling succeeds on no input but the empty one. -/
theorem resampleAudio_ok_iff {fromRate toRate : ℕ} (hfrom : 0 < fromRate) (hto : 0 < toRate)
    (input : List F) :
    (∃ output, resampleAudio rubato scaled input fromRate toRate = .ok output) ↔ input = [] := by
  obtain ⟨resampler,hnew⟩ := rubato.new_ok resampleChunkSize 2 hfrom hto
  have hloop : resampleAudio rubato scaled input fromRate toRate =
      resampleLoop rubato scaled fromRate toRate resampler input := by
    rw [resampleAudio,hnew]
  rw [hloop]
  constructor
  · rintro ⟨output,houtput⟩
    by_contra hinput
    obtain ⟨e,he⟩ : ∃ e, resampleLoop rubato scaled fromRate toRate resampler input = .error (.error e) :=
      resampleLoop_error (rubato.new_channels hnew) hinput
    rw [houtput] at he
    cases he
  · rintro rfl
    refine ⟨[],?_⟩
    rw [resampleLoop,dif_pos rfl]

/-- Rounding up to a multiple. -/
theorem roundUp_bounds (count : ℕ) {unit : ℕ} (hunit : 0 < unit) :
    count ≤ (count + unit - 1) / unit * unit ∧ (count + unit - 1) / unit * unit < count + unit := by
  have hsplit := Nat.div_add_mod (count + unit - 1) unit
  have hmod := Nat.mod_lt (count + unit - 1) hunit
  rw [Nat.mul_comm] at hsplit
  omega

/-- A resampler that gives as many zeros as the rates ask for. -/
def silentRubato : FftFixedInOut (ℕ × ℕ × ℕ) ℤ String where
  new rateIn rateOut chunkSize channels :=
    let unit := rateIn / rateIn.gcd rateOut
    let units := (chunkSize + unit - 1) / unit
    if 0 < rateIn ∧ 0 < rateOut then .ok (channels,units * unit,units * (rateOut / rateIn.gcd rateOut))
    else .error "InvalidSampleRate"
  process r chunks :=
    if chunks.length ≠ r.1 then (.error "WrongNumberOfInputChannels",r)
    else if chunks.any fun chunk => chunk.length < r.2.1 then (.error "InsufficientInputBufferSize",r)
    else (.ok (List.replicate r.1 (List.replicate r.2.2 0)),r)
  channels r := r.1
  inputFrames r := r.2.1
  new_ok := by
    intro rateIn rateOut chunkSize channels hin hout
    exact ⟨_,if_pos ⟨hin,hout⟩⟩
  new_channels := by
    intro rateIn rateOut chunkSize channels r h
    dsimp only at h
    split at h
    · cases h
      rfl
    · cases h
  new_inputFrames := by
    intro rateIn rateOut chunkSize channels r h
    dsimp only at h
    split at h
    case isTrue hpos =>
      cases h
      exact ⟨_,rfl,roundUp_bounds chunkSize
        (Nat.div_pos (Nat.gcd_le_left rateOut hpos.1) (Nat.gcd_pos_of_pos_left rateOut hpos.1))⟩
    case isFalse => cases h
  process_error := by
    intro r chunks h
    split
    · exact ⟨_,rfl⟩
    · rcases h with h | ⟨chunk,hmem,hshort⟩
      · contradiction
      · rw [if_pos (List.any_eq_true.mpr ⟨chunk,hmem,decide_eq_true hshort⟩)]
        exact ⟨_,rfl⟩

theorem empty_sound_resampled :
    (∃ output, resampleAudio silentRubato (fun count _ _ => count) [] 44100 48000 = .ok output) ↔
      ([] : List ℤ) = [] := resampleAudio_ok_iff (by decide) (by decide) []

/-- A sound of one sample at 44.1 kHz. -/
theorem short_sound_lost :
    resampleAudio silentRubato (fun count _ _ => count) [1] 44100 48000 =
      .error (.error "WrongNumberOfInputChannels") := by
  have hnew : silentRubato.new 44100 48000 resampleChunkSize 2 = .ok (2,1029,1120) := rfl
  rw [resampleAudio,hnew]
  dsimp only
  rw [resampleLoop,dif_neg (List.cons_ne_nil _ _)]
  rfl

/-- Of the embedded sounds only those are kept that were recorded at the output rate, or are
empty. -/
theorem loadSounds_kept {targetSampleRate : ℕ} {embedded : List (String × ℕ × List F)} {soundId : String}
    {samples : List F} (htarget : 0 < targetSampleRate)
    (hrates : ∀ sound ∈ embedded, 0 < sound.2.1)
    (h : loadSounds rubato scaled targetSampleRate embedded soundId = some samples) :
    ∃ sound ∈ embedded, sound.1 = soundId ∧ (sound.2.1 = targetSampleRate ∨ sound.2.2 = []) := by
  induction embedded using List.reverseRecOn with
  | nil => cases h
  | append_singleton embedded sound ih =>
    obtain ⟨name,sourceSampleRate,monoSamples⟩ := sound
    have hearlier : loadSounds rubato scaled targetSampleRate embedded soundId = some samples →
        ∃ sound ∈ embedded ++ [(name,sourceSampleRate,monoSamples)], sound.1 = soundId ∧
          (sound.2.1 = targetSampleRate ∨ sound.2.2 = []) := by
      intro hloaded
      obtain ⟨sound,hmem,hsound⟩ := ih (fun sound hmem => hrates sound (List.mem_append_left _ hmem)) hloaded
      exact ⟨sound,List.mem_append_left _ hmem,hsound⟩
    rw [loadSounds,List.foldl_append] at h
    change (match loadAndResample rubato scaled monoSamples sourceSampleRate targetSampleRate with
      | .ok samples => fun soundId => if soundId = name then some samples else
          loadSounds rubato scaled targetSampleRate embedded soundId
      | .error _ => loadSounds rubato scaled targetSampleRate embedded) soundId = some samples at h
    cases hload : loadAndResample rubato scaled monoSamples sourceSampleRate targetSampleRate with
    | error e =>
      rw [hload] at h
      exact hearlier h
    | ok resampled =>
      rw [hload] at h
      dsimp only at h
      split at h
      case isFalse => exact hearlier h
      case isTrue hname =>
        refine ⟨_,List.mem_append_right _ List.mem_cons_self,hname.symm,?_⟩
        unfold loadAndResample at hload
        split at hload
        case isTrue hrate => exact .inl hrate
        case isFalse =>
          have hsource := hrates _ (List.mem_append_right _ List.mem_cons_self)
          exact .inr ((resampleAudio_ok_iff hsource htarget monoSamples).mp ⟨_,hload⟩)

end Lemmas
end NotificationPlayer
end VoiceApp.Desktop
