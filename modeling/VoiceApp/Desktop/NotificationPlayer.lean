import Mathlib.Algebra.Order.Ring.Int
import VoiceApp.Desktop.Output

/-! # Notification sounds

The player hands out the current sound in chunks, and silence when there is none. A sound
that is played replaces the current one, between any two pulls of the output callback.
-/
namespace VoiceApp.Desktop

structure CurrentNotification (F : Type) where
  samples : List F
  position : ℕ
  position_le : position ≤ samples.length

structure PlaybackState (F : Type) where
  current : Option (CurrentNotification F)

/-- The loaded sounds; `volumeFactor volume` is `volume as f32 / 100.0`. -/
structure NotificationPlayer (F : Type) where
  sounds : String → Option (List F)
  chunkSize : ℕ
  volumeFactor : UInt8 → F

namespace NotificationPlayer
variable {F : Type} (player : NotificationPlayer F)

def play [Mul F] (soundId : String) (volume : UInt8) (state : PlaybackState F) : PlaybackState F :=
  match player.sounds soundId with
  | some samples => ⟨some ⟨adjustVolume samples (player.volumeFactor volume),0,Nat.zero_le _⟩⟩
  | none => state

/-- What comes after the chunk that starts at the current position. -/
def advance (current : CurrentNotification F) : PlaybackState F :=
  let toCopy := min (current.samples.length - current.position) player.chunkSize
  if h : current.samples.length ≤ current.position + toCopy then ⟨none⟩
  else ⟨some ⟨current.samples,current.position + toCopy,Nat.le_of_not_le h⟩⟩

def getAudio [Zero F] (state : PlaybackState F) : List F × PlaybackState F :=
  match state.current with
  | some current =>
    let remaining := current.samples.length - current.position
    if 0 < remaining then
      ((current.samples.drop current.position).take (min remaining player.chunkSize),
        player.advance current)
    -- no notification playing
    else (List.replicate player.chunkSize 0,state)
  | none => (List.replicate player.chunkSize 0,state)

/-- What is still to be played. -/
def rest (state : PlaybackState F) : List F :=
  (state.current.map fun current => current.samples.drop current.position).getD []

theorem rest_play [Mul F] {soundId : String} {samples : List F} (h : player.sounds soundId = some samples)
    (volume : UInt8) (state : PlaybackState F) :
    rest (player.play soundId volume state) = adjustVolume samples (player.volumeFactor volume) := by
  rw [play,h]
  rfl

theorem play_unknown [Mul F] {soundId : String} (h : player.sounds soundId = none) (volume : UInt8)
    (state : PlaybackState F) : player.play soundId volume state = state := by
  rw [play,h]

theorem rest_advance (current : CurrentNotification F) : rest (player.advance current) =
    (current.samples.drop current.position).drop
      (min (current.samples.length - current.position) player.chunkSize) := by
  rw [List.drop_drop]
  dsimp only [advance]
  split
  case isTrue h => exact (List.drop_of_length_le h).symm
  case isFalse => rfl

/-- A chunk is the next part of the sound, or silence when nothing is left of it. -/
theorem getAudio_spec [Zero F] (hchunk : 1 ≤ player.chunkSize) (state : PlaybackState F) :
    (player.getAudio state).1 ≠ [] ∧
      ((player.getAudio state).1 ++ rest (player.getAudio state).2 = rest state ∨
        rest state = [] ∧ rest (player.getAudio state).2 = [] ∧
          (player.getAudio state).1 = List.replicate player.chunkSize 0) := by
  have hsilence : List.replicate player.chunkSize (0 : F) ≠ [] :=
    List.ne_nil_of_length_pos (by rw [List.length_replicate]; exact hchunk)
  obtain ⟨_ | current⟩ := state
  · exact ⟨hsilence,.inr ⟨rfl,rfl,rfl⟩⟩
  · dsimp only [getAudio]
    split
    case isTrue hremaining =>
      have hlength : (current.samples.drop current.position).length =
          current.samples.length - current.position := List.length_drop
      refine ⟨List.ne_nil_of_length_pos ?_,.inl ?_⟩
      · rw [List.length_take,hlength]
        omega
      · rw [rest_advance,List.take_append_drop]
        rfl
    case isFalse hremaining =>
      have hrest : rest ⟨some current⟩ = [] := List.drop_of_length_le (by omega)
      exact ⟨hsilence,.inr ⟨hrest,hrest,rfl⟩⟩

end NotificationPlayer

/-- The player and the output that pulls from it. -/
structure Playing (F : Type) where
  state : PlaybackState F
  output : Output F

namespace Playing
open NotificationPlayer Output

inductive Label (E F : Type)
  | play (soundId : String) (volume : UInt8)
  | output (label : Output.Label E F)

variable {E F : Type}

def new : Playing F := ⟨⟨none⟩,.new⟩

/-- A pull takes what the player gives; other steps of the output leave the player alone. -/
inductive Step [Mul F] [Zero F] (player : NotificationPlayer F) (s : Playing F) :
    Label E F → Playing F → Prop
  | play (soundId : String) (volume : UInt8) :
      Step player s (.play soundId volume) { s with state := player.play soundId volume s.state }
  | pull {o : Output F}
      (h : Output.Step s.output (.pull (.ok (player.getAudio s.state).1) : Output.Label E F) o) :
      Step player s (.output (.pull (.ok (player.getAudio s.state).1))) ⟨(player.getAudio s.state).2,o⟩
  | copy {o : Output F} (h : Output.Step s.output (.copy : Output.Label E F) o) :
      Step player s (.output .copy) { s with output := o }
  | callback {frames : ℕ} {o : Output F}
      (h : Output.Step s.output (.callback frames : Output.Label E F) o) :
      Step player s (.output (.callback frames)) { s with output := o }

/-- The steps of the output. -/
def outputs (trace : List (Label E F)) : List (Output.Label E F) :=
  trace.filterMap fun
    | .output label => some label
    | _ => none

/-- The output of a run with notifications is an output's run. -/
theorem output_run [Mul F] [Zero F] {player : NotificationPlayer F} {s t : Playing F}
    {trace : List (Label E F)} (h : Run (Step player) s trace t) :
    Run Output.Step s.output (outputs trace) t.output := by
  refine h.project Playing.output _ ?_ ?_
  · intro t label u m hs hlabel
    cases hs with
    | play => cases hlabel
    | pull h | copy h | callback h =>
      cases hlabel
      exact h
  · intro t label u hs hlabel
    cases hs with
    | play => rfl
    | pull | copy | callback => cases hlabel

/-- The frames asked for by the callbacks of a run. -/
def requested (trace : List (Label E F)) : ℕ := (sizes (outputs trace)).sum

theorem requested_concat (trace : List (Label E F)) (label : Label E F) :
    requested (trace ++ [label]) = requested trace + requested [label] := by
  rw [requested,outputs,List.filterMap_append]
  exact (congrArg List.sum (sizes_append _ _)).trans List.sum_append

/-- Since a point of the run these samples have been written, and with the leftover and what
is left of the sound they make up `sound` and then zeros. -/
structure Since [Zero F] (before : Playing F) (sound : List F) (trace : List (Label E F)) (t : Playing F)
    (samples : List F) (zeros : ℕ) : Prop where
  written : t.output.written = before.output.written ++ samples.map some
  whole : samples ++ t.output.leftover ++ rest t.state = sound ++ List.replicate zeros 0
  finished : rest t.state = [] ∨ zeros = 0
  count : samples.length + t.output.frames = before.output.frames + requested trace

theorem step_since [Mul F] [Zero F] {player : NotificationPlayer F} (hchunk : 1 ≤ player.chunkSize)
    {before t u : Playing F} {sound samples : List F} {zeros : ℕ} {trace : List (Label E F)}
    {label : Label E F} (h : Since before sound trace t samples zeros) (hs : Step player t label u)
    (hlabel : ∀ soundId volume, label = .play soundId volume → player.sounds soundId = none) :
    ∃ samples zeros, Since before sound (trace ++ [label]) u samples zeros := by
  cases hs with
  | play soundId volume =>
    have hsame := play_unknown player (hlabel soundId volume rfl) volume t.state
    refine ⟨samples,zeros,h.written,?_,?_,?_⟩
    · rw [hsame]
      exact h.whole
    · rw [hsame]
      exact h.finished
    · rw [requested_concat]
      exact h.count
  | @pull o hs =>
    obtain ⟨hloud,hspec⟩ := getAudio_spec player hchunk t.state
    cases hs with
    | pull _ hframes hleftover =>
      have hwhole := h.whole
      rw [hleftover,List.append_nil] at hwhole
      have hpulled : t.output.pulled (.ok (player.getAudio t.state).1 : Except E (List F)) =
          { t.output with leftover := (player.getAudio t.state).1 } := by
        unfold pulled
        exact if_neg hloud
      have hcount : samples.length + t.output.frames = before.output.frames +
          requested (trace ++ [.output (.pull (.ok (player.getAudio t.state).1 : Except E (List F)))]) := by
        rw [requested_concat]
        exact h.count
      rw [hpulled]
      rcases hspec with hnext | ⟨hrest,hrest',hzeros⟩
      · refine ⟨samples,zeros,h.written,?_,?_,hcount⟩
        · rw [List.append_assoc]
          exact (congrArg (samples ++ ·) hnext).trans hwhole
        · refine h.finished.imp (fun hrest => ?_) id
          rw [hrest,List.append_eq_nil_iff] at hnext
          exact absurd hnext.1 hloud
      · refine ⟨samples,zeros + player.chunkSize,h.written,?_,.inl hrest',hcount⟩
        rw [hrest,List.append_nil] at hwhole
        dsimp only
        rw [hrest',List.append_nil,hzeros,hwhole,List.append_assoc,List.replicate_append_replicate]
  | @copy o hs =>
    cases hs with
    | copy hframes hleftover =>
      refine ⟨samples ++ t.output.leftover.take (min t.output.leftover.length t.output.frames),zeros,
        ?_,?_,h.finished,?_⟩
      · rw [List.map_append,← List.append_assoc,← h.written]
        exact (List.append_assoc ..).symm
      · rw [← h.whole]
        simp only [copied,List.append_assoc]
        rw [← List.append_assoc (List.take _ _),List.take_append_drop]
      · rw [requested_concat,List.length_append,List.length_take]
        have hcount := h.count
        simp only [copied]
        change _ = _ + (_ + 0)
        omega
  | @callback frames o hs =>
    cases hs with
    | callback _ hframes =>
      refine ⟨samples,zeros,?_,h.whole,h.finished,?_⟩
      · rw [← h.written,written,written,List.flatten_append,List.flatten_singleton,List.append_nil]
      · have hcount := h.count
        rw [hframes] at hcount
        rw [requested_concat]
        change _ = _ + (_ + frames)
        dsimp only
        omega

/-- Since a sound has been played, and no other, it is what is written after the leftover,
and zeros follow it. -/
theorem run_since [Mul F] [Zero F] {player : NotificationPlayer F} (hchunk : 1 ≤ player.chunkSize)
    {before t : Playing F} {soundId : String} {volume : UInt8} {sound : List F} {trace : List (Label E F)}
    (hsound : player.sounds soundId = some sound)
    (h : Run (Step player) { before with state := player.play soundId volume before.state } trace t)
    (hlast : ∀ soundId volume, .play soundId volume ∈ trace → player.sounds soundId = none) :
    ∃ samples zeros, Since before
      (before.output.leftover ++ adjustVolume sound (player.volumeFactor volume)) trace t samples zeros := by
  induction h with
  | refl =>
    refine ⟨[],0,(List.append_nil _).symm,?_,.inr rfl,Nat.zero_add _⟩
    rw [rest_play player hsound]
    exact (List.append_nil _).symm
  | snoc _ hs ih =>
    obtain ⟨samples,zeros,h⟩ := ih fun id volume hmem => hlast id volume (List.mem_append_left _ hmem)
    refine step_since hchunk h hs ?_
    rintro id volume rfl
    exact hlast id volume (List.mem_append_right _ List.mem_cons_self)

/-- Of what starts with `sound` and goes on with zeros, the first `n` elements. -/
theorem eq_take_append_zeros [Zero F] {samples more sound : List F} {zeros : ℕ}
    (h : samples ++ more = sound ++ List.replicate zeros 0) :
    samples = (sound ++ List.replicate samples.length 0).take samples.length := by
  have hlength := congrArg List.length h
  rw [List.length_append,List.length_append,List.length_replicate] at hlength
  have htake : samples = (sound ++ List.replicate zeros 0).take samples.length := by
    rw [← h,List.take_left]
  conv_lhs => rw [htake]
  rw [List.take_append,List.take_append,List.take_replicate,List.take_replicate,
    Nat.min_eq_left (by omega),Nat.min_eq_left (by omega)]

/-- After the last play of a loaded sound the samples written are the leftover of the chunk
pulled before it, the whole sound once, and zeros: the first `n` of them, where `n` is what
the callbacks have asked for. -/
theorem last_play_heard [Mul F] [Zero F] {player : NotificationPlayer F} (hchunk : 1 ≤ player.chunkSize)
    {pre post : List (Label E F)} {before t : Playing F} {soundId : String} {volume : UInt8}
    {sound : List F} (hpre : Run (Step player) new pre before)
    (hsound : player.sounds soundId = some sound)
    (hpost : Run (Step player) before (.play soundId volume :: post) t)
    (hlast : ∀ soundId volume, .play soundId volume ∈ post → player.sounds soundId = none) :
    before.output.leftover <:+ lastChunk (outputs pre) ∧ ∃ n,
      t.output.written = before.output.written ++ ((before.output.leftover ++
        adjustVolume sound (player.volumeFactor volume) ++ List.replicate n 0).take n).map some ∧
      n + t.output.frames = before.output.frames + requested post := by
  refine ⟨run_leftover (output_run hpre),?_⟩
  have hsplit : Run (Step player) before ([.play soundId volume] ++ post) t := hpost
  obtain ⟨u,hplay,hrest⟩ := hsplit.split
  cases hplay.single_step
  obtain ⟨samples,zeros,h⟩ := run_since hchunk hsound hrest hlast
  have hwhole := h.whole
  rw [List.append_assoc samples] at hwhole
  refine ⟨samples.length,?_,h.count⟩
  rw [← eq_take_append_zeros hwhole]
  exact h.written

/-! A sound of three samples, in chunks of two. -/
section Mute

def mutePlayer : NotificationPlayer ℤ :=
  ⟨fun soundId => if soundId = "mute" then some [1,2,3] else none,2,fun _ => 1⟩

/-- One slot has been filled, and half a chunk of silence is left. -/
def beforeMute : Playing ℤ := ⟨⟨none⟩,⟨[0],[[]],[some 0],0⟩⟩

def preMute : List (Label Unit ℤ) :=
  [.output (.callback 1),.output (.pull (.ok [0,0])),.output .copy]

def postMute : List (Label Unit ℤ) :=
  [.output (.callback 5),.output .copy,.output (.pull (.ok [1,2])),.output .copy,
    .output (.pull (.ok [3])),.output .copy,.output (.pull (.ok [0,0])),.output .copy]

def afterMute : Playing ℤ :=
  ⟨⟨none⟩,⟨[0],[[],[some 0]],[some 0,some 1,some 2,some 3,some 0],0⟩⟩

theorem preMute_run : Run (Step mutePlayer) new preMute beforeMute := by
  have hcallback : Run (Step mutePlayer) new ([] ++ [(.output (.callback 1) : Label Unit ℤ)]) _ :=
    Run.refl.snoc (.callback (.callback 1 rfl))
  exact (hcallback.snoc (.pull (.pull _ (by decide) rfl))).snoc (.copy (.copy (by decide) (by decide)))

theorem postMute_run :
    Run (Step mutePlayer) beforeMute (.play "mute" 100 :: postMute) afterMute := by
  have hplay : Run (Step mutePlayer) beforeMute ([] ++ [(.play "mute" 100 : Label Unit ℤ)]) _ :=
    Run.refl.snoc (.play "mute" 100)
  have hleftover := (hplay.snoc (.callback (.callback 5 rfl))).snoc
    (.copy (.copy (by decide) (by decide)))
  have hfirst := (hleftover.snoc (.pull (.pull _ (by decide) rfl))).snoc
    (.copy (.copy (by decide) (by decide)))
  have hsecond := (hfirst.snoc (.pull (.pull _ (by decide) rfl))).snoc
    (.copy (.copy (by decide) (by decide)))
  exact (hsecond.snoc (.pull (.pull _ (by decide) rfl))).snoc (.copy (.copy (by decide) (by decide)))

end Mute

theorem mute_heard : beforeMute.output.leftover <:+ lastChunk (outputs preMute) ∧ ∃ n,
    afterMute.output.written = beforeMute.output.written ++ ((beforeMute.output.leftover ++
      adjustVolume [1,2,3] 1 ++ List.replicate n 0).take n).map some ∧
    n + afterMute.output.frames = beforeMute.output.frames + requested postMute :=
  last_play_heard (by decide) preMute_run rfl postMute_run fun soundId volume hmem => by
    simp [postMute] at hmem

end Playing
end VoiceApp.Desktop
