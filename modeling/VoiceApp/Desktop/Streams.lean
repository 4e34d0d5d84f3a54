import VoiceApp.Desktop.Hearing
import VoiceApp.Desktop.Playback
import VoiceApp.Desktop.Recording

/-! # The audio state with its streams

The audio state opens and closes streams as messages come; the callbacks and tasks of the
streams run beside it. Whatever fails to open is logged and left at that. Notification sounds
are left out here.
-/
namespace VoiceApp.Desktop.Streams
open Protocol Sdk Frontend

variable {N D R F : Type}

/-- What the devices and the client come to while a message is processed, with the
configuration, and the order in which the users in voice are gone through. -/
structure Devices (N : Type) where
  audio : AudioConfig
  newDecoder : UInt64 → UInt32 → Except DecoderError N
  openOutput : UInt64 → Except String Unit
  input : InputHost
  voiceInput : Except String Unit
  users : List UInt64

structure AudioManager (N F : Type) where
  playback : Playback N
  recording : Recording F

namespace AudioManager

def new : AudioManager N F := ⟨.new,.new⟩

/-- The result is only logged, as it is for an output stream. -/
def startRecording (devices : Devices N) (m : AudioManager N F) : AudioManager N F :=
  { m with recording := (m.recording.startRecording devices.input devices.voiceInput
      devices.audio.inputDevice).2 }

def stopRecording (m : AudioManager N F) : AudioManager N F :=
  { m with recording := m.recording.stopRecording }

def createOutputStreamForUser (devices : Devices N) (m : AudioManager N F) (userId : UInt64) :
    AudioManager N F :=
  { m with playback := (m.playback.createOutputStreamForUser (devices.newDecoder userId)
      (devices.openOutput userId) devices.audio.outputDevice.sampleRate userId).2 }

def createOutputStreams (devices : Devices N) (m : AudioManager N F) (users : List UInt64) :
    AudioManager N F :=
  users.foldl (createOutputStreamForUser devices) m

def removeOutputStreamForUser (m : AudioManager N F) (userId : UInt64) : AudioManager N F :=
  { m with playback := m.playback.removeOutputStreamForUser userId }

def removeAllOutputStreams (m : AudioManager N F) : AudioManager N F :=
  { m with playback := m.playback.removeAllOutputStreams }

/-- `mute_input` and `unmute_input`. -/
def setInputMuted (m : AudioManager N F) (muted : Bool) : AudioManager N F :=
  { m with recording := { m.recording with isInputMuted := muted } }

end AudioManager

structure AudioManagerState (N F : Type) where
  audioManager : AudioManager N F
  userId : UInt64
  usersInVoice : Finset UInt64

namespace AudioManagerState

def new : AudioManagerState N F := ⟨.new,0,∅⟩

/-- `self.users_in_voice.contains(&self.user_id)` -/
def inVoice (a : AudioManagerState N F) : Bool := a.userId ∈ a.usersInVoice

def update (devices : Devices N) (a : AudioManagerState N F) : Message → AudioManagerState N F
  | .voiceCommandResult (.connect (.ok (userId,_,_))) => { a with userId := userId }
  | .voiceCommandResult (.joinVoiceChannel (.ok ())) =>
    { a with
      audioManager := (a.audioManager.startRecording devices).createOutputStreams devices devices.users
      usersInVoice := insert a.userId a.usersInVoice }
  | .voiceCommandResult (.leaveVoiceChannel (.ok ())) =>
    { a with
      audioManager := a.audioManager.stopRecording.removeAllOutputStreams
      usersInVoice := a.usersInVoice.erase a.userId }
  | .serverEventReceived (.userJoinedVoice userId) =>
    let a := { a with usersInVoice := insert userId a.usersInVoice }
    if a.inVoice then
      { a with audioManager := a.audioManager.createOutputStreamForUser devices userId }
    else a
  | .serverEventReceived (.userLeftVoice userId) =>
    let a := if a.inVoice then
        { a with audioManager := a.audioManager.removeOutputStreamForUser userId }
      else a
    { a with usersInVoice := a.usersInVoice.erase userId }
  | .settingsPage (.selectInputDevice _) =>
    if a.inVoice then { a with audioManager := a.audioManager.stopRecording.startRecording devices }
    else a
  | .settingsPage (.selectOutputDevice _) =>
    if a.inVoice then
      { a with
        audioManager := a.audioManager.removeAllOutputStreams.createOutputStreams devices
          (devices.users.filter (· ≠ a.userId)) }
    else a
  | .muteInput muted => { a with audioManager := a.audioManager.setInputMuted muted }
  | _ => a

end AudioManagerState

/-- Messages, what the client and the output streams do, and what the input streams and their
tasks do. -/
inductive Label (N F : Type)
  | message (devices : Devices N) (message : Message)
  | output (label : Playback.Label N F)
  | input (label : Recording.Label F)

/-- What is not done by the audio state. -/
def OutputRuns : Playback.Label N F → Prop
  | .receive _ => True
  | .play _ _ => True
  | _ => False

def InputRuns : Recording.Label F → Prop
  | .start _ _ _ => False
  | .stop => False
  | .mute _ => False
  | _ => True

section Steps
variable [Zero F] [One F] [Add F] [Sub F] [Div F] [NatCast F] [IntCast F] [Mul F] [LE F] [DecidableLE F]
  (neteq : NetEq N D R F) (meter : Meter F)

inductive Step (a : AudioManagerState N F) : Label N F → AudioManagerState N F → Prop
  | message {devices message} (hnodup : devices.users.Nodup)
      (husers : devices.users.toFinset = a.usersInVoice) :
      Step a (.message devices message) (a.update devices message)
  | output {label playback} (hruns : OutputRuns label)
      (hs : Playback.Step neteq a.audioManager.playback label playback) :
      Step a (.output label) { a with audioManager := { a.audioManager with playback := playback } }
  | input {label recording} (hruns : InputRuns label)
      (hs : Recording.Step meter a.audioManager.recording label recording) :
      Step a (.input label) { a with audioManager := { a.audioManager with recording := recording } }

end Steps

def messages (trace : List (Label N F)) : List Message :=
  trace.filterMap fun
    | .message _ message => some message
    | _ => none

/-! ## Output streams -/

/-- A stream for the user opens, should one be wanted. -/
def Devices.Opens (devices : Devices N) (id : UInt64) : Prop :=
  (∃ decoder, devices.newDecoder id devices.audio.outputDevice.sampleRate = .ok decoder) ∧
    devices.openOutput id = .ok ()

def AudioManager.hasStream (m : AudioManager N F) (id : UInt64) : Prop :=
  (m.playback.outputStreams.lookup id).isSome = true

namespace AudioManager
variable {devices : Devices N} {m : AudioManager N F} {id : UInt64}

theorem create_hasStream (hopens : devices.Opens id) (userId : UInt64) :
    (m.createOutputStreamForUser devices userId).hasStream id ↔ id = userId ∨ m.hasStream id := by
  by_cases hid : id = userId
  · subst hid
    refine iff_of_true ?_ (.inl rfl)
    unfold hasStream createOutputStreamForUser
    rw [hopens.2]
    obtain ⟨stream,hstream⟩ := m.playback.createOutputStreamForUser_opens hopens.1 id
    rw [hstream]
    rfl
  · rw [or_iff_right hid]
    unfold hasStream createOutputStreamForUser
    rw [Playback.createOutputStreamForUser_lookup _ _ _ _ hid]

theorem createAll_hasStream (hopens : devices.Opens id) (users : List UInt64) :
    (m.createOutputStreams devices users).hasStream id ↔ id ∈ users ∨ m.hasStream id := by
  induction users generalizing m with
  | nil => simp [createOutputStreams]
  | cons userId users ih =>
    have ih := ih (m := m.createOutputStreamForUser devices userId)
    rw [create_hasStream hopens] at ih
    rw [List.mem_cons,or_assoc,or_left_comm]
    exact ih

theorem remove_hasStream (userId : UInt64) :
    (m.removeOutputStreamForUser userId).hasStream id ↔ id ≠ userId ∧ m.hasStream id := by
  unfold hasStream
  change (Finmap.lookup id (m.playback.outputStreams.erase userId)).isSome = true ↔ _
  rw [Table.lookup_erase_eq]
  by_cases hid : id = userId <;> simp [hid]

theorem removeAll_hasStream : ¬m.removeAllOutputStreams.hasStream id := by
  simp [hasStream,removeAllOutputStreams,Playback.removeAllOutputStreams]

theorem createOutputStreams_recording (users : List UInt64) :
    (m.createOutputStreams devices users).recording = m.recording := by
  induction users generalizing m with
  | nil => rfl
  | cons userId users ih => exact ih

theorem startRecording_isInputMuted :
    (m.startRecording devices).recording.isInputMuted = m.recording.isInputMuted := by
  unfold startRecording
  rcases m.recording.startRecording_cases devices.input devices.voiceInput devices.audio.inputDevice with
    ⟨e,heq⟩ | ⟨format,heq⟩ <;> rw [heq]

end AudioManager

/-- The record that takes every stream to open is right about this user. -/
structure Refines (id : UInt64) (a : AudioManagerState N F) (b : Desktop.AudioManagerState) : Prop where
  userId : a.userId = b.userId
  usersInVoice : a.usersInVoice = b.usersInVoice
  muted : a.audioManager.recording.isInputMuted = b.audioManager.isInputMuted
  stream : a.audioManager.hasStream id ↔ id ∈ b.audioManager.outputStreams

theorem Refines.inVoice {id : UInt64} {a : AudioManagerState N F} {b : Desktop.AudioManagerState}
    (h : Refines id a b) : a.inVoice = b.inVoice := by
  rw [AudioManagerState.inVoice,h.userId,h.usersInVoice]
  rfl

theorem joinedVoice_refines {id userId : UInt64} {a : AudioManagerState N F} {b : Desktop.AudioManagerState}
    {devices : Devices N} (h : Refines id a b) (hopens : devices.Opens id) :
    Refines id (a.update devices (.serverEventReceived (.userJoinedVoice userId)))
      (b.update (.serverEventReceived (.userJoinedVoice userId))) := by
  have hjoined : Refines id { a with usersInVoice := insert userId a.usersInVoice }
      { b with usersInVoice := insert userId b.usersInVoice } :=
    ⟨h.userId,congrArg (insert userId) h.usersInVoice,h.muted,h.stream⟩
  have hin := hjoined.inVoice
  rw [AudioManagerState.update,Desktop.AudioManagerState.update]
  dsimp only at hin ⊢
  rw [hin]
  split
  · refine ⟨h.userId,hjoined.usersInVoice,h.muted,?_⟩
    exact (AudioManager.create_hasStream hopens userId).trans
      ((or_congr_right h.stream).trans Finset.mem_insert.symm)
  · exact hjoined

theorem leftVoice_refines {id userId : UInt64} {a : AudioManagerState N F} {b : Desktop.AudioManagerState}
    {devices : Devices N} (h : Refines id a b) :
    Refines id (a.update devices (.serverEventReceived (.userLeftVoice userId)))
      (b.update (.serverEventReceived (.userLeftVoice userId))) := by
  rw [AudioManagerState.update,Desktop.AudioManagerState.update,h.inVoice]
  split
  · refine ⟨h.userId,congrArg (Finset.erase · userId) h.usersInVoice,h.muted,?_⟩
    exact (AudioManager.remove_hasStream userId).trans
      ((and_congr_right_iff.mpr fun _ => h.stream).trans Finset.mem_erase.symm)
  · exact ⟨h.userId,congrArg (Finset.erase · userId) h.usersInVoice,h.muted,h.stream⟩

theorem selectOutputDevice_refines {id : UInt64} {a : AudioManagerState N F} {b : Desktop.AudioManagerState}
    {devices : Devices N} (h : Refines id a b) (hopens : devices.Opens id)
    (husers : devices.users.toFinset = a.usersInVoice) (deviceId : String) :
    Refines id (a.update devices (.settingsPage (.selectOutputDevice deviceId)))
      (b.update (.settingsPage (.selectOutputDevice deviceId))) := by
  rw [AudioManagerState.update,Desktop.AudioManagerState.update,h.inVoice]
  split
  · refine ⟨h.userId,h.usersInVoice,?_,?_⟩
    · rw [AudioManager.createOutputStreams_recording]
      exact h.muted
    · have hmem : id ∈ devices.users.filter (· ≠ a.userId) ↔ id ∈ b.usersInVoice.erase b.userId := by
        rw [← h.userId,← h.usersInVoice,← husers]
        simp [and_comm]
      change _ ↔ id ∈ ∅ ∪ b.usersInVoice.erase b.userId
      rw [Finset.empty_union,AudioManager.createAll_hasStream hopens,hmem,
        or_iff_left AudioManager.removeAll_hasStream]
  · exact h

theorem update_refines {id : UInt64} {a : AudioManagerState N F} {b : Desktop.AudioManagerState}
    {devices : Devices N} (h : Refines id a b) (hopens : devices.Opens id)
    (husers : devices.users.toFinset = a.usersInVoice) (message : Message) :
    Refines id (a.update devices message) (b.update message) := by
  cases message with
  | voiceCommandResult result =>
    cases result with
    | connect result =>
      cases result with
      | error => exact h
      | ok => exact ⟨rfl,h.usersInVoice,h.muted,h.stream⟩
    | joinVoiceChannel result =>
      cases result with
      | error => exact h
      | ok =>
        refine ⟨h.userId,?_,?_,?_⟩
        · exact congr (congrArg insert h.userId) h.usersInVoice
        · change (AudioManager.createOutputStreams devices _ _).recording.isInputMuted = _
          rw [AudioManager.createOutputStreams_recording,AudioManager.startRecording_isInputMuted]
          exact h.muted
        · have hmem : id ∈ devices.users ↔ id ∈ b.usersInVoice := by
            rw [← h.usersInVoice,← husers,List.mem_toFinset]
          exact (AudioManager.createAll_hasStream hopens _).trans
            ((or_congr hmem h.stream).trans (or_comm.trans Finset.mem_union.symm))
    | leaveVoiceChannel result =>
      cases result with
      | error => exact h
      | ok =>
        refine ⟨h.userId,?_,h.muted,?_⟩
        · exact congr (congrArg Finset.erase h.usersInVoice) h.userId
        · exact iff_of_false AudioManager.removeAll_hasStream (Finset.notMem_empty id)
    | _ => exact h
  | serverEventReceived event =>
    cases event with
    | userJoinedVoice => exact joinedVoice_refines h hopens
    | userLeftVoice => exact leftVoice_refines h
    | _ => exact h
  | settingsPage message =>
    cases message with
    | selectInputDevice =>
      rw [AudioManagerState.update]
      split
      · refine ⟨h.userId,h.usersInVoice,?_,h.stream⟩
        exact AudioManager.startRecording_isInputMuted.trans h.muted
      · exact h
    | selectOutputDevice deviceId => exact selectOutputDevice_refines h hopens husers deviceId
    | _ => exact h
  | muteInput => exact ⟨h.userId,h.usersInVoice,rfl,h.stream⟩
  | _ => exact h

/-! ## Runs -/

section Runs
variable [Zero F] [One F] [Add F] [Sub F] [Div F] [NatCast F] [IntCast F] [Mul F] [LE F] [DecidableLE F]
  {neteq : NetEq N D R F} {meter : Meter F} {trace : List (Label N F)} {a a' : AudioManagerState N F}
  {label : Label N F}

omit [Zero F] [One F] [Add F] [Sub F] [Div F] [NatCast F] [IntCast F] [Mul F] [LE F] [DecidableLE F] in
theorem outputRuns_streams {p p' : Playback N} {label : Playback.Label N F} (hruns : OutputRuns label)
    (hs : Playback.Step neteq p label p') : p'.outputStreams = p.outputStreams := by
  cases hs with
  | create => exact hruns.elim
  | remove => exact hruns.elim
  | removeAll => exact hruns.elim
  | receive => rfl
  | play => rfl

theorem inputRuns_fields {r r' : Recording F} {label : Recording.Label F} (hruns : InputRuns label)
    (hs : Recording.Step meter r label r') :
    r'.isInputMuted = r.isInputMuted ∧ r'.inputStream = r.inputStream := by
  cases hs with
  | start => exact hruns.elim
  | stop => exact hruns.elim
  | mute => exact hruns.elim
  | _ => exact ⟨rfl,rfl⟩

theorem run_refines {id : UInt64} (h : Run (Step neteq meter) .new trace a)
    (hopens : ∀ devices message, .message devices message ∈ trace → devices.Opens id) :
    Refines id a ((messages trace).foldl Desktop.AudioManagerState.update .new) := by
  induction h with
  | refl =>
    have hnone : ¬(AudioManager.new : AudioManager N F).hasStream id :=
      AudioManager.removeAll_hasStream (m := .new)
    exact ⟨rfl,rfl,rfl,iff_of_false hnone (Finset.notMem_empty id)⟩
  | @snoc trace t label u hr hs ih =>
    have ih := ih fun devices message hmem => hopens devices message (List.mem_append_left _ hmem)
    rw [messages,List.filterMap_append,List.foldl_append]
    cases hs with
    | @message devices message hnodup husers =>
      exact update_refines ih (hopens devices message (by simp)) husers message
    | output hruns hs =>
      refine ⟨ih.userId,ih.usersInVoice,ih.muted,?_⟩
      have hstream := ih.stream
      unfold AudioManager.hasStream at hstream ⊢
      rw [← outputRuns_streams hruns hs] at hstream
      exact hstream
    | input hruns hs =>
      exact ⟨ih.userId,ih.usersInVoice,(inputRuns_fields hruns hs).1.trans ih.muted,ih.stream⟩

/-- Every output stream opens. -/
def Label.Works : Label N F → Prop
  | .message devices _ => ∀ id, devices.openOutput id = .ok ()
  | _ => True

abbrev PlaybackRuns (neteq : NetEq N D R F) (m m' : AudioManager N F) : Prop :=
  ∃ labels, Run (Guarded Playback.Careful (Playback.Step neteq)) m.playback labels m'.playback

omit [Zero F] [One F] [Add F] [Sub F] [Div F] [NatCast F] [IntCast F] [Mul F] [LE F] [DecidableLE F] in
theorem createAll_runs (neteq : NetEq N D R F) {m : AudioManager N F} {devices : Devices N}
    (hworks : ∀ id, devices.openOutput id = .ok ()) (users : List UInt64) :
    PlaybackRuns neteq m (m.createOutputStreams devices users) := by
  induction users generalizing m with
  | nil => exact ⟨[],.refl⟩
  | cons userId users ih =>
    have hs : Guarded Playback.Careful (Playback.Step neteq) m.playback
        (.create (devices.newDecoder userId) (devices.openOutput userId)
          devices.audio.outputDevice.sampleRate userId)
        (m.createOutputStreamForUser devices userId).playback := by
      refine ⟨?_,.create⟩
      rw [hworks userId]
      trivial
    obtain ⟨labels,hrun⟩ := ih (m := m.createOutputStreamForUser devices userId)
    exact ⟨_,(Run.single hs).append hrun⟩

omit [Zero F] [One F] [Add F] [Sub F] [Div F] [NatCast F] [IntCast F] [Mul F] [LE F] [DecidableLE F] in
theorem update_runs (neteq : NetEq N D R F) (a : AudioManagerState N F) {devices : Devices N}
    (hworks : ∀ id, devices.openOutput id = .ok ()) (message : Message) :
    PlaybackRuns neteq a.audioManager (a.update devices message).audioManager := by
  have hsame : PlaybackRuns neteq a.audioManager a.audioManager := ⟨[],.refl⟩
  have hcleared : Run (Guarded Playback.Careful (Playback.Step neteq)) a.audioManager.playback [.removeAll]
      a.audioManager.removeAllOutputStreams.playback := .single ⟨trivial,.removeAll⟩
  have hremoved (userId : UInt64) : Run (Guarded Playback.Careful (Playback.Step neteq))
      a.audioManager.playback [.remove userId]
      (a.audioManager.removeOutputStreamForUser userId).playback := .single ⟨trivial,.remove⟩
  unfold AudioManagerState.update
  split
  · exact hsame
  · exact createAll_runs neteq (m := a.audioManager.startRecording devices) hworks _
  · exact ⟨_,hcleared⟩
  · dsimp only
    split
    · exact createAll_runs neteq hworks [_]
    · exact hsame
  · dsimp only
    split
    · exact ⟨_,hremoved _⟩
    · exact hsame
  · split
    · exact hsame
    · exact hsame
  · split
    · obtain ⟨labels,hrun⟩ := createAll_runs neteq (m := a.audioManager.removeAllOutputStreams)
        hworks (devices.users.filter (· ≠ a.userId))
      exact ⟨_,hcleared.append hrun⟩
    · exact hsame
  · exact hsame
  · exact hsame

theorem run_playback (h : Run (Guarded (fun _ => Label.Works) (Step neteq meter)) .new trace a) :
    PlaybackRuns neteq .new a.audioManager := by
  refine h.simulates (fun a => a.audioManager.playback) fun hs => ?_
  obtain ⟨hworks,hs⟩ := hs
  cases hs with
  | message => exact update_runs neteq _ hworks _
  | @output label playback hruns hs =>
    refine ⟨_,.single ⟨?_,hs⟩⟩
    cases label with
    | create => exact hruns.elim
    | _ => trivial
  | input => exact ⟨[],.refl⟩

theorem run_audio (formatTime : UInt64 → String) (messages : List Message) :
    (Application.run formatTime messages).audio = messages.foldl Desktop.AudioManagerState.update .new := by
  induction messages using List.reverseRecOn with
  | nil => rfl
  | append_singleton messages message ih =>
    rw [Application.run_concat,List.foldl_concat,← ih]
    rfl

/-- Expected messages keep the two records of who is in voice in step. -/
theorem expected_inStep {formatTime : UInt64 → String} (messages : List Message)
    (h : ∀ pre message post, messages = pre ++ message :: post →
      (Application.run formatTime pre).Expected message) : (Application.run formatTime messages).InStep := by
  induction messages using List.reverseRecOn with
  | nil => exact Application.new_inStep
  | append_singleton messages message ih =>
    have ih := ih fun pre message' post hpre => h pre message' (post ++ [message]) (by rw [hpre]; simp)
    rw [Application.run_concat,Application.update_inStep_iff ih]
    exact h messages message [] rfl

/-- In voice the user has a stream for each other user that the page shows in voice, and for
nobody else, unless a stream for that very user has failed to open at some time. As long as
every stream opens, each plays what its user's packets go to. -/
theorem hears_shown {formatTime : UInt64 → String} (h : Run (Step neteq meter) .new trace a)
    (hexpected : ∀ pre message post, messages trace = pre ++ message :: post →
      (Application.run formatTime pre).Expected message) (hin : a.inVoice = true) :
    (∀ id, (∀ devices message, .message devices message ∈ trace → devices.Opens id) →
      (a.audioManager.hasStream id ↔ id ≠ (Application.run formatTime (messages trace)).room.userId ∧
        (Application.run formatTime (messages trace)).room.shows id = true)) ∧
    ((∀ label ∈ trace, label.Works) → ∀ id stream,
      a.audioManager.playback.outputStreams.lookup id = some stream →
      a.audioManager.playback.voiceOutputs.table.lookup id = some (stream.sampleRate,stream.decoder)) := by
  have hinStep := expected_inStep (messages trace) hexpected
  constructor
  · intro id hopens
    have hrefines := run_refines h hopens
    rw [← run_audio formatTime] at hrefines
    rw [hrefines.stream]
    exact hinStep.hears (.inl (hrefines.inVoice ▸ hin)) id
  · intro hworks
    obtain ⟨labels,hrun⟩ := run_playback (h.guarded hworks)
    exact (Playback.run_matched hrun).fed

/-! ## The microphone -/

/-- There is no open input stream out of voice. -/
def Discreet (a : AudioManagerState N F) : Prop :=
  a.audioManager.recording.inputStream ≠ none → a.inVoice = true

/-- The user keeps its id and is not taken out of voice by others while it records. -/
def Respects (a : AudioManagerState N F) : Label N F → Prop
  | .message _ (.voiceCommandResult (.connect (.ok (userId,_,_)))) =>
    a.audioManager.recording.inputStream ≠ none → userId ∈ a.usersInVoice
  | .message _ (.serverEventReceived (.userLeftVoice userId)) =>
    a.audioManager.recording.inputStream ≠ none → userId ≠ a.userId
  | _ => True

omit [Zero F] [One F] [Add F] [Sub F] [Div F] [NatCast F] [IntCast F] [Mul F] [LE F] [DecidableLE F] in
theorem update_discreet_iff (h : Discreet a) (devices : Devices N) (message : Message) :
    Discreet (a.update devices message) ↔ Respects a (.message devices message : Label N F) := by
  have hin : ∀ {b : AudioManagerState N F}, b.inVoice = true ↔ b.userId ∈ b.usersInVoice := by
    simp [AudioManagerState.inVoice]
  cases message with
  | voiceCommandResult result =>
    cases result with
    | connect result =>
      cases result with
      | error => exact iff_of_true h trivial
      | ok => exact imp_congr_right fun _ => hin
    | joinVoiceChannel result =>
      cases result with
      | error => exact iff_of_true h trivial
      | ok => exact iff_of_true (fun _ => hin.mpr (Finset.mem_insert_self _ _)) trivial
    | leaveVoiceChannel result =>
      cases result with
      | error => exact iff_of_true h trivial
      | ok => exact iff_of_true (fun hopen => (hopen rfl).elim) trivial
    | _ => exact iff_of_true h trivial
  | serverEventReceived event =>
    cases event with
    | userJoinedVoice userId =>
      refine iff_of_true (fun hopen => ?_) trivial
      rw [AudioManagerState.update] at hopen ⊢
      have hjoined : a.inVoice = true → a.userId ∈ insert userId a.usersInVoice :=
        fun h => Finset.mem_insert_of_mem (hin.mp h)
      split
      · rw [if_pos ‹_›] at hopen
        exact hin.mpr (hjoined (h hopen))
      · rw [if_neg ‹_›] at hopen
        exact hin.mpr (hjoined (h hopen))
    | userLeftVoice userId =>
      have hleft : Discreet (a.update devices (.serverEventReceived (.userLeftVoice userId))) ↔
          (a.audioManager.recording.inputStream ≠ none → a.userId ∈ a.usersInVoice.erase userId) := by
        rw [AudioManagerState.update]
        split <;> exact imp_congr_right fun _ => hin
      rw [hleft]
      refine imp_congr_right fun hopen => ?_
      rw [Finset.mem_erase,and_iff_left (hin.mp (h hopen))]
      exact ne_comm
    | _ => exact iff_of_true h trivial
  | settingsPage message =>
    cases message with
    | selectInputDevice =>
      rw [AudioManagerState.update]
      split
      · exact iff_of_true (fun _ => ‹a.inVoice = true›) trivial
      · exact iff_of_true h trivial
    | selectOutputDevice =>
      rw [AudioManagerState.update]
      split
      · exact iff_of_true (fun _ => ‹a.inVoice = true›) trivial
      · exact iff_of_true h trivial
    | _ => exact iff_of_true h trivial
  | muteInput => exact iff_of_true h trivial
  | _ => exact iff_of_true h trivial

/-- A step keeps the microphone closed out of voice, exactly if it respects the recording. -/
theorem step_discreet_iff (h : Discreet a) (hs : Step neteq meter a label a') :
    Discreet a' ↔ Respects a label := by
  cases hs with
  | message => exact update_discreet_iff h _ _
  | output => exact iff_of_true h trivial
  | input hruns hs =>
    refine iff_of_true (fun hopen => h ?_) trivial
    rw [← (inputRuns_fields hruns hs).2]
    exact hopen

theorem run_discreet (h : Run (Guarded Respects (Step neteq meter)) .new trace a) : Discreet a :=
  h.preserves (fun _ _ _ ht hs => (step_discreet_iff ht hs.2).mpr hs.1) fun hopen => (hopen rfl).elim

/-- The buffers that an input stream has captured. -/
def captured (k : ℕ) (trace : List (Label N F)) : List (DeviceBuffer F) :=
  Recording.buffers k (trace.filterMap fun
    | .input label => some label
    | _ => none)

omit [Zero F] [One F] [Add F] [Sub F] [Div F] [NatCast F] [IntCast F] [Mul F] [LE F] [DecidableLE F] in
theorem captured_concat (k : ℕ) (trace : List (Label N F)) (label : Label N F) :
    captured k (trace ++ [label]) = captured k trace ++ captured k [label] := by
  rw [captured,List.filterMap_append,Recording.buffers_append]
  rfl

theorem update_recording (a : AudioManagerState N F) (devices : Devices N) (message : Message) :
    ∃ labels, Run (Recording.Step meter) a.audioManager.recording labels
        (a.update devices message).audioManager.recording ∧ ∀ k, Recording.buffers k labels = [] := by
  have hsame : ∃ labels, Run (Recording.Step meter) a.audioManager.recording labels
      a.audioManager.recording ∧ ∀ k, Recording.buffers k labels = [] := ⟨[],.refl,fun _ => rfl⟩
  unfold AudioManagerState.update
  split
  · exact hsame
  · refine ⟨[.start devices.input devices.voiceInput devices.audio.inputDevice],?_,fun _ => rfl⟩
    rw [AudioManager.createOutputStreams_recording]
    exact .single .start
  · exact ⟨[.stop],.single .stop,fun _ => rfl⟩
  · dsimp only
    split <;> exact hsame
  · dsimp only
    split <;> exact hsame
  · split
    · exact ⟨[.stop] ++ [.start devices.input devices.voiceInput devices.audio.inputDevice],
        (Run.single .stop).snoc .start,fun _ => rfl⟩
    · exact hsame
  · split
    · rw [AudioManager.createOutputStreams_recording]
      exact hsame
    · exact hsame
  · exact ⟨[.mute _],.single .mute,fun _ => rfl⟩
  · exact hsame

theorem run_recording (h : Run (Step neteq meter) .new trace a) :
    ∃ labels, Run (Recording.Step meter) .new labels a.audioManager.recording ∧
      ∀ k, Recording.buffers k labels = captured k trace := by
  induction h with
  | refl => exact ⟨[],.refl,fun _ => rfl⟩
  | @snoc trace t label u _ hs ih =>
    obtain ⟨labels,hrun,hbuffers⟩ := ih
    have hmore : ∃ more, Run (Recording.Step meter) t.audioManager.recording more
        u.audioManager.recording ∧ ∀ k, Recording.buffers k more = captured k [label] := by
      cases hs with
      | message => exact update_recording t _ _
      | output => exact ⟨[],.refl,fun _ => rfl⟩
      | @input label recording hruns hs => exact ⟨[label],.single hs,fun _ => rfl⟩
    obtain ⟨more,hmore,hcaptured⟩ := hmore
    refine ⟨labels ++ more,hrun.append hmore,fun k => ?_⟩
    rw [captured_concat,Recording.buffers_append,hbuffers,hcaptured]

/-- Nothing is captured out of voice, and what the tasks of the input streams hand on is made
of what has been captured. The microphone stays open out of voice only if the user gets
another id, or is reported to have left, while it records. -/
theorem speaks_in_voice (h : Run (Guarded Respects (Step neteq meter)) .new trace a) :
    (∀ pre t k buffer,
      Run.At (Guarded Respects (Step neteq meter)) .new trace a pre t (.input (.capture k buffer)) →
        t.inVoice = true) ∧
    (∀ (k : ℕ) (c : Capture F), a.audioManager.recording.captures[k]? = some c →
      (captured k trace).map (DeviceBuffer.toMono c.channels) = c.captured.map some ∧
      ∃ read, c.sent = Recording.forwarded meter c.captured read) ∧
    ∀ label a', Step neteq meter a label a' → (Discreet a' ↔ Respects a label) := by
  refine ⟨fun pre t k buffer hat => ?_,fun k c hc => ?_,fun label a' => step_discreet_iff (run_discreet h)⟩
  · obtain ⟨t',_,hs⟩ := hat.taken
    cases hs with
    | input _ hs =>
      cases hs with
      | capture hstream =>
        refine run_discreet hat.before ?_
        rw [hstream]
        nofun
  · obtain ⟨labels,hrun,hbuffers⟩ := run_recording (h.mono fun _ _ _ hs => hs.2)
    have ht := (Recording.run_tracked hrun).tracks k c hc
    rw [← hbuffers]
    exact ⟨ht.captured,Recording.readings k labels,ht.sent⟩

end Runs

/-! ## One conversation -/

section Sample

def silentBuffer : NetEq Unit Unit Unit ℤ where
  new _ := .ok ()
  registerDecoder _ _ _ := ()
  insertPacket _ _ := ((),.ok ())
  getAudio _ := ((),.ok [])

def workingDevices (users : List UInt64) : Devices Unit :=
  ⟨Recording.stereoConfig,fun _ _ => .ok (),fun _ => .ok (),⟨.ok (),.ok ()⟩,.ok (),users⟩

/-- User 2 is in voice when user 1 joins. -/
def callMessages : List Message :=
  [.serverEventReceived (.participantsList 1 [⟨1,"ann",false,false⟩,⟨2,"bob",false,false⟩]),
    .serverEventReceived (.userJoinedVoice 2),.voiceCommandResult (.connect (.ok (1,"host","ann"))),
    .voiceCommandResult (.joinVoiceChannel (.ok ()))]

def callLabels : List (Label Unit ℤ) :=
  callMessages.zipWith (fun message users => .message (workingDevices users) message) [[],[],[2],[2]]

theorem call_expected (pre : List Message) (message : Message) (post : List Message)
    (h : callMessages = pre ++ message :: post) :
    (Application.run (fun _ => "") pre).Expected message := by
  rcases pre with _ | ⟨m1,_ | ⟨m2,_ | ⟨m3,_ | ⟨m4,pre⟩⟩⟩⟩
  · cases h
    refine ⟨fun id => ?_,fun hin => ?_⟩
    · have hout : ((RoomPage.entry id [⟨1,"ann",false,false⟩,⟨2,"bob",false,false⟩]).map
          ParticipantInfo.inVoice).getD false = false := by
        simp only [RoomPage.entry,List.foldl_cons,List.foldl_nil]
        split
        · rfl
        · split <;> rfl
      rw [hout]
      exact iff_of_false (Finset.notMem_empty id) Bool.false_ne_true
    · rcases hin with hin | hin <;> exact (Finset.notMem_empty _ hin).elim
  · cases h
    exact ⟨by decide,by decide,by decide⟩
  · cases h
    exact .inr ⟨by decide,by decide⟩
  · cases h
    exact ⟨by decide,by decide,by decide⟩
  · cases pre <;> cases h

theorem call_run : ∃ a, Run (Step silentBuffer Recording.sumMeter) .new callLabels a ∧ a.inVoice = true := by
  have hstep (a : AudioManagerState Unit ℤ) (message : Message) {users : List UInt64} (hnodup : users.Nodup)
      (husers : users.toFinset = a.usersInVoice) : Step silentBuffer Recording.sumMeter a
        (.message (workingDevices users) message) (a.update (workingDevices users) message) :=
    .message hnodup husers
  have hlisted := Run.single (hstep .new (.serverEventReceived (.participantsList 1
    [⟨1,"ann",false,false⟩,⟨2,"bob",false,false⟩])) List.nodup_nil rfl)
  have hjoined := hlisted.snoc (hstep _ (.serverEventReceived (.userJoinedVoice 2)) List.nodup_nil rfl)
  have hconnected := hjoined.snoc (hstep _ (.voiceCommandResult (.connect (.ok (1,"host","ann"))))
    (List.nodup_singleton 2) (by decide))
  have hcalled := hconnected.snoc (hstep _ (.voiceCommandResult (.joinVoiceChannel (.ok ())))
    (List.nodup_singleton 2) (by decide))
  exact ⟨_,hcalled,by decide⟩

/-- User 1 has a stream for user 2. -/
theorem hears_shown_call : ∃ a : AudioManagerState Unit ℤ,
    Run (Step silentBuffer Recording.sumMeter) .new callLabels a ∧ a.audioManager.hasStream 2 := by
  obtain ⟨a,hrun,hin⟩ := call_run
  refine ⟨a,hrun,((hears_shown hrun call_expected hin).1 2 fun devices message hmem => ?_).mpr
    ⟨by decide,by decide⟩⟩
  simp only [callLabels,callMessages,List.zipWith_cons_cons,List.zipWith_nil_left,List.mem_cons,
    Label.message.injEq,List.not_mem_nil,or_false] at hmem
  rcases hmem with ⟨rfl,_⟩ | ⟨rfl,_⟩ | ⟨rfl,_⟩ | ⟨rfl,_⟩ <;> exact ⟨⟨(),rfl⟩,rfl⟩

/-- The microphone of user 1 captures a buffer in voice. -/
def micLabels : List (Label Unit ℤ) :=
  [.message (workingDevices []) (.voiceCommandResult (.connect (.ok (1,"host","ann")))),
    .message (workingDevices []) (.voiceCommandResult (.joinVoiceChannel (.ok ()))),
    .input (.capture 0 (.f32 [3,5,10,20]))]

def micOpen : AudioManagerState Unit ℤ := ⟨⟨.new,Recording.speaking [] 0 []⟩,1,insert 1 ∅⟩

theorem speaks_in_voice_mic :
    Run (Guarded Respects (Step silentBuffer Recording.sumMeter)) .new (micLabels.take 2) micOpen ∧
      micOpen.inVoice = true := by
  have hconnect : Guarded Respects (Step silentBuffer Recording.sumMeter) .new
      (.message (workingDevices []) (.voiceCommandResult (.connect (.ok (1,"host","ann"))))) _ :=
    ⟨fun hopen => (hopen rfl).elim,.message List.nodup_nil rfl⟩
  have hjoin : Guarded Respects (Step silentBuffer Recording.sumMeter) ⟨.new,1,∅⟩
      (.message (workingDevices []) (.voiceCommandResult (.joinVoiceChannel (.ok ())))) micOpen :=
    ⟨trivial,.message List.nodup_nil rfl⟩
  have hcapture : Guarded Respects (Step silentBuffer Recording.sumMeter) micOpen
      (.input (.capture 0 (.f32 [3,5,10,20]))) _ :=
    ⟨trivial,.input trivial (Recording.speaks [3,5,10,20] rfl)⟩
  have hrun := (Run.single hconnect).snoc hjoin
  refine ⟨hrun,?_⟩
  exact (speaks_in_voice (hrun.snoc hcapture)).1 _ _ 0 (.f32 [3,5,10,20])
    ⟨[],rfl,hrun,Run.single hcapture⟩

end Sample

end VoiceApp.Desktop.Streams
