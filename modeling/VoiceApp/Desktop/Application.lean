import Mathlib.Data.Finset.Lattice.Basic
import VoiceApp.Desktop.RoomPage

/-! # The application and its audio streams

Every message goes to the audio state and to the room page, which keep their own records of
who is in voice. Creating an output stream is taken to succeed; recording, notification
sounds and the texts of the widgets are left out.
-/
namespace VoiceApp.Desktop
open Protocol Sdk

inductive VoiceCommandResult
  | connect (result : Except String (UInt64 × String × String))
  | joinVoiceChannel (result : Except String Unit)
  | leaveVoiceChannel (result : Except String Unit)
  | sendChatMessage (result : Except String Unit)
  | ping (result : Except String UInt64)
  | voiceStats (bytesSent bytesReceived : UInt64)

inductive RoomPageMessage
  | muteToggle
  | joinLeaveToggle
  | chatMessageChanged (value : String)
  | chatMessageSubmitted
  | userClicked (userId : UInt64)
  | userSettingsDismissed
  | userVolumeChanged (userId : UInt64) (volume : UInt8)

inductive SettingsPageMessage
  | selectInputDevice (deviceId : String)
  | selectOutputDevice (deviceId : String)
  | inputSensitivityChanged (value : UInt8)
  | inputVolumeChanged (value : UInt8)
  | outputVolumeChanged (value : UInt8)
  | notificationVolumeChanged (value : UInt8)
  | radioHoverEnter (group : String) (index : ℕ)
  | radioHoverLeave (group : String) (index : ℕ)
  | inputStreamCreated (result : Except String Unit)

/-- The messages of the application; those that neither component looks into come without
their contents. -/
inductive Message
  | loginPage
  | roomPage (message : RoomPageMessage)
  | settingsPage (message : SettingsPageMessage)
  | switchView
  | muteInput (muted : Bool)
  | executeVoiceCommand
  | voiceCommandResult (result : VoiceCommandResult)
  | serverEventReceived (event : ClientEvent)
  | voiceInputSamplesReceived
  | keyPressed
  | periodicConfigSave
  | windowCloseRequested
  | none

/-- The users that have an output stream, and the mute switch of the input. -/
structure AudioManager where
  outputStreams : Finset UInt64
  isInputMuted : Bool
  deriving DecidableEq

namespace AudioManager

def new : AudioManager := ⟨∅,false⟩

def createOutputStreamForUser (m : AudioManager) (userId : UInt64) : AudioManager :=
  { m with outputStreams := insert userId m.outputStreams }

def removeOutputStreamForUser (m : AudioManager) (userId : UInt64) : AudioManager :=
  { m with outputStreams := m.outputStreams.erase userId }

def removeAllOutputStreams (m : AudioManager) : AudioManager := { m with outputStreams := ∅ }

/-- One stream for each of these users. -/
def createOutputStreams (m : AudioManager) (users : Finset UInt64) : AudioManager :=
  { m with outputStreams := m.outputStreams ∪ users }

/-- The order in which the set is iterated makes no difference. -/
theorem createOutputStreams_eq (m : AudioManager) (users : List UInt64) :
    users.foldl createOutputStreamForUser m = m.createOutputStreams users.toFinset := by
  induction users generalizing m with
  | nil =>
    rw [createOutputStreams,List.toFinset_nil,Finset.union_empty]
    rfl
  | cons userId rest ih =>
    rw [List.foldl_cons,ih,createOutputStreams,createOutputStreams,List.toFinset_cons,
      Finset.union_insert]
    exact congrArg (AudioManager.mk · m.isInputMuted) (Finset.insert_union _ _ _)

end AudioManager

structure AudioManagerState where
  audioManager : AudioManager
  userId : UInt64
  usersInVoice : Finset UInt64
  deriving DecidableEq

namespace AudioManagerState

def new : AudioManagerState := ⟨.new,0,∅⟩

/-- `self.users_in_voice.contains(&self.user_id)` -/
def inVoice (a : AudioManagerState) : Bool := a.userId ∈ a.usersInVoice

def update (a : AudioManagerState) : Message → AudioManagerState
  | .voiceCommandResult (.connect (.ok (userId,_,_))) => { a with userId := userId }
  | .voiceCommandResult (.joinVoiceChannel (.ok ())) =>
    -- create output streams for all users currently in voice
    { a with
      audioManager := a.audioManager.createOutputStreams a.usersInVoice
      usersInVoice := insert a.userId a.usersInVoice }
  | .voiceCommandResult (.leaveVoiceChannel (.ok ())) =>
    { a with
      audioManager := a.audioManager.removeAllOutputStreams
      usersInVoice := a.usersInVoice.erase a.userId }
  | .serverEventReceived (.userJoinedVoice userId) =>
    let a := { a with usersInVoice := insert userId a.usersInVoice }
    if a.inVoice then { a with audioManager := a.audioManager.createOutputStreamForUser userId } else a
  | .serverEventReceived (.userLeftVoice userId) =>
    let a := if a.inVoice then
        { a with audioManager := a.audioManager.removeOutputStreamForUser userId }
      else a
    { a with usersInVoice := a.usersInVoice.erase userId }
  | .settingsPage (.selectOutputDevice _) =>
    if a.inVoice then
      -- all users currently in voice except the user itself
      { a with
        audioManager := a.audioManager.removeAllOutputStreams.createOutputStreams
          (a.usersInVoice.erase a.userId) }
    else a
  | .muteInput muted => { a with audioManager := { a.audioManager with isInputMuted := muted } }
  | _ => a

end AudioManagerState

/-- The page with its mute switch. -/
structure RoomView extends RoomPage where
  muted : Bool

namespace RoomView

def new : RoomView := ⟨.new,false⟩

def isInVoice (v : RoomView) : Bool :=
  ((v.participants.lookup v.userId).map ParticipantInfo.inVoice).getD false

/-- Change the record of the user itself, if there is one. -/
def modifyOwn (v : RoomView) (f : ParticipantInfo → ParticipantInfo) : RoomView :=
  { v with participants := v.participants.modify v.userId f }

/-- What `update` does to the records of the participants. -/
def update (formatTime : UInt64 → String) (v : RoomView) : Message → RoomView
  | .roomPage .muteToggle =>
    { v with muted := !v.muted }.modifyOwn fun user => { user with isMuted := !v.muted }
  | .voiceCommandResult (.joinVoiceChannel (.ok ())) =>
    v.modifyOwn fun user => { user with inVoice := true, isMuted := false }
  | .voiceCommandResult (.leaveVoiceChannel (.ok ())) =>
    v.modifyOwn fun user => { user with inVoice := false, isMuted := false }
  | .serverEventReceived event =>
    { v with toRoomPage := v.toRoomPage.serverEventReceived formatTime event }
  | _ => v

end RoomView

structure Application where
  audio : AudioManagerState
  room : RoomView

namespace Application

def new : Application := ⟨.new,.new⟩

/-- Every message goes to both. -/
def update (formatTime : UInt64 → String) (app : Application) (message : Message) : Application :=
  ⟨app.audio.update message,app.room.update formatTime message⟩

/-- The application after these messages. -/
def run (formatTime : UInt64 → String) (messages : List Message) : Application :=
  messages.foldl (update formatTime) new

theorem run_concat (formatTime : UInt64 → String) (messages : List Message) (message : Message) :
    run formatTime (messages ++ [message]) = (run formatTime messages).update formatTime message := by
  rw [run,List.foldl_append]
  rfl

end Application
end VoiceApp.Desktop
