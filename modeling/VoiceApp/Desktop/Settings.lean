import VoiceApp.Desktop.ConfigState
import VoiceApp.Desktop.Recording

/-! # What the pages show of the configuration

The settings page and the room page keep copies of the settings, which change on the messages
that change the configuration. A device is shown as selected whether or not the configuration
could take it. While the settings page is open it listens to the microphone, and shows how
loud it is.
-/
namespace VoiceApp.Desktop.Frontend
open Protocol Sdk

/-! ## The audio section -/

namespace Host
variable {Id Device : Type}

/-- What the configuration takes over of an input device. -/
def inputChoice (host : Host Id Device) (deviceId : String) : Except String StreamChoice := do
  host.findBestInputStreamConfig (← host.findDeviceById deviceId)

def outputChoice (host : Host Id Device) (deviceId : String) : Except String StreamChoice := do
  host.findBestOutputStreamConfig (← host.findDeviceById deviceId)

end Host

/-- The device, unless it cannot be chosen. -/
def AudioDevice.selectIf (device : AudioDevice) (deviceId : String) : Except String StreamChoice → AudioDevice
  | .ok bestConfig => device.select deviceId bestConfig
  | .error _ => device

/-- What a stream is created with; the volume is applied to its samples. -/
def AudioDevice.stream (device : AudioDevice) : String × UInt32 × String × UInt16 :=
  (device.deviceId,device.sampleRate,device.sampleFormat,device.channels)

/-- `ConfigState::update`, for the audio section. -/
def AudioConfig.update {Id Device : Type} (host : Host Id Device) (audio : AudioConfig) : Message → AudioConfig
  | .settingsPage (.selectInputDevice deviceId) =>
    { audio with inputDevice := audio.inputDevice.selectIf deviceId (host.inputChoice deviceId) }
  | .settingsPage (.selectOutputDevice deviceId) =>
    { audio with outputDevice := audio.outputDevice.selectIf deviceId (host.outputChoice deviceId) }
  | .settingsPage (.inputVolumeChanged inputVolume) =>
    { audio with inputDevice := { audio.inputDevice with volume := inputVolume } }
  | .settingsPage (.outputVolumeChanged outputVolume) =>
    { audio with outputDevice := { audio.outputDevice with volume := outputVolume } }
  | .settingsPage (.inputSensitivityChanged inputSensitivity) => { audio with inputSensitivity := inputSensitivity }
  | .settingsPage (.notificationVolumeChanged notificationVolume) =>
    { audio with notificationVolume := notificationVolume }
  | .roomPage (.userVolumeChanged userId volume) =>
    { audio with usersVolumes := audio.usersVolumes.insert userId volume }
  | _ => audio

theorem ConfigState.update_audio {Id Device : Type} {toml : Toml} {host : Host Id Device} {written : Written}
    {c : ConfigState} {file : File} (message : Message) :
    (c.update toml host written file message).1.config.audio = c.config.audio.update host message := by
  unfold ConfigState.update
  split
  case h_2 | h_3 =>
    split
    · rename_i hfind
      simp [AudioConfig.update,Host.inputChoice,Host.outputChoice,AudioDevice.selectIf,bind,Except.bind,hfind]
    · rename_i hfind
      split
      · rename_i hbest
        simp [AudioConfig.update,Host.inputChoice,Host.outputChoice,AudioDevice.selectIf,bind,Except.bind,
          hfind,hbest]
      · rename_i hbest
        simp [AudioConfig.update,Host.inputChoice,Host.outputChoice,AudioDevice.selectIf,AppConfig.modifyAudio,
          bind,Except.bind,hfind,hbest]
  case h_11 =>
    unfold AudioConfig.update
    split
    all_goals first | rfl | simp_all
  all_goals simp [AppConfig.modifyAudio,AudioConfig.update]

/-! ## The pages -/

/-- What else the room page keeps. -/
structure RoomDetails where
  volumePerUser : Table UInt64 UInt8
  selectedUserSettings : Option UInt64
  overlayVisible : Bool
  pingMs : Option UInt64
  bytesSent : UInt64
  bytesReceived : UInt64

namespace RoomDetails

def new (config : AudioConfig) : RoomDetails := ⟨config.usersVolumes,none,false,none,0,0⟩

def update (room : RoomDetails) : Message → RoomDetails
  | .roomPage (.userClicked userId) => { room with selectedUserSettings := some userId }
  | .roomPage .userSettingsDismissed => { room with selectedUserSettings := none }
  | .roomPage (.userVolumeChanged userId volume) =>
    { room with volumePerUser := room.volumePerUser.insert userId volume }
  | .voiceCommandResult (.ping (.ok rttMs)) => { room with pingMs := some rttMs }
  | .voiceCommandResult (.ping (.error _)) => { room with pingMs := none }
  | .voiceCommandResult (.voiceStats sent received) => { room with bytesSent := sent, bytesReceived := received }
  | .keyPressed .f10 => { room with overlayVisible := !room.overlayVisible }
  | _ => room

end RoomDetails

variable {Id Device F : Type}

/-- A message as it finds the host, what a write of the file and the opening of a stream would
come to, and the samples of the message. -/
structure Arrival (Id Device F : Type) where
  message : Message
  host : Host Id Device
  written : Written
  buildAndPlay : Except String Unit
  samples : List F

/-- `create_input_stream` for this device. -/
def Arrival.createInputStream (arrival : Arrival Id Device F) (device : AudioDevice) : Except String DeviceFormat :=
  Desktop.createInputStream ⟨(arrival.host.findDeviceById device.deviceId).map fun _ => (),arrival.buildAndPlay⟩
    device

/-- An open input stream is known by the device it was created with. -/
structure SettingsPage (F : Type) where
  radioHoverIndexes : Table String ℕ
  selectedInputDeviceId : String
  inputSensitivity : UInt8
  inputVolume : UInt8
  inputDevices : Table String String
  inputStream : Option AudioDevice
  voiceLevel : F
  selectedOutputDeviceId : String
  outputDevices : Table String String
  outputVolume : UInt8
  notificationVolume : UInt8

namespace SettingsPage

/-- Of devices that cannot be listed none are shown. -/
def new [Zero F] (config : AudioConfig) (inputDevices outputDevices : Except String (Table String String)) :
    SettingsPage F where
  radioHoverIndexes := ∅
  selectedInputDeviceId := config.inputDevice.deviceId
  inputSensitivity := config.inputSensitivity
  inputVolume := config.inputDevice.volume
  inputDevices := inputDevices.toOption.getD ∅
  inputStream := none
  voiceLevel := 0
  selectedOutputDeviceId := config.outputDevice.deviceId
  outputDevices := outputDevices.toOption.getD ∅
  outputVolume := config.outputDevice.volume
  notificationVolume := config.notificationVolume

/-- A stream that does not open is only logged. -/
def startInputStream (arrival : Arrival Id Device F) (config : AudioConfig) (page : SettingsPage F) :
    SettingsPage F :=
  match arrival.createInputStream config.inputDevice with
  | .ok _ => { page with inputStream := some config.inputDevice }
  | .error _ => page

def stopInputStream (page : SettingsPage F) : SettingsPage F := { page with inputStream := none }

def update [Mul F] (meter : Meter F) (arrival : Arrival Id Device F) (config : AudioConfig)
    (page : SettingsPage F) : Message → SettingsPage F
  | .settingsPage (.selectInputDevice deviceId) =>
    { page with selectedInputDeviceId := deviceId }.stopInputStream.startInputStream arrival config
  | .settingsPage (.selectOutputDevice deviceId) => { page with selectedOutputDeviceId := deviceId }
  | .settingsPage (.radioHoverEnter group index) =>
    { page with radioHoverIndexes := page.radioHoverIndexes.insert group index }
  | .settingsPage (.radioHoverLeave group index) =>
    if page.radioHoverIndexes.lookup group = some index then
      { page with radioHoverIndexes := page.radioHoverIndexes.erase group }
    else page
  | .settingsPage (.inputSensitivityChanged sensitivity) => { page with inputSensitivity := sensitivity }
  | .settingsPage (.inputVolumeChanged volume) => { page with inputVolume := volume }
  | .settingsPage (.outputVolumeChanged volume) => { page with outputVolume := volume }
  | .settingsPage (.notificationVolumeChanged volume) => { page with notificationVolume := volume }
  | .voiceInputSamplesReceived =>
    let samples := adjustVolume arrival.samples (meter.percent page.inputVolume)
    if samples.isEmpty then page else { page with voiceLevel := meter.calculateDbfs samples }
  | _ => page

end SettingsPage

/-- The configuration with its file, and the pages. -/
structure Pages (F : Type) where
  config : ConfigState
  file : File
  settings : SettingsPage F
  room : RoomDetails
  currentView : ViewType

namespace Pages

def audio (p : Pages F) : AudioConfig := p.config.config.audio

def new [Zero F] (config : AppConfig) (file : File)
    (inputDevices outputDevices : Except String (Table String String)) : Pages F :=
  ⟨.new config,file,.new config.audio inputDevices outputDevices,.new config.audio,.login⟩

/-- The view that is left is closed, and then the other is opened. -/
def switch (arrival : Arrival Id Device F) (p : Pages F) : Message → Pages F
  | .switchView viewType =>
    let settings := if p.currentView = .settings then p.settings.stopInputStream else p.settings
    let settings := if viewType = .settings then settings.startInputStream arrival p.audio else settings
    { p with settings := settings, currentView := viewType }
  | _ => p

/-- The state of the configuration comes before the pages. -/
def receive [Mul F] (toml : Toml) (meter : Meter F) (arrival : Arrival Id Device F) (p : Pages F) : Pages F :=
  let (config,file) := p.config.update toml arrival.host arrival.written p.file arrival.message
  { p with
    config := config
    file := file
    settings := p.settings.update meter arrival config.config.audio arrival.message
    room := p.room.update arrival.message }

def update [Mul F] (toml : Toml) (meter : Meter F) (arrival : Arrival Id Device F) (p : Pages F) : Pages F :=
  switch arrival (p.receive toml meter arrival) arrival.message

def Step [Mul F] (toml : Toml) (meter : Meter F) (p : Pages F) (arrival : Arrival Id Device F)
    (p' : Pages F) : Prop :=
  p' = p.update toml meter arrival

/-! ## The sliders -/

/-- The settings that are shown as sliders. -/
structure Sliders where
  inputSensitivity : UInt8
  inputVolume : UInt8
  outputVolume : UInt8
  notificationVolume : UInt8
  usersVolumes : Table UInt64 UInt8

def Sliders.move (sliders : Sliders) : Message → Sliders
  | .settingsPage (.inputSensitivityChanged value) => { sliders with inputSensitivity := value }
  | .settingsPage (.inputVolumeChanged value) => { sliders with inputVolume := value }
  | .settingsPage (.outputVolumeChanged value) => { sliders with outputVolume := value }
  | .settingsPage (.notificationVolumeChanged value) => { sliders with notificationVolume := value }
  | .roomPage (.userVolumeChanged userId volume) =>
    { sliders with usersVolumes := sliders.usersVolumes.insert userId volume }
  | _ => sliders

/-- As the pages show them. -/
def shown (settings : SettingsPage F) (room : RoomDetails) : Sliders :=
  ⟨settings.inputSensitivity,settings.inputVolume,settings.outputVolume,settings.notificationVolume,
    room.volumePerUser⟩

def sliders (p : Pages F) : Sliders := shown p.settings p.room

/-- As the configuration has them. -/
def configured (audio : AudioConfig) : Sliders :=
  ⟨audio.inputSensitivity,audio.inputDevice.volume,audio.outputDevice.volume,audio.notificationVolume,
    audio.usersVolumes⟩

section Steps
variable {toml : Toml} {meter : Meter F} {arrival : Arrival Id Device F} {p p' : Pages F}

theorem startInputStream_cases (arrival : Arrival Id Device F) (config : AudioConfig) (page : SettingsPage F) :
    page.startInputStream arrival config = { page with inputStream := some config.inputDevice } ∨
      page.startInputStream arrival config = page ∧
        ∃ e, arrival.createInputStream config.inputDevice = .error e := by
  unfold SettingsPage.startInputStream
  split
  · exact .inl rfl
  · rename_i e he
    exact .inr ⟨rfl,e,he⟩

theorem startInputStream_still (arrival : Arrival Id Device F) (config : AudioConfig) (page : SettingsPage F) :
    ∃ stream, page.startInputStream arrival config = { page with inputStream := stream } := by
  rcases startInputStream_cases arrival config page with h | ⟨h,_⟩
  · exact ⟨_,h⟩
  · exact ⟨page.inputStream,h⟩

/-- A change of the view changes nothing else but the stream. -/
theorem switch_still (arrival : Arrival Id Device F) (p : Pages F) (message : Message) : ∃ stream view,
    switch arrival p message =
      { p with settings := { p.settings with inputStream := stream }, currentView := view } := by
  cases message with
  | switchView viewType =>
    simp only [switch]
    generalize hleft : (if p.currentView = .settings then p.settings.stopInputStream else p.settings) = left
    have hstopped : ∃ stream, left = { p.settings with inputStream := stream } := by
      rw [← hleft]
      split
      · exact ⟨none,rfl⟩
      · exact ⟨p.settings.inputStream,rfl⟩
    obtain ⟨stream,rfl⟩ := hstopped
    split
    · obtain ⟨stream',hstart⟩ := startInputStream_still arrival p.audio { p.settings with inputStream := stream }
      exact ⟨stream',viewType,by rw [hstart]⟩
    · exact ⟨stream,viewType,rfl⟩
  | _ => exact ⟨p.settings.inputStream,p.currentView,rfl⟩

variable [Mul F]

theorem receive_audio (toml : Toml) (meter : Meter F) (arrival : Arrival Id Device F) (p : Pages F) :
    (p.receive toml meter arrival).audio = p.audio.update arrival.host arrival.message :=
  ConfigState.update_audio arrival.message

theorem update_audio (toml : Toml) (meter : Meter F) (arrival : Arrival Id Device F) (p : Pages F) :
    (p.update toml meter arrival).audio = p.audio.update arrival.host arrival.message := by
  obtain ⟨stream,view,hswitch⟩ := switch_still arrival (p.receive toml meter arrival) arrival.message
  rw [update,hswitch]
  exact receive_audio toml meter arrival p

theorem receive_settings (toml : Toml) (meter : Meter F) (arrival : Arrival Id Device F) (p : Pages F) :
    (p.receive toml meter arrival).settings =
      p.settings.update meter arrival (p.audio.update arrival.host arrival.message) arrival.message := by
  rw [← receive_audio toml meter arrival p]
  rfl

omit [Mul F] in
@[simp] theorem switch_sliders (message : Message) : (p.switch arrival message).sliders = p.sliders := by
  obtain ⟨stream,view,hswitch⟩ := switch_still arrival p message
  rw [hswitch]
  rfl

omit [Mul F] in
theorem configured_update (audio : AudioConfig) (message : Message) :
    configured (audio.update arrival.host message) = (configured audio).move message := by
  have hvolume : ∀ (device : AudioDevice) deviceId choice,
      (device.selectIf deviceId choice).volume = device.volume := by
    intro device deviceId choice
    cases choice <;> rfl
  unfold AudioConfig.update Sliders.move
  split <;> simp [configured,hvolume]

theorem shown_update (config : AudioConfig) (settings : SettingsPage F) (room : RoomDetails) (message : Message) :
    shown (settings.update meter arrival config message) (room.update message) =
      (shown settings room).move message := by
  cases message with
  | settingsPage message =>
    cases message with
    | selectInputDevice deviceId =>
      obtain ⟨stream,hstart⟩ := startInputStream_still arrival config
        ({ settings with selectedInputDeviceId := deviceId } : SettingsPage F).stopInputStream
      rw [SettingsPage.update,hstart]
      rfl
    | radioHoverLeave group index =>
      rw [SettingsPage.update]
      split <;> rfl
    | _ => rfl
  | roomPage message => cases message <;> rfl
  | voiceCommandResult result =>
    cases result with
    | ping result => cases result <;> rfl
    | _ => rfl
  | voiceInputSamplesReceived =>
    rw [SettingsPage.update]
    split <;> rfl
  | keyPressed key => cases key <;> rfl
  | _ => rfl

/-- The pages move the sliders as the configuration does. -/
theorem update_sliders : (p.update toml meter arrival).sliders = p.sliders.move arrival.message := by
  rw [update,switch_sliders]
  exact shown_update _ _ _ _

theorem update_configured :
    configured (p.update toml meter arrival).audio = (configured p.audio).move arrival.message := by
  rw [update_audio,configured_update]

end Steps

/-! ## The devices -/

inductive Direction
  | input
  | output

namespace Direction

/-- The device that the page shows as selected. -/
def selected : Direction → SettingsPage F → String
  | .input,page => page.selectedInputDeviceId
  | .output,page => page.selectedOutputDeviceId

def device : Direction → AudioConfig → AudioDevice
  | .input,audio => audio.inputDevice
  | .output,audio => audio.outputDevice

/-- The device that a message asks for. -/
def selection : Direction → Message → Option String
  | .input,.settingsPage (.selectInputDevice deviceId) => some deviceId
  | .output,.settingsPage (.selectOutputDevice deviceId) => some deviceId
  | _,_ => none

def choice : Direction → Host Id Device → String → Except String StreamChoice
  | .input,host => host.inputChoice
  | .output,host => host.outputChoice

/-- The page shows the device that the configuration has. -/
def Shows (d : Direction) (p : Pages F) : Prop := d.selected p.settings = (d.device p.audio).deviceId

section Steps
variable {toml : Toml} {meter : Meter F} {arrival : Arrival Id Device F} {p : Pages F} (d : Direction)

theorem switch_selected (message : Message) :
    d.selected (p.switch arrival message).settings = d.selected p.settings := by
  obtain ⟨stream,view,hswitch⟩ := switch_still arrival p message
  rw [hswitch]
  cases d <;> rfl

/-- What is asked for is shown at once. -/
theorem settings_selected [Mul F] (config : AudioConfig) (settings : SettingsPage F) (message : Message) :
    d.selected (settings.update meter arrival config message) =
      (d.selection message).getD (d.selected settings) := by
  cases message with
  | settingsPage message =>
    cases message with
    | selectInputDevice deviceId =>
      obtain ⟨stream,hstart⟩ := startInputStream_still arrival config
        ({ settings with selectedInputDeviceId := deviceId } : SettingsPage F).stopInputStream
      rw [SettingsPage.update,hstart]
      cases d <;> rfl
    | radioHoverLeave group index =>
      rw [SettingsPage.update]
      split <;> cases d <;> rfl
    | _ => cases d <;> rfl
  | voiceInputSamplesReceived =>
    rw [SettingsPage.update]
    split <;> cases d <;> rfl
  | _ => cases d <;> rfl

theorem update_selected [Mul F] : d.selected (p.update toml meter arrival).settings =
    (d.selection arrival.message).getD (d.selected p.settings) := by
  rw [Pages.update,switch_selected]
  exact d.settings_selected _ _ _

/-- The configuration takes over what can be chosen. -/
theorem update_device (host : Host Id Device) (audio : AudioConfig) {message : Message} {deviceId : String}
    (h : d.selection message = some deviceId) : d.device (audio.update host message) =
      (d.device audio).selectIf deviceId (d.choice host deviceId) := by
  cases d with
  | input =>
    cases message with
    | settingsPage message =>
      cases message <;> cases h
      rfl
    | _ => cases h
  | output =>
    cases message with
    | settingsPage message =>
      cases message <;> cases h
      rfl
    | _ => cases h

theorem update_deviceId (host : Host Id Device) (audio : AudioConfig) {message : Message}
    (h : d.selection message = none) :
    (d.device (audio.update host message)).deviceId = (d.device audio).deviceId := by
  unfold AudioConfig.update
  split <;> cases d <;> first | rfl | cases h

variable [Mul F]

theorem shows_still_iff (h : d.selection arrival.message = none) :
    d.Shows (p.update toml meter arrival) ↔ d.Shows p := by
  rw [Shows,update_selected,h,update_audio,d.update_deviceId _ _ h]
  rfl

/-- A selection is shown truly if the device can be chosen, or is the configured one anyway. -/
theorem shows_selection_iff {deviceId : String} (h : d.selection arrival.message = some deviceId) :
    d.Shows (p.update toml meter arrival) ↔
      (∃ choice, d.choice arrival.host deviceId = .ok choice) ∨ deviceId = (d.device p.audio).deviceId := by
  rw [Shows,update_selected,h,update_audio,d.update_device _ _ h,Option.getD_some]
  cases hchoice : d.choice arrival.host deviceId with
  | ok choice => exact iff_of_true rfl (.inl ⟨choice,rfl⟩)
  | error e => simp [AudioDevice.selectIf]

/-- As long as nothing is selected. -/
theorem run_still {trace : List (Arrival Id Device F)} {t : Pages F} (h : Run (Step toml meter) t trace p)
    (hstill : ∀ arrival ∈ trace, d.selection arrival.message = none) : d.Shows p ↔ d.Shows t := by
  induction h with
  | refl => exact Iff.rfl
  | snoc _ hs ih =>
    cases hs
    have hlast := hstill _ (List.mem_append_right _ (List.mem_singleton_self _))
    exact (d.shows_still_iff hlast).trans (ih fun arrival hmem => hstill arrival (List.mem_append_left _ hmem))

end Steps
end Direction

section Runs
variable [Zero F] [Mul F] {toml : Toml} {meter : Meter F} {config : AppConfig} {file : File}
  {inputDevices outputDevices : Except String (Table String String)} {trace : List (Arrival Id Device F)}
  {p : Pages F}

theorem run_sliders (h : Run (Step toml meter) (new config file inputDevices outputDevices) trace p) :
    p.sliders = configured p.audio := by
  induction h with
  | refl => rfl
  | snoc _ hs ih =>
    cases hs
    rw [update_sliders,update_configured,ih]

/-- The sliders show what the configuration has, and a page shows the configured device
unless the last selection asked for another one which could not be chosen. -/
theorem pages_show_config (h : Run (Step toml meter) (new config file inputDevices outputDevices) trace p) :
    p.sliders = configured p.audio ∧ ∀ d : Direction,
      ((∀ arrival ∈ trace, d.selection arrival.message = none) → d.Shows p) ∧
      ∀ pre arrival post deviceId, trace = pre ++ arrival :: post →
        d.selection arrival.message = some deviceId → (∀ later ∈ post, d.selection later.message = none) →
        ∃ t, Run (Step toml meter) (new config file inputDevices outputDevices) pre t ∧
          (d.Shows p ↔ (∃ choice, d.choice arrival.host deviceId = .ok choice) ∨
            deviceId = (d.device t.audio).deviceId) := by
  refine ⟨run_sliders h,fun d => ⟨fun hstill => ?_,?_⟩⟩
  · refine (d.run_still h hstill).mpr ?_
    cases d <;> rfl
  · rintro pre arrival post deviceId rfl hselection hstill
    obtain ⟨t,u,hpre,hs,hpost⟩ := h.step_at
    cases hs
    exact ⟨t,hpre,(d.run_still hpost hstill).trans (d.shows_selection_iff hselection)⟩

end Runs

/-! ## The microphone of the settings page -/

/-- The stream of the page is that of the configured device. -/
def Configured (p : Pages F) : Prop :=
  ∀ device, p.settings.inputStream = some device → device.stream = p.audio.inputDevice.stream

/-- The page listens only while it is shown. -/
def Attended (p : Pages F) : Prop := p.settings.inputStream ≠ none → p.currentView = .settings

/-- No stream is opened for a device that is selected when the page is not shown any more. -/
def Attentive (p : Pages F) (arrival : Arrival Id Device F) : Prop :=
  ∀ deviceId, arrival.message = .settingsPage (.selectInputDevice deviceId) → p.currentView ≠ .settings →
    ∃ e, arrival.createInputStream (p.audio.update arrival.host arrival.message).inputDevice = .error e

section Steps
variable {toml : Toml} {meter : Meter F} {arrival : Arrival Id Device F} {p p' : Pages F}

theorem update_stream (host : Host Id Device) (audio : AudioConfig) {message : Message}
    (h : Direction.input.selection message = none) :
    (audio.update host message).inputDevice.stream = audio.inputDevice.stream := by
  unfold AudioConfig.update
  split <;> first | rfl | cases h

theorem startInputStream_stream (arrival : Arrival Id Device F) (config : AudioConfig) (page : SettingsPage F) :
    (page.startInputStream arrival config).inputStream = some config.inputDevice ∨
      (page.startInputStream arrival config).inputStream = page.inputStream ∧
        ∃ e, arrival.createInputStream config.inputDevice = .error e := by
  rcases startInputStream_cases arrival config page with h | ⟨h,he⟩
  · exact .inl (congrArg SettingsPage.inputStream h)
  · exact .inr ⟨congrArg SettingsPage.inputStream h,he⟩

/-- A stream that is opened anew is there exactly if it opens. -/
theorem restart_stream (arrival : Arrival Id Device F) (config : AudioConfig) (page : SettingsPage F) :
    (page.stopInputStream.startInputStream arrival config).inputStream = none ↔
      ∃ e, arrival.createInputStream config.inputDevice = .error e := by
  unfold SettingsPage.startInputStream
  split
  · rename_i hopen
    simp [hopen]
  · rename_i e hfail
    exact iff_of_true rfl ⟨e,hfail⟩

theorem settings_stream [Mul F] (config : AudioConfig) (settings : SettingsPage F) {message : Message}
    (h : Direction.input.selection message = none) :
    (settings.update meter arrival config message).inputStream = settings.inputStream := by
  unfold SettingsPage.update
  split
  · cases h
  · rfl
  · rfl
  · split <;> rfl
  · rfl
  · rfl
  · rfl
  · rfl
  · dsimp only
    split <;> rfl
  · rfl

/-- The stream behind a change of the view. -/
theorem switch_stream (arrival : Arrival Id Device F) (p : Pages F) (viewType : ViewType) :
    let q := p.switch arrival (.switchView viewType)
    q.currentView = viewType ∧ q.audio = p.audio ∧
      (viewType = .settings ∧ q.settings.inputStream = some p.audio.inputDevice ∨
        q.settings.inputStream = none ∨
        p.currentView ≠ .settings ∧ q.settings.inputStream = p.settings.inputStream) := by
  refine ⟨rfl,rfl,?_⟩
  simp only [switch]
  generalize hleft : (if p.currentView = .settings then p.settings.stopInputStream else p.settings) = left
  have hstopped : left.inputStream = none ∨
      p.currentView ≠ .settings ∧ left.inputStream = p.settings.inputStream := by
    rw [← hleft]
    split
    · exact .inl rfl
    · exact .inr ⟨‹_›,rfl⟩
  split
  · rcases startInputStream_stream arrival p.audio left with hopen | ⟨hkept,_⟩
    · exact .inl ⟨‹_›,hopen⟩
    · rw [hkept]
      exact .inr hstopped
  · exact .inr hstopped

theorem switch_configured (h : Configured p) (message : Message) : Configured (p.switch arrival message) := by
  cases message with
  | switchView viewType =>
    obtain ⟨_,haudio,hstream⟩ := switch_stream arrival p viewType
    intro device hdevice
    rw [haudio]
    rcases hstream with ⟨_,hopen⟩ | hnone | ⟨_,hkept⟩
    · cases hopen.symm.trans hdevice
      rfl
    · cases hnone.symm.trans hdevice
    · exact h device (hkept.symm.trans hdevice)
  | _ => exact h

theorem selectInputDevice_of {message : Message} {deviceId : String}
    (h : Direction.input.selection message = some deviceId) :
    message = .settingsPage (.selectInputDevice deviceId) := by
  cases message with
  | settingsPage message =>
    cases message <;> cases h
    rfl
  | _ => cases h

variable [Mul F]

theorem step_configured (h : Configured p) (hs : Step toml meter p arrival p') : Configured p' := by
  cases hs
  refine switch_configured (fun device hdevice => ?_) arrival.message
  rw [receive_settings] at hdevice
  rw [receive_audio]
  cases hselection : Direction.input.selection arrival.message with
  | none =>
    rw [settings_stream _ _ hselection] at hdevice
    rw [update_stream _ _ hselection]
    exact h device hdevice
  | some deviceId =>
    rw [selectInputDevice_of hselection] at hdevice ⊢
    rcases startInputStream_stream arrival (p.audio.update arrival.host _)
      ({ p.settings with selectedInputDeviceId := deviceId } : SettingsPage F).stopInputStream with hopen | ⟨hkept,_⟩
    · cases hopen.symm.trans hdevice
      rfl
    · cases hkept.symm.trans hdevice

/-- A message leaves the page listening only while it is shown, exactly if it does not open a
stream behind its back. -/
theorem update_attended_iff (h : Attended p) : Attended (p.update toml meter arrival) ↔ Attentive p arrival := by
  cases hselection : Direction.input.selection arrival.message with
  | none =>
    have hkept : (p.receive toml meter arrival).settings.inputStream = p.settings.inputStream := by
      rw [receive_settings]
      exact settings_stream _ _ hselection
    refine iff_of_true ?_ fun deviceId hmessage => ?_
    · rw [update]
      cases hmessage : arrival.message with
      | switchView viewType =>
        obtain ⟨hview,_,hstream⟩ := switch_stream arrival (p.receive toml meter arrival) viewType
        intro hopen
        rw [hview]
        rcases hstream with ⟨hshown,_⟩ | hnone | ⟨hhidden,hsame⟩
        · exact hshown
        · exact absurd hnone hopen
        · rw [hsame,hkept] at hopen
          exact absurd (h hopen) hhidden
      | _ =>
        intro hopen
        exact h (hkept ▸ hopen)
    · rw [hmessage] at hselection
      cases hselection
  | some deviceId =>
    have hmessage := selectInputDevice_of hselection
    have hopens : Attended (p.update toml meter arrival) ↔
        (¬(∃ e, arrival.createInputStream (p.audio.update arrival.host arrival.message).inputDevice = .error e) →
          p.currentView = .settings) := by
      rw [← restart_stream arrival _ { p.settings with selectedInputDeviceId := deviceId }]
      have hsettings := receive_settings toml meter arrival p
      rw [hmessage] at hsettings ⊢
      rw [update,hmessage]
      change ((p.receive toml meter arrival).settings.inputStream ≠ none → _) ↔ _
      rw [hsettings]
      rfl
    rw [hopens,not_imp_comm]
    constructor
    · intro hcareful _ _
      exact hcareful
    · intro hattentive
      exact hattentive deviceId hmessage

end Steps

section Runs
variable [Zero F] [Mul F] {toml : Toml} {meter : Meter F} {config : AppConfig} {file : File}
  {inputDevices outputDevices : Except String (Table String String)} {trace : List (Arrival Id Device F)}
  {p : Pages F}

/-- The page listens only while it is shown, and to the device of the configuration, as long
as no device that is selected is opened behind its back; and any such opening leaves it
listening. -/
theorem listens_attended
    (h : Run (Guarded Attentive (Step toml meter)) (new config file inputDevices outputDevices) trace p) :
    (∀ device, p.settings.inputStream = some device →
      p.currentView = .settings ∧ device.stream = p.audio.inputDevice.stream) ∧
    ∀ arrival : Arrival Id Device F, Attended (p.update toml meter arrival) ↔ Attentive p arrival := by
  have hboth : Attended p ∧ Configured p := by
    refine h.preserves (P := fun p => Attended p ∧ Configured p) ?_
      ⟨fun hopen => (hopen rfl).elim,fun _ hnone => by cases hnone⟩
    rintro p arrival p' ⟨hattended,hconfigured⟩ ⟨hattentive,hs⟩
    refine ⟨?_,step_configured hconfigured hs⟩
    cases hs
    exact (update_attended_iff hattended).mpr hattentive
  obtain ⟨hattended,hconfigured⟩ := hboth
  refine ⟨fun device hdevice => ⟨?_,hconfigured device hdevice⟩,fun arrival => update_attended_iff hattended⟩
  exact hattended (by rw [hdevice]; exact Option.some_ne_none _)

/-- What the page shows of the samples that have just come decides whether a recording would
send them. -/
theorem level_decides (h : Run (Step toml meter) (new config file inputDevices outputDevices) trace p)
    {arrival : Arrival Id Device F} [LE F] [DecidableLE F] (hmessage : arrival.message = .voiceInputSamplesReceived)
    (hsamples : arrival.samples ≠ []) :
    let q := p.update toml meter arrival
    (Recording.processed meter q.audio false arrival.samples).isSome = true ↔
      meter.percent q.settings.inputSensitivity ≤ q.settings.voiceLevel := by
  have hshown := run_sliders h
  have hvolume : p.settings.inputVolume = p.audio.inputDevice.volume := congrArg Sliders.inputVolume hshown
  have hsensitivity : p.settings.inputSensitivity = p.audio.inputSensitivity :=
    congrArg Sliders.inputSensitivity hshown
  have haudio : (p.update toml meter arrival).audio = p.audio := by
    rw [update_audio,hmessage]
    rfl
  have hsettings : (p.update toml meter arrival).settings = { p.settings with
      voiceLevel := meter.calculateDbfs (adjustVolume arrival.samples (meter.percent p.settings.inputVolume)) } := by
    rw [update,hmessage]
    change (p.receive toml meter arrival).settings = _
    rw [receive_settings,hmessage,SettingsPage.update]
    exact if_neg (by simpa [adjustVolume] using hsamples)
  dsimp only
  rw [haudio,hsettings,hsensitivity,hvolume]
  unfold Recording.processed
  split
  · contradiction
  · dsimp only
    split <;> simp [*]

end Runs

/-! ## One microphone -/

def oneStart : Pages ℤ := new (ConfigState.oneConfig 100) none (.ok ∅) (.ok ∅)

/-- A device that the host does not find. -/
def unfound : Arrival Unit Unit ℤ :=
  ⟨.settingsPage (.selectInputDevice "usb"),ConfigState.noHost,.done,.ok (),[]⟩

/-- It is shown as selected, and is not configured. -/
theorem pages_show_config_unfound :
    ¬Direction.Shows .input (oneStart.update ConfigState.twoTexts Recording.sumMeter unfound) := by
  have hrun : Run (Step ConfigState.twoTexts Recording.sumMeter) oneStart [unfound]
    (oneStart.update ConfigState.twoTexts Recording.sumMeter unfound) := .single rfl
  obtain ⟨t,ht,hshows⟩ :=
    ((pages_show_config hrun).2 .input).2 [] unfound [] "usb" rfl rfl fun later hlater => by cases hlater
  rw [hshows,← ht.nil_eq]
  rintro (⟨choice,hchoice⟩ | hsame)
  · cases hchoice
  · exact absurd hsame (show "usb" ≠ "alsa:default" by decide)

/-- A host with one device. -/
def oneHost : Host Unit Unit := ⟨fun _ => .ok (),some,fun _ => .ok [],fun _ => .ok []⟩

def opened : Arrival Unit Unit ℤ := ⟨.switchView .settings,oneHost,.done,.ok (),[]⟩

theorem listens_attended_opened :
    let p := oneStart.update ConfigState.twoTexts Recording.sumMeter opened
    p.currentView = .settings ∧ (ConfigState.oneDevice 100).stream = p.audio.inputDevice.stream := by
  have hrun : Run (Guarded Attentive (Step ConfigState.twoTexts Recording.sumMeter)) oneStart [opened]
      (oneStart.update ConfigState.twoTexts Recording.sumMeter opened) :=
    .single ⟨fun _ hmessage => (by cases hmessage),rfl⟩
  exact (listens_attended hrun).1 (ConfigState.oneDevice 100) rfl

def spoken : Arrival Unit Unit ℤ := ⟨.voiceInputSamplesReceived,oneHost,.done,.ok (),[5]⟩

theorem level_decides_spoken :
    (Recording.processed Recording.sumMeter
      (oneStart.update ConfigState.twoTexts Recording.sumMeter spoken).audio false [5]).isSome = true :=
  (level_decides (Run.refl (s := oneStart)) rfl (List.cons_ne_nil 5 [])).mpr (by decide)

end Pages
end VoiceApp.Desktop.Frontend
