import VoiceApp.Base.WriteBack
import VoiceApp.Desktop.Config

/-! # The configuration that is saved

Every message that changes a setting marks the configuration; the periodic save and the
closing window write it if it is marked. Lookups of devices and writes of the file come out
differently each time.
-/
namespace VoiceApp.Desktop.Frontend
open Protocol Sdk

/-- The audio host at the time of a message. -/
structure Host (Id Device : Type) where
  parseId : String → Except String Id
  deviceById : Id → Option Device
  supportedInputConfigs : Device → Except String (List SupportedStreamConfigRange)
  supportedOutputConfigs : Device → Except String (List SupportedStreamConfigRange)

namespace Host
variable {Id Device : Type}

def findDeviceById (host : Host Id Device) (id : String) : Except String Device := do
  let parsed ← host.parseId id
  match host.deviceById parsed with
  | some device => .ok device
  | none => .error ("Input device '" ++ id ++ "' not found")

def findBestInputStreamConfig (host : Host Id Device) (device : Device) : Except String StreamChoice := do
  findBestStreamConfig (← host.supportedInputConfigs device)

def findBestOutputStreamConfig (host : Host Id Device) (device : Device) : Except String StreamChoice := do
  findBestStreamConfig (← host.supportedOutputConfigs device)

end Host

def AudioDevice.select (device : AudioDevice) (deviceId : String) (bestConfig : StreamChoice) : AudioDevice :=
  { device with
    deviceId := deviceId
    sampleRate := bestConfig.1
    sampleFormat := bestConfig.2.1.toString
    channels := bestConfig.2.2 }

def AppConfig.modifyAudio (config : AppConfig) (f : AudioConfig → AudioConfig) : AppConfig :=
  { config with audio := f config.audio }

structure ConfigState where
  config : AppConfig
  configDirty : Bool

namespace ConfigState
variable {Id Device : Type}

def new (config : AppConfig) : ConfigState := ⟨config,false⟩

/-- Only a configuration that has changed is marked. -/
def writeConfig (c : ConfigState) (updater : AppConfig → AppConfig) : ConfigState :=
  if c.config ≠ updater c.config then ⟨updater c.config,true⟩ else c

def saveConfigIfDirty (toml : Toml) (written : Written) (c : ConfigState) (file : File) :
    ConfigState × File :=
  if c.configDirty then
    let c := { c with configDirty := false }
    match c.config.save toml written file with
    | (.ok (),file) => (c,file)
    -- the save failed, and is due again
    | (.error _,file) => ({ c with configDirty := true },file)
  else (c,file)

/-- `update`, with the file that it may write. -/
def update (toml : Toml) (host : Host Id Device) (written : Written) (c : ConfigState) (file : File) :
    Message → ConfigState × File
  | .voiceCommandResult (.connect (.ok (_,address,username))) =>
    (c.writeConfig fun config => { config with server := ⟨address,username⟩ },file)
  | .settingsPage (.selectInputDevice deviceId) =>
    match host.findDeviceById deviceId with
    | .error _ => (c,file)
    | .ok device =>
      match host.findBestInputStreamConfig device with
      | .error _ => (c,file)
      | .ok bestConfig =>
        (c.writeConfig fun config => config.modifyAudio fun audio =>
          { audio with inputDevice := audio.inputDevice.select deviceId bestConfig },file)
  | .settingsPage (.selectOutputDevice deviceId) =>
    match host.findDeviceById deviceId with
    | .error _ => (c,file)
    | .ok device =>
      match host.findBestOutputStreamConfig device with
      | .error _ => (c,file)
      | .ok bestConfig =>
        (c.writeConfig fun config => config.modifyAudio fun audio =>
          { audio with outputDevice := audio.outputDevice.select deviceId bestConfig },file)
  | .settingsPage (.inputVolumeChanged inputVolume) =>
    (c.writeConfig fun config => config.modifyAudio fun audio =>
      { audio with inputDevice := { audio.inputDevice with volume := inputVolume } },file)
  | .settingsPage (.outputVolumeChanged outputVolume) =>
    (c.writeConfig fun config => config.modifyAudio fun audio =>
      { audio with outputDevice := { audio.outputDevice with volume := outputVolume } },file)
  | .settingsPage (.inputSensitivityChanged inputSensitivity) =>
    (c.writeConfig fun config => config.modifyAudio fun audio =>
      { audio with inputSensitivity := inputSensitivity },file)
  | .settingsPage (.notificationVolumeChanged notificationVolume) =>
    (c.writeConfig fun config => config.modifyAudio fun audio =>
      { audio with notificationVolume := notificationVolume },file)
  | .roomPage (.userVolumeChanged userId volume) =>
    (c.writeConfig fun config => config.modifyAudio fun audio =>
      { audio with usersVolumes := audio.usersVolumes.insert userId volume },file)
  | .periodicConfigSave => c.saveConfigIfDirty toml written file
  | .windowCloseRequested _ => c.saveConfigIfDirty toml written file
  | _ => (c,file)

end ConfigState

/-- The messages on which the configuration is saved. -/
inductive Message.Saves : Message → Prop
  | periodicConfigSave : Saves .periodicConfigSave
  | windowCloseRequested (id : ℕ) : Saves (.windowCloseRequested id)

namespace ConfigState
variable {Id Device : Type}

/-- A message as it finds the host, and what a write would come to. -/
structure Label (Id Device : Type) where
  message : Message
  host : Host Id Device
  written : Written

def Step (toml : Toml) (s : ConfigState × File) (label : Label Id Device) (s' : ConfigState × File) : Prop :=
  s' = s.1.update toml label.host label.written s.2 label.message

/-! ## One message -/

section Update
variable {toml : Toml} {host : Host Id Device} {written : Written} {c : ConfigState} {file : File}

theorem update_saves {message : Message} (h : message.Saves) :
    c.update toml host written file message = c.saveConfigIfDirty toml written file := by
  cases h <;> rfl

/-- A message saves the configuration, or rewrites it and leaves the file alone. -/
theorem update_cases (message : Message) :
    message.Saves ∨ ∃ updater, c.update toml host written file message = (c.writeConfig updater,file) := by
  have hkeep : (c,file) = (c.writeConfig id,file) := by simp [writeConfig]
  unfold update
  split
  case h_2 | h_3 =>
    refine .inr ?_
    split
    · exact ⟨_,hkeep⟩
    · split
      · exact ⟨_,hkeep⟩
      · exact ⟨_,rfl⟩
  case h_9 => exact .inl .periodicConfigSave
  case h_10 id => exact .inl (.windowCloseRequested id)
  case h_11 => exact .inr ⟨_,hkeep⟩
  all_goals exact .inr ⟨_,rfl⟩

@[simp] theorem writeConfig_config (updater : AppConfig → AppConfig) :
    (c.writeConfig updater).config = updater c.config := by
  unfold writeConfig
  split
  · rfl
  · exact not_not.mp ‹_›

@[simp] theorem saveConfigIfDirty_config :
    (c.saveConfigIfDirty toml written file).1.config = c.config := by
  unfold saveConfigIfDirty
  split
  · dsimp only
    split <;> rfl
  · rfl

/-- The server section changes as the login page and the automatic login see it. -/
theorem update_server (message : Message) :
    (c.update toml host written file message).1.config.server = c.config.server.update message := by
  unfold update
  split
  case h_2 | h_3 =>
    split
    · rfl
    · split
      · rfl
      · simp [AppConfig.modifyAudio,ServerConfig.update]
  case h_11 =>
    unfold ServerConfig.update
    split
    · simp_all
    · rfl
  all_goals simp [AppConfig.modifyAudio,ServerConfig.update]

/-- The configuration as a value that is written back. -/
def view (toml : Toml) (s : ConfigState × File) : WriteBack AppConfig :=
  ⟨s.1.config,s.1.configDirty,s.2.holds toml⟩

theorem writeConfig_view (updater : AppConfig → AppConfig) :
    ∃ actions, Run WriteBack.Step (view toml (c,file)) actions (view toml (c.writeConfig updater,file)) := by
  unfold writeConfig
  split
  · exact ⟨_,.single (.change (updater c.config))⟩
  · exact ⟨[],.refl⟩

/-- A save does nothing, or it writes the configuration, or it fails. -/
theorem save_view :
    ∃ actions, Run WriteBack.Step (view toml (c,file)) actions
      (view toml (c.saveConfigIfDirty toml written file)) := by
  unfold saveConfigIfDirty
  split
  · dsimp only
    split
    · rename_i file' hsave
      have hstored := save_holds hsave
      simp only [view,hstored]
      exact ⟨_,.single .written⟩
    · rename_i file' _
      exact ⟨_,.single (.failed (file'.holds toml))⟩
  · exact ⟨[],.refl⟩

end Update

theorem step_view {toml : Toml} {s s' : ConfigState × File} {label : Label Id Device}
    (h : Step toml s label s') : ∃ actions, Run WriteBack.Step (view toml s) actions (view toml s') := by
  obtain ⟨c,file⟩ := s
  cases h
  rcases update_cases label.message with hsaves | ⟨updater,hwrite⟩
  · rw [update_saves hsaves]
    exact save_view
  · rw [hwrite]
    exact writeConfig_view updater

/-! ## Any number of messages -/

section Runs
variable {toml : Toml} {config default : AppConfig} {readable : Except String Unit} {written : Written}
  {file file' : File} {trace : List (Label Id Device)} {s : ConfigState × File}

/-- What is loaded is stored, and stays so or is marked. -/
theorem run_kept (hload : AppConfig.load toml default readable written file = (.ok config,file'))
    (h : Run (Step toml) (new config,file') trace s) : (view toml s).Kept := by
  obtain ⟨actions,hactions⟩ := h.simulates (view toml) step_view
  exact WriteBack.run_kept hactions (.inr (load_holds hload))

/-- A save that does not fail leaves the configuration in the file. -/
theorem save_done {c : ConfigState} (hkept : (view toml (c,file)).Kept)
    (hdone : c.configDirty = true → ∃ stored, c.config.save toml written file = (.ok (),stored)) :
    (c.saveConfigIfDirty toml written file).1 = new c.config ∧
      (c.saveConfigIfDirty toml written file).2.holds toml = some c.config := by
  unfold saveConfigIfDirty
  split
  · rename_i hdirty
    obtain ⟨stored,hsave⟩ := hdone hdirty
    simp only [hsave]
    exact ⟨rfl,save_holds hsave⟩
  · rename_i hclean
    rw [Bool.not_eq_true] at hclean
    have hnew : c = new c.config := by rw [new,← hclean]
    exact ⟨hnew,hkept.stored hclean⟩

/-- In every state reached the configuration is marked or the file holds it, and after a save
that does not fail the file holds it. -/
theorem never_silently_unsaved
    (hload : AppConfig.load toml default readable written file = (.ok config,file'))
    (h : Run (Step toml) (new config,file') trace s) :
    (s.1.configDirty = true ∨ s.2.holds toml = some s.1.config) ∧
      ∀ (message : Message) (host : Host Id Device) (written : Written), message.Saves →
        (s.1.configDirty = true → ∃ stored, s.1.config.save toml written s.2 = (.ok (),stored)) →
        (s.1.update toml host written s.2 message).1 = new s.1.config ∧
          (s.1.update toml host written s.2 message).2.holds toml = some s.1.config := by
  have hkept := run_kept hload h
  refine ⟨hkept,?_⟩
  intro message host written hsaves hdone
  rw [update_saves hsaves]
  exact save_done hkept hdone

/-- The server section after all messages. -/
theorem run_server (h : Run (Step toml) (new config,file) trace s) :
    s.1.config.server = (trace.map Label.message).foldl ServerConfig.update config.server := by
  induction h with
  | refl => rfl
  | snoc _ hs ih =>
    rw [List.map_append,List.foldl_append,← ih,hs,update_server]
    rfl

/-- A configuration that is not marked comes back at the next start. -/
theorem restart (hload : AppConfig.load toml default readable written file = (.ok config,file'))
    (h : Run (Step toml) (new config,file') trace s) (hclean : s.1.configDirty = false)
    (default : AppConfig) (written : Written) :
    AppConfig.load toml default (.ok ()) written s.2 = (.ok s.1.config,s.2) := by
  apply load_held
  exact (run_kept hload h).stored hclean

end Runs

/-! ## One change -/

def oneDevice (volume : UInt8) : AudioDevice := ⟨"alsa:default",48000,"f32",2,volume⟩

def oneConfig (volume : UInt8) : AppConfig := ⟨⟨"",""⟩,⟨oneDevice volume,oneDevice 100,0,∅,100⟩⟩

/-- The text in front of the input volume. -/
def textBefore : String :=
  "[server]\naddress = \"\"\nusername = \"\"\n\n" ++
    "[audio]\ninput_sensitivity = 0\nnotification_volume = 100\n\n" ++
    "[audio.input_device]\ndevice_id = \"alsa:default\"\nsample_rate = 48000\n" ++
    "sample_format = \"f32\"\nchannels = 2\nvolume = "

def textBehind : String :=
  "\n\n[audio.output_device]\ndevice_id = \"alsa:default\"\nsample_rate = 48000\n" ++
    "sample_format = \"f32\"\nchannels = 2\nvolume = 100\n\n[audio.users_volumes]\n"

def oneText (volume : String) : String := textBefore ++ volume ++ textBehind

theorem oneText_ne : oneText "100" ≠ oneText "50" := by
  have hlength : ∀ before behind : String, before ++ "100" ++ behind ≠ before ++ "50" ++ behind := by
    intro before behind h
    have hlength := congrArg String.length h
    simp only [String.length_append,Nat.add_right_cancel_iff,Nat.add_left_cancel_iff] at hlength
    exact absurd hlength (by decide)
  exact hlength textBefore textBehind

theorem oneConfig_ne : oneConfig 100 ≠ oneConfig 50 := by
  intro h
  have hvolume := congrArg (fun config => config.audio.inputDevice.volume) h
  simp [oneConfig,oneDevice] at hvolume

/-- Two configurations and their texts. -/
def twoTexts : Toml where
  toStringPretty config :=
    if config = oneConfig 50 then .ok (oneText "50")
    else if config = oneConfig 100 then .ok (oneText "100")
    else .error "unsupported"
  fromStr contents :=
    if contents = oneText "50" then .ok (oneConfig 50)
    else if contents = oneText "100" then .ok (oneConfig 100)
    else .error "unsupported"
  fromStr_pretty := by
    intro config contents h
    split at h
    · cases h
      rw [if_pos rfl]
      exact congrArg _ (Eq.symm ‹_›)
    · split at h
      · cases h
        rw [if_neg oneText_ne,if_pos rfl]
        exact congrArg _ (Eq.symm ‹_›)
      · cases h

theorem pretty_half : twoTexts.toStringPretty (oneConfig 50) = .ok (oneText "50") := by
  simp [twoTexts]

theorem pretty_full : twoTexts.toStringPretty (oneConfig 100) = .ok (oneText "100") := by
  simp [twoTexts,oneConfig_ne]

def noHost : Host Unit Unit := ⟨fun _ => .error "",fun _ => none,fun _ => .error "",fun _ => .error ""⟩

/-- The volume is halved, a save empties the file, and the window is closed. -/
theorem volume_saved :
    ((⟨oneConfig 50,true⟩ : ConfigState).update twoTexts noHost .done (some [])
      (.windowCloseRequested 0)).2.holds twoTexts = some (oneConfig 50) := by
  let changed : Label Unit Unit := ⟨.settingsPage (.inputVolumeChanged 50),noHost,.done⟩
  let failing : Label Unit Unit := ⟨.periodicConfigSave,noHost,.failed "disk full" (some [])⟩
  have hload : AppConfig.load twoTexts (oneConfig 100) (.ok ()) .done none =
      (.ok (oneConfig 100),some (WireFormat.utf8 (oneText "100"))) := by
    simp [AppConfig.load,AppConfig.createDefaultAndSave,AppConfig.save,pretty_full]
  have hchange : Step twoTexts (new (oneConfig 100),some (WireFormat.utf8 (oneText "100"))) changed
      (⟨oneConfig 50,true⟩,some (WireFormat.utf8 (oneText "100"))) := by
    simp [Step,update,writeConfig,changed,new,AppConfig.modifyAudio,oneConfig,oneDevice]
  have hfail : Step twoTexts (⟨oneConfig 50,true⟩,some (WireFormat.utf8 (oneText "100"))) failing
      (⟨oneConfig 50,true⟩,some []) := by
    simp [Step,update,saveConfigIfDirty,AppConfig.save,failing,pretty_half]
  have hrun := (Run.single hchange).snoc hfail
  refine ((never_silently_unsaved hload hrun).2 (.windowCloseRequested 0) noHost .done
    (.windowCloseRequested 0) fun _ => ⟨some (WireFormat.utf8 (oneText "50")),?_⟩).2
  simp [AppConfig.save,pretty_half]

end ConfigState
end VoiceApp.Desktop.Frontend
