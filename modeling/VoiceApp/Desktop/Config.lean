import VoiceApp.Desktop.Frontend
import VoiceApp.Desktop.StreamConfig

/-! # The configuration file

The file is read at the start and written over as a whole. A write that fails may leave
anything in its place.
-/
namespace VoiceApp.Desktop.Frontend
open Protocol WireFormat

structure AudioDevice where
  deviceId : String
  sampleRate : UInt32
  sampleFormat : String
  channels : UInt16
  volume : UInt8
  deriving DecidableEq

structure AudioConfig where
  inputDevice : AudioDevice
  outputDevice : AudioDevice
  inputSensitivity : UInt8
  usersVolumes : Table UInt64 UInt8
  notificationVolume : UInt8
  deriving DecidableEq

structure AppConfig where
  server : ServerConfig
  audio : AudioConfig
  deriving DecidableEq

/-- The serialiser and the parser of the file's contents. -/
structure Toml where
  toStringPretty : AppConfig → Except String String
  fromStr : String → Except String AppConfig
  fromStr_pretty : ∀ {config contents}, toStringPretty config = .ok contents → fromStr contents = .ok config

/-- The bytes of the file, if it exists. -/
abbrev File := Option Bytes

/-- What `fs::write` comes to; if it fails, this is what is left. -/
inductive Written
  | done
  | failed (e : String) (left : File)

/-- `fs::read_to_string` of a file that can be read, or cannot. -/
def readToString (readable : Except String Unit) (bytes : Bytes) : Except String String := do
  readable
  match ofUtf8 bytes with
  | some contents => .ok contents
  | none => .error "stream did not contain valid UTF-8"

namespace AppConfig

def save (toml : Toml) (written : Written) (config : AppConfig) (file : File) : Except String Unit × File :=
  match toml.toStringPretty config with
  | .error e => (.error ("Failed to serialize config: " ++ e),file)
  | .ok contents =>
    match written with
    | .done => (.ok (),some (utf8 contents))
    | .failed e left => (.error ("Failed to write config: " ++ e),left)

/-- The default comes from the devices of the host. -/
def createDefaultAndSave (toml : Toml) (default : AppConfig) (written : Written) (file : File) :
    Except String AppConfig × File :=
  match default.save toml written file with
  | (.ok (),file) => (.ok default,file)
  | (.error e,file) => (.error e,file)

def load (toml : Toml) (default : AppConfig) (readable : Except String Unit) (written : Written) :
    File → Except String AppConfig × File
  | none => createDefaultAndSave toml default written none
  | some bytes =>
    match readToString readable bytes with
    | .error e => (.error ("Failed to read config: " ++ e),some bytes)
    | .ok contents =>
      match toml.fromStr contents with
      | .ok config => (.ok config,some bytes)
      | .error _ => createDefaultAndSave toml default written (some bytes)

end AppConfig

/-- The configuration that the file holds. -/
def File.holds (toml : Toml) : File → Option AppConfig
  | none => none
  | some bytes => (ofUtf8 bytes).bind fun contents => (toml.fromStr contents).toOption

section Files
variable {toml : Toml} {written : Written} {config default : AppConfig} {file file' : File}
  {readable : Except String Unit}

theorem save_holds (h : config.save toml written file = (.ok (),file')) :
    file'.holds toml = some config := by
  unfold AppConfig.save at h
  split at h
  · simp at h
  · rename_i contents hcontents
    split at h
    · cases h
      simp [File.holds,toml.fromStr_pretty hcontents,Except.toOption]
    · simp at h

theorem createDefaultAndSave_holds
    (h : AppConfig.createDefaultAndSave toml default written file = (.ok config,file')) :
    file'.holds toml = some config := by
  unfold AppConfig.createDefaultAndSave at h
  split at h
  · cases h
    apply save_holds
    assumption
  · simp at h

/-- What has been loaded is what the file then holds. -/
theorem load_holds (h : AppConfig.load toml default readable written file = (.ok config,file')) :
    file'.holds toml = some config := by
  cases file with
  | none => exact createDefaultAndSave_holds h
  | some bytes =>
    simp only [AppConfig.load,readToString] at h
    split at h
    · simp at h
    · rename_i contents hread
      split at h
      · cases h
        rename_i hparse
        have hbytes : ofUtf8 bytes = some contents := by
          cases readable with
          | error e => cases hread
          | ok _ =>
            simp only [bind,Except.bind] at hread
            split at hread
            · cases hread
              assumption
            · cases hread
        simp [File.holds,hbytes,hparse,Except.toOption]
      · exact createDefaultAndSave_holds h

/-- What a file holds is loaded at the next start, if the file can be read. -/
theorem load_held (h : file.holds toml = some config) (default : AppConfig) (written : Written) :
    AppConfig.load toml default (.ok ()) written file = (.ok config,file) := by
  cases file with
  | none => cases h
  | some bytes =>
    rw [File.holds,Option.bind_eq_some_iff] at h
    obtain ⟨contents,hbytes,h⟩ := h
    have hparse : toml.fromStr contents = .ok config := by
      cases hresult : toml.fromStr contents with
      | error e => simp [hresult,Except.toOption] at h
      | ok config' => simpa [hresult,Except.toOption] using h
    simp [AppConfig.load,readToString,bind,Except.bind,hbytes,hparse]

end Files
end VoiceApp.Desktop.Frontend
