import VoiceApp.Base.LabelledRun
import VoiceApp.Desktop.Application
import VoiceApp.Sdk.Connect

/-! # The message loop of the desktop application

Every message goes to all states and to all views, shown or not, and what they answer with
comes back as messages. The frontend adds to the audio state and the room page the login
page, the settings page, the saved server and the voice client.
-/
namespace VoiceApp.Desktop.Frontend
open Protocol Sdk

inductive ViewType
  | login
  | room
  | settings
  deriving DecidableEq

inductive VoiceCommand
  | connect (managementAddr voiceAddr username : String)
  | joinVoiceChannel
  | leaveVoiceChannel
  | sendChatMessage (message : String)
  | ping
  | getVoiceStats

inductive LoginPageMessage
  | voiceUrlChanged (content : String)
  | usernameChanged (content : String)
  | loginSubmitted

/-- The keys; only two of the named ones are looked at. -/
inductive Key
  | escape
  | f10
  | named (name : String)
  | character (c : String)
  | unidentified

/-- The messages with their contents. Nothing depends on the samples of the level meter. -/
inductive Message
  | loginPage (message : LoginPageMessage)
  | roomPage (message : RoomPageMessage)
  | settingsPage (message : SettingsPageMessage)
  | switchView (viewType : ViewType)
  | muteInput (muted : Bool)
  | executeVoiceCommand (command : VoiceCommand)
  | voiceCommandResult (result : VoiceCommandResult)
  | serverEventReceived (event : ClientEvent)
  | voiceInputSamplesReceived
  | keyPressed (key : Key)
  | periodicConfigSave
  | windowCloseRequested (id : ℕ)
  | none

/-- What the audio state and the participants of the room see of a message. -/
def Message.seen : Message → Desktop.Message
  | .loginPage _ => .loginPage
  | .roomPage message => .roomPage message
  | .settingsPage message => .settingsPage message
  | .switchView _ => .switchView
  | .muteInput muted => .muteInput muted
  | .executeVoiceCommand _ => .executeVoiceCommand
  | .voiceCommandResult result => .voiceCommandResult result
  | .serverEventReceived event => .serverEventReceived event
  | .voiceInputSamplesReceived => .voiceInputSamplesReceived
  | .keyPressed _ => .keyPressed
  | .periodicConfigSave => .periodicConfigSave
  | .windowCloseRequested _ => .windowCloseRequested
  | .none => .none

/-- What runs besides the loop and has messages to deliver. -/
inductive Task
  | done (message : Message)
  | perform (command : VoiceCommand)
  | sendMuteState
  | serverEvents
  | rebroadcast
  | samples

/-! ## The states -/

/-- The server section of the configuration. -/
structure ServerConfig where
  address : String
  username : String
  deriving DecidableEq

namespace ServerConfig

def isCredentialsFilled (c : ServerConfig) : Bool := !c.address.isEmpty && !c.username.isEmpty

/-- The automatic login of `Application::init` and of the login page. -/
def autoLogin (c : ServerConfig) : List Task :=
  if c.isCredentialsFilled then
    [.done (.executeVoiceCommand
      (.connect (c.address ++ ":9001") (c.address ++ ":9002") c.username))]
  else []

/-- `ConfigState::update`, for the server section. -/
def update (c : ServerConfig) : Message → ServerConfig
  | .voiceCommandResult (.connect (.ok (_,address,username))) => ⟨address,username⟩
  | _ => c

end ServerConfig

/-- `management_addr.split(':').next()` -/
def serverAddr (managementAddr : String) : String :=
  String.ofList (managementAddr.toList.takeWhile (· ≠ ':'))

/-- The results that a command may come to, if it is the one to connect in this attempt. -/
inductive VoiceCommand.Answers (attempt : Attempt) : VoiceCommand → VoiceCommandResult → Prop
  | connect (managementAddr voiceAddr username : String) :
      Answers attempt (.connect managementAddr voiceAddr username)
        (.connect ((attempt.connect managementAddr voiceAddr username).map fun userId =>
          (userId,serverAddr managementAddr,username)))
  | joinVoiceChannel (result : Except String Unit) : Answers attempt .joinVoiceChannel (.joinVoiceChannel result)
  | leaveVoiceChannel (result : Except String Unit) :
      Answers attempt .leaveVoiceChannel (.leaveVoiceChannel result)
  | sendChatMessage (message : String) (result : Except String Unit) :
      Answers attempt (.sendChatMessage message) (.sendChatMessage result)
  | ping (result : Except String UInt64) : Answers attempt .ping (.ping result)
  | getVoiceStats (sent received : UInt64) : Answers attempt .getVoiceStats (.voiceStats sent received)

theorem oneServer_answers : (VoiceCommand.connect "host:9001" "host:9002" "ann").Answers Attempt.oneServer
    (.connect (.ok (1,"host","ann"))) := by
  have h : VoiceCommand.Answers Attempt.oneServer _ _ := .connect "host:9001" "host:9002" "ann"
  rw [Attempt.oneServer_connect] at h
  exact h

/-- `VoiceClientState::update` -/
def voiceClientUpdate : Message → List Task
  | .executeVoiceCommand command => [.perform command]
  | .muteInput _ => [.sendMuteState]
  | _ => []

/-! ## The views -/

structure LoginPage where
  voiceUrl : String
  username : String
  formFilled : Bool
  loginError : String

namespace LoginPage

def isFormFilled (page : LoginPage) : Bool := !page.username.isEmpty && !page.voiceUrl.isEmpty

def new (config : ServerConfig) : LoginPage :=
  let page : LoginPage := ⟨config.address,config.username,false,""⟩
  { page with formFilled := page.isFormFilled }

/-- The address field has changed, or the name field: the error goes away. -/
def edited (page : LoginPage) : LoginPage :=
  { page with formFilled := page.isFormFilled, loginError := "" }

def update (page : LoginPage) : Message → LoginPage × List Task
  | .loginPage (.voiceUrlChanged content) => ({ page with voiceUrl := content }.edited,[])
  | .loginPage (.usernameChanged content) => ({ page with username := content }.edited,[])
  | .loginPage .loginSubmitted =>
    (page,if page.formFilled then
      [.done (.executeVoiceCommand
        (.connect (page.voiceUrl ++ ":9001") (page.voiceUrl ++ ":9002") page.username))]
    else [])
  | .voiceCommandResult (.connect (.ok _)) => (page,[.done (.switchView .room)])
  | .voiceCommandResult (.connect (.error err)) => ({ page with loginError := err },[])
  | _ => (page,[])

end LoginPage

/-- The room page with the message that is being written. -/
structure RoomScreen extends RoomView where
  chatMessage : String

namespace RoomScreen

def new : RoomScreen := ⟨.new,""⟩

def maxChatMessage : ℕ := 2000

/-- The message being written after `update`. -/
def typed (screen : RoomScreen) : Message → String
  | .roomPage (.chatMessageChanged value) =>
    if value.utf8ByteSize ≤ maxChatMessage then value else screen.chatMessage
  | .roomPage .chatMessageSubmitted => ""
  | _ => screen.chatMessage

def tasks (screen : RoomScreen) : Message → List Task
  | .roomPage .muteToggle => [.done (.muteInput !screen.muted)]
  | .roomPage .joinLeaveToggle =>
    [.done (.executeVoiceCommand
      (if screen.toRoomView.isInVoice then .leaveVoiceChannel else .joinVoiceChannel))]
  | .roomPage .chatMessageSubmitted =>
    if screen.chatMessage.isEmpty then []
    else [.done (.executeVoiceCommand (.sendChatMessage screen.chatMessage))]
  | _ => []

def update (formatTime : UInt64 → String) (screen : RoomScreen) (message : Message) :
    RoomScreen × List Task :=
  (⟨screen.toRoomView.update formatTime message.seen,screen.typed message⟩,screen.tasks message)

end RoomScreen

/-- `start_input_stream`; of a stream that cannot be created the two tasks never deliver. -/
def startInputStream : List Task := [.rebroadcast,.samples]

/-- `SettingsPage::update`; it looks at every key, whether or not the page is shown. -/
def settingsUpdate : Message → List Task
  | .settingsPage (.selectInputDevice _) => startInputStream
  | .keyPressed .escape => [.done (.switchView .room)]
  | _ => []

/-! ## The application -/

structure Application where
  config : ServerConfig
  audio : AudioManagerState
  login : LoginPage
  room : RoomScreen
  currentView : ViewType

namespace Application

def new (config : ServerConfig) : Application := ⟨config,.new,.new config,.new,.login⟩

/-- The tasks of `Application::init`. -/
def init (app : Application) : List Task := .serverEvents :: app.config.autoLogin

def onOpen (app : Application) : ViewType → List Task
  | .login => app.config.autoLogin
  | .room => []
  | .settings => startInputStream

/-- What the application itself does with a message. -/
def switch (app : Application) : Message → ViewType × List Task
  | .switchView viewType => (viewType,app.onOpen viewType)
  | _ => (app.currentView,[])

def update (formatTime : UInt64 → String) (app : Application) (message : Message) :
    Application × List Task :=
  let config := app.config.update message
  let (login,loginTasks) := app.login.update message
  let (room,roomTasks) := app.room.update formatTime message
  let (currentView,switchTasks) := { app with config := config }.switch message
  (⟨config,app.audio.update message.seen,login,room,currentView⟩,
    voiceClientUpdate message ++ (loginTasks ++ roomTasks ++ settingsUpdate message) ++ switchTasks)

end Application

/-! ## The loop -/

/-- The messages that a view's widgets send. -/
inductive Shows : ViewType → Message → Prop
  | loginPage (message : LoginPageMessage) : Shows .login (.loginPage message)
  | roomPage (message : RoomPageMessage) : Shows .room (.roomPage message)
  | settingsButton : Shows .room (.switchView .settings)
  | settingsPage (message : SettingsPageMessage) : Shows .settings (.settingsPage message)
  | backButton : Shows .settings (.switchView .room)

/-- The messages of `Application::subscription`. -/
inductive Subscribed : Message → Prop
  | keyPressed (key : Key) : Subscribed (.keyPressed key)
  | ping : Subscribed (.executeVoiceCommand .ping)
  | getVoiceStats : Subscribed (.executeVoiceCommand .getVoiceStats)
  | periodicConfigSave : Subscribed .periodicConfigSave
  | windowCloseRequested (id : ℕ) : Subscribed (.windowCloseRequested id)

/-- A task delivers a message and goes on as these tasks. -/
inductive Task.Delivers : Task → Message → List Task → Prop
  | done (message : Message) : Delivers (.done message) message []
  | perform {attempt : Attempt} {command : VoiceCommand} {result : VoiceCommandResult}
      (h : command.Answers attempt result) : Delivers (.perform command) (.voiceCommandResult result) []
  | sendMuteState : Delivers .sendMuteState .none []
  | serverEvents (event : ClientEvent) :
      Delivers .serverEvents (.serverEventReceived event) [.serverEvents]
  | rebroadcast : Delivers .rebroadcast (.settingsPage (.inputStreamCreated (.ok ()))) []
  | samples : Delivers .samples .voiceInputSamplesReceived [.samples]

structure Runtime where
  app : Application
  tasks : List Task
  queue : List Message

namespace Runtime

def new (config : ServerConfig) : Runtime := ⟨.new config,(Application.new config).init,[]⟩

inductive Label
  | input (message : Message)
  | deliver (message : Message)
  | update (message : Message)

/-- Messages are queued by widgets, subscriptions and tasks, and are processed in any order. -/
inductive Step (formatTime : UInt64 → String) (r : Runtime) : Label → Runtime → Prop
  | widget {message : Message} (h : Shows r.app.currentView message) :
      Step formatTime r (.input message) { r with queue := r.queue ++ [message] }
  | subscription {message : Message} (h : Subscribed message) :
      Step formatTime r (.input message) { r with queue := r.queue ++ [message] }
  | deliver {task : Task} {message : Message} {pre post rest : List Task}
      (htasks : r.tasks = pre ++ task :: post) (h : task.Delivers message rest) :
      Step formatTime r (.deliver message)
        { r with tasks := pre ++ rest ++ post, queue := r.queue ++ [message] }
  | update {message : Message} {pre post : List Message} (hqueue : r.queue = pre ++ message :: post) :
      Step formatTime r (.update message)
        ⟨(r.app.update formatTime message).1,r.tasks ++ (r.app.update formatTime message).2,pre ++ post⟩

/-! ## The application that is heard -/

/-- The messages that have been processed, as the audio state and the participants of the
room see them. -/
def processed (trace : List Label) : List Desktop.Message :=
  trace.filterMap fun
    | .update message => some message.seen
    | _ => none

/-- Whatever is shown, the audio state and the room page have folded every message that has
been processed. -/
theorem heard_run {formatTime : UInt64 → String} {config : ServerConfig} {trace : List Label}
    {r : Runtime} (h : Run (Step formatTime) (new config) trace r) :
    ⟨r.app.audio,r.app.room.toRoomView⟩ = Desktop.Application.run formatTime (processed trace) := by
  induction h with
  | refl => rfl
  | @snoc trace t label u _ hs ih =>
    have hconcat : processed (trace ++ [label]) = processed trace ++ processed [label] :=
      List.filterMap_append ..
    rw [hconcat]
    cases hs with
    | @update message pre post hqueue =>
      have hone : processed [.update message] = [message.seen] := rfl
      rw [hone,Desktop.Application.run_concat,← ih]
      rfl
    | widget => exact ih.trans (congrArg _ (List.append_nil _).symm)
    | subscription => exact ih.trans (congrArg _ (List.append_nil _).symm)
    | deliver => exact ih.trans (congrArg _ (List.append_nil _).symm)

end Runtime
end VoiceApp.Desktop.Frontend
