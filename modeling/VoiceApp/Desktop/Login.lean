import VoiceApp.Desktop.Frontend

/-! # The login screen

The view changes on a message of its own, which the login page sends after a login and the
settings page on every press of the Escape key.
-/
namespace VoiceApp.Desktop.Frontend
open Protocol Sdk

/-- The answer to a successful login. -/
def Message.LoggedIn (message : Message) : Prop :=
  ∃ x, message = .voiceCommandResult (.connect (.ok x))

/-- The messages that somebody answers with a change of the view. -/
def Message.Opens (message : Message) : Prop := message.LoggedIn ∨ message = .keyPressed .escape

/-! ## One message -/

theorem autoLogin_switchView {c : ServerConfig} {v : ViewType} : .done (.switchView v) ∉ c.autoLogin := by
  unfold ServerConfig.autoLogin
  split <;> simp

theorem voiceClientUpdate_switchView {message : Message} {v : ViewType} :
    .done (.switchView v) ∉ voiceClientUpdate message := by
  cases message <;> simp [voiceClientUpdate]

/-- The login page changes the view after a login only. -/
theorem login_switchView {page : LoginPage} {message : Message} {v : ViewType}
    (h : .done (.switchView v) ∈ (page.update message).2) : v = .room ∧ message.LoggedIn := by
  unfold LoginPage.update at h
  split at h
  case h_3 =>
    dsimp only at h
    split at h <;> simp at h
  case h_4 x =>
    obtain rfl : v = .room := by simpa using h
    exact ⟨rfl,x,rfl⟩
  all_goals cases h

theorem room_switchView {screen : RoomScreen} {message : Message} {v : ViewType} :
    .done (.switchView v) ∉ screen.tasks message := by
  unfold RoomScreen.tasks
  split
  · simp
  · simp
  · split <;> simp
  · simp

/-- The settings page changes the view when Escape is pressed. -/
theorem settings_switchView {message : Message} {v : ViewType}
    (h : .done (.switchView v) ∈ settingsUpdate message) : v = .room ∧ message = .keyPressed .escape := by
  unfold settingsUpdate at h
  split at h
  · simp [startInputStream] at h
  · obtain rfl : v = .room := by simpa using h
    exact ⟨rfl,rfl⟩
  · cases h

namespace Application
variable {formatTime : UInt64 → String} {app : Application} {message : Message} {v : ViewType}

theorem switch_switchView : .done (.switchView v) ∉ (app.switch message).2 := by
  unfold switch
  split
  case h_1 viewType =>
    cases viewType with
    | login => exact autoLogin_switchView
    | room => exact List.not_mem_nil
    | settings => simp [onOpen,startInputStream]
  case h_2 => exact List.not_mem_nil

/-- A change of the view is asked for after a login and on Escape. -/
theorem update_switchView (h : .done (.switchView v) ∈ (app.update formatTime message).2) :
    v = .room ∧ message.Opens := by
  change .done (.switchView v) ∈ voiceClientUpdate message ++
    ((app.login.update message).2 ++ app.room.tasks message ++ settingsUpdate message) ++ _ at h
  rw [List.mem_append,List.mem_append,List.mem_append,List.mem_append] at h
  rcases h with (hclient | (hlogin | hroom) | hsettings) | hswitch
  · exact absurd hclient voiceClientUpdate_switchView
  · obtain ⟨hv,hin⟩ := login_switchView hlogin
    exact ⟨hv,.inl hin⟩
  · exact absurd hroom room_switchView
  · obtain ⟨hv,hescape⟩ := settings_switchView hsettings
    exact ⟨hv,.inr hescape⟩
  · exact absurd hswitch switch_switchView

/-- Nothing else changes the view. -/
theorem update_currentView (h : ∀ v, message ≠ .switchView v) :
    (app.update formatTime message).1.currentView = app.currentView := by
  cases message with
  | switchView v => exact absurd rfl (h v)
  | _ => rfl

theorem escape_switchView :
    .done (.switchView .room) ∈ (app.update formatTime (.keyPressed .escape)).2 := by
  simp [update,settingsUpdate]

end Application

namespace Runtime
variable {formatTime : UInt64 → String}

/-- Some login has been processed. -/
def LoggedIn (trace : List Label) : Prop := ∃ message, .update message ∈ trace ∧ message.LoggedIn

/-- Escape is not processed before a login. -/
def EscapesAfterLogin (trace : List Label) : Prop :=
  ∀ pre post, trace = pre ++ .update (.keyPressed .escape) :: post → LoggedIn pre

/-- The login screen is shown, and nothing is on its way that changes this. -/
structure Locked (r : Runtime) : Prop where
  shown : r.app.currentView = .login
  queue : ∀ v, .switchView v ∉ r.queue
  tasks : ∀ v, .done (.switchView v) ∉ r.tasks

theorem locked_new (config : ServerConfig) : (new config).Locked := by
  refine ⟨rfl,fun v => List.not_mem_nil,fun v h => ?_⟩
  rcases List.mem_cons.mp h with h | h
  · cases h
  · exact autoLogin_switchView h

/-- What a task delivers does not change the view. -/
theorem delivers_switchView {task : Task} {message : Message} {rest : List Task} {v : ViewType}
    (h : task.Delivers message rest) :
    (message = .switchView v → task = .done (.switchView v)) ∧
      (.done (.switchView v) ∈ rest → task = .done (.switchView v)) := by
  cases h <;> simp

/-- Only a login or Escape unlocks the screen. -/
theorem step_locked {r r' : Runtime} {label : Label} (h : r.Locked) (hs : Step formatTime r label r')
    (hlabel : ∀ message, label = .update message → ¬message.Opens) : r'.Locked := by
  have hqueued : ∀ message, (∀ v, message ≠ .switchView v) →
      ∀ v, .switchView v ∉ r.queue ++ [message] := by
    intro message hmessage v hmem
    rcases List.mem_append.mp hmem with hmem | hmem
    · exact h.queue v hmem
    · exact hmessage v (List.mem_singleton.mp hmem).symm
  cases hs with
  | @widget message hshows =>
    refine ⟨h.shown,hqueued message ?_,h.tasks⟩
    rintro v rfl
    rw [h.shown] at hshows
    cases hshows
  | @subscription message hsubscribed =>
    refine ⟨h.shown,hqueued message ?_,h.tasks⟩
    rintro v rfl
    cases hsubscribed
  | @deliver task message pre post rest htasks hdelivers =>
    have htask : ∀ v, task ≠ .done (.switchView v) := by
      rintro v rfl
      exact h.tasks v (by rw [htasks]; exact List.mem_append_right _ List.mem_cons_self)
    refine ⟨h.shown,hqueued message fun v hv => htask v ((delivers_switchView hdelivers).1 hv),?_⟩
    intro v hmem
    rcases List.mem_append.mp hmem with hmem | hpost
    · rcases List.mem_append.mp hmem with hpre | hrest
      · exact h.tasks v (by rw [htasks]; exact List.mem_append_left _ hpre)
      · exact htask v ((delivers_switchView hdelivers).2 hrest)
    · exact h.tasks v (by rw [htasks]; exact List.mem_append_right _ (List.mem_cons_of_mem _ hpost))
  | @update message pre post hqueue =>
    have hmem : message ∈ r.queue := by
      rw [hqueue]
      exact List.mem_append_right _ List.mem_cons_self
    refine ⟨?_,fun v hv => h.queue v ?_,fun v hv => ?_⟩
    · rw [Application.update_currentView]
      · exact h.shown
      · rintro v rfl
        exact h.queue v hmem
    · rw [hqueue]
      rcases List.mem_append.mp hv with hpre | hpost
      · exact List.mem_append_left _ hpre
      · exact List.mem_append_right _ (List.mem_cons_of_mem _ hpost)
    · rcases List.mem_append.mp hv with hold | hnew
      · exact h.tasks v hold
      · exact hlabel message rfl (Application.update_switchView hnew).2

theorem locked_run {config : ServerConfig} {trace : List Label} {r : Runtime}
    (h : Run (Step formatTime) (new config) trace r)
    (htrace : ∀ message, .update message ∈ trace → ¬message.Opens) : r.Locked := by
  induction h with
  | refl => exact locked_new config
  | snoc _ hs ih =>
    have hold := ih fun message hmem => htrace message (List.mem_append_left _ hmem)
    refine step_locked hold hs ?_
    rintro message rfl
    exact htrace message (List.mem_append_right _ List.mem_cons_self)

/-- Escape opens the room, whoever is logged in. -/
theorem escape_opens {r r' : Runtime} (hs : Step formatTime r (.update (.keyPressed .escape)) r') :
    ∃ r'', Run (Step formatTime) r' [.deliver (.switchView .room),.update (.switchView .room)] r'' ∧
      r''.app.currentView = .room := by
  cases hs with
  | update hqueue =>
    have hmem : .done (.switchView .room) ∈
        r.tasks ++ (r.app.update formatTime (.keyPressed .escape)).2 :=
      List.mem_append_right _ Application.escape_switchView
    obtain ⟨pre,post,htasks⟩ := List.append_of_mem hmem
    exact ⟨_,(Run.single (.deliver htasks (.done _))).snoc (.update rfl),rfl⟩

/-- Without a login the login screen stays, as long as Escape is pressed after a login only;
Escape before a login opens the room. -/
theorem room_after_login {config : ServerConfig} {trace : List Label} {r : Runtime}
    (h : Run (Step formatTime) (new config) trace r) :
    (EscapesAfterLogin trace → r.app.currentView ≠ .login → LoggedIn trace) ∧
      ∀ pre post, trace = pre ++ .update (.keyPressed .escape) :: post → ¬LoggedIn pre →
        ∃ trace' r', Run (Step formatTime) (new config)
          (pre ++ .update (.keyPressed .escape) :: trace') r' ∧
          r'.app.currentView ≠ .login ∧ ¬LoggedIn (pre ++ .update (.keyPressed .escape) :: trace') := by
  constructor
  · intro hescape hview
    by_contra hout
    refine hview (locked_run h ?_).shown
    rintro message hmem (hin | rfl)
    · exact hout ⟨message,hmem,hin⟩
    · obtain ⟨pre,post,rfl⟩ := List.append_of_mem hmem
      obtain ⟨message,hmem,hin⟩ := hescape pre post rfl
      exact hout ⟨message,List.mem_append_left _ hmem,hin⟩
  · rintro pre post rfl hout
    obtain ⟨t,t',hpre,hs,_⟩ := h.step_at
    obtain ⟨r'',hopens,hview⟩ := escape_opens hs
    refine ⟨[.deliver (.switchView .room),.update (.switchView .room)],r'',?_,?_,?_⟩
    · have hrun := (hpre.snoc hs).append hopens
      rw [List.append_assoc] at hrun
      exact hrun
    · rw [hview]
      decide
    · rintro ⟨message,hmem,x,rfl⟩
      rcases List.mem_append.mp hmem with hmem | hmem
      · exact hout ⟨_,hmem,x,rfl⟩
      · simp at hmem

/-- The last task delivers its message, and the message is processed. -/
theorem deliver_update (app : Application) (pre : List Task) {task : Task} {message : Message}
    {rest : List Task} (h : task.Delivers message rest) :
    Run (Step formatTime) ⟨app,pre ++ [task],[]⟩ [.deliver message,.update message]
      ⟨(app.update formatTime message).1,pre ++ rest ++ (app.update formatTime message).2,[]⟩ := by
  have hdeliver : Step formatTime ⟨app,pre ++ [task],[]⟩ (.deliver message)
      ⟨app,pre ++ rest ++ [],[message]⟩ :=
    .deliver rfl h
  have hupdate : Step formatTime ⟨app,pre ++ rest ++ [],[message]⟩ (.update message)
      ⟨(app.update formatTime message).1,pre ++ rest ++ [] ++ (app.update formatTime message).2,[] ++ []⟩ :=
    .update rfl
  rw [List.append_nil] at hdeliver hupdate
  exact (Run.single hdeliver).snoc hupdate

/-- An automatic login: the saved credentials are sent, accepted, and the room opens. -/
def loginTrace : List Label :=
  let connect : Message := .executeVoiceCommand (.connect "host:9001" "host:9002" "ann")
  let connected : Message := .voiceCommandResult (.connect (.ok (1,"host","ann")))
  [.deliver connect,.update connect] ++ ([.deliver connected,.update connected] ++
    [.deliver (.switchView .room),.update (.switchView .room)])

theorem login_run : ∃ r, Run (Step fun _ => "") (new ⟨"host","ann"⟩) loginTrace r ∧
    r.app.currentView = .room := by
  refine ⟨_,(deliver_update (.new ⟨"host","ann"⟩) [.serverEvents] (.done _)).append
    ((deliver_update _ [.serverEvents] (.perform oneServer_answers)).append
      (deliver_update _ [.serverEvents] (.done _))),rfl⟩

theorem room_after_automatic_login : LoggedIn loginTrace := by
  obtain ⟨r,hrun,hview⟩ := login_run
  refine (room_after_login hrun).1 ?_ ?_
  · intro pre post htrace
    have hmem : Label.update (.keyPressed .escape) ∈ loginTrace := by
      rw [htrace]
      exact List.mem_append_right _ List.mem_cons_self
    simp [loginTrace] at hmem
  · rw [hview]
    decide

/-- Escape on the login screen opens the room. -/
theorem escape_without_login : ∃ trace r, Run (Step fun _ => "") (new ⟨"",""⟩) trace r ∧
    r.app.currentView ≠ .login ∧ ¬LoggedIn trace := by
  have hqueue : [Message.keyPressed .escape] = [] ++ .keyPressed .escape :: [] := rfl
  have hpressed : Run (Step fun _ => "") (new ⟨"",""⟩)
      ([] ++ [.input (.keyPressed .escape)] ++ [.update (.keyPressed .escape)]) _ :=
    (Run.refl.snoc (.subscription (.keyPressed .escape))).snoc (.update hqueue)
  refine ⟨_,_,hpressed.append (deliver_update _ [.serverEvents] (.done (.switchView .room))),?_,?_⟩
  · change ViewType.room ≠ .login
    decide
  · rintro ⟨message,hmem,x,rfl⟩
    simp at hmem

end Runtime
end VoiceApp.Desktop.Frontend
