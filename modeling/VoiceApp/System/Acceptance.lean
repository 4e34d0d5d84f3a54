import VoiceApp.Desktop.RoomPage
import VoiceApp.Management.LoginResponse
import VoiceApp.Sdk.ApiClient
import VoiceApp.System.Correlation

/-! # Success as a call reports it

A call that comes back with `Ok` should have been accepted by the server. The server turns
down a login with id 0, token 0 and an empty list, which the client takes for a user and a
list; and of the flags in the other responses the client reads none.
-/
namespace VoiceApp.System
open Protocol Server Management

/-- What the login reports of this response is true of the users map: a user that it returns
has got the name at this address, and a login that has stored nothing is an error and makes
no `ParticipantsList`. -/
structure LoginReported (users : Table SocketAddr User) (address : SocketAddr) (username : String)
    (response : Packet) : Prop where
  stored : ∀ id voiceToken, Sdk.ApiClient.authenticateManagement response = .ok (id,voiceToken) →
    ∃ u, users.lookup address = some u ∧ u.username = some username ∧ u.id = id ∧ u.token = voiceToken
  rejected : (¬ ∃ u, users.lookup address = some u ∧ u.username = some username) →
    (∃ e, Sdk.ApiClient.authenticateManagement response = .error e) ∧
    ∀ userId participants,
      Sdk.EventHandler.handlePacket response ≠ some (.participantsList userId participants)

/-- What the server answers to a login is reported truthfully exactly if the name passes the
server's check. -/
theorem loginReported_iff {trace : Trace} {s s' : ManagementServer} {address : SocketAddr}
    {requestId : UInt64} {username : String} {response : Packet}
    {k : Bytes → HandlerM (Except ServerError Unit)}
    (hr : Run Management.Step ManagementServer.new trace s) (hres : response.isEvent = false)
    (h : Alone s (handleLoginRequest address requestId username).run s' (.op (.encode response) k)) :
    LoginReported s'.users address username response ↔ validUsername username = true := by
  cases hv : validUsername username with
  | false =>
    obtain ⟨rfl,rfl⟩ := alone_login_invalid hv h
    refine iff_of_false ?_ (by simp)
    intro hreported
    obtain ⟨u,hu,hname,_⟩ := hreported.stored 0 0 rfl
    have hvalid := run_named hr address u username hu hname
    rw [hv] at hvalid
    cases hvalid
  | true =>
    obtain ⟨u,addresses,hu,_,_,rfl,husers⟩ := alone_login hv hres h
    have hrecord : s'.users.lookup address = some { u with username := some username } := by
      rw [husers,rename,Table.lookup_modify,if_pos rfl,hu]
      rfl
    refine iff_of_true ⟨?_,?_⟩ rfl
    · intro id voiceToken hok
      cases hok
      exact ⟨_,hrecord,rfl,rfl,rfl⟩
    · intro hnone
      exact (hnone ⟨_,hrecord,rfl⟩).elim

/-- A call over TCP that wants no response of its own type. -/
def Unchecked : Sdk.Api → Prop
  | .joinChannel => True
  | .leaveChannel => True
  | .sendMessage _ => True
  | _ => False

theorem unchecked_succeeds {api : Sdk.Api} (h : Unchecked api) (response : Packet) :
    api.Succeeds response := by
  cases api with
  | joinChannel => rfl
  | leaveChannel => rfl
  | sendMessage message => rfl
  | _ => exact h.elim

/-- In every state of the server, success means acceptance exactly if the name of a login
passes the check, and exactly if the response to a join, a leave or a message is the
matching one with `success = true`. -/
theorem success_means_acceptance_iff {trace : Trace} {s : ManagementServer}
    (hr : Run Management.Step ManagementServer.new trace s) :
    (∀ {s' : ManagementServer} {address : SocketAddr} {requestId : UInt64} {username : String}
      {response : Packet} {k : Bytes → HandlerM (Except ServerError Unit)}, response.isEvent = false →
      Alone s (handleLoginRequest address requestId username).run s' (.op (.encode response) k) →
        (LoginReported s'.users address username response ↔ validUsername username = true)) ∧
    ∀ (api : Sdk.Api) (requestId : UInt64) (response : Packet), Unchecked api →
      ((api.Succeeds response → api.GrantedBy requestId response) ↔
        api.GrantedBy requestId response) := by
  constructor
  · intro s' address requestId username response k hres h
    exact loginReported_iff hr hres h
  · intro api requestId response hunchecked
    constructor
    · exact fun h => h (unchecked_succeeds hunchecked response)
    · exact fun h _ => h

/-- User 1 logs in under a name of 32 letters, and a join is granted. -/
theorem success_means_acceptance_first : ∃ s' : ManagementServer, ∃ response : Packet,
    LoginReported s'.users (.v4 1 1) (letters 32) response ∧
    (Sdk.Api.joinChannel.Succeeds (.joinVoiceChannelResponse 7 true) →
      Sdk.Api.joinChannel.GrantedBy 7 (.joinVoiceChannelResponse 7 true)) := by
  have hr : Run (Guarded (fun _ _ => True) Management.Step) ManagementServer.new _ _ :=
    run_solo fun _ _ _ _ _ => trivial
  have hrecord : (solo.setConnection 1 soloist).users.lookup (.v4 1 1) =
      some ⟨1,none,false,false,11⟩ := rfl
  obtain ⟨response,k,s',hres,halone⟩ := login_alone hrecord 7 valid_letters
  obtain ⟨hlogin,hcalls⟩ := success_means_acceptance_iff (hr.mono fun _ _ _ h => h.2)
  exact ⟨s',response,(hlogin hres halone).mpr valid_letters,(hcalls .joinChannel 7 _ trivial).mpr rfl⟩

/-- A login with an empty name is turned down: the record gets no name. The call returns
`Ok((0,0))` all the same, and the event from this response takes all participants off any
page and makes its user id 0. -/
theorem rejected_login_succeeds : ∃ (trace : List Session.Label) (s : Session) (response : Packet),
    Run (Guarded (Session.Undisturbed 1) (Session.Step 1)) Session.new trace s ∧
    s.client.calls[0]? = some ⟨.authenticateManagement "",1,.returned (some response)⟩ ∧
    (∃ c, s.server.connections.lookup 1 = some c ∧
      s.server.users.lookup c.address = some ⟨1,none,false,false,11⟩ ∧
      ¬ LoginReported s.server.users c.address "" response) ∧
    Sdk.ApiClient.authenticateManagement response = .ok (0,0) ∧
    ∃ t, s.client.tasks = [t] ∧ ∀ (formatTime : UInt64 → String) (page : Desktop.RoomPage),
      page.serverEventsReceived formatTime (Sdk.EventHandler.listenToPackets t.handler.packetTx) =
        { page with userId := 0,participants := ∅ } := by
  have hrequest : ((Sdk.Api.authenticateManagement "").request 1).encode =
      some [1,0,10,0,0,0,0,0,0,0,1,0,0] := by decide
  have hresponse : (Packet.loginResponse 1 0 0 []).encode = some
      [33,0,26,0,0,0,0,0,0,0,1,0,0,0,0,0,0,0,0,0,0,0,0,0,0,0,0,0,0] := by decide
  obtain ⟨trace,s,hr,hcall,⟨t,ht,hstream⟩,c,hc,hu⟩ := run_call (.authenticateManagement "") hrequest
    (by decide) hresponse rfl (by decide) (handleLoginRequest_run_invalid (.v4 1 1) (by decide) 1)
  refine ⟨trace,s,_,hr,hcall,⟨c,hc,hu,?_⟩,rfl,t,ht,?_⟩
  · intro hreported
    obtain ⟨u,hu',hname,_⟩ := hreported.stored 0 0 rfl
    rw [hu] at hu'
    cases hu'
    cases hname
  · intro formatTime page
    rw [hstream]
    rfl

end VoiceApp.System
