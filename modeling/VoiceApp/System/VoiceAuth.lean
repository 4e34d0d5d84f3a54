import VoiceApp.Management.Sessions
import VoiceApp.System.Refinement

/-! # Answers to voice authentication

The relay answers a request exactly if one of its sessions has the token, so a token that
nobody has, or whose user it has not yet been told of, gets no answer at all; and a user
whose leaving it has not yet been told of is still let in.
-/
namespace VoiceApp.System
open Protocol Server

/-- What is sent is one response to the source, under the request's id, and it says whether
the token has been issued to a user who is connected by all the events sent so far. -/
def AnsweredTruthfully (events : List Event) (src : SocketAddr) (requestId voiceToken : UInt64)
    (sends : List Voice.Send) : Prop :=
  ∃ success out, (Packet.voiceAuthResponse requestId success).encode = some out ∧
    sends = [(out,src)] ∧ (success = true ↔ Management.Issued voiceToken events)

section Answers
variable {r r' : Voice.VoiceRelayServer} {src : SocketAddr} {b : Bytes} {sends : List Voice.Send}
  {requestId voiceToken : UInt64} {n : ℕ}

/-- A request is answered with success if some session has its token, and not otherwise. -/
theorem step_answers (hstep : Voice.Step r (.datagram src b,sends) r')
    (hd : Packet.decode (Voice.received b) = .ok (.voiceAuthRequest requestId voiceToken,n)) :
    (∃ id session, r.sessions.lookup id = some session ∧ session.token = voiceToken ∧
      ∃ out, (Packet.voiceAuthResponse requestId true).encode = some out ∧ sends = [(out,src)]) ∨
    (∀ id session, r.sessions.lookup id = some session → session.token ≠ voiceToken) ∧ sends = [] := by
  cases hstep with
  | @datagram _ _ iter _ _ hi h =>
    have hcase := Voice.VoiceRelayServer.handlePacket_handled iter r src (Voice.received b)
    rw [h] at hcase
    cases hcase with
    | @authenticated _ _ _ userId session out hd' hf hout =>
      left
      cases hd.symm.trans hd'
      obtain ⟨hl,htoken⟩ := hi.find?_some hf
      exact ⟨userId,session,hl,eq_of_beq htoken,out,hout,rfl⟩
    | forwarded hd' => cases hd.symm.trans hd'
    | ignored ha hv =>
      right
      refine ⟨fun id session hl htoken => ?_,rfl⟩
      have hfalse := hi.find?_none (ha requestId voiceToken n hd) hl
      simp [htoken] at hfalse

end Answers

section Runs
variable {trace : List Label} {s s' : Servers}

/-- The relay holds a session with a token when the events it has consumed say so. -/
theorem run_issued (hr : Run Step Servers.new trace s) (voiceToken : UInt64) :
    (∃ id session, s.relay.sessions.lookup id = some session ∧ session.token = voiceToken) ↔
      Management.Issued voiceToken (s.management.events.take s.consumed) := by
  have hheld : ∀ id, (∃ session, s.relay.sessions.lookup id = some session ∧
      session.token = voiceToken) ↔ ∃ inVoice, held s.relay id = some (voiceToken,inVoice) := by
    intro id
    constructor
    · rintro ⟨session,hl,rfl⟩
      exact ⟨session.inVoice,by rw [held,hl]; rfl⟩
    · rintro ⟨inVoice,hview⟩
      obtain ⟨session,hl,heq⟩ := Option.map_eq_some_iff.mp hview
      exact ⟨session,hl,congrArg Prod.fst heq⟩
  unfold Management.Issued
  apply exists_congr
  intro id
  rw [hheld id,(run_follows hr).sessions id]
  exact Management.run_sessionOf_iff (run_managed hr) s.consumed id voiceToken

/-- A request is answered, and truthfully, exactly if the token's user is connected by the
events that the relay has consumed and by all the events that have been sent. -/
theorem answered_truthfully_iff {src : SocketAddr} {b : Bytes} {sends : List Voice.Send}
    {requestId voiceToken : UInt64} {n : ℕ} (hr : Run Step Servers.new trace s)
    (hstep : Step s (.relay (.datagram src b) sends) s')
    (hd : Packet.decode (Voice.received b) = .ok (.voiceAuthRequest requestId voiceToken,n)) :
    AnsweredTruthfully s.management.events src requestId voiceToken sends ↔
      Management.Issued voiceToken (s.management.events.take s.consumed) ∧
        Management.Issued voiceToken s.management.events := by
  rw [← run_issued hr voiceToken]
  cases hstep with
  | datagram hrelay =>
    rcases step_answers hrelay hd with ⟨id,session,hl,htoken,out,hout,rfl⟩ | ⟨hnone,rfl⟩
    · constructor
      · rintro ⟨success,out',hout',hsends,htruth⟩
        cases hsends
        cases (Packet.decode_self hout).symm.trans (Packet.decode_self hout')
        exact ⟨⟨id,session,hl,htoken⟩,htruth.mp rfl⟩
      · rintro ⟨_,hissued⟩
        exact ⟨true,out,hout,rfl,iff_of_true rfl hissued⟩
    · constructor
      · rintro ⟨success,out,_,hsends,_⟩
        cases hsends
      · rintro ⟨⟨id,session,hl,htoken⟩,_⟩
        exact (hnone id session hl htoken).elim

end Runs

/-! ## One user -/

/-- User 1 has connected with token 11; the relay has not been told yet. -/
def oneConnected : Servers :=
  { Servers.new with
    management := ((Management.ManagementServer.new.accept (.v4 1 1) 11).setConnection 1
      ⟨⟨1,none,false,false,11⟩,.v4 1 1,.connected,0,[],[]⟩).sendEvent (.userConnected 1 11) }

theorem run_oneConnected : Run Step Servers.new
    [.management (.accept (.v4 1 1) 11),.management (.connect 1)] oneConnected := by
  let accepted := Management.ManagementServer.new.accept (.v4 1 1) 11
  have haccept : Step Servers.new (.management (.accept (.v4 1 1) 11)) ⟨accepted,.new,0⟩ :=
    .management (.accept (by decide))
  have hconnect : Step ⟨accepted,.new,0⟩ (.management (.connect 1)) oneConnected :=
    .management (.connect (c := ⟨⟨1,none,false,false,11⟩,.v4 1 1,.spawned,0,[],[]⟩) rfl rfl)
  exact .snoc (.snoc .refl haccept) hconnect

/-- The relay is told of user 1, who is then answered. -/
theorem answered_truthfully_one : ∃ trace s s' b sends,
    Run Step Servers.new trace s ∧ Step s (.relay (.datagram (.v4 1 1) b) sends) s' ∧
      AnsweredTruthfully s.management.events (.v4 1 1) 7 11 sends := by
  let r := Voice.VoiceRelayServer.new.handleEvent [] (.userConnected 1 11)
  have hevent : Voice.Step .new (.event (.userConnected 1 11),[]) r := .event .nil
  have hrun := run_oneConnected.snoc (.event (s := oneConnected) rfl hevent)
  obtain ⟨sends,hauth⟩ := Voice.VoiceRelayServer.step_authenticates (s := r) (.v4 1 1) 1
    ⟨11,false,none⟩ (by decide) Voice.VoiceRelayServer.decode_request
  have hstep := Step.datagram (s := { oneConnected with relay := r, consumed := 1 }) hauth
  have hissued : Management.Issued 11 [.userConnected 1 11] := ⟨1,by simp,by simp⟩
  exact ⟨_,_,_,_,sends,hrun,hstep,(answered_truthfully_iff hrun hstep
    Voice.VoiceRelayServer.decode_request).mpr ⟨hissued,hissued⟩⟩

/-- The token of user 1 has been issued, but its `UserConnected` waits in the queue when the
request comes: there is no answer. -/
theorem early_request_unanswered : ∃ trace s s' b, ∃ n : ℕ, Run Step Servers.new trace s ∧
    Step s (.relay (.datagram (.v4 1 1) b) []) s' ∧
    Packet.decode (Voice.received b) = .ok (.voiceAuthRequest 7 11,n) ∧
    Management.Issued 11 s.management.events ∧
    ¬ AnsweredTruthfully s.management.events (.v4 1 1) 7 11 [] := by
  have hd := Voice.VoiceRelayServer.decode_request
  have hignored : Voice.Step .new (.datagram (.v4 1 1)
      [3,0,16,0,0,0,0,0,0,0,7,0,0,0,0,0,0,0,11],[]) .new := by
    refine .datagram .nil ?_
    simp only [Voice.VoiceRelayServer.handlePacket,hd]
    rfl
  refine ⟨_,oneConnected,_,_,_,run_oneConnected,.datagram hignored,hd,⟨1,?_,?_⟩,?_⟩
  · exact List.mem_singleton_self _
  · decide
  · rintro ⟨success,out,_,hsends,_⟩
    cases hsends

end VoiceApp.System
