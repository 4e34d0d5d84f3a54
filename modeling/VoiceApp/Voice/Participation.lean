import VoiceApp.Voice.Provenance
import VoiceApp.Voice.Revocation

/-! # Who is heard

The relay looks a speaker up by address alone. Whether the speaker has joined is told by
the events processed so far, and nothing on the way of a voice packet asks for it.
-/
namespace VoiceApp.Voice
open Protocol Server

namespace VoiceRelayServer

/-- What an input makes of a user's membership: `none` without a session, otherwise
whether the user is in voice. -/
def membershipAfter (id : UInt64) (before : Option Bool) : Input → Option Bool
  | .event (.userConnected other _) => if id = other then some false else before
  | .event (.voiceJoined other) => if id = other then before.map fun _ => true else before
  | .event (.voiceLeft other) => if id = other then before.map fun _ => false else before
  | .event (.userDisconnected other) => if id = other then none else before
  | .datagram _ _ => before
  | .receiveError => before

/-- The membership of a user by the events of a run alone. -/
def membership (id : UInt64) (trace : Trace) : Option Bool :=
  trace.foldl (fun before label => membershipAfter id before label.1) none

@[simp] theorem membership_snoc (id : UInt64) (trace : Trace) (label : Input × List Send) :
    membership id (trace ++ [label]) = membershipAfter id (membership id trace) label.1 := by
  simp only [membership,List.foldl_append,List.foldl_cons,List.foldl_nil]

theorem step_membership {s t : VoiceRelayServer} {label : Input × List Send} (hstep : Step s label t)
    (id : UInt64) : (t.sessions.lookup id).map VoiceSession.inVoice =
      membershipAfter id ((s.sessions.lookup id).map VoiceSession.inVoice) label.1 := by
  cases hstep with
  | receiveError => rfl
  | @event e cache hc =>
    cases e with
    | userConnected other token =>
      simp only [handleEvent,membershipAfter,Table.lookup_insert_eq]
      split <;> rfl
    | voiceJoined other =>
      simp only [handleEvent,membershipAfter,setInVoice_lookup]
      split
      · rename_i hid
        rw [hid]
        cases s.sessions.lookup other <;> rfl
      · rfl
    | voiceLeft other =>
      simp only [handleEvent,membershipAfter,setInVoice_lookup]
      split
      · rename_i hid
        rw [hid]
        cases s.sessions.lookup other <;> rfl
      · rfl
    | userDisconnected other =>
      simp only [handleEvent,membershipAfter,Table.lookup_erase_eq]
      split <;> rfl
  | @datagram src b iter _ sends hi h =>
    have hcase := handlePacket_handled iter s src (received b)
    rw [h] at hcase
    cases hcase with
    | authenticated hd hf hout =>
      -- the session is written back with a new address only
      obtain ⟨hl,_⟩ := hi.find?_some hf
      simp only [membershipAfter,Table.lookup_insert_eq]
      split
      · rename_i hid
        rw [hid,hl]
        rfl
      · rfl
    | forwarded => rfl
    | ignored => rfl

/-- The table of sessions knows exactly the membership that the events tell. -/
theorem run_membership {trace : Trace} {s : VoiceRelayServer} (h : Run Step new trace s)
    (id : UInt64) : (s.sessions.lookup id).map VoiceSession.inVoice = membership id trace := by
  induction h with
  | refl => simp [new,membership]
  | snoc _ hstep ih => rw [membership_snoc,step_membership hstep,ih]

theorem run_inVoice_iff {trace : Trace} {s : VoiceRelayServer} (h : Run Step new trace s)
    (id : UInt64) : (∃ session, s.sessions.lookup id = some session ∧ session.inVoice = true) ↔
      membership id trace = some true := by
  rw [← run_membership h id,Option.map_eq_some_iff]

/-- Voice is sent in the name of users in voice only. -/
def ParticipantsSpeak (s : VoiceRelayServer) (label : Input × List Send) : Prop :=
  ∀ send ∈ label.2, ∀ id, SpeaksAs id send →
    ∃ session, s.sessions.lookup id = some session ∧ session.inVoice = true

/-- Voice data that comes from a user's address comes after the user has joined and not
left again, or nobody else is there to hear it. -/
def SpeakerJoined (pre : Trace) (s : VoiceRelayServer) (label : Input × List Send) : Prop :=
  ∀ src b claimed sequence timestamp data n id, label.1 = .datagram src b →
    Packet.decode (received b) = .ok (.voiceData claimed sequence timestamp data,n) →
      s.idsByAddresses.lookup src = some id →
        membership id pre = some true ∨ ∀ other, other ≠ id → membership other pre ≠ some true

theorem step_participantsSpeak_iff {pre : Trace} {s t : VoiceRelayServer} {label : Input × List Send}
    (hr : Run Step new pre s) (hstep : Step s label t) :
    s.ParticipantsSpeak label ↔ SpeakerJoined pre s label := by
  constructor
  · rintro h src b claimed sequence timestamp data n id hin hd hu
    by_contra hno
    push Not at hno
    obtain ⟨hsilent,other,hne,hother⟩ := hno
    obtain ⟨session,hl,hv⟩ := (run_inVoice_iff hr other).mpr hother
    cases hstep with
    | event => cases hin
    | receiveError => cases hin
    | @datagram _ _ iter _ sends hi hp =>
      cases hin
      have hcase := handlePacket_handled iter s src (received b)
      rw [hp] at hcase
      cases hcase with
      | authenticated hd' => cases hd.symm.trans hd'
      | ignored _ hv' => cases hu.symm.trans (hv' _ _ _ _ _ hd)
      | @forwarded _ _ _ _ _ _ out _ hd' hu' hout hr' =>
        cases hu.symm.trans hu'
        have hto : SentToVoice s id out _ := sentToVoice_of_mapM hi hr'
        obtain ⟨send,hsend,hbytes⟩ := hto.reaches hne hl hv
        have hback := Packet.decode_self hout
        rw [← hbytes] at hback
        exact hsilent ((run_inVoice_iff hr id).mp (h send hsend id ⟨_,_,_,_,hback⟩))
  · rintro h send hsend id ⟨sequence,timestamp,data,n,hd⟩
    obtain ⟨src,b,claimed,m,hin,hb,_,_,hu,hto⟩ := step_relays hstep hsend hd
    obtain ⟨other,session,hne,hl,hv,_⟩ := hto.recipient hsend
    rcases h src b claimed sequence timestamp data m id hin hb hu with hjoined | hnobody
    · exact (run_inVoice_iff hr id).mpr hjoined
    · exact (hnobody other hne ((run_inVoice_iff hr other).mp ⟨session,hl,hv⟩)).elim

/-- In every run only participants speak exactly when, each time voice data comes from a
user's address, that user has joined and not left, or nobody else is in voice. -/
theorem run_participantsSpeak_iff (trace : Trace) (s : VoiceRelayServer) :
    (∀ pre t label, Run.At Step new trace s pre t label → t.ParticipantsSpeak label) ↔
      ∀ pre t label, Run.At Step new trace s pre t label → SpeakerJoined pre t label := by
  constructor
  · intro h pre t label hat
    obtain ⟨t',hstep⟩ := hat.taken
    exact (step_participantsSpeak_iff hat.before hstep).mp (h pre t label hat)
  · intro h pre t label hat
    obtain ⟨t',hstep⟩ := hat.taken
    exact (step_participantsSpeak_iff hat.before hstep).mpr (h pre t label hat)

/-- User 1 has authenticated, joined and left; what it sends is relayed all the same. -/
theorem left_user_is_relayed : ∃ trace : Trace, ∃ s : VoiceRelayServer, ∃ out : Bytes,
    trace.map Prod.fst = [.event (.userConnected 1 11),.event (.userConnected 2 22),
      .datagram (.v4 2 2) [3,0,16,0,0,0,0,0,0,0,7,0,0,0,0,0,0,0,22],.event (.voiceJoined 2),
      .datagram (.v4 1 1) [3,0,16,0,0,0,0,0,0,0,7,0,0,0,0,0,0,0,11],
      .event (.voiceJoined 1),.event (.voiceLeft 1)] ∧
    Run Step new trace s ∧ s.sessions.lookup 1 = some ⟨11,false,some (.v4 1 1)⟩ ∧
    Step s (.datagram (.v4 1 1) [97,0,18,0,0,0,0,0,0,0,0,0,0,0,5,0,0,0,9,1,2],[(out,.v4 2 2)]) s ∧
    ¬ s.ParticipantsSpeak
      (.datagram (.v4 1 1) [97,0,18,0,0,0,0,0,0,0,0,0,0,0,5,0,0,0,9,1,2],[(out,.v4 2 2)]) := by
  obtain ⟨sends2,sends1,hr⟩ := run_pair
  let left := (pair.handleEvent [] (.voiceJoined 1)).handleEvent [] (.voiceLeft 1)
  have hjoin := Step.event (e := .voiceJoined 1) pair_idsByAddresses
  have hleave := Step.event (s := pair.handleEvent [] (.voiceJoined 1)) (e := .voiceLeft 1)
    pair_idsByAddresses
  have hl : left.sessions.lookup 1 = some ⟨11,false,some (.v4 1 1)⟩ := by decide
  have hsame : left = pair := by
    have hsessions : left.sessions = pair.sessions := by decide
    exact congrArg (fun sessions => (⟨sessions,pair.idsByAddresses⟩ : VoiceRelayServer)) hsessions
  obtain ⟨out,hout,hstep⟩ := step_forwards (s := left) (.v4 1 1) 1 [.v4 2 2] decode_speech
    (by rw [hsame]; decide) (by rw [hsame]; exact pair_sessions) rfl
  refine ⟨_,left,out,rfl,(hr.snoc hjoin).snoc hleave,hl,hstep,fun hspeak => ?_⟩
  have hback := Packet.decode_self hout
  obtain ⟨session,hsession,hvoice⟩ := hspeak (out,.v4 2 2) (by simp) 1 ⟨_,_,_,_,hback⟩
  cases hl.symm.trans hsession
  cases hvoice

end VoiceRelayServer
end VoiceApp.Voice
