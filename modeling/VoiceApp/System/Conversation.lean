import VoiceApp.Management.Credentials
import VoiceApp.Sdk.ApiClient
import VoiceApp.System.Attribution
import VoiceApp.System.Refinement
import VoiceApp.System.VoiceSpoken

/-! # Both servers and all clients

Each client has a connection with the management server and sockets that talk to the relay;
the relay learns of users from the events of the management server, and a client learns its
token from its login. So who is heard as a user, and who hears, comes down to the connections.
-/
namespace VoiceApp.System
open Protocol Server Framing Management
open Sdk (Client VoiceClient OpusEncoder AudioResampler VoiceError InputPipeline InputOutputManager encoderInput
  framesOf voicePackets)

namespace Community
variable {trace : List Label} {s : Community}

/-- A login of the client has come back with this token. -/
def LoggedIn (c : Client) (voiceToken : UInt64) : Prop :=
  ∃ (n : ℕ) (call : Sdk.Call) (username : String) (response : Packet) (id : UInt64),
    c.calls[n]? = some call ∧ call.api = .authenticateManagement username ∧
    call.phase = .returned (some response) ∧
    Sdk.ApiClient.authenticateManagement response = .ok (id,voiceToken)

/-- What a client is handed has been written on its connection. -/
theorem handed_on_wrote (h : Run (Guarded Undisturbed Step) new trace s) {id : UInt64}
    {t : Sdk.TcpClient.Task} (ht : t ∈ (s.clients id).tasks) {packet : Packet}
    (hpacket : packet ∈ t.handler.packetTx) :
    ∃ data ∈ (exchange id (trace.filterMap Label.server?)).wrote, packetOf data = some packet := by
  have hsession := session_run id h
  obtain ⟨_,hconnected,_⟩ := Client.run_connected (Session.client_run hsession)
  obtain ⟨k,hk⟩ := List.mem_iff_getElem?.mp ht
  obtain ⟨reads,hreads,hfeed⟩ := (hconnected.only hk).2.2.received
  obtain ⟨answers,_,hwrote,_⟩ := run_answered (Session.server_run hsession) id
  have hdown : reads.flatten <+: (Session.exchanged id (trace.filterMap (Label.seen id))).wrote.flatten := by
    rw [hreads]
    exact (Session.run_linked hsession).down t ht
  have hwhole : Whole answers (Session.exchanged id (trace.filterMap (Label.seen id))).wrote.flatten :=
    ⟨_,hwrote,rfl⟩
  have hfront := hwhole.received hdown
  rw [hfeed] at hfront
  rw [seen_server] at hwrote
  have hmem := hfront.subset hpacket
  rw [← encoded_packets hwrote] at hmem
  exact List.mem_filterMap.mp hmem

/-- The token that a login comes back with is the one made for the connection, or zero. -/
theorem loggedIn_own
    (h : Run (Guarded (fun s label => Undisturbed s label ∧ Apart s label) Step) new trace s)
    {id voiceToken : UInt64} (hlogin : LoggedIn (s.clients id) voiceToken) :
    voiceToken = 0 ∨ s.server.MadeFor id voiceToken := by
  have hplain : Run (Guarded Undisturbed Step) new trace s := h.mono fun _ _ _ hs => ⟨hs.1.1,hs.2⟩
  obtain ⟨_,hconnected,hgiven⟩ := Client.run_connected (Session.client_run (session_run id hplain))
  obtain ⟨n,call,username,response,id',hcall,_,hphase,htoken⟩ := hlogin
  obtain ⟨t,ht,hanswered⟩ := hgiven n call response hcall hphase
  obtain ⟨k,hk⟩ := List.mem_iff_getElem?.mp ht
  have hin := (hconnected.only hk).2.2.matching.order.subset (List.mem_map_of_mem hanswered)
  obtain ⟨data,hdata,hpacket⟩ := handed_on_wrote hplain ht hin
  have hserver := run_discreet (fun _ _ hguard => hguard) (server_run h)
  cases response with
  | loginResponse requestId id₂ token participants =>
    cases htoken
    rcases run_credentials hserver id data hdata _ _ _ _ hpacket with ⟨_,hzero⟩ | ⟨_,hmade⟩
    · exact .inl hzero
    · exact .inr hmade
  | _ => cases htoken

end Community

/-- The relay has taken `consumed` events from the queue of the management server. -/
structure Conversation (S R F : Type) where
  community : Community
  voice : VoiceNetwork UInt64 S R F
  consumed : ℕ

namespace Conversation
variable {S R F : Type}

def new : Conversation S R F := ⟨.new,.new,0⟩

/-- A call draws its request id for both halves of its client. -/
inductive Label (F : Type)
  | management (label : Community.Label)
  | voice (label : VoiceNetwork.Label UInt64 F)
  | call (id : UInt64) (api : Sdk.Api)
  | authenticateVoice (id voiceToken : UInt64)

def Label.management? : Label F → Option Community.Label
  | .management label => some label
  | .voice _ => none
  | .call id api => some (.client id (.call api))
  | .authenticateVoice id _ => some (.client id .authenticateVoice)

def Label.voice? : Label F → Option (VoiceNetwork.Label UInt64 F)
  | .management _ => none
  | .voice label => some label
  | .call id _ => some (.client id .requestOverTcp)
  | .authenticateVoice id voiceToken => some (.client id (.authenticateVoice voiceToken))

/-- The labels of one half alone. -/
def OfManagement : Community.Label → Prop
  | .client _ (.call _) => False
  | .client _ .authenticateVoice => False
  | _ => True

def OfVoice : VoiceNetwork.Label UInt64 F → Prop
  | .relay (.event _) _ => False
  | .client _ .requestOverTcp => False
  | .client _ (.authenticateVoice _) => False
  | _ => True

section Steps
variable [Zero F] (opus : OpusEncoder S F) (rubato : AudioResampler R F)
  (newEncoder : Except VoiceError S) (newResampler : UInt32 → Except VoiceError R)

/-- The relay's next event is the oldest in the queue, and a client authenticates with the
token of its login. -/
inductive Step (s : Conversation S R F) : Label F → Conversation S R F → Prop
  | management {label c} (hown : OfManagement label) (h : Community.Step s.community label c) :
      Step s (.management label) { s with community := c }
  | voice {label w} (hown : OfVoice label)
      (h : VoiceNetwork.Step opus rubato newEncoder newResampler s.voice label w) :
      Step s (.voice label) { s with voice := w }
  | event {e w} (he : s.community.server.events[s.consumed]? = some e)
      (h : VoiceNetwork.Step opus rubato newEncoder newResampler s.voice (.relay (.event e) []) w) :
      Step s (.voice (.relay (.event e) [])) { s with voice := w, consumed := s.consumed + 1 }
  | call {id api c w} (h : Community.Step s.community (.client id (.call api)) c)
      (hvoice : VoiceNetwork.Step opus rubato newEncoder newResampler s.voice (.client id .requestOverTcp) w) :
      Step s (.call id api) { s with community := c, voice := w }
  | authenticateVoice {id voiceToken c w} (hlogin : Community.LoggedIn (s.community.clients id) voiceToken)
      (h : Community.Step s.community (.client id .authenticateVoice) c)
      (hvoice : VoiceNetwork.Step opus rubato newEncoder newResampler s.voice
        (.client id (.authenticateVoice voiceToken)) w) :
      Step s (.authenticateVoice id voiceToken) { s with community := c, voice := w }

end Steps

/-- Every client connects once over TCP and no write fails there; no address is accepted again
while it is in use. -/
def ConnectsOnce (s : Conversation S R F) (label : Label F) : Prop :=
  ∀ l, label.management? = some l → Community.Undisturbed s.community l ∧ Community.Apart s.community l

/-- Besides, no two sockets have one address. -/
def Orderly (s : Conversation S R F) (label : Label F) : Prop :=
  ConnectsOnce s label ∧ ∀ l, label.voice? = some l → VoiceNetwork.Unshared s.voice l

/-- The tokens of the relay and those of the clients are made by the management server. -/
structure Founded (trace : List (Label F)) (s : Conversation S R F) : Prop where
  issued : ∀ id voiceToken, VoiceNetwork.Issued (trace.filterMap Label.voice?) id voiceToken →
    s.community.server.MadeFor id voiceToken
  presented : ∀ id, ∀ voiceToken ∈ VoiceClient.presented
      ((trace.filterMap Label.voice?).filterMap (VoiceNetwork.Label.client? id)),
    voiceToken = 0 ∨ s.community.server.MadeFor id voiceToken

/-- The token was made for this user only, is not that of a login turned down, and no other
host guesses it. -/
structure Secret (userId secret : UInt64) (trace : List (Label F)) (s : Conversation S R F) : Prop where
  made : s.community.server.MadeFor userId secret
  only : ∀ id, s.community.server.MadeFor id secret → id = userId
  nonzero : secret ≠ 0
  others : ∀ src bytes, .voice (.other src bytes) ∈ trace → ∀ requestId n,
    Packet.decode (Voice.received bytes) ≠ .ok (.voiceAuthRequest requestId secret,n)

/-! ## The parts of a run -/

section Runs
variable [Zero F] {opus : OpusEncoder S F} {rubato : AudioResampler R F}
  {newEncoder : Except VoiceError S} {newResampler : UInt32 → Except VoiceError R}
  {trace : List (Label F)} {s s' : Conversation S R F}

theorem run_connectsOnce (h : Run (Guarded Orderly (Step opus rubato newEncoder newResampler)) new trace s) :
    Run (Guarded ConnectsOnce (Step opus rubato newEncoder newResampler)) new trace s :=
  h.mono fun _ _ _ hs => ⟨hs.1.1,hs.2⟩

theorem community_run (h : Run (Guarded ConnectsOnce (Step opus rubato newEncoder newResampler)) new trace s) :
    Run (Guarded (fun s label => Community.Undisturbed s label ∧ Community.Apart s label) Community.Step)
      .new (trace.filterMap Label.management?) s.community := by
  refine h.project Conversation.community Label.management? ?_ ?_
  · rintro t label u l ⟨hguard,hstep⟩ hlabel
    refine ⟨hguard l hlabel,?_⟩
    cases hstep with
    | management _ hc =>
      cases hlabel
      exact hc
    | voice => cases hlabel
    | event => cases hlabel
    | call hc =>
      cases hlabel
      exact hc
    | authenticateVoice _ hc =>
      cases hlabel
      exact hc
  · rintro t label u ⟨_,hstep⟩ hlabel
    cases hstep with
    | voice => rfl
    | event => rfl
    | _ => cases hlabel

/-- From any state on. -/
theorem voice_run {t : Conversation S R F}
    (h : Run (Guarded Orderly (Step opus rubato newEncoder newResampler)) t trace s) :
    Run (Guarded VoiceNetwork.Unshared (VoiceNetwork.Step opus rubato newEncoder newResampler))
      t.voice (trace.filterMap Label.voice?) s.voice := by
  refine h.project Conversation.voice Label.voice? ?_ ?_
  · rintro t label u l ⟨hguard,hstep⟩ hlabel
    refine ⟨hguard.2 l hlabel,?_⟩
    cases hstep with
    | management => cases hlabel
    | voice _ hv =>
      cases hlabel
      exact hv
    | event _ hv =>
      cases hlabel
      exact hv
    | call _ hv =>
      cases hlabel
      exact hv
    | authenticateVoice _ _ hv =>
      cases hlabel
      exact hv
  · rintro t label u ⟨_,hstep⟩ hlabel
    cases hstep with
    | management => rfl
    | _ => cases hlabel

/-- The two servers. -/
def servers (s : Conversation S R F) : Servers := ⟨s.community.server,s.voice.relay,s.consumed⟩

def Label.servers? : Label F → Option System.Label
  | .management (.server label) => some (.management label)
  | .voice (.relay input sends) => some (.relay input sends)
  | _ => none

omit [Zero F] in
theorem community_client {t u : Community} {id : UInt64} {label : Client.Label}
    (h : Community.Step t (.client id label) u) : u.server = t.server := by
  cases h
  rfl

theorem voice_client {t u : VoiceNetwork UInt64 S R F} {id : UInt64} {label : VoiceClient.Label F}
    (h : VoiceNetwork.Step opus rubato newEncoder newResampler t (.client id label) u) : u.relay = t.relay := by
  cases h
  rfl

theorem servers_run (h : Run (Guarded ConnectsOnce (Step opus rubato newEncoder newResampler)) new trace s) :
    Run System.Step Servers.new (trace.filterMap Label.servers?) s.servers := by
  refine h.project servers Label.servers? ?_ ?_
  · rintro t label u l ⟨_,hstep⟩ hlabel
    cases hstep with
    | @management label c _ hc =>
      cases label with
      | server label =>
        cases hlabel
        cases hc with
        | server hserver => exact .management hserver
      | client => cases hlabel
    | @voice label w hown hv =>
      cases label with
      | relay input sends =>
        cases hlabel
        cases hv with
        | relay hrelay =>
          cases input with
          | event e => exact hown.elim
          | datagram src bytes => exact .datagram hrelay
          | receiveError =>
            cases hrelay
            exact .receiveError
      | _ => cases hlabel
    | event he hv =>
      cases hlabel
      cases hv with
      | relay hrelay => exact .event he hrelay
    | call => cases hlabel
    | authenticateVoice => cases hlabel
  · rintro t label u ⟨_,hstep⟩ hlabel
    cases hstep with
    | @management label c _ hc =>
      cases label with
      | server label => cases hlabel
      | client id label => rw [servers,community_client hc,servers]
    | @voice label w hown hv =>
      cases label with
      | relay => cases hlabel
      | other =>
        cases hv
        rfl
      | client id label => rw [servers,voice_client hv,servers]
    | event => cases hlabel
    | call hc hv => rw [servers,community_client hc,voice_client hv,servers]
    | authenticateVoice _ hc hv => rw [servers,community_client hc,voice_client hv,servers]

omit [Zero F] in
/-- A step of the management half alone draws no request id. -/
theorem community_ids {t u : Community} {label : Community.Label} (hown : OfManagement label)
    (h : Community.Step t label u) (id : UInt64) :
    (u.clients id).requestIdCounter = (t.clients id).requestIdCounter := by
  cases h with
  | server => rfl
  | @client id₂ l client' hclient =>
    change (Function.update t.clients id₂ client' id).requestIdCounter = _
    by_cases hid : id = id₂
    · rw [hid,Function.update_self]
      cases hclient with
      | call => exact hown.elim
      | authenticateVoice => exact hown.elim
      | _ => rfl
    · rw [Function.update_of_ne hid]

/-- A step of the voice half alone draws no request id. -/
theorem voice_ids {t u : VoiceNetwork UInt64 S R F} {label : VoiceNetwork.Label UInt64 F}
    (hdraws : ∀ id, label ≠ .client id .requestOverTcp)
    (hauth : ∀ id voiceToken, label ≠ .client id (.authenticateVoice voiceToken))
    (h : VoiceNetwork.Step opus rubato newEncoder newResampler t label u) (id : UInt64) :
    (u.clients id).requestIdCounter = (t.clients id).requestIdCounter := by
  cases h with
  | relay => rfl
  | other => rfl
  | @client id₂ l v hclient =>
    change (Function.update t.clients id₂ v id).requestIdCounter = _
    by_cases hid : id = id₂
    · rw [hid,Function.update_self]
      cases hclient with
      | requestOverTcp => exact (hdraws id₂ rfl).elim
      | authenticateVoice => exact (hauth id₂ _ rfl).elim
      | _ => rfl
    · rw [Function.update_of_ne hid]

/-- The halves of a client count their request ids together. -/
theorem run_counter (h : Run (Guarded Orderly (Step opus rubato newEncoder newResampler)) new trace s) :
    ∀ id, (s.voice.clients id).requestIdCounter = (s.community.clients id).requestIdCounter := by
  refine h.preserves (P := fun s : Conversation S R F => ∀ id,
    (s.voice.clients id).requestIdCounter = (s.community.clients id).requestIdCounter) ?_ fun _ => rfl
  rintro s label s' hcounter ⟨_,hs⟩ id
  -- a request id is drawn by both halves of one client
  have hdraw : ∀ (id₂ : UInt64) {c : Client} {v : VoiceClient S R F}, v.requestIdCounter = c.requestIdCounter →
      (Function.update s.voice.clients id₂ v id).requestIdCounter =
        (Function.update s.community.clients id₂ c id).requestIdCounter := by
    intro id₂ c v hsame
    by_cases hid : id = id₂
    · rw [hid,Function.update_self,Function.update_self,hsame]
    · rw [Function.update_of_ne hid,Function.update_of_ne hid,hcounter id]
  cases hs with
  | management hown hc => exact (hcounter id).trans (community_ids hown hc id).symm
  | @voice label w hown hv =>
    refine (voice_ids ?_ ?_ hv id).trans (hcounter id)
    · rintro id' rfl
      exact hown
    · rintro id' voiceToken rfl
      exact hown
  | event _ hv => exact (voice_ids (by simp) (by simp) hv id).trans (hcounter id)
  | @call id₂ api c w hc hv =>
    cases hc with
    | client hclient =>
      cases hclient
      cases hv with
      | client hvoice =>
        cases hvoice
        exact hdraw id₂ (congrArg (· + 1) (hcounter id₂))
  | @authenticateVoice id₂ voiceToken c w _ hc hv =>
    cases hc with
    | client hclient =>
      cases hclient
      cases hv with
      | client hvoice =>
        cases hvoice
        exact hdraw id₂ (congrArg (· + 1) (hcounter id₂))

/-! ## Where the tokens come from -/

theorem server_run (h : Run (Guarded Orderly (Step opus rubato newEncoder newResampler)) new trace s) :
    Run (Guarded liveApart.guard Management.Step) .new
      ((trace.filterMap Label.management?).filterMap Community.Label.server?) s.community.server :=
  Community.server_run (community_run (run_connectsOnce h))

theorem step_made (hr : Run (Guarded Orderly (Step opus rubato newEncoder newResampler)) new trace s)
    {label : Label F} (hs : Step opus rubato newEncoder newResampler s label s') {id voiceToken : UInt64}
    (h : s.community.server.MadeFor id voiceToken) : s'.community.server.MadeFor id voiceToken := by
  cases hs with
  | management _ hc =>
    cases hc with
    | server hserver => exact step_madeFor (server_run hr) hserver h
    | client => exact h
  | voice => exact h
  | event => exact h
  | call hc =>
    rw [← community_client hc] at h
    exact h
  | authenticateVoice _ hc =>
    rw [← community_client hc] at h
    exact h

/-- The relay has the token from the management server. -/
theorem step_issued (hr : Run (Guarded Orderly (Step opus rubato newEncoder newResampler)) new trace s)
    {label : Label F} (hs : Step opus rubato newEncoder newResampler s label s') {id voiceToken : UInt64}
    {sends : List Voice.Send}
    (hlabel : label.voice? = some (.relay (.event (.userConnected id voiceToken)) sends)) :
    s.community.server.MadeFor id voiceToken := by
  cases hs with
  | management => cases hlabel
  | voice hown =>
    cases hlabel
    exact hown.elim
  | event he =>
    cases hlabel
    exact run_told_token (server_run hr) (List.mem_of_getElem? he)
  | call => cases hlabel
  | authenticateVoice => cases hlabel

/-- A client has the token from its own login. -/
theorem step_presented (hr : Run (Guarded Orderly (Step opus rubato newEncoder newResampler)) new trace s)
    {label : Label F} (hs : Step opus rubato newEncoder newResampler s label s') {id voiceToken : UInt64}
    (hlabel : label.voice? = some (.client id (.authenticateVoice voiceToken))) :
    voiceToken = 0 ∨ s.community.server.MadeFor id voiceToken := by
  cases hs with
  | management => cases hlabel
  | voice hown =>
    cases hlabel
    exact hown.elim
  | event => cases hlabel
  | call => cases hlabel
  | authenticateVoice hlogin =>
    cases hlabel
    exact Community.loggedIn_own (community_run (run_connectsOnce hr)) hlogin

theorem step_founded (hr : Run (Guarded Orderly (Step opus rubato newEncoder newResampler)) new trace s)
    (h : Founded trace s) {label : Label F} (hs : Step opus rubato newEncoder newResampler s label s') :
    Founded (trace ++ [label]) s' := by
  constructor
  · rintro id voiceToken ⟨sends,hmem⟩
    refine step_made hr hs ?_
    rw [List.filterMap_append,List.mem_append] at hmem
    rcases hmem with hmem | hmem
    · exact h.issued id voiceToken ⟨sends,hmem⟩
    · obtain ⟨label',hlabel,hvoice⟩ := List.mem_filterMap.mp hmem
      rw [List.mem_singleton.mp hlabel] at hvoice
      exact step_issued hr hs hvoice
  · intro id voiceToken hmem
    have hbefore : voiceToken = 0 ∨ s.community.server.MadeFor id voiceToken := by
      rw [List.filterMap_append,List.filterMap_append,VoiceClient.presented_append,List.mem_append] at hmem
      rcases hmem with hmem | hmem
      · exact h.presented id voiceToken hmem
      · obtain ⟨l,hl,htoken⟩ := List.mem_filterMap.mp hmem
        obtain ⟨l',hl',hclient⟩ := List.mem_filterMap.mp hl
        obtain ⟨label',hlabel,hvoice⟩ := List.mem_filterMap.mp hl'
        rw [List.mem_singleton.mp hlabel] at hvoice
        cases l' with
        | client id₂ l₂ =>
          rw [VoiceNetwork.Label.client?] at hclient
          split at hclient
          · rename_i hid
            cases hclient
            cases l with
            | authenticateVoice token =>
              cases htoken
              rw [hid] at hvoice
              exact step_presented hr hs hvoice
            | _ => cases htoken
          · cases hclient
        | _ => cases hclient
    exact hbefore.imp_right (step_made hr hs)

theorem run_founded (h : Run (Guarded Orderly (Step opus rubato newEncoder newResampler)) new trace s) :
    Founded trace s := by
  induction h with
  | refl =>
    constructor
    · rintro id voiceToken ⟨sends,hmem⟩
      cases hmem
    · intro id voiceToken hmem
      cases hmem
  | snoc hr hs ih => exact step_founded hr ih hs.2

/-! ## Runs of the parts -/

/-- The clients have drawn their request ids together with those of the voice half. -/
def counted (c : Community) (w : VoiceNetwork UInt64 S R F) : Community :=
  ⟨c.server,fun id => { c.clients id with requestIdCounter := (w.clients id).requestIdCounter }⟩

/-- Nothing has happened in the voice half but the requests over TCP. -/
def unheard (c : Community) : VoiceNetwork UInt64 S R F :=
  ⟨.new,fun id => VoiceNetwork.fresh (c.clients id).requestIdCounter,[],[]⟩

def Label.ofManagement : Community.Label → Label F
  | .client id (.call api) => .call id api
  | label => .management label

def Label.ofVoice : VoiceNetwork.Label UInt64 F → Label F
  | .client id (.authenticateVoice voiceToken) => .authenticateVoice id voiceToken
  | label => .voice label

/-- The event that the relay is told of. -/
def eventOf : VoiceNetwork.Label UInt64 F → Option Server.Event
  | .relay (.event e) _ => some e
  | _ => none

omit [Zero F] in
theorem unheard_update (w : VoiceNetwork UInt64 S R F) (c : Community) (id : UInt64) (client : Client)
    (hw : w = unheard c) : unheard { c with clients := Function.update c.clients id client } =
      { w with clients := Function.update w.clients id (VoiceNetwork.fresh client.requestIdCounter) } := by
  subst hw
  refine congrArg (fun clients => (⟨.new,clients,[],[]⟩ : VoiceNetwork UInt64 S R F)) (funext fun id₂ => ?_)
  exact Function.apply_update (fun _ client => VoiceNetwork.fresh client.requestIdCounter) c.clients id client id₂

/-- What the management server and its connections do alone is part of a run of the whole. -/
theorem management_lifts {c : Community} {tr : List Community.Label}
    (h : Run (Guarded (fun s label => Community.Undisturbed s label ∧ Community.Apart s label) Community.Step)
      .new tr c) (hauth : ∀ id, .client id .authenticateVoice ∉ tr) :
    Run (Guarded Orderly (Step opus rubato newEncoder newResampler)) new (tr.map Label.ofManagement)
      ⟨c,unheard c,0⟩ := by
  induction h with
  | refl => exact .refl
  | @snoc tr t label u hr hs ih =>
    obtain ⟨hguard,hs⟩ := hs
    rw [List.map_append]
    refine (ih fun id hmem => hauth id (List.mem_append_left _ hmem)).snoc ?_
    have hlast : ∀ id, label ≠ .client id .authenticateVoice := by
      rintro id rfl
      exact hauth id (List.mem_append_right _ (List.mem_singleton_self _))
    have halone : OfManagement label → Guarded Orderly (Step opus rubato newEncoder newResampler)
        ⟨t,unheard t,0⟩ (.management label) ⟨u,unheard u,0⟩ := by
      intro hown
      have hsame : (unheard u : VoiceNetwork UInt64 S R F) = unheard t := by
        unfold unheard
        simp only [community_ids hown hs]
      rw [hsame]
      refine ⟨⟨?_,fun l hl => (by cases hl)⟩,.management hown hs⟩
      rintro l ⟨⟩
      exact hguard
    cases label with
    | server label => exact halone trivial
    | client id label =>
      cases label with
      | authenticateVoice => exact (hlast id rfl).elim
      | call api =>
        refine ⟨⟨?_,?_⟩,.call hs ?_⟩
        · rintro l ⟨⟩
          exact hguard
        · rintro l ⟨⟩
          trivial
        · cases hs with
          | client hclient =>
            cases hclient with
            | call hid =>
              have hdrawn : VoiceClient.Step opus rubato newEncoder newResampler
                ((unheard t : VoiceNetwork UInt64 S R F).clients id) .requestOverTcp
                (VoiceNetwork.fresh ((t.clients id).requestIdCounter + 1)) := .requestOverTcp hid
              rw [unheard_update _ t id _ rfl]
              exact .client hdrawn fun d hd => (by cases hd)
      | _ => exact halone trivial

omit [Zero F] in
theorem counted_same (c : Community) {t u : VoiceNetwork UInt64 S R F}
    (h : ∀ id, (u.clients id).requestIdCounter = (t.clients id).requestIdCounter) : counted c u = counted c t := by
  unfold counted
  simp only [h]

omit [Zero F] in
theorem counted_update (c : Community) (t : VoiceNetwork UInt64 S R F) (id : UInt64) (v : VoiceClient S R F)
    (uplink : List (Server.SocketAddr × Bytes)) :
    counted c { t with clients := Function.update t.clients id v, uplink := uplink } =
      ⟨c.server,Function.update (counted c t).clients id
        { c.clients id with requestIdCounter := v.requestIdCounter }⟩ := by
  refine congrArg (Community.mk c.server) (funext fun id₂ => ?_)
  exact Function.apply_update (fun id (v : VoiceClient S R F) =>
    ({ c.clients id with requestIdCounter := v.requestIdCounter } : Client)) t.clients id v id₂

/-- What goes on between the clients and the relay alone is part of a run of the whole, if the
relay is told of the events in the queue and the tokens are those of logins. -/
theorem voice_lifts {c : Community} {w w' : VoiceNetwork UInt64 S R F} {tr : List (VoiceNetwork.Label UInt64 F)}
    (h : Run (Guarded VoiceNetwork.Unshared (VoiceNetwork.Step opus rubato newEncoder newResampler)) w tr w')
    (n : ℕ) (hevents : tr.filterMap eventOf <+: c.server.events.drop n)
    (hlogin : ∀ id voiceToken, .client id (.authenticateVoice voiceToken) ∈ tr →
      Community.LoggedIn (c.clients id) voiceToken)
    (htcp : ∀ id, .client id .requestOverTcp ∉ tr) :
    Run (Guarded Orderly (Step opus rubato newEncoder newResampler)) ⟨counted c w,w,n⟩ (tr.map Label.ofVoice)
      ⟨counted c w',w',n + (tr.filterMap eventOf).length⟩ := by
  induction h with
  | refl => exact .refl
  | @snoc tr t label u hr hs ih =>
    rw [List.filterMap_append] at hevents
    have hbefore := ih ((List.prefix_append _ _).trans hevents)
      (fun id voiceToken hmem => hlogin id voiceToken (List.mem_append_left _ hmem))
      fun id hmem => htcp id (List.mem_append_left _ hmem)
    rw [List.map_append,List.filterMap_append,List.length_append,← Nat.add_assoc]
    refine hbefore.snoc ?_
    obtain ⟨hunshared,hs⟩ := hs
    have hlast : ∀ {l}, l = label → l ∈ tr ++ [label] := by
      rintro l rfl
      exact List.mem_append_right _ (List.mem_singleton_self _)
    have halone : OfVoice label → Label.ofVoice label = .voice label → [label].filterMap eventOf = [] →
        (∀ id, label ≠ .client id .requestOverTcp) →
        (∀ id voiceToken, label ≠ .client id (.authenticateVoice voiceToken)) →
        Guarded Orderly (Step opus rubato newEncoder newResampler)
          ⟨counted c t,t,n + (tr.filterMap eventOf).length⟩ (Label.ofVoice label)
          ⟨counted c u,u,n + (tr.filterMap eventOf).length + ([label].filterMap eventOf).length⟩ := by
      intro hown hlabel hnone hdraws hauth
      rw [hlabel,hnone,counted_same c (voice_ids hdraws hauth hs)]
      refine ⟨⟨fun l hl => (by cases hl),?_⟩,.voice hown hs⟩
      rintro l ⟨⟩
      exact hunshared
    cases label with
    | other src bytes => exact halone trivial rfl rfl (by simp) (by simp)
    | relay input sends =>
      cases input with
      | datagram src bytes => exact halone trivial rfl rfl (by simp) (by simp)
      | receiveError => exact halone trivial rfl rfl (by simp) (by simp)
      | event e =>
        obtain ⟨rest,hrest⟩ := hevents
        have he : c.server.events[n + (tr.filterMap eventOf).length]? = some e := by
          rw [← List.getElem?_drop,← hrest]
          simp [eventOf]
        cases hs with
        | relay hrelay hlink =>
          cases hrelay with
          | event hcache =>
            refine ⟨⟨fun l hl => (by cases hl),?_⟩,.event he (.relay (.event hcache) hlink)⟩
            rintro l ⟨⟩
            exact hunshared
    | client id label =>
      cases label with
      | requestOverTcp => exact (htcp id (hlast rfl)).elim
      | authenticateVoice voiceToken =>
        cases hs with
        | client hclient hlink =>
          cases hclient with
          | authenticateVoice hid hask =>
            rw [counted_update]
            refine ⟨⟨?_,?_⟩,.authenticateVoice (hlogin id voiceToken (hlast rfl))
              (.client (.authenticateVoice hid) fun k bytes _ hk => (by cases hk))
              (.client (.authenticateVoice hid hask) hlink)⟩
            · rintro l ⟨⟩
              exact ⟨trivial,trivial⟩
            · rintro l ⟨⟩
              exact hunshared
      | connect addr => exact halone trivial rfl rfl (by simp) (by simp)
      | call label => exact halone trivial rfl rfl (by simp) (by simp)
      | pipeline label => exact halone trivial rfl rfl (by simp) (by simp)

/-! ## Who is heard, and by whom -/

omit [Zero F] in
theorem Founded.confidential (h : Founded trace s) {userId secret : UInt64}
    (hsecret : Secret userId secret trace s) :
    VoiceNetwork.Confidential userId userId secret (trace.filterMap Label.voice?) := by
  constructor
  · intro voiceToken hissued
    obtain ⟨c,hc,rfl⟩ := h.issued userId voiceToken hissued
    obtain ⟨c',hc',rfl⟩ := hsecret.made
    cases hc.symm.trans hc'
    rfl
  · intro src bytes hmem requestId n
    obtain ⟨label,hlabel,hvoice⟩ := List.mem_filterMap.mp hmem
    cases label with
    | voice l =>
      cases hvoice
      exact hsecret.others src bytes hlabel requestId n
    | _ => cases hvoice
  · intro q hmem
    rcases h.presented q secret hmem with hzero | hmade
    · exact (hsecret.nonzero hzero).elim
    · exact hsecret.only q hmade

/-- Who is heard as a user with a secret token is the client on the user's own connection. -/
theorem heard_as_themselves {q userId secret : UInt64} {sequence timestamp : UInt32} {frame : Bytes}
    (h : Run (Guarded Orderly (Step opus rubato newEncoder newResampler)) new trace s)
    (hsecret : Secret userId secret trace s)
    (hmem : .voiceData userId sequence timestamp frame ∈ (s.voice.clients q).udp.handler.packetTx) :
    ∃ i rate s' resampler,
      (InputOutputManager.rates (VoiceNetwork.pipelineTrace userId (trace.filterMap Label.voice?)))[i]? = some rate ∧
      InputOutputManager.create newEncoder newResampler rate = .ok (InputPipeline.new (F := F) s' resampler) ∧
      ∃ claimed, .voiceData claimed sequence timestamp frame ∈ voicePackets opus s' 0 (framesOf.split
        (encoderInput rubato resampler (InputOutputManager.spoken i
          (VoiceNetwork.pipelineTrace userId (trace.filterMap Label.voice?))).flatten)).1 := by
  have hvoice := voice_run h
  obtain ⟨d,hd,rfl,rfl,rfl⟩ :=
    VoiceNetwork.handed_on_queued hvoice ((run_founded h).confidential hsecret) hmem
  have hpipelines := VoiceNetwork.run_pipelines
    (VoiceNetwork.run_client (hvoice.mono fun _ _ _ hs => hs.2) userId)
  obtain ⟨i,rate,s',resampler,hrate,hcreate,hpacket⟩ :=
    (InputOutputManager.run_voiced hpipelines).packet_of_queued hd
  exact ⟨i,rate,s',resampler,hrate,hcreate,d.userId,hpacket⟩

/-- Datagrams are sent by the relay. -/
theorem step_sent {label : Label F} (hs : Step opus rubato newEncoder newResampler s label s')
    {send : Voice.Send} (hsend : send ∈ s'.voice.downlink) (hnot : send ∉ s.voice.downlink) :
    ∃ input sends r, label = .voice (.relay input sends) ∧ Voice.Step s.voice.relay (input,sends) r ∧
      send ∈ sends := by
  have hrelay : ∀ {l w}, VoiceNetwork.Step opus rubato newEncoder newResampler s.voice l w →
      send ∈ w.downlink → ∃ input sends r, l = .relay input sends ∧
        Voice.Step s.voice.relay (input,sends) r ∧ send ∈ sends := by
    intro l w hv hmem
    cases hv with
    | relay hturn =>
      rcases List.mem_append.mp hmem with hold | hnew
      · exact (hnot hold).elim
      · exact ⟨_,_,_,rfl,hturn,hnew⟩
    | other => exact (hnot hmem).elim
    | client => exact (hnot hmem).elim
  cases hs with
  | management => exact (hnot hsend).elim
  | voice _ hv =>
    obtain ⟨input,sends,r,rfl,hturn⟩ := hrelay hv hsend
    exact ⟨input,sends,r,rfl,hturn⟩
  | event _ hv =>
    obtain ⟨input,sends,r,hlabel,hturn⟩ := hrelay hv hsend
    exact ⟨input,sends,r,congrArg Label.voice hlabel,hturn⟩
  | call _ hv =>
    obtain ⟨_,_,_,hlabel,_⟩ := hrelay hv hsend
    cases hlabel
  | authenticateVoice _ _ hv =>
    obtain ⟨_,_,_,hlabel,_⟩ := hrelay hv hsend
    cases hlabel

/-- A user in the channel has asked to join it, and not asked to leave since, as far as the
relay has been told: the relay knows of its moves what its client has asked for, in order. -/
theorem joined_asked (h : Run (Guarded ConnectsOnce (Step opus rubato newEncoder newResampler)) new trace s)
    {id voiceToken : UInt64}
    (hsession : sessionOf id (s.community.server.events.take s.consumed) = some (voiceToken,true)) :
    ∃ requests requestId, List.Forall₂ (Moves id) (requests ++ [.joinVoiceChannelRequest requestId])
      ((s.community.server.events.take s.consumed).filter (mover · = some id)) ∧
    (requests ++ [.joinVoiceChannelRequest requestId]).Sublist (Community.asked (s.community.clients id)) := by
  obtain ⟨requests,hmoves,hasked,_⟩ := Community.moves_asked (community_run h) id
  obtain ⟨moves,hlast⟩ := last_move_joins hsession
  obtain ⟨more,hmore⟩ := (List.take_prefix s.consumed s.community.server.events).filter (mover · = some id)
  rw [← hmore,hlast] at hmoves
  obtain ⟨taken,htaken,hsub⟩ : ∃ taken, List.Forall₂ (Moves id) taken (moves ++ [.voiceJoined id]) ∧
      taken.Sublist (Community.asked (s.community.clients id)) :=
    ⟨_,List.forall₂_take_append requests _ more hmoves,(List.take_sublist _ _).trans hasked⟩
  obtain ⟨request,_,hmove,hnil,hone⟩ :=
    List.forall₂_cons_right_iff.mp (List.forall₂_drop_append taken moves [.voiceJoined id] htaken)
  cases hnil
  cases request with
  | joinVoiceChannelRequest requestId =>
    have hsplit : taken = taken.take moves.length ++ [.joinVoiceChannelRequest requestId] := by
      rw [← hone,List.take_append_drop]
    rw [hsplit] at htaken hsub
    rw [hlast]
    exact ⟨_,requestId,htaken,hsub⟩
  | _ => exact hmove.elim

/-- Nobody is in the channel for the relay who has not asked for it. -/
theorem joined_by_themselves (h : Run (Guarded ConnectsOnce (Step opus rubato newEncoder newResampler)) new trace s)
    {id : UInt64} {session : Voice.VoiceSession} (hl : s.voice.relay.sessions.lookup id = some session)
    (hvoice : session.inVoice = true) : ∃ requests requestId,
    List.Forall₂ (Moves id) (requests ++ [.joinVoiceChannelRequest requestId])
      ((s.community.server.events.take s.consumed).filter (mover · = some id)) ∧
    (requests ++ [.joinVoiceChannelRequest requestId]).Sublist (Community.asked (s.community.clients id)) := by
  have hsession := (run_follows (servers_run h)).sessions id
  change held s.voice.relay id = sessionOf id (s.community.server.events.take s.consumed) at hsession
  rw [held,hl,Option.map_some,view,hvoice] at hsession
  exact joined_asked h hsession.symm

/-- Whoever is handed voice is not the speaker, and the relay has sent it the voice when it was
in the channel by the events that the relay had taken; the last of its moves was to join,
which its client had asked for. -/
theorem heard_in_channel {q userId : UInt64} {sequence timestamp : UInt32} {frame : Bytes}
    (h : Run (Guarded Orderly (Step opus rubato newEncoder newResampler)) new trace s)
    (hapart : ∀ id id' voiceToken, s.community.server.MadeFor id voiceToken →
      s.community.server.MadeFor id' voiceToken → id = id')
    (hzero : ∀ id, ¬s.community.server.MadeFor id 0)
    (hmem : .voiceData userId sequence timestamp frame ∈ (s.voice.clients q).udp.handler.packetTx) :
    q ≠ userId ∧ ∃ pre post input sends t addr session, trace = pre ++ .voice (.relay input sends) :: post ∧
      Run (Guarded Orderly (Step opus rubato newEncoder newResampler)) new pre t ∧
      t.voice.SendsTo input sends q addr (.voiceData userId sequence timestamp frame) ∧
      t.voice.relay.sessions.lookup q = some session ∧ session.udpAddress = some addr ∧
      sessionOf q (t.community.server.events.take t.consumed) = some (session.token,true) ∧
      ∃ requests requestId, List.Forall₂ (Moves q) (requests ++ [.joinVoiceChannelRequest requestId])
        ((t.community.server.events.take t.consumed).filter (mover · = some q)) ∧
      (requests ++ [.joinVoiceChannelRequest requestId]).Sublist (Community.asked (t.community.clients q)) := by
  have hfounded := run_founded h
  obtain ⟨bytes,addr,n,hdown,haddr,hd⟩ := (VoiceNetwork.run_carried (voice_run h)).handed q _ hmem
  obtain ⟨pre,label,post,t,t',rfl,hpre,hstep,hpost,hnot,hyes⟩ := h.introduced
    (P := fun s => (bytes,addr) ∈ s.voice.downlink) (by simp [new,VoiceNetwork.new]) hdown
  obtain ⟨input,sends,r,rfl,hrelay,hsend⟩ := step_sent hstep.2 hyes hnot
  obtain ⟨hsends,id,session,hne,hl,hvoice,hsession,⟨sends',hissue⟩,hpresented⟩ :=
    VoiceNetwork.turn_sends (voice_run hpre) hrelay hsend hd (voice_run ((Run.single hstep).append hpost)) haddr
  -- the token was made for the user in the channel
  have hmade : s.community.server.MadeFor id session.token := by
    refine hfounded.issued id session.token ⟨sends',?_⟩
    rw [List.filterMap_append]
    exact List.mem_append_left _ hissue
  -- and the client that was sent the voice has got it from its login
  have howned : session.token ∈ VoiceClient.presented
      (((pre ++ .voice (.relay input sends) :: post).filterMap Label.voice?).filterMap
        (VoiceNetwork.Label.client? q)) := by
    rw [List.filterMap_append,List.filterMap_append,VoiceClient.presented_append]
    exact List.mem_append_left _ hpresented
  have hq : q = id := by
    rcases hfounded.presented q session.token howned with hnull | hown
    · rw [hnull] at hmade
      exact (hzero id hmade).elim
    · exact hapart q id session.token hown hmade
  subst hq
  have hheld := (run_follows (servers_run (run_connectsOnce hpre))).sessions q
  change held t.voice.relay q = sessionOf q (t.community.server.events.take t.consumed) at hheld
  rw [held,hl,Option.map_some,view,hvoice] at hheld
  exact ⟨hne,pre,post,input,sends,t,addr,session,rfl,hpre,hsends,hl,hsession,hheld.symm,
    joined_asked (run_connectsOnce hpre) hheld.symm⟩

end Runs
end Conversation

/-! ## Two users

Bob is user 1 and speaks; Ann is user 2, who has joined the channel and hears him.
-/

namespace Community

/-- A client that has sent its login. -/
def asking (username : String) (data : Bytes) : Client where
  requestIdCounter := 2
  sendTx := [⟨data,some (1,0)⟩]
  taken := 1
  tasks := [⟨⟨Sdk.Pending.new.register 1 0,[],[]⟩,true,data,[]⟩]
  calls := [⟨.authenticateManagement username,1,.waiting⟩]

theorem asks_login {username : String} {data : Bytes}
    (hdata : (Packet.loginRequest 1 username).encode = some data) :
    Run (Guarded Client.OneConnection Client.Step) .new
      [.connect,.call (.authenticateManagement username),.send 0,.outgoing 0 true] (asking username data) := by
  have h₁ := (Run.refl (s := Client.new)).snoc (moves .connect .connect rfl)
  have h₂ := h₁.snoc (moves (.call (.authenticateManagement username)) (.call (by decide)) trivial)
  have h₃ := h₂.snoc (moves (.send 0) (.send rfl rfl hdata) trivial)
  have h₄ := h₃.snoc (moves (.outgoing 0 true)
    (.outgoing rfl rfl rfl (List.prefix_refl _) fun _ => rfl) rfl)
  exact h₄

/-- A client that has sent a request to join behind its login. -/
def askingToJoin (username : String) (data request : Bytes) : Client where
  requestIdCounter := 3
  sendTx := [⟨data,some (1,0)⟩,⟨request,some (2,1)⟩]
  taken := 2
  tasks := [⟨⟨(Sdk.Pending.new.register 1 0).register 2 1,[],[]⟩,true,data ++ request,[]⟩]
  calls := [⟨.authenticateManagement username,1,.waiting⟩,⟨.joinChannel,2,.waiting⟩]

theorem asks_to_join {username : String} {data request : Bytes}
    (hrequest : (Packet.joinVoiceChannelRequest 2).encode = some request) :
    Run (Guarded Client.OneConnection Client.Step) (asking username data)
      [.call .joinChannel,.send 1,.outgoing 0 true] (askingToJoin username data request) := by
  have h₁ := (Run.refl (s := asking username data)).snoc (moves (.call .joinChannel)
    (.call (show (2 : UInt64).toNat + 1 < 2 ^ 64 by decide)) trivial)
  have h₂ := h₁.snoc (moves (.send 1) (.send rfl rfl hrequest) trivial)
  have h₃ := h₂.snoc (moves (.outgoing 0 true)
    (.outgoing rfl rfl rfl (List.prefix_refl _) fun _ => rfl) rfl)
  exact h₃

/-- A response reaches the call that waits for it. -/
theorem incoming_response {waiting : Sdk.Pending} {id : UInt64} {tx : Sdk.Oneshot} {written reply : Bytes}
    {response : Packet} (hwait : waiting.waiting.lookup id = some tx) (hreply : response.encode = some reply)
    (hid : response.requestId = some id) :
    (tx,response) ∈ (Sdk.TcpClient.Task.incoming ⟨⟨waiting,[],[]⟩,true,written,[]⟩
      (some reply)).handler.pendingResponses.answered := by
  have hne : reply ≠ [] := by
    rintro rfl
    have hlen := Packet.encode_length hreply
    rw [List.length_nil] at hlen
    omega
  have hanswer : waiting.resolve (some id) response =
      (⟨waiting.waiting.erase id,waiting.answered ++ [(tx,response)]⟩,true) := by
    rw [Sdk.Pending.resolve,hwait]
  have hhandOn : (⟨waiting,[],[]⟩ : Sdk.TcpClient.Handler).handOn [response] =
      ⟨⟨waiting.waiting.erase id,waiting.answered ++ [(tx,response)]⟩,[response],[]⟩ := by
    rw [Sdk.TcpClient.Handler.handOn,List.forM_cons,List.forM_nil]
    change Sdk.TcpClient.Handler.mk (waiting.resolve response.requestId response).1 _ _ = _
    rw [hid,hanswer]
    rfl
  rw [Sdk.TcpClient.Task.incoming,Sdk.TcpClient.handleIncoming_some hne,List.nil_append,
    split_single hreply,hhandOn]
  exact List.mem_append_right _ (List.mem_singleton_self _)

/-- The server's side of the two logins and of Ann's joining. -/
theorem two_users_served {clients : UInt64 → Client} {data₁ data₂ request : Bytes}
    (hdata₁ : (Packet.loginRequest 1 "bob").encode = some data₁)
    (hdata₂ : (Packet.loginRequest 1 "ann").encode = some data₂)
    (hrequest : (Packet.joinVoiceChannelRequest 2).encode = some request)
    (hbob : (clients 1).wire 0 = data₁) (hann : (clients 2).wire 0 = data₂ ++ request) :
    ∃ trace s c₁ c₂ response₁ response₂ more, Run (Serves clients) .new trace s ∧
      s.events = [.userConnected 1 11,.userConnected 2 22,.voiceJoined 2] ∧ s.nextUserId = 3 ∧
      s.connections.lookup 0 = none ∧ s.connections.lookup 1 = some c₁ ∧ s.connections.lookup 2 = some c₂ ∧
      c₁.user.token = 11 ∧ c₂.user.token = 22 ∧ c₁.written = response₁ ∧ c₂.written = response₂ ++ more ∧
      (Packet.loginResponse 1 1 11 [⟨1,"bob",false,false⟩]).encode = some response₁ ∧
      (Packet.loginResponse 1 2 22 [⟨1,"bob",false,false⟩,⟨2,"ann",false,false⟩]).encode = some response₂ := by
  let accepted := (ManagementServer.new.accept (.v4 1 1) 11).accept (.v4 2 2) 22
  let bob : Connection := ⟨⟨1,none,false,false,11⟩,.v4 1 1,.spawned,0,[],[]⟩
  let ann : Connection := ⟨⟨2,none,false,false,22⟩,.v4 2 2,.spawned,0,[],[]⟩
  have hlen₁ : data₁.length ≤ packetBufferSize := by
    rw [Packet.encode_length hdata₁]
    decide
  have hlen₂ : data₂.length ≤ packetBufferSize := by
    rw [Packet.encode_length hdata₂]
    decide
  have hlen₃ : request.length ≤ packetBufferSize := by
    rw [Packet.encode_length hrequest]
    decide
  have hfirst : Serves clients .new (.accept (.v4 1 1) 11) (ManagementServer.new.accept (.v4 1 1) 11) := by
    refine serves (.accept (by decide)) (by simp) (by simp) ?_
    intro id c hc
    simp [ManagementServer.new] at hc
  have hsecond : Serves clients (ManagementServer.new.accept (.v4 1 1) 11) (.accept (.v4 2 2) 22) accepted := by
    refine serves (.accept (by decide)) (by simp) (by simp) ?_
    intro id c hc _
    rw [ManagementServer.accept_connections] at hc
    split at hc
    · cases hc
      simp
    · simp [ManagementServer.new] at hc
  have haccepted := (Run.single hfirst).snoc hsecond
  have hkeys : ∀ a u, accepted.users.lookup a = some u → a ∈ [SocketAddr.v4 1 1,.v4 2 2] := by
    intro a u hu
    rw [ManagementServer.accept_users,ManagementServer.accept_users] at hu
    split at hu
    · simp [*]
    · split at hu
      · simp [*]
      · simp [ManagementServer.new] at hu
  have hnamed : ∀ {users : Table SocketAddr User} (address : SocketAddr) (update : User → User),
      (∀ a u, users.lookup a = some u → a ∈ [SocketAddr.v4 1 1,.v4 2 2]) →
      ∀ a u, (users.modify address update).lookup a = some u → a ∈ [SocketAddr.v4 1 1,.v4 2 2] := by
    intro users address update h a u hu
    rw [Table.lookup_modify] at hu
    split at hu
    · rename_i ha
      obtain ⟨u',hu',_⟩ := Option.map_eq_some_iff.mp hu
      rw [ha]
      exact h address u' hu'
    · exact h a u hu
  obtain ⟨response₁,hresponse₁⟩ :=
    (Packet.encode_isSome_iff (.loginResponse 1 1 11 [⟨1,"bob",false,false⟩])).mpr (by decide)
  obtain ⟨joined₁,hjoined₁⟩ :=
    (Packet.encode_isSome_iff (.userJoinedServer ⟨1,"bob",false,false⟩)).mpr (by decide)
  obtain ⟨response₂,hresponse₂⟩ := (Packet.encode_isSome_iff
    (.loginResponse 1 2 22 [⟨1,"bob",false,false⟩,⟨2,"ann",false,false⟩])).mpr (by decide)
  obtain ⟨joined₂,hjoined₂⟩ :=
    (Packet.encode_isSome_iff (.userJoinedServer ⟨2,"ann",false,false⟩)).mpr (by decide)
  have hconnected₁ := haccepted.snoc (serves (show Management.Step _ (.connect 1) _ from
    .connect (c := bob) rfl rfl) (by simp) (by simp) (liveApart_guard (by simp)))
  have hselect₁ := hconnected₁.snoc (serves (show Management.Step _ (.subscribe 1) _ from
    .subscribe (c := { bob with phase := .connected }) rfl rfl) (by simp) (by simp) (liveApart_guard (by simp)))
  have hlogin₁ := run_login (serves_calm 1) hselect₁ 1 "bob" [.v4 1 1,.v4 2 2] rfl hdata₁ hlen₁ (by decide)
    rfl rfl (by decide) (hnamed _ _ hkeys) hresponse₁ hjoined₁ fun hstep =>
      serves_read (ManagementServer.setConnection_own _ _ _) hstep (by rw [hbob]; exact List.prefix_refl _)
  have hconnected₂ := hlogin₁.snoc (serves (show Management.Step _ (.connect 2) _ from
    .connect (c := ann) rfl rfl) (by simp) (by simp) (liveApart_guard (by simp)))
  have hselect₂ := hconnected₂.snoc (serves (show Management.Step _ (.subscribe 2) _ from
    .subscribe (c := { ann with phase := .connected }) rfl rfl) (by simp) (by simp) (liveApart_guard (by simp)))
  have hlogin₂ := run_login (serves_calm 2) hselect₂ 1 "ann" [.v4 1 1,.v4 2 2] rfl hdata₂ hlen₂ (by decide)
    rfl rfl (by decide) (hnamed _ _ (hnamed _ _ hkeys)) hresponse₂ hjoined₂ fun hstep =>
      serves_read (ManagementServer.setConnection_own _ _ _) hstep (by rw [hann]; exact List.prefix_append _ _)
  -- she asks to join, and the relay is about to be told
  obtain ⟨granted,hgranted⟩ := Packet.plain_encodes (.joinVoiceChannelResponse 2 true) rfl rfl
    (by simp [Packet.payloadLen])
  have hread := hlogin₂.snoc (serves_read (ManagementServer.setConnection_own _ _ _)
    (step_read (r := .ok request) rfl hlen₃) (by rw [hann]; exact List.prefix_refl _))
  rw [handleRead_joinVoiceChannelRequest _ hrequest] at hread
  have hin := run_silent (serves_calm 2) hread
    (o := .getMut (.v4 2 2) fun user => { user with inVoice := true, isMuted := false })
    (r := some ⟨2,some "ann",true,false,22⟩) rfl rfl rfl trivial
  have hencoded := run_silent (serves_calm 2) hin (o := .encode _) rfl hgranted rfl trivial
  have hwritten := run_exec (serves_calm 2) hencoded (o := .write granted) (r := true) rfl trivial rfl rfl
  have hsent := run_silent (serves_calm 2) hwritten (o := .send (.voiceJoined 2)) (r := ()) rfl trivial rfl trivial
  exact ⟨_,_,_,_,response₁,response₂,granted,hsent,rfl,rfl,rfl,rfl,rfl,rfl,rfl,rfl,rfl,hresponse₁,hresponse₂⟩

/-- The response to the first request comes back to its call. -/
theorem replies {c : Community} {id : UInt64} {client : Client} (hclient : c.clients id = client)
    {waiting : Sdk.Pending} {written reply : Bytes} {api : Sdk.Api} {response : Packet}
    (htasks : client.tasks = [⟨⟨waiting,[],[]⟩,true,written,[]⟩])
    (hcall : client.calls[0]? = some ⟨api,1,.waiting⟩) (hwait : waiting.waiting.lookup 1 = some 0)
    (hreply : response.encode = some reply) (hid : response.requestId = some 1)
    (hlen : reply.length ≤ Sdk.TcpClient.readBufSize) (hlink : reply <+: (c.session id).downlink id) :
    ∃ client', Run (Guarded (fun s label => Undisturbed s label ∧ Apart s label) Step) c
        [.client id (.incoming 0 (some reply)),.client id (.respond 0 response)] (c.withClient id client') ∧
      client'.calls[0]? = some ⟨api,1,.returned (some response)⟩ ∧
      client'.requestIdCounter = client.requestIdCounter := by
  subst hclient
  have ht : (c.clients id).tasks[0]? = some ⟨⟨waiting,[],[]⟩,true,written,[]⟩ := by
    rw [htasks]
    rfl
  let t := Sdk.TcpClient.Task.incoming ⟨⟨waiting,[],[]⟩,true,written,[]⟩ (some reply)
  let reading := (c.clients id).setTask 0 t
  have hasked : reading.calls[0]? = some ⟨api,1,.waiting⟩ := hcall
  have hset : reading.tasks[0]? = some t := by
    change ((c.clients id).tasks.set 0 t)[0]? = some t
    rw [htasks]
    rfl
  have hgiven : Client.Step reading (.respond 0 response)
      (reading.setCall 0 ⟨api,1,.returned (some response)⟩) :=
    .respond hasked rfl hset (incoming_response hwait hreply hid)
  have hrespond := client_lifts (Run.single (moves (.respond 0 response) hgiven trivial)) (by simp) c id
  refine ⟨_,(Run.single (client_reads ht rfl hlen hlink)).append hrespond,?_,rfl⟩
  change ((c.clients id).calls.set 0 _)[0]? = _
  rw [Sdk.getElem?_set_of_some hcall,if_pos rfl]

theorem two_users : ∃ trace c,
    Run (Guarded (fun s label => Undisturbed s label ∧ Apart s label) Step) .new trace c ∧
    (∀ id, .client id .authenticateVoice ∉ trace) ∧
    c.server.events = [.userConnected 1 11,.userConnected 2 22,.voiceJoined 2] ∧
    LoggedIn (c.clients 1) 11 ∧ LoggedIn (c.clients 2) 22 ∧
    (∀ id, (c.clients id).requestIdCounter.toNat + 1 < 2 ^ 64) ∧ c.server.MadeFor 1 11 ∧
    ∀ id voiceToken, c.server.MadeFor id voiceToken → id = 1 ∧ voiceToken = 11 ∨ id = 2 ∧ voiceToken = 22 := by
  obtain ⟨data₁,hdata₁⟩ := (Packet.encode_isSome_iff (.loginRequest 1 "bob")).mpr (by decide)
  obtain ⟨data₂,hdata₂⟩ := (Packet.encode_isSome_iff (.loginRequest 1 "ann")).mpr (by decide)
  obtain ⟨request,hrequest⟩ := Packet.plain_encodes (.joinVoiceChannelRequest 2) rfl rfl
    (by simp [Packet.payloadLen])
  -- the clients write first
  let bob := asking "bob" data₁
  let ann := askingToJoin "ann" data₂ request
  let c₁ := new.withClient 1 bob
  let c₂ := c₁.withClient 2 ann
  have hasks₁ := client_lifts (asks_login hdata₁) (by simp) new 1
  have hasks₂ := client_lifts ((asks_login hdata₂).append (asks_to_join hrequest)) (by simp) c₁ 2
  have hnew : new.withClient 1 .new = new := new.withClient_self 1
  have hsilent : c₁.clients 2 = .new := withClient_other _ _ (by decide)
  have hfresh : c₁.withClient 2 .new = c₁ := congrArg (Community.mk _)
    (Function.update_eq_self_iff.mpr hsilent.symm)
  rw [hnew] at hasks₁
  rw [hfresh] at hasks₂
  -- the server answers
  have hbob : c₂.clients 1 = bob := (withClient_other _ _ (by decide)).trans (withClient_own _ _ _)
  have hann : c₂.clients 2 = ann := withClient_own _ _ _
  have hwire₁ : (c₂.clients 1).wire 0 = data₁ := by
    rw [hbob]
    rfl
  have hwire₂ : (c₂.clients 2).wire 0 = data₂ ++ request := by
    rw [hann]
    rfl
  obtain ⟨served,s,k₁,k₂,response₁,response₂,more,hserved,hevents,hnext,h₀,h₁,h₂,htoken₁,htoken₂,hwritten₁,
    hwritten₂,hresponse₁,hresponse₂⟩ := two_users_served hdata₁ hdata₂ hrequest hwire₁ hwire₂
  have hrun := (hasks₁.append hasks₂).append (server_lifts hserved)
  -- and the responses arrive
  have hshort₁ : response₁.length ≤ Sdk.TcpClient.readBufSize := by
    rw [Packet.encode_length hresponse₁]
    decide
  have hshort₂ : response₂.length ≤ Sdk.TcpClient.readBufSize := by
    rw [Packet.encode_length hresponse₂]
    decide
  let c₃ : Community := ⟨s,c₂.clients⟩
  have hbob' : c₃.clients 1 = bob := hbob
  obtain ⟨bob',hreplied₁,hcall₁,hcount₁⟩ := replies hbob' rfl rfl rfl hresponse₁ rfl hshort₁ (by
    change response₁ <+: ((s.connections.lookup 1).map Connection.written).getD []
    rw [h₁,Option.map_some,Option.getD_some,hwritten₁])
  have hann' : (c₃.withClient 1 bob').clients 2 = ann :=
    (withClient_other _ _ (by decide)).trans hann
  obtain ⟨ann',hreplied₂,hcall₂,hcount₂⟩ := replies hann' rfl rfl rfl hresponse₂ rfl hshort₂ (by
    change response₂ <+: ((s.connections.lookup 2).map Connection.written).getD []
    rw [h₂,Option.map_some,Option.getD_some,hwritten₂]
    exact List.prefix_append _ _)
  let c := (c₃.withClient 1 bob').withClient 2 ann'
  have hc₁ : c.clients 1 = bob' := (withClient_other _ _ (by decide)).trans (withClient_own _ _ _)
  have hc₂ : c.clients 2 = ann' := withClient_own _ _ _
  have hall := (hrun.append hreplied₁).append hreplied₂
  refine ⟨_,c,hall,?_,hevents,?_,?_,?_,⟨k₁,h₁,htoken₁⟩,?_⟩
  · intro id hmem
    simp at hmem
  · rw [hc₁]
    exact ⟨0,_,"bob",_,1,hcall₁,rfl,rfl,rfl⟩
  · rw [hc₂]
    exact ⟨0,_,"ann",_,2,hcall₂,rfl,rfl,rfl⟩
  · intro id
    by_cases h2 : id = 2
    · rw [h2,hc₂,hcount₂]
      exact show (3 : UInt64).toNat + 1 < 2 ^ 64 by decide
    · by_cases h1 : id = 1
      · rw [h1,hc₁,hcount₁]
        exact show (2 : UInt64).toNat + 1 < 2 ^ 64 by decide
      · have hother : c.clients id = .new :=
          (Function.update_of_ne h2 _ _).trans ((Function.update_of_ne h1 _ _).trans
            ((Function.update_of_ne h2 _ _).trans (Function.update_of_ne h1 _ _)))
        rw [hother]
        decide
  · rintro id voiceToken ⟨k,hk,hmade⟩
    have hlt := (run_ids (server_run hall) id k hk).2
    rw [show c.server.nextUserId = 3 from hnext] at hlt
    change id.toNat < 3 at hlt
    have hids : id = 0 ∨ id = 1 ∨ id = 2 := by
      simp only [← UInt64.toNat_inj]
      change id.toNat = 0 ∨ id.toNat = 1 ∨ id.toNat = 2
      omega
    rcases hids with rfl | rfl | rfl
    · cases h₀.symm.trans hk
    · cases h₁.symm.trans hk
      exact .inl ⟨rfl,hmade.symm.trans htoken₁⟩
    · cases h₂.symm.trans hk
      exact .inr ⟨rfl,hmade.symm.trans htoken₂⟩

end Community

namespace Conversation
open Sdk.InputOutputManager (silenceCodec noResampler)

abbrev TalkStep : Conversation Unit Unit ℤ → Label ℤ → Conversation Unit Unit ℤ → Prop :=
  Guarded Orderly (Step silenceCodec noResampler (.ok ()) fun _ => .ok ())

/-- Bob and Ann log in, she joins, and she hears him. -/
theorem talk : ∃ trace s, Run TalkStep new trace s ∧ (∀ src bytes, .voice (.other src bytes) ∉ trace) ∧
    s.community.server.MadeFor 1 11 ∧
    (∀ id voiceToken, s.community.server.MadeFor id voiceToken →
      id = 1 ∧ voiceToken = 11 ∨ id = 2 ∧ voiceToken = 22) ∧
    .voiceData 1 0 0 [248,255,254] ∈ (s.voice.clients 2).udp.handler.packetTx ∧
    s.voice.relay = .pair := by
  obtain ⟨trace,c,hrun,hauth,hevents,hlogin₁,hlogin₂,hids,hmade,honly⟩ := Community.two_users
  have hlifted : Run TalkStep new (trace.map Label.ofManagement) ⟨c,unheard c,0⟩ := management_lifts hrun hauth
  obtain ⟨sends₂,sends₁,out,w,hvoice,hheard,hpair⟩ :=
    VoiceNetwork.talk_heard (fun id => (c.clients id).requestIdCounter) (show (1 : UInt64) ≠ 2 by decide) hids
  have htalked : Run TalkStep ⟨counted c (unheard c),unheard c,0⟩ _ ⟨counted c w,w,_⟩ :=
    voice_lifts hvoice 0 (by rw [hevents]; exact List.prefix_refl _) (by
      intro id voiceToken hmem
      simp [VoiceNetwork.heardLabels,VoiceNetwork.talkLabels,VoiceNetwork.loginLabels] at hmem
      rcases hmem with ⟨rfl,rfl⟩ | ⟨rfl,rfl⟩
      · exact hlogin₂
      · exact hlogin₁) (by
      intro id hmem
      simp [VoiceNetwork.heardLabels,VoiceNetwork.talkLabels,VoiceNetwork.loginLabels] at hmem)
  refine ⟨_,_,hlifted.append htalked,?_,hmade,honly,hheard,hpair⟩
  intro src bytes hmem
  rcases List.mem_append.mp hmem with hmem | hmem
  · obtain ⟨label,_,heq⟩ := List.mem_map.mp hmem
    cases label with
    | server => cases heq
    | client id label => cases label <;> cases heq
  · simp [VoiceNetwork.heardLabels,VoiceNetwork.talkLabels,VoiceNetwork.loginLabels,Label.ofVoice] at hmem

/-- What Ann hears comes from Bob's microphone. -/
theorem heard_as_themselves_talk : ∃ trace, ∃ s : Conversation Unit Unit ℤ, ∃ (i : ℕ) (resampler : Option Unit),
    Run TalkStep new trace s ∧ ∃ claimed,
    .voiceData claimed 0 0 [248,255,254] ∈ voicePackets silenceCodec () 0 (framesOf.split
      (encoderInput noResampler resampler (InputOutputManager.spoken i
        (VoiceNetwork.pipelineTrace 1 (trace.filterMap Label.voice?))).flatten)).1 := by
  obtain ⟨trace,s,hrun,hothers,hmade,honly,hheard,_⟩ := talk
  have hsecret : Secret 1 11 trace s := by
    refine ⟨hmade,?_,by decide,fun src bytes hmem => (hothers src bytes hmem).elim⟩
    intro id h
    rcases honly id 11 h with ⟨hid,_⟩ | ⟨_,hwrong⟩
    · exact hid
    · cases hwrong
  obtain ⟨i,_,_,resampler,_,_,hpacket⟩ := heard_as_themselves hrun hsecret hheard
  exact ⟨trace,s,i,resampler,hrun,hpacket⟩

/-- Ann, who is in the channel, has asked for it. -/
theorem joined_by_themselves_talk : ∃ trace s, Run TalkStep new trace s ∧ ∃ requests requestId,
    List.Forall₂ (Moves 2) (requests ++ [.joinVoiceChannelRequest requestId])
      ((s.community.server.events.take s.consumed).filter (mover · = some 2)) ∧
    (requests ++ [.joinVoiceChannelRequest requestId]).Sublist (Community.asked (s.community.clients 2)) := by
  obtain ⟨trace,s,hrun,_,_,_,_,hpair⟩ := talk
  have hl : s.voice.relay.sessions.lookup 2 = some ⟨22,true,some (.v4 2 2)⟩ := by
    rw [hpair]
    rfl
  exact ⟨trace,s,hrun,joined_by_themselves (run_connectsOnce hrun) hl rfl⟩

/-- Ann was in the channel when Bob's frame was sent to her. -/
theorem heard_in_channel_talk : ∃ trace s, Run TalkStep new trace s ∧
    ∃ pre post input sends t addr session, trace = pre ++ .voice (.relay input sends) :: post ∧
      Run TalkStep new pre t ∧ t.voice.SendsTo input sends 2 addr (.voiceData 1 0 0 [248,255,254]) ∧
      t.voice.relay.sessions.lookup 2 = some session ∧ session.udpAddress = some addr ∧
      sessionOf 2 (t.community.server.events.take t.consumed) = some (session.token,true) ∧
      ∃ requests requestId, List.Forall₂ (Moves 2) (requests ++ [.joinVoiceChannelRequest requestId])
        ((t.community.server.events.take t.consumed).filter (mover · = some 2)) ∧
      (requests ++ [.joinVoiceChannelRequest requestId]).Sublist (Community.asked (t.community.clients 2)) := by
  obtain ⟨trace,s,hrun,_,_,honly,hheard,_⟩ := talk
  have hapart : ∀ id id' voiceToken, s.community.server.MadeFor id voiceToken →
      s.community.server.MadeFor id' voiceToken → id = id' := by
    intro id id' voiceToken h h'
    rcases honly id voiceToken h with ⟨rfl,rfl⟩ | ⟨rfl,rfl⟩
    · rcases honly id' 11 h' with ⟨rfl,_⟩ | ⟨_,hwrong⟩
      · rfl
      · cases hwrong
    · rcases honly id' 22 h' with ⟨_,hwrong⟩ | ⟨rfl,_⟩
      · cases hwrong
      · rfl
  have hzero : ∀ id, ¬s.community.server.MadeFor id 0 := by
    intro id h
    rcases honly id 0 h with ⟨_,hwrong⟩ | ⟨_,hwrong⟩ <;> cases hwrong
  exact ⟨trace,s,hrun,(heard_in_channel hrun hapart hzero hheard).2⟩

end Conversation

end VoiceApp.System
