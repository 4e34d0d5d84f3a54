import VoiceApp.Sdk.TcpRequests
import VoiceApp.Sdk.UdpRequests

/-! # Entries without a call

The UDP client removes the entry of a call that gives up. The TCP client does not: the entry
stays until a late response takes it out, or until the connection ends.
-/
namespace VoiceApp.Sdk
open Protocol

namespace UdpClient

/-- The voice authentication can always be encoded, and no other request goes over UDP. -/
theorem api_encodable {T : Type} {u u' : UdpClient T} {label : Label T}
    (hapi : ∀ r ∈ u.requests, ∃ requestId voiceToken, r.packet = .voiceAuthRequest requestId voiceToken)
    (hstep : Step u label u') : Encodable u label := by
  cases hstep with
  | @encodePanics n r attempt tx hr hp he =>
    obtain ⟨requestId,voiceToken,hpacket⟩ := hapi r (List.mem_of_getElem? hr)
    obtain ⟨data,hdata⟩ := Packet.plain_encodes (.voiceAuthRequest requestId voiceToken) rfl rfl
      (by simp [Packet.payloadLen])
    rw [hpacket,hdata] at he
    cases he
  | _ => trivial

end UdpClient

/-- As long as no call of the TCP client times out with its callback in a map, no callback of
a call that has ended is registered, and no call of the UDP client panics with its callback
in the map, every entry has a call in progress. The first step that is otherwise leaves an
entry without one. -/
theorem pending_live {T : Type} :
    (∀ (trace : List TcpClient.Label) (c : TcpClient),
      Run (Guarded TcpClient.Prompt TcpClient.Step) .new trace c →
        c.TablesLive ∧
        (∀ w ∈ c.workers, w.running = true → w.table.keys.card ≤ c.inProgress.length) ∧
        ∀ label c', TcpClient.Step c label c' → (c'.TablesLive ↔ TcpClient.Prompt c label)) ∧
    ∀ (trace : List (UdpClient.Label T)) (u : UdpClient T),
      Run (Guarded UdpClient.Encodable UdpClient.Step) .new trace u →
        u.TableLive ∧ u.table.keys.card ≤ u.inProgress.length ∧
        ∀ label u', UdpClient.Step u label u' → (u'.TableLive ↔ UdpClient.Encodable u label) := by
  constructor
  · intro trace c h
    have hlive := TcpClient.run_live h
    refine ⟨hlive,fun w hw hrun => hlive.card_le hw hrun,?_⟩
    intro label c' hstep
    exact TcpClient.run_live_iff h hstep
  · intro trace u h
    have hlive := (UdpClient.run_tidy h).live
    refine ⟨hlive,hlive.card_le,?_⟩
    intro label u' hstep
    exact UdpClient.run_live_iff h hstep

/-! ## One ping -/

namespace TcpClient

def pingData : Bytes := [6,0,8,0,0,0,0,0,0,0,1]

/-- The handler task writes the ping. -/
def pinged : TcpClient :=
  ⟨[⟨pingData,some (1,0)⟩],1,[Worker.new.take ⟨pingData,some (1,0)⟩],[⟨.pingRequest 1,.waiting⟩]⟩

theorem pinged_run : Run (Guarded Prompt Step) new
    [.connect,.sendRequest (.pingRequest 1),.enqueue 0,.take 0] pinged := by
  have hencode : (Packet.pingRequest 1).encode = some pingData := by decide
  have hconnect : Guarded Prompt Step new .connect ⟨[],0,[.new],[]⟩ := ⟨trivial,.connect⟩
  have hrequest : Guarded Prompt Step ⟨[],0,[.new],[]⟩ (.sendRequest (.pingRequest 1))
      ⟨[],0,[.new],[⟨.pingRequest 1,.started⟩]⟩ := ⟨trivial,.sendRequest⟩
  have henqueue : Guarded Prompt Step ⟨[],0,[.new],[⟨.pingRequest 1,.started⟩]⟩ (.enqueue 0)
      ⟨[⟨pingData,some (1,0)⟩],0,[.new],[⟨.pingRequest 1,.waiting⟩]⟩ :=
    ⟨trivial,.enqueue (r := ⟨.pingRequest 1,.started⟩) rfl rfl rfl hencode⟩
  have hprompt : Prompt ⟨[⟨pingData,some (1,0)⟩],0,[.new],[⟨.pingRequest 1,.waiting⟩]⟩ (.take 0) := by
    intro o id n ho hcallback
    cases ho
    cases hcallback
    exact ⟨_,rfl,rfl⟩
  have htake : Guarded Prompt Step _ (.take 0) pinged := ⟨hprompt,.take rfl rfl rfl rfl⟩
  exact (((Run.single hconnect).snoc hrequest).snoc henqueue).snoc htake

end TcpClient

namespace UdpClient

def authData : Bytes := [3,0,16,0,0,0,0,0,0,0,7,0,0,0,0,0,0,0,11]

/-- A first attempt times out. -/
def retryLabels : List (Label Unit) :=
  [.connect,.sendRequest (.voiceAuthRequest 7 11) fun _ => .ok (),.register 0,.send 0,.timeout 0,.cleanUp 0]

theorem retry_run : ∃ u, Run (Guarded Encodable Step) new retryLabels u ∧
    u.requests = [⟨.voiceAuthRequest 7 11,fun _ => .ok (),.starting 2⟩] := by
  have hencode : (Packet.voiceAuthRequest 7 11).encode = some authData := by decide
  refine ⟨_,.snoc (.snoc (.snoc (.snoc (.snoc (.snoc .refl ⟨trivial,.connect⟩) ⟨trivial,.sendRequest⟩)
    ⟨trivial,.register rfl rfl rfl⟩) ⟨trivial,.send rfl rfl hencode⟩) ⟨trivial,.timeout rfl rfl⟩)
    ⟨trivial,.cleanUp rfl rfl rfl⟩,rfl⟩

end UdpClient

/-- The map has an entry while the ping is under way, and the other map has none left from the
first attempt. -/
theorem pending_live_ping : TcpClient.pinged.TablesLive ∧ ∃ u : UdpClient Unit, u.TableLive ∧
    u.requests = [⟨.voiceAuthRequest 7 11,fun _ => .ok (),.starting 2⟩] := by
  obtain ⟨u,hrun,hrequests⟩ := UdpClient.retry_run
  exact ⟨((pending_live (T := Unit)).1 _ _ TcpClient.pinged_run).1,
    u,(pending_live.2 _ u hrun).1,hrequests⟩

/-- A ping that is never answered: its call has timed out, and its entry is still there. -/
theorem ping_left_behind : ∃ trace c, Run TcpClient.Step .new trace c ∧ c.inProgress = [] ∧
    ¬c.TablesLive := by
  let written := (TcpClient.Worker.new.take ⟨TcpClient.pingData,some (1,0)⟩).wrote true TcpClient.pingData
  have hwrote : Guarded TcpClient.Prompt TcpClient.Step TcpClient.pinged (.wrote 0 true)
      (TcpClient.pinged.setWorker 0 written) :=
    ⟨trivial,.wrote rfl rfl rfl (List.prefix_refl _) fun _ => rfl⟩
  have hrun := TcpClient.pinged_run.snoc hwrote
  have htimeout : TcpClient.Step (TcpClient.pinged.setWorker 0 written) (.timeout 0) _ :=
    .timeout (r := ⟨.pingRequest 1,.waiting⟩) rfl rfl rfl
  refine ⟨_,_,(hrun.mono fun _ _ _ hstep => hstep.2).snoc htimeout,rfl,?_⟩
  intro hlive
  have hunregistered := (TcpClient.run_live_iff hrun htimeout).mp hlive
  exact hunregistered _ List.mem_cons_self rfl 1 0 (by decide) rfl

end VoiceApp.Sdk
