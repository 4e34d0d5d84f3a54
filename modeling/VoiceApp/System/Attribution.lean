import VoiceApp.Management.Authorship
import VoiceApp.System.Agreement

/-! # Who is behind an event

What a client is told about another user goes back to a call of that user's own client,
across both connections and the server. Each call is behind one event at most, and the events
come in the order in which the requests were sent.
-/
namespace VoiceApp.System.Community
open Protocol Server Framing Management
open Sdk (Client Outgoing Asks)

/-- What the client has put into its send channel. -/
def asked (c : Client) : List Packet := c.sendTx.filterMap fun o => packetOf o.packet

def Label.server? : Label → Option Management.Label
  | .server label => some label
  | .client .. => none

section Runs
variable {trace : List Label} {s : Community}

theorem encoded_packets {packets : List Packet} {datas : List Bytes}
    (h : Framer.Encoded Packet.encode packets datas) : datas.filterMap packetOf = packets := by
  induction h with
  | nil => rfl
  | cons hhead _ ih => rw [List.filterMap_cons_some (packetOf_encode hhead),ih]

theorem server_run (h : Run (Guarded (fun s label => Undisturbed s label ∧ Apart s label) Step) new trace s) :
    Run (Guarded liveApart.guard Management.Step) ManagementServer.new (trace.filterMap Label.server?)
      s.server := by
  refine h.project Community.server Label.server? ?_ ?_
  · rintro t label u m ⟨⟨_,hapart⟩,hstep⟩ hlabel
    cases hstep with
    | server hserver =>
      cases hlabel
      exact ⟨hapart,hserver⟩
    | client => cases hlabel
  · rintro t label u ⟨_,hstep⟩ hlabel
    cases hstep with
    | server => cases hlabel
    | client => rfl

/-- The server's side of a session is that of the community. -/
theorem seen_server (me : UInt64) (trace : List Label) :
    (trace.filterMap (Label.seen me)).filterMap Session.Label.server? = trace.filterMap Label.server? := by
  rw [List.filterMap_filterMap]
  refine List.filterMap_congr fun label _ => ?_
  cases label with
  | server label => rfl
  | client id label =>
    rw [Label.seen]
    split <;> rfl

/-- What the server has received on a connection is an initial part of what its client has
sent. -/
theorem handled_asked (h : Run (Guarded Undisturbed Step) new trace s) (id : UInt64) :
    (speech id (trace.filterMap Label.server?)).handled <+: asked (s.clients id) ∧
      (∀ packet ∈ asked (s.clients id), Asks (s.clients id).keys packet) ∧
      ((asked (s.clients id)).filterMap Packet.requestId).Nodup := by
  have hsession := session_run id h
  obtain ⟨hsending,hconnected,_⟩ := Client.run_connected (Session.client_run hsession)
  obtain ⟨packets,hencoded,hasks,hids⟩ := Sdk.origins_ask hsending.origin
  have hasked : asked (s.clients id) = packets := by
    rw [← encoded_packets hencoded,List.filterMap_map]
    rfl
  have hwire : (s.clients id).wire 0 =
      (((s.clients id).sendTx.take (s.clients id).taken).map Outgoing.packet).flatten := by
    rcases hconnected with ⟨hnone,htaken⟩ | ⟨t,hone,htalks⟩
    · change (s.clients id).tasks = [] at hnone
      change (s.clients id).taken = 0 at htaken
      rw [Client.wire,hnone,htaken]
      rfl
    · change (s.clients id).tasks = [t] at hone
      rw [Client.wire,hone]
      exact htalks.written
  have hwhole : Whole (packets.take (s.clients id).taken) ((s.clients id).wire 0) := by
    refine ⟨_,List.forall₂_take _ hencoded,?_⟩
    rw [hwire,List.map_take]
    rfl
  rw [hasked]
  refine ⟨?_,hasks,?_⟩
  · have hup := (Session.run_linked hsession).up
    rw [Session.exchanged,seen_server] at hup
    exact (hwhole.received hup).trans (List.take_prefix _ packets)
  · rw [hids]
    exact hsending.ids_sent

/-- What the relay is told of a user's place in the channel goes back to a request of its own
client, in the same way. -/
theorem moves_asked
    (h : Run (Guarded (fun s label => Undisturbed s label ∧ Apart s label) Step) new trace s) (id : UInt64) :
    ∃ requests, List.Forall₂ (Moves id) requests (s.server.events.filter (mover · = some id)) ∧
      requests.Sublist (asked (s.clients id)) ∧ (∀ request ∈ requests, Asks (s.clients id).keys request) ∧
      (requests.filterMap Packet.requestId).Nodup := by
  obtain ⟨hhandled,hasks,hids⟩ := handled_asked (h.mono fun _ _ _ hs => ⟨hs.1.1,hs.2⟩) id
  have hfinds := run_findsOwn (fun _ _ hguard => hguard) (server_run h)
  obtain ⟨requests,hrequests,hmoves⟩ := (run_attributed hfinds id).moved
  have hasked := hrequests.trans hhandled.sublist
  rw [run_moved hfinds id]
  exact ⟨requests,hmoves,hasked,fun request hmem => hasks request (hasked.subset hmem),
    hids.sublist (hasked.filterMap _)⟩

/-- An event about a user goes back to a request that the user's own client has sent for a
call of its own, or is the farewell; no request is behind two events, and the events come in
the order of the requests. -/
theorem events_attributed
    (h : Run (Guarded (fun s label => Undisturbed s label ∧ Apart s label) Step) new trace s) (q id : UInt64) :
    ∀ t ∈ (s.clients q).tasks, ∃ requests events,
      (t.handler.packetTx.filter (speaker · = some id)).Sublist (events ++ lastWords id) ∧
      List.Forall₂ (Causes id) requests events ∧ requests.Sublist (asked (s.clients id)) ∧
      (∀ request ∈ requests, Asks (s.clients id).keys request) ∧
      (requests.filterMap Packet.requestId).Nodup := by
  intro t ht
  have hplain : Run (Guarded Undisturbed Step) new trace s := h.mono fun _ _ _ hs => ⟨hs.1.1,hs.2⟩
  obtain ⟨hhandled,hasks,hids⟩ := handled_asked hplain id
  have hfinds := run_findsOwn (fun _ _ hguard => hguard) (server_run h)
  obtain ⟨requests,events,last,hrequests,hcauses,hlast,hposted⟩ := (run_attributed hfinds id).attributed
  have hasked := hrequests.trans hhandled.sublist
  refine ⟨requests,events,?_,hcauses,hasked,fun request hmem => hasks request (hasked.subset hmem),
    hids.sublist (hasked.filterMap _)⟩
  have hevents : t.handler.packetTx.filter (speaker · = some id) =
      (t.handler.packetTx.filter Packet.isEvent).filter (speaker · = some id) := by
    rw [List.filter_filter]
    refine List.filter_congr fun packet _ => ?_
    cases hspeaker : decide (speaker packet = some id) with
    | true => rw [speaker_isEvent (of_decide_eq_true hspeaker)]; rfl
    | false => rfl
  have hspoken := (handed_on_ordered hplain ht).filter (speaker · = some id)
  rw [← hevents,run_spoken hfinds id,encoded_packets hposted] at hspoken
  exact (hspoken.trans List.filter_sublist).trans (hlast.append_left events)

end Runs

/-- What each of two clients is told of the other goes back to the other's own call. -/
theorem events_attributed_chats : ∃ s : Community, ∀ q id, (q,id) ∈ [((1 : UInt64),(2 : UInt64)),(2,1)] →
    ∃ t ∈ (s.clients q).tasks, ∃ requests events,
      t.handler.packetTx.filter (speaker · = some id) = [.userSentMessage id 0 ""] ∧
      [Packet.userSentMessage id 0 ""].Sublist (events ++ lastWords id) ∧
      List.Forall₂ (Causes id) requests events ∧ requests.Sublist (asked (s.clients id)) := by
  obtain ⟨s,t₁,t₂,⟨trace,hrun⟩,htasks₁,htasks₂,hpackets₁,hpackets₂⟩ := run_chats
  refine ⟨s,fun q id hmem => ?_⟩
  obtain ⟨rfl,rfl⟩ | ⟨rfl,rfl⟩ : q = 1 ∧ id = 2 ∨ q = 2 ∧ id = 1 := by simpa using hmem
  · have ht : t₁ ∈ (s.clients 1).tasks := by simp [htasks₁]
    have htold : t₁.handler.packetTx.filter (speaker · = some 2) = [.userSentMessage 2 0 ""] := by
      rw [hpackets₁]
      rfl
    obtain ⟨requests,events,hspoken,hcauses,hasked,_⟩ := events_attributed hrun 1 2 t₁ ht
    exact ⟨t₁,ht,requests,events,htold,htold ▸ hspoken,hcauses,hasked⟩
  · have ht : t₂ ∈ (s.clients 2).tasks := by simp [htasks₂]
    have htold : t₂.handler.packetTx.filter (speaker · = some 1) = [.userSentMessage 1 0 ""] := by
      rw [hpackets₂]
      rfl
    obtain ⟨requests,events,hspoken,hcauses,hasked,_⟩ := events_attributed hrun 2 1 t₂ ht
    exact ⟨t₂,ht,requests,events,htold,htold ▸ hspoken,hcauses,hasked⟩

end VoiceApp.System.Community
