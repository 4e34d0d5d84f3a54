import VoiceApp.Base.Overwrite
import VoiceApp.Desktop.RoomPage
import VoiceApp.Management.Server

/-! # What clients are told about a user

For one user id the folded state of a client is an optional entry. Every packet acts on
that entry, and every packet overwrites what it writes, so a client that took a newer
entry from a login response may replay older announcements on top of it.
-/
namespace VoiceApp.Presence
open Protocol Server Management Sdk Desktop

/-- What a received packet does to the entry of `v`. -/
def touch (v : UInt64) (x : Option ParticipantInfo) (packet : Packet) : Option ParticipantInfo :=
  match EventHandler.handlePacket packet with
  | some event => RoomPage.seen v x event
  | none => x

/-- The user whose presence a packet announces. -/
def subject : Packet → Option UInt64
  | .userSentMessage .. => none
  | packet => named packet

/-- Folding what a client received, one entry at a time. -/
theorem received_lookup (formatTime : UInt64 → String) (page : RoomPage) (packets : List Packet)
    (v : UInt64) :
    (page.serverEventsReceived formatTime (EventHandler.listenToPackets packets)).participants.lookup v =
      packets.foldl (touch v) (page.participants.lookup v) := by
  rw [RoomPage.serverEventsReceived_lookup,EventHandler.listenToPackets,List.foldl_filterMap]
  refine congrArg (fun f => packets.foldl f _) (funext fun x => funext fun packet => ?_)
  unfold touch
  cases EventHandler.handlePacket packet <;> rfl

section Touch
variable {v : UInt64} {x : Option ParticipantInfo} {packet : Packet}

/-- An event about somebody else. -/
theorem touch_event (hevent : packet.isEvent = true) (hsubject : subject packet ≠ some v) :
    touch v x packet = x := by
  cases packet with
  | userSentMessage => rfl
  | userJoinedServer participant => exact if_neg fun h => hsubject (congrArg some h)
  | userJoinedVoice userId => exact if_neg fun h => hsubject (congrArg some h)
  | userLeftVoice userId => exact if_neg fun h => hsubject (congrArg some h)
  | userLeftServer userId => exact if_neg fun h => hsubject (congrArg some h)
  | userMuteState userId isMuted => exact if_neg fun h => hsubject (congrArg some h)
  | _ => cases hevent

/-- The part of an entry that entering and leaving voice keeps. -/
def identity (p : ParticipantInfo) : UInt64 × String := (p.userId,p.username)

/-- The part of an entry that muting keeps. -/
def unmuted (p : ParticipantInfo) : UInt64 × String × Bool := (p.userId,p.username,p.inVoice)

/-- Every packet changes a part of an entry on its own terms, if it does so to each field
that it changes. -/
theorem touch_view {Y : Type} (view : ParticipantInfo → Y) {a b : Option ParticipantInfo}
    (hvoice : ∀ p q : ParticipantInfo, view p = view q → ∀ inVoice,
      view { p with inVoice := inVoice, isMuted := false } =
        view { q with inVoice := inVoice, isMuted := false })
    (hmute : ∀ p q : ParticipantInfo, view p = view q → ∀ isMuted,
      view { p with isMuted := isMuted } = view { q with isMuted := isMuted })
    (h : a.map view = b.map view) : (touch v a packet).map view = (touch v b packet).map view := by
  have hmap : ∀ f : ParticipantInfo → ParticipantInfo,
      (∀ p q, view p = view q → view (f p) = view (f q)) →
      (a.map f).map view = (b.map f).map view := by
    intro f hf
    cases a with
    | none =>
      cases b with
      | none => rfl
      | some q => cases h
    | some p =>
      cases b with
      | none => cases h
      | some q => exact congrArg some (hf p q (Option.some.inj h))
  have hif : ∀ (c : Prop) [Decidable c] (a' b' : Option ParticipantInfo),
      a'.map view = b'.map view →
      (if c then a' else a).map view = (if c then b' else b).map view := by
    intro c _ a' b' h'
    split
    · exact h'
    · exact h
  cases packet with
  | loginResponse => rfl
  | userJoinedServer participant => exact hif _ _ _ rfl
  | userJoinedVoice userId => exact hif _ _ _ (hmap _ fun p q hpq => hvoice p q hpq true)
  | userLeftVoice userId => exact hif _ _ _ (hmap _ fun p q hpq => hvoice p q hpq false)
  | userLeftServer userId => exact hif _ _ _ rfl
  | userMuteState userId isMuted => exact hif _ _ _ (hmap _ fun p q hpq => hmute p q hpq isMuted)
  | _ => exact h

/-- An event that concerns one user and changes its entry, if there is one, by `f`. -/
theorem overwrites_map {Y : Type} (view : ParticipantInfo → Y) {f : ParticipantInfo → ParticipantInfo}
    {userId : UInt64} (hpacket : ∀ x, touch v x packet = if userId = v then x.map f else x)
    (hkeep : ∀ p, view (f p) = view p) (hview : ∀ p q, view p = view q → f p = f q)
    (hvoice : ∀ p q : ParticipantInfo, view p = view q → ∀ inVoice,
      view { p with inVoice := inVoice, isMuted := false } =
        view { q with inVoice := inVoice, isMuted := false })
    (hmute : ∀ p q : ParticipantInfo, view p = view q → ∀ isMuted,
      view { p with isMuted := isMuted } = view { q with isMuted := isMuted }) :
    Overwrites (touch v) packet := by
  by_cases h : userId = v
  · simp only [if_pos h] at hpacket
    refine .of_view (Option.map view) (fun x => ?_) (fun _ _ _ => touch_view view hvoice hmute)
      fun a b hab => ?_
    · rw [hpacket,Option.map_map]
      exact congrArg (fun g => x.map g) (funext hkeep)
    · rw [hpacket,hpacket]
      cases a with
      | none =>
        cases b with
        | none => rfl
        | some q => cases hab
      | some p =>
        cases b with
        | none => cases hab
        | some q => exact congrArg some (hview p q (Option.some.inj hab))
  · simp only [if_neg h] at hpacket
    exact .of_id hpacket

/-- Every packet overwrites what it writes. -/
theorem touch_overwrites (v : UInt64) (packet : Packet) : Overwrites (touch v) packet := by
  have hconst : ∀ (userId : UInt64) (y : Option ParticipantInfo),
      (∀ x, touch v x packet = if userId = v then y else x) → Overwrites (touch v) packet := by
    intro userId y hy
    by_cases h : userId = v
    · simp only [if_pos h] at hy
      exact .of_const fun a b => (hy a).trans (hy b).symm
    · simp only [if_neg h] at hy
      exact .of_id hy
  have hvoice : ∀ (userId : UInt64) (inVoice : Bool), (∀ x, touch v x packet = if userId = v then
      x.map fun user => { user with inVoice := inVoice, isMuted := false } else x) →
      Overwrites (touch v) packet := by
    intro userId inVoice hpacket
    refine overwrites_map identity hpacket (fun _ => rfl) (fun p q hpq => ?_) (fun _ _ h _ => h)
      fun _ _ h _ => h
    obtain ⟨hid,hname⟩ := Prod.mk.inj hpq
    rw [hid,hname]
  cases packet with
  | loginResponse requestId id voiceToken participants => exact .of_const fun _ _ => rfl
  | userJoinedServer participant => exact hconst participant.userId _ fun _ => rfl
  | userLeftServer userId => exact hconst userId none fun _ => rfl
  | userJoinedVoice userId => exact hvoice userId true fun _ => rfl
  | userLeftVoice userId => exact hvoice userId false fun _ => rfl
  | userMuteState userId isMuted =>
    refine overwrites_map unmuted (f := fun user => { user with isMuted := isMuted })
      (fun _ => rfl) (fun _ => rfl) (fun p q hpq => ?_) (fun p q hpq inVoice => ?_) fun _ _ h _ => h
    · obtain ⟨hid,hpq⟩ := Prod.mk.inj hpq
      obtain ⟨hname,hin⟩ := Prod.mk.inj hpq
      rw [hid,hname,hin]
    · obtain ⟨hid,hpq⟩ := Prod.mk.inj hpq
      exact congrArg₂ (fun i (r : String × Bool) => (i,r.1,inVoice)) hid hpq
  | _ => exact .of_id fun _ => rfl

end Touch
end VoiceApp.Presence
