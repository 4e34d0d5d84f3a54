import Mathlib.Data.Multiset.AddSub
import VoiceApp.Base.LabelledRun
import VoiceApp.Desktop.Application
import VoiceApp.Management.Handler

/-! # Where a mute is kept

The slider, the icon of the member, the microphone and the record of the server are four
copies of one flag. The slider reaches the others one after the other; joining and leaving
put two of them back and leave two as they are.
-/
namespace VoiceApp.System
open Protocol
open Desktop (Application Message RoomView RoomPage)

/-- The commands that concern the flag. -/
inductive VoiceCommand
  | joinVoiceChannel
  | leaveVoiceChannel
  deriving DecidableEq

namespace VoiceCommand

def request (requestId : UInt64) : VoiceCommand → Packet
  | joinVoiceChannel => .joinVoiceChannelRequest requestId
  | leaveVoiceChannel => .leaveVoiceChannelRequest requestId

/-- What the server does to the record of the user. -/
def update (user : Management.User) : VoiceCommand → Management.User
  | joinVoiceChannel => { user with inVoice := true, isMuted := false }
  | leaveVoiceChannel => { user with inVoice := false, isMuted := false }

/-- The message that tells of the success. -/
def succeeded : VoiceCommand → Message
  | joinVoiceChannel => .voiceCommandResult (.joinVoiceChannel (.ok ()))
  | leaveVoiceChannel => .voiceCommandResult (.leaveVoiceChannel (.ok ()))

end VoiceCommand

/-- What has been set going and is not done yet: a message that is still to be processed, a
future that has not come to its end, or the list of a login that is on its way. The tasks
of one update run side by side with those of another, so they end in any order. -/
inductive Errand
  | muteInput (muted : Bool)
  | sendMuteState (isMuted : Bool)
  | executeVoiceCommand (command : VoiceCommand)
  | request (command : VoiceCommand)
  | result (command : VoiceCommand)
  | list (userId : UInt64) (participants : List ParticipantInfo)
  deriving DecidableEq

namespace Errand

/-- The command that it belongs to. -/
def command : Errand → Option VoiceCommand
  | executeVoiceCommand c => some c
  | request c => some c
  | result c => some c
  | _ => none

/-- It takes the user out of voice on the page in the end. -/
def withdraws : Errand → Bool
  | executeVoiceCommand c => c == .leaveVoiceChannel
  | request c => c == .leaveVoiceChannel
  | result c => c == .leaveVoiceChannel
  | list .. => true
  | _ => false

/-- The position of the slider that it carries. -/
def carries : Errand → Option Bool
  | muteInput muted => some muted
  | sendMuteState isMuted => some isMuted
  | _ => none

/-- What it does to the application. -/
def apply (formatTime : UInt64 → String) (app : Application) : Errand → Application
  | muteInput muted => app.update formatTime (.muteInput muted)
  | executeVoiceCommand _ => app.update formatTime .executeVoiceCommand
  | result c => app.update formatTime c.succeeded
  | list userId participants =>
    app.update formatTime (.serverEventReceived (.participantsList userId participants))
  | _ => app

/-- What it does to the record of the server. -/
def serve (user : Management.User) : Errand → Management.User
  | sendMuteState isMuted => { user with isMuted := isMuted }
  | request c => c.update user
  | _ => user

/-- What it sends to the server. -/
def packet (userId requestId : UInt64) : Errand → Option Packet
  | sendMuteState isMuted => some (.userMuteState userId isMuted)
  | request c => some (c.request requestId)
  | _ => none

/-- The handler of the server starts with this change to the record. -/
theorem serve_run {e : Errand} {userId requestId : UInt64} {packet : Packet}
    (h : e.packet userId requestId = some packet) (address : Server.SocketAddr) :
    ∃ k, (Management.handlePacket address packet).run = .op (.getMut address fun user => e.serve user) k := by
  cases e with
  | sendMuteState isMuted =>
    cases h
    exact ⟨_,Management.handleUserMuteState_run address userId isMuted⟩
  | request c =>
    cases h
    cases c with
    | joinVoiceChannel => exact ⟨_,Management.changeVoice_run address _ _ _ _⟩
    | leaveVoiceChannel => exact ⟨_,Management.changeVoice_run address _ _ _ _⟩
  | _ => cases h

/-- What it sets going in turn. -/
def follow : Errand → Multiset Errand
  | muteInput muted => {sendMuteState muted}
  | executeVoiceCommand c => {request c}
  | request c => {result c}
  | _ => 0

end Errand

/-- The tasks that the room page returns, but for those of the chat. -/
def errands (v : RoomView) : Message → Multiset Errand
  | .roomPage .muteToggle => {.muteInput !v.muted}
  | .roomPage .joinLeaveToggle =>
    if v.isInVoice then {.executeVoiceCommand .leaveVoiceChannel}
    else {.executeVoiceCommand .joinVoiceChannel}
  | _ => 0

/-- The application of a user, the record that the server has of the user, and what is
still to be done. -/
structure Station where
  app : Application
  record : Management.User
  pending : Multiset Errand

namespace Station

def new (id token : UInt64) : Station := ⟨.new,⟨id,none,false,false,token⟩,0⟩

/-- The position of the slider. -/
def muted (s : Station) : Bool := s.app.room.muted

/-- The switch of the microphone. -/
def inputMuted (s : Station) : Bool := s.app.audio.audioManager.isInputMuted

/-- The entry of the user itself. -/
def own (s : Station) : Option ParticipantInfo := s.app.room.participants.lookup s.app.room.userId

/-- A message comes in, the user gets a new connection and logs in there, or something that
was pending is done. -/
inductive Label
  | message (m : Message)
  | connect (id token : UInt64) (username : String) (participants : List ParticipantInfo)
  | errand (e : Errand)

/-- The message does not come from a task of the application. -/
def External : Message → Prop
  | .muteInput _ => False
  | .voiceCommandResult (.joinVoiceChannel _) => False
  | .voiceCommandResult (.leaveVoiceChannel _) => False
  | _ => True

def Enabled (s : Station) : Label → Prop
  | .message m => External m
  | .connect id _ username participants =>
    RoomPage.entry id participants = some ⟨id,username,false,false⟩
  | .errand e => e ∈ s.pending

section Steps
variable (formatTime : UInt64 → String)

def next (s : Station) : Label → Station
  | .message m => ⟨s.app.update formatTime m,s.record,s.pending + errands s.app.room m⟩
  | .connect id token username participants =>
    ⟨s.app,⟨id,some username,false,false,token⟩,s.pending + {.list id participants}⟩
  | .errand e => ⟨e.apply formatTime s.app,e.serve s.record,s.pending.erase e + e.follow⟩

def Step (s : Station) (label : Label) (t : Station) : Prop :=
  s.Enabled label ∧ t = s.next formatTime label

end Steps

/-! ## Careful use -/

/-- A join is under way. -/
def Joins (s : Station) : Prop := ∃ e ∈ s.pending, e.command = some .joinVoiceChannel

/-- The user is about to be out of voice on the page. -/
def Leaves (s : Station) : Prop := ∃ e ∈ s.pending, e.withdraws = true

/-- The server has the position of the slider, or is about to get it. -/
def Knows (s : Station) : Prop :=
  s.record.isMuted = s.muted ∨ .muteInput s.muted ∈ s.pending ∨ .sendMuteState s.muted ∈ s.pending

/-- What the server says of the user itself fits the slider. -/
def Fits (s : Station) : Sdk.ClientEvent → Prop
  | .participantsList userId participants => ∀ user, RoomPage.entry userId participants = some user →
      user.inVoice = true → user.isMuted = s.muted ∧ (s.app.room.isInVoice = true ∨ s.Knows)
  | .userJoinedVoice userId => userId = s.app.room.userId → s.own ≠ none → s.muted = false
  | .userMuteState userId isMuted => userId = s.app.room.userId → s.app.room.isInVoice = true →
      isMuted = s.muted
  | _ => True

/-- The user joins with the slider off, and moves the slider when its last position has
arrived everywhere, to mute only when no join is under way. What the server says of the
user fits the slider. -/
def Careful (s : Station) : Label → Prop
  | .message (.roomPage .muteToggle) => (∀ e ∈ s.pending, e.carries = none) ∧
      (s.muted = false → ¬ s.Joins)
  | .message (.roomPage .joinLeaveToggle) => s.app.room.isInVoice = true ∨ s.muted = false
  | .message (.serverEventReceived event) => s.Fits event
  | _ => True

/-- The copies of the flag are the position of the slider, or will be: what carries it is
under way, and no join is under way while it is on. Muted, the server may have lost the
flag once the user is out of voice or about to leave. -/
structure Tracked (s : Station) : Prop where
  carried : ∀ e ∈ s.pending, ∀ b, e.carries = some b → b = s.muted
  input : s.inputMuted = s.muted ∨ .muteInput s.muted ∈ s.pending
  joining : s.Joins → s.muted = false
  listed : ∀ userId participants, .list userId participants ∈ s.pending →
    ∀ user, RoomPage.entry userId participants = some user → user.inVoice = false
  shown : ∀ user, s.own = some user → user.inVoice = true → user.isMuted = s.muted
  held : s.Knows ∨ s.muted = true ∧ (s.Leaves ∨ s.app.room.isInVoice = false)

/-! ## One message -/

section Messages
variable {formatTime : UInt64 → String} {s t : Station}

theorem isInVoice_iff (s : Station) :
    s.app.room.isInVoice = true ↔ ∃ user, s.own = some user ∧ user.inVoice = true := by
  unfold RoomView.isInVoice own
  cases s.app.room.participants.lookup s.app.room.userId <;> simp

/-- A step that leaves the application as far as the flag goes, and all that is pending. -/
theorem Tracked.stays (h : s.Tracked) (hmuted : t.muted = s.muted) (hinput : t.inputMuted = s.inputMuted)
    (hown : t.own = s.own) (hrecord : t.record = s.record) (hpending : t.pending = s.pending) :
    t.Tracked := by
  have hvoice : t.app.room.isInVoice = s.app.room.isInVoice := by
    rw [Bool.eq_iff_iff,isInVoice_iff,isInVoice_iff,hown]
  constructor
  · rw [hmuted,hpending]
    exact h.carried
  · rw [hmuted,hinput,hpending]
    exact h.input
  · unfold Joins
    rw [hmuted,hpending]
    exact h.joining
  · rw [hpending]
    exact h.listed
  · rw [hmuted,hown]
    exact h.shown
  · unfold Knows Leaves
    rw [hmuted,hrecord,hpending,hvoice]
    exact h.held

/-- Only `MuteInput` moves the switch of the microphone. -/
theorem update_isInputMuted (a : Desktop.AudioManagerState) {m : Message} (h : ∀ b, m ≠ .muteInput b) :
    (a.update m).audioManager.isInputMuted = a.audioManager.isInputMuted := by
  unfold Desktop.AudioManagerState.update
  split
  · rfl
  · rfl
  · rfl
  · simp only
    split <;> rfl
  · simp only
    split <;> rfl
  · split <;> rfl
  · exact (h _ rfl).elim
  · rfl

theorem modifyOwn_own (v : RoomView) (f : ParticipantInfo → ParticipantInfo) :
    (v.modifyOwn f).participants.lookup (v.modifyOwn f).userId =
      (v.participants.lookup v.userId).map f := by
  rw [RoomView.modifyOwn,RoomPage.modify_lookup,if_pos rfl]

theorem tracked_toggle (h : s.Tracked) (hcarries : ∀ e ∈ s.pending, e.carries = none)
    (hjoin : s.muted = false → ¬ s.Joins) :
    (s.next formatTime (.message (.roomPage .muteToggle))).Tracked := by
  have hmem : ∀ {e}, e ∈ s.pending + {Errand.muteInput !s.muted} ↔
      e ∈ s.pending ∨ e = .muteInput !s.muted := by
    intro e
    rw [Multiset.mem_add,Multiset.mem_singleton]
  constructor
  · intro e he b hb
    rcases hmem.mp he with he | rfl
    · rw [hcarries e he] at hb
      cases hb
    · cases hb
      rfl
  · exact .inr (hmem.mpr (.inr rfl))
  · rintro ⟨e,he,hcommand⟩
    rcases hmem.mp he with he | rfl
    · change (!s.muted) = false
      cases hoff : s.muted with
      | true => rfl
      | false => exact (hjoin hoff ⟨e,he,hcommand⟩).elim
    · cases hcommand
  · intro userId participants he
    rcases hmem.mp he with he | heq
    · exact h.listed userId participants he
    · cases heq
  · intro user huser _
    have hown := modifyOwn_own { s.app.room with muted := !s.app.room.muted }
      fun user => { user with isMuted := !s.app.room.muted }
    obtain ⟨old,_,rfl⟩ := Option.map_eq_some_iff.mp (hown.symm.trans huser)
    rfl
  · exact .inl (.inr (.inl (hmem.mpr (.inr rfl))))

theorem tracked_press (h : s.Tracked) (hjoin : s.app.room.isInVoice = true ∨ s.muted = false) :
    (s.next formatTime (.message (.roomPage .joinLeaveToggle))).Tracked := by
  have hmem : ∀ {e}, e ∈ s.pending + errands s.app.room (.roomPage .joinLeaveToggle) →
      e ∈ s.pending ∨ e = .executeVoiceCommand .leaveVoiceChannel ∨
        e = .executeVoiceCommand .joinVoiceChannel ∧ s.app.room.isInVoice = false := by
    intro e he
    rcases Multiset.mem_add.mp he with he | he
    · exact .inl he
    · simp only [errands] at he
      split at he
      · exact .inr (.inl (Multiset.mem_singleton.mp he))
      · rename_i hout
        exact .inr (.inr ⟨Multiset.mem_singleton.mp he,by simpa using hout⟩)
  have hmore : ∀ {e}, e ∈ s.pending → e ∈ s.pending + errands s.app.room (.roomPage .joinLeaveToggle) :=
    fun he => Multiset.mem_add.mpr (.inl he)
  constructor
  · intro e he b hb
    rcases hmem he with he | rfl | ⟨rfl,_⟩
    · exact h.carried e he b hb
    · cases hb
    · cases hb
  · exact h.input.imp id hmore
  · rintro ⟨e,he,hcommand⟩
    rcases hmem he with he | rfl | ⟨rfl,hout⟩
    · exact h.joining ⟨e,he,hcommand⟩
    · cases hcommand
    · rcases hjoin with hin | hoff
      · rw [hin] at hout
        cases hout
      · exact hoff
  · intro userId participants he
    rcases hmem he with he | heq | ⟨heq,_⟩
    · exact h.listed userId participants he
    · cases heq
    · cases heq
  · exact h.shown
  · rcases h.held with hknows | ⟨hon,⟨e,he,hwithdraws⟩ | hout⟩
    · exact .inl (hknows.imp id (Or.imp hmore hmore))
    · exact .inr ⟨hon,.inl ⟨e,hmore he,hwithdraws⟩⟩
    · exact .inr ⟨hon,.inr hout⟩

/-- A message that neither moves the slider nor is about voice. -/
theorem tracked_quiet (h : s.Tracked) {m : Message} (hinput : ∀ b, m ≠ .muteInput b)
    (hroom : s.app.room.update formatTime m = s.app.room) (herrands : errands s.app.room m = 0) :
    (s.next formatTime (.message m)).Tracked := by
  have hroom : (s.next formatTime (.message m)).app.room = s.app.room := hroom
  refine h.stays ?_ (update_isInputMuted _ hinput) ?_ rfl ?_
  · unfold muted
    rw [hroom]
  · unfold own
    rw [hroom]
  · change s.pending + errands s.app.room m = s.pending
    rw [herrands,add_zero]

theorem serverEventReceived_userId (page : RoomPage) (event : Sdk.ClientEvent)
    (h : ∀ userId participants, event ≠ .participantsList userId participants) :
    (page.serverEventReceived formatTime event).userId = page.userId := by
  cases event with
  | participantsList userId participants => exact (h userId participants rfl).elim
  | userSentMessage userId timestamp message =>
    simp only [RoomPage.serverEventReceived]
    split <;> rfl
  | _ => rfl

/-- What a fitting event says of the user itself. -/
theorem event_own (h : s.Tracked) {event : Sdk.ClientEvent} (hfits : s.Fits event) {user : ParticipantInfo}
    (huser : (s.next formatTime (.message (.serverEventReceived event))).own = some user)
    (hin : user.inVoice = true) :
    user.isMuted = s.muted ∧ (s.app.room.isInVoice = true ∨ s.Knows) := by
  have hknows : s.muted = false → s.Knows := by
    intro hoff
    rcases h.held with hknows | ⟨hon,_⟩
    · exact hknows
    · rw [hoff] at hon
      cases hon
  have hold : s.own = some user → user.isMuted = s.muted ∧ (s.app.room.isInVoice = true ∨ s.Knows) :=
    fun hown => ⟨h.shown user hown hin,.inl ((isInVoice_iff s).mpr ⟨user,hown,hin⟩)⟩
  have hseen : (∀ userId participants, event ≠ .participantsList userId participants) →
      RoomPage.seen s.app.room.userId s.own event = some user := by
    intro hlist
    have hlookup :=
      RoomPage.serverEventReceived_lookup formatTime s.app.room.toRoomPage event s.app.room.userId
    change Finmap.lookup (s.app.room.toRoomPage.serverEventReceived formatTime event).userId _ = _ at huser
    rw [serverEventReceived_userId s.app.room.toRoomPage event hlist] at huser
    exact hlookup.symm.trans huser
  cases event with
  | participantsList userId participants =>
    exact hfits user ((RoomPage.collectById_lookup userId participants).symm.trans huser) hin
  | userJoinedServer userId username =>
    have hseen := hseen (by simp)
    simp only [RoomPage.seen] at hseen
    split at hseen
    · cases hseen
      cases hin
    · exact hold hseen
  | userJoinedVoice userId =>
    have hseen := hseen (by simp)
    simp only [RoomPage.seen] at hseen
    split at hseen
    · rename_i hid
      obtain ⟨old,hown,rfl⟩ := Option.map_eq_some_iff.mp hseen
      have hoff := hfits hid (by simp [hown])
      exact ⟨hoff.symm,.inr (hknows hoff)⟩
    · exact hold hseen
  | userLeftVoice userId =>
    have hseen := hseen (by simp)
    simp only [RoomPage.seen] at hseen
    split at hseen
    · obtain ⟨old,_,rfl⟩ := Option.map_eq_some_iff.mp hseen
      cases hin
    · exact hold hseen
  | userLeftServer userId =>
    have hseen := hseen (by simp)
    simp only [RoomPage.seen] at hseen
    split at hseen
    · cases hseen
    · exact hold hseen
  | userSentMessage userId timestamp message => exact hold (hseen (by simp))
  | userMuteState userId isMuted =>
    have hseen := hseen (by simp)
    simp only [RoomPage.seen] at hseen
    split at hseen
    · rename_i hid
      obtain ⟨old,hown,rfl⟩ := Option.map_eq_some_iff.mp hseen
      have hvoice := (isInVoice_iff s).mpr ⟨old,hown,hin⟩
      exact ⟨hfits hid hvoice,.inl hvoice⟩
    · exact hold hseen

theorem tracked_event (h : s.Tracked) {event : Sdk.ClientEvent} (hfits : s.Fits event) :
    (s.next formatTime (.message (.serverEventReceived event))).Tracked := by
  have hpending : (s.next formatTime (.message (.serverEventReceived event))).pending = s.pending :=
    add_zero _
  have hinput : (s.next formatTime (.message (.serverEventReceived event))).inputMuted = s.inputMuted :=
    update_isInputMuted _ (by simp)
  constructor
  · rw [hpending]
    exact h.carried
  · rw [hpending,hinput]
    exact h.input
  · unfold Joins
    rw [hpending]
    exact h.joining
  · rw [hpending]
    exact h.listed
  · intro user huser hin
    exact (event_own h hfits huser hin).1
  · unfold Knows Leaves
    rw [hpending]
    rcases h.held with hknows | ⟨hon,hleave | hout⟩
    · exact .inl hknows
    · exact .inr ⟨hon,.inl hleave⟩
    · by_cases hknows : s.Knows
      · exact .inl hknows
      · refine .inr ⟨hon,.inr ?_⟩
        rw [Bool.eq_false_iff]
        intro hin
        obtain ⟨user,huser,hvoice⟩ := (isInVoice_iff _).mp hin
        rcases (event_own h hfits huser hvoice).2 with hin | hknown
        · rw [hout] at hin
          cases hin
        · exact hknows hknown

end Messages

/-! ## One errand -/

section Errands
variable {formatTime : UInt64 → String} {s : Station} {e x : Errand}

theorem mem_rest (hx : x ∈ s.pending) (hne : x ≠ e) : x ∈ s.pending.erase e + e.follow :=
  Multiset.mem_add.mpr (.inl ((Multiset.mem_erase_of_ne hne).mpr hx))

theorem mem_of_rest (hx : x ∈ s.pending.erase e + e.follow) : x ∈ s.pending ∨ x ∈ e.follow :=
  (Multiset.mem_add.mp hx).imp Multiset.mem_of_mem_erase id

/-- What follows belongs to the same command, and carries the same position. -/
theorem of_follow (hx : x ∈ e.follow) :
    x.command = e.command ∧ x.carries = e.carries ∧ ∀ userId participants, x ≠ .list userId participants := by
  cases e with
  | sendMuteState | result | list => cases hx
  | _ =>
    cases Multiset.mem_singleton.mp hx
    exact ⟨rfl,rfl,by simp⟩

theorem joins_of_next (he : e ∈ s.pending) (h : (s.next formatTime (.errand e)).Joins) : s.Joins := by
  obtain ⟨x,hx,hcommand⟩ := h
  rcases mem_of_rest hx with hx | hx
  · exact ⟨x,hx,hcommand⟩
  · exact ⟨e,he,(of_follow hx).1.symm.trans hcommand⟩

/-- Who is leaving is leaving until the result or the list has been processed. -/
theorem leaves_next (h : s.Leaves) (hresult : e ≠ .result .leaveVoiceChannel)
    (hlist : ∀ userId participants, e ≠ .list userId participants) :
    (s.next formatTime (.errand e)).Leaves := by
  obtain ⟨x,hx,hwithdraws⟩ := h
  by_cases hne : x = e
  · rw [hne] at hwithdraws
    cases e with
    | executeVoiceCommand c =>
      exact ⟨.request c,Multiset.mem_add.mpr (.inr (Multiset.mem_singleton_self _)),hwithdraws⟩
    | request c =>
      exact ⟨.result c,Multiset.mem_add.mpr (.inr (Multiset.mem_singleton_self _)),hwithdraws⟩
    | result c =>
      cases c with
      | joinVoiceChannel => cases hwithdraws
      | leaveVoiceChannel => exact (hresult rfl).elim
    | list userId participants => exact (hlist userId participants rfl).elim
    | _ => cases hwithdraws
  · exact ⟨x,mem_rest hx hne,hwithdraws⟩

theorem listed_next (h : s.Tracked) (userId : UInt64) (participants : List ParticipantInfo)
    (hx : .list userId participants ∈ (s.next formatTime (.errand e)).pending) :
    ∀ user, RoomPage.entry userId participants = some user → user.inVoice = false := by
  rcases mem_of_rest hx with hx | hx
  · exact h.listed userId participants hx
  · exact ((of_follow hx).2.2 userId participants rfl).elim

theorem carried_next (h : s.Tracked) (he : e ∈ s.pending)
    (hmuted : (s.next formatTime (.errand e)).muted = s.muted) :
    ∀ x ∈ (s.next formatTime (.errand e)).pending, ∀ b, x.carries = some b →
      b = (s.next formatTime (.errand e)).muted := by
  intro x hx b hb
  rw [hmuted]
  rcases mem_of_rest hx with hx | hx
  · exact h.carried x hx b hb
  · exact h.carried e he b ((of_follow hx).2.1.symm.trans hb)

/-- An errand of the voice client leaves what carries the slider. -/
theorem knows_rest (h : s.Knows) (hcarries : e.carries = none)
    (hmuted : (s.next formatTime (.errand e)).muted = s.muted)
    (hrecord : s.record.isMuted = s.muted → (e.serve s.record).isMuted = s.muted) :
    (s.next formatTime (.errand e)).Knows := by
  unfold Knows
  rw [hmuted]
  rcases h with hsame | hinput | hsend
  · exact .inl (hrecord hsame)
  · exact .inr (.inl (mem_rest hinput fun heq => by rw [← heq] at hcarries; cases hcarries))
  · exact .inr (.inr (mem_rest hsend fun heq => by rw [← heq] at hcarries; cases hcarries))

theorem input_rest (h : s.Tracked) (hcarries : ∀ b, e ≠ .muteInput b)
    (hmuted : (s.next formatTime (.errand e)).muted = s.muted)
    (hinput : (s.next formatTime (.errand e)).inputMuted = s.inputMuted) :
    (s.next formatTime (.errand e)).inputMuted = (s.next formatTime (.errand e)).muted ∨
      .muteInput (s.next formatTime (.errand e)).muted ∈ (s.next formatTime (.errand e)).pending := by
  rw [hinput,hmuted]
  exact h.input.imp id fun hmem => mem_rest hmem fun heq => hcarries _ heq.symm

theorem tracked_muteInput (h : s.Tracked) {b : Bool} (he : Errand.muteInput b ∈ s.pending) :
    (s.next formatTime (.errand (.muteInput b))).Tracked := by
  have hb : b = s.muted := h.carried _ he b rfl
  have hsend : Errand.sendMuteState s.muted ∈ (s.next formatTime (.errand (.muteInput b))).pending := by
    rw [← hb]
    exact Multiset.mem_add.mpr (.inr (Multiset.mem_singleton_self _))
  exact ⟨carried_next h he rfl,.inl hb,fun hjoin => h.joining (joins_of_next he hjoin),listed_next h,
    h.shown,.inl (.inr (.inr hsend))⟩

theorem tracked_sendMuteState (h : s.Tracked) {b : Bool} (he : Errand.sendMuteState b ∈ s.pending) :
    (s.next formatTime (.errand (.sendMuteState b))).Tracked := by
  have hb : b = s.muted := h.carried _ he b rfl
  exact ⟨carried_next h he rfl,input_rest h (by simp) rfl rfl,
    fun hjoin => h.joining (joins_of_next he hjoin),listed_next h,h.shown,.inl (.inl hb)⟩

theorem tracked_execute (h : s.Tracked) {c : VoiceCommand} (he : Errand.executeVoiceCommand c ∈ s.pending) :
    (s.next formatTime (.errand (.executeVoiceCommand c))).Tracked := by
  refine ⟨carried_next h he rfl,input_rest h (by simp) rfl rfl,
    fun hjoin => h.joining (joins_of_next he hjoin),listed_next h,h.shown,?_⟩
  rcases h.held with hknows | ⟨hon,hleave | hout⟩
  · exact .inl (knows_rest hknows rfl rfl id)
  · exact .inr ⟨hon,.inl (leaves_next hleave (by simp) (by simp))⟩
  · exact .inr ⟨hon,.inr hout⟩

theorem tracked_request (h : s.Tracked) {c : VoiceCommand} (he : Errand.request c ∈ s.pending) :
    (s.next formatTime (.errand (.request c))).Tracked := by
  refine ⟨carried_next h he rfl,input_rest h (by simp) rfl rfl,
    fun hjoin => h.joining (joins_of_next he hjoin),listed_next h,h.shown,?_⟩
  -- both commands clear the flag of the record
  have hclear : ((Errand.request c).serve s.record).isMuted = false := by
    cases c <;> rfl
  cases hmuted : s.muted with
  | false => exact .inl (.inl (hclear.trans hmuted.symm))
  | true =>
    cases c with
    | joinVoiceChannel =>
      have hoff := h.joining ⟨_,he,rfl⟩
      rw [hmuted] at hoff
      cases hoff
    | leaveVoiceChannel => exact .inr ⟨hmuted,.inl (leaves_next ⟨_,he,rfl⟩ (by simp) (by simp))⟩

theorem succeeded_own (c : VoiceCommand) :
    (s.next formatTime (.errand (.result c))).own = s.own.map fun user =>
      { user with inVoice := c == .joinVoiceChannel, isMuted := false } := by
  cases c with
  | joinVoiceChannel => exact modifyOwn_own _ _
  | leaveVoiceChannel => exact modifyOwn_own _ _

theorem tracked_result (h : s.Tracked) {c : VoiceCommand} (he : Errand.result c ∈ s.pending) :
    (s.next formatTime (.errand (.result c))).Tracked := by
  have hmuted : (s.next formatTime (.errand (.result c))).muted = s.muted := by
    cases c <;> rfl
  have hinput : (s.next formatTime (.errand (.result c))).inputMuted = s.inputMuted := by
    cases c <;> rfl
  have hknows : s.Knows → (s.next formatTime (.errand (.result c))).Knows :=
    fun hknows => knows_rest hknows rfl hmuted id
  refine ⟨carried_next h he hmuted,input_rest h (by simp) hmuted hinput,?_,listed_next h,?_,?_⟩
  · intro hjoin
    rw [hmuted]
    exact h.joining (joins_of_next he hjoin)
  · intro user huser hin
    rw [succeeded_own] at huser
    obtain ⟨old,_,rfl⟩ := Option.map_eq_some_iff.mp huser
    cases c with
    | joinVoiceChannel => exact (hmuted.trans (h.joining ⟨_,he,rfl⟩)).symm
    | leaveVoiceChannel => cases hin
  · rcases h.held with hknown | ⟨hon,_⟩
    · exact .inl (hknows hknown)
    · cases c with
      | joinVoiceChannel =>
        have hoff := h.joining ⟨_,he,rfl⟩
        rw [hon] at hoff
        cases hoff
      | leaveVoiceChannel =>
        refine .inr ⟨hmuted.trans hon,.inr ?_⟩
        rw [Bool.eq_false_iff]
        intro hin
        obtain ⟨user,huser,hvoice⟩ := (isInVoice_iff _).mp hin
        rw [succeeded_own] at huser
        obtain ⟨old,_,rfl⟩ := Option.map_eq_some_iff.mp huser
        cases hvoice

/-- The list of a login takes the user out of voice on the page. -/
theorem tracked_list (h : s.Tracked) {userId : UInt64} {participants : List ParticipantInfo}
    (he : Errand.list userId participants ∈ s.pending) :
    (s.next formatTime (.errand (.list userId participants))).Tracked := by
  have hinput : (s.next formatTime (.errand (.list userId participants))).inputMuted = s.inputMuted :=
    update_isInputMuted _ (by simp)
  have hout : ∀ user, (s.next formatTime (.errand (.list userId participants))).own = some user →
      user.inVoice = false := by
    intro user huser
    exact h.listed userId participants he user
      ((RoomPage.collectById_lookup userId participants).symm.trans huser)
  refine ⟨carried_next h he rfl,input_rest h (by simp) rfl hinput,
    fun hjoin => h.joining (joins_of_next he hjoin),listed_next h,?_,?_⟩
  · intro user huser hin
    rw [hout user huser] at hin
    cases hin
  · rcases h.held with hknows | ⟨hon,_⟩
    · exact .inl (knows_rest hknows rfl rfl id)
    · refine .inr ⟨hon,.inr ?_⟩
      rw [Bool.eq_false_iff]
      intro hin
      obtain ⟨user,huser,hvoice⟩ := (isInVoice_iff _).mp hin
      rw [hout user huser] at hvoice
      cases hvoice

end Errands

/-! ## Every run -/

section Runs
variable {formatTime : UInt64 → String} {s t : Station} {label : Label}

theorem tracked_message (h : s.Tracked) {m : Message} (hm : External m) (hcareful : s.Careful (.message m)) :
    (s.next formatTime (.message m)).Tracked := by
  cases m with
  | muteInput => exact hm.elim
  | roomPage message =>
    cases message with
    | muteToggle => exact tracked_toggle h hcareful.1 hcareful.2
    | joinLeaveToggle => exact tracked_press h hcareful
    | _ => exact tracked_quiet h (by simp) rfl rfl
  | serverEventReceived event => exact tracked_event h hcareful
  | voiceCommandResult result =>
    cases result with
    | joinVoiceChannel => exact hm.elim
    | leaveVoiceChannel => exact hm.elim
    | _ => exact tracked_quiet h (by simp) rfl rfl
  | _ => exact tracked_quiet h (by simp) rfl rfl

/-- A new record of the server is not muted, and the list of the login is on its way. -/
theorem tracked_connect (h : s.Tracked) {id token : UInt64} {username : String}
    {participants : List ParticipantInfo}
    (hentry : RoomPage.entry id participants = some ⟨id,username,false,false⟩) :
    (s.next formatTime (.connect id token username participants)).Tracked := by
  have hmem : ∀ {e}, e ∈ s.pending + {Errand.list id participants} ↔
      e ∈ s.pending ∨ e = .list id participants := by
    intro e
    rw [Multiset.mem_add,Multiset.mem_singleton]
  refine ⟨?_,h.input.imp (fun heq => heq) fun he => hmem.mpr (.inl he),?_,?_,h.shown,?_⟩
  · intro e he b hb
    rcases hmem.mp he with he | rfl
    · exact h.carried e he b hb
    · cases hb
  · rintro ⟨e,he,hcommand⟩
    rcases hmem.mp he with he | rfl
    · exact h.joining ⟨e,he,hcommand⟩
    · cases hcommand
  · intro userId listed he user huser
    rcases hmem.mp he with he | heq
    · exact h.listed userId listed he user huser
    · cases heq
      rw [hentry] at huser
      cases huser
      rfl
  · cases hmuted : s.muted with
    | false => exact .inl (.inl hmuted.symm)
    | true => exact .inr ⟨hmuted,.inl ⟨_,hmem.mpr (.inr rfl),rfl⟩⟩

theorem step_tracked (h : s.Tracked) (hstep : Guarded Careful (Step formatTime) s label t) : t.Tracked := by
  obtain ⟨hcareful,henabled,rfl⟩ := hstep
  cases label with
  | message m => exact tracked_message h henabled hcareful
  | connect id token username participants => exact tracked_connect h henabled
  | errand e =>
    cases e with
    | muteInput b => exact tracked_muteInput h henabled
    | sendMuteState b => exact tracked_sendMuteState h henabled
    | executeVoiceCommand c => exact tracked_execute h henabled
    | request c => exact tracked_request h henabled
    | result c => exact tracked_result h henabled
    | list userId participants => exact tracked_list h henabled

theorem new_tracked (id token : UInt64) : (new id token).Tracked := by
  refine ⟨fun e he => (Multiset.notMem_zero e he).elim,.inl rfl,fun _ => rfl,
    fun _ _ he => (Multiset.notMem_zero _ he).elim,fun user huser => ?_,.inl (.inl rfl)⟩
  cases huser

theorem run_tracked {id token : UInt64} {trace : List Label}
    (hr : Run (Guarded Careful (Step formatTime)) (new id token) trace s) : s.Tracked :=
  hr.preserves (fun _ _ _ h hstep => step_tracked h hstep) (new_tracked id token)

/-- In every run of careful use, whenever the user is in voice and nothing is pending, the
icon, the microphone and the server agree with the slider. -/
theorem muted_everywhere {id token : UInt64} {trace : List Label}
    (hr : Run (Guarded Careful (Step formatTime)) (new id token) trace s) (hrest : s.pending = 0)
    {user : ParticipantInfo} (hown : s.own = some user) (hin : user.inVoice = true) :
    user.isMuted = s.muted ∧ s.inputMuted = s.muted ∧ s.record.isMuted = s.muted := by
  have h := run_tracked hr
  have hnone : ∀ e, e ∉ s.pending := fun e => by
    rw [hrest]
    exact Multiset.notMem_zero e
  refine ⟨h.shown user hown hin,?_,?_⟩
  · rcases h.input with hinput | hinput
    · exact hinput
    · exact (hnone _ hinput).elim
  · rcases h.held with (hrecord | hinput | hsend) | ⟨_,⟨e,he,_⟩ | hout⟩
    · exact hrecord
    · exact (hnone _ hinput).elim
    · exact (hnone _ hsend).elim
    · exact (hnone e he).elim
    · have hvoice := (isInVoice_iff s).mpr ⟨user,hown,hin⟩
      rw [hout] at hvoice
      cases hvoice

end Runs

/-! ## One thing after the other -/

section Settled
variable {guard : Station → Label → Prop} {formatTime : UInt64 → String} {s : Station}
  {trace : List Label} {app : Application} {record : Management.User}

/-- A message comes in when nothing is pending. -/
theorem run_message (hr : Run (Guarded guard (Step formatTime)) s trace ⟨app,record,0⟩) {m : Message}
    (hm : External m) (hguard : guard ⟨app,record,0⟩ (.message m)) :
    Run (Guarded guard (Step formatTime)) s (trace ++ [.message m])
      ⟨app.update formatTime m,record,errands app.room m⟩ := by
  refine hr.snoc ⟨hguard,hm,?_⟩
  simp only [next,zero_add]

/-- The only thing that is pending is done. -/
theorem run_errand {e : Errand} (hr : Run (Guarded guard (Step formatTime)) s trace ⟨app,record,{e}⟩)
    (hguard : ∀ s e, guard s (.errand e)) :
    Run (Guarded guard (Step formatTime)) s (trace ++ [.errand e])
      ⟨e.apply formatTime app,e.serve record,e.follow⟩ := by
  refine hr.snoc ⟨hguard _ e,Multiset.mem_singleton_self e,?_⟩
  simp only [next,Multiset.erase_singleton,zero_add]

/-- The slider is moved, and its position arrives everywhere. -/
theorem run_toggle (hr : Run (Guarded guard (Step formatTime)) s trace ⟨app,record,0⟩)
    (hguard : ∀ s e, guard s (.errand e))
    (htoggle : guard ⟨app,record,0⟩ (.message (.roomPage .muteToggle))) :
    ∃ trace', Run (Guarded guard (Step formatTime)) s trace'
      ⟨(app.update formatTime (.roomPage .muteToggle)).update formatTime (.muteInput !app.room.muted),
        { record with isMuted := !app.room.muted },0⟩ :=
  ⟨_,run_errand (run_errand (run_message hr (m := .roomPage .muteToggle) trivial htoggle) hguard) hguard⟩

/-- The button is pressed, and the server carries the command out. -/
theorem run_press (hr : Run (Guarded guard (Step formatTime)) s trace ⟨app,record,0⟩)
    (hguard : ∀ s e, guard s (.errand e))
    (hpress : guard ⟨app,record,0⟩ (.message (.roomPage .joinLeaveToggle))) (c : VoiceCommand)
    (hc : errands app.room (.roomPage .joinLeaveToggle) = {.executeVoiceCommand c}) :
    ∃ trace', Run (Guarded guard (Step formatTime)) s trace'
      ⟨((app.update formatTime (.roomPage .joinLeaveToggle)).update formatTime
        .executeVoiceCommand).update formatTime c.succeeded,c.update record,0⟩ := by
  have hpressed := run_message hr (m := .roomPage .joinLeaveToggle) trivial hpress
  rw [hc] at hpressed
  exact ⟨_,run_errand (run_errand (run_errand hpressed hguard) hguard) hguard⟩

end Settled

/-- Ann has logged in, alone. -/
def ann : Application :=
  Application.new.update (fun _ => "") (.serverEventReceived (.participantsList 1 [⟨1,"ann",false,false⟩]))

theorem run_ann {guard : Station → Label → Prop} (hguard : ∀ s e, guard s (.errand e))
    (hconnect : guard (new 1 11) (.connect 1 11 "ann" [⟨1,"ann",false,false⟩])) :
    ∃ trace, Run (Guarded guard (Step fun _ => "")) (new 1 11) trace ⟨ann,⟨1,some "ann",false,false,11⟩,0⟩ := by
  have hconnected : Run (Guarded guard (Step fun _ => "")) (new 1 11) _
      ⟨.new,⟨1,some "ann",false,false,11⟩,{.list 1 [⟨1,"ann",false,false⟩]}⟩ :=
    Run.single ⟨hconnect,rfl,rfl⟩
  exact ⟨_,run_errand hconnected hguard⟩

/-- Ann joins and mutes, and is muted everywhere. -/
theorem muted_everywhere_ann : ∃ trace s, Run (Guarded Careful (Step fun _ => "")) (new 1 11) trace s ∧
    s.pending = 0 ∧ s.own = some ⟨1,"ann",true,true⟩ ∧ s.muted = true ∧ s.inputMuted = s.muted ∧
    s.record.isMuted = s.muted := by
  have herrand : ∀ (s : Station) (e : Errand), s.Careful (.errand e) := fun _ _ => trivial
  obtain ⟨_,hann⟩ := run_ann herrand trivial
  obtain ⟨_,hjoined⟩ := run_press hann herrand (.inr rfl) .joinVoiceChannel rfl
  obtain ⟨_,hmuted⟩ := run_toggle hjoined herrand ⟨fun e he => (Multiset.notMem_zero e he).elim,
    fun _ ⟨e,he,_⟩ => (Multiset.notMem_zero e he).elim⟩
  obtain ⟨_,hinput,hrecord⟩ := muted_everywhere hmuted rfl
    (show Station.own _ = some ⟨1,"ann",true,true⟩ from rfl) rfl
  exact ⟨_,_,hmuted,rfl,rfl,rfl,hinput,hrecord⟩

/-- Ann mutes, leaves and joins again. The slider and the microphone are muted, her icon and
the server's record are not. -/
theorem muted_rejoin_shown_unmuted : ∃ trace s, Run (Step fun _ => "") (new 1 11) trace s ∧
    s.pending = 0 ∧ s.own = some ⟨1,"ann",true,false⟩ ∧ s.muted = true ∧ s.inputMuted = true ∧
    s.record.isMuted = false := by
  have herrand : ∀ (s : Station) (e : Errand), (fun _ _ => True : Station → Label → Prop) s (.errand e) :=
    fun _ _ => trivial
  obtain ⟨_,hann⟩ : ∃ trace, Run (Guarded (fun _ _ => True) (Step fun _ => "")) (new 1 11) trace _ :=
    run_ann herrand trivial
  obtain ⟨_,hjoined⟩ := run_press hann herrand trivial .joinVoiceChannel rfl
  obtain ⟨_,hmuted⟩ := run_toggle hjoined herrand trivial
  obtain ⟨_,hleft⟩ := run_press hmuted herrand trivial .leaveVoiceChannel rfl
  obtain ⟨_,hrejoined⟩ := run_press hleft herrand trivial .joinVoiceChannel rfl
  exact ⟨_,_,hrejoined.mono fun _ _ _ h => h.2,rfl,rfl,rfl,rfl,rfl⟩

end Station
end VoiceApp.System
