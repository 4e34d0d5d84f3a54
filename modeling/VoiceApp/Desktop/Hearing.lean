import VoiceApp.Desktop.Application

/-! # Who is heard

The audio state and the room page fold the same messages into two records of who is in
voice. A message keeps the two in step under a condition that can be read off the message
and the state it meets.
-/
namespace VoiceApp.Desktop
open Protocol Sdk

/-- The user has a record that says it is in voice. -/
def RoomView.shows (v : RoomView) (id : UInt64) : Bool :=
  ((v.participants.lookup id).map ParticipantInfo.inVoice).getD false

namespace Application

/-- Whoever is in voice, by either record, has a stream for exactly those others whose
record on the page says that they are in voice. -/
def HearsEveryone (app : Application) : Prop :=
  app.audio.inVoice = true ∨ app.room.isInVoice = true →
    ∀ id, id ∈ app.audio.audioManager.outputStreams ↔
      id ≠ app.room.userId ∧ app.room.shows id = true

/-- Both records name the same users, and the streams are those of the others while the
user itself is in voice. -/
structure InStep (app : Application) : Prop where
  tracks : ∀ id, id ∈ app.audio.usersInVoice ↔ app.room.shows id = true
  streams : app.audio.audioManager.outputStreams =
    if app.audio.userId ∈ app.audio.usersInVoice then app.audio.usersInVoice.erase app.audio.userId
    else ∅
  same : app.audio.userId ∈ app.audio.usersInVoice ∨ app.room.userId ∈ app.audio.usersInVoice →
    app.audio.userId = app.room.userId

/-- What the state must be like for a message to keep the two records in step. -/
def Expected (app : Application) : Message → Prop
  | .voiceCommandResult (.connect (.ok (userId,_,_))) => userId = app.audio.userId ∨
      app.audio.userId ∉ app.audio.usersInVoice ∧ userId ∉ app.audio.usersInVoice
  | .voiceCommandResult (.joinVoiceChannel (.ok ())) =>
    app.audio.userId ∉ app.audio.usersInVoice ∧ app.audio.userId = app.room.userId ∧
      (app.room.participants.lookup app.room.userId).isSome = true
  | .serverEventReceived (.participantsList userId participants) =>
    (∀ id, id ∈ app.audio.usersInVoice ↔
      ((RoomPage.entry id participants).map ParticipantInfo.inVoice).getD false = true) ∧
    (app.audio.userId ∈ app.audio.usersInVoice ∨ userId ∈ app.audio.usersInVoice →
      app.audio.userId = userId)
  | .serverEventReceived (.userJoinedServer userId _) => app.room.shows userId = false
  | .serverEventReceived (.userJoinedVoice userId) =>
    (app.room.participants.lookup userId).isSome = true ∧ userId ≠ app.audio.userId ∧
      userId ≠ app.room.userId
  | .serverEventReceived (.userLeftVoice userId) => userId = app.audio.userId →
      app.audio.audioManager.outputStreams = ∅
  | .serverEventReceived (.userLeftServer userId) => app.room.shows userId = false
  | _ => True

theorem inVoice_iff (a : AudioManagerState) : a.inVoice = true ↔ a.userId ∈ a.usersInVoice := by
  simp [AudioManagerState.inVoice]

theorem InStep.hears {app : Application} (h : app.InStep) : app.HearsEveryone := by
  intro hin id
  have hroom : app.room.isInVoice = true ↔ app.room.userId ∈ app.audio.usersInVoice :=
    (h.tracks app.room.userId).symm
  rw [inVoice_iff,hroom] at hin
  have hsame := h.same hin
  have hown : app.audio.userId ∈ app.audio.usersInVoice := by
    rcases hin with hin | hin
    · exact hin
    · rwa [hsame]
  rw [h.streams,if_pos hown,Finset.mem_erase,h.tracks,hsame]

/-- Out of voice by the audio record, the user is out of voice by the page's. -/
theorem InStep.out {app : Application} (h : app.InStep)
    (hout : app.audio.userId ∉ app.audio.usersInVoice) :
    app.room.userId ∉ app.audio.usersInVoice ∧ app.audio.audioManager.outputStreams = ∅ := by
  refine ⟨fun hroom => hout ?_,?_⟩
  · rwa [h.same (.inr hroom)]
  · rw [h.streams,if_neg hout]

end Application

/-! ## What a message does to the page's record -/

namespace RoomView
variable (v : RoomView)

theorem shows_modify {v' : RoomView} {userId : UInt64} {f : ParticipantInfo → ParticipantInfo}
    (h : v'.participants = v.participants.modify userId f) (id : UInt64) :
    v'.shows id = if userId = id then
      ((v.participants.lookup id).map fun user => (f user).inVoice).getD false else v.shows id := by
  rw [shows,h,RoomPage.modify_lookup]
  split
  · rw [Option.map_map]
    rfl
  · rfl

/-- A record that is set to be in voice, or out of it. -/
theorem shows_set {v' : RoomView} {userId : UInt64} {f : ParticipantInfo → ParticipantInfo} {b : Bool}
    (h : v'.participants = v.participants.modify userId f) (hf : ∀ user, (f user).inVoice = b)
    (id : UInt64) : v'.shows id =
      if userId = id then (v.participants.lookup id).isSome && b else v.shows id := by
  rw [v.shows_modify h]
  split
  · cases v.participants.lookup id with
    | none => rfl
    | some user => exact hf user
  · rfl

/-- A record that keeps its flag. -/
theorem shows_keep {v' : RoomView} {userId : UInt64} {f : ParticipantInfo → ParticipantInfo}
    (h : v'.participants = v.participants.modify userId f) (hf : ∀ user, (f user).inVoice = user.inVoice)
    (id : UInt64) : v'.shows id = v.shows id := by
  rw [v.shows_modify h,shows]
  split
  · exact congrArg (fun x => (Option.map x (v.participants.lookup id)).getD false) (funext hf)
  · rfl

end RoomView

/-! ## One message -/

namespace Application
variable {formatTime : UInt64 → String} {app app' : Application}

theorem inStep_congr (husers : app'.audio.usersInVoice = app.audio.usersInVoice)
    (hstreams : app'.audio.audioManager.outputStreams = app.audio.audioManager.outputStreams)
    (haudio : app'.audio.userId = app.audio.userId) (hroom : app'.room.userId = app.room.userId)
    (hshows : ∀ id, app'.room.shows id = app.room.shows id) : app'.InStep ↔ app.InStep := by
  have hfields : ∀ {x y : Application}, x.audio.usersInVoice = y.audio.usersInVoice →
      x.audio.audioManager.outputStreams = y.audio.audioManager.outputStreams →
      x.audio.userId = y.audio.userId → x.room.userId = y.room.userId →
      (∀ id, x.room.shows id = y.room.shows id) → y.InStep → x.InStep := by
    intro x y h₁ h₂ h₃ h₄ h₅ h
    refine ⟨fun id => ?_,?_,?_⟩
    · rw [h₁,h₅]
      exact h.tracks id
    · rw [h₁,h₂,h₃]
      exact h.streams
    · rw [h₁,h₃,h₄]
      exact h.same
  exact ⟨hfields husers.symm hstreams.symm haudio.symm hroom.symm fun id => (hshows id).symm,
    hfields husers hstreams haudio hroom hshows⟩

/-- A message that changes nothing the two records are about. -/
theorem inStep_quiet (h : app.InStep) (husers : app'.audio.usersInVoice = app.audio.usersInVoice)
    (hstreams : app'.audio.audioManager.outputStreams = app.audio.audioManager.outputStreams)
    (haudio : app'.audio.userId = app.audio.userId) (hroom : app'.room.userId = app.room.userId)
    (hshows : ∀ id, app'.room.shows id = app.room.shows id) : app'.InStep ↔ True :=
  iff_true_intro ((inStep_congr husers hstreams haudio hroom hshows).mpr h)

theorem connect_inStep_iff (h : app.InStep) {userId : UInt64}
    (haudio : app'.audio = ⟨app.audio.audioManager,userId,app.audio.usersInVoice⟩) (hroom : app'.room = app.room) :
    app'.InStep ↔ userId = app.audio.userId ∨
      app.audio.userId ∉ app.audio.usersInVoice ∧ userId ∉ app.audio.usersInVoice := by
  constructor
  · intro h'
    have hsame : userId ∈ app.audio.usersInVoice ∨ app.room.userId ∈ app.audio.usersInVoice →
        userId = app.room.userId := by
      have hnew := h'.same
      rwa [haudio,hroom] at hnew
    by_cases hown : app.audio.userId ∈ app.audio.usersInVoice
    · left
      have hold := h.same (.inl hown)
      rw [hold,hsame (.inr (hold ▸ hown))]
    · right
      refine ⟨hown,fun hnew => (h.out hown).1 ?_⟩
      have heq : userId = app.room.userId := hsame (.inl hnew)
      exact heq ▸ hnew
  · rintro (rfl | ⟨hown,hnew⟩)
    · exact (inStep_congr (by rw [haudio]) (by rw [haudio]) (by rw [haudio]) (by rw [hroom])
        fun id => by rw [hroom]).mpr h
    · obtain ⟨hout,hempty⟩ := h.out hown
      refine ⟨fun id => ?_,?_,?_⟩
      · rw [haudio,hroom]
        exact h.tracks id
      · rw [haudio]
        exact hempty.trans (if_neg hnew).symm
      · rw [haudio,hroom]
        rintro (hin | hin)
        · exact (hnew hin).elim
        · exact (hout hin).elim

theorem join_inStep_iff (h : app.InStep)
    (haudio : app'.audio = ⟨app.audio.audioManager.createOutputStreams app.audio.usersInVoice,
      app.audio.userId,insert app.audio.userId app.audio.usersInVoice⟩)
    (hroom : app'.room.userId = app.room.userId)
    (hshows : ∀ id, app'.room.shows id = if app.room.userId = id then
      (app.room.participants.lookup id).isSome && true else app.room.shows id) :
    app'.InStep ↔ app.audio.userId ∉ app.audio.usersInVoice ∧ app.audio.userId = app.room.userId ∧
      (app.room.participants.lookup app.room.userId).isSome = true := by
  constructor
  · intro h'
    have hin := Finset.mem_insert_self app.audio.userId app.audio.usersInVoice
    have hstreams := h'.streams
    have hsame := h'.same
    have htracks := h'.tracks app.audio.userId
    rw [haudio] at hstreams htracks
    rw [haudio,hroom] at hsame
    have heq : app.audio.userId = app.room.userId := hsame (.inl hin)
    refine ⟨fun hown => ?_,heq,?_⟩
    · -- joining again creates a stream for the user itself
      have hstream : app.audio.userId ∈
          (app.audio.audioManager.createOutputStreams app.audio.usersInVoice).outputStreams :=
        Finset.mem_union_right _ hown
      rw [hstreams,if_pos hin] at hstream
      exact Finset.notMem_erase _ _ hstream
    · have hshown := htracks.mp hin
      rw [hshows,if_pos heq.symm,Bool.and_true,heq] at hshown
      exact hshown
  · rintro ⟨hown,heq,hrecord⟩
    have hempty := (h.out hown).2
    refine ⟨fun id => ?_,?_,?_⟩
    · rw [haudio,hshows]
      by_cases hid : app.room.userId = id
      · rw [if_pos hid,Bool.and_true,← hid,hrecord,heq]
        exact iff_of_true (Finset.mem_insert_self _ _) rfl
      · have hne : id ≠ app.audio.userId := fun hid' => hid (heq.symm.trans hid'.symm)
        rw [if_neg hid,Finset.mem_insert,or_iff_right hne]
        exact h.tracks id
    · rw [haudio,if_pos (Finset.mem_insert_self _ _),Finset.erase_insert hown]
      change app.audio.audioManager.outputStreams ∪ _ = _
      rw [hempty,Finset.empty_union]
    · rw [haudio,hroom]
      exact fun _ => heq

theorem leave_inStep (h : app.InStep)
    (haudio : app'.audio = ⟨app.audio.audioManager.removeAllOutputStreams,app.audio.userId,
      app.audio.usersInVoice.erase app.audio.userId⟩)
    (hroom : app'.room.userId = app.room.userId)
    (hshows : ∀ id, app'.room.shows id = if app.room.userId = id then
      (app.room.participants.lookup id).isSome && false else app.room.shows id) : app'.InStep := by
  have hgone : app.room.userId ∉ app.audio.usersInVoice.erase app.audio.userId := by
    intro hin
    obtain ⟨hne,hin⟩ := Finset.mem_erase.mp hin
    exact hne (h.same (.inr hin)).symm
  refine ⟨fun id => ?_,?_,?_⟩
  · rw [haudio,hshows]
    by_cases hid : app.room.userId = id
    · rw [if_pos hid,Bool.and_false,← hid]
      exact iff_of_false hgone Bool.false_ne_true
    · rw [if_neg hid,← h.tracks,Finset.mem_erase,and_iff_right_iff_imp]
      intro hin heq
      -- in voice the user has one id in both records
      rw [heq] at hin hid
      exact hid (h.same (.inl hin)).symm
  · rw [haudio,if_neg (Finset.notMem_erase _ _)]
    rfl
  · rw [haudio,hroom]
    rintro (hin | hin)
    · exact (Finset.notMem_erase _ _ hin).elim
    · exact (hgone hin).elim

theorem list_inStep_iff (h : app.InStep) {userId : UInt64} {participants : List ParticipantInfo}
    (haudio : app'.audio = app.audio) (hroom : app'.room.userId = userId)
    (hshows : ∀ id, app'.room.shows id =
      ((RoomPage.entry id participants).map ParticipantInfo.inVoice).getD false) :
    app'.InStep ↔ (∀ id, id ∈ app.audio.usersInVoice ↔
        ((RoomPage.entry id participants).map ParticipantInfo.inVoice).getD false = true) ∧
      (app.audio.userId ∈ app.audio.usersInVoice ∨ userId ∈ app.audio.usersInVoice →
        app.audio.userId = userId) := by
  constructor
  · intro h'
    have htracks := h'.tracks
    have hsame := h'.same
    simp only [haudio,hshows] at htracks
    rw [haudio,hroom] at hsame
    exact ⟨htracks,hsame⟩
  · rintro ⟨htracks,hsame⟩
    refine ⟨fun id => ?_,?_,?_⟩
    · rw [haudio,hshows]
      exact htracks id
    · rw [haudio]
      exact h.streams
    · rw [haudio,hroom]
      exact hsame

/-- A record that appears out of voice, or disappears. -/
theorem hidden_inStep_iff (h : app.InStep) {userId : UInt64} (haudio : app'.audio = app.audio)
    (hroom : app'.room.userId = app.room.userId)
    (hshows : ∀ id, app'.room.shows id = if userId = id then false else app.room.shows id) :
    app'.InStep ↔ app.room.shows userId = false := by
  constructor
  · intro h'
    have htracks := h'.tracks userId
    rw [haudio,hshows,if_pos rfl,h.tracks] at htracks
    exact Bool.eq_false_iff.mpr fun hshown => Bool.false_ne_true (htracks.mp hshown)
  · intro hhidden
    refine (inStep_congr (by rw [haudio]) (by rw [haudio]) (by rw [haudio]) hroom fun id => ?_).mpr h
    rw [hshows]
    split
    · rename_i hid
      rw [← hid,hhidden]
    · rfl

theorem joinedVoice_inStep_iff (h : app.InStep) {userId : UInt64}
    (haudio : app'.audio = app.audio.update (.serverEventReceived (.userJoinedVoice userId)))
    (hroom : app'.room.userId = app.room.userId)
    (hshows : ∀ id, app'.room.shows id = if userId = id then
      (app.room.participants.lookup id).isSome && true else app.room.shows id) :
    app'.InStep ↔ (app.room.participants.lookup userId).isSome = true ∧
      userId ≠ app.audio.userId ∧ userId ≠ app.room.userId := by
  have husers : app'.audio.usersInVoice = insert userId app.audio.usersInVoice := by
    rw [haudio,AudioManagerState.update]
    split <;> rfl
  have hid : app'.audio.userId = app.audio.userId := by
    rw [haudio,AudioManagerState.update]
    split <;> rfl
  have hstreams : app'.audio.audioManager.outputStreams =
      if app.audio.userId ∈ insert userId app.audio.usersInVoice then
        insert userId app.audio.audioManager.outputStreams
      else app.audio.audioManager.outputStreams := by
    rw [haudio,AudioManagerState.update]
    simp only [inVoice_iff]
    split <;> rfl
  constructor
  · intro h'
    have hin := Finset.mem_insert_self userId app.audio.usersInVoice
    have hne : userId ≠ app.audio.userId := by
      intro heq
      have hall := h'.streams
      rw [hstreams,husers,hid,← heq,if_pos hin,if_pos hin] at hall
      -- the user itself would have a stream
      exact Finset.notMem_erase _ _ (hall ▸ Finset.mem_insert_self _ _)
    refine ⟨?_,hne,fun heq => hne ?_⟩
    · have hshown := (h'.tracks userId).mp (husers ▸ hin)
      rwa [hshows,if_pos rfl,Bool.and_true] at hshown
    · have hsame := h'.same
      rw [husers,hid,hroom,← heq] at hsame
      exact (hsame (.inr hin)).symm
  · rintro ⟨hrecord,hne,hne'⟩
    have hown : app.audio.userId ∈ insert userId app.audio.usersInVoice ↔
        app.audio.userId ∈ app.audio.usersInVoice := by
      rw [Finset.mem_insert,or_iff_right (Ne.symm hne)]
    refine ⟨fun id => ?_,?_,?_⟩
    · rw [husers,hshows,Finset.mem_insert]
      by_cases heq : userId = id
      · rw [if_pos heq,← heq,hrecord]
        exact iff_of_true (.inl rfl) rfl
      · rw [if_neg heq,or_iff_right (Ne.symm heq)]
        exact h.tracks id
    · rw [hstreams,husers,hid,h.streams]
      simp only [hown]
      split
      · exact (Finset.erase_insert_of_ne hne).symm
      · rfl
    · rw [husers,hid,hroom,hown,Finset.mem_insert,or_iff_right (Ne.symm hne')]
      exact h.same

theorem leftVoice_inStep_iff (h : app.InStep) {userId : UInt64}
    (haudio : app'.audio = app.audio.update (.serverEventReceived (.userLeftVoice userId)))
    (hroom : app'.room.userId = app.room.userId)
    (hshows : ∀ id, app'.room.shows id = if userId = id then
      (app.room.participants.lookup id).isSome && false else app.room.shows id) :
    app'.InStep ↔ (userId = app.audio.userId → app.audio.audioManager.outputStreams = ∅) := by
  have husers : app'.audio.usersInVoice = app.audio.usersInVoice.erase userId := by
    rw [haudio,AudioManagerState.update]
    split <;> rfl
  have hid : app'.audio.userId = app.audio.userId := by
    rw [haudio,AudioManagerState.update]
    split <;> rfl
  have hstreams : app'.audio.audioManager.outputStreams =
      if app.audio.userId ∈ app.audio.usersInVoice then
        app.audio.audioManager.outputStreams.erase userId
      else app.audio.audioManager.outputStreams := by
    rw [haudio,AudioManagerState.update]
    simp only [inVoice_iff]
    split <;> rfl
  constructor
  · rintro h' rfl
    by_cases hown : app.audio.userId ∈ app.audio.usersInVoice
    · have hall := h'.streams
      rw [hstreams,husers,hid,if_pos hown,if_neg (Finset.notMem_erase _ _),h.streams,if_pos hown,
        Finset.erase_idem] at hall
      rw [h.streams,if_pos hown,hall]
    · exact (h.out hown).2
  · intro hleft
    have htracks : ∀ id, id ∈ app.audio.usersInVoice.erase userId ↔ app'.room.shows id = true := by
      intro id
      rw [hshows,Finset.mem_erase,h.tracks]
      by_cases heq : userId = id
      · rw [if_pos heq,Bool.and_false]
        exact iff_of_false (fun hin => hin.1 heq.symm) Bool.false_ne_true
      · rw [if_neg heq]
        exact and_iff_right (Ne.symm heq)
    have hsame : app.audio.userId ∈ app.audio.usersInVoice.erase userId ∨
        app.room.userId ∈ app.audio.usersInVoice.erase userId → app.audio.userId = app.room.userId :=
      fun hin => h.same (hin.imp Finset.mem_of_mem_erase Finset.mem_of_mem_erase)
    refine ⟨fun id => by rw [husers]; exact htracks id,?_,by rw [husers,hid,hroom]; exact hsame⟩
    rw [hstreams,husers,hid]
    by_cases heq : userId = app.audio.userId
    · rw [hleft heq,Finset.erase_empty,ite_self,heq,if_neg (Finset.notMem_erase _ _)]
    · have hown : app.audio.userId ∈ app.audio.usersInVoice.erase userId ↔
          app.audio.userId ∈ app.audio.usersInVoice := by
        rw [Finset.mem_erase,and_iff_right (Ne.symm heq)]
      simp only [hown]
      rw [h.streams]
      split
      · exact Finset.erase_right_comm
      · rfl

theorem event_shows (app : Application) (event : ClientEvent) (id : UInt64) :
    (app.update formatTime (.serverEventReceived event)).room.shows id =
      ((RoomPage.seen id (app.room.participants.lookup id) event).map ParticipantInfo.inVoice).getD
        false := by
  rw [RoomView.shows]
  exact congrArg (fun x => (Option.map ParticipantInfo.inVoice x).getD false)
    (RoomPage.serverEventReceived_lookup formatTime app.room.toRoomPage event id)

/-- A message keeps the two records in step exactly if it is expected. -/
theorem update_inStep_iff (h : app.InStep) (message : Message) :
    (app.update formatTime message).InStep ↔ app.Expected message := by
  have hquiet : ∀ {app' : Application}, app'.audio = app.audio → app'.room = app.room →
      (app'.InStep ↔ True) := by
    intro app' haudio hroom
    exact inStep_quiet h (by rw [haudio]) (by rw [haudio]) (by rw [haudio]) (by rw [hroom])
      fun id => by rw [hroom]
  cases message with
  | voiceCommandResult result =>
    cases result with
    | connect result =>
      cases result with
      | error => exact hquiet rfl rfl
      | ok => exact connect_inStep_iff h rfl rfl
    | joinVoiceChannel result =>
      cases result with
      | error => exact hquiet rfl rfl
      | ok => exact join_inStep_iff h rfl rfl (app.room.shows_set rfl fun _ => rfl)
    | leaveVoiceChannel result =>
      cases result with
      | error => exact hquiet rfl rfl
      | ok => exact iff_true_intro (leave_inStep h rfl rfl (app.room.shows_set rfl fun _ => rfl))
    | sendChatMessage => exact hquiet rfl rfl
    | ping => exact hquiet rfl rfl
    | voiceStats => exact hquiet rfl rfl
  | serverEventReceived event =>
    cases event with
    | participantsList userId participants =>
      exact list_inStep_iff h rfl rfl (app.event_shows (.participantsList userId participants))
    | userJoinedServer userId username =>
      refine hidden_inStep_iff h rfl rfl fun id => ?_
      rw [event_shows,RoomPage.seen]
      split <;> rfl
    | userJoinedVoice userId =>
      exact joinedVoice_inStep_iff h rfl rfl (app.room.shows_set rfl fun _ => rfl)
    | userLeftVoice userId =>
      exact leftVoice_inStep_iff h rfl rfl (app.room.shows_set rfl fun _ => rfl)
    | userLeftServer userId =>
      refine hidden_inStep_iff h rfl rfl fun id => ?_
      rw [event_shows,RoomPage.seen]
      split <;> rfl
    | userSentMessage userId timestamp text =>
      refine inStep_quiet h rfl rfl rfl ?_
        fun id => app.event_shows (.userSentMessage userId timestamp text) id
      change (app.room.toRoomPage.serverEventReceived formatTime _).userId = _
      rw [RoomPage.serverEventReceived]
      split <;> rfl
    | userMuteState userId isMuted =>
      exact inStep_quiet h rfl rfl rfl rfl (app.room.shows_keep rfl fun _ => rfl)
  | settingsPage message =>
    cases message with
    | selectOutputDevice deviceId =>
      -- the streams are created anew for the same users
      refine inStep_quiet h ?_ ?_ ?_ rfl fun _ => rfl
      · change (app.audio.update _).usersInVoice = _
        rw [AudioManagerState.update]
        split <;> rfl
      · change (app.audio.update _).audioManager.outputStreams = _
        rw [AudioManagerState.update,h.streams]
        simp only [inVoice_iff]
        split
        · exact Finset.empty_union _
        · rename_i hown
          exact (h.out hown).2
      · change (app.audio.update _).userId = _
        rw [AudioManagerState.update]
        split <;> rfl
    | _ => exact hquiet rfl rfl
  | roomPage message =>
    cases message with
    | muteToggle => exact inStep_quiet h rfl rfl rfl rfl (app.room.shows_keep rfl fun _ => rfl)
    | _ => exact hquiet rfl rfl
  | muteInput muted => exact inStep_quiet h rfl rfl rfl rfl fun _ => rfl
  | _ => exact hquiet rfl rfl

/-! ## Every sequence of messages -/

theorem new_inStep : new.InStep := by
  refine ⟨fun id => ?_,rfl,?_⟩
  · exact iff_of_false (Finset.notMem_empty id) Bool.false_ne_true
  · rintro (hin | hin) <;> exact (Finset.notMem_empty _ hin).elim

/-- Every message of a sequence is expected, exactly if the two records stay in step and
the user hears everyone in every state along it. -/
theorem hears_everyone_iff (formatTime : UInt64 → String) (messages : List Message) :
    (∀ pre message post, messages = pre ++ message :: post → (run formatTime pre).Expected message) ↔
      ∀ pre post, messages = pre ++ post →
        (run formatTime pre).InStep ∧ (run formatTime pre).HearsEveryone := by
  constructor
  · intro h
    have hall : ∀ pre post, messages = pre ++ post → (run formatTime pre).InStep := by
      intro pre
      induction pre using List.reverseRecOn with
      | nil => exact fun _ _ => new_inStep
      | append_singleton pre message ih =>
        intro post hpost
        rw [List.append_assoc] at hpost
        rw [run_concat,update_inStep_iff (ih _ hpost)]
        exact h pre message post hpost
    exact fun pre post hpost => ⟨hall pre post hpost,(hall pre post hpost).hears⟩
  · intro h pre message post hpost
    have hnext : (run formatTime (pre ++ [message])).InStep := by
      refine (h (pre ++ [message]) post ?_).1
      rw [List.append_assoc]
      exact hpost
    rw [run_concat] at hnext
    exact (update_inStep_iff (h pre _ hpost).1 message).mp hnext

/-- User 2 is in voice when user 1 logs in and joins, and user 1 has no stream for it. -/
theorem listed_user_unheard : ¬∀ formatTime messages, (run formatTime messages).HearsEveryone := by
  intro h
  have hheard := h (fun _ => "")
    [.serverEventReceived (.participantsList 1 [⟨1,"ann",false,false⟩,⟨2,"bob",true,false⟩]),
      .voiceCommandResult (.connect (.ok (1,"host","ann"))),
      .voiceCommandResult (.joinVoiceChannel (.ok ()))]
  have hshown := (hheard (.inl (by decide)) 2).mpr ⟨by decide,by decide⟩
  exact absurd hshown (by decide)

end Application
end VoiceApp.Desktop
