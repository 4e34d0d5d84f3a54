import VoiceApp.Base.Table
import VoiceApp.Sdk.EventHandler

/-! # The room page

The page keeps the participants by user id and the chat history by timestamp. How a
server event changes the participants is decided for each user separately.
-/
namespace VoiceApp.Desktop
open Protocol Sdk

structure ChatMessage where
  username : String
  message : String
  time : String
  deriving DecidableEq

namespace ChatMessage

/-- `formatTime` is the local time of day of a timestamp in milliseconds. -/
def new (formatTime : UInt64 → String) (username message : String) (timestamp : UInt64) :
    ChatMessage := ⟨username,message,formatTime timestamp⟩

end ChatMessage

/-- The part of the page that server events concern. -/
structure RoomPage where
  userId : UInt64
  participants : Table UInt64 ParticipantInfo
  chatHistory : Table UInt64 ChatMessage

/-- Collecting pairs into a map: of several entries with one id the last one stays. -/
def collectById (participants : List ParticipantInfo) : Table UInt64 ParticipantInfo :=
  participants.foldl (fun t info => t.insert info.userId info) ∅

namespace RoomPage

def new : RoomPage := ⟨0,∅,∅⟩

section Update
variable (formatTime : UInt64 → String)

/-- The `ServerEventReceived` branch of `update`. -/
def serverEventReceived (page : RoomPage) : ClientEvent → RoomPage
  | .participantsList userId participants =>
    { page with userId := userId, participants := collectById participants }
  | .userJoinedServer userId username =>
    { page with participants := page.participants.insert userId ⟨userId,username,false,false⟩ }
  | .userJoinedVoice userId =>
    { page with
      participants := page.participants.modify userId fun user =>
        { user with inVoice := true, isMuted := false } }
  | .userLeftVoice userId =>
    { page with
      participants := page.participants.modify userId fun user =>
        { user with inVoice := false, isMuted := false } }
  | .userLeftServer userId => { page with participants := page.participants.erase userId }
  | .userSentMessage userId timestamp message =>
    match page.participants.lookup userId with
    | some participant =>
      { page with
        chatHistory := page.chatHistory.insert timestamp
          (.new formatTime participant.username message timestamp) }
    | none => page
  | .userMuteState userId isMuted =>
    { page with
      participants := page.participants.modify userId fun user => { user with isMuted := isMuted } }

/-- The page after these events. -/
def serverEventsReceived (page : RoomPage) (events : List ClientEvent) : RoomPage :=
  events.foldl (serverEventReceived formatTime) page

end Update

/-! ## One participant -/

/-- The last entry of a participant list for this id. -/
def entry (id : UInt64) (participants : List ParticipantInfo) : Option ParticipantInfo :=
  participants.foldl (fun x info => if info.userId = id then some info else x) none

theorem entry_concat (id : UInt64) (participants : List ParticipantInfo) (info : ParticipantInfo) :
    entry id (participants ++ [info]) = if info.userId = id then some info else entry id participants := by
  rw [entry,List.foldl_append]
  rfl

theorem collectById_lookup (id : UInt64) (participants : List ParticipantInfo) :
    (collectById participants).lookup id = entry id participants := by
  induction participants using List.reverseRecOn with
  | nil => rfl
  | append_singleton rest info ih =>
    rw [entry_concat,← ih,collectById,List.foldl_append]
    change Finmap.lookup id (Finmap.insert _ _ _) = _
    rw [Table.lookup_insert_eq]
    by_cases h : info.userId = id
    · rw [if_pos h,if_pos h.symm]
    · rw [if_neg h,if_neg (Ne.symm h)]
      rfl

/-- What an event does to the entry of one id. -/
def seen (id : UInt64) (x : Option ParticipantInfo) : ClientEvent → Option ParticipantInfo
  | .participantsList _ participants => entry id participants
  | .userJoinedServer userId username =>
    if userId = id then some ⟨userId,username,false,false⟩ else x
  | .userJoinedVoice userId =>
    if userId = id then x.map fun user => { user with inVoice := true, isMuted := false } else x
  | .userLeftVoice userId =>
    if userId = id then x.map fun user => { user with inVoice := false, isMuted := false } else x
  | .userLeftServer userId => if userId = id then none else x
  | .userSentMessage .. => x
  | .userMuteState userId isMuted =>
    if userId = id then x.map fun user => { user with isMuted := isMuted } else x

theorem modify_lookup (t : Table UInt64 ParticipantInfo) (id userId : UInt64)
    (f : ParticipantInfo → ParticipantInfo) : (t.modify userId f).lookup id =
      if userId = id then (t.lookup id).map f else t.lookup id := by
  rw [Table.lookup_modify]
  by_cases h : userId = id
  · rw [if_pos h,if_pos h.symm,h]
  · rw [if_neg h,if_neg (Ne.symm h)]

/-- The page treats every participant on its own. -/
theorem serverEventReceived_lookup (formatTime : UInt64 → String) (page : RoomPage)
    (event : ClientEvent) (id : UInt64) :
    (page.serverEventReceived formatTime event).participants.lookup id =
      seen id (page.participants.lookup id) event := by
  cases event with
  | participantsList userId participants => exact collectById_lookup id participants
  | userJoinedServer userId username =>
    simp only [serverEventReceived,seen,Table.lookup_insert_eq,eq_comm (a := id)]
  | userJoinedVoice userId => exact modify_lookup _ _ _ _
  | userLeftVoice userId => exact modify_lookup _ _ _ _
  | userLeftServer userId =>
    simp only [serverEventReceived,seen,Table.lookup_erase_eq,eq_comm (a := id)]
  | userSentMessage userId timestamp message =>
    simp only [serverEventReceived,seen]
    split <;> rfl
  | userMuteState userId isMuted => exact modify_lookup _ _ _ _

theorem serverEventsReceived_lookup (formatTime : UInt64 → String) (page : RoomPage)
    (events : List ClientEvent) (id : UInt64) :
    (page.serverEventsReceived formatTime events).participants.lookup id =
      events.foldl (seen id) (page.participants.lookup id) := by
  induction events generalizing page with
  | nil => rfl
  | cons event rest ih =>
    rw [serverEventsReceived,List.foldl_cons,List.foldl_cons,← serverEventReceived_lookup formatTime]
    exact ih (page.serverEventReceived formatTime event)

end RoomPage
end VoiceApp.Desktop
