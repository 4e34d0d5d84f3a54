import VoiceApp.Base.OrderedTable
import VoiceApp.Desktop.RoomPage

/-! # The chat history

The history is a map from timestamps to messages, and it is shown in ascending order of the
timestamps. It is what has been said, in the order in which it was said, only as long as
the timestamps ascend.
-/
namespace VoiceApp.Desktop
open Protocol Sdk

namespace RoomPage
variable (formatTime : UInt64 → String)

/-- `chat_history` as `main_screen` goes through it. -/
def shownMessages (page : RoomPage) : List (UInt64 × ChatMessage) := page.chatHistory.ascending

/-- What an event says, if its sender is a participant. -/
def posted (page : RoomPage) : ClientEvent → Option (UInt64 × ChatMessage)
  | .userSentMessage userId timestamp message =>
    (page.participants.lookup userId).map fun participant =>
      (timestamp,.new formatTime participant.username message timestamp)
  | _ => none

/-- Everything said by participants while the page goes through these events, in the order
of arrival. -/
def posts (page : RoomPage) : List ClientEvent → List (UInt64 × ChatMessage)
  | [] => []
  | event :: rest =>
    (page.posted formatTime event).toList ++ posts (page.serverEventReceived formatTime event) rest

theorem serverEventReceived_chatHistory (page : RoomPage) (event : ClientEvent) :
    (page.serverEventReceived formatTime event).chatHistory =
      page.chatHistory.insertAll (page.posted formatTime event).toList := by
  cases event with
  | userSentMessage userId timestamp message =>
    simp only [serverEventReceived,posted]
    cases page.participants.lookup userId <;> rfl
  | _ => rfl

/-- The history is filled by what is said, and by nothing else. -/
theorem serverEventsReceived_chatHistory (page : RoomPage) (events : List ClientEvent) :
    (page.serverEventsReceived formatTime events).chatHistory =
      page.chatHistory.insertAll (page.posts formatTime events) := by
  induction events generalizing page with
  | nil => rfl
  | cons event rest ih =>
    have hrest := ih (page.serverEventReceived formatTime event)
    rw [serverEventReceived_chatHistory] at hrest
    rw [posts,Table.insertAll,List.foldl_append]
    exact hrest

/-- After every sequence of server events the page shows exactly what participants have
said, in the order of arrival, if and only if the timestamps have been strictly ascending. -/
theorem shownMessages_eq_posts_iff (events : List ClientEvent) :
    (RoomPage.new.serverEventsReceived formatTime events).shownMessages =
        RoomPage.new.posts formatTime events ↔
      ((RoomPage.new.posts formatTime events).map Prod.fst).Pairwise (· < ·) := by
  rw [shownMessages,serverEventsReceived_chatHistory]
  change ((∅ : Table UInt64 ChatMessage).insertAll _).ascending = _ ↔ _
  rw [Table.ascending_insertAll_iff,List.Nodup,← List.pairwise_and_iff]
  simp only [UInt64.lt_iff_le_and_ne]

/-- Two users say something in the same millisecond, and the first message is gone. -/
theorem same_millisecond_replaces :
    let events : List ClientEvent := [.participantsList 1 [⟨1,"ann",false,false⟩,⟨2,"bob",false,false⟩],
      .userSentMessage 1 5 "hello",.userSentMessage 2 5 "hi"]
    let page := RoomPage.new.serverEventsReceived (fun _ => "10:00") events
    page.shownMessages = [(5,⟨"bob","hi","10:00"⟩)] ∧
      RoomPage.new.posts (fun _ => "10:00") events =
        [(5,⟨"ann","hello","10:00"⟩),(5,⟨"bob","hi","10:00"⟩)] ∧
      page.shownMessages ≠ RoomPage.new.posts (fun _ => "10:00") events := by
  intro events page
  have hfilled : Table.Enumerates page.chatHistory [((5 : UInt64),⟨"bob","hi","10:00"⟩)] :=
    ((Table.Enumerates.nil (K := UInt64) (V := ChatMessage)).insert 5 ⟨"ann","hello","10:00"⟩).insert
      5 ⟨"bob","hi","10:00"⟩
  have hshown : page.shownMessages = [(5,⟨"bob","hi","10:00"⟩)] :=
    Table.ascending_eq_iff.mpr ⟨hfilled,List.pairwise_singleton _ _⟩
  have hposts : RoomPage.new.posts (fun _ => "10:00") events =
      [(5,⟨"ann","hello","10:00"⟩),(5,⟨"bob","hi","10:00"⟩)] := by decide
  refine ⟨hshown,hposts,?_⟩
  rw [hshown,hposts]
  decide

end RoomPage
end VoiceApp.Desktop
