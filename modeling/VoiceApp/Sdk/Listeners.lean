import VoiceApp.Base.Takers
import VoiceApp.Sdk.EventHandler

/-! # The listeners of the packet stream

Every `Client::connect` whose TCP connection comes about starts one more listener on the
packet stream. All of them send into one event channel, so events may overtake each other
between two listeners.
-/
namespace VoiceApp.Sdk
open Protocol

namespace EventHandler

/-- Everything sent into the packet stream and into the event channel, and the packet that
each listener has received and not yet handled. -/
abbrev Listeners := Takers Packet ClientEvent

/-- The steps: another listener starts (`join`), a receive loop sends a packet into the
stream, a listener receives one (`take`), or it handles what it has received (`pass`). -/
abbrev Step : Listeners → Takers.Move Packet → Listeners → Prop := Takers.Step handlePacket

/-- A packet is received when no other listener has one in hand that makes another event. -/
abbrev InTurn : Listeners → Takers.Move Packet → Prop := Takers.Careful handlePacket

/-- In every run in which packets are received in turn, the events sent are those of the
packets in the order in which they were sent into the stream, none missing and none twice;
and handling a packet at once keeps this order only if it was received in turn. -/
theorem events_keep_order {trace : List (Takers.Move Packet)} {s : Listeners}
    (hr : Run (Guarded InTurn Step) Takers.new trace s) :
    s.out <+: listenToPackets s.sent ∧ (s.Idle → s.out = listenToPackets s.sent) ∧
      ∀ k s', Step s (.take k) s' →
        (InTurn s (.take k) ↔ ∀ t, Step s' (.pass k) t → t.out <+: listenToPackets t.sent) := by
  have horder := Takers.run_inOrder hr
  exact ⟨horder.out_front,horder.out_eq,fun k s' hstep => Takers.careful_iff horder hstep⟩

/-- Two listeners receive in turn. -/
theorem events_keep_order_two : ∃ trace, ∃ s : Listeners,
    Run (Guarded InTurn Step) Takers.new trace s ∧ s.hands = [none,none] ∧
      s.out = [.userJoinedVoice 7,.userLeftVoice 7] ∧
      s.out = listenToPackets [.userJoinedVoice 7,.userLeftVoice 7] := by
  have hsent : Run (Guarded InTurn Step) Takers.new
      [.join,.join,.send (Packet.userJoinedVoice 7),.send (Packet.userLeftVoice 7)]
      ⟨[.userJoinedVoice 7,.userLeftVoice 7],0,[none,none],[]⟩ :=
    .snoc (.snoc (.snoc (.snoc .refl ⟨trivial,.join⟩) ⟨trivial,.join⟩) ⟨trivial,.send⟩) ⟨trivial,.send⟩
  have htake : ∀ out k a n, ([none,none] : List (Option Packet))[k]? = some none →
      [Packet.userJoinedVoice 7,.userLeftVoice 7][n]? = some a →
      Guarded InTurn Step ⟨[.userJoinedVoice 7,.userLeftVoice 7],n,[none,none],out⟩ (.take k) _ :=
    fun _ _ _ _ hk ha => ⟨fun _ _ _ _ _ hheld => absurd hheld List.not_mem_nil,.take hk ha⟩
  have hpass : ∀ {s : Listeners} k a, s.hands[k]? = some (some a) → Guarded InTurn Step s (.pass k) _ :=
    fun _ _ hk => ⟨trivial,.pass hk⟩
  have hr := (((hsent.snoc (htake [] 0 _ 0 rfl rfl)).snoc (hpass 0 (.userJoinedVoice 7) rfl)).snoc
    (htake _ 1 _ 1 rfl rfl)).snoc (hpass 1 (.userLeftVoice 7) rfl)
  obtain ⟨_,hall,_⟩ := events_keep_order hr
  exact ⟨_,_,hr,rfl,rfl,hall ⟨rfl,by simp⟩⟩

/-- After a second connect a user's leaving is told before its joining. -/
theorem second_listener_overtakes : ∃ trace, ∃ s : Listeners, Run Step Takers.new trace s ∧ s.Idle ∧
    s.sent = [.userJoinedVoice 7,.userLeftVoice 7] ∧ s.out = [.userLeftVoice 7,.userJoinedVoice 7] ∧
    ¬ s.out <+: listenToPackets s.sent := by
  have hr : Run Step Takers.new [.join,.join,.send (Packet.userJoinedVoice 7),.send (Packet.userLeftVoice 7),
      .take 0,.take 1,.pass 1,.pass 0] ⟨[.userJoinedVoice 7,.userLeftVoice 7],2,[none,none],
        [.userLeftVoice 7,.userJoinedVoice 7]⟩ :=
    .snoc (.snoc (.snoc (.snoc (.snoc (.snoc (.snoc (.snoc .refl .join) .join) .send) .send)
      (.take rfl rfl)) (.take rfl rfl)) (.pass (a := Packet.userLeftVoice 7) rfl))
      (.pass (a := Packet.userJoinedVoice 7) rfl)
  exact ⟨_,_,hr,⟨rfl,by simp⟩,rfl,rfl,by decide⟩

end EventHandler
end VoiceApp.Sdk
