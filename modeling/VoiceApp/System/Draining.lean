import VoiceApp.Protocol.Checked
import VoiceApp.Sdk.TcpClient
import VoiceApp.Management.Handler

/-! # The loops that drain a buffer

The server's handler and the client's TCP task take packets off the front of their buffers
in the same loop. The loop is run here with a bounded number of turns and with its range
checks; it comes to its end within the turns that the buffer has room for, and no check
fails on the way.
-/
namespace VoiceApp.System
open Protocol

/-- How the loop stands after some turns. -/
inductive Drained
  | kept (buffer : Bytes)
  | panic
  | running
  deriving DecidableEq

/-- At most `turns` turns of the loop. -/
def drainLoop {m : Type → Type} [Monad m] (deliver : Packet → m Unit) : ℕ → Bytes → m Drained
  | 0,_ => pure .running
  | turns + 1,buffer =>
    match Checked.decode buffer with
    | .ok (packet,size) => do
      deliver packet
      -- `drain(..size)`
      if size ≤ buffer.length then drainLoop deliver turns (buffer.drop size) else pure .panic
    | .error (.error e) => pure (.kept (if e.waits then buffer else []))
    | .error .panic => pure .panic

/-- The buffer is the frames of these packets, one after the other, and a rest that starts
with no packet. The rest is what is kept, or it has been discarded for a protocol error. -/
def Consumed (buffer : Bytes) (packets : List Packet) (kept : Bytes) : Prop :=
  ∃ frames rest, buffer = frames.flatten ++ rest ∧
    List.Forall₂ (fun packet frame => 3 ≤ frame.length ∧
      Packet.decode frame = .ok (packet,frame.length)) packets frames ∧
    ∃ e, Packet.decode rest = .error e ∧ kept = if e.waits then rest else []

/-- Nothing behind a packet is needed to accept it. -/
theorem decode_front {b : Bytes} {p : Packet} {n : ℕ} (h : Packet.decode b = .ok (p,n)) :
    Packet.decode (b.take n) = .ok (p,n) := by
  obtain ⟨id,payload,s,v,rest,hlen,rfl,hp,rfl,rfl⟩ := Packet.decode_ok h
  have hframe := Packet.decode_frame_done [] hlen hp
  rw [List.append_nil] at hframe
  rw [List.take_left' (frame_length id payload),hframe]

theorem split_consumed (buffer : Bytes) :
    Consumed buffer (Packet.framer.split buffer).1 (Packet.framer.split buffer).2 := by
  induction hn : buffer.length using Nat.strongRecOn generalizing buffer with
  | ind len ih =>
    cases h : Packet.framer.decode buffer with
    | error e =>
      rw [Packet.framer.split_error h]
      exact ⟨[],buffer,rfl,.nil,e,h,rfl⟩
    | ok r =>
      obtain ⟨p,n⟩ := r
      obtain ⟨frames,rest,hbuffer,hframes,hrest⟩ :=
        ih _ (hn ▸ Packet.framer.drop_length_lt h) (buffer.drop n) rfl
      obtain ⟨hlow,hhigh⟩ := Packet.decode_ok_bounds h
      have hlen : (buffer.take n).length = n := List.length_take_of_le hhigh
      rw [Packet.framer.split_ok h]
      refine ⟨buffer.take n :: frames,rest,?_,.cons ⟨?_,?_⟩ hframes,hrest⟩
      · rw [List.flatten_cons,List.append_assoc,← hbuffer,List.take_append_drop]
      · rw [hlen]
        exact hlow
      · rw [hlen]
        exact decode_front h

section Loop
variable {m : Type → Type} [Monad m] [LawfulMonad m] {deliver : Packet → m Unit}

/-- A packet has at least three bytes, so a third of the buffer's length is enough turns. -/
theorem drainLoop_eq {turns : ℕ} {buffer : Bytes} (h : buffer.length < 3 * turns) :
    drainLoop deliver turns buffer = (do
      let kept ← Packet.framer.drain deliver buffer
      return .kept kept) := by
  induction turns generalizing buffer with
  | zero => omega
  | succ turns ih =>
    cases hd : Packet.decode buffer with
    | error e =>
      have hchecked : Checked.decode buffer = .error (.error e) := by
        rw [Checked.decode_eq,hd]
        rfl
      rw [drainLoop,hchecked,Packet.framer.drain_error deliver hd,pure_bind]
      rfl
    | ok r =>
      obtain ⟨packet,size⟩ := r
      obtain ⟨hlow,hhigh⟩ := Packet.decode_ok_bounds hd
      have hrest : (buffer.drop size).length < 3 * turns := by
        rw [List.length_drop]
        omega
      rw [drainLoop,Checked.decode_ok_iff.mpr hd,Packet.framer.drain_ok deliver hd,bind_assoc,← ih hrest]
      simp only [if_pos hhigh]

end Loop

/-- For every content of the buffer: decoding it does not panic, and what it accepts takes
at least three bytes and at most all of them. Both loops end, after no more turns than a
third of the buffer's length and one, without a panic. They hand on the same packets in
order, whose frames are the bytes removed. -/
theorem buffer_drained (buffer : Bytes) :
    Checked.decode buffer ≠ .error .panic ∧
    (∀ packet n, Checked.decode buffer = .ok (packet,n) → 3 ≤ n ∧ n ≤ buffer.length) ∧
    ∃ packets kept, Consumed buffer packets kept ∧ ∀ turns, buffer.length < 3 * turns →
      drainLoop Sdk.TcpClient.Handler.deliver turns buffer = (do
        forM packets Sdk.TcpClient.Handler.deliver
        return .kept kept) ∧
      ∀ address, drainLoop (Management.deliver address) turns buffer = (do
        forM packets (Management.deliver address)
        return .kept kept) := by
  refine ⟨Checked.decode_ne_panic buffer,fun packet n h => ?_,_,_,split_consumed buffer,?_⟩
  · exact Packet.decode_ok_bounds (Checked.decode_ok_iff.mp h)
  · intro turns hturns
    refine ⟨?_,fun address => ?_⟩
    · rw [drainLoop_eq hturns,Packet.framer.drain_eq,bind_assoc]
      simp only [pure_bind]
    · rw [drainLoop_eq hturns,Packet.framer.drain_eq,bind_assoc]
      simp only [pure_bind]

end VoiceApp.System
