import VoiceApp.Sdk.UdpClient

/-! # The receive loop of the UDP client

A datagram is received whole or not at all, so a bad one says nothing about the next. The
loop ends at the first one all the same; until then every datagram is handed on once.
-/
namespace VoiceApp.Sdk.UdpClient
open Protocol

/-- The handler task and whether its loop goes on. -/
structure Task where
  handler : Handler
  running : Bool

/-- What reaches the task: requests enter and leave the map of pending ones from outside, and
a datagram is any byte string. -/
inductive Input
  | register (requestId : UInt64) (tx : Oneshot)
  | remove (requestId : UInt64)
  | datagram (bytes : Bytes)

/-- The part of a datagram that fits the receive buffer. -/
def received (bytes : Bytes) : Bytes := bytes.take readBufSize

namespace Task

def new : Task := ⟨⟨.new,[],0⟩,true⟩

/-- The incoming branch of the `select!`. -/
def incoming (t : Task) (bytes : Bytes) : Task :=
  match handleIncoming t.handler (some bytes) with
  | .ok (proceed,handler) => ⟨handler,proceed⟩
  -- the bytes are counted before they are parsed
  | .error _ => ⟨{ t.handler with
      bytesReceived := t.handler.bytesReceived + UInt64.ofNat bytes.length },false⟩

def step (t : Task) : Input → Task
  | .register requestId tx =>
    { t with handler := { t.handler with
        pendingRequests := t.handler.pendingRequests.register requestId tx } }
  | .remove requestId =>
    { t with handler := { t.handler with
        pendingRequests := { t.handler.pendingRequests with
          waiting := t.handler.pendingRequests.waiting.erase requestId } } }
  | .datagram bytes => if t.running then t.incoming (received bytes) else t

/-- The task after these inputs. -/
def run (t : Task) (inputs : List Input) : Task := inputs.foldl step t

end Task

/-- The request that waits for this packet, if there is one. -/
def awaited (waiting : Table UInt64 Oneshot) (packet : Packet) : Option (UInt64 × Oneshot) :=
  (responseId packet).bind fun requestId => (waiting.lookup requestId).map fun tx => (requestId,tx)

/-- What a client that is not put off by bad datagrams hands on, in order: each packet with
the request it goes to, or with `none` when it goes to the packet stream. -/
def deliveries (waiting : Table UInt64 Oneshot) : List Input → List (Packet × Option Oneshot)
  | [] => []
  | .register requestId tx :: rest => deliveries (waiting.insert requestId tx) rest
  | .remove requestId :: rest => deliveries (waiting.erase requestId) rest
  | .datagram bytes :: rest =>
    match Packet.decode (received bytes) with
    | .error _ => deliveries waiting rest
    | .ok (packet,_) => match awaited waiting packet with
      | some (requestId,tx) => (packet,some tx) :: deliveries (waiting.erase requestId) rest
      | none => (packet,none) :: deliveries waiting rest

/-- The deliveries to the packet stream. -/
def toStream (sent : List (Packet × Option Oneshot)) : List Packet :=
  (sent.filter fun d => d.2.isNone).map Prod.fst

/-- The deliveries to requests. -/
def toRequests (sent : List (Packet × Option Oneshot)) : List (Oneshot × Packet) :=
  sent.filterMap fun d => d.2.map fun tx => (tx,d.1)

/-- Every datagram received is one that the decoder accepts. -/
def AllAccepted (inputs : List Input) : Prop :=
  ∀ bytes, .datagram bytes ∈ inputs → ∃ packet n, Packet.decode (received bytes) = .ok (packet,n)

/-! ## One datagram -/

theorem decode_nil : Packet.decode [] = .error (.packetTooShort 1 0) := by decide

theorem incoming_rejected (t : Task) {bytes : Bytes} {e : ProtocolError}
    (h : Packet.decode bytes = .error e) : (t.incoming bytes).running = false := by
  cases bytes with
  | nil => rfl
  | cons byte rest => simp only [Task.incoming,handleIncoming,h]

/-- An accepted datagram that answers no pending request goes to the packet stream. -/
theorem incoming_streamed (t : Task) {bytes : Bytes} {packet : Packet} {n : ℕ}
    (h : Packet.decode bytes = .ok (packet,n))
    (hnone : awaited t.handler.pendingRequests.waiting packet = none) :
    ∃ count, t.incoming bytes =
      ⟨⟨t.handler.pendingRequests,t.handler.packetTx ++ [packet],count⟩,true⟩ := by
  cases bytes with
  | nil => cases decode_nil.symm.trans h
  | cons byte rest =>
    refine ⟨t.handler.bytesReceived + UInt64.ofNat (byte :: rest).length,?_⟩
    simp only [Task.incoming,handleIncoming,h,Pending.resolve]
    cases hid : responseId packet with
    | none => rfl
    | some requestId =>
      have hwait : t.handler.pendingRequests.waiting.lookup requestId = none := by
        simpa [awaited,hid] using hnone
      simp only [hwait]

/-- An accepted datagram that answers a pending request goes to that request. -/
theorem incoming_answered (t : Task) {bytes : Bytes} {packet : Packet} {n : ℕ} {requestId : UInt64}
    {tx : Oneshot} (h : Packet.decode bytes = .ok (packet,n))
    (hsome : awaited t.handler.pendingRequests.waiting packet = some (requestId,tx)) :
    ∃ count, t.incoming bytes =
      ⟨⟨⟨t.handler.pendingRequests.waiting.erase requestId,
        t.handler.pendingRequests.answered ++ [(tx,packet)]⟩,t.handler.packetTx,count⟩,true⟩ := by
  obtain ⟨id,hid,hwait⟩ := Option.bind_eq_some_iff.mp hsome
  obtain ⟨tx',hwait,heq⟩ := Option.map_eq_some_iff.mp hwait
  cases heq
  cases bytes with
  | nil => cases decode_nil.symm.trans h
  | cons byte rest =>
    refine ⟨t.handler.bytesReceived + UInt64.ofNat (byte :: rest).length,?_⟩
    simp only [Task.incoming,handleIncoming,h,Pending.resolve,hid,hwait]

/-! ## Any number of datagrams -/

theorem run_stopped (inputs : List Input) {t : Task} (h : t.running = false) :
    (t.run inputs).running = false := by
  induction inputs generalizing t with
  | nil => exact h
  | cons input rest ih =>
    refine ih ?_
    cases input with
    | datagram bytes =>
      rw [Task.step,h]
      exact h
    | _ => exact h

/-- A loop that still runs has met accepted datagrams only. -/
theorem run_running {inputs : List Input} {t : Task} (h : (t.run inputs).running = true) :
    AllAccepted inputs := by
  induction inputs generalizing t with
  | nil =>
    intro bytes hmem
    cases hmem
  | cons input rest ih =>
    intro bytes hmem
    rcases List.mem_cons.mp hmem with rfl | hmem
    · cases hd : Packet.decode (received bytes) with
      | ok result => exact ⟨result.1,result.2,rfl⟩
      | error e =>
        have hstop : (t.step (.datagram bytes)).running = false := by
          rw [Task.step]
          split
          · exact incoming_rejected t hd
          · exact Bool.eq_false_iff.mpr ‹_›
        have hstopped := run_stopped rest hstop
        rw [Task.run,List.foldl_cons] at h
        cases h.symm.trans hstopped
    · exact ih h bytes hmem

/-- As long as every datagram is accepted, the task hands on what it should. -/
theorem run_accepted {inputs : List Input} {t : Task} (hrun : t.running = true)
    (h : AllAccepted inputs) :
    (t.run inputs).running = true ∧
      (t.run inputs).handler.packetTx = t.handler.packetTx ++
        toStream (deliveries t.handler.pendingRequests.waiting inputs) ∧
      (t.run inputs).handler.pendingRequests.answered = t.handler.pendingRequests.answered ++
        toRequests (deliveries t.handler.pendingRequests.waiting inputs) := by
  induction inputs generalizing t with
  | nil => exact ⟨hrun,(List.append_nil _).symm,(List.append_nil _).symm⟩
  | cons input rest ih =>
    have hrest : AllAccepted rest := fun bytes hmem => h bytes (List.mem_cons_of_mem _ hmem)
    cases input with
    | register requestId tx => exact ih (t := t.step (.register requestId tx)) hrun hrest
    | remove requestId => exact ih (t := t.step (.remove requestId)) hrun hrest
    | datagram bytes =>
      obtain ⟨packet,n,hd⟩ := h bytes List.mem_cons_self
      have hstep : t.run (.datagram bytes :: rest) = (t.incoming (received bytes)).run rest := by
        rw [Task.run,List.foldl_cons,Task.step,if_pos hrun]
        rfl
      rw [hstep]
      cases hwait : awaited t.handler.pendingRequests.waiting packet with
      | none =>
        have hsent : deliveries t.handler.pendingRequests.waiting (.datagram bytes :: rest) =
            (packet,none) :: deliveries t.handler.pendingRequests.waiting rest := by
          simp only [deliveries,hd,hwait]
        obtain ⟨count,hnext⟩ := incoming_streamed t hd hwait
        have hall := ih (t := t.incoming (received bytes)) (by rw [hnext]) hrest
        rw [hnext] at hall ⊢
        rw [hsent]
        simpa [toStream,toRequests] using hall
      | some entry =>
        obtain ⟨requestId,tx⟩ := entry
        have hsent : deliveries t.handler.pendingRequests.waiting (.datagram bytes :: rest) =
            (packet,some tx) ::
              deliveries (t.handler.pendingRequests.waiting.erase requestId) rest := by
          simp only [deliveries,hd,hwait]
        obtain ⟨count,hnext⟩ := incoming_answered t hd hwait
        have hall := ih (t := t.incoming (received bytes)) (by rw [hnext]) hrest
        rw [hnext] at hall ⊢
        rw [hsent]
        simpa [toStream,toRequests] using hall

/-- The loop keeps running and everything the decoder accepts is delivered once, in order, to
the request that waits for it or else to the packet stream, if and only if the decoder
accepts every datagram received. -/
theorem survives_and_delivers_iff (inputs : List Input) :
    ((Task.new.run inputs).running = true ∧
      (Task.new.run inputs).handler.packetTx = toStream (deliveries ∅ inputs) ∧
      (Task.new.run inputs).handler.pendingRequests.answered = toRequests (deliveries ∅ inputs)) ↔
    AllAccepted inputs := by
  constructor
  · rintro ⟨hrun,_⟩
    exact run_running hrun
  · exact run_accepted rfl

/-- One byte that is no packet type, and a voice packet behind it is lost. -/
theorem bad_datagram_ends_voice :
    let inputs : List Input := [.datagram [0xff],
      .datagram [0x61,0,18,0,0,0,0,0,0,0,3,0,0,0,5,0,0,0,9,1,2]]
    (Task.new.run inputs).running = false ∧ (Task.new.run inputs).handler.packetTx = [] ∧
      toStream (deliveries ∅ inputs) = [.voiceData 3 5 9 [1,2]] := by
  refine ⟨by decide,by decide,?_⟩
  decide

end VoiceApp.Sdk.UdpClient
