import VoiceApp.Sdk.Pending

/-! # The TCP client's receiving side

The handler task accumulates what it reads and hands on every complete packet, first to
the request it answers, if one is waiting, and then always to the packet stream.
-/
namespace VoiceApp.Sdk.TcpClient
open Protocol Framing

/-- The handler's side of the client; `packetTx` is everything sent into the packet stream
so far, oldest first. -/
structure Handler where
  pendingResponses : Pending
  packetTx : List Packet
  accumulator : Bytes

/-- Why the handler stops. -/
inductive HandlerError
  | read
  deriving DecidableEq

namespace Handler

def new : Handler := ⟨.new,[],[]⟩

/-- What the loop does with one packet. -/
def deliver (packet : Packet) : StateM Handler PUnit :=
  modify fun c => { c with
    pendingResponses := (c.pendingResponses.resolve packet.requestId packet).1
    packetTx := c.packetTx ++ [packet] }

/-- Parse all complete packets from the accumulator. -/
def drainAccumulator (accumulator : Bytes) : StateM Handler Bytes :=
  Packet.framer.drain deliver accumulator

end Handler

/-- `handle_incoming` on a read that returned these bytes (`none` for an I/O error); the
Boolean is `should_continue`. -/
def handleIncoming (c : Handler) : Option Bytes → Except HandlerError (Bool × Handler)
  | none => .error .read
  | some [] => .ok (false,c)
  | some bytes =>
    let (accumulator,c) := (Handler.drainAccumulator (c.accumulator ++ bytes)).run c
    .ok (true,{ c with accumulator := accumulator })

/-- The handler's loop over a list of reads, as long as it goes on. -/
def handleReads (c : Handler) : List Bytes → Except HandlerError (Bool × Handler)
  | [] => .ok (true,c)
  | bytes :: rest => do
    let (proceed,c) ← handleIncoming c (some bytes)
    if proceed then handleReads c rest else return (false,c)

/-- The handler after handing on some packets. -/
def Handler.handOn (c : Handler) (packets : List Packet) : Handler :=
  ((forM packets Handler.deliver : StateM Handler PUnit).run c).2

namespace Handler

theorem handOn_cons (c : Handler) (packet : Packet) (rest : List Packet) :
    c.handOn (packet :: rest) = (c.handOn [packet]).handOn rest := by
  simp only [handOn,List.forM_cons,List.forM_nil]
  rfl

theorem handOn_append (c : Handler) (packets more : List Packet) :
    c.handOn (packets ++ more) = (c.handOn packets).handOn more := by
  induction packets generalizing c with
  | nil => rfl
  | cons packet rest ih => rw [List.cons_append,handOn_cons,ih,← handOn_cons]

/-- Handing on does not look at the accumulator. -/
theorem handOn_accumulator (c : Handler) (packets : List Packet) (accumulator : Bytes) :
    ({ c with accumulator := accumulator } : Handler).handOn packets =
      { c.handOn packets with accumulator := accumulator } := by
  induction packets generalizing c with
  | nil => rfl
  | cons packet rest ih =>
    rw [handOn_cons,handOn_cons c]
    exact ih (c.handOn [packet])

/-- Everything handed on reaches the packet stream in order. -/
theorem handOn_packetTx (c : Handler) (packets : List Packet) :
    (c.handOn packets).packetTx = c.packetTx ++ packets := by
  induction packets generalizing c with
  | nil => exact (List.append_nil c.packetTx).symm
  | cons packet rest ih =>
    rw [handOn_cons,ih]
    exact List.append_assoc c.packetTx [packet] rest

end Handler

/-- A read that is not the end of the stream hands on the frames split off. -/
theorem handleIncoming_some {bytes : Bytes} (hne : bytes ≠ []) (c : Handler) :
    handleIncoming c (some bytes) =
      .ok (true,{ c.handOn (Packet.framer.split (c.accumulator ++ bytes)).1 with
        accumulator := (Packet.framer.split (c.accumulator ++ bytes)).2 }) := by
  cases bytes with
  | nil => exact (hne rfl).elim
  | cons byte rest =>
    have hdrain := Packet.framer.drain_eq Handler.deliver (c.accumulator ++ byte :: rest)
    simp only [handleIncoming,Handler.drainAccumulator,hdrain]
    rfl

/-- The loop hands on what feeding the reads one by one splits off. -/
theorem handleReads_some {reads : List Bytes} (hne : ∀ bytes ∈ reads, bytes ≠ []) (c : Handler)
    (packets : List Packet) (accumulator : Bytes) :
    handleReads { c.handOn packets with accumulator := accumulator } reads =
      .ok (true,{ c.handOn (reads.foldl Packet.framer.feed (packets,accumulator)).1 with
        accumulator := (reads.foldl Packet.framer.feed (packets,accumulator)).2 }) := by
  induction reads generalizing packets accumulator with
  | nil => rfl
  | cons bytes rest ih =>
    simp only [handleReads,handleIncoming_some (hne bytes (by simp)),bind,Except.bind,if_true]
    rw [List.foldl_cons,← ih (fun b hb => hne b (List.mem_cons_of_mem bytes hb)),
      Handler.handOn_accumulator,← Handler.handOn_append]
    rfl

theorem handleReads_feed {reads : List Bytes} (hne : ∀ bytes ∈ reads, bytes ≠ []) (c : Handler) :
    ∃ c', handleReads c reads = .ok (true,c') ∧
      (c'.packetTx,c'.accumulator) =
        reads.foldl Packet.framer.feed (c.packetTx,c.accumulator) := by
  refine ⟨_,handleReads_some hne c [] c.accumulator,?_⟩
  have hpre := Packet.framer.foldl_feed_append c.packetTx reads ([],c.accumulator)
  rw [List.append_nil] at hpre
  rw [hpre,Handler.handOn_packetTx]

end VoiceApp.Sdk.TcpClient
