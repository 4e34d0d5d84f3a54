import VoiceApp.Base.LabelledRun
import VoiceApp.Sdk.TcpClient

/-! # Calls, the send channel and the handler tasks

All calls of a client share one send channel and one counter of request ids. Every
successful connect starts a handler task with a socket of its own; the tasks compete for
what is in the channel. A connect that fails behind its TCP socket differs from one that
succeeds in the calls that follow only.
-/
namespace VoiceApp.Sdk
open Protocol

/-- The requests sent over TCP. -/
inductive Api
  | authenticateManagement (username : String)
  | joinChannel
  | leaveChannel
  | sendMessage (message : String)
  | ping
  deriving DecidableEq

def Api.request (requestId : UInt64) : Api → Packet
  | authenticateManagement username => .loginRequest requestId username
  | joinChannel => .joinVoiceChannelRequest requestId
  | leaveChannel => .leaveVoiceChannelRequest requestId
  | sendMessage message => .chatMessageRequest requestId message
  | ping => .pingRequest requestId

/-- A call has its request id, has sent its request, or has come back: with a packet, or
without one after a timeout or when its channel was dropped. -/
inductive CallPhase
  | drawn
  | waiting
  | returned (response : Option Packet)
  deriving DecidableEq

structure Call where
  api : Api
  requestId : UInt64
  phase : CallPhase
  deriving DecidableEq

def Call.request (call : Call) : Packet := call.api.request call.requestId

/-- What goes through the send channel. -/
structure Outgoing where
  packet : Bytes
  callback : Option (UInt64 × Oneshot)
  deriving DecidableEq

namespace TcpClient

/-- Length of the buffer each read goes into. -/
def readBufSize : ℕ := 4096

/-- Register the callback of a packet that is about to be written. -/
def handleOutgoing (c : Handler) (o : Outgoing) : Handler :=
  match o.callback with
  | some (expectedRequestId,tx) =>
    { c with pendingResponses := c.pendingResponses.register expectedRequestId tx }
  | none => c

/-- A handler task, whether its loop goes on, and what its socket has carried. -/
structure Task where
  handler : Handler
  running : Bool
  written : Bytes
  received : Bytes

namespace Task

def new : Task := ⟨.new,true,[],[]⟩

/-- The outgoing branch of the `select!`; these bytes were written. -/
def outgoing (t : Task) (o : Outgoing) (written : Bool) (bytes : Bytes) : Task :=
  { t with
    handler := handleOutgoing t.handler o
    running := written
    written := t.written ++ bytes }

/-- The incoming branch of the `select!`. -/
def incoming (t : Task) (result : Option Bytes) : Task :=
  match handleIncoming t.handler result with
  | .ok (proceed,handler) =>
    { t with
      handler := handler
      running := proceed
      received := t.received ++ result.getD [] }
  | .error _ => { t with running := false }

end Task
end TcpClient

open TcpClient (Task)

/-- `sendTx` is everything ever sent into the channel and `taken` counts what the tasks have
received from it; the tasks are in the order of their connects. A call's oneshot channel is
named by the place of the call. -/
structure Client where
  requestIdCounter : UInt64
  sendTx : List Outgoing
  taken : ℕ
  tasks : List Task
  calls : List Call

namespace Client

def new : Client := ⟨1,[],0,[],[]⟩

def enqueue (c : Client) (o : Outgoing) : Client := { c with sendTx := c.sendTx ++ [o] }

def setCall (c : Client) (n : ℕ) (call : Call) : Client := { c with calls := c.calls.set n call }

def setTask (c : Client) (k : ℕ) (t : Task) : Client := { c with tasks := c.tasks.set k t }

inductive Label
  | connectFails
  | connect
  | authenticateVoice
  | call (api : Api)
  | send (n : ℕ)
  | sendMuteState (userId : UInt64) (isMuted : Bool)
  | outgoing (k : ℕ) (written : Bool)
  | incoming (k : ℕ) (result : Option Bytes)
  | respond (n : ℕ) (packet : Packet)
  | fail (n : ℕ)

/-- One step of a call or of a handler task. The counter is taken not to wrap. -/
inductive Step : Client → Label → Client → Prop
  | connectFails {c} : Step c .connectFails c
  | connect {c} : Step c .connect { c with tasks := c.tasks ++ [.new] }
  -- the voice authentication draws a request id and goes over UDP
  | authenticateVoice {c} (hid : c.requestIdCounter.toNat + 1 < 2 ^ 64) :
      Step c .authenticateVoice { c with requestIdCounter := c.requestIdCounter + 1 }
  | call {c api} (hid : c.requestIdCounter.toNat + 1 < 2 ^ 64) :
      Step c (.call api) { c with
        requestIdCounter := c.requestIdCounter + 1
        calls := c.calls ++ [⟨api,c.requestIdCounter,.drawn⟩] }
  | send {c n call data} (hc : c.calls[n]? = some call) (hp : call.phase = .drawn)
      (he : call.request.encode = some data) :
      Step c (.send n) ((c.setCall n { call with phase := .waiting }).enqueue
        ⟨data,some (call.requestId,n)⟩)
  | sendMuteState {c userId isMuted data} (he : (Packet.userMuteState userId isMuted).encode = some data) :
      Step c (.sendMuteState userId isMuted) (c.enqueue ⟨data,none⟩)
  | outgoing {c k t o written bytes} (ht : c.tasks[k]? = some t) (hrun : t.running = true)
      (ho : c.sendTx[c.taken]? = some o) (hb : bytes <+: o.packet)
      (hw : written = true → bytes = o.packet) :
      Step c (.outgoing k written)
        ({ c with taken := c.taken + 1 }.setTask k (t.outgoing o written bytes))
  | incoming {c k t result} (ht : c.tasks[k]? = some t) (hrun : t.running = true)
      (hlen : (result.getD []).length ≤ TcpClient.readBufSize) :
      Step c (.incoming k result) (c.setTask k (t.incoming result))
  | respond {c n call packet} {k : ℕ} {t : Task} (hc : c.calls[n]? = some call) (hp : call.phase = .waiting)
      (ht : c.tasks[k]? = some t) (ha : (n,packet) ∈ t.handler.pendingResponses.answered) :
      Step c (.respond n packet) (c.setCall n { call with phase := .returned (some packet) })
  | fail {c n call} (hc : c.calls[n]? = some call) (hp : call.phase = .waiting) :
      Step c (.fail n) (c.setCall n { call with phase := .returned none })

abbrev Trace := List Label

end Client
end VoiceApp.Sdk
