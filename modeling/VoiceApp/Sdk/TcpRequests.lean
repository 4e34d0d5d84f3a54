import VoiceApp.Sdk.Client

/-! # The requests of a TCP client

A call puts its request into the send channel together with a callback. A handler task keeps
the callback in its own map until a response takes it out, or another callback with the same
id. A call that gives up leaves the map alone.
-/
namespace VoiceApp.Sdk
open Protocol
namespace TcpClient

/-- A call has made its channel, has sent its request, has returned, or has panicked. -/
inductive Phase
  | started
  | waiting
  | returned (result : Except RequestError Packet)
  | panicked

/-- A call of `send_request`. -/
structure Request where
  packet : Packet
  phase : Phase

namespace Request

def new (packet : Packet) : Request :=
  match packet.requestId with
  | none => ⟨packet,.returned (.error .noRequestId)⟩
  | some _ => ⟨packet,.started⟩

def inProgress (r : Request) : Bool :=
  match r.phase with
  | .started => true
  | .waiting => true
  | .returned _ => false
  | .panicked => false

/-- `SdkError::Timeout` with the id of the request. -/
def timeout (requestId : UInt64) : RequestError := .timeout ("request_id " ++ toString requestId)

end Request

/-- A handler task, and the packet that it is writing. -/
structure Worker where
  task : Task
  writing : Option Bytes

namespace Worker

def new : Worker := ⟨.new,none⟩

def running (w : Worker) : Bool := w.task.running

def pending (w : Worker) : Pending := w.task.handler.pendingResponses

def table (w : Worker) : Table UInt64 Oneshot := w.pending.waiting

/-- The callback of a packet is registered before the packet is written. -/
def take (w : Worker) (o : Outgoing) : Worker :=
  ⟨{ w.task with handler := handleOutgoing w.task.handler o },some o.packet⟩

/-- These bytes were written. -/
def wrote (w : Worker) (written : Bool) (bytes : Bytes) : Worker :=
  ⟨{ w.task with running := written, written := w.task.written ++ bytes },none⟩

def incoming (w : Worker) (result : Option Bytes) : Worker := { w with task := w.task.incoming result }

/-- Both together are the outgoing branch of the task. -/
theorem wrote_take (t : Task) (o : Outgoing) (written : Bool) (bytes : Bytes) :
    (take ⟨t,none⟩ o).wrote written bytes = ⟨t.outgoing o written bytes,none⟩ := rfl

end Worker

end TcpClient

/-- `sendTx` is everything ever sent into the channel and `taken` counts what the tasks have
received from it. The channel is never closed, since the client has a receiver. A call's
oneshot channel is named by the place of the call. -/
structure TcpClient where
  sendTx : List Outgoing
  taken : ℕ
  workers : List TcpClient.Worker
  requests : List TcpClient.Request

namespace TcpClient

def new : TcpClient := ⟨[],0,[],[]⟩

def enqueue (c : TcpClient) (o : Outgoing) : TcpClient := { c with sendTx := c.sendTx ++ [o] }

def setRequest (c : TcpClient) (n : ℕ) (r : Request) : TcpClient :=
  { c with requests := c.requests.set n r }

def setWorker (c : TcpClient) (k : ℕ) (w : Worker) : TcpClient := { c with workers := c.workers.set k w }

/-- No handler task that runs has the callback. -/
def Unregistered (c : TcpClient) (n : Oneshot) : Prop :=
  ∀ w ∈ c.workers, w.running = true → w.table.All fun _ m => m ≠ n

/-- The callback is neither in the channel nor with a handler task, and was not used. -/
def Dropped (c : TcpClient) (n : Oneshot) : Prop :=
  (∀ (i : ℕ) (o : Outgoing) (id : UInt64), c.taken ≤ i → c.sendTx[i]? = some o → o.callback ≠ some (id,n)) ∧
    c.Unregistered n ∧ ∀ w ∈ c.workers, ∀ packet, (n,packet) ∉ w.pending.answered

inductive Label
  | connect
  | sendEvent (packet : Packet)
  | sendRequest (packet : Packet)
  | enqueue (n : ℕ)
  | encodePanics (n : ℕ)
  | take (k : ℕ)
  | wrote (k : ℕ) (written : Bool)
  | incoming (k : ℕ) (result : Option Bytes)
  | respond (n : ℕ) (packet : Packet)
  | disconnected (n : ℕ)
  | timeout (n : ℕ)

/-- One step of a call or of a handler task; the timeout comes at any time. -/
inductive Step : TcpClient → Label → TcpClient → Prop
  | connect {c} : Step c .connect { c with workers := c.workers ++ [.new] }
  | sendEvent {c packet data} (he : packet.encode = some data) :
      Step c (.sendEvent packet) (c.enqueue ⟨data,none⟩)
  | sendRequest {c packet} :
      Step c (.sendRequest packet) { c with requests := c.requests ++ [.new packet] }
  | enqueue {c n r id data} (hr : c.requests[n]? = some r) (hp : r.phase = .started)
      (hid : r.packet.requestId = some id) (he : r.packet.encode = some data) :
      Step c (.enqueue n) ((c.setRequest n { r with phase := .waiting }).enqueue ⟨data,some (id,n)⟩)
  | encodePanics {c n r} (hr : c.requests[n]? = some r) (hp : r.phase = .started)
      (he : r.packet.encode = none) :
      Step c (.encodePanics n) (c.setRequest n { r with phase := .panicked })
  | take {c k w o} (hw : c.workers[k]? = some w) (hrun : w.running = true) (hidle : w.writing = none)
      (ho : c.sendTx[c.taken]? = some o) :
      Step c (.take k) ({ c with taken := c.taken + 1 }.setWorker k (w.take o))
  | wrote {c k w data written bytes} (hw : c.workers[k]? = some w) (hrun : w.running = true)
      (hwriting : w.writing = some data) (hb : bytes <+: data) (hall : written = true → bytes = data) :
      Step c (.wrote k written) (c.setWorker k (w.wrote written bytes))
  | incoming {c k w result} (hw : c.workers[k]? = some w) (hrun : w.running = true)
      (hidle : w.writing = none) (hlen : (result.getD []).length ≤ readBufSize) :
      Step c (.incoming k result) (c.setWorker k (w.incoming result))
  | respond {c n r packet} {w : Worker} (hr : c.requests[n]? = some r) (hp : r.phase = .waiting)
      (hw : w ∈ c.workers) (ha : (n,packet) ∈ w.pending.answered) :
      Step c (.respond n packet) (c.setRequest n { r with phase := .returned (.ok packet) })
  | disconnected {c n r} (hr : c.requests[n]? = some r) (hp : r.phase = .waiting)
      (hd : c.Dropped n) :
      Step c (.disconnected n) (c.setRequest n { r with phase := .returned (.error .disconnected) })
  | timeout {c n r id} (hr : c.requests[n]? = some r) (hp : r.phase = .waiting)
      (hid : r.packet.requestId = some id) :
      Step c (.timeout n) (c.setRequest n { r with phase := .returned (.error (Request.timeout id)) })

/-! ## Live entries -/

/-- The call of this callback has sent the id and is in progress. -/
def Owns (c : TcpClient) (id : UInt64) (n : Oneshot) : Prop :=
  ∃ r, c.requests[n]? = some r ∧ r.packet.requestId = some id ∧ r.inProgress = true

/-- The maps of the handler tasks that run; the others are gone. -/
def TablesLive (c : TcpClient) : Prop := ∀ w ∈ c.workers, w.running = true → w.table.All c.Owns

/-- The calls in progress. -/
def inProgress (c : TcpClient) : List Request := c.requests.filter Request.inProgress

/-- A call times out when no handler task has its callback, and no callback is registered
after its call has ended. -/
def Prompt (c : TcpClient) : Label → Prop
  | .timeout n => c.Unregistered n
  | .take _ => ∀ o id n, c.sendTx[c.taken]? = some o → o.callback = some (id,n) →
      ∃ r, c.requests[n]? = some r ∧ r.inProgress = true
  | _ => True

/-- Every entry has a call in progress of its own id, so there are no more of them. -/
theorem TablesLive.card_le {c : TcpClient} (h : c.TablesLive) {w : Worker} (hw : w ∈ c.workers)
    (hrun : w.running = true) : w.table.keys.card ≤ c.inProgress.length := by
  have hkeys : w.table.All fun id _ => id ∈ c.inProgress.filterMap fun r => r.packet.requestId := by
    intro id n hwait
    obtain ⟨r,hr,hid,hprogress⟩ := h w hw hrun id n hwait
    apply List.mem_filterMap.mpr
    exact ⟨r,List.mem_filter.mpr ⟨List.mem_of_getElem? hr,hprogress⟩,hid⟩
  exact hkeys.card_keys_le.trans (List.length_filterMap_le _ _)

/-! ## Where a callback is -/

/-- A callback has not been sent, is in the channel, waits in the map of a handler task under
an id, or has been used; one that was dropped stays where it was. -/
inductive Place
  | unsent
  | queued (i : ℕ)
  | waiting (k : ℕ) (id : UInt64)
  | used
  deriving DecidableEq

/-- What the handler task `k` has is placed there. -/
structure Held (place : Oneshot → Place) (k : ℕ) (p : Pending) : Prop where
  waiting : p.waiting.All fun id n => place n = .waiting k id
  used : ∀ n packet, (n,packet) ∈ p.answered → place n = .used

/-- Every callback has one place. -/
structure Placed (c : TcpClient) (place : Oneshot → Place) : Prop where
  unsent : ∀ n, (∀ r, c.requests[n]? = some r → r.phase = .started) → place n = .unsent
  queued : ∀ i o id n, c.taken ≤ i → c.sendTx[i]? = some o → o.callback = some (id,n) →
    place n = .queued i
  asked : ∀ o ∈ c.sendTx, ∀ id n, o.callback = some (id,n) →
    ∃ r, c.requests[n]? = some r ∧ r.packet.requestId = some id
  held : ∀ k w, c.workers[k]? = some w → Held place k w.pending

/-- Some callbacks of the handler task `k` are used. -/
def Uses (k : ℕ) (place place' : Oneshot → Place) : Prop :=
  ∀ n, place' n = place n ∨ (∃ id, place n = .waiting k id) ∧ place' n = .used

namespace Uses
variable {k : ℕ} {place place' place'' : Oneshot → Place}

theorem refl (k : ℕ) (place : Oneshot → Place) : Uses k place place := fun _ => .inl rfl

theorem trans (h : Uses k place place') (h' : Uses k place' place'') : Uses k place place'' := by
  intro n
  rcases h' n with hsame | ⟨⟨id,hwaiting⟩,hused⟩
  · rw [hsame]
    exact h n
  · rcases h n with hsame | ⟨_,hused'⟩
    · exact .inr ⟨⟨id,hsame ▸ hwaiting⟩,hused⟩
    · rw [hwaiting] at hused'
      cases hused'

/-- A callback that is not with the task stays where it is. -/
theorem same (h : Uses k place place') {n : Oneshot} (hn : ∀ id, place n ≠ .waiting k id) :
    place' n = place n := by
  rcases h n with hsame | ⟨⟨id,hwaiting⟩,_⟩
  · exact hsame
  · exact (hn id hwaiting).elim

end Uses

namespace Held
variable {place place' : Oneshot → Place} {k : ℕ} {p : Pending}

/-- What other tasks use makes no difference. -/
theorem other (h : Held place k p) {j : ℕ} (hne : k ≠ j) (huses : Uses j place place') :
    Held place' k p := by
  constructor
  · intro id n hwait
    have hplace := h.waiting id n hwait
    rw [huses.same (by simp [hplace,hne]),hplace]
  · intro n packet hmem
    have hplace := h.used n packet hmem
    rw [huses.same (by simp [hplace]),hplace]

/-- A response uses the callback that waits under its id. -/
theorem resolve (h : Held place k p) (requestId : Option UInt64) (packet : Packet) :
    ∃ place', Uses k place place' ∧ Held place' k (p.resolve requestId packet).1 := by
  rcases p.resolve_cases requestId packet with hsame | ⟨id,n,_,hwait,htaken⟩
  · rw [hsame]
    exact ⟨place,.refl k place,h⟩
  · have hn := h.waiting id n hwait
    refine ⟨Function.update place n .used,?_,?_⟩
    · intro m
      by_cases hm : m = n
      · rw [hm,Function.update_self]
        exact .inr ⟨⟨id,hn⟩,rfl⟩
      · exact .inl (Function.update_of_ne hm _ _)
    · rw [htaken]
      constructor
      · -- what is left waits under other ids
        intro id' m hm
        obtain ⟨hid,hplace⟩ := h.waiting.erase id id' m hm
        have hne : m ≠ n := by
          rintro rfl
          rw [hn] at hplace
          cases hplace
          exact hid rfl
        rw [Function.update_of_ne hne,hplace]
      · intro m packet' hmem
        rcases List.mem_append.mp hmem with hmem | hmem
        · have hused := h.used m packet' hmem
          by_cases hm : m = n
          · rw [hm,Function.update_self]
          · rw [Function.update_of_ne hm,hused]
        · cases List.mem_singleton.mp hmem
          exact Function.update_self ..

theorem handOn {c : Handler} (h : Held place k c.pendingResponses) (packets : List Packet) :
    ∃ place', Uses k place place' ∧ Held place' k (c.handOn packets).pendingResponses := by
  induction packets generalizing c place with
  | nil => exact ⟨place,.refl k place,h⟩
  | cons packet rest ih =>
    rw [Handler.handOn_cons]
    obtain ⟨place₁,huses,hheld⟩ := h.resolve packet.requestId packet
    obtain ⟨place₂,huses',hheld'⟩ := ih (c := c.handOn [packet]) hheld
    exact ⟨place₂,huses.trans huses',hheld'⟩

theorem new (place : Oneshot → Place) (k : ℕ) : Held place k .new := by
  constructor
  · exact Table.All.empty
  · simp [Pending.new]

/-- A callback that the task does not have is moved. -/
theorem update (h : Held place k p) {n : Oneshot} (hwaiting : ∀ id, place n ≠ .waiting k id)
    (hused : place n ≠ .used) (target : Place) : Held (Function.update place n target) k p := by
  constructor
  · intro id m hm
    have hplace := h.waiting id m hm
    rw [Function.update_of_ne,hplace]
    rintro rfl
    exact hwaiting id hplace
  · intro m packet hmem
    have hplace := h.used m packet hmem
    rw [Function.update_of_ne,hplace]
    rintro rfl
    exact hused hplace

/-- A task registers a callback from the channel. -/
theorem register (h : Held place k p) {n : Oneshot} {i : ℕ} (hn : place n = .queued i) (id : UInt64) :
    Held (Function.update place n (.waiting k id)) k (p.register id n) := by
  have hmoved := h.update (n := n) (by simp [hn]) (by simp [hn]) (.waiting k id)
  exact ⟨hmoved.waiting.insert (Function.update_self ..),hmoved.used⟩

end Held

namespace Placed
variable {c c' : TcpClient} {place : Oneshot → Place}

theorem new : Placed .new fun _ => .unsent := by
  constructor
  · intro n _
    rfl
  · intro i o id n _ ho
    simp [TcpClient.new] at ho
  · intro o ho
    simp [TcpClient.new] at ho
  · intro k w hw
    simp [TcpClient.new] at hw

/-- Calls come and go on; none of them starts again. -/
theorem requests (h : Placed c place) (hsend : c'.sendTx = c.sendTx) (htaken : c'.taken = c.taken)
    (hworkers : c'.workers = c.workers)
    (hold : ∀ (n : ℕ) (r : Request), c.requests[n]? = some r → ∃ r' : Request,
      c'.requests[n]? = some r' ∧ r'.packet = r.packet ∧ (r'.phase = .started → r.phase = .started)) :
    Placed c' place := by
  constructor
  · intro n hn
    apply h.unsent
    intro r hr
    obtain ⟨r',hr',_,hphase⟩ := hold n r hr
    exact hphase (hn r' hr')
  · rw [hsend,htaken]
    exact h.queued
  · intro o ho id n hcallback
    rw [hsend] at ho
    obtain ⟨r,hr,hid⟩ := h.asked o ho id n hcallback
    obtain ⟨r',hr',hpacket,_⟩ := hold n r hr
    rw [← hpacket] at hid
    exact ⟨r',hr',hid⟩
  · rw [hworkers]
    exact h.held

theorem setRequest (h : Placed c place) {n : ℕ} {r r' : Request} (hr : c.requests[n]? = some r)
    (hpacket : r'.packet = r.packet) (hphase : r'.phase ≠ .started) :
    Placed (c.setRequest n r') place := by
  refine h.requests rfl rfl rfl ?_
  intro m q hq
  have hget := getElem?_set_of_some hr r' m
  by_cases hm : m = n
  · rw [if_pos hm] at hget
    rw [hm,hr] at hq
    cases hq
    exact ⟨r',hget,hpacket,fun hstarted => (hphase hstarted).elim⟩
  · rw [if_neg hm] at hget
    exact ⟨q,hget.trans hq,rfl,id⟩

theorem enqueue (h : Placed c place) {o : Outgoing} (hnew : ∀ id n, o.callback = some (id,n) →
      place n = .unsent ∧ ∃ r, c.requests[n]? = some r ∧ r.packet.requestId = some id ∧ r.phase ≠ .started) :
    ∃ place', Placed (c.enqueue o) place' := by
  cases hcallback : o.callback with
  | none =>
    refine ⟨place,h.unsent,?_,?_,h.held⟩
    · intro i o' id n hi ho' hcallback'
      rcases getElem?_concat_inv ho' with hold | ⟨_,rfl⟩
      · exact h.queued i o' id n hi hold hcallback'
      · simp [hcallback] at hcallback'
    · intro o' ho' id n hcallback'
      rcases List.mem_append.mp ho' with ho' | ho'
      · exact h.asked o' ho' id n hcallback'
      · cases List.mem_singleton.mp ho'
        simp [hcallback] at hcallback'
  | some entry =>
    obtain ⟨id,n⟩ := entry
    obtain ⟨hunsent,r,hr,hid,hphase⟩ := hnew id n hcallback
    refine ⟨Function.update place n (.queued c.sendTx.length),?_,?_,?_,?_⟩
    · intro m hm
      rw [Function.update_of_ne,h.unsent m hm]
      rintro rfl
      exact hphase (hm r hr)
    · intro i o' id' m hi ho' hcallback'
      rcases getElem?_concat_inv ho' with hold | ⟨rfl,rfl⟩
      · have hqueued := h.queued i o' id' m hi hold hcallback'
        rw [Function.update_of_ne,hqueued]
        rintro rfl
        rw [hunsent] at hqueued
        cases hqueued
      · cases hcallback.symm.trans hcallback'
        exact Function.update_self ..
    · intro o' ho' id' m hcallback'
      rcases List.mem_append.mp ho' with ho' | ho'
      · exact h.asked o' ho' id' m hcallback'
      · cases List.mem_singleton.mp ho'
        cases hcallback.symm.trans hcallback'
        exact ⟨r,hr,hid⟩
    · intro k w hw
      exact (h.held k w hw).update (by simp [hunsent]) (by simp [hunsent]) _

theorem connect (h : Placed c place) : Placed { c with workers := c.workers ++ [.new] } place := by
  refine ⟨h.unsent,h.queued,h.asked,?_⟩
  intro k w hw
  rcases getElem?_concat_inv hw with hold | ⟨_,rfl⟩
  · exact h.held k w hold
  · exact .new place k

/-- A handler task goes on; its map and what it has used stay in their places. -/
theorem setWorker (h : Placed c place) {k : ℕ} {w w' : Worker} {place' : Oneshot → Place}
    (hw : c.workers[k]? = some w) (huses : Uses k place place') (hheld : Held place' k w'.pending) :
    Placed (c.setWorker k w') place' := by
  refine ⟨?_,?_,h.asked,?_⟩
  · intro n hn
    have hunsent := h.unsent n hn
    rw [huses.same (by simp [hunsent]),hunsent]
  · intro i o id n hi ho hcallback
    have hqueued := h.queued i o id n hi ho hcallback
    rw [huses.same (by simp [hqueued]),hqueued]
  · intro j v hv
    rw [TcpClient.setWorker,getElem?_set_of_some hw w'] at hv
    split at hv
    · rename_i hj
      cases hv
      rw [hj]
      exact hheld
    · exact (h.held j v hv).other ‹_› huses

/-- A task takes the next packet of the channel. -/
theorem take (h : Placed c place) {k : ℕ} {w : Worker} {o : Outgoing} (hw : c.workers[k]? = some w)
    (ho : c.sendTx[c.taken]? = some o) :
    ∃ place', Placed ({ c with taken := c.taken + 1 }.setWorker k (w.take o)) place' := by
  have hheld := h.held k w hw
  cases hcallback : o.callback with
  | none =>
    have htaken : Placed { c with taken := c.taken + 1 } place :=
      ⟨h.unsent,fun i o' id n hi => h.queued i o' id n (Nat.le_of_succ_le hi),h.asked,h.held⟩
    refine ⟨place,htaken.setWorker hw (.refl k place) ?_⟩
    rw [Worker.take,handleOutgoing,hcallback]
    exact hheld
  | some entry =>
    obtain ⟨id,n⟩ := entry
    have hn := h.queued c.taken o id n (Nat.le_refl _) ho hcallback
    have hmoved : Placed { c with taken := c.taken + 1 } (Function.update place n (.waiting k id)) := by
      refine ⟨?_,?_,h.asked,?_⟩
      · intro m hm
        have hunsent := h.unsent m hm
        rw [Function.update_of_ne,hunsent]
        rintro rfl
        rw [hn] at hunsent
        cases hunsent
      · intro i o' id' m hi ho' hcallback'
        have hi' : c.taken + 1 ≤ i := hi
        have hqueued := h.queued i o' id' m (by omega) ho' hcallback'
        rw [Function.update_of_ne,hqueued]
        rintro rfl
        rw [hn,Place.queued.injEq] at hqueued
        omega
      · intro j v hv
        exact (h.held j v hv).update (by simp [hn]) (by simp [hn]) _
    refine ⟨_,hmoved.setWorker hw (.refl k _) ?_⟩
    rw [Worker.take,handleOutgoing,hcallback]
    exact hheld.register hn id

/-- A read hands on the packets it completes. -/
theorem incoming (h : Placed c place) {k : ℕ} {w : Worker} (hw : c.workers[k]? = some w)
    (result : Option Bytes) : ∃ place', Placed (c.setWorker k (w.incoming result)) place' := by
  have hheld := h.held k w hw
  have hwithin : ∃ place', Uses k place place' ∧ Held place' k (w.incoming result).pending := by
    cases result with
    | none => exact ⟨place,.refl k place,hheld⟩
    | some bytes =>
      by_cases hne : bytes = []
      · rw [hne]
        exact ⟨place,.refl k place,hheld⟩
      · rw [Worker.incoming,Task.incoming,handleIncoming_some hne]
        exact Held.handOn hheld _
  obtain ⟨place',huses,hheld'⟩ := hwithin
  exact ⟨place',h.setWorker hw huses hheld'⟩

end Placed

theorem step_placed {c c' : TcpClient} {label : Label} {place : Oneshot → Place} (h : Placed c place)
    (hstep : Step c label c') : ∃ place', Placed c' place' := by
  cases hstep with
  | connect => exact ⟨place,h.connect⟩
  | sendEvent => exact h.enqueue (by simp)
  | @sendRequest packet =>
    refine ⟨place,h.requests rfl rfl rfl ?_⟩
    intro n r hr
    exact ⟨r,getElem?_append_of_some hr _,rfl,fun hphase => hphase⟩
  | @enqueue n r id data hr hp hid he =>
    have hunsent : place n = .unsent := by
      apply h.unsent
      intro q hq
      cases hr.symm.trans hq
      exact hp
    have hget := getElem?_set_of_some hr { r with phase := .waiting } n
    rw [if_pos rfl] at hget
    have hwaiting : Placed (c.setRequest n { r with phase := .waiting }) place :=
      h.setRequest hr rfl (by simp)
    apply hwaiting.enqueue
    intro id' n' hcallback
    cases hcallback
    exact ⟨hunsent,_,hget,hid,by simp⟩
  | encodePanics hr => exact ⟨place,h.setRequest hr rfl (by simp)⟩
  | take hw _ _ ho => exact h.take hw ho
  | @wrote k w data written bytes hw =>
    have hheld := h.held k w hw
    exact ⟨place,h.setWorker hw (.refl k place) hheld⟩
  | incoming hw => exact h.incoming hw _
  | respond hr => exact ⟨place,h.setRequest hr rfl (by simp)⟩
  | disconnected hr => exact ⟨place,h.setRequest hr rfl (by simp)⟩
  | timeout hr => exact ⟨place,h.setRequest hr rfl (by simp)⟩

/-- In every run every callback has one place. -/
theorem run_placed {trace : List Label} {c : TcpClient} (h : Run Step new trace c) :
    ∃ place, Placed c place := by
  refine Run.preserves (P := fun c => ∃ place, Placed c place) ?_ h ⟨_,.new⟩
  rintro c label c' ⟨place,hplaced⟩ hstep
  exact step_placed hplaced hstep

/-! ## What a step does to the maps -/

section Live
variable {c c' : TcpClient} {place : Oneshot → Place}

theorem Placed.unregistered (h : Placed c place) {n : Oneshot} (hn : ∀ k id, place n ≠ .waiting k id) :
    c.Unregistered n := by
  intro w hw _ id m hm
  rintro rfl
  obtain ⟨k,hk⟩ := List.mem_iff_getElem?.mp hw
  exact hn k id ((h.held k w hk).waiting id m hm)

/-- A call may return when no map has its callback. -/
theorem TablesLive.setRequest (h : c.TablesLive) {n : ℕ} {r r' : Request} (hr : c.requests[n]? = some r)
    (hpacket : r'.packet = r.packet) (hn : r'.inProgress = true ∨ c.Unregistered n) :
    (c.setRequest n r').TablesLive := by
  intro w hw hrun id m hwait
  obtain ⟨q,hq,hid,hprogress⟩ := h w hw hrun id m hwait
  have hget := getElem?_set_of_some hr r' m
  by_cases hm : m = n
  · rw [if_pos hm] at hget
    rw [hm,hr] at hq
    cases hq
    rw [← hpacket] at hid
    rcases hn with hprogress' | hunregistered
    · exact ⟨r',hget,hid,hprogress'⟩
    · exact (hunregistered w hw hrun id m hwait hm).elim
  · rw [if_neg hm] at hget
    exact ⟨q,hget.trans hq,hid,hprogress⟩

/-- A task goes on with a map whose entries have calls in progress, or stops. -/
theorem TablesLive.setWorker (h : c.TablesLive) {k : ℕ} {w : Worker}
    (hw : w.running = true → w.table.All c.Owns) : (c.setWorker k w).TablesLive := by
  intro v hv hrun
  rcases List.mem_or_eq_of_mem_set hv with hv | rfl
  · exact h v hv hrun
  · exact hw hrun

theorem handOn_all {P : UInt64 → Oneshot → Prop} {handler : Handler} (packets : List Packet)
    (h : handler.pendingResponses.waiting.All P) :
    (handler.handOn packets).pendingResponses.waiting.All P := by
  induction packets generalizing handler with
  | nil => exact h
  | cons packet rest ih =>
    rw [Handler.handOn_cons]
    exact ih (Pending.resolve_all h packet.requestId packet)

theorem incoming_all {P : UInt64 → Oneshot → Prop} {w : Worker} (h : w.table.All P)
    (result : Option Bytes) : (w.incoming result).table.All P := by
  cases result with
  | none => exact h
  | some bytes =>
    by_cases hne : bytes = []
    · rw [hne]
      exact h
    · rw [Worker.incoming,Task.incoming,handleIncoming_some hne]
      exact handOn_all _ h

theorem take_table (w : Worker) (o : Outgoing) :
    (w.take o).table =
      match o.callback with
      | some (id,n) => w.table.insert id n
      | none => w.table := by
  rw [Worker.table,Worker.pending,Worker.take,handleOutgoing]
  cases o.callback <;> rfl

/-- A step keeps every entry with a call in progress exactly if it is a prompt one. -/
theorem step_live_iff {label : Label} (hplaced : Placed c place) (h : c.TablesLive)
    (hstep : Step c label c') : c'.TablesLive ↔ Prompt c label := by
  cases hstep with
  | connect =>
    refine iff_of_true ?_ trivial
    intro w hw hrun
    rcases List.mem_append.mp hw with hw | hw
    · exact h w hw hrun
    · cases List.mem_singleton.mp hw
      exact Table.All.empty
  | sendEvent => exact iff_of_true h trivial
  | sendRequest =>
    refine iff_of_true ?_ trivial
    intro w hw hrun id n hwait
    obtain ⟨r,hr,howns⟩ := h w hw hrun id n hwait
    exact ⟨r,getElem?_append_of_some hr _,howns⟩
  | enqueue hr => exact iff_of_true (h.setRequest hr rfl (.inl rfl)) trivial
  | encodePanics hr hp =>
    refine iff_of_true (h.setRequest hr rfl (.inr ?_)) trivial
    have hunsent := hplaced.unsent _ fun q hq => by
      cases hr.symm.trans hq
      exact hp
    exact hplaced.unregistered (by simp [hunsent])
  | @take k w o hw hrun hidle ho =>
    have hown := h w (List.mem_of_getElem? hw) hrun
    constructor
    · intro hlive o' id n ho' hcallback
      cases ho.symm.trans ho'
      have hmem := List.mem_of_getElem? ((getElem?_set_of_some hw (w.take o) k).trans (if_pos rfl))
      have hentry : (w.take o).table.lookup id = some n := by
        rw [take_table,hcallback]
        exact Finmap.lookup_insert _
      obtain ⟨r,hr,_,hprogress⟩ := hlive _ hmem hrun id n hentry
      exact ⟨r,hr,hprogress⟩
    · intro hprompt
      refine TablesLive.setWorker (c := { c with taken := c.taken + 1 }) h fun _ => ?_
      rw [take_table]
      cases hcallback : o.callback with
      | none => exact hown
      | some entry =>
        obtain ⟨id,n⟩ := entry
        obtain ⟨r,hr,hprogress⟩ := hprompt o id n ho hcallback
        obtain ⟨q,hq,hid⟩ := hplaced.asked o (List.mem_of_getElem? ho) id n hcallback
        cases hr.symm.trans hq
        exact hown.insert ⟨r,hr,hid,hprogress⟩
  | @wrote k w data written bytes hw hrun =>
    refine iff_of_true (h.setWorker fun _ => ?_) trivial
    exact h w (List.mem_of_getElem? hw) hrun
  | @incoming k w result hw hrun =>
    refine iff_of_true (h.setWorker fun _ => ?_) trivial
    exact incoming_all (h w (List.mem_of_getElem? hw) hrun) result
  | @respond n r packet w hr hp hw ha =>
    refine iff_of_true (h.setRequest hr rfl (.inr ?_)) trivial
    obtain ⟨k,hk⟩ := List.mem_iff_getElem?.mp hw
    have hused := (hplaced.held k w hk).used n packet ha
    exact hplaced.unregistered (by simp [hused])
  | disconnected hr _ hd => exact iff_of_true (h.setRequest hr rfl (.inr hd.2.1)) trivial
  | @timeout n r id hr =>
    constructor
    · intro hlive w hw hrun id' m hwait
      rintro rfl
      obtain ⟨q,hq,_,hprogress⟩ := hlive w hw hrun id' m hwait
      have hget := getElem?_set_of_some hr { r with phase := .returned (.error (Request.timeout id)) } m
      rw [if_pos rfl] at hget
      cases hget.symm.trans hq
      cases hprogress
    · intro hunregistered
      exact h.setRequest hr rfl (.inr hunregistered)

/-- In every run of prompt steps every entry has a call in progress. -/
theorem run_live {trace : List Label} (h : Run (Guarded Prompt Step) new trace c) : c.TablesLive := by
  induction h with
  | refl =>
    intro w hw
    simp [new] at hw
  | snoc hr hs ih =>
    obtain ⟨place,hplaced⟩ := run_placed (hr.mono fun _ _ _ hstep => hstep.2)
    exact (step_live_iff hplaced ih hs.2).mpr hs.1

theorem run_live_iff {trace : List Label} {label : Label} (h : Run (Guarded Prompt Step) new trace c)
    (hstep : Step c label c') : c'.TablesLive ↔ Prompt c label := by
  obtain ⟨place,hplaced⟩ := run_placed (h.mono fun _ _ _ hstep => hstep.2)
  exact step_live_iff hplaced (run_live h) hstep

end Live

end TcpClient

/-! ## The calls of the API -/

/-- A call of the API by its request; one that came back without a packet has timed out. -/
def Call.asRequest (call : Call) : TcpClient.Request :=
  ⟨call.request,match call.phase with
    | .drawn => .started
    | .waiting => .waiting
    | .returned (some packet) => .returned (.ok packet)
    | .returned none => .returned (.error (TcpClient.Request.timeout call.requestId))⟩

namespace Client

/-- The TCP client of a client, between the writes of its handler tasks. -/
def tcpClient (c : Client) : TcpClient :=
  ⟨c.sendTx,c.taken,c.tasks.map fun t => ⟨t,none⟩,c.calls.map Call.asRequest⟩

theorem request_requestId (call : Call) : call.request.requestId = some call.requestId := by
  rw [Call.request]
  cases call.api <;> rfl

theorem tcpClient_call {c : Client} {n : ℕ} {call : Call} (hc : c.calls[n]? = some call) :
    c.tcpClient.requests[n]? = some call.asRequest := by
  simp [tcpClient,hc]

theorem tcpClient_setCall (c : Client) (n : ℕ) (call : Call) :
    (c.setCall n call).tcpClient = c.tcpClient.setRequest n call.asRequest := by
  simp [tcpClient,setCall,TcpClient.setRequest,List.map_set]

theorem tcpClient_task {c : Client} {k : ℕ} {t : TcpClient.Task} (ht : c.tasks[k]? = some t) :
    c.tcpClient.workers[k]? = some ⟨t,none⟩ := by
  simp [tcpClient,ht]

theorem tcpClient_setTask (c : Client) (k : ℕ) (t : TcpClient.Task) :
    (c.setTask k t).tcpClient = c.tcpClient.setWorker k ⟨t,none⟩ := by
  simp [tcpClient,setTask,TcpClient.setWorker,List.map_set]

/-- To take a packet and to write it are two steps of the TCP client, and to draw a request id
is none. -/
theorem step_tcpClient {c c' : Client} {label : Label} (hstep : Step c label c') :
    ∃ trace, Run TcpClient.Step c.tcpClient trace c'.tcpClient := by
  cases hstep with
  | connectFails => exact ⟨[],.refl⟩
  | connect =>
    have hnew : tcpClient { c with tasks := c.tasks ++ [.new] } =
        { c.tcpClient with workers := c.tcpClient.workers ++ [.new] } := by
      simp [tcpClient,TcpClient.Worker.new]
    rw [hnew]
    exact ⟨_,.single .connect⟩
  | authenticateVoice => exact ⟨[],.refl⟩
  | @call api =>
    have hdrawn : TcpClient.Request.new (api.request c.requestIdCounter) =
        Call.asRequest ⟨api,c.requestIdCounter,.drawn⟩ := by cases api <;> rfl
    have hnew : tcpClient { c with
          requestIdCounter := c.requestIdCounter + 1
          calls := c.calls ++ [⟨api,c.requestIdCounter,.drawn⟩] } =
        { c.tcpClient with
          requests := c.tcpClient.requests ++ [.new (api.request c.requestIdCounter)] } := by
      simp [tcpClient,hdrawn]
    rw [hnew]
    exact ⟨_,.single .sendRequest⟩
  | @send n call data hc hp he =>
    have hphase : call.asRequest.phase = .started := by simp [Call.asRequest,hp]
    have henqueue := TcpClient.Step.enqueue (tcpClient_call hc) hphase (request_requestId call) he
    have hset := tcpClient_setCall c n { call with phase := .waiting }
    change ∃ trace, Run _ _ trace
      (TcpClient.enqueue (c.setCall n { call with phase := .waiting }).tcpClient _)
    rw [hset]
    exact ⟨_,.single henqueue⟩
  | sendMuteState he => exact ⟨_,.single (.sendEvent he)⟩
  | @outgoing k t o written bytes ht hrun ho hb hw =>
    have htask := tcpClient_task ht
    have htake := TcpClient.Step.take htask hrun rfl ho
    have hget := getElem?_set_of_some htask (TcpClient.Worker.take ⟨t,none⟩ o) k
    rw [if_pos rfl] at hget
    have hwrote : TcpClient.Step ({ c.tcpClient with taken := c.taken + 1 }.setWorker k
        (TcpClient.Worker.take ⟨t,none⟩ o)) (.wrote k written) _ := .wrote hget hrun rfl hb hw
    rw [TcpClient.Worker.wrote_take,TcpClient.setWorker,TcpClient.setWorker,List.set_set] at hwrote
    rw [tcpClient_setTask]
    exact ⟨_,(Run.single htake).snoc hwrote⟩
  | incoming ht hrun hlen =>
    rw [tcpClient_setTask]
    exact ⟨_,.single (.incoming (tcpClient_task ht) hrun rfl hlen)⟩
  | @respond n call packet k t hc hp ht ha =>
    have hphase : call.asRequest.phase = .waiting := by simp [Call.asRequest,hp]
    rw [tcpClient_setCall]
    exact ⟨_,.single (.respond (tcpClient_call hc) hphase (List.mem_of_getElem? (tcpClient_task ht)) ha)⟩
  | @fail n call hc hp =>
    have hphase : call.asRequest.phase = .waiting := by simp [Call.asRequest,hp]
    rw [tcpClient_setCall]
    exact ⟨_,.single (.timeout (tcpClient_call hc) hphase (request_requestId call))⟩

theorem run_tcpClient {trace : Trace} {c : Client} (h : Run Step new trace c) :
    ∃ trace', Run TcpClient.Step TcpClient.new trace' c.tcpClient :=
  h.simulates tcpClient step_tcpClient

end Client
end VoiceApp.Sdk
