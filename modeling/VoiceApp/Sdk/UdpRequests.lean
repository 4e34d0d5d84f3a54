import VoiceApp.Base.LabelledRun
import VoiceApp.Sdk.Datagrams

/-! # The requests of a UDP client

All calls and all handler tasks share one map. A call registers a new callback for each of
its attempts and removes whatever is under its id when the attempt is over, in whatever way.
-/
namespace VoiceApp.Sdk
open Protocol
namespace UdpClient
variable {T : Type}

def maxRetryAttempts : ℕ := 3

/-- What an attempt comes to. -/
inductive Outcome
  | answered (packet : Packet)
  | closed
  | timedOut

/-- A call is at an attempt: it has to register its callback, has registered it, has sent
the request, or has to clean up; or it has returned, or has panicked. -/
inductive Phase (T : Type)
  | starting (attempt : ℕ)
  | registered (attempt : ℕ) (tx : Oneshot)
  | waiting (attempt : ℕ) (tx : Oneshot)
  | cleaning (attempt : ℕ) (outcome : Outcome)
  | returned (result : Except RequestError T)
  | panicked

/-- A call of `send_request_with_response`. -/
structure Request (T : Type) where
  packet : Packet
  decoder : Packet → Except String T
  phase : Phase T

namespace Request

def new (packet : Packet) (decoder : Packet → Except String T) : Request T :=
  match packet.requestId with
  | none => ⟨packet,decoder,.returned (.error .noRequestId)⟩
  | some _ => ⟨packet,decoder,.starting 1⟩

def inProgress (r : Request T) : Bool :=
  match r.phase with
  | .returned _ => false
  | .panicked => false
  | _ => true

/-- The phase behind the cleaning. -/
def cleaned (r : Request T) (attempt : ℕ) : Outcome → Phase T
  | .answered packet => .returned ((r.decoder packet).mapError .connectionFailed)
  | .closed => .returned (.error .disconnected)
  | .timedOut =>
    if attempt < maxRetryAttempts then .starting (attempt + 1)
    else .returned (.error
      (.timeout ("UDP request failed after " ++ toString maxRetryAttempts ++ " attempts")))

end Request

end UdpClient

/-- `sendTx` is everything ever sent into the channel and `taken` counts what the tasks have
received from it; the channel is never closed, since the client has a receiver. Of the
handler tasks it is known whether they run. `oneshots` has the call of every oneshot channel
made so far. -/
structure UdpClient (T : Type) where
  sendTx : List Bytes
  taken : ℕ
  bytesSent : UInt64
  handler : UdpClient.Handler
  tasks : List Bool
  requests : List (UdpClient.Request T)
  oneshots : List ℕ

namespace UdpClient
variable {T : Type}

def new : UdpClient T := ⟨[],0,0,⟨.new,[],0⟩,[],[],[]⟩

def table (u : UdpClient T) : Table UInt64 Oneshot := u.handler.pendingRequests.waiting

def answered (u : UdpClient T) : List (Oneshot × Packet) := u.handler.pendingRequests.answered

def enqueue (u : UdpClient T) (data : Bytes) : UdpClient T := { u with sendTx := u.sendTx ++ [data] }

def setRequest (u : UdpClient T) (n : ℕ) (r : Request T) : UdpClient T :=
  { u with requests := u.requests.set n r }

/-- `oneshot::channel()`, and its sender goes into the map. -/
def register (u : UdpClient T) (n : ℕ) (id : UInt64) : UdpClient T :=
  { u with
    handler := { u.handler with
      pendingRequests := u.handler.pendingRequests.register id u.oneshots.length }
    oneshots := u.oneshots ++ [n] }

def remove (u : UdpClient T) (id : UInt64) : UdpClient T :=
  { u with handler := { u.handler with
      pendingRequests := { u.handler.pendingRequests with
        waiting := u.handler.pendingRequests.waiting.erase id } } }

/-- `handle_outgoing` in the task `k`. -/
def outgoing (u : UdpClient T) (k : ℕ) (data : Bytes) (sent : Bool) : UdpClient T :=
  { u with
    taken := u.taken + 1
    bytesSent := if sent then u.bytesSent + UInt64.ofNat data.length else u.bytesSent
    tasks := u.tasks.set k sent }

/-- The incoming branch of the task `k`; it may have failed to receive. -/
def incoming (u : UdpClient T) (k : ℕ) : Option Bytes → UdpClient T
  | none => { u with tasks := u.tasks.set k false }
  | some bytes =>
    let t := (⟨u.handler,true⟩ : Task).incoming (received bytes)
    { u with handler := t.handler, tasks := u.tasks.set k t.running }

/-- No entry is that of this callback. -/
def Unregistered (u : UdpClient T) (tx : Oneshot) : Prop := u.table.All fun _ tx' => tx' ≠ tx

inductive Label (T : Type)
  | connect
  | sendPacket (data : Bytes)
  | sendRequest (packet : Packet) (decoder : Packet → Except String T)
  | register (n : ℕ)
  | send (n : ℕ)
  | encodePanics (n : ℕ)
  | outgoing (k : ℕ) (sent : Bool)
  | incoming (k : ℕ) (result : Option Bytes)
  | respond (n : ℕ) (packet : Packet)
  | closed (n : ℕ)
  | timeout (n : ℕ)
  | cleanUp (n : ℕ)

/-- One step of a call or of a handler task; the timeout comes at any time. -/
inductive Step : UdpClient T → Label T → UdpClient T → Prop
  | connect {u} : Step u .connect { u with tasks := u.tasks ++ [true] }
  -- the voice packets share the channel
  | sendPacket {u data} : Step u (.sendPacket data) (u.enqueue data)
  | sendRequest {u packet decoder} :
      Step u (.sendRequest packet decoder) { u with requests := u.requests ++ [.new packet decoder] }
  | register {u n r attempt id} (hr : u.requests[n]? = some r) (hp : r.phase = .starting attempt)
      (hid : r.packet.requestId = some id) :
      Step u (.register n)
        ((u.register n id).setRequest n { r with phase := .registered attempt u.oneshots.length })
  | send {u n r attempt tx data} (hr : u.requests[n]? = some r) (hp : r.phase = .registered attempt tx)
      (he : r.packet.encode = some data) :
      Step u (.send n) ((u.enqueue data).setRequest n { r with phase := .waiting attempt tx })
  | encodePanics {u n r attempt tx} (hr : u.requests[n]? = some r)
      (hp : r.phase = .registered attempt tx) (he : r.packet.encode = none) :
      Step u (.encodePanics n) (u.setRequest n { r with phase := .panicked })
  | outgoing {u k data sent} (hrun : u.tasks[k]? = some true) (hd : u.sendTx[u.taken]? = some data) :
      Step u (.outgoing k sent) (u.outgoing k data sent)
  | incoming {u k result} (hrun : u.tasks[k]? = some true) :
      Step u (.incoming k result) (u.incoming k result)
  | respond {u n r attempt tx packet} (hr : u.requests[n]? = some r) (hp : r.phase = .waiting attempt tx)
      (ha : (tx,packet) ∈ u.answered) :
      Step u (.respond n packet) (u.setRequest n { r with phase := .cleaning attempt (.answered packet) })
  | closed {u n r attempt tx} (hr : u.requests[n]? = some r) (hp : r.phase = .waiting attempt tx)
      (hd : u.Unregistered tx) (ha : ∀ packet, (tx,packet) ∉ u.answered) :
      Step u (.closed n) (u.setRequest n { r with phase := .cleaning attempt .closed })
  | timeout {u n r attempt tx} (hr : u.requests[n]? = some r) (hp : r.phase = .waiting attempt tx) :
      Step u (.timeout n) (u.setRequest n { r with phase := .cleaning attempt .timedOut })
  | cleanUp {u n r attempt outcome id} (hr : u.requests[n]? = some r)
      (hp : r.phase = .cleaning attempt outcome) (hid : r.packet.requestId = some id) :
      Step u (.cleanUp n) ((u.remove id).setRequest n { r with phase := r.cleaned attempt outcome })

/-! ## Live entries -/

/-- The call that has made this callback has sent the id and is in progress. -/
def Owns (u : UdpClient T) (id : UInt64) (tx : Oneshot) : Prop :=
  ∃ (n : ℕ) (r : Request T), u.oneshots[tx]? = some n ∧ u.requests[n]? = some r ∧
    r.packet.requestId = some id ∧ r.inProgress = true

def TableLive (u : UdpClient T) : Prop := u.table.All u.Owns

/-- The calls in progress. -/
def inProgress (u : UdpClient T) : List (Request T) := u.requests.filter Request.inProgress

/-- A request that cannot be encoded has no entry. -/
def Encodable (u : UdpClient T) : Label T → Prop
  | .encodePanics n => ∀ r attempt tx, u.requests[n]? = some r → r.phase = .registered attempt tx →
      u.Unregistered tx
  | _ => True

/-- Every entry has a call in progress of its own id, so there are no more of them. -/
theorem TableLive.card_le {u : UdpClient T} (h : u.TableLive) : u.table.keys.card ≤ u.inProgress.length := by
  have hkeys : u.table.All fun id _ => id ∈ u.inProgress.filterMap fun r => r.packet.requestId := by
    intro id tx hwait
    obtain ⟨n,r,_,hr,hid,hprogress⟩ := h id tx hwait
    apply List.mem_filterMap.mpr
    exact ⟨r,List.mem_filter.mpr ⟨List.mem_of_getElem? hr,hprogress⟩,hid⟩
  exact hkeys.card_keys_le.trans (List.length_filterMap_le _ _)

/-! ## What a step does to the map -/

section Live
variable {u u' : UdpClient T}

/-- A registered callback is one that its call has made. -/
def Opened (u : UdpClient T) : Prop := ∀ (n : ℕ) (r : Request T) (attempt : ℕ) (tx : Oneshot),
  u.requests[n]? = some r → r.phase = .registered attempt tx → u.oneshots[tx]? = some n

theorem Opened.setRequest (h : u.Opened) {n : ℕ} {r r' : Request T} (hr : u.requests[n]? = some r)
    (hphase : ∀ attempt tx, r'.phase = .registered attempt tx → u.oneshots[tx]? = some n) :
    (u.setRequest n r').Opened := by
  intro m q attempt tx hq hp
  have hget := getElem?_set_of_some hr r' m
  by_cases hm : m = n
  · rw [if_pos hm] at hget
    cases hget.symm.trans hq
    rw [hm]
    exact hphase attempt tx hp
  · rw [if_neg hm] at hget
    exact h m q attempt tx (hget.symm.trans hq) hp

theorem step_opened {label : Label T} (h : u.Opened) (hstep : Step u label u') : u'.Opened := by
  cases hstep with
  | sendRequest =>
    intro n r attempt tx hr hp
    rcases getElem?_concat_inv hr with hold | ⟨_,rfl⟩
    · exact h n r attempt tx hold hp
    · unfold Request.new at hp
      split at hp <;> cases hp
  | @register n r attempt id hr =>
    have hopened : (u.register n id).Opened := by
      intro m q attempt' tx hq hp
      exact getElem?_append_of_some (h m q attempt' tx hq hp) _
    apply hopened.setRequest hr
    intro attempt' tx hp
    cases hp
    exact List.getElem?_concat_length
  | send hr => exact Opened.setRequest (u := u.enqueue _) h hr (by simp)
  | encodePanics hr => exact h.setRequest hr (by simp)
  | incoming =>
    unfold incoming
    split <;> exact h
  | respond hr => exact h.setRequest hr (by simp)
  | closed hr => exact h.setRequest hr (by simp)
  | timeout hr => exact h.setRequest hr (by simp)
  | @cleanUp n r attempt outcome id hr =>
    refine Opened.setRequest (u := u.remove id) h hr ?_
    intro attempt' tx hp
    change r.cleaned attempt outcome = _ at hp
    unfold Request.cleaned at hp
    split at hp
    · cases hp
    · cases hp
    · split at hp <;> cases hp
  | _ => exact h

/-- The callback is that of the attempt that the call is at. -/
def Request.Holds (r : Request T) (tx : Oneshot) : Prop :=
  match r.phase with
  | .registered _ tx' => tx' = tx
  | .waiting _ tx' => tx' = tx
  | .cleaning .. => True
  | _ => False

theorem Request.Holds.inProgress {r : Request T} {tx : Oneshot} (h : r.Holds tx) : r.inProgress = true := by
  unfold Request.Holds at h
  unfold Request.inProgress
  split at h <;> simp_all

/-- Every entry is that of an attempt that its call is at. -/
def Tidy (u : UdpClient T) : Prop := u.table.All fun id tx => ∃ (n : ℕ) (r : Request T),
  u.oneshots[tx]? = some n ∧ u.requests[n]? = some r ∧ r.packet.requestId = some id ∧ r.Holds tx

theorem Tidy.live (h : u.Tidy) : u.TableLive := by
  intro id tx hwait
  obtain ⟨n,r,htx,hr,hid,hholds⟩ := h id tx hwait
  exact ⟨n,r,htx,hr,hid,hholds.inProgress⟩

/-- A call goes on with the entries that it has. -/
theorem Tidy.setRequest (h : u.Tidy) {n : ℕ} {r r' : Request T} (hr : u.requests[n]? = some r)
    (hpacket : r'.packet = r.packet)
    (hn : ∀ id tx, u.table.lookup id = some tx → u.oneshots[tx]? = some n → r.Holds tx → r'.Holds tx) :
    (u.setRequest n r').Tidy := by
  intro id tx hwait
  obtain ⟨m,q,htx,hq,hid,hholds⟩ := h id tx hwait
  have hget := getElem?_set_of_some hr r' m
  by_cases hm : m = n
  · rw [if_pos hm] at hget
    rw [hm] at hq htx
    cases hr.symm.trans hq
    rw [← hpacket] at hid
    rw [← hm] at htx
    exact ⟨m,r',htx,hget,hid,hn id tx hwait (hm ▸ htx) hholds⟩
  · rw [if_neg hm] at hget
    exact ⟨m,q,htx,hget.trans hq,hid,hholds⟩

theorem Tidy.register (h : u.Tidy) {n : ℕ} {r : Request T} {id : UInt64} (hr : u.requests[n]? = some r)
    (hid : r.packet.requestId = some id) (hholds : r.Holds u.oneshots.length) : (u.register n id).Tidy := by
  apply Table.All.insert
  · intro id' tx hwait
    obtain ⟨m,q,htx,hown⟩ := h id' tx hwait
    exact ⟨m,q,getElem?_append_of_some htx _,hown⟩
  · exact ⟨n,r,List.getElem?_concat_length,hr,hid,hholds⟩

/-- A datagram takes an entry out at most. -/
theorem incoming_all {P : UInt64 → Oneshot → Prop} {handler : Handler}
    (h : handler.pendingRequests.waiting.All P) (bytes : Bytes) :
    ((⟨handler,true⟩ : Task).incoming bytes).handler.pendingRequests.waiting.All P := by
  cases bytes with
  | nil => exact h
  | cons byte rest =>
    cases hd : Packet.decode (byte :: rest) with
    | error e =>
      simp only [Task.incoming,handleIncoming,hd]
      exact h
    | ok result =>
      obtain ⟨packet,n⟩ := result
      have hresolve := Pending.resolve_all h (responseId packet) packet
      simp only [Task.incoming,handleIncoming,hd]
      generalize handler.pendingRequests.resolve (responseId packet) packet = resolved at *
      obtain ⟨pendingRequests,found⟩ := resolved
      cases found <;> exact hresolve

theorem step_tidy {label : Label T} (h : u.Tidy) (hstep : Guarded Encodable Step u label u') : u'.Tidy := by
  obtain ⟨hencodable,hstep⟩ := hstep
  cases hstep with
  | connect => exact h
  | sendPacket => exact h
  | sendRequest =>
    intro id tx hwait
    obtain ⟨n,r,htx,hr,hown⟩ := h id tx hwait
    exact ⟨n,r,htx,getElem?_append_of_some hr _,hown⟩
  | @register n r attempt id hr hp hid =>
    have hget := getElem?_set_of_some hr { r with phase := .registered attempt u.oneshots.length } n
    rw [if_pos rfl] at hget
    have hset : (u.setRequest n { r with phase := .registered attempt u.oneshots.length }).Tidy :=
      h.setRequest hr rfl (by simp [Request.Holds,hp])
    exact hset.register hget hid rfl
  | send hr hp =>
    refine Tidy.setRequest (u := u.enqueue _) h hr rfl ?_
    simp [Request.Holds,hp]
  | @encodePanics n r attempt tx hr hp =>
    refine h.setRequest hr rfl ?_
    -- an entry of the call is that of the attempt, and there is none
    intro id tx' hwait _ hholds
    simp only [Request.Holds,hp] at hholds
    exact (hencodable r attempt tx hr hp id tx' hwait hholds.symm).elim
  | outgoing => exact h
  | @incoming k result =>
    cases result with
    | none => exact h
    | some bytes => exact incoming_all h _
  | respond hr => exact h.setRequest hr rfl (by simp [Request.Holds])
  | closed hr => exact h.setRequest hr rfl (by simp [Request.Holds])
  | timeout hr => exact h.setRequest hr rfl (by simp [Request.Holds])
  | @cleanUp n r attempt outcome id hr hp hid =>
    have hrest := h.erase id
    have htidy : (u.remove id).Tidy := hrest.mono fun _ _ hk => hk.2
    refine htidy.setRequest hr rfl ?_
    -- what is left is under other ids, and so of other calls
    intro id' tx hwait htx _
    obtain ⟨hne,m,q,hm,hq,hid',_⟩ := hrest id' tx hwait
    cases htx.symm.trans hm
    cases hr.symm.trans hq
    cases hid.symm.trans hid'
    exact (hne rfl).elim

/-- A panic with an entry leaves it behind. -/
theorem step_left {label : Label T} (hopened : u.Opened) (hstep : Step u label u')
    (hlive : u'.TableLive) : Encodable u label := by
  cases hstep with
  | @encodePanics n r attempt tx hr hp =>
    intro q attempt' tx' hq hp' id m hwait heq
    rw [heq] at hwait
    obtain ⟨j,q',hj,hq',_,hprogress⟩ := hlive id tx' hwait
    cases (hopened n q attempt' tx' hq hp').symm.trans hj
    have hget := getElem?_set_of_some hr { r with phase := .panicked } n
    rw [if_pos rfl] at hget
    cases hget.symm.trans hq'
    simp [Request.inProgress] at hprogress
  | _ => trivial

theorem run_opened {trace : List (Label T)} (h : Run Step new trace u) : u.Opened := by
  apply h.preserves fun _ _ _ ht hstep => step_opened ht hstep
  intro n r attempt tx hr
  simp [new] at hr

theorem run_tidy {trace : List (Label T)} (h : Run (Guarded Encodable Step) new trace u) : u.Tidy := by
  apply h.preserves fun _ _ _ ht hstep => step_tidy ht hstep
  exact Table.All.empty

theorem run_live_iff {trace : List (Label T)} {label : Label T}
    (h : Run (Guarded Encodable Step) new trace u) (hstep : Step u label u') :
    u'.TableLive ↔ Encodable u label := by
  have hopened := run_opened (h.mono fun _ _ _ hs => hs.2)
  constructor
  · exact step_left hopened hstep
  · intro hencodable
    exact (step_tidy (run_tidy h) ⟨hencodable,hstep⟩).live

end Live

end UdpClient
end VoiceApp.Sdk
